import Whale.Daemon.HostCalls
import Whale.Lib.Lines

/-!
# A call of the host is answered once, by its own connection

`Entries` says what the tables, the messages that were taken and the cancellations have to do with the calls, and
`Active` the same of the contexts. A message finds a call only under an id of its own connection (`owner_of_target`).
-/

namespace Whale.HostCalls

variable {Output Context : Type}

/-! ## Ids -/

theorem startsWith_iff {p s : String} : startsWith p s = true ↔ p.toList <+: s.toList :=
  List.isPrefixOf_iff_prefix

/-- An entry of a connection is of a call of that connection. -/
theorem owner_of_key {connection : Connection} {c : Call Output Context} (h : ofConnection connection c.key = true) :
    connection = c.connection := by
  have hid : connection.id.toList = c.connection.id.toList := by
    unfold Call.key at h
    cases htable : c.table with
    | tools =>
      rw [htable] at h
      have hprefix := startsWith_iff.mp h
      simp only [String.toList_append] at hprefix
      refine Lines.eq_of_prefix_sep (z := "call_".toList ++ c.uuid.toList) connection.plain c.connection.plain ?_
      simpa using hprefix
    | contexts =>
      rw [htable] at h
      have hprefix := startsWith_iff.mp h
      simp only [String.toList_append, List.append_assoc] at hprefix
      refine Lines.eq_of_prefix_sep (z := c.uuid.toList) connection.plain c.connection.plain ?_
      simpa using (List.prefix_append_right_inj _).mp hprefix
  cases connection
  cases hc : c.connection with
  | mk id plain =>
    rw [hc] at hid
    obtain rfl := String.toList_inj.mp hid
    rfl

theorem of_owned {connection : Connection} {k : String} {key : Table × String} (h : owned connection k = some key) :
    ofConnection connection key = true := by
  unfold owned at h
  split at h
  · next hs =>
    obtain rfl := Option.some.inj h
    exact hs
  · cases h

/-- The entry that a message looks for is of its connection. -/
theorem of_target {m : Message Output} {key : Table × String} (h : m.target = some key) :
    ofConnection m.connection key = true := by
  cases m with
  | response connection response =>
    unfold Message.target at h
    simp only at h
    split at h
    · split at h
      · next hs =>
        obtain rfl := Option.some.inj h
        exact hs
      · exact of_owned h
    · exact of_owned h
  | result => exact of_owned h

/-! ## Stages -/

def Stage.early : Stage Output Context → Bool
  | started | refused _ => true
  | _ => false

def Stage.over : Stage Output Context → Bool
  | ended _ => true
  | _ => false

/-- What a call comes to, once it is known. -/
def Stage.outcome : Stage Output Context → Option (Outcome Output Context)
  | leaving outcome | cleaning outcome | ended outcome => some outcome
  | _ => none

/-- With its context in `active`, unless somebody has finished it. -/
def Stage.held : Stage Output Context → Bool
  | ready | sending | waiting | leaving _ => true
  | _ => false

/-- The guard has looked for the context. -/
def Stage.past : Stage Output Context → Bool
  | cleaning _ | ended _ => true
  | _ => false

/-- A tool call that has taken its sender back. -/
def Call.Failed (c : Call Output Context) : Prop :=
  c.table = .tools ∧ ∃ message, c.stage.outcome = some (.failed message)

theorem Stage.not_early_of_listed {stage : Stage Output Context} (h : stage.listed = true) : stage.early = false := by
  cases stage <;> first | rfl | cases h

theorem Stage.listed_of_fails {stage : Stage Output Context} {e message : String}
    (h : message ∈ stage.toolFailures e) : stage.listed = true := by
  cases stage <;> first | rfl | cases h

theorem Stage.held_of_fails {stage : Stage Output Context} {e message : String}
    (h : message ∈ stage.toolFailures e) : stage.held = true := by
  cases stage <;> first | rfl | cases h

theorem Stage.not_past_of_held {stage : Stage Output Context} (h : stage.held = true) : stage.past = false := by
  cases stage <;> first | rfl | cases h

theorem Stage.not_over_of_listed {stage : Stage Output Context} (h : stage.listed = true) : stage.over = false := by
  cases stage <;> first | rfl | cases h

theorem Call.key_fst (c : Call Output Context) : c.key.1 = c.table := by
  unfold Call.key
  cases c.table <;> rfl

/-- A message has taken the sender of the call. -/
def Taken (s : HostCalls Output Context) (i : Nat) : Prop := i ∈ s.handlers.map Handler.call

section Tables

variable {labels : List (Option (Message Output))} {s s' : HostCalls Output Context} {i j : Nat}
  {c d e : Call Output Context}

theorem get_put (hc : s.calls[i]? = some c) :
    (s.put i d).calls[j]? = some e ↔ j = i ∧ e = d ∨ j ≠ i ∧ s.calls[j]? = some e := Slots.get_set_iff hc

@[simp] theorem finish_calls (id : String) : (s.finish id).calls = s.calls := by
  unfold finish; split <;> rfl

@[simp] theorem finish_pending (id : String) : (s.finish id).pending = s.pending := by
  unfold finish; split <;> rfl

@[simp] theorem finish_handlers (id : String) : (s.finish id).handlers = s.handlers := by
  unfold finish; split <;> rfl

@[simp] theorem finish_cancels (id : String) : (s.finish id).cancels = s.cancels := by
  unfold finish; split <;> rfl

@[simp] theorem finish_disconnecting (id : String) : (s.finish id).disconnecting = s.disconnecting := by
  unfold finish; split <;> rfl

theorem finish_put (id : String) : (s.put i c).finish id = (s.finish id).put i c := by
  unfold finish
  split <;> simp_all [HostCalls.put]

/-! ## The sender of a call -/

variable [HostTypes Output Context]

/-- The sender of a call is in its table, was taken by a message, or was dropped. -/
structure Entries (labels : List (Option (Message Output))) (s : HostCalls Output Context) : Prop where
  distinct : ∀ {i j : Nat} {c d : Call Output Context}, s.calls[i]? = some c → s.calls[j]? = some d →
    c.key = d.key → i = j
  early : ∀ {i : Nat} {c : Call Output Context}, s.calls[i]? = some c → c.stage.early = true → c.slot = .empty
  pending : ∀ {key : Table × String} {i : Nat}, s.pending.get? key = some i →
    ∃ c, s.calls[i]? = some c ∧ c.key = key ∧ c.stage.listed = true ∧ c.slot = .empty ∧ ¬Taken s i
  listed : ∀ {i : Nat} {c : Call Output Context}, s.calls[i]? = some c → c.stage.listed = true → ¬c.Failed →
    s.pending.get? c.key = some i ∨ Taken s i ∨ c.slot = .closed
  failed : ∀ {i : Nat} {c : Call Output Context}, s.calls[i]? = some c → c.Failed → s.pending.get? c.key = none
  once : (s.handlers.map Handler.call).Nodup
  handled : ∀ x ∈ s.handlers, some x.message ∈ labels ∧ ∃ c, s.calls[x.call]? = some c ∧
    x.message.target = some c.key ∧ c.stage.early = false
  sent : ∀ {i : Nat} {c : Call Output Context} {answer : Answer Output Context}, s.calls[i]? = some c →
    c.slot = .sent answer → ∃ x ∈ s.handlers, x.call = i ∧ x.stage = .sent ∧ x.message.answer c.table = answer
  delivered : ∀ x ∈ s.handlers, x.stage = .sent → ∀ {c : Call Output Context}, s.calls[x.call]? = some c →
    c.stage.listed = true → c.slot = .sent (x.message.answer c.table)
  closed : ∀ {i : Nat} {c : Call Output Context}, s.calls[i]? = some c → c.slot = .closed →
    ¬Taken s i ∧ c.connection ∈ s.disconnecting
  answered : ∀ {i : Nat} {c : Call Output Context} {answer : Answer Output Context}, s.calls[i]? = some c →
    c.stage.outcome = some (.answered answer) → c.slot = .sent answer

namespace Entries

/-- What is kept if the tables are. -/
theorem widen {labels' : List (Option (Message Output))} (h : Entries labels s)
    (hlabels : ∀ m, some m ∈ labels → some m ∈ labels') (hcalls : s'.calls = s.calls)
    (hpending : s'.pending = s.pending) (hhandlers : s'.handlers = s.handlers)
    (hdisconnecting : ∀ connection ∈ s.disconnecting, connection ∈ s'.disconnecting) : Entries labels' s' := by
  have htaken : ∀ i, Taken s' i ↔ Taken s i := fun i => by rw [Taken, hhandlers, Taken]
  constructor
  · rw [hcalls]; exact h.distinct
  · rw [hcalls]; exact h.early
  · simp only [hcalls, hpending, htaken]; exact h.pending
  · simp only [hcalls, hpending, htaken]; exact h.listed
  · rw [hcalls, hpending]; exact h.failed
  · rw [hhandlers]; exact h.once
  · rw [hcalls, hhandlers]
    intro x hx
    obtain ⟨hm, hrest⟩ := h.handled x hx
    exact ⟨hlabels _ hm, hrest⟩
  · rw [hcalls, hhandlers]; exact h.sent
  · rw [hcalls, hhandlers]; exact h.delivered
  · simp only [hcalls, htaken]
    intro i c hc hslot
    obtain ⟨hnot, hconnection⟩ := h.closed hc hslot
    exact ⟨hnot, hdisconnecting _ hconnection⟩
  · rw [hcalls]; exact h.answered

/-- The handlers of two messages that took the same sender are the same. -/
theorem handler_eq (h : Entries labels s) {x y : Handler Output} (hx : x ∈ s.handlers) (hy : y ∈ s.handlers)
    (hcall : x.call = y.call) : x = y := List.inj_on_of_nodup_map h.once hx hy hcall

/-- The call of an entry. -/
theorem entry (h : Entries labels s) {key : Table × String} (hp : s.pending.get? key = some i)
    (hc : s.calls[i]? = some c) : c.key = key ∧ c.stage.listed = true ∧ c.slot = .empty ∧ ¬Taken s i := by
  obtain ⟨d, hd, hrest⟩ := h.pending hp
  obtain rfl := Option.some.inj (hc.symm.trans hd)
  exact hrest

theorem key_ne (h : Entries labels s) (hc : s.calls[i]? = some c) (hd : s.calls[j]? = some d) (hne : j ≠ i) :
    d.key ≠ c.key := fun hkey => hne (h.distinct hd hc hkey)

/-- A call goes on, and may take its sender back. -/
theorem move (h : Entries labels s) (hc : s.calls[i]? = some c) {stage : Stage Output Context}
    {p : KeyMap (Table × String) Nat} (hkeep : ∀ {key}, key ≠ c.key → p.get? key = s.pending.get? key)
    (hown : ∀ {j}, p.get? c.key = some j → s.pending.get? c.key = some j ∧ stage.listed = true)
    (hearly : stage.early = true → c.stage.early = true) (hlisted : stage.listed = true → c.stage.listed = true)
    (hstays : stage.listed = true → ¬Call.Failed { c with stage } →
      p.get? c.key = some i ∨ Taken s i ∨ c.slot = .closed)
    (hfailed : Call.Failed { c with stage } → p.get? c.key = none)
    (hanswered : ∀ answer, stage.outcome = some (.answered answer) → c.slot = .sent answer) :
    Entries labels { s.put i { c with stage } with pending := p } where
  distinct hd he hkey := by
    obtain ⟨rfl, rfl⟩ | ⟨-, hd'⟩ := (get_put hc).mp hd <;> obtain ⟨rfl, rfl⟩ | ⟨-, he'⟩ := (get_put hc).mp he
    · rfl
    · exact h.distinct hc he' hkey
    · exact h.distinct hd' hc hkey
    · exact h.distinct hd' he' hkey
  early hd hstage := by
    obtain ⟨rfl, rfl⟩ | ⟨-, hd⟩ := (get_put hc).mp hd
    · have hslot := h.early hc (hearly hstage)
      exact hslot
    · exact h.early hd hstage
  pending {key j} hp := by
    by_cases hkey : key = c.key
    · subst hkey
      obtain ⟨hp, hl⟩ := hown hp
      obtain ⟨d, hd, hdkey, -, hslot, htaken⟩ := h.pending hp
      obtain rfl := h.distinct hd hc hdkey
      obtain rfl := Option.some.inj (hd.symm.trans hc)
      exact ⟨_, (get_put hc).mpr (.inl ⟨rfl, rfl⟩), rfl, hl, hslot, htaken⟩
    · have hp' : s.pending.get? key = some j := (hkeep hkey).symm.trans hp
      obtain ⟨d, hd, hdkey, hrest⟩ := h.pending hp'
      have hj : j ≠ i := by
        rintro rfl
        obtain rfl := Option.some.inj (hd.symm.trans hc)
        exact hkey hdkey.symm
      exact ⟨d, (get_put hc).mpr (.inr ⟨hj, hd⟩), hdkey, hrest⟩
  listed hd hl hf := by
    obtain ⟨rfl, rfl⟩ | ⟨hj, hd⟩ := (get_put hc).mp hd
    · exact hstays hl hf
    · exact (h.listed hd hl hf).imp_left (hkeep (h.key_ne hc hd hj)).trans
  failed hd hf := by
    obtain ⟨rfl, rfl⟩ | ⟨hj, hd⟩ := (get_put hc).mp hd
    · exact hfailed hf
    · exact (hkeep (h.key_ne hc hd hj)).trans (h.failed hd hf)
  once := h.once
  handled x hx := by
    obtain ⟨hm, d, hd, htarget, hstage⟩ := h.handled x hx
    refine ⟨hm, ?_⟩
    by_cases hj : x.call = i
    · subst hj
      obtain rfl := Option.some.inj (hd.symm.trans hc)
      refine ⟨_, (get_put hc).mpr (.inl ⟨rfl, rfl⟩), htarget, ?_⟩
      cases hnew : stage.early with
      | false => rfl
      | true => rw [hearly hnew] at hstage; cases hstage
    · exact ⟨d, (get_put hc).mpr (.inr ⟨hj, hd⟩), htarget, hstage⟩
  sent hd hslot := by
    obtain ⟨rfl, rfl⟩ | ⟨-, hd⟩ := (get_put hc).mp hd
    · have hsent := h.sent hc hslot
      exact hsent
    · exact h.sent hd hslot
  delivered x hx hstage d hd hl := by
    obtain ⟨rfl, rfl⟩ | ⟨-, hd⟩ := (get_put hc).mp hd
    · have hslot := h.delivered x hx hstage hc (hlisted hl)
      exact hslot
    · exact h.delivered x hx hstage hd hl
  closed hd hslot := by
    obtain ⟨rfl, rfl⟩ | ⟨-, hd⟩ := (get_put hc).mp hd
    · have hclosed := h.closed hc hslot
      exact hclosed
    · exact h.closed hd hslot
  answered hd ho := by
    obtain ⟨rfl, rfl⟩ | ⟨-, hd⟩ := (get_put hc).mp hd
    · exact hanswered _ ho
    · exact h.answered hd ho

/-- A call goes on, and the tables are as they were. -/
theorem advance (h : Entries labels s) (hc : s.calls[i]? = some c) {stage : Stage Output Context}
    (hlisted : stage.listed = c.stage.listed) (hearly : stage.early = c.stage.early)
    (hfailed : Call.Failed { c with stage } ↔ c.Failed)
    (hanswered : ∀ answer, stage.outcome = some (.answered answer) → c.slot = .sent answer) :
    Entries labels (s.put i { c with stage }) := by
  refine h.move (p := s.pending) hc (fun _ => rfl) (fun {j} hp => ⟨hp, ?_⟩) (fun he => hearly ▸ he)
    (fun hl => hlisted ▸ hl) (fun hl hf => h.listed hc (hlisted ▸ hl) (fun hf' => hf (hfailed.mpr hf')))
    (fun hf => h.failed hc (hfailed.mp hf)) hanswered
  obtain ⟨d, hd, hkey, hl, -⟩ := h.pending hp
  obtain rfl := h.distinct hd hc hkey
  obtain rfl := Option.some.inj (hd.symm.trans hc)
  exact hlisted.trans hl

/-- A call is over, or it is to be, and its sender is out of the table. -/
theorem leave (h : Entries labels s) (hc : s.calls[i]? = some c) {stage : Stage Output Context}
    (hearly : stage.early = false) (hlisted : stage.listed = true → c.stage.listed = true)
    (hfailed : stage.listed = true → Call.Failed { c with stage })
    (hanswered : ∀ answer, stage.outcome = some (.answered answer) → c.slot = .sent answer) :
    Entries labels { s.put i { c with stage } with pending := s.pending.erase c.key } :=
  h.move hc (fun hne => KeyMap.get?_erase_ne hne) (fun hp => absurd (KeyMap.get?_erase_self.symm.trans hp) nofun)
    (fun he => by rw [hearly] at he; cases he) hlisted (fun hl hf => absurd (hfailed hl) hf)
    (fun _ => KeyMap.get?_erase_self) hanswered

theorem called (h : Entries labels s) (c : Call Output Context) (hstage : c.stage = .started) (hslot : c.slot = .empty)
    (hfresh : ∀ d ∈ s.calls, d.key ≠ c.key) : Entries labels { s with calls := s.calls ++ [c] } where
  distinct hd he hkey := by
    obtain hd' | ⟨rfl, rfl⟩ := Slots.get_concat_iff.mp hd <;> obtain he' | ⟨rfl, rfl⟩ := Slots.get_concat_iff.mp he
    · exact h.distinct hd' he' hkey
    · exact absurd hkey (hfresh _ (List.mem_of_getElem? hd'))
    · exact absurd hkey.symm (hfresh _ (List.mem_of_getElem? he'))
    · rfl
  early hd he := by
    obtain hd | ⟨-, rfl⟩ := Slots.get_concat_iff.mp hd
    · exact h.early hd he
    · exact hslot
  pending hp := by
    obtain ⟨d, hd, hrest⟩ := h.pending hp
    exact ⟨d, Slots.get_concat_iff.mpr (.inl hd), hrest⟩
  listed hd hl hf := by
    obtain hd | ⟨-, rfl⟩ := Slots.get_concat_iff.mp hd
    · exact h.listed hd hl hf
    · rw [hstage] at hl; cases hl
  failed hd hf := by
    obtain hd | ⟨-, rfl⟩ := Slots.get_concat_iff.mp hd
    · exact h.failed hd hf
    · obtain ⟨-, message, ho⟩ := hf
      rw [hstage] at ho
      cases ho
  once := h.once
  handled x hx := by
    obtain ⟨hm, d, hd, hrest⟩ := h.handled x hx
    exact ⟨hm, d, Slots.get_concat_iff.mpr (.inl hd), hrest⟩
  sent hd hs := by
    obtain hd | ⟨-, rfl⟩ := Slots.get_concat_iff.mp hd
    · exact h.sent hd hs
    · rw [hslot] at hs; cases hs
  delivered x hx hsent d hd hl := by
    obtain hd | ⟨-, rfl⟩ := Slots.get_concat_iff.mp hd
    · exact h.delivered x hx hsent hd hl
    · rw [hstage] at hl; cases hl
  closed hd hs := by
    obtain hd | ⟨-, rfl⟩ := Slots.get_concat_iff.mp hd
    · exact h.closed hd hs
    · rw [hslot] at hs; cases hs
  answered hd ho := by
    obtain hd | ⟨-, rfl⟩ := Slots.get_concat_iff.mp hd
    · exact h.answered hd ho
    · rw [hstage] at ho; cases ho

/-- A message takes only a call that has begun. -/
theorem not_taken (h : Entries labels s) (hc : s.calls[i]? = some c) (hearly : c.stage.early = true) : ¬Taken s i := by
  intro htaken
  obtain ⟨x, hx, rfl⟩ := List.mem_map.mp htaken
  obtain ⟨-, d, hd, -, hnot⟩ := h.handled x hx
  obtain rfl := Option.some.inj (hd.symm.trans hc)
  rw [hearly] at hnot
  cases hnot

/-- The sender is put into its table. -/
theorem registered (h : Entries labels s) (hc : s.calls[i]? = some c) (hstage : c.stage = .started) :
    Entries labels { s.put i { c with stage := .registered } with pending := s.pending.insert c.key i } := by
  have hearly : c.stage.early = true := by rw [hstage]; rfl
  have hempty : c.slot = .empty := h.early hc hearly
  have htaken : ¬Taken s i := h.not_taken hc hearly
  have hne : ∀ {key j}, s.pending.get? key = some j → j ≠ i := by
    rintro key j hp rfl
    obtain ⟨-, hl, -⟩ := h.entry hp hc
    rw [hstage] at hl
    cases hl
  constructor
  · intro j k d e hd he hkey
    obtain ⟨rfl, rfl⟩ | ⟨-, hd'⟩ := (get_put hc).mp hd <;> obtain ⟨rfl, rfl⟩ | ⟨-, he'⟩ := (get_put hc).mp he
    · rfl
    · exact h.distinct hc he' hkey
    · exact h.distinct hd' hc hkey
    · exact h.distinct hd' he' hkey
  · intro j d hd he
    obtain ⟨rfl, rfl⟩ | ⟨-, hd⟩ := (get_put hc).mp hd
    · exact hempty
    · exact h.early hd he
  · intro key j hp
    obtain ⟨rfl, rfl⟩ | ⟨hp, -⟩ := KeyMap.get?_insert.mp hp
    · exact ⟨_, (get_put hc).mpr (.inl ⟨rfl, rfl⟩), rfl, rfl, hempty, htaken⟩
    · obtain ⟨d, hd, hrest⟩ := h.pending hp
      exact ⟨d, (get_put hc).mpr (.inr ⟨hne hp, hd⟩), hrest⟩
  · intro j d hd hl hf
    obtain ⟨rfl, rfl⟩ | ⟨hj, hd⟩ := (get_put hc).mp hd
    · exact .inl KeyMap.get?_insert_self
    · exact (h.listed hd hl hf).imp_left (KeyMap.get?_insert_ne (h.key_ne hc hd hj)).trans
  · intro j d hd hf
    obtain ⟨rfl, rfl⟩ | ⟨hj, hd⟩ := (get_put hc).mp hd
    · obtain ⟨-, message, ho⟩ := hf
      cases ho
    · exact (KeyMap.get?_insert_ne (h.key_ne hc hd hj)).trans (h.failed hd hf)
  · exact h.once
  · intro x hx
    obtain ⟨hm, d, hd, hrest⟩ := h.handled x hx
    have hj : x.call ≠ i := by
      rintro rfl
      exact htaken (List.mem_map_of_mem hx)
    exact ⟨hm, d, (get_put hc).mpr (.inr ⟨hj, hd⟩), hrest⟩
  · intro j d answer hd hs
    obtain ⟨rfl, rfl⟩ | ⟨-, hd⟩ := (get_put hc).mp hd
    · cases hempty.symm.trans hs
    · exact h.sent hd hs
  · intro x hx hsent d hd hl
    obtain ⟨rfl, rfl⟩ | ⟨-, hd⟩ := (get_put hc).mp hd
    · exact absurd (List.mem_map_of_mem hx) htaken
    · exact h.delivered x hx hsent hd hl
  · intro j d hd hs
    obtain ⟨rfl, rfl⟩ | ⟨-, hd⟩ := (get_put hc).mp hd
    · cases hempty.symm.trans hs
    · exact h.closed hd hs
  · intro j d answer hd ho
    obtain ⟨rfl, rfl⟩ | ⟨-, hd⟩ := (get_put hc).mp hd
    · cases ho
    · exact h.answered hd ho

/-- A message takes the sender of a call. -/
theorem take (h : Entries labels s) {key : Table × String} {m : Message Output} {stage : HandlerStage}
    (hm : some m ∈ labels) (htarget : m.target = some key) (hentry : s.pending.get? key = some i)
    (hstage : stage ≠ .sent) : Entries labels { s with
      pending := s.pending.erase key, handlers := s.handlers ++ [{ call := i, message := m, stage }] } := by
  obtain ⟨c, hc, rfl, hl, hempty, hnot⟩ := h.pending hentry
  have htaken : ∀ {s' : HostCalls Output Context} {j}, s'.handlers = s.handlers ++ [{ call := i, message := m, stage }] →
      (Taken s' j ↔ Taken s j ∨ j = i) := by
    intro s' j hs'
    rw [Taken, hs']
    simp [Taken]
  have hne : ∀ {j d}, s.calls[j]? = some d → j ≠ i → (s.pending.erase c.key).get? d.key = s.pending.get? d.key :=
    fun hd hj => KeyMap.get?_erase_ne (h.key_ne hc hd hj)
  constructor
  · exact h.distinct
  · exact h.early
  · intro key j hp
    obtain ⟨hp, hkey⟩ := KeyMap.get?_erase.mp hp
    obtain ⟨d, hd, hdkey, hdl, hds, hdt⟩ := h.pending hp
    refine ⟨d, hd, hdkey, hdl, hds, fun ht => ?_⟩
    obtain ht | rfl := (htaken rfl).mp ht
    · exact hdt ht
    · obtain rfl := Option.some.inj (hd.symm.trans hc)
      exact hkey hdkey.symm
  · intro j d hd hdl hf
    by_cases hj : j = i
    · exact .inr (.inl ((htaken rfl).mpr (.inr hj)))
    · obtain hp | ht | hs := h.listed hd hdl hf
      · exact .inl ((hne hd hj).trans hp)
      · exact .inr (.inl ((htaken rfl).mpr (.inl ht)))
      · exact .inr (.inr hs)
  · intro j d hd hf
    cases hp : (s.pending.erase c.key).get? d.key with
    | none => rfl
    | some k => exact absurd ((h.failed hd hf).symm.trans (KeyMap.get?_erase.mp hp).1) nofun
  · rw [List.map_append]
    exact List.nodup_append.mpr ⟨h.once, List.nodup_singleton _, by
      rintro a ha b hb rfl
      obtain rfl := List.mem_singleton.mp hb
      exact hnot ha⟩
  · intro x hx
    obtain hx | hx := List.mem_append.mp hx
    · exact h.handled x hx
    · obtain rfl := List.mem_singleton.mp hx
      exact ⟨hm, c, hc, htarget, Stage.not_early_of_listed hl⟩
  · intro j d answer hd hs
    obtain ⟨x, hx, hrest⟩ := h.sent hd hs
    exact ⟨x, List.mem_append_left _ hx, hrest⟩
  · intro x hx hsent d hd hdl
    obtain hx | hx := List.mem_append.mp hx
    · exact h.delivered x hx hsent hd hdl
    · obtain rfl := List.mem_singleton.mp hx
      exact absurd hsent hstage
  · intro j d hd hs
    obtain ⟨hdt, hconnection⟩ := h.closed hd hs
    refine ⟨fun ht => ?_, hconnection⟩
    obtain ht | rfl := (htaken rfl).mp ht
    · exact hdt ht
    · obtain rfl := Option.some.inj (hd.symm.trans hc)
      cases hempty.symm.trans hs
  · exact h.answered

/-- A message that has taken a sender goes on, and its call is over if it is done. -/
theorem handle (h : Entries labels s) {k : Nat} {x : Handler Output} (hx : s.handlers[k]? = some x)
    (hnot : x.stage ≠ .sent) (stage : HandlerStage)
    (hover : stage = .sent → ∀ {c}, s.calls[x.call]? = some c → c.stage.listed = false) :
    Entries labels { s with handlers := s.handlers.set k { x with stage } } := by
  have hmap : (s.handlers.set k { x with stage }).map Handler.call = s.handlers.map Handler.call :=
    Slots.map_set hx rfl
  have htaken : ∀ {j}, Taken { s with handlers := s.handlers.set k { x with stage } } j ↔ Taken s j := by
    intro j
    rw [Taken, hmap, Taken]
  constructor
  · exact h.distinct
  · exact h.early
  · simp only [htaken]; exact h.pending
  · simp only [htaken]; exact h.listed
  · exact h.failed
  · rw [hmap]; exact h.once
  · intro y hy
    obtain hy | rfl := List.mem_or_eq_of_mem_set hy
    · exact h.handled y hy
    · exact h.handled x (List.mem_of_getElem? hx)
  · intro j d answer hd hs
    obtain ⟨y, hy, hcall, hsent, hanswer⟩ := h.sent hd hs
    have hne : y ≠ x := fun he => hnot (he ▸ hsent)
    exact ⟨y, Slots.mem_set_of_ne hx hy hne, hcall, hsent, hanswer⟩
  · intro y hy hsent d hd hl
    obtain hy | rfl := List.mem_or_eq_of_mem_set hy
    · exact h.delivered y hy hsent hd hl
    · rw [hover hsent hd] at hl; cases hl
  · simp only [htaken]; exact h.closed
  · exact h.answered

/-- The answer is sent to the call. -/
theorem answer (h : Entries labels s) {k : Nat} {x : Handler Output} (hx : s.handlers[k]? = some x)
    (hnot : x.stage ≠ .sent) (hc : s.calls[x.call]? = some c) :
    Entries labels { s.put x.call { c with slot := .sent (x.message.answer c.table) } with
      handlers := s.handlers.set k { x with stage := .sent } } := by
  have hmem : x ∈ s.handlers := List.mem_of_getElem? hx
  have htaken : Taken s x.call := List.mem_map_of_mem hmem
  have hmap : (s.handlers.set k { x with stage := .sent }).map Handler.call = s.handlers.map Handler.call :=
    Slots.map_set hx rfl
  have hnew : { x with stage := .sent } ∈ s.handlers.set k { x with stage := .sent } :=
    List.mem_of_getElem? ((Slots.get_set_iff hx).mpr (.inl ⟨rfl, rfl⟩))
  have htaken' : ∀ {s' : HostCalls Output Context} {j},
      s'.handlers = s.handlers.set k { x with stage := .sent } → (Taken s' j ↔ Taken s j) := by
    intro s' j hs'
    rw [Taken, hs', hmap, Taken]
  have hslot : ∀ a, c.slot ≠ .sent a := by
    intro a hs
    obtain ⟨y, hy, hcall, hsent, -⟩ := h.sent hc hs
    exact hnot (h.handler_eq hy hmem hcall ▸ hsent)
  constructor
  · intro i j d e hd he hkey
    obtain ⟨rfl, rfl⟩ | ⟨-, hd'⟩ := (get_put hc).mp hd <;> obtain ⟨rfl, rfl⟩ | ⟨-, he'⟩ := (get_put hc).mp he
    · rfl
    · exact h.distinct hc he' hkey
    · exact h.distinct hd' hc hkey
    · exact h.distinct hd' he' hkey
  · intro j d hd he
    obtain ⟨rfl, rfl⟩ | ⟨-, hd⟩ := (get_put hc).mp hd
    · exact absurd htaken (h.not_taken hc he)
    · exact h.early hd he
  · intro key j hp
    obtain ⟨d, hd, hkey, hl, hs, ht⟩ := h.pending hp
    have hj : j ≠ x.call := fun he => ht (he ▸ htaken)
    exact ⟨d, (get_put hc).mpr (.inr ⟨hj, hd⟩), hkey, hl, hs, fun h' => ht ((htaken' rfl).mp h')⟩
  · intro j d hd hl hf
    obtain ⟨rfl, rfl⟩ | ⟨-, hd⟩ := (get_put hc).mp hd
    · exact .inr (.inl ((htaken' rfl).mpr htaken))
    · exact (h.listed hd hl hf).imp_right (Or.imp_left (htaken' rfl).mpr)
  · intro j d hd hf
    obtain ⟨rfl, rfl⟩ | ⟨-, hd⟩ := (get_put hc).mp hd
    · exact h.failed (c := c) hc hf
    · exact h.failed hd hf
  · rw [hmap]; exact h.once
  · intro y hy
    have hold : ∃ z ∈ s.handlers, z.message = y.message ∧ z.call = y.call := by
      obtain hy | rfl := List.mem_or_eq_of_mem_set hy
      · exact ⟨y, hy, rfl, rfl⟩
      · exact ⟨x, hmem, rfl, rfl⟩
    obtain ⟨z, hz, hmessage, hcall⟩ := hold
    obtain ⟨hm, d, hd, hrest⟩ := h.handled z hz
    rw [← hmessage, ← hcall]
    refine ⟨hm, ?_⟩
    by_cases hj : z.call = x.call
    · obtain rfl := Option.some.inj ((hj ▸ hd).symm.trans hc)
      exact ⟨_, (get_put hc).mpr (.inl ⟨hj, rfl⟩), hrest⟩
    · exact ⟨d, (get_put hc).mpr (.inr ⟨hj, hd⟩), hrest⟩
  · intro j d answer hd hs
    obtain ⟨rfl, rfl⟩ | ⟨-, hd⟩ := (get_put hc).mp hd
    · exact ⟨_, hnew, rfl, rfl, by cases hs; rfl⟩
    · obtain ⟨y, hy, hcall, hsent, hanswer⟩ := h.sent hd hs
      have hne : y ≠ x := fun he => hnot (he ▸ hsent)
      exact ⟨y, Slots.mem_set_of_ne hx hy hne, hcall, hsent, hanswer⟩
  · intro y hy hsent d hd hl
    obtain ⟨hj, rfl⟩ | ⟨hj, hd⟩ := (get_put hc).mp hd
    · obtain hy | rfl := List.mem_or_eq_of_mem_set hy
      · exact absurd (h.handler_eq hy hmem hj ▸ hsent) hnot
      · rfl
    · obtain hy | rfl := List.mem_or_eq_of_mem_set hy
      · exact h.delivered y hy hsent hd hl
      · exact absurd rfl hj
  · intro j d hd hs
    obtain ⟨rfl, rfl⟩ | ⟨-, hd⟩ := (get_put hc).mp hd
    · cases hs
    · obtain ⟨ht, hconnection⟩ := h.closed hd hs
      exact ⟨fun h' => ht ((htaken' rfl).mp h'), hconnection⟩
  · intro j d a hd ho
    obtain ⟨rfl, rfl⟩ | ⟨-, hd⟩ := (get_put hc).mp hd
    · exact absurd (h.answered (c := c) hc ho) (hslot a)
    · exact h.answered hd ho

/-- The sender of a call is dropped, with the connection of the call. -/
theorem hangUp (h : Entries labels s) {key : Table × String} (hentry : s.pending.get? key = some i)
    (hc : s.calls[i]? = some c) (hconnection : c.connection ∈ s.disconnecting) :
    Entries labels { s.put i { c with slot := .closed } with pending := s.pending.erase key } := by
  obtain ⟨rfl, hl, hempty, hnot⟩ := h.entry hentry hc
  have hne : ∀ {j d}, s.calls[j]? = some d → j ≠ i → (s.pending.erase c.key).get? d.key = s.pending.get? d.key :=
    fun hd hj => KeyMap.get?_erase_ne (h.key_ne hc hd hj)
  constructor
  · intro j k d e hd he hkey
    obtain ⟨rfl, rfl⟩ | ⟨-, hd'⟩ := (get_put hc).mp hd <;> obtain ⟨rfl, rfl⟩ | ⟨-, he'⟩ := (get_put hc).mp he
    · rfl
    · exact h.distinct hc he' hkey
    · exact h.distinct hd' hc hkey
    · exact h.distinct hd' he' hkey
  · intro j d hd he
    obtain ⟨rfl, rfl⟩ | ⟨-, hd⟩ := (get_put hc).mp hd
    · cases he.symm.trans (Stage.not_early_of_listed hl)
    · exact h.early hd he
  · intro key j hp
    obtain ⟨hp, hkey⟩ := KeyMap.get?_erase.mp hp
    obtain ⟨d, hd, hdkey, hrest⟩ := h.pending hp
    have hj : j ≠ i := by
      rintro rfl
      obtain rfl := Option.some.inj (hd.symm.trans hc)
      exact hkey hdkey.symm
    exact ⟨d, (get_put hc).mpr (.inr ⟨hj, hd⟩), hdkey, hrest⟩
  · intro j d hd hdl hf
    obtain ⟨rfl, rfl⟩ | ⟨hj, hd⟩ := (get_put hc).mp hd
    · exact .inr (.inr rfl)
    · exact (h.listed hd hdl hf).imp_left (hne hd hj).trans
  · intro j d hd hf
    obtain ⟨rfl, rfl⟩ | ⟨hj, hd⟩ := (get_put hc).mp hd
    · exact KeyMap.get?_erase_self
    · exact (hne hd hj).trans (h.failed hd hf)
  · exact h.once
  · intro x hx
    obtain ⟨hm, d, hd, hrest⟩ := h.handled x hx
    have hj : x.call ≠ i := by
      rintro rfl
      exact hnot (List.mem_map_of_mem hx)
    exact ⟨hm, d, (get_put hc).mpr (.inr ⟨hj, hd⟩), hrest⟩
  · intro j d answer hd hs
    obtain ⟨rfl, rfl⟩ | ⟨-, hd⟩ := (get_put hc).mp hd
    · cases hs
    · exact h.sent hd hs
  · intro x hx hsent d hd hdl
    obtain ⟨rfl, rfl⟩ | ⟨-, hd⟩ := (get_put hc).mp hd
    · exact absurd (List.mem_map_of_mem hx) hnot
    · exact h.delivered x hx hsent hd hdl
  · intro j d hd hs
    obtain ⟨rfl, rfl⟩ | ⟨-, hd⟩ := (get_put hc).mp hd
    · exact ⟨hnot, hconnection⟩
    · exact h.closed hd hs
  · intro j d answer hd ho
    obtain ⟨rfl, rfl⟩ | ⟨-, hd⟩ := (get_put hc).mp hd
    · cases hempty.symm.trans (h.answered (c := c) hc ho)
    · exact h.answered hd ho

theorem step {label : Option (Message Output)} (h : Entries labels s) (hs : Step s label s') :
    Entries (labels ++ [label]) s' := by
  replace h : Entries (labels ++ [label]) s :=
    h.widen (fun m hm => List.mem_append_left _ hm) rfl rfl rfl fun _ hm => hm
  cases hs with
  | call c started empty fresh => exact h.called c started empty fresh
  | register hc stage => exact h.registered hc stage
  | @activate i c hc stage =>
    have h : Entries _ (s.put i { c with stage := .ready }) := h.advance hc (by rw [stage]; rfl) (by rw [stage]; rfl)
      (by simp [Call.Failed, stage, Stage.outcome]) nofun
    exact h.widen (fun _ hm => hm) rfl rfl rfl fun _ hm => hm
  | refuse hc stage | skip hc stage | dispatch hc stage | sent hc stage =>
    exact h.advance hc (by rw [stage]; rfl) (by rw [stage]; rfl) (by simp [Call.Failed, stage, Stage.outcome]) nofun
  | toolFails hc tools fails =>
    refine h.leave hc rfl (fun _ => ?_) (fun _ => ⟨tools, _, rfl⟩) nofun
    exact Stage.listed_of_fails fails
  | contextFails e hc contexts stage =>
    exact h.advance hc (by obtain hst | hst := stage <;> rw [hst] <;> rfl)
      (by obtain hst | hst := stage <;> rw [hst] <;> rfl) (by simp [Call.Failed, contexts]) nofun
  | drop hc stage =>
    exact h.advance hc (by obtain hst | hst := stage <;> rw [hst] <;> rfl)
      (by obtain hst | hst := stage <;> rw [hst] <;> rfl)
      (by obtain hst | hst := stage <;> simp [Call.Failed, hst, Stage.outcome]) nofun
  | cancelled hc contexts stage | contextCut hc contexts stage =>
    exact h.advance hc (by rw [stage]; rfl) (by rw [stage]; rfl) (by simp [Call.Failed, contexts]) nofun
  | answered hc stage slot =>
    exact h.advance hc (by rw [stage]; rfl) (by rw [stage]; rfl) (by simp [Call.Failed, stage, Stage.outcome])
      fun answer ho => by cases ho; exact slot
  | toolCut hc tools stage => exact h.leave hc rfl (fun _ => by rw [stage]; rfl) (fun _ => ⟨tools, _, rfl⟩) nofun
  | @leave i c outcome hc stage =>
    have h : Entries _ (s.put i { c with stage := .cleaning outcome }) :=
      h.advance hc (by rw [stage]; rfl) (by rw [stage]; rfl) (by simp [Call.Failed, stage, Stage.outcome])
        fun answer ho => h.answered hc (by rw [stage]; exact ho)
    split
    · exact h.widen (fun _ hm => hm) (finish_calls _) (finish_pending _) (finish_handlers _) (by simp)
    · exact h
  | @clean i c outcome hc stage =>
    have h : Entries _ { s.put i { c with stage := .ended outcome } with pending := s.pending.erase c.key } :=
      h.leave hc rfl nofun nofun fun answer ho => h.answered hc (by rw [stage]; exact ho)
    exact h.widen (fun _ hm => hm) rfl rfl rfl fun _ hm => hm
  | ignore => exact h
  | @take i key m target entry =>
    refine h.take (List.mem_append_right _ (List.mem_singleton_self _)) target entry ?_
    split <;> nofun
  | finished hh stage =>
    have h := h.handle hh (by rw [stage]; nofun) .finished nofun
    exact h.widen (fun _ hm => hm) (finish_calls _) (finish_pending _) (finish_handlers _) (by simp)
  | @answer k handler key c hh stage target hc live =>
    obtain ⟨-, d, hd, htarget, -⟩ := h.handled handler (List.mem_of_getElem? hh)
    obtain rfl := Option.some.inj (hd.symm.trans hc)
    obtain rfl := Option.some.inj (target.symm.trans htarget)
    have htable : (handler.message.answer d.key.1 : Answer Output Context) = handler.message.answer d.table :=
      congrArg _ d.key_fst
    rw [htable]
    exact h.answer hh (by rw [stage]; nofun) hc
  | lost hh stage hc left =>
    refine h.handle hh (by rw [stage]; nofun) .sent fun _ d hd => ?_
    obtain rfl := Option.some.inj (hd.symm.trans hc)
    exact left
  | disconnect => exact h.widen (fun _ hm => hm) rfl rfl rfl fun _ hm => List.mem_append_left _ hm
  | hangUp disconnecting of entry hc =>
    obtain ⟨rfl, -⟩ := h.entry entry hc
    exact h.hangUp entry hc (owner_of_key of ▸ disconnecting)
  | deactivate => exact h.widen (fun _ hm => hm) (finish_calls _) (finish_pending _) (finish_handlers _) (by simp)

end Entries

/-! ## Calls that are over -/

/-- Nothing happens to a call that is over. -/
structure Kept (s s' : HostCalls Output Context) : Prop where
  calls : ∀ {i : Nat} {c : Call Output Context}, c.stage.over = true → (s'.calls[i]? = some c ↔ s.calls[i]? = some c)
  taken : ∀ {i : Nat} {c : Call Output Context}, s.calls[i]? = some c → c.stage.over = true → (Taken s' i ↔ Taken s i)
  cancels : s'.cancels = s.cancels

omit [HostTypes Output Context] in
theorem Kept.same (hcalls : s'.calls = s.calls) (hhandlers : s'.handlers.map Handler.call = s.handlers.map Handler.call)
    (hcancels : s'.cancels = s.cancels) : Kept s s' :=
  ⟨fun _ => by rw [hcalls], fun _ _ => by rw [Taken, hhandlers, Taken], hcancels⟩

omit [HostTypes Output Context] in
theorem Kept.put (hc : s.calls[i]? = some c) (hover : c.stage.over = false) (hover' : d.stage.over = false)
    (hcalls : s'.calls = s.calls.set i d) (hhandlers : s'.handlers.map Handler.call = s.handlers.map Handler.call)
    (hcancels : s'.cancels = s.cancels) : Kept s s' where
  calls {j e} he := by
    rw [hcalls, Slots.get_set_iff hc]
    constructor
    · rintro (⟨-, rfl⟩ | ⟨-, h⟩)
      · rw [hover'] at he; cases he
      · exact h
    · intro h
      refine .inr ⟨?_, h⟩
      rintro rfl
      obtain rfl := Option.some.inj (h.symm.trans hc)
      rw [hover] at he
      cases he
  taken _ _ := by rw [Taken, hhandlers, Taken]
  cancels := hcancels

/-- A step that ends no call. -/
theorem kept_or_cleaned {label : Option (Message Output)} (h : Entries labels s) (hs : Step s label s') :
    Kept s s' ∨ ∃ i c outcome, s.calls[i]? = some c ∧ c.stage = .cleaning outcome ∧
      s' = { s.put i { c with stage := .ended outcome } with
        pending := s.pending.erase c.key,
        cancels := if (s.pending.get? c.key).isSome then s.cancels ++ [c.key] else s.cancels } := by
  cases hs with
  | @clean i c outcome hc stage => exact .inr ⟨i, c, outcome, hc, stage, rfl⟩
  | call c started empty fresh =>
    refine .inl ⟨fun {i d} hd => ?_, fun _ _ => .rfl, rfl⟩
    rw [Slots.get_concat_iff]
    constructor
    · rintro (h | ⟨-, rfl⟩)
      · exact h
      · rw [started] at hd; cases hd
    · exact .inl
  | refuse hc stage | register hc stage | activate hc stage | skip hc stage | dispatch hc stage | sent hc stage =>
    exact .inl (.put hc (by rw [stage]; rfl) rfl rfl rfl rfl)
  | cancelled hc contexts stage | contextCut hc contexts stage | toolCut hc tools stage | answered hc stage =>
    exact .inl (.put hc (by rw [stage]; rfl) rfl rfl rfl rfl)
  | toolFails hc tools fails =>
    exact .inl (.put hc (Stage.not_over_of_listed (Stage.listed_of_fails fails)) rfl rfl rfl rfl)
  | contextFails e hc contexts stage =>
    exact .inl (.put hc (by obtain hst | hst := stage <;> rw [hst] <;> rfl) rfl rfl rfl rfl)
  | drop hc stage =>
    exact .inl (.put hc (by obtain hst | hst := stage <;> rw [hst] <;> rfl) rfl rfl rfl rfl)
  | @leave i c outcome hc stage =>
    refine .inl ?_
    split
    · exact .put hc (by rw [stage]; rfl) rfl (finish_calls _) (by simp [HostCalls.put]) (finish_cancels _)
    · exact .put hc (by rw [stage]; rfl) rfl rfl rfl rfl
  | ignore | disconnect => exact .inl (.same rfl rfl rfl)
  | @take i key m target entry =>
    refine .inl ⟨fun _ => .rfl, fun {j d} hd hover => ?_, rfl⟩
    have hj : j ≠ i := by
      rintro rfl
      obtain ⟨-, hl, -⟩ := h.entry entry hd
      rw [Stage.not_over_of_listed hl] at hover
      cases hover
    simp [Taken, hj]
  | finished hh => exact .inl (.same (finish_calls _) (by simp [Slots.map_set hh]) (finish_cancels _))
  | lost hh => exact .inl (.same rfl (Slots.map_set hh rfl) rfl)
  | @answer k handler key c hh stage target hc live =>
    have hover := Stage.not_over_of_listed live
    exact .inl (.put (d := { c with slot := .sent (handler.message.answer key.1) }) hc hover hover rfl
      (Slots.map_set hh rfl) rfl)
  | @hangUp connection key i c disconnecting of entry hc =>
    obtain ⟨-, hl, -⟩ := h.entry entry hc
    have hover := Stage.not_over_of_listed hl
    exact .inl (.put (d := { c with slot := .closed }) hc hover hover rfl rfl rfl)
  | deactivate => exact .inl (.same (finish_calls _) (by simp) (finish_cancels _))

/-- The host was told to cancel a call when its sender was still in the table. -/
structure Cancels (s : HostCalls Output Context) : Prop where
  ended : ∀ {key : Table × String}, key ∈ s.cancels → ∃ (i : Nat) (c : Call Output Context),
    s.calls[i]? = some c ∧ c.key = key ∧ c.stage.over = true
  cancelled : ∀ {i : Nat} {c : Call Output Context}, s.calls[i]? = some c → c.stage.over = true →
    (c.key ∈ s.cancels ↔ ¬Taken s i ∧ c.slot ≠ .closed ∧ ¬c.Failed)
  once : s.cancels.Nodup

omit [HostTypes Output Context] in
theorem Cancels.kept (h : Cancels s) (hkept : Kept s s') : Cancels s' where
  ended hkey := by
    rw [hkept.cancels] at hkey
    obtain ⟨i, c, hc, hckey, hover⟩ := h.ended hkey
    exact ⟨i, c, (hkept.calls hover).mpr hc, hckey, hover⟩
  cancelled hc hover := by
    have hc' := (hkept.calls hover).mp hc
    rw [hkept.cancels, hkept.taken hc' hover]
    exact h.cancelled hc' hover
  once := hkept.cancels ▸ h.once

/-- The end of a call. -/
theorem Cancels.cleaned {outcome : Outcome Output Context} (h : Cancels s) (hentries : Entries labels s)
    (hc : s.calls[i]? = some c) (hstage : c.stage = .cleaning outcome) :
    Cancels { s.put i { c with stage := .ended outcome } with
      pending := s.pending.erase c.key,
      cancels := if (s.pending.get? c.key).isSome then s.cancels ++ [c.key] else s.cancels } := by
  have hnew : c.key ∉ s.cancels := by
    intro hmem
    obtain ⟨j, d, hd, hkey, hover⟩ := h.ended hmem
    obtain rfl := hentries.distinct hd hc hkey
    obtain rfl := Option.some.inj (hd.symm.trans hc)
    rw [hstage] at hover
    cases hover
  have hlisted : c.stage.listed = true := by rw [hstage]; rfl
  have hiff : (s.pending.get? c.key).isSome ↔ ¬Taken s i ∧ c.slot ≠ .closed ∧ ¬c.Failed := by
    constructor
    · intro hsome
      obtain ⟨j, hj⟩ := Option.isSome_iff_exists.mp hsome
      obtain ⟨d, hd, hkey, -, hempty, hnot⟩ := hentries.pending hj
      obtain rfl := hentries.distinct hd hc hkey
      obtain rfl := Option.some.inj (hd.symm.trans hc)
      refine ⟨hnot, by rw [hempty]; nofun, fun hf => ?_⟩
      cases (hentries.failed hd hf).symm.trans hj
    · rintro ⟨hnot, hslot, hf⟩
      obtain hp | ht | hs := hentries.listed hc hlisted hf
      · rw [hp]; rfl
      · exact absurd ht hnot
      · exact absurd hs hslot
  have hmem : ∀ {key}, key ∈ (if (s.pending.get? c.key).isSome then s.cancels ++ [c.key] else s.cancels) ↔
      key ∈ s.cancels ∨ key = c.key ∧ (s.pending.get? c.key).isSome := by
    intro key
    split <;> simp [*]
  constructor
  · intro key hkey
    obtain hkey | ⟨rfl, -⟩ := hmem.mp hkey
    · obtain ⟨j, d, hd, hdkey, hover⟩ := h.ended hkey
      have hj : j ≠ i := by
        rintro rfl
        obtain rfl := Option.some.inj (hd.symm.trans hc)
        rw [hstage] at hover
        cases hover
      exact ⟨j, d, (get_put hc).mpr (.inr ⟨hj, hd⟩), hdkey, hover⟩
    · exact ⟨i, _, (get_put hc).mpr (.inl ⟨rfl, rfl⟩), rfl, rfl⟩
  · intro j d hd hover
    refine hmem.trans ?_
    obtain ⟨rfl, rfl⟩ | ⟨hj, hd⟩ := (get_put hc).mp hd
    · have hfailed : Call.Failed { c with stage := .ended outcome } ↔ c.Failed := by
        simp [Call.Failed, hstage, Stage.outcome]
      rw [hfailed]
      exact ⟨fun hkey => hiff.mp (hkey.resolve_left hnew).2, fun hlast => .inr ⟨rfl, hiff.mpr hlast⟩⟩
    · have hkey := hentries.key_ne hc hd hj
      have hold := h.cancelled hd hover
      exact ⟨fun hmem => hold.mp (hmem.resolve_right fun hlast => hkey hlast.1), fun hlast => .inl (hold.mpr hlast)⟩
  · show (if _ then _ else _ : List _).Nodup
    split
    · exact List.nodup_append.mpr ⟨h.once, List.nodup_singleton _, by
        rintro a ha b hb rfl
        obtain rfl := List.mem_singleton.mp hb
        exact hnew ha⟩
    · exact h.once

/-! ## Contexts -/

/-- What matters of a call to its context. -/
def Call.view (c : Call Output Context) : (Table × String) × Bool × Bool × Bool :=
  (c.key, c.withContext, c.stage.held, c.stage.past)

/-- The context of a call is active, or somebody has finished it; past its guard it is finished. -/
structure Active (s : HostCalls Output Context) : Prop where
  entry : ∀ {id : String} {i : Nat}, s.active.get? id = some i → ∃ c, s.calls[i]? = some c ∧ c.key = (.tools, id) ∧
    c.withContext = true ∧ c.stage.held = true ∧ i ∉ s.finished
  held : ∀ {i : Nat} {c : Call Output Context}, s.calls[i]? = some c → c.key.1 = .tools → c.withContext = true →
    c.stage.held = true → s.active.get? c.key.2 = some i ∨ i ∈ s.finished
  past : ∀ {i : Nat} {c : Call Output Context}, s.calls[i]? = some c → c.key.1 = .tools → c.withContext = true →
    c.stage.past = true → i ∈ s.finished
  finished : ∀ {i : Nat}, i ∈ s.finished → ∃ c, s.calls[i]? = some c ∧ c.key.1 = .tools ∧ c.withContext = true ∧
    (c.stage.held = true ∨ c.stage.past = true)
  once : s.finished.Nodup

namespace Active

omit [HostTypes Output Context]

theorem same (h : Active s) (hcalls : s'.calls.map Call.view = s.calls.map Call.view) (hactive : s'.active = s.active)
    (hfinished : s'.finished = s.finished) : Active s' := by
  have hview : ∀ {l l' : List (Call Output Context)} {j : Nat} {c : Call Output Context},
      l'.map Call.view = l.map Call.view → l[j]? = some c → ∃ d : Call Output Context, l'[j]? = some d ∧
        d.key = c.key ∧ d.withContext = c.withContext ∧ d.stage.held = c.stage.held ∧
        d.stage.past = c.stage.past := by
    intro l l' j c hmap hc
    have hget := congrArg (·[j]?) hmap
    simp only [List.getElem?_map, hc, Option.map_some, Option.map_eq_some_iff] at hget
    obtain ⟨d, hd, hview⟩ := hget
    exact ⟨d, hd, by simpa [Call.view] using hview⟩
  constructor
  · intro id i hentry
    rw [hactive] at hentry
    obtain ⟨c, hc, hkey, hcontext, hheld, hnot⟩ := h.entry hentry
    obtain ⟨d, hd, hdkey, hdcontext, hdheld, -⟩ := hview hcalls hc
    exact ⟨d, hd, hdkey.trans hkey, hdcontext.trans hcontext, hdheld.trans hheld, hfinished ▸ hnot⟩
  · intro i c hc htable hcontext hheld
    obtain ⟨d, hd, hdkey, hdcontext, hdheld, -⟩ := hview hcalls.symm hc
    rw [hactive, hfinished, ← hdkey]
    exact h.held hd (hdkey ▸ htable) (hdcontext.trans hcontext) (hdheld.trans hheld)
  · intro i c hc htable hcontext hpast
    obtain ⟨d, hd, hdkey, hdcontext, -, hdpast⟩ := hview hcalls.symm hc
    rw [hfinished]
    exact h.past hd (hdkey ▸ htable) (hdcontext.trans hcontext) (hdpast.trans hpast)
  · intro i hi
    obtain ⟨c, hc, htable, hcontext, hstage⟩ := h.finished (hfinished ▸ hi)
    obtain ⟨d, hd, hdkey, hdcontext, hdheld, hdpast⟩ := hview hcalls hc
    exact ⟨d, hd, hdkey ▸ htable, hdcontext.trans hcontext, by rw [hdheld, hdpast]; exact hstage⟩
  · exact hfinished ▸ h.once

/-- A call goes on, on the same side of its guard. -/
theorem advance (h : Active s) (hc : s.calls[i]? = some c) (hview : d.view = c.view)
    (hcalls : s'.calls = s.calls.set i d) (hactive : s'.active = s.active) (hfinished : s'.finished = s.finished) :
    Active s' := h.same (by rw [hcalls]; exact Slots.map_set hc hview) hactive hfinished

theorem called (h : Active s) (c : Call Output Context) (hstage : c.stage = .started) :
    Active { s with calls := s.calls ++ [c] } where
  entry hentry := by
    obtain ⟨d, hd, hrest⟩ := h.entry hentry
    exact ⟨d, Slots.get_concat_iff.mpr (.inl hd), hrest⟩
  held hd htable hcontext hheld := by
    obtain hd | ⟨-, rfl⟩ := Slots.get_concat_iff.mp hd
    · exact h.held hd htable hcontext hheld
    · rw [hstage] at hheld; cases hheld
  past hd htable hcontext hpast := by
    obtain hd | ⟨-, rfl⟩ := Slots.get_concat_iff.mp hd
    · exact h.past hd htable hcontext hpast
    · rw [hstage] at hpast; cases hpast
  finished hi := by
    obtain ⟨d, hd, hrest⟩ := h.finished hi
    exact ⟨d, Slots.get_concat_iff.mpr (.inl hd), hrest⟩
  once := h.once

/-- A call crosses a guard. -/
theorem put (h : Active s) (hc : s.calls[i]? = some c) {stage : Stage Output Context}
    (hentry : (∃ id, s.active.get? id = some i) → stage.held = true)
    (hheld : c.key.1 = .tools → c.withContext = true → stage.held = true →
      s.active.get? c.key.2 = some i ∨ i ∈ s.finished)
    (hpast : c.key.1 = .tools → c.withContext = true → stage.past = true → i ∈ s.finished)
    (hfinished : i ∈ s.finished → stage.held = true ∨ stage.past = true) : Active (s.put i { c with stage }) where
  entry {id j} hj := by
    obtain ⟨d, hd, hkey, hcontext, hstage, hnot⟩ := h.entry hj
    by_cases hji : j = i
    · subst hji
      obtain rfl := Option.some.inj (hd.symm.trans hc)
      exact ⟨_, (get_put hc).mpr (.inl ⟨rfl, rfl⟩), hkey, hcontext, hentry ⟨id, hj⟩, hnot⟩
    · exact ⟨d, (get_put hc).mpr (.inr ⟨hji, hd⟩), hkey, hcontext, hstage, hnot⟩
  held hd htable hcontext hstage := by
    obtain ⟨rfl, rfl⟩ | ⟨-, hd⟩ := (get_put hc).mp hd
    · exact hheld htable hcontext hstage
    · exact h.held hd htable hcontext hstage
  past hd htable hcontext hstage := by
    obtain ⟨rfl, rfl⟩ | ⟨-, hd⟩ := (get_put hc).mp hd
    · exact hpast htable hcontext hstage
    · exact h.past hd htable hcontext hstage
  finished {j} hj := by
    obtain ⟨d, hd, htable, hcontext, hstage⟩ := h.finished hj
    by_cases hji : j = i
    · subst hji
      obtain rfl := Option.some.inj (hd.symm.trans hc)
      exact ⟨_, (get_put hc).mpr (.inl ⟨rfl, rfl⟩), htable, hcontext, hfinished hj⟩
    · exact ⟨d, (get_put hc).mpr (.inr ⟨hji, hd⟩), htable, hcontext, hstage⟩
  once := h.once

/-- Whether the call of an entry is one that holds a context. -/
theorem entry_held (h : Active s) {id : String} (hentry : s.active.get? id = some i) (hc : s.calls[i]? = some c) :
    c.key = (.tools, id) ∧ c.withContext = true ∧ c.stage.held = true ∧ i ∉ s.finished := by
  obtain ⟨d, hd, hrest⟩ := h.entry hentry
  obtain rfl := Option.some.inj (hd.symm.trans hc)
  exact hrest

/-- The context is put into `active`. -/
theorem activate (h : Active s) (hentries : ∀ {j d}, s.calls[j]? = some d → d.key = c.key → j = i)
    (hc : s.calls[i]? = some c) (hstage : c.stage = .registered) (htools : c.key.1 = .tools)
    (hcontext : c.withContext = true) :
    Active { s.put i { c with stage := .ready } with active := s.active.insert c.key.2 i } := by
  have hnot : i ∉ s.finished := by
    intro hi
    obtain ⟨d, hd, -, -, hheld⟩ := h.finished hi
    obtain rfl := Option.some.inj (hd.symm.trans hc)
    rw [hstage] at hheld
    obtain hheld | hheld := hheld <;> cases hheld
  have hne : ∀ {id j}, s.active.get? id = some j → j ≠ i := by
    rintro id j hj rfl
    obtain ⟨-, -, hheld, -⟩ := h.entry_held hj hc
    rw [hstage] at hheld
    cases hheld
  constructor
  · intro id j hj
    obtain ⟨rfl, rfl⟩ | ⟨hj, -⟩ := KeyMap.get?_insert.mp hj
    · exact ⟨_, (get_put hc).mpr (.inl ⟨rfl, rfl⟩), Prod.ext htools rfl, hcontext, rfl, hnot⟩
    · obtain ⟨d, hd, hrest⟩ := h.entry hj
      exact ⟨d, (get_put hc).mpr (.inr ⟨hne hj, hd⟩), hrest⟩
  · intro j d hd htable hdcontext hheld
    obtain ⟨rfl, rfl⟩ | ⟨hj, hd⟩ := (get_put hc).mp hd
    · exact .inl KeyMap.get?_insert_self
    · have hkey : d.key.2 ≠ c.key.2 := fun hk => hj (hentries hd (Prod.ext (htable.trans htools.symm) hk))
      exact (h.held hd htable hdcontext hheld).imp_left (KeyMap.get?_insert_ne hkey).trans
  · intro j d hd htable hdcontext hpast
    obtain ⟨rfl, rfl⟩ | ⟨hj, hd⟩ := (get_put hc).mp hd
    · cases hpast
    · exact h.past hd htable hdcontext hpast
  · intro j hj
    obtain ⟨d, hd, hrest⟩ := h.finished hj
    have hji : j ≠ i := fun he => hnot (he ▸ hj)
    exact ⟨d, (get_put hc).mpr (.inr ⟨hji, hd⟩), hrest⟩
  · exact h.once

/-- `finish` of what was in `active`. -/
theorem finish (h : Active s) (id : String) : Active (s.finish id) := by
  unfold HostCalls.finish
  split
  · exact h
  · next i hi =>
    obtain ⟨c, hc, hkey, hcontext, hheld, hnot⟩ := h.entry hi
    constructor
    · intro id' j hj
      obtain ⟨hj, hne⟩ := KeyMap.get?_erase.mp hj
      obtain ⟨d, hd, hdkey, hdcontext, hdheld, hdnot⟩ := h.entry hj
      refine ⟨d, hd, hdkey, hdcontext, hdheld, ?_⟩
      intro hmem
      obtain hmem | hmem := List.mem_append.mp hmem
      · exact hdnot hmem
      · obtain rfl := List.mem_singleton.mp hmem
        obtain rfl := Option.some.inj (hd.symm.trans hc)
        exact hne (congrArg Prod.snd (hdkey.symm.trans hkey))
    · intro j d hd htable hdcontext hdheld
      by_cases hid : d.key.2 = id
      · right
        obtain hj | hj := h.held hd htable hdcontext hdheld
        · rw [hid] at hj
          obtain rfl := Option.some.inj (hi.symm.trans hj)
          simp
        · exact List.mem_append_left _ hj
      · exact (h.held hd htable hdcontext hdheld).imp (KeyMap.get?_erase_ne hid).trans (List.mem_append_left _)
    · intro j d hd htable hdcontext hdpast
      exact List.mem_append_left _ (h.past hd htable hdcontext hdpast)
    · intro j hj
      obtain hj | hj := List.mem_append.mp hj
      · exact h.finished hj
      · obtain rfl := List.mem_singleton.mp hj
        exact ⟨c, hc, congrArg Prod.fst hkey, hcontext, .inl hheld⟩
    · exact List.nodup_append.mpr ⟨h.once, List.nodup_singleton _, by
        rintro a ha b hb rfl
        obtain rfl := List.mem_singleton.mp hb
        exact hnot ha⟩

/-- The guard comes to the context. -/
theorem leave {outcome : Outcome Output Context} (h : Active s) (hc : s.calls[i]? = some c)
    (hstage : c.stage = .leaving outcome) :
    Active (match c.table with
      | .tools => (s.put i { c with stage := .cleaning outcome }).finish c.key.2
      | .contexts => s.put i { c with stage := .cleaning outcome }) := by
  have hheld : c.stage.held = true := by rw [hstage]; rfl
  split
  · next htools =>
    have hc' : (s.finish c.key.2).calls[i]? = some c := by rw [finish_calls]; exact hc
    have hfin : c.withContext = true → i ∈ (s.finish c.key.2).finished := by
      intro hcontext
      obtain hentry | hmem := h.held hc (c.key_fst.trans htools) hcontext hheld
      · simp [HostCalls.finish, hentry]
      · unfold HostCalls.finish
        split
        · exact hmem
        · exact List.mem_append_left _ hmem
    rw [finish_put]
    refine (h.finish c.key.2).put hc' (fun hentry => ?_) (fun _ _ hcleaning => by cases hcleaning)
      (fun _ hcontext _ => hfin hcontext) fun _ => .inr rfl
    obtain ⟨id, hid⟩ := hentry
    obtain ⟨-, hcontext, -, hnot⟩ := (h.finish c.key.2).entry_held hid hc'
    exact absurd (hfin hcontext) hnot
  · next hcontexts =>
    have htable : c.key.1 ≠ .tools := by
      rw [c.key_fst, hcontexts]
      intro hsame
      cases hsame
    refine h.put hc (fun hentry => ?_) (fun ht => absurd ht htable) (fun ht => absurd ht htable) fun _ => .inr rfl
    obtain ⟨id, hid⟩ := hentry
    obtain ⟨hkey, -⟩ := h.entry_held hid hc
    exact absurd (congrArg Prod.fst hkey) htable

/-- A call without a context goes past the place where it would be put into `active`. -/
theorem skip (h : Active s) (hc : s.calls[i]? = some c) (hplain : c.table = .contexts ∨ c.withContext = false) :
    Active (s.put i { c with stage := .ready }) := by
  have hnot : c.key.1 = .tools → c.withContext = true → False := by
    rw [c.key_fst]
    intro htools hcontext
    obtain hcontexts | hplain := hplain
    · cases htools.symm.trans hcontexts
    · cases hcontext.symm.trans hplain
  exact h.put hc (fun _ => rfl) (fun ht hcontext _ => (hnot ht hcontext).elim)
    (fun ht hcontext _ => (hnot ht hcontext).elim) fun _ => .inl rfl

theorem step {label : Option (Message Output)} [HostTypes Output Context] (h : Active s) (hentries : Entries labels s)
    (hs : Step s label s') : Active s' := by
  cases hs with
  | call c started => exact h.called c started
  | refuse hc stage | register hc stage | dispatch hc stage | sent hc stage | cancelled hc _ stage
  | answered hc stage | contextCut hc _ stage | clean hc stage | toolCut hc _ stage =>
    exact h.advance hc (by simp only [Call.view, stage]; rfl) rfl rfl rfl
  | activate hc stage tools context =>
    exact h.activate (fun hd hkey => hentries.distinct hd hc hkey) hc stage (Call.key_fst _ ▸ tools) context
  | skip hc stage plain => exact h.skip hc plain
  | @toolFails i c e message hc tools fails =>
    have hheld : c.stage.held = true := Stage.held_of_fails fails
    have hpast : c.stage.past = false := Stage.not_past_of_held hheld
    exact h.advance hc (by simp only [Call.view, hheld, hpast]; rfl) rfl rfl rfl
  | contextFails e hc contexts stage | drop hc stage =>
    exact h.advance hc (by obtain hst | hst := stage <;> simp only [Call.view, hst] <;> rfl) rfl rfl rfl
  | leave hc stage => exact h.leave hc stage
  | ignore | take | lost | disconnect => exact h.same rfl rfl rfl
  | finished hh =>
    apply finish
    exact h.same rfl rfl rfl
  | @answer k handler key c hh stage target hc live =>
    exact h.advance (d := { c with slot := .sent (handler.message.answer key.1) }) hc rfl rfl rfl rfl
  | @hangUp connection key i c disconnecting of entry hc =>
    exact h.advance (d := { c with slot := .closed }) hc rfl rfl rfl rfl
  | deactivate => exact h.finish _

end Active

/-! ## Runs -/

structure Invariant (labels : List (Option (Message Output))) (s : HostCalls Output Context) : Prop where
  entries : Entries labels s
  cancels : Cancels s
  active : Active s

namespace Invariant

theorem init : Invariant [] ({} : HostCalls Output Context) where
  entries := by constructor <;> simp [Taken]
  cancels := by constructor <;> simp
  active := by constructor <;> simp

theorem step {label : Option (Message Output)} (h : Invariant labels s) (hs : Step s label s') :
    Invariant (labels ++ [label]) s' where
  entries := h.entries.step hs
  cancels := by
    obtain hkept | ⟨i, c, outcome, hc, hstage, rfl⟩ := kept_or_cleaned h.entries hs
    · exact h.cancels.kept hkept
    · exact h.cancels.cleaned h.entries hc hstage
  active := h.active.step h.entries hs

theorem run {more : List (Option (Message Output))} (h : Invariant labels s) (hr : Lts.Run Step s more s') :
    Invariant (labels ++ more) s' :=
  hr.traced (fun more s => Invariant (labels ++ more) s) (fun more s label s' hs hstep => by
    rw [← List.append_assoc]
    exact hs.step hstep) (by rw [List.append_nil]; exact h)

/-- The end of a call is its last word. -/
theorem last {more : List (Option (Message Output))} (h : Invariant labels s) (hr : Lts.Run Step s more s')
    (hc : s.calls[i]? = some c) (hover : c.stage.over = true) : s'.calls[i]? = some c := by
  induction hr generalizing labels with
  | nil => exact hc
  | cons hstep _ ih =>
    refine ih (h.step hstep) ?_
    obtain hkept | ⟨j, d, outcome, hd, hstage, rfl⟩ := kept_or_cleaned h.entries hstep
    · exact (hkept.calls hover).mpr hc
    · refine (get_put hd).mpr (.inr ⟨?_, hc⟩)
      rintro rfl
      obtain rfl := Option.some.inj (hd.symm.trans hc)
      rw [hstage] at hover
      cases hover

/-- The answer of a call is from a message of its own connection, with its own id. -/
theorem answer {answer : Answer Output Context} (h : Invariant labels s) (hc : s.calls[i]? = some c)
    (hanswer : c.stage.outcome = some (.answered answer)) : ∃ m, some m ∈ labels ∧ m.connection = c.connection ∧
      m.target = some c.key ∧ m.answer c.table = answer := by
  obtain ⟨x, hx, rfl, -, hsent⟩ := h.entries.sent hc (h.entries.answered hc hanswer)
  obtain ⟨hm, d, hd, htarget, -⟩ := h.entries.handled x hx
  obtain rfl := Option.some.inj (hd.symm.trans hc)
  exact ⟨x.message, hm, owner_of_key (of_target htarget), htarget, hsent⟩

/-- A call that waits has its sender in the table, or a message has taken it, or it was dropped. -/
theorem waiting (h : Invariant labels s) (hc : s.calls[i]? = some c) (hstage : c.stage = .waiting) :
    s.pending.get? c.key = some i ∨ Taken s i ∨ c.slot = .closed :=
  h.entries.listed hc (by rw [hstage]; rfl) (by simp [Call.Failed, hstage, Stage.outcome])

/-- Nothing of a call that is over is left in the tables. -/
theorem left (h : Invariant labels s) (hc : s.calls[i]? = some c) (hover : c.stage.over = true) :
    s.pending.get? c.key = none ∧ ∀ id, s.active.get? id ≠ some i := by
  constructor
  · cases hp : s.pending.get? c.key with
    | none => rfl
    | some j =>
      obtain ⟨d, hd, hkey, hl, -⟩ := h.entries.pending hp
      obtain rfl := h.entries.distinct hd hc hkey
      obtain rfl := Option.some.inj (hd.symm.trans hc)
      rw [Stage.not_over_of_listed hl] at hover
      cases hover
  · intro id hid
    obtain ⟨-, -, hheld, -⟩ := h.active.entry_held hid hc
    cases hstage : c.stage with
    | ended => rw [hstage] at hheld; cases hheld
    | _ => rw [hstage] at hover; cases hover

/-- The context of a call that is over was finished. -/
theorem finished (h : Invariant labels s) (hc : s.calls[i]? = some c) (hover : c.stage.over = true) :
    i ∈ s.finished ↔ c.table = .tools ∧ c.withContext = true := by
  constructor
  · intro hi
    obtain ⟨d, hd, htable, hcontext, -⟩ := h.active.finished hi
    obtain rfl := Option.some.inj (hd.symm.trans hc)
    exact ⟨d.key_fst ▸ htable, hcontext⟩
  · rintro ⟨htools, hcontext⟩
    refine h.active.past hc (c.key_fst.trans htools) hcontext ?_
    cases hstage : c.stage <;> rw [hstage] at hover <;> first | rfl | cases hover

end Invariant

/-- **The calls of the host.** A call is answered by one message at most, and that is a message of its own connection
with its own id; what is sent to a call that waits arrives, and only a connection that is gone cuts it off. At its end a
call leaves nothing in the tables, its context was finished exactly once, and the host was told to cancel exactly if no
message took the call, its connection stayed and it did not fail itself. After that nothing happens to it. -/
theorem host_calls {labels : List (Option (Message Output))} {s : HostCalls Output Context}
    (h : Lts.Run Step {} labels s) :
    (s.handlers.map Handler.call).Nodup ∧ s.cancels.Nodup ∧ s.finished.Nodup ∧
    (∀ {i : Nat} {c : Call Output Context} {answer : Answer Output Context}, s.calls[i]? = some c →
      c.stage.outcome = some (.answered answer) → ∃ m, some m ∈ labels ∧ m.connection = c.connection ∧ m.target = some c.key ∧ m.answer c.table = answer) ∧
    (∀ {i : Nat} {c : Call Output Context}, s.calls[i]? = some c → c.slot = .closed → c.connection ∈ s.disconnecting) ∧
    (∀ {i : Nat} {c : Call Output Context}, s.calls[i]? = some c → c.stage = .waiting →
      (s.pending.get? c.key = some i ∨ Taken s i ∨ c.slot = .closed) ∧
      ∀ x ∈ s.handlers, x.call = i → x.stage = .sent → c.slot = .sent (x.message.answer c.table)) ∧
    ∀ {i : Nat} {c : Call Output Context} {outcome : Outcome Output Context}, s.calls[i]? = some c →
      c.stage = .ended outcome →
      (s.pending.get? c.key = none ∧ ∀ id, s.active.get? id ≠ some i) ∧
      (i ∈ s.finished ↔ c.table = .tools ∧ c.withContext = true) ∧
      (c.key ∈ s.cancels ↔ ¬Taken s i ∧ c.slot ≠ .closed ∧ ¬c.Failed) ∧
      ∀ {more t}, Lts.Run Step s more t → t.calls[i]? = some c := by
  have hinv : Invariant labels s := by simpa using Invariant.init.run h
  refine ⟨hinv.entries.once, hinv.cancels.once, hinv.active.once, hinv.answer,
    fun hc hslot => (hinv.entries.closed hc hslot).2, ?_, ?_⟩
  · intro i c hc hstage
    refine ⟨hinv.waiting hc hstage, ?_⟩
    rintro x hx rfl hsent
    exact hinv.entries.delivered x hx hsent hc (by rw [hstage]; rfl)
  · intro i c outcome hc hstage
    have hover : c.stage.over = true := by rw [hstage]; rfl
    exact ⟨hinv.left hc hover, hinv.finished hc hover, hinv.cancels.cancelled hc hover,
      fun hr => hinv.last hr hc hover⟩

/-- A tool call with its result. -/
theorem host_calls_sample : let _ : HostTypes String Unit := ⟨fun _ => none, fun _ => none, fun _ => .error "no"⟩
    ∃ (s : HostCalls String Unit) (labels : List (Option (Message String))) (c : Call String Unit),
      Lts.Run Step {} labels s ∧ s.calls[0]? = some c ∧ c.stage = .ended (.answered (.tool (.ok ("out", false)))) ∧
      s.pending.get? c.key = none ∧ 0 ∈ s.finished := by
  let _ : HostTypes String Unit := ⟨fun _ => none, fun _ => none, fun _ => .error "no"⟩
  let connection : Connection := ⟨"a", by decide⟩
  let c : Call String Unit := { table := .tools, withContext := true, connection, uuid := "u" }
  let m : Message String := .result connection "a:call_u" "out" false
  let answer : Answer String Unit := .tool (.ok ("out", false))
  have hready := (((Lts.Run.single (Step.call (s := {}) c rfl rfl fun _ hd => nomatch hd)).snoc
    (Step.register (i := 0) rfl rfl)).snoc (Step.activate (i := 0) rfl rfl rfl rfl)).snoc
    (Step.dispatch (i := 0) rfl rfl)
  obtain ⟨s, hs, hp, hc, hh⟩ : ∃ s, Lts.Run Step {} _ s ∧ s.pending.get? (.tools, "a:call_u") = some 0 ∧
      s.calls[0]? = some { c with stage := .waiting } ∧ s.handlers = [] :=
    ⟨_, hready.snoc (Step.sent (i := 0) rfl rfl), by decide, rfl, rfl⟩
  have htarget : m.target = some (.tools, "a:call_u") := by decide
  obtain ⟨s, hs, hx, hc⟩ : ∃ s, Lts.Run Step {} _ s ∧
      s.handlers[0]? = some { call := 0, message := m, stage := .taken } ∧
      s.calls[0]? = some { c with stage := .waiting } :=
    ⟨_, hs.snoc (Step.take m htarget hp), by simp [hh], hc⟩
  obtain ⟨s, hs, hx, hc⟩ : ∃ s, Lts.Run Step {} _ s ∧
      s.handlers[0]? = some { call := 0, message := m, stage := .finished } ∧
      s.calls[0]? = some { c with stage := .waiting } :=
    ⟨_, hs.snoc (Step.finished hx rfl htarget), by simp [Slots.get_set_iff hx], by simpa using hc⟩
  obtain ⟨s, hs, hc⟩ : ∃ s, Lts.Run Step {} _ s ∧
      s.calls[0]? = some { c with stage := .waiting, slot := .sent answer } :=
    ⟨_, hs.snoc (Step.answer hx rfl htarget hc rfl), (get_put hc).mpr (.inl ⟨rfl, rfl⟩)⟩
  obtain ⟨s, hs, hc⟩ : ∃ s, Lts.Run Step {} _ s ∧
      s.calls[0]? = some { c with stage := .leaving (.answered answer), slot := .sent answer } :=
    ⟨_, hs.snoc (Step.answered hc rfl rfl), (get_put hc).mpr (.inl ⟨rfl, rfl⟩)⟩
  obtain ⟨s, hs, hc⟩ : ∃ s, Lts.Run Step {} _ s ∧
      s.calls[0]? = some { c with stage := .cleaning (.answered answer), slot := .sent answer } :=
    ⟨_, hs.snoc (Step.leave hc rfl), by rw [finish_calls]; exact (get_put hc).mpr (.inl ⟨rfl, rfl⟩)⟩
  obtain ⟨s, hs, hc⟩ : ∃ s, Lts.Run Step {} _ s ∧
      s.calls[0]? = some { c with stage := .ended (.answered answer), slot := .sent answer } :=
    ⟨_, hs.snoc (Step.clean hc rfl), (get_put hc).mpr (.inl ⟨rfl, rfl⟩)⟩
  obtain ⟨-, -, -, -, -, -, hended⟩ := host_calls hs
  obtain ⟨⟨hpending, -⟩, hfinished, -⟩ := hended hc rfl
  exact ⟨s, _, _, hs, hc, rfl, hpending, hfinished.mpr ⟨rfl, rfl⟩⟩

end Tables

end Whale.HostCalls
