import Mathlib
import Whale.Sdk.Requests

/-!
# Every request has its own reply

`Entries` says what is in `pending` and `pending_sessions`, and `Fences` what the phase of a lifecycle has to do with
the closes of it. By `Left`, a request whose reply is still to come is known to the disconnect and to the close of its
session, as long as they have requests left; so none of them is left behind. `Sourced` is about the replies.
-/

namespace Whale

namespace Requests

/-! ## Stages -/

/-- Whether the key of the request may be in `pending`. -/
def Stage.listed : Stage → Bool
  | scoping | confirming | watching | sending | waiting | settled _ | unpending _ => true
  | called | checking | numbering | registering | unscoping _ | ended _ => false

/-- Whether it may be in `pending_sessions`. -/
def Stage.scoped : Stage → Bool
  | confirming | watching | sending | waiting | settled _ | unpending _ | unscoping _ => true
  | called | checking | numbering | registering | scoping | ended _ => false

/-- Past the second look at `closed`, and before the end of the `select!`. -/
def Stage.exposed : Stage → Bool
  | watching | sending | waiting => true
  | _ => false

/-- The same, or right before that look. -/
def Stage.expects : Stage → Bool
  | confirming | watching | sending | waiting => true
  | _ => false

/-- Before `pending.insert`. -/
def Stage.early : Stage → Bool
  | called | checking | numbering | registering => true
  | _ => false

/-- The keys that a disconnect has still to answer. -/
def Shutdown.left : Shutdown → Option (List String)
  | none | collecting _ => Option.none
  | draining _ keys => some keys
  | clearing | sessions _ | cancelled _ _ => some []

/-- The keys that a close has still to answer. -/
def ReleaseStage.left : ReleaseStage → Option (List String)
  | requested | reopened | failed | cancelling | collecting => Option.none
  | draining keys => some keys
  | finished => some []

/-- Whether a disconnect clears `pending_sessions`, or has. -/
def Shutdown.clears : Shutdown → Bool
  | none | collecting _ | draining _ _ => false
  | clearing | sessions _ | cancelled _ _ => true

theorem Stage.expects_of_exposed {stage : Stage} (h : stage.exposed = true) : stage.expects = true := by
  cases stage <;> first | rfl | cases h

theorem Stage.listed_of_expects {stage : Stage} (h : stage.expects = true) : stage.listed = true := by
  cases stage <;> first | rfl | cases h

theorem Stage.exposed_of_expects {stage : Stage} (h : stage.expects = true) (hne : stage ≠ confirming) :
    stage.exposed = true := by
  cases stage <;> first | rfl | exact absurd rfl hne | cases h

theorem key_inj {m n : Nat} (h : toString m = toString n) : m = n := Nat.repr_injective h

/-! ## Results -/

/-- What a request comes to. -/
def Stage.result : Stage → Option Reply
  | settled result => some result
  | unpending result | unscoping result | ended result => result
  | _ => none

/-- Whether the daemon said it. -/
def said : Reply → Bool
  | .ok _ | .error (.remote _) => true
  | .error _ => false

/-- A response with the id of the request says so. -/
def Heard (labels : List (Option JSONRPCResponse)) (r : Request) (x : Reply) : Prop :=
  ∃ id response, r.id = some id ∧ some response ∈ labels ∧ response.id.key = toString id ∧ reply response = x

end Requests

open Requests

namespace ClientState

/-! ## The reply of a key -/

theorem answer_none {s : ClientState} {key : String} {reply : Reply} (h : s.pending.get? key = none) :
    s.answer key reply = s := by
  simp [answer, h]

theorem answer_some {s : ClientState} {key : String} {reply : Reply} {i : Nat} {r : Request}
    (h : s.pending.get? key = some i) (hr : s.requests[i]? = some r) :
    s.answer key reply = { s.put i { r with slot := some reply } with pending := s.pending.erase key } := by
  have hmodify : s.requests.modify i (fun r => { r with slot := some reply }) =
      s.requests.set i { r with slot := some reply } := by
    rw [List.modify_eq_set_getElem?]
    simp [hr]
  simp only [answer, h, put, hmodify]

theorem get_put {s : ClientState} {i j : Nat} {r r' q : Request} (hr : s.requests[i]? = some r) :
    (s.put i r').requests[j]? = some q ↔ j = i ∧ q = r' ∨ j ≠ i ∧ s.requests[j]? = some q := Slots.get_set_iff hr

theorem put_get {s : ClientState} {i : Nat} {r : Request} (r' : Request) (hr : s.requests[i]? = some r) :
    (s.put i r').requests[i]? = some r' := (get_put hr).mpr (.inl ⟨rfl, rfl⟩)

/-! ## What is pending -/

/-- The entries are those of the requests that run, and every such request has one until its reply is sent. -/
structure Entries (s : ClientState) : Prop where
  fresh : ∀ {i id : Nat} {r : Request}, s.requests[i]? = some r → r.id = some id → id < s.nextId
  distinct : ∀ {i j id : Nat} {r q : Request}, s.requests[i]? = some r → s.requests[j]? = some q →
    r.id = some id → q.id = some id → i = j
  numbered : ∀ {i : Nat} {r : Request}, s.requests[i]? = some r → r.stage.listed = true → ∃ id, r.id = some id
  early : ∀ {i : Nat} {r : Request}, s.requests[i]? = some r → r.stage.early = true → r.slot = none
  pending : ∀ {key : String} {i : Nat}, s.pending.get? key = some i →
    ∃ (r : Request) (id : Nat), s.requests[i]? = some r ∧ r.id = some id ∧ key = toString id ∧
      r.stage.listed = true ∧ r.slot = none
  listed : ∀ {i id : Nat} {r : Request}, s.requests[i]? = some r → r.id = some id → r.stage.listed = true →
    r.slot = none → s.pending.get? (toString id) = some i
  scopes : ∀ {key sid : String}, s.pendingSessions.get? key = some sid →
    ∃ (i : Nat) (r : Request) (id : Nat), s.requests[i]? = some r ∧ r.id = some id ∧ key = toString id ∧
      r.stage.scoped = true ∧ r.access.sid = some sid

namespace Entries

variable {s s' : ClientState} {i : Nat} {r r' : Request}

/-- Steps outside of the requests. -/
theorem outside (h : Entries s) (hrequests : s'.requests = s.requests) (hnext : s'.nextId = s.nextId)
    (hpending : s'.pending = s.pending)
    (hscopes : ∀ {key sid}, s'.pendingSessions.get? key = some sid → s.pendingSessions.get? key = some sid) :
    Entries s' where
  fresh hr := by rw [hnext]; exact h.fresh (hrequests ▸ hr)
  distinct hr hq := h.distinct (hrequests ▸ hr) (hrequests ▸ hq)
  numbered hr := h.numbered (hrequests ▸ hr)
  early hr := h.early (hrequests ▸ hr)
  pending hp := by rw [hrequests]; exact h.pending (hpending ▸ hp)
  listed hr := by rw [hpending]; exact h.listed (hrequests ▸ hr)
  scopes hs := by rw [hrequests]; exact h.scopes (hscopes hs)

theorem called (h : Entries s) (r : Request) (hid : r.id = none) (hslot : r.slot = none)
    (hlisted : r.stage.listed = false) :
    Entries { s with requests := s.requests ++ [r] } where
  fresh hr hsome := by
    obtain hr | ⟨-, rfl⟩ := Slots.get_concat_iff.mp hr
    · exact h.fresh hr hsome
    · rw [hid] at hsome; cases hsome
  distinct hr hq hi hj := by
    obtain hr | ⟨-, rfl⟩ := Slots.get_concat_iff.mp hr
    · obtain hq | ⟨-, rfl⟩ := Slots.get_concat_iff.mp hq
      · exact h.distinct hr hq hi hj
      · rw [hid] at hj; cases hj
    · rw [hid] at hi; cases hi
  numbered hr hl := by
    obtain hr | ⟨-, rfl⟩ := Slots.get_concat_iff.mp hr
    · exact h.numbered hr hl
    · rw [hlisted] at hl; cases hl
  early hr hearly := by
    obtain hr | ⟨-, rfl⟩ := Slots.get_concat_iff.mp hr
    · exact h.early hr hearly
    · exact hslot
  pending hp := by
    obtain ⟨q, id, hq, hrest⟩ := h.pending hp
    exact ⟨q, id, Slots.get_concat_iff.mpr (.inl hq), hrest⟩
  listed hr hsome := by
    obtain hr | ⟨-, rfl⟩ := Slots.get_concat_iff.mp hr
    · exact h.listed hr hsome
    · rw [hid] at hsome; cases hsome
  scopes hs := by
    obtain ⟨j, q, id, hq, hrest⟩ := h.scopes hs
    exact ⟨j, q, id, Slots.get_concat_iff.mpr (.inl hq), hrest⟩

/-- A request goes on, and the maps are as they were. -/
theorem put (h : Entries s) (r' : Request) (hr : s.requests[i]? = some r) (hid : r'.id = r.id)
    (haccess : r'.access = r.access) (hslot : r'.slot = r.slot) (hlisted : r'.stage.listed = r.stage.listed)
    (hscoped : ∀ {key sid}, s.pendingSessions.get? key = some sid → r.stage.scoped = true → r'.stage.scoped = true)
    (hearly : r'.stage.early = true → r.stage.early = true) : Entries (s.put i r') where
  fresh hq hsome := by
    obtain ⟨rfl, rfl⟩ | ⟨-, hq⟩ := (get_put hr).mp hq
    · exact h.fresh hr (hid ▸ hsome)
    · exact h.fresh hq hsome
  distinct hq hp hi hj := by
    obtain ⟨rfl, rfl⟩ | ⟨-, hq'⟩ := (get_put hr).mp hq <;> obtain ⟨rfl, rfl⟩ | ⟨-, hp'⟩ := (get_put hr).mp hp
    · rfl
    · exact h.distinct hr hp' (hid ▸ hi) hj
    · exact h.distinct hq' hr hi (hid ▸ hj)
    · exact h.distinct hq' hp' hi hj
  numbered hq hl := by
    obtain ⟨rfl, rfl⟩ | ⟨-, hq⟩ := (get_put hr).mp hq
    · rw [hid]
      exact h.numbered hr (hlisted ▸ hl)
    · exact h.numbered hq hl
  early hq he := by
    obtain ⟨rfl, rfl⟩ | ⟨-, hq⟩ := (get_put hr).mp hq
    · exact hslot.trans (h.early hr (hearly he))
    · exact h.early hq he
  pending {key j} hp := by
    obtain ⟨q, id, hq, hqid, hkey, hl, hs⟩ := h.pending hp
    by_cases hj : j = i
    · subst hj
      obtain rfl := Option.some.inj (hr.symm.trans hq)
      exact ⟨r', id, (get_put hr).mpr (.inl ⟨rfl, rfl⟩), hid.trans hqid, hkey, hlisted.trans hl, hslot.trans hs⟩
    · exact ⟨q, id, (get_put hr).mpr (.inr ⟨hj, hq⟩), hqid, hkey, hl, hs⟩
  listed hq hsome hl hs := by
    obtain ⟨rfl, rfl⟩ | ⟨-, hq⟩ := (get_put hr).mp hq
    · exact h.listed hr (hid ▸ hsome) (hlisted ▸ hl) (hslot ▸ hs)
    · exact h.listed hq hsome hl hs
  scopes hs := by
    obtain ⟨j, q, id, hq, hqid, hkey, hsc, hsid⟩ := h.scopes hs
    by_cases hj : j = i
    · subst hj
      obtain rfl := Option.some.inj (hr.symm.trans hq)
      exact ⟨j, r', id, (get_put hr).mpr (.inl ⟨rfl, rfl⟩), hid.trans hqid, hkey, hscoped hs hsc,
        haccess ▸ hsid⟩
    · exact ⟨j, q, id, (get_put hr).mpr (.inr ⟨hj, hq⟩), hqid, hkey, hsc, hsid⟩

/-- A request takes the next number. -/
theorem number (h : Entries s) (hr : s.requests[i]? = some r) (hstage : r.stage = .numbering)
    (hid : r'.id = some s.nextId) (hslot : r'.slot = r.slot) (hlisted : r'.stage.listed = false)
    (hscoped : r'.stage.scoped = false) : Entries { s.put i r' with nextId := s.nextId + 1 } where
  fresh hq hsome := by
    obtain ⟨rfl, rfl⟩ | ⟨-, hq⟩ := (get_put hr).mp hq
    · obtain rfl := Option.some.inj (hid.symm.trans hsome)
      exact Nat.lt_succ_self _
    · exact Nat.lt_succ_of_lt (h.fresh hq hsome)
  distinct hq hp hi hj := by
    obtain ⟨rfl, rfl⟩ | ⟨-, hq'⟩ := (get_put hr).mp hq <;> obtain ⟨rfl, rfl⟩ | ⟨-, hp'⟩ := (get_put hr).mp hp
    · rfl
    · obtain rfl := Option.some.inj (hid.symm.trans hi)
      exact absurd (h.fresh hp' hj) (Nat.lt_irrefl _)
    · obtain rfl := Option.some.inj (hid.symm.trans hj)
      exact absurd (h.fresh hq' hi) (Nat.lt_irrefl _)
    · exact h.distinct hq' hp' hi hj
  numbered hq hl := by
    obtain ⟨rfl, rfl⟩ | ⟨-, hq⟩ := (get_put hr).mp hq
    · rw [hlisted] at hl; cases hl
    · exact h.numbered hq hl
  early hq he := by
    obtain ⟨rfl, rfl⟩ | ⟨-, hq⟩ := (get_put hr).mp hq
    · exact hslot.trans (h.early hr (by rw [hstage]; rfl))
    · exact h.early hq he
  pending {key j} hp := by
    obtain ⟨q, id, hq, hqid, hkey, hl, hs⟩ := h.pending hp
    have hj : j ≠ i := by
      rintro rfl
      obtain rfl := Option.some.inj (hr.symm.trans hq)
      rw [hstage] at hl
      cases hl
    exact ⟨q, id, (get_put hr).mpr (.inr ⟨hj, hq⟩), hqid, hkey, hl, hs⟩
  listed hq hsome hl hs := by
    obtain ⟨rfl, rfl⟩ | ⟨-, hq⟩ := (get_put hr).mp hq
    · rw [hlisted] at hl; cases hl
    · exact h.listed hq hsome hl hs
  scopes hs := by
    obtain ⟨j, q, id, hq, hqid, hkey, hsc, hsid⟩ := h.scopes hs
    have hj : j ≠ i := by
      rintro rfl
      obtain rfl := Option.some.inj (hr.symm.trans hq)
      rw [hstage] at hsc
      cases hsc
    exact ⟨j, q, id, (get_put hr).mpr (.inr ⟨hj, hq⟩), hqid, hkey, hsc, hsid⟩

/-- Another request has another key. -/
theorem key_ne (h : Entries s) {j id id' : Nat} {q : Request} (hr : s.requests[i]? = some r) (hid : r.id = some id)
    (hq : s.requests[j]? = some q) (hqid : q.id = some id') (hj : j ≠ i) : toString id' ≠ toString id := by
  intro hkey
  obtain rfl := key_inj hkey
  exact hj (h.distinct hq hr hqid hid)

/-- The sender of a request is put into `pending`. -/
theorem registered {id : Nat} (h : Entries s) (hr : s.requests[i]? = some r) (hstage : r.stage = .registering)
    (hid : r.id = some id) (hid' : r'.id = r.id) (hslot : r'.slot = r.slot) (hlisted : r'.stage.listed = true)
    (hearly : r'.stage.early = false) : Entries { s.put i r' with pending := s.pending.insert (toString id) i } where
  fresh hq hsome := by
    obtain ⟨rfl, rfl⟩ | ⟨-, hq⟩ := (get_put hr).mp hq
    · exact h.fresh hr (hid' ▸ hsome)
    · exact h.fresh hq hsome
  distinct hq hp hi hj := by
    obtain ⟨rfl, rfl⟩ | ⟨-, hq'⟩ := (get_put hr).mp hq <;> obtain ⟨rfl, rfl⟩ | ⟨-, hp'⟩ := (get_put hr).mp hp
    · rfl
    · exact h.distinct hr hp' (hid' ▸ hi) hj
    · exact h.distinct hq' hr hi (hid' ▸ hj)
    · exact h.distinct hq' hp' hi hj
  numbered hq hl := by
    obtain ⟨rfl, rfl⟩ | ⟨-, hq⟩ := (get_put hr).mp hq
    · exact ⟨id, hid'.trans hid⟩
    · exact h.numbered hq hl
  early hq he := by
    obtain ⟨rfl, rfl⟩ | ⟨-, hq⟩ := (get_put hr).mp hq
    · rw [hearly] at he; cases he
    · exact h.early hq he
  pending {key j} hp := by
    obtain ⟨rfl, rfl⟩ | ⟨hp, -⟩ := KeyMap.get?_insert.mp hp
    · exact ⟨r', id, (get_put hr).mpr (.inl ⟨rfl, rfl⟩), hid'.trans hid, rfl, hlisted,
        hslot.trans (h.early hr (by rw [hstage]; rfl))⟩
    obtain ⟨q, id', hq, hqid, hkey, hl, hs⟩ := h.pending hp
    have hj : j ≠ i := by
      rintro rfl
      obtain rfl := Option.some.inj (hr.symm.trans hq)
      rw [hstage] at hl
      cases hl
    exact ⟨q, id', (get_put hr).mpr (.inr ⟨hj, hq⟩), hqid, hkey, hl, hs⟩
  listed hq hsome hl hs := by
    obtain ⟨rfl, rfl⟩ | ⟨hj, hq⟩ := (get_put hr).mp hq
    · obtain rfl := Option.some.inj (hid.symm.trans (hid'.symm.trans hsome))
      exact KeyMap.get?_insert_self
    · exact (KeyMap.get?_insert_ne (h.key_ne hr hid hq hsome hj)).trans (h.listed hq hsome hl hs)
  scopes hs := by
    obtain ⟨j, q, id, hq, hqid, hkey, hsc, hsid⟩ := h.scopes hs
    have hj : j ≠ i := by
      rintro rfl
      obtain rfl := Option.some.inj (hr.symm.trans hq)
      rw [hstage] at hsc
      cases hsc
    exact ⟨j, q, id, (get_put hr).mpr (.inr ⟨hj, hq⟩), hqid, hkey, hsc, hsid⟩

/-- An entry of `pending` is taken out: its request is answered, or it is over. -/
theorem taken {id : Nat} (h : Entries s) (hr : s.requests[i]? = some r) (hid : r.id = some id)
    (hid' : r'.id = r.id) (haccess : r'.access = r.access)
    (hearly : r'.stage.early = false) (hscoped : r.stage.scoped = true → r'.stage.scoped = true)
    (hover : r'.stage.listed = false ∨ r'.slot ≠ none) :
    Entries { s.put i r' with pending := s.pending.erase (toString id) } where
  fresh hq hsome := by
    obtain ⟨rfl, rfl⟩ | ⟨-, hq⟩ := (get_put hr).mp hq
    · exact h.fresh hr (hid' ▸ hsome)
    · exact h.fresh hq hsome
  distinct hq hp hi hj := by
    obtain ⟨rfl, rfl⟩ | ⟨-, hq'⟩ := (get_put hr).mp hq <;> obtain ⟨rfl, rfl⟩ | ⟨-, hp'⟩ := (get_put hr).mp hp
    · rfl
    · exact h.distinct hr hp' (hid' ▸ hi) hj
    · exact h.distinct hq' hr hi (hid' ▸ hj)
    · exact h.distinct hq' hp' hi hj
  numbered hq hl := by
    obtain ⟨rfl, rfl⟩ | ⟨-, hq⟩ := (get_put hr).mp hq
    · exact ⟨id, hid'.trans hid⟩
    · exact h.numbered hq hl
  early hq he := by
    obtain ⟨rfl, rfl⟩ | ⟨-, hq⟩ := (get_put hr).mp hq
    · rw [hearly] at he; cases he
    · exact h.early hq he
  pending {key j} hp := by
    obtain ⟨hp, hne⟩ := KeyMap.get?_erase.mp hp
    obtain ⟨q, id', hq, hqid, hkey, hl, hs⟩ := h.pending hp
    have hj : j ≠ i := by
      rintro rfl
      obtain rfl := Option.some.inj (hr.symm.trans hq)
      obtain rfl := Option.some.inj (hid.symm.trans hqid)
      exact hne hkey
    exact ⟨q, id', (get_put hr).mpr (.inr ⟨hj, hq⟩), hqid, hkey, hl, hs⟩
  listed hq hsome hl hs := by
    obtain ⟨rfl, rfl⟩ | ⟨hj, hq⟩ := (get_put hr).mp hq
    · obtain hover | hover := hover
      · rw [hover] at hl; cases hl
      · exact absurd hs hover
    · exact (KeyMap.get?_erase_ne (h.key_ne hr hid hq hsome hj)).trans (h.listed hq hsome hl hs)
  scopes hs := by
    obtain ⟨j, q, id', hq, hqid, hkey, hsc, hsid⟩ := h.scopes hs
    by_cases hj : j = i
    · subst hj
      obtain rfl := Option.some.inj (hr.symm.trans hq)
      exact ⟨j, r', id', (get_put hr).mpr (.inl ⟨rfl, rfl⟩), hid'.trans hqid, hkey, hscoped hsc, haccess ▸ hsid⟩
    · exact ⟨j, q, id', (get_put hr).mpr (.inr ⟨hj, hq⟩), hqid, hkey, hsc, hsid⟩

/-- The session of a request is put into `pending_sessions`. -/
theorem scope {id : Nat} {sid : String} (h : Entries s) (hr : s.requests[i]? = some r) (hstage : r.stage = .scoping)
    (hid : r.id = some id) (hsid : r.access.sid = some sid) :
    Entries { s.put i { r with stage := .confirming } with
      pendingSessions := s.pendingSessions.insert (toString id) sid } := by
  have hput := h.put { r with stage := .confirming } hr rfl rfl rfl (by rw [hstage]; rfl)
    (fun _ _ => rfl) nofun
  refine { hput with scopes := fun {key sid'} hs => ?_ }
  obtain ⟨rfl, rfl⟩ | ⟨hs, -⟩ := KeyMap.get?_insert.mp hs
  · exact ⟨i, _, id, (get_put hr).mpr (.inl ⟨rfl, rfl⟩), hid, rfl, rfl, hsid⟩
  · exact hput.scopes hs

/-- The guard takes it out. -/
theorem unscope {id : Nat} {result : Option Reply} (h : Entries s) (hr : s.requests[i]? = some r)
    (hstage : r.stage = .unscoping result) (hid : r.id = some id) :
    Entries { s.put i { r with stage := .ended result } with
      pendingSessions := s.pendingSessions.erase (toString id) } := by
  have hempty : Entries { s with pendingSessions := .empty } := { h with scopes := nofun }
  have hput := hempty.put { r with stage := .ended result } hr rfl rfl rfl (by rw [hstage]; rfl)
    (fun hs => by cases hs) nofun
  refine { hput with scopes := fun {key sid} hs => ?_ }
  obtain ⟨hs, hne⟩ := KeyMap.get?_erase.mp hs
  obtain ⟨j, q, id', hq, hqid, hkey, hrest⟩ := h.scopes hs
  have hj : j ≠ i := by
    rintro rfl
    obtain rfl := Option.some.inj (hr.symm.trans hq)
    obtain rfl := Option.some.inj (hid.symm.trans hqid)
    exact hne hkey
  exact ⟨j, q, id', (get_put hr).mpr (.inr ⟨hj, hq⟩), hqid, hkey, hrest⟩

end Entries

/-! ## Phases and closes -/

/-- The phase of a lifecycle is open as long as a request holds its lock, and shut from its close on. -/
structure Fences (s : ClientState) : Prop where
  locked : ∀ {i : Nat} {r : Request}, s.requests[i]? = some r → r.stage = .scoping →
    ∃ l life, r.via = some l ∧ s.lifecycles[l]? = some life ∧ life.phase = .opened
  via : ∀ {i l : Nat} {r : Request}, s.requests[i]? = some r → r.via = some l →
    ∃ life, s.lifecycles[l]? = some life ∧ r.access.sid = some life.sid
  tracked : ∀ {sid : String} {l : Nat}, s.sessions.get? sid = some l →
    ∃ life, s.lifecycles[l]? = some life ∧ life.sid = sid
  single : ∀ {j j' : Nat} {release release' : Release}, s.releases[j]? = some release →
    s.releases[j']? = some release' → release.lifecycle = release'.lifecycle → release.stage ≠ .reopened →
    release'.stage ≠ .reopened → j = j'
  shut : ∀ {j : Nat} {release : Release} {life : SessionLifecycle}, s.releases[j]? = some release →
    release.stage ≠ .reopened → s.lifecycles[release.lifecycle]? = some life →
    life.phase ≠ .opened ∧ life.phase ≠ .preparing
  known : ∀ {j : Nat} {release : Release}, s.releases[j]? = some release →
    ∃ life, s.lifecycles[release.lifecycle]? = some life

namespace Fences

variable {s s' : ClientState} {i l : Nat} {r r' : Request} {life life' : SessionLifecycle}

/-- Steps of the requests. -/
theorem inside (h : Fences s) (hlifecycles : s'.lifecycles = s.lifecycles) (hsessions : s'.sessions = s.sessions)
    (hreleases : s'.releases = s.releases)
    (hlocked : ∀ {i : Nat} {r : Request}, s'.requests[i]? = some r → r.stage = .scoping →
      ∃ l life, r.via = some l ∧ s.lifecycles[l]? = some life ∧ life.phase = .opened)
    (hvia : ∀ {i l : Nat} {r : Request}, s'.requests[i]? = some r → r.via = some l →
      ∃ life, s.lifecycles[l]? = some life ∧ r.access.sid = some life.sid) : Fences s' where
  locked hr := by rw [hlifecycles]; exact hlocked hr
  via hr := by rw [hlifecycles]; exact hvia hr
  tracked hs := by rw [hlifecycles]; exact h.tracked (hsessions ▸ hs)
  single hj hj' := h.single (hreleases ▸ hj) (hreleases ▸ hj')
  shut hj hstage hl := h.shut (hreleases ▸ hj) hstage (hlifecycles ▸ hl)
  known hj := by rw [hlifecycles]; exact h.known (hreleases ▸ hj)

/-- A request goes on, outside of the lock. -/
theorem put (h : Fences s) (r' : Request) (hr : s.requests[i]? = some r) (haccess : r'.access = r.access)
    (hvia : r'.via = r.via) (hstage : r'.stage ≠ .scoping) (hlifecycles : s'.lifecycles = s.lifecycles) (hsessions : s'.sessions = s.sessions)
    (hreleases : s'.releases = s.releases) (hrequests : s'.requests = (s.put i r').requests) : Fences s' := by
  refine h.inside hlifecycles hsessions hreleases ?_ ?_
  · intro j q hq hscoping
    obtain ⟨rfl, rfl⟩ | ⟨-, hq⟩ := (get_put hr).mp (hrequests ▸ hq)
    · exact absurd hscoping hstage
    · exact h.locked hq hscoping
  · intro j l q hq hl
    obtain ⟨rfl, rfl⟩ | ⟨-, hq⟩ := (get_put hr).mp (hrequests ▸ hq)
    · rw [haccess]
      exact h.via hr (hvia ▸ hl)
    · exact h.via hq hl

/-- A lifecycle changes; its phase only where it is free, and it does not open under a close. -/
theorem setLifecycle (h : Fences s) (life' : SessionLifecycle) (hl : s.lifecycles[l]? = some life)
    (hsid : life'.sid = life.sid)
    (hphase : life'.phase = life.phase ∨ s.Free l ∧ ∀ {j : Nat} {release : Release}, s.releases[j]? = some release →
      release.lifecycle = l → release.stage ≠ .reopened → life'.phase ≠ .opened ∧ life'.phase ≠ .preparing) :
    Fences (s.setLifecycle l life') := by
  have hget : ∀ {m : Nat} {x : SessionLifecycle}, (s.setLifecycle l life').lifecycles[m]? = some x ↔
      m = l ∧ x = life' ∨ m ≠ l ∧ s.lifecycles[m]? = some x := Slots.get_set_iff hl
  have hkeep : ∀ {m : Nat} {x : SessionLifecycle}, s.lifecycles[m]? = some x →
      ∃ y, (s.setLifecycle l life').lifecycles[m]? = some y ∧ y.sid = x.sid := by
    intro m x hx
    by_cases hm : m = l
    · subst hm
      obtain rfl := Option.some.inj (hl.symm.trans hx)
      exact ⟨life', hget.mpr (.inl ⟨rfl, rfl⟩), hsid⟩
    · exact ⟨x, hget.mpr (.inr ⟨hm, hx⟩), rfl⟩
  constructor
  case locked =>
    intro i r hr hstage
    obtain ⟨m, x, hm, hx, hopen⟩ := h.locked hr hstage
    by_cases hml : m = l
    · subst hml
      obtain rfl := Option.some.inj (hl.symm.trans hx)
      obtain hphase | ⟨hfree, -⟩ := hphase
      · exact ⟨m, life', hm, hget.mpr (.inl ⟨rfl, rfl⟩), hphase.trans hopen⟩
      · exact absurd hm (hfree r (List.mem_of_getElem? hr) hstage)
    · exact ⟨m, x, hm, hget.mpr (.inr ⟨hml, hx⟩), hopen⟩
  case via =>
    intro i m r hr hm
    obtain ⟨x, hx, hsid'⟩ := h.via hr hm
    obtain ⟨y, hy, hyx⟩ := hkeep hx
    exact ⟨y, hy, hyx ▸ hsid'⟩
  case tracked =>
    intro sid m hs
    obtain ⟨x, hx, hsid'⟩ := h.tracked hs
    obtain ⟨y, hy, hyx⟩ := hkeep hx
    exact ⟨y, hy, hyx.trans hsid'⟩
  case single => exact h.single
  case shut =>
    intro j release x hj hstage hx
    obtain ⟨hm, rfl⟩ | ⟨-, hx⟩ := hget.mp hx
    · obtain hphase | ⟨-, hphase⟩ := hphase
      · rw [hphase]
        exact h.shut hj hstage (hm ▸ hl)
      · exact hphase hj hm hstage
    · exact h.shut hj hstage hx
  case known =>
    intro j release hj
    obtain ⟨x, hx⟩ := h.known hj
    obtain ⟨y, hy, -⟩ := hkeep hx
    exact ⟨y, hy⟩

/-- A close goes on. -/
theorem setRelease {j : Nat} {release : Release} (h : Fences s) (release' : Release)
    (hj : s.releases[j]? = some release) (hlifecycle : release'.lifecycle = release.lifecycle) (hstage : release.stage ≠ .reopened) :
    Fences (s.setRelease j release') := by
  have hget : ∀ {k : Nat} {x : Release}, (s.setRelease j release').releases[k]? = some x →
      ∃ y, s.releases[k]? = some y ∧ x.lifecycle = y.lifecycle ∧ (x.stage ≠ .reopened → y.stage ≠ .reopened) := by
    intro k x hx
    obtain ⟨rfl, rfl⟩ | ⟨-, hx⟩ := (Slots.get_set_iff hj).mp hx
    · exact ⟨release, hj, hlifecycle, fun _ => hstage⟩
    · exact ⟨x, hx, rfl, id⟩
  constructor
  case locked => exact h.locked
  case via => exact h.via
  case tracked => exact h.tracked
  case single =>
    intro k k' x x' hx hx' heq hne hne'
    obtain ⟨y, hy, hyx, hy'⟩ := hget hx
    obtain ⟨z, hz, hzx, hz'⟩ := hget hx'
    exact h.single hy hz (hyx ▸ hzx ▸ heq) (hy' hne) (hz' hne')
  case shut =>
    intro k x life hx hne hl
    obtain ⟨y, hy, hyx, hy'⟩ := hget hx
    exact h.shut hy (hy' hne) (hyx ▸ hl)
  case known =>
    intro k x hx
    obtain ⟨y, hy, hyx, -⟩ := hget hx
    rw [hyx]
    exact h.known hy

/-- A close begins. -/
theorem close (h : Fences s) (hl : s.lifecycles[l]? = some life) (hphase : life.phase = .opened) (hfree : s.Free l) :
    Fences { s.setLifecycle l { life with phase := .closing } with
      releases := s.releases ++ [{ lifecycle := l }] } := by
  have hset := h.setLifecycle { life with phase := .closing } hl rfl
    (.inr ⟨hfree, fun _ _ _ => ⟨nofun, nofun⟩⟩)
  have hnone : ∀ {j : Nat} {release : Release}, s.releases[j]? = some release → release.lifecycle = l →
      release.stage ≠ .reopened → False := by
    intro j release hj hm hne
    exact (h.shut hj hne (hm ▸ hl)).1 hphase
  constructor
  case locked => exact hset.locked
  case via => exact hset.via
  case tracked => exact hset.tracked
  case single =>
    intro j j' release release' hj hj' heq hne hne'
    obtain hj | ⟨rfl, rfl⟩ := Slots.get_concat_iff.mp hj <;> obtain hj' | ⟨rfl, rfl⟩ := Slots.get_concat_iff.mp hj'
    · exact h.single hj hj' heq hne hne'
    · exact (hnone hj heq hne).elim
    · exact (hnone hj' heq.symm hne').elim
    · rfl
  case shut =>
    intro j release x hj hne hx
    obtain hj | ⟨-, rfl⟩ := Slots.get_concat_iff.mp hj
    · exact hset.shut hj hne hx
    · obtain ⟨-, rfl⟩ | ⟨hm, -⟩ := (Slots.get_set_iff hl).mp hx
      · exact ⟨nofun, nofun⟩
      · exact absurd rfl hm
  case known =>
    intro j release hj
    obtain hj | ⟨-, rfl⟩ := Slots.get_concat_iff.mp hj
    · exact hset.known hj
    · exact ⟨_, (Slots.get_set_iff hl).mpr (.inl ⟨rfl, rfl⟩)⟩

/-- A thread gets a lifecycle. -/
theorem track (h : Fences s) (sid : String) :
    Fences { s with sessions := s.sessions.insert sid s.lifecycles.length,
                    lifecycles := s.lifecycles ++ [{ sid }] } := by
  have hkeep : ∀ {m : Nat} {x : SessionLifecycle}, s.lifecycles[m]? = some x →
      (s.lifecycles ++ [({ sid } : SessionLifecycle)])[m]? = some x := fun hx => Slots.get_concat_iff.mpr (.inl hx)
  constructor
  case locked =>
    intro i r hr hstage
    obtain ⟨m, x, hm, hx, hopen⟩ := h.locked hr hstage
    exact ⟨m, x, hm, hkeep hx, hopen⟩
  case via =>
    intro i m r hr hm
    obtain ⟨x, hx, hsid⟩ := h.via hr hm
    exact ⟨x, hkeep hx, hsid⟩
  case tracked =>
    intro sid' m hs
    obtain ⟨rfl, rfl⟩ | ⟨hs, -⟩ := KeyMap.get?_insert.mp hs
    · exact ⟨_, Slots.get_concat_iff.mpr (.inr ⟨rfl, rfl⟩), rfl⟩
    · obtain ⟨x, hx, hsid⟩ := h.tracked hs
      exact ⟨x, hkeep hx, hsid⟩
  case single => exact h.single
  case shut =>
    intro j release x hj hne hx
    obtain ⟨y, hy⟩ := h.known hj
    obtain rfl := Option.some.inj ((hkeep hy).symm.trans hx)
    exact h.shut hj hne hy
  case known =>
    intro j release hj
    obtain ⟨y, hy⟩ := h.known hj
    exact ⟨y, hkeep hy⟩

end Fences

/-! ## The requests that are left -/

/-- A request without its reply is known to the disconnect and to the close of its session. -/
structure Left (s : ClientState) : Prop where
  closed : s.closed = false ↔ s.shutdown = .none
  scopes : ∀ {i id : Nat} {r : Request} {sid : String}, s.requests[i]? = some r → r.stage.expects = true →
    r.slot = none → r.id = some id → r.access.sid = some sid → s.shutdown.clears = false →
    s.pendingSessions.get? (toString id) = some sid
  shutdown : ∀ {i id : Nat} {r : Request} {keys : List String}, s.requests[i]? = some r → r.stage.exposed = true →
    r.slot = none → r.id = some id → s.shutdown.left = some keys → toString id ∈ keys
  release : ∀ {i id j : Nat} {r : Request} {release : Release} {keys : List String}, s.requests[i]? = some r →
    (r.stage.exposed = true ∨ r.stage = .confirming ∧ s.closed = false) → r.slot = none → r.id = some id →
    s.releases[j]? = some release → r.via = some release.lifecycle → release.stage.left = some keys →
    toString id ∈ keys

namespace Left

variable {s s' : ClientState} {i : Nat} {r r' : Request}

/-- Steps outside of the requests, the disconnect and the closes. -/
theorem outside (h : Left s) (hrequests : s'.requests = s.requests)
    (hpendingSessions : s'.pendingSessions = s.pendingSessions) (hclosed : s'.closed = s.closed)
    (hshutdown : s'.shutdown = s.shutdown) (hreleases : s'.releases = s.releases) : Left s' where
  closed := by rw [hclosed, hshutdown]; exact h.closed
  scopes hr := by rw [hshutdown, hpendingSessions]; exact h.scopes (hrequests ▸ hr)
  shutdown hr := by rw [hshutdown]; exact h.shutdown (hrequests ▸ hr)
  release hr hwait hs hid hj := h.release (hrequests ▸ hr) (hclosed ▸ hwait) hs hid (hreleases ▸ hj)

theorem called (h : Left s) (r : Request) (hstage : r.stage = .called) :
    Left { s with requests := s.requests ++ [r] } where
  closed := h.closed
  scopes hr hwait := by
    obtain hr | ⟨-, rfl⟩ := Slots.get_concat_iff.mp hr
    · exact h.scopes hr hwait
    · rw [hstage] at hwait; cases hwait
  shutdown hr hwait := by
    obtain hr | ⟨-, rfl⟩ := Slots.get_concat_iff.mp hr
    · exact h.shutdown hr hwait
    · rw [hstage] at hwait; cases hwait
  release hr hwait := by
    obtain hr | ⟨-, rfl⟩ := Slots.get_concat_iff.mp hr
    · exact h.release hr hwait
    · rw [hstage] at hwait; obtain hwait | ⟨hwait, -⟩ := hwait <;> cases hwait

/-- A request that still expects its reply did so before; and it passed the second look at `closed` only where the
client was open. -/
structure Follows (s : ClientState) (r r' : Request) : Prop where
  id : r'.id = r.id
  access : r'.access = r.access
  via : r'.via = r.via
  slot : r.slot = none
  expects : r.stage.expects = true
  exposed : r'.stage.exposed = true → r.stage.exposed = true ∨ r.stage = .confirming ∧ s.closed = false
  confirming : r'.stage = .confirming → r.stage = .confirming

/-- A request goes on. -/
theorem put (h : Left s) (r' : Request) (hr : s.requests[i]? = some r)
    (hfollows : r'.stage.expects = true → r'.slot = none → Follows s r r')
    (hrequests : s'.requests = (s.put i r').requests) (hclosed : s'.closed = s.closed)
    (hshutdown : s'.shutdown = s.shutdown) (hreleases : s'.releases = s.releases)
    (hscopes : ∀ {j id : Nat} {q : Request} {sid : String}, s'.requests[j]? = some q → q.stage.expects = true →
      q.id = some id → s.pendingSessions.get? (toString id) = some sid →
      s'.pendingSessions.get? (toString id) = some sid) : Left s' where
  closed := by rw [hclosed, hshutdown]; exact h.closed
  scopes {j id q sid} hq hwait hs hid haccess hclear := by
    refine hscopes hq hwait hid ?_
    rw [hshutdown] at hclear
    obtain ⟨rfl, rfl⟩ | ⟨-, hq⟩ := (get_put hr).mp (hrequests ▸ hq)
    · have hf := hfollows hwait hs
      exact h.scopes hr hf.expects hf.slot (hf.id ▸ hid) (hf.access ▸ haccess) hclear
    · exact h.scopes hq hwait hs hid haccess hclear
  shutdown {j id q keys} hq hwait hs hid hleft := by
    rw [hshutdown] at hleft
    obtain ⟨rfl, rfl⟩ | ⟨-, hq⟩ := (get_put hr).mp (hrequests ▸ hq)
    · have hf := hfollows (Stage.expects_of_exposed hwait) hs
      obtain hexposed | ⟨-, hopen⟩ := hf.exposed hwait
      · exact h.shutdown hr hexposed hf.slot (hf.id ▸ hid) hleft
      · rw [h.closed.mp hopen] at hleft
        cases hleft
    · exact h.shutdown hq hwait hs hid hleft
  release {j id k q release keys} hq hwait hs hid hk hvia hleft := by
    rw [hreleases] at hk
    rw [hclosed] at hwait
    obtain ⟨rfl, rfl⟩ | ⟨-, hq⟩ := (get_put hr).mp (hrequests ▸ hq)
    · have hexpects : q.stage.expects = true := by
        obtain hwait | ⟨hwait, -⟩ := hwait
        · exact Stage.expects_of_exposed hwait
        · rw [hwait]; rfl
      have hf := hfollows hexpects hs
      refine h.release hr ?_ hf.slot (hf.id ▸ hid) hk (hf.via ▸ hvia) hleft
      obtain hwait | ⟨hwait, hopen⟩ := hwait
      · exact hf.exposed hwait
      · exact .inr ⟨hf.confirming hwait, hopen⟩
    · exact h.release hq hwait hs hid hk hvia hleft

/-- A request comes to the second look at `closed`. -/
theorem entered (h : Left s) (r' : Request) (hr : s.requests[i]? = some r) (hconfirming : r'.stage = .confirming)
    (hrequests : s'.requests = (s.put i r').requests) (hclosed : s'.closed = s.closed)
    (hshutdown : s'.shutdown = s.shutdown) (hreleases : s'.releases = s.releases)
    (hscopes : ∀ {j id : Nat} {q : Request} {sid : String}, s.requests[j]? = some q → j ≠ i → q.id = some id →
      s.pendingSessions.get? (toString id) = some sid → s'.pendingSessions.get? (toString id) = some sid)
    (hown : ∀ {id : Nat} {sid : String}, r'.id = some id → r'.access.sid = some sid →
      s'.pendingSessions.get? (toString id) = some sid)
    (hfree : ∀ {j : Nat} {release : Release}, s.releases[j]? = some release → r'.via = some release.lifecycle →
      release.stage.left = none) : Left s' where
  closed := by rw [hclosed, hshutdown]; exact h.closed
  scopes {j id q sid} hq hwait hs hid haccess hclear := by
    rw [hshutdown] at hclear
    obtain ⟨rfl, rfl⟩ | ⟨hj, hq⟩ := (get_put hr).mp (hrequests ▸ hq)
    · exact hown hid haccess
    · exact hscopes hq hj hid (h.scopes hq hwait hs hid haccess hclear)
  shutdown {j id q keys} hq hwait hs hid hleft := by
    rw [hshutdown] at hleft
    obtain ⟨rfl, rfl⟩ | ⟨-, hq⟩ := (get_put hr).mp (hrequests ▸ hq)
    · rw [hconfirming] at hwait; cases hwait
    · exact h.shutdown hq hwait hs hid hleft
  release {j id k q release keys} hq hwait hs hid hk hvia hleft := by
    rw [hreleases] at hk
    rw [hclosed] at hwait
    obtain ⟨rfl, rfl⟩ | ⟨-, hq⟩ := (get_put hr).mp (hrequests ▸ hq)
    · rw [hfree hk hvia] at hleft; cases hleft
    · exact h.release hq hwait hs hid hk hvia hleft

end Left

/-! ## Answers -/

/-- An answer goes to the request of its key, if that one is pending. -/
theorem answer_cases {s : ClientState} (h : Entries s) (key : String) (reply : Reply) :
    s.pending.get? key = none ∧ s.answer key reply = s ∨
      ∃ (i id : Nat) (r : Request), s.requests[i]? = some r ∧ r.id = some id ∧ key = toString id ∧
        r.stage.listed = true ∧ r.slot = none ∧ s.answer key reply =
          { s.put i { r with slot := some reply } with pending := s.pending.erase (toString id) } := by
  cases hp : s.pending.get? key with
  | none => exact .inl ⟨rfl, answer_none hp⟩
  | some i =>
    obtain ⟨r, id, hr, hid, rfl, hlisted, hslot⟩ := h.pending hp
    exact .inr ⟨i, id, r, hr, hid, rfl, hlisted, hslot, answer_some hp hr⟩

theorem Stage.not_early_of_listed {stage : Stage} (h : stage.listed = true) : stage.early = false := by
  cases stage <;> first | rfl | cases h

theorem Entries.answer {s : ClientState} (h : Entries s) (key : String) (reply : Reply) :
    Entries (s.answer key reply) := by
  obtain ⟨-, heq⟩ | ⟨i, id, r, hr, hid, -, hlisted, -, heq⟩ := answer_cases h key reply
  · rw [heq]
    exact h
  · rw [heq]
    exact h.taken hr hid rfl rfl (Stage.not_early_of_listed hlisted) (fun hs => hs) (.inr nofun)

/-- No request still expects a reply of this key. -/
theorem Entries.answered {s : ClientState} {key : String} {reply : Reply} {i id : Nat} {r : Request} (h : Entries s)
    (hr : (s.answer key reply).requests[i]? = some r) (hid : r.id = some id) (hlisted : r.stage.listed = true)
    (hslot : r.slot = none) : toString id ≠ key := by
  rintro rfl
  have hp := (h.answer (toString id) reply).listed hr hid hlisted hslot
  obtain ⟨hnone, heq⟩ | ⟨j, id', q, hq, hqid, hkey, -, -, heq⟩ := answer_cases h (toString id) reply
  · rw [heq, hnone] at hp
    cases hp
  · rw [heq, hkey] at hp
    exact absurd hp (by rw [KeyMap.get?_erase_self]; exact nofun)

theorem Fences.answer {s : ClientState} (h : Fences s) (hE : Entries s) (key : String) (reply : Reply) :
    Fences (s.answer key reply) := by
  obtain ⟨-, heq⟩ | ⟨i, id, r, hr, -, -, -, -, heq⟩ := answer_cases hE key reply
  · rw [heq]
    exact h
  · rw [heq]
    refine h.inside rfl rfl rfl ?_ ?_
    · intro j q hq hstage
      obtain ⟨rfl, rfl⟩ | ⟨-, hq⟩ := (get_put hr).mp hq
      · exact h.locked (r := r) hr hstage
      · exact h.locked hq hstage
    · intro j l q hq hl
      obtain ⟨rfl, rfl⟩ | ⟨-, hq⟩ := (get_put hr).mp hq
      · exact h.via (r := r) hr hl
      · exact h.via hq hl

theorem Left.answer {s : ClientState} (h : Left s) (hE : Entries s) (key : String) (reply : Reply) :
    Left (s.answer key reply) := by
  obtain ⟨-, heq⟩ | ⟨i, id, r, hr, -, -, -, -, heq⟩ := answer_cases hE key reply
  · rw [heq]
    exact h
  · rw [heq]
    exact h.put { r with slot := some reply } hr (fun _ hs => by cases hs) rfl rfl rfl rfl
      (fun _ _ _ hs => hs)

@[simp] theorem answer_shutdown (s : ClientState) (key : String) (reply : Reply) :
    (s.answer key reply).shutdown = s.shutdown := by
  unfold ClientState.answer
  split <;> rfl

@[simp] theorem answer_releases (s : ClientState) (key : String) (reply : Reply) :
    (s.answer key reply).releases = s.releases := by
  unfold ClientState.answer
  split <;> rfl

@[simp] theorem answer_closed (s : ClientState) (key : String) (reply : Reply) :
    (s.answer key reply).closed = s.closed := by
  unfold ClientState.answer
  split <;> rfl

@[simp] theorem answer_pendingSessions (s : ClientState) (key : String) (reply : Reply) :
    (s.answer key reply).pendingSessions = s.pendingSessions := by
  unfold ClientState.answer
  split <;> rfl

theorem answer_erase (s : ClientState) (key : String) (reply : Reply) :
    { s with pendingSessions := s.pendingSessions.erase key }.answer key reply =
      { s.answer key reply with pendingSessions := s.pendingSessions.erase key } := by
  simp only [ClientState.answer]
  cases s.pending.get? key <;> rfl

/-! ## The disconnect and the closes -/

namespace Left

variable {s : ClientState}

theorem disconnect (h : Left s) (hopen : s.closed = false) (message : String) :
    Left { s with closed := true, shutdown := .collecting message } where
  closed := ⟨nofun, nofun⟩
  scopes hr hwait hs hid haccess _ := h.scopes hr hwait hs hid haccess (by rw [h.closed.mp hopen]; rfl)
  shutdown _ _ _ _ hleft := by cases hleft
  release hr hwait hs hid hj := by
    refine h.release hr ?_ hs hid hj
    obtain hwait | ⟨-, hopen⟩ := hwait
    · exact .inl hwait
    · cases hopen

/-- The disconnect goes on: it may leave out a key of which no request expects a reply. -/
theorem setShutdown {shutdown : Shutdown} (h : Left s) (hclosed : s.shutdown ≠ .none) (hnew : shutdown ≠ .none)
    (hclears : s.shutdown.clears = true → shutdown.clears = true)
    (hleft : ∀ {i id : Nat} {r : Request} {keys : List String}, s.requests[i]? = some r → r.stage.exposed = true →
      r.slot = none → r.id = some id → shutdown.left = some keys → toString id ∈ keys) :
    Left { s with shutdown } where
  closed := ⟨fun hopen => absurd (h.closed.mp hopen) hclosed, fun hnone => absurd hnone hnew⟩
  scopes hr hwait hs hid haccess hclear := by
    refine h.scopes hr hwait hs hid haccess ?_
    cases hold : s.shutdown.clears with
    | false => rfl
    | true =>
      have hnew := hclears hold
      rw [show shutdown.clears = false from hclear] at hnew
      cases hnew
  shutdown := hleft
  release := h.release

/-- No request is left, and the disconnect goes on behind that. -/
theorem past (h : Left s) (shutdown : Shutdown) (hold : s.shutdown.left = some []) (hclears : shutdown.clears = true) :
    Left { s with shutdown } := by
  refine h.setShutdown (fun hnone => ?_) (fun hnone => ?_) (fun _ => hclears) fun hr hwait hs hid _ => ?_
  · rw [hnone] at hold; cases hold
  · rw [hnone] at hclears; cases hclears
  · exact absurd (h.shutdown hr hwait hs hid hold) List.not_mem_nil

theorem collect {message : String} {keys : List String} (h : Left s) (hE : Entries s)
    (hshut : s.shutdown = .collecting message) (all : ∀ key, (s.pending.get? key).isSome = true → key ∈ keys) :
    Left { s with shutdown := .draining message keys } := by
  refine h.setShutdown (by rw [hshut]; nofun) nofun (by rw [hshut]; nofun) fun hr hwait hs hid hleft => ?_
  obtain rfl := Option.some.inj hleft
  refine all _ ?_
  rw [hE.listed hr hid (Stage.listed_of_expects (Stage.expects_of_exposed hwait)) hs]
  rfl

theorem drain {message key : String} {keys : List String} (h : Left s) (hE : Entries s)
    (hshut : s.shutdown = .draining message (key :: keys)) (reply : Reply) :
    Left { s.answer key reply with shutdown := .draining message keys } := by
  have hanswer := h.answer hE key reply
  have hold : (s.answer key reply).shutdown = .draining message (key :: keys) := (answer_shutdown ..).trans hshut
  refine hanswer.setShutdown (by rw [hold]; nofun) nofun (by rw [hold]; nofun) fun hr hwait hs hid hleft => ?_
  obtain rfl := Option.some.inj hleft
  have hmem := hanswer.shutdown hr hwait hs hid (by rw [hold]; rfl)
  exact (List.mem_cons.mp hmem).resolve_left
    (hE.answered hr hid (Stage.listed_of_expects (Stage.expects_of_exposed hwait)) hs)

/-- A close goes on: it may leave out a key of which no request of its lifecycle expects a reply. -/
theorem setRelease {j : Nat} {release release' : Release} (h : Left s) (hj : s.releases[j]? = some release)
    (hleft : ∀ {i id : Nat} {r : Request} {keys : List String}, s.requests[i]? = some r →
      (r.stage.exposed = true ∨ r.stage = .confirming ∧ s.closed = false) → r.slot = none → r.id = some id →
      r.via = some release'.lifecycle → release'.stage.left = some keys → toString id ∈ keys) :
    Left (s.setRelease j release') where
  closed := h.closed
  scopes := h.scopes
  shutdown := h.shutdown
  release hr hwait hs hid hk hvia := by
    obtain ⟨rfl, rfl⟩ | ⟨-, hk⟩ := (Slots.get_set_iff hj).mp hk
    · exact hleft hr hwait hs hid hvia
    · exact h.release hr hwait hs hid hk hvia

theorem close {l : Nat} (h : Left s) : Left { s with releases := s.releases ++ [{ lifecycle := l }] } where
  closed := h.closed
  scopes := h.scopes
  shutdown := h.shutdown
  release hr hwait hs hid hj hvia hleft := by
    obtain hj | ⟨-, rfl⟩ := Slots.get_concat_iff.mp hj
    · exact h.release hr hwait hs hid hj hvia hleft
    · cases hleft

theorem expects_of_wait {stage : Stage} {closed : Bool}
    (h : stage.exposed = true ∨ stage = .confirming ∧ closed = false) : stage.expects = true := by
  obtain h | ⟨rfl, -⟩ := h
  · exact Stage.expects_of_exposed h
  · rfl

theorem find {j : Nat} {release : Release} {life : SessionLifecycle} {keys : List String} (h : Left s)
    (hF : Fences s) (hj : s.releases[j]? = some release) (hl : s.lifecycles[release.lifecycle]? = some life)
    (all : ∀ key, s.pendingSessions.get? key = some life.sid → key ∈ keys) :
    Left (s.setRelease j { release with stage := .draining keys }) := by
  refine h.setRelease hj fun {i id r keys'} hr hwait hs hid hvia hleft => ?_
  obtain rfl := Option.some.inj hleft
  obtain ⟨life', hl', haccess⟩ := hF.via hr hvia
  obtain rfl := Option.some.inj (hl.symm.trans hl')
  cases hclear : s.shutdown.clears with
  | false => exact all _ (h.scopes hr (expects_of_wait hwait) hs hid haccess hclear)
  | true =>
    -- behind the disconnect, no request is left without a reply
    have hclosed : s.closed ≠ false := fun hopen => by rw [h.closed.mp hopen] at hclear; cases hclear
    have hleft : s.shutdown.left = some [] := by
      cases hshut : s.shutdown <;> rw [hshut] at hclear <;> first | rfl | cases hclear
    obtain hwait | ⟨-, hopen⟩ := hwait
    · exact absurd (h.shutdown hr hwait hs hid hleft) List.not_mem_nil
    · exact absurd hopen hclosed

theorem resolve {j : Nat} {release : Release} {key : String} {keys : List String} (h : Left s) (hE : Entries s)
    (hj : s.releases[j]? = some release) (hstage : release.stage = .draining (key :: keys)) (reply : Reply) :
    Left (({ s with pendingSessions := s.pendingSessions.erase key }.answer key reply).setRelease j
      { release with stage := .draining keys }) := by
  have hanswer := h.answer hE key reply
  have herase : Left { s.answer key reply with pendingSessions := s.pendingSessions.erase key } :=
    { hanswer with
      scopes := fun hr hwait hs hid haccess hclear => by
        have hne := hE.answered hr hid (Stage.listed_of_expects hwait) hs
        have hold := hanswer.scopes hr hwait hs hid haccess hclear
        rw [answer_pendingSessions] at hold
        exact (KeyMap.get?_erase_ne hne).trans hold }
  rw [answer_erase]
  refine herase.setRelease (by simpa using hj) fun {i id r keys'} hr hwait hs hid hvia hleft => ?_
  obtain rfl := Option.some.inj hleft
  have hj' : (s.answer key reply).releases[j]? = some release := by rw [answer_releases]; exact hj
  have hmem := herase.release hr hwait hs hid hj' hvia (by rw [hstage]; rfl)
  exact (List.mem_cons.mp hmem).resolve_left (hE.answered hr hid (Stage.listed_of_expects (expects_of_wait hwait)) hs)

end Left

/-! ## The steps -/

/-- What holds in every state of a run. -/
structure Inv (s : ClientState) : Prop where
  entries : Entries s
  fences : Fences s
  left : Left s

variable {s s' : ClientState} {i : Nat} {r r' : Request}

/-- A request goes on without a change of the maps. -/
theorem Inv.put (h : Inv s) (hr : s.requests[i]? = some r) (hid : r'.id = r.id) (haccess : r'.access = r.access)
    (hvia : r'.via = r.via) (hslot : r'.slot = r.slot) (hstage : r'.stage ≠ .scoping)
    (hlisted : r'.stage.listed = r.stage.listed) (hscoped : r.stage.scoped = true → r'.stage.scoped = true)
    (hearly : r'.stage.early = true → r.stage.early = true)
    (hexposed : r'.stage.exposed = true → r.stage.exposed = true ∨ r.stage = .confirming ∧ s.closed = false)
    (hconfirming : r'.stage ≠ .confirming) : Inv (s.put i r') where
  entries := h.entries.put r' hr hid haccess hslot hlisted (fun _ => hscoped) hearly
  fences := h.fences.put r' hr haccess hvia hstage rfl rfl rfl rfl
  left := by
    refine h.left.put r' hr (fun hexpects hs => ?_) rfl rfl rfl rfl (fun _ _ _ hs => hs)
    have hold := hexposed (Stage.exposed_of_expects hexpects hconfirming)
    exact ⟨hid, haccess, hvia, hslot.symm.trans hs, Left.expects_of_wait hold, hexposed,
      fun hc => absurd hc hconfirming⟩

/-- Steps outside of the requests and the maps. -/
theorem Inv.outside (h : Inv s) (hF : Fences s') (hL : Left s') (hrequests : s'.requests = s.requests)
    (hnext : s'.nextId = s.nextId) (hpending : s'.pending = s.pending)
    (hscopes : ∀ {key sid}, s'.pendingSessions.get? key = some sid → s.pendingSessions.get? key = some sid) :
    Inv s' := ⟨h.entries.outside hrequests hnext hpending hscopes, hF, hL⟩

theorem gate_ok {sid : String} {l : Nat} (h : s.gate sid = .ok l) :
    s.sessions.get? sid = some l ∧ (s.lifecycles[l]?).map (·.phase) = some .opened := by
  unfold gate at h
  split at h
  · cases h
  · next hl =>
    split at h
    · cases h
    split at h
    · cases h
    · next hphase =>
      obtain rfl := Except.ok.inj h
      exact ⟨hl, Decidable.of_not_not hphase⟩

/-- The sender of a request goes into `pending`, inside of the lock of its session. -/
theorem Inv.lock {id l : Nat} {sid : String} (h : Inv s) (hr : s.requests[i]? = some r)
    (hstage : r.stage = .registering) (hid : r.id = some id) (haccess : r.access.sid = some sid)
    (hgate : s.gate sid = .ok l) :
    Inv { s.put i { r with stage := .scoping, via := some l } with
      pending := s.pending.insert (toString id) i } where
  entries := h.entries.registered hr hstage hid rfl rfl rfl rfl
  fences := by
    obtain ⟨htracked, hopen⟩ := gate_ok hgate
    obtain ⟨life, hl, rfl⟩ := h.fences.tracked htracked
    rw [hl] at hopen
    refine h.fences.inside rfl rfl rfl ?_ ?_
    · intro j q hq hscoping
      obtain ⟨rfl, rfl⟩ | ⟨-, hq⟩ := (get_put hr).mp hq
      · exact ⟨l, life, rfl, hl, Option.some.inj hopen⟩
      · exact h.fences.locked hq hscoping
    · intro j m q hq hm
      obtain ⟨rfl, rfl⟩ | ⟨-, hq⟩ := (get_put hr).mp hq
      · obtain rfl := Option.some.inj hm
        exact ⟨life, hl, haccess⟩
      · exact h.fences.via hq hm
  left := h.left.put { r with stage := .scoping, via := some l } hr (fun hexpects => by cases hexpects)
    rfl rfl rfl rfl (fun _ _ _ hs => hs)

/-- The same without a session. -/
theorem Inv.register {id : Nat} (h : Inv s) (hr : s.requests[i]? = some r) (hstage : r.stage = .registering)
    (hid : r.id = some id) (haccess : r.access.sid = none) :
    Inv { s.put i { r with stage := .confirming } with pending := s.pending.insert (toString id) i } where
  entries := h.entries.registered hr hstage hid rfl rfl rfl rfl
  fences := h.fences.put { r with stage := .confirming } hr rfl rfl nofun rfl rfl rfl rfl
  left := by
    refine h.left.entered { r with stage := .confirming } hr rfl rfl rfl rfl rfl (fun _ _ _ hs => hs) ?_ ?_
    · intro id sid _ hsid
      exact absurd (haccess.symm.trans hsid) nofun
    · intro j release _ hvia
      obtain ⟨life, -, hsid⟩ := h.fences.via (r := r) hr hvia
      exact absurd (haccess.symm.trans hsid) nofun

/-- The session of a request goes into `pending_sessions`: the session is not released as long as it is locked. -/
theorem Inv.scope {id : Nat} {sid : String} (h : Inv s) (hr : s.requests[i]? = some r) (hstage : r.stage = .scoping)
    (hid : r.id = some id) (haccess : r.access.sid = some sid) :
    Inv { s.put i { r with stage := .confirming } with
      pendingSessions := s.pendingSessions.insert (toString id) sid } where
  entries := h.entries.scope hr hstage hid haccess
  fences := h.fences.put { r with stage := .confirming } hr rfl rfl nofun rfl rfl rfl rfl
  left := by
    refine h.left.entered { r with stage := .confirming } hr rfl rfl rfl rfl rfl ?_ ?_ ?_
    · intro j id' q sid' hq hj hqid hs
      exact (KeyMap.get?_insert_ne (h.entries.key_ne hr hid hq hqid hj)).trans hs
    · intro id' sid' hid' hsid
      obtain rfl := Option.some.inj (hid.symm.trans hid')
      obtain rfl := Option.some.inj (haccess.symm.trans hsid)
      exact KeyMap.get?_insert_self
    · intro j release hj hvia
      obtain ⟨l, life, hvia', hl, hopen⟩ := h.fences.locked hr hstage
      obtain rfl := Option.some.inj (hvia'.symm.trans hvia)
      by_cases hre : release.stage = .reopened
      · rw [hre]; rfl
      · exact absurd hopen (h.fences.shut hj hre hl).1

/-- The guard of a request: both removals. -/
theorem Inv.unpend {id : Nat} {result : Option Reply} (h : Inv s) (hr : s.requests[i]? = some r)
    (hid : r.id = some id) :
    Inv { s.put i { r with stage := .unscoping result } with pending := s.pending.erase (toString id) } where
  entries := h.entries.taken hr hid rfl rfl rfl (fun _ => rfl) (.inl rfl)
  fences := h.fences.put { r with stage := .unscoping result } hr rfl rfl nofun rfl rfl rfl rfl
  left := h.left.put { r with stage := .unscoping result } hr (fun hexpects => by cases hexpects)
    rfl rfl rfl rfl (fun _ _ _ hs => hs)

theorem Inv.unscope {id : Nat} {result : Option Reply} (h : Inv s) (hr : s.requests[i]? = some r)
    (hstage : r.stage = .unscoping result) (hid : r.id = some id) :
    Inv { s.put i { r with stage := .ended result } with
      pendingSessions := s.pendingSessions.erase (toString id) } where
  entries := h.entries.unscope hr hstage hid
  fences := h.fences.put { r with stage := .ended result } hr rfl rfl nofun rfl rfl rfl rfl
  left := by
    refine h.left.put { r with stage := .ended result } hr (fun hexpects => by cases hexpects)
      rfl rfl rfl rfl ?_
    intro j id' q sid hq hexpects hqid hs
    obtain ⟨rfl, rfl⟩ | ⟨hj, hq⟩ := (get_put hr).mp hq
    · cases hexpects
    · exact (KeyMap.get?_erase_ne (h.entries.key_ne hr hid hq hqid hj)).trans hs

theorem Inv.number {stage : Stage} (h : Inv s) (hr : s.requests[i]? = some r) (hstage : r.stage = .numbering)
    (hlisted : stage.listed = false) (hscoped : stage.scoped = false) :
    Inv { s.put i { r with stage, id := some s.nextId } with nextId := s.nextId + 1 } where
  entries := h.entries.number hr hstage rfl rfl hlisted hscoped
  fences := h.fences.put { r with stage, id := some s.nextId } hr rfl rfl
    (fun hs => by rw [show stage = .scoping from hs] at hlisted; cases hlisted) rfl rfl rfl rfl
  left := h.left.put { r with stage, id := some s.nextId } hr
    (fun hexpects => by rw [Stage.listed_of_expects hexpects] at hlisted; cases hlisted) rfl rfl rfl rfl
    (fun _ _ _ hs => hs)

theorem Inv.answer (h : Inv s) (key : String) (reply : Reply) : Inv (s.answer key reply) :=
  ⟨h.entries.answer key reply, h.fences.answer h.entries key reply, h.left.answer h.entries key reply⟩

/-- A lifecycle changes. -/
theorem Inv.setLifecycle {l : Nat} {life : SessionLifecycle} (h : Inv s) (life' : SessionLifecycle)
    (hl : s.lifecycles[l]? = some life) (hsid : life'.sid = life.sid)
    (hphase : life'.phase = life.phase ∨ s.Free l ∧ ∀ {j : Nat} {release : Release}, s.releases[j]? = some release →
      release.lifecycle = l → release.stage ≠ .reopened → life'.phase ≠ .opened ∧ life'.phase ≠ .preparing) :
    Inv (s.setLifecycle l life') :=
  h.outside (h.fences.setLifecycle life' hl hsid hphase) (h.left.outside rfl rfl rfl rfl rfl) rfl rfl rfl fun hs => hs

/-- The disconnect goes on. -/
theorem Inv.setShutdown {shutdown : Shutdown} (h : Inv s) (hleft : Left { s with shutdown }) :
    Inv { s with shutdown } :=
  h.outside { h.fences with } hleft rfl rfl rfl fun hs => hs

/-- A close goes on, outside of its look for requests. -/
theorem Inv.setRelease {j : Nat} {release : Release} (h : Inv s) (release' : Release)
    (hj : s.releases[j]? = some release) (hlifecycle : release'.lifecycle = release.lifecycle) (hstage : release.stage ≠ .reopened)
    (hleft : ∀ {i id : Nat} {r : Request} {keys : List String}, s.requests[i]? = some r →
      (r.stage.exposed = true ∨ r.stage = .confirming ∧ s.closed = false) → r.slot = none → r.id = some id →
      r.via = some release'.lifecycle → release'.stage.left = some keys → toString id ∈ keys) :
    Inv (s.setRelease j release') :=
  h.outside (h.fences.setRelease release' hj hlifecycle hstage) (h.left.setRelease hj hleft) rfl rfl rfl fun hs => hs

/-- One step. -/
theorem Inv.step {label : Option JSONRPCResponse} (h : Inv s) (hstep : Step s label s') : Inv s' := by
  cases hstep with
  | call method access reads =>
    refine ⟨h.entries.called _ rfl rfl rfl, ?_, h.left.called _ rfl⟩
    refine h.fences.inside rfl rfl rfl ?_ ?_
    · intro j q hq hstage
      obtain hq | ⟨-, rfl⟩ := Slots.get_concat_iff.mp hq
      · exact h.fences.locked hq hstage
      · cases hstage
    · intro j l q hq hl
      obtain hq | ⟨-, rfl⟩ := Slots.get_concat_iff.mp hq
      · exact h.fences.via hq hl
      · cases hl
  | refused hr stage =>
    exact h.put hr rfl rfl rfl rfl nofun (by rw [stage]; rfl) (by rw [stage]; nofun) nofun nofun nofun
  | passed hr stage =>
    exact h.put hr rfl rfl rfl rfl nofun (by rw [stage]; rfl) (by rw [stage]; nofun) (by rw [stage]; exact id) nofun
      nofun
  | denied hr stage =>
    exact h.put hr rfl rfl rfl rfl nofun (by rw [stage]; rfl) (by rw [stage]; nofun) nofun nofun nofun
  | allowed hr stage =>
    exact h.put hr rfl rfl rfl rfl nofun (by rw [stage]; rfl) (by rw [stage]; nofun) (by rw [stage]; exact id) nofun
      nofun
  | unserializable hr stage => exact h.number hr stage rfl rfl
  | number hr stage => exact h.number hr stage rfl rfl
  | register hr stage hid access => exact h.register hr stage hid access
  | shut hr stage =>
    exact h.put hr rfl rfl rfl rfl nofun (by rw [stage]; rfl) (by rw [stage]; nofun) nofun nofun nofun
  | lock hr stage hid access hgate => exact h.lock hr stage hid access hgate
  | scope hr stage hid access => exact h.scope hr stage hid access
  | overtaken hr stage =>
    exact h.put hr rfl rfl rfl rfl nofun (by rw [stage]; rfl) (fun _ => rfl) nofun nofun nofun
  | confirm hr stage hopen =>
    exact h.put hr rfl rfl rfl rfl nofun (by rw [stage]; rfl) (fun _ => rfl) nofun (fun _ => .inr ⟨stage, hopen⟩)
      nofun
  | watch hr stage =>
    exact h.put hr rfl rfl rfl rfl nofun (by rw [stage]; rfl) (fun _ => rfl) nofun
      (fun _ => .inl (by rw [stage]; rfl)) nofun
  | unwatched hr stage =>
    exact h.put hr rfl rfl rfl rfl nofun (by rw [stage]; rfl) (fun _ => rfl) nofun nofun nofun
  | sent hr stage =>
    exact h.put hr rfl rfl rfl rfl nofun (by rw [stage]; rfl) (fun _ => rfl) nofun
      (fun _ => .inl (by rw [stage]; rfl)) nofun
  | unsent hr stage =>
    exact h.put hr rfl rfl rfl rfl nofun (by rw [stage]; rfl) (fun _ => rfl) nofun nofun nofun
  | replied hr stage =>
    exact h.put hr rfl rfl rfl rfl nofun (by rw [stage]; rfl) (fun _ => rfl) nofun nofun nofun
  | fence hr stage | timeout hr stage | drop hr stage =>
    obtain stage | stage := stage <;>
      exact h.put hr rfl rfl rfl rfl nofun (by rw [stage]; rfl) (fun _ => rfl) nofun nofun nofun
  | settle hr stage =>
    exact h.put hr rfl rfl rfl rfl nofun (by rw [stage]; rfl) (fun _ => rfl) nofun nofun nofun
  | unpend hr stage hid => exact h.unpend hr hid
  | unscope hr stage hid => exact h.unscope hr stage hid
  | respond response => exact h.answer _ _
  | disconnect message hopen =>
    exact h.outside { h.fences with } (h.left.disconnect hopen message) rfl rfl rfl fun hs => hs
  | collect hshut all => exact h.setShutdown (h.left.collect h.entries hshut all)
  | @drain message key keys hshut =>
    exact (h.answer key (.error (.channelClosed message))).setShutdown (h.left.drain h.entries hshut _)
  | drained hshut => exact h.setShutdown (h.left.past _ (by rw [hshut]; rfl) rfl)
  | clear shard hshut =>
    refine h.outside { h.fences with } ?_ rfl rfl rfl fun hs => (KeyMap.get?_filter.mp hs).1
    refine { h.left with scopes := fun _ _ _ _ _ hclear => ?_ }
    rw [show s.shutdown = .clearing from hshut] at hclear
    cases hclear
  | cleared hshut => exact h.setShutdown (h.left.past _ (by rw [hshut]; rfl) rfl)
  | @cancel l lifecycles life hshut hl =>
    have hset := h.setLifecycle { life with released := true } hl rfl (.inl rfl)
    exact hset.setShutdown (hset.left.past (.cancelled l lifecycles) (congrArg Shutdown.left hshut) rfl)
  | @terminate l lifecycles life hshut hl free =>
    have hset := h.setLifecycle { life with phase := .closed } hl rfl
      (.inr ⟨free, fun _ _ _ => ⟨nofun, nofun⟩⟩)
    exact hset.setShutdown (hset.left.past (.sessions lifecycles) (congrArg Shutdown.left hshut) rfl)
  | @track sid =>
    exact h.outside (h.fences.track sid) (h.left.outside rfl rfl rfl rfl rfl) rfl rfl rfl fun hs => hs
  | untrack =>
    refine h.outside { h.fences with tracked := fun hs => ?_ } (h.left.outside rfl rfl rfl rfl rfl) rfl rfl rfl
      fun hs => hs
    exact h.fences.tracked (KeyMap.get?_erase.mp hs).1
  | prepare hl phase free =>
    refine h.setLifecycle _ hl rfl (.inr ⟨free, fun hj hm hne => ?_⟩)
    exact absurd phase (h.fences.shut hj hne (hm ▸ hl)).1
  | prepared accepted hl phase free =>
    refine h.setLifecycle _ hl rfl (.inr ⟨free, fun hj hm hne => ?_⟩)
    exact absurd phase (h.fences.shut hj hne (hm ▸ hl)).2
  | reject hl => exact h.setLifecycle _ hl rfl (.inl rfl)
  | rejected hl phase free =>
    exact h.setLifecycle _ hl rfl (.inr ⟨free, fun _ _ _ => ⟨nofun, nofun⟩⟩)
  | @close l life hl phase free =>
    have hset := h.setLifecycle { life with phase := .closing } hl rfl
      (.inr ⟨free, fun _ _ _ => ⟨nofun, nofun⟩⟩)
    exact hset.outside (h.fences.close hl phase free) hset.left.close rfl rfl rfl fun hs => hs
  | @reopen j release life hj stage hl free =>
    have hne : release.stage ≠ .reopened := by rw [stage]; nofun
    have hset := h.setRelease { release with stage := .reopened } hj rfl hne
      fun _ _ _ _ _ hleft => by cases hleft
    -- no other close of the lifecycle goes on
    refine hset.setLifecycle { life with phase := .opened } hl rfl (.inr ⟨free, fun {k other} hk hm hother => ?_⟩)
    obtain ⟨rfl, rfl⟩ | ⟨hkj, hk⟩ := (Slots.get_set_iff hj).mp hk
    · exact absurd rfl hother
    · exact absurd (h.fences.single hk hj hm hother hne) hkj
  | @failed j release life hj stage hl free =>
    have hset := h.setRelease { release with stage := .failed } hj rfl (by rw [stage]; nofun)
      fun _ _ _ _ _ hleft => by cases hleft
    exact hset.setLifecycle { life with phase := .closed } hl rfl
      (.inr ⟨free, fun _ _ _ => ⟨nofun, nofun⟩⟩)
  | @accepted j release life hj stage hl free =>
    have hset := h.setRelease { release with stage := .cancelling } hj rfl (by rw [stage]; nofun)
      fun _ _ _ _ _ hleft => by cases hleft
    exact hset.setLifecycle { life with phase := .releasing } hl rfl
      (.inr ⟨free, fun _ _ _ => ⟨nofun, nofun⟩⟩)
  | @release j release life hj stage hl =>
    have hset := h.setRelease { release with stage := .collecting } hj rfl (by rw [stage]; nofun)
      fun _ _ _ _ _ hleft => by cases hleft
    exact hset.setLifecycle { life with released := true } hl rfl (.inl rfl)
  | @find j release life keys hj stage hl all =>
    exact h.outside (h.fences.setRelease { release with stage := .draining keys } hj rfl
      (by rw [stage]; nofun)) (h.left.find h.fences hj hl all) rfl rfl rfl fun hs => hs
  | @resolve j release life key keys hj stage hl =>
    have hE : Entries { s with pendingSessions := s.pendingSessions.erase key } :=
      h.entries.outside rfl rfl rfl fun hs => (KeyMap.get?_erase.mp hs).1
    have hF : Fences { s with pendingSessions := s.pendingSessions.erase key } := { h.fences with }
    refine ⟨{ hE.answer key _ with }, ?_, h.left.resolve h.entries hj stage _⟩
    have hj' : ({ s with pendingSessions := s.pendingSessions.erase key }.answer key
        (.error (.sessionClosed life.sid))).releases[j]? = some release := by rw [answer_releases]; exact hj
    exact (hF.answer hE key _).setRelease { release with stage := .draining keys } hj' rfl (by rw [stage]; nofun)
  | @finish j release life hj stage hl free =>
    have hset := h.setRelease { release with stage := .finished } hj rfl (by rw [stage]; nofun)
      fun hr hwait hs hid hvia hleft => h.left.release hr hwait hs hid hj hvia (by rw [stage]; exact hleft)
    exact hset.setLifecycle { life with phase := .closed } hl rfl
      (.inr ⟨free, fun _ _ _ => ⟨nofun, nofun⟩⟩)

/-! ## Replies -/

theorem said_of_read {r : Request} {x : Reply} (h : said (r.read x) = true) :
    r.read x = x ∧ ∀ value, x = .ok value → r.reads value = true := by
  cases x with
  | error failure => exact ⟨rfl, nofun⟩
  | ok value =>
    by_cases hreads : r.reads value = true
    · refine ⟨by simp [Request.read, hreads], fun v hv => ?_⟩
      obtain rfl := Except.ok.inj hv
      exact hreads
    · simp [Request.read, hreads, said] at h

theorem said_of_conclude {s : ClientState} {r : Request} {x : Reply} (h : said (s.conclude r x) = true) :
    s.conclude r x = x := by
  unfold conclude at h ⊢
  split at h
  · split at h
    · cases h
    · next hopen => simp [hopen]
  · rfl

theorem unsaid_of_gate {s : ClientState} {sid : String} {failure : Failure} (h : s.gate sid = .error failure) :
    said (.error failure) = false := by
  unfold gate at h
  split at h
  · cases h; rfl
  · split at h
    · cases h; rfl
    split at h <;> cases h
    rfl

theorem unsaid_of_check {s : ClientState} {access : Access} {failure : Failure}
    (h : s.check access = .error failure) : said (.error failure) = false := by
  unfold check at h
  split at h
  · cases h
  · split at h <;> cases h
    rfl
  · next sid =>
    cases hgate : s.gate sid with
    | ok l => rw [hgate] at h; cases h
    | error failure' =>
      rw [hgate] at h
      cases h
      exact unsaid_of_gate hgate

/-- What a request was told by the daemon was said to it. -/
structure Sourced (labels : List (Option JSONRPCResponse)) (s : ClientState) : Prop where
  slot : ∀ {i : Nat} {r : Request} {x : Reply}, s.requests[i]? = some r → r.slot = some x → said x = true →
    Heard labels r x
  result : ∀ {i : Nat} {r : Request} {x : Reply}, s.requests[i]? = some r → r.stage.result = some x →
    said x = true → Heard labels r x ∧ ∀ value, x = .ok value → r.reads value = true

namespace Sourced

variable {labels : List (Option JSONRPCResponse)}

theorem heard_mono {x : Reply} {label : Option JSONRPCResponse} (h : Heard labels r x) :
    Heard (labels ++ [label]) r x := by
  obtain ⟨id, response, hid, hmem, hrest⟩ := h
  exact ⟨id, response, hid, List.mem_append_left _ hmem, hrest⟩

theorem outside (h : Sourced labels s) (label : Option JSONRPCResponse) (hrequests : s'.requests = s.requests) :
    Sourced (labels ++ [label]) s' where
  slot hr hs hx := heard_mono (h.slot (hrequests ▸ hr) hs hx)
  result hr hs hx :=
    have hold := h.result (hrequests ▸ hr) hs hx
    ⟨heard_mono hold.1, hold.2⟩

/-- A request goes on; what it comes to is known already, or it reads it from its slot. -/
theorem put (h : Sourced labels s) (label : Option JSONRPCResponse) (r' : Request) (hr : s.requests[i]? = some r)
    (hrequests : s'.requests = (s.put i r').requests) (hid : r.slot ≠ none ∨ r.stage.result ≠ none → r'.id = r.id)
    (hreads : r'.reads = r.reads) (hslot : r'.slot = r.slot)
    (hresult : ∀ {x : Reply}, r'.stage.result = some x → said x = true →
      r.stage.result = some x ∨ ∃ y, r.slot = some y ∧ r.read y = x) : Sourced (labels ++ [label]) s' where
  slot {j q x} hq hs hx := by
    obtain ⟨rfl, rfl⟩ | ⟨-, hq⟩ := (get_put hr).mp (hrequests ▸ hq)
    · rw [hslot] at hs
      obtain ⟨id, response, hrid, hrest⟩ := h.slot hr hs hx
      exact heard_mono ⟨id, response, (hid (.inl (by rw [hs]; nofun))).trans hrid, hrest⟩
    · exact heard_mono (h.slot hq hs hx)
  result {j q x} hq hs hx := by
    obtain ⟨rfl, rfl⟩ | ⟨-, hq⟩ := (get_put hr).mp (hrequests ▸ hq)
    · obtain hold | ⟨y, hy, rfl⟩ := hresult hs hx
      · obtain ⟨⟨id, response, hrid, hrest⟩, hv⟩ := h.result hr hold hx
        exact ⟨heard_mono ⟨id, response, (hid (.inr (by rw [hold]; nofun))).trans hrid, hrest⟩, hreads ▸ hv⟩
      · obtain ⟨heq, hv⟩ := said_of_read hx
        rw [heq] at hx ⊢
        obtain ⟨id, response, hrid, hrest⟩ := h.slot hr hy hx
        exact ⟨heard_mono ⟨id, response, (hid (.inl (by rw [hy]; nofun))).trans hrid, hrest⟩, hreads ▸ hv⟩
    · have hold := h.result hq hs hx
      exact ⟨heard_mono hold.1, hold.2⟩

/-- An answer is said by a response with the key, or not by the daemon. -/
theorem answer (h : Sourced labels s) (hE : Entries s) (label : Option JSONRPCResponse) (key : String) (x : Reply)
    (hsaid : said x = true → ∃ response, label = some response ∧ response.id.key = key ∧ reply response = x) :
    Sourced (labels ++ [label]) (s.answer key x) := by
  obtain ⟨-, heq⟩ | ⟨i, id, r, hr, hid, rfl, -, -, heq⟩ := answer_cases hE key x
  · rw [heq]
    exact h.outside label rfl
  rw [heq]
  constructor
  · intro j q y hq hs hy
    obtain ⟨rfl, rfl⟩ | ⟨-, hq⟩ := (get_put hr).mp hq
    · obtain rfl := Option.some.inj hs
      obtain ⟨response, rfl, hkey, hreply⟩ := hsaid hy
      exact ⟨id, response, hid, List.mem_append_right _ List.mem_cons_self, hkey, hreply⟩
    · exact heard_mono (h.slot hq hs hy)
  · intro j q y hq hs hy
    obtain ⟨rfl, rfl⟩ | ⟨-, hq⟩ := (get_put hr).mp hq
    · have hold := h.result hr hs hy
      exact ⟨heard_mono hold.1, hold.2⟩
    · have hold := h.result hq hs hy
      exact ⟨heard_mono hold.1, hold.2⟩

theorem step (h : Sourced labels s) (hI : Inv s) {label : Option JSONRPCResponse} (hstep : Step s label s') :
    Sourced (labels ++ [label]) s' := by
  cases hstep with
  | call method access reads =>
    constructor
    · intro j q x hq hs
      obtain hq | ⟨-, rfl⟩ := Slots.get_concat_iff.mp hq
      · exact fun hx => heard_mono (h.slot hq hs hx)
      · cases hs
    · intro j q x hq hs hx
      obtain hq | ⟨-, rfl⟩ := Slots.get_concat_iff.mp hq
      · have hold := h.result hq hs hx
        exact ⟨heard_mono hold.1, hold.2⟩
      · cases hs
  | refused hr | overtaken hr | unsent hr | fence hr | timeout hr =>
    exact h.put none _ hr rfl (fun _ => rfl) rfl rfl fun hx hsaid => by cases hx; cases hsaid
  | passed hr | allowed hr | lock hr | scope hr | register hr | confirm hr | watch hr | unwatched hr | sent hr
  | drop hr => exact h.put none _ hr rfl (fun _ => rfl) rfl rfl fun hx => by cases hx
  | denied hr stage hcheck =>
    refine h.put none _ hr rfl (fun _ => rfl) rfl rfl fun hx hsaid => ?_
    obtain rfl := Option.some.inj hx
    rw [unsaid_of_check hcheck] at hsaid
    cases hsaid
  | shut hr stage access hgate =>
    refine h.put none _ hr rfl (fun _ => rfl) rfl rfl fun hx hsaid => ?_
    obtain rfl := Option.some.inj hx
    rw [unsaid_of_gate hgate] at hsaid
    cases hsaid
  | unserializable hr stage =>
    refine h.put none _ hr rfl (fun hold => ?_) rfl rfl fun hx hsaid => by cases hx; cases hsaid
    simp [hI.entries.early hr (by rw [stage]; rfl), stage, Stage.result] at hold
  | number hr stage =>
    refine h.put none _ hr rfl (fun hold => ?_) rfl rfl fun hx => by cases hx
    simp [hI.entries.early hr (by rw [stage]; rfl), stage, Stage.result] at hold
  | replied hr stage hslot =>
    refine h.put none _ hr rfl (fun _ => rfl) rfl rfl fun hx _ => .inr ⟨_, hslot, Option.some.inj hx⟩
  | settle hr stage =>
    refine h.put none _ hr rfl (fun _ => rfl) rfl rfl fun hx hsaid => .inl ?_
    obtain rfl := Option.some.inj hx
    rw [said_of_conclude hsaid, stage]
    rfl
  | unpend hr stage | unscope hr stage =>
    exact h.put none _ hr rfl (fun _ => rfl) rfl rfl fun hx _ => .inl (by rw [stage]; exact hx)
  | respond response => exact h.answer hI.entries _ _ _ fun _ => ⟨response, rfl, rfl, rfl⟩
  | @drain message key =>
    have hanswer := h.answer hI.entries none key (.error (.channelClosed message)) nofun
    exact { hanswer with }
  | @resolve j release life key =>
    have hanswer := h.answer hI.entries none key (.error (.sessionClosed life.sid)) nofun
    rw [answer_erase]
    exact { hanswer with }
  | _ => exact h.outside none rfl

end Sourced

/-! ## Whole runs -/

/-- A reply stays, and so does a request that is over. -/
def Lasts (s s' : ClientState) : Prop :=
  ∀ (i : Nat) (r : Request), s.requests[i]? = some r → ∃ r', s'.requests[i]? = some r' ∧
    (∀ x, r.slot = some x → r'.slot = some x) ∧ ∀ o, r.stage = .ended o → r' = r

theorem Lasts.refl (s : ClientState) : Lasts s s := fun _ r hr => ⟨r, hr, fun _ hx => hx, fun _ _ => rfl⟩

theorem Lasts.trans {s t u : ClientState} (h : Lasts s t) (h' : Lasts t u) : Lasts s u := by
  intro i r hr
  obtain ⟨r', hr', hslot, hended⟩ := h i r hr
  obtain ⟨r'', hr'', hslot', hended'⟩ := h' i r' hr'
  refine ⟨r'', hr'', fun x hx => hslot' x (hslot x hx), fun o ho => ?_⟩
  obtain rfl := hended o ho
  exact hended' o ho

theorem Lasts.put (r' : Request) (hr : s.requests[i]? = some r) (hrequests : s'.requests = (s.put i r').requests)
    (hstage : ∀ o, r.stage ≠ .ended o) (hslot : ∀ x, r.slot = some x → r'.slot = some x) : Lasts s s' := by
  intro j q hq
  rw [hrequests]
  by_cases hj : j = i
  · subst hj
    obtain rfl := Option.some.inj (hr.symm.trans hq)
    exact ⟨r', (get_put hr).mpr (.inl ⟨rfl, rfl⟩), hslot, fun o ho => absurd ho (hstage o)⟩
  · exact ⟨q, (get_put hr).mpr (.inr ⟨hj, hq⟩), fun _ hx => hx, fun _ _ => rfl⟩

theorem Lasts.answer (hE : Entries s) (key : String) (x : Reply) : Lasts s (s.answer key x) := by
  obtain ⟨-, heq⟩ | ⟨i, id, r, hr, -, -, hlisted, hslot, heq⟩ := answer_cases hE key x
  · rw [heq]
    exact .refl s
  · rw [heq]
    refine Lasts.put { r with slot := some x } hr rfl (fun o ho => ?_) fun y hy => ?_
    · rw [ho] at hlisted; cases hlisted
    · rw [hslot] at hy; cases hy

theorem Step.lasts {label : Option JSONRPCResponse} (hI : Inv s) (hstep : Step s label s') : Lasts s s' := by
  cases hstep with
  | call =>
    intro j q hq
    exact ⟨q, Slots.get_concat_iff.mpr (.inl hq), fun _ hx => hx, fun _ _ => rfl⟩
  | refused hr stage | passed hr stage | denied hr stage | allowed hr stage | unserializable hr stage
  | number hr stage | register hr stage | shut hr stage | lock hr stage | scope hr stage | overtaken hr stage
  | confirm hr stage | watch hr stage | unwatched hr stage | sent hr stage | unsent hr stage | replied hr stage
  | settle hr stage | unpend hr stage | unscope hr stage =>
    exact .put _ hr rfl (by rw [stage]; nofun) fun _ hx => hx
  | fence hr stage | timeout hr stage | drop hr stage =>
    obtain stage | stage := stage <;> exact .put _ hr rfl (by rw [stage]; nofun) fun _ hx => hx
  | respond response => exact .answer hI.entries _ _
  | @drain message key => exact Lasts.answer hI.entries key _
  | @resolve j release life key =>
    rw [answer_erase]
    exact Lasts.answer hI.entries key _
  | _ => exact .refl s

/-- What holds of the requests after the responses of a run. -/
structure Meets (labels : List (Option JSONRPCResponse)) (s : ClientState) : Prop where
  /-- Two requests have not the same number. -/
  distinct : ∀ {i j id : Nat} {r q : Request}, s.requests[i]? = some r → s.requests[j]? = some q →
    r.id = some id → q.id = some id → i = j
  /-- A value that was returned came with the number of the request, and is of its type. -/
  value : ∀ {i : Nat} {r : Request} {value : Value}, s.requests[i]? = some r → r.stage = .ended (some (.ok value)) →
    Heard labels r (.ok value) ∧ r.reads value = true
  /-- So did an error of the daemon. -/
  remote : ∀ {i : Nat} {r : Request} {error : Rpc.JSONRPCError}, s.requests[i]? = some r →
    r.stage = .ended (some (.error (.remote error))) → Heard labels r (.error (.remote error))
  /-- The entries are of requests that are not over. -/
  pending : ∀ {key : String} {i : Nat}, s.pending.get? key = some i →
    ∃ r, s.requests[i]? = some r ∧ ∀ o, r.stage ≠ .ended o
  pendingSessions : ∀ {key sid : String}, s.pendingSessions.get? key = some sid →
    ∃ (i : Nat) (r : Request), s.requests[i]? = some r ∧ r.access.sid = some sid ∧ ∀ o, r.stage ≠ .ended o
  /-- The response of a request that waits comes to it, and to no other. -/
  delivered : ∀ {i id : Nat} {r : Request} {response : JSONRPCResponse}, s.requests[i]? = some r →
    r.stage.exposed = true → r.slot = none → r.id = some id → response.id.key = toString id →
    (s.answer response.id.key (reply response)).requests = s.requests.set i { r with slot := some (reply response) }
  /-- Behind a disconnect, every request that waits has its reply. -/
  disconnected : ∀ {i : Nat} {r : Request}, s.shutdown.left = some [] → s.requests[i]? = some r →
    r.stage.exposed = true → r.slot ≠ none
  /-- Behind the close of its session, too. -/
  released : ∀ {i j : Nat} {r : Request} {release : Release}, s.releases[j]? = some release →
    release.stage.left = some [] → s.requests[i]? = some r → r.via = some release.lifecycle →
    r.stage.exposed = true → r.slot ≠ none

theorem Inv.meets {labels : List (Option JSONRPCResponse)} (h : Inv s) (hS : Sourced labels s) : Meets labels s where
  distinct := h.entries.distinct
  value hr hstage := by
    have hheard := hS.result hr (by rw [hstage]; rfl) rfl
    exact ⟨hheard.1, hheard.2 _ rfl⟩
  remote hr hstage := (hS.result hr (by rw [hstage]; rfl) rfl).1
  pending hp := by
    obtain ⟨r, id, hr, -, -, hlisted, -⟩ := h.entries.pending hp
    exact ⟨r, hr, fun o ho => by rw [ho] at hlisted; cases hlisted⟩
  pendingSessions hs := by
    obtain ⟨i, r, id, hr, -, -, hscoped, haccess⟩ := h.entries.scopes hs
    exact ⟨i, r, hr, haccess, fun o ho => by rw [ho] at hscoped; cases hscoped⟩
  delivered hr hwait hs hid hkey := by
    have hp := h.entries.listed hr hid (Stage.listed_of_expects (Stage.expects_of_exposed hwait)) hs
    rw [hkey, answer_some hp hr]
    rfl
  disconnected hleft hr hwait hs := by
    obtain ⟨id, hid⟩ := h.entries.numbered hr (Stage.listed_of_expects (Stage.expects_of_exposed hwait))
    exact List.not_mem_nil (h.left.shutdown hr hwait hs hid hleft)
  released hj hleft hr hvia hwait hs := by
    obtain ⟨id, hid⟩ := h.entries.numbered hr (Stage.listed_of_expects (Stage.expects_of_exposed hwait))
    exact List.not_mem_nil (h.left.release hr (.inl hwait) hs hid hj hvia hleft)

theorem inv_start : Inv {} where
  entries := ⟨nofun, nofun, nofun, nofun, nofun, nofun, nofun⟩
  fences := ⟨nofun, nofun, nofun, nofun, nofun, nofun⟩
  left := ⟨⟨fun _ => rfl, fun _ => rfl⟩, nofun, nofun, nofun⟩

/-- Every request gets its own reply or none, and it does not wait for one in vain: in every run of requests,
responses, closes of sessions and a disconnect. -/
theorem own_reply {labels labels' : List (Option JSONRPCResponse)} (run : Lts.Run Step {} labels s)
    (run' : Lts.Run Step s labels' s') : Meets labels s ∧ Lasts s s' := by
  have hinv := run.traced (fun labels s => Inv s ∧ Sourced labels s)
    (fun _ _ _ _ h hs => ⟨h.1.step hs, h.2.step h.1 hs⟩) ⟨inv_start, nofun, nofun⟩
  refine ⟨hinv.1.meets hinv.2, ?_⟩
  exact run'.rel Inv Lasts (fun _ _ _ h hs => h.step hs) Lasts.refl (fun _ _ _ h h' => h.trans h')
    (fun _ _ _ h hs => hs.lasts h) hinv.1

/-- A request with its response. -/
theorem own_reply_sample : ∃ labels s, Lts.Run Step {} labels s ∧ Meets labels s ∧
    ∃ r, s.requests[0]? = some r ∧ r.stage = .ended (some (.ok (.bool true))) := by
  let response : JSONRPCResponse := .success (.string "1") (.bool true)
  let r : Request := { method := "m", access := .unscoped, reads := fun _ => true, id := some 1 }
  have hsending := ((((((Lts.Run.single (Step.call (s := {}) "m" .unscoped fun _ => true)).snoc
    (Step.passed (i := 0) rfl rfl rfl)).snoc (Step.allowed (i := 0) rfl rfl rfl)).snoc
    (Step.number (i := 0) rfl rfl)).snoc (Step.register (i := 0) rfl rfl rfl rfl)).snoc
    (Step.confirm (i := 0) rfl rfl rfl)).snoc (Step.watch (i := 0) rfl rfl nofun)
  have hwaiting := hsending.snoc (Step.sent (i := 0) rfl rfl)
  obtain ⟨s, hs, hr⟩ : ∃ s, Lts.Run Step {} _ s ∧ s.requests[0]? =
      some { r with stage := .waiting, slot := some (.ok (.bool true)) } :=
    ⟨_, hwaiting.snoc (Step.respond response), rfl⟩
  have hreplied := hs.snoc (Step.replied hr rfl rfl)
  have h1 := put_get { r with stage := .settled (.ok (.bool true)), slot := some (.ok (.bool true)) } hr
  have hsettled := hreplied.snoc (Step.settle h1 rfl)
  have h2 := put_get { r with stage := .unpending (some (.ok (.bool true))), slot := some (.ok (.bool true)) } h1
  have hunpended := hsettled.snoc (Step.unpend h2 rfl rfl)
  have h3 := put_get { r with stage := .unscoping (some (.ok (.bool true))), slot := some (.ok (.bool true)) } h2
  have hended := hunpended.snoc (Step.unscope h3 rfl rfl)
  exact ⟨_, _, hended, (own_reply hended (.nil _)).1, _, put_get _ h3, rfl⟩

end ClientState

end Whale
