import Whale.Store.Proof.Partition

/-!
# The tool ledger is exactly-once

Three facts about the calls of every record that journal commands, attachments and recoveries reach
from a created one. A dispatch intent is recorded once, for a call without an outcome whose model
step is completed, and neither it nor the outcome changes afterwards. The calls of a terminal run are
answered: the history holds one item with the call's result id, after the call's own item, and it is
the recorded outcome (`Answered`). The unknown executions are those of the calls that were dispatched
and had no outcome when their run became terminal (`Interrupted`), one for each.
-/

namespace Whale

open Check

/-! ## Calls and their results in the history -/

/-- The call's item is in the history, the first with its call id; when the call is committed its
outcome follows. -/
def Placed (history : List CanonicalItem) (c : StoredCall) : Prop :=
  ∃ pre item post, history = pre ++ item :: post ∧ c.isItem item = true ∧
    (∀ i ∈ pre, i.callId? ≠ some c.callId) ∧
    (c.committed = true → ∃ o ∈ post, c.outcome = some o)

theorem Placed.mono {history history' : List CanonicalItem} {c : StoredCall}
    (h : Placed history c) (hpre : history <+: history') : Placed history' c := by
  obtain ⟨pre, item, post, rfl, hi, hf, hc⟩ := h
  obtain ⟨ext, rfl⟩ := hpre
  refine ⟨pre, item, post ++ ext, by simp, hi, hf, fun hcm => ?_⟩
  obtain ⟨o, ho, hco⟩ := hc hcm
  exact ⟨o, List.mem_append_left _ ho, hco⟩

theorem CallKept.isItem {c d : StoredCall} (h : CallKept c d) (i : CanonicalItem) :
    d.isItem i = c.isItem i := by
  cases i <;> simp only [StoredCall.isItem, h.callId, h.toolName]

/-- Recording results after the call's item commits it. -/
theorem Placed.commit {history results : List CanonicalItem} {c d : StoredCall}
    (h : Placed history c) (hk : CallKept c d)
    (hr : c.committed = false → ∃ o ∈ results, d.outcome = some o) :
    Placed (history ++ results) d := by
  obtain ⟨pre, item, post, rfl, hi, hf, hc⟩ := h
  refine ⟨pre, item, post ++ results, by simp, hk.isItem item ▸ hi, ?_, fun _ => ?_⟩
  · rw [hk.callId]; exact hf
  · cases hcm : c.committed with
    | true =>
      obtain ⟨o, ho, hco⟩ := hc hcm
      exact ⟨o, List.mem_append_left _ ho, hk.outcome o hco⟩
    | false =>
      obtain ⟨o, ho, hdo⟩ := hr hcm
      exact ⟨o, List.mem_append_right _ ho, hdo⟩

/-- A change of the call's intent or outcome leaves its place. -/
theorem Placed.update {history : List CanonicalItem} {c d : StoredCall} (h : Placed history c)
    (hk : CallKept c d) (hcm : d.committed = c.committed) : Placed history d := by
  obtain ⟨pre, item, post, hh, hi, hf, hc⟩ := h
  refine ⟨pre, item, post, hh, hk.isItem item ▸ hi, by rw [hk.callId]; exact hf, fun hd => ?_⟩
  obtain ⟨o, ho, hco⟩ := hc (hcm ▸ hd)
  exact ⟨o, ho, hk.outcome o hco⟩

namespace Ledger

/-- Every call has its place, and a terminal run has committed its calls. -/
structure Placed (l : Ledger) : Prop where
  calls : ∀ turn run, l.runs.get? turn = some run → ∀ c ∈ run.calls, Whale.Placed l.history c
  terminal : ∀ turn run, l.runs.get? turn = some run → run.snapshot.status.isTerminal = true →
    ∀ c ∈ run.calls, c.committed = true

theorem Placed.insert {l : Ledger} {turn : String} {run' : StoredRun}
    {history : List CanonicalItem} {unknown : List UnknownExecution} (h : l.Placed)
    (hpre : l.history <+: history) (hcalls : ∀ c ∈ run'.calls, Whale.Placed history c)
    (hterm : run'.snapshot.status.isTerminal = true → ∀ c ∈ run'.calls, c.committed = true) :
    Placed ⟨history, l.runs.insert turn run', unknown⟩ := by
  refine ⟨fun t run ht c hc => ?_, fun t run ht => ?_⟩ <;> rw [OrdMap.get?_insert] at ht <;>
    split at ht
  · cases ht; exact hcalls c hc
  · exact (h.calls t run ht c hc).mono hpre
  · cases ht; exact hterm
  · exact h.terminal t run ht

theorem RunEdit.placed {revision : Nat} {history history' : List CanonicalItem}
    {run run' : StoredRun} {fresh : FreshIds} {op : RunMutation}
    (h : RunEdit revision history run fresh op run' history')
    (hp : ∀ c ∈ run.calls, Whale.Placed history c) : ∀ c ∈ run'.calls, Whale.Placed history' c := by
  have hold : ∀ c ∈ run.calls, Whale.Placed history' c :=
    fun c hc => (hp c hc).mono h.frame.history
  cases h with
  | input => exact hold
  | item => exact hold
  | finished => exact hold
  | call last running absent named first =>
    intro c hc
    rcases List.mem_append.1 hc with hc | hc
    · exact hold c hc
    · rw [List.mem_singleton.1 hc]
      exact ⟨history, _, [], rfl, by simp [newCall, StoredCall.isItem], first,
        fun hcm => (nomatch hcm)⟩
  | intent split first same once open_ finished =>
    intro x hx
    rw [split] at hold
    simp only [List.mem_append, List.mem_cons] at hx hold
    rcases hx with hx | rfl | hx
    · exact hold x (.inl hx)
    · refine (hold _ (.inr (.inl rfl))).update ?_ rfl
      exact ⟨rfl, rfl, rfl, rfl, rfl, fun e he => by simp [once] at he, fun _ h => h, fun h => h⟩
    · exact hold x (.inr (.inr hx))
  | outcome split first finished same =>
    intro x hx
    rw [split] at hold
    simp only [List.mem_append, List.mem_cons] at hx hold
    rcases hx with hx | rfl | hx
    · exact hold x (.inl hx)
    · refine (hold _ (.inr (.inl rfl))).update ?_ rfl
      exact ⟨rfl, rfl, rfl, rfl, rfl, fun _ h => h, fun o ho => by rw [same o ho], fun h => h⟩
    · exact hold x (.inr (.inr hx))
  | batch complete =>
    intro x hx
    obtain ⟨c, hc, rfl⟩ := List.mem_map.1 hx
    refine (hp c hc).commit ⟨rfl, rfl, rfl, rfl, rfl, fun _ h => h, fun _ h => h, fun _ => rfl⟩
      fun hcm => ?_
    obtain ⟨o, ho⟩ := Option.isSome_iff_exists.1 (complete c hc hcm)
    exact ⟨o, List.mem_filterMap.2 ⟨c, by simp [hc, hcm], ho⟩, ho⟩

theorem Settle.placed {l l' : Ledger} {turn : String} (h : Settle l turn l') (hp : l.Placed) :
    l'.Placed := by
  cases h with
  | @mk run candidate usage found active thread same terminal fits =>
    refine hp.insert (List.prefix_append _ _) (fun x hx => ?_) fun _ x hx => ?_
    · obtain ⟨c, hc, rfl⟩ := List.mem_map.1 hx
      refine (hp.calls _ _ found c hc).commit (settle_kept c) fun hcm => ?_
      exact ⟨c.settledOutcome, List.mem_map.2 ⟨c, by simp [hc, hcm], rfl⟩, rfl⟩
    · obtain ⟨c, -, rfl⟩ := List.mem_map.1 hx
      rfl

theorem Change.placed {revision : Nat} {l l' : Ledger} {e : Label} (h : Change revision l e l')
    (hp : l.Placed) : l'.Placed := by
  cases h with
  | accept absent idle resolved thread turn active result distinct =>
    exact hp.insert (List.prefix_append _ _) (fun c hc => (nomatch hc)) fun _ c hc => (nomatch hc)
  | @update turn fresh op run run' history found active edit =>
    have hcalls : ∀ c ∈ run'.calls, Whale.Placed history c :=
      RunEdit.placed edit (hp.calls turn run found)
    refine hp.insert edit.frame.history hcalls fun ht => ?_
    have ht : run'.snapshot.status.isTerminal = true := ht
    rw [edit.frame.snapshot, active] at ht
    cases ht
  | settle settles => exact settles.invariant Placed (fun _ _ _ hl hs => hs.placed hl) hp
  | acknowledge => exact ⟨hp.calls, hp.terminal⟩

/-! ## Dispatch intents -/

/-- Every intent of `l'` was in `l`, or is recorded for a call without intent and outcome whose model
step is completed. -/
def IntentsGuarded (l l' : Ledger) : Prop :=
  ∀ turn run' d e, l'.runs.get? turn = some run' → d ∈ run'.calls → d.intent = some e →
    ∃ run c, l.runs.get? turn = some run ∧ c ∈ run.calls ∧ CallKept c d ∧
      (c.intent = some e ∨ (c.intent = none ∧ c.outcome = none ∧ run.stepCompleted c.stepId = true))

theorem IntentsGuarded.refl (l : Ledger) : IntentsGuarded l l :=
  fun _ run c _ ht hc he => ⟨run, c, ht, hc, .refl c, .inl he⟩

theorem IntentsGuarded.insert {l : Ledger} {turn : String} {run run' : StoredRun}
    {history : List CanonicalItem} {unknown : List UnknownExecution}
    (found : l.runs.get? turn = some run)
    (h : ∀ d ∈ run'.calls, ∀ e, d.intent = some e → ∃ c ∈ run.calls, CallKept c d ∧
      (c.intent = some e ∨ (c.intent = none ∧ c.outcome = none ∧
        run.stepCompleted c.stepId = true))) :
    IntentsGuarded l ⟨history, l.runs.insert turn run', unknown⟩ := by
  intro t x d e ht hd he
  simp only [OrdMap.get?_insert] at ht
  split at ht
  · rename_i heq
    cases ht
    obtain ⟨c, hc, hk⟩ := h d hd e he
    exact ⟨run, c, heq ▸ found, hc, hk⟩
  · exact ⟨x, d, ht, hd, .refl d, .inl he⟩

theorem RunEdit.intents {revision : Nat} {history history' : List CanonicalItem}
    {run run' : StoredRun} {fresh : FreshIds} {op : RunMutation}
    (h : RunEdit revision history run fresh op run' history') :
    ∀ d ∈ run'.calls, ∀ e, d.intent = some e → ∃ c ∈ run.calls, CallKept c d ∧
      (c.intent = some e ∨ (c.intent = none ∧ c.outcome = none ∧
        run.stepCompleted c.stepId = true)) := by
  intro d hd e he
  cases h with
  | input => exact ⟨d, hd, .refl d, .inl he⟩
  | item => exact ⟨d, hd, .refl d, .inl he⟩
  | finished => exact ⟨d, hd, .refl d, .inl he⟩
  | call last running absent named first =>
    rcases List.mem_append.1 hd with hd | hd
    · exact ⟨d, hd, .refl d, .inl he⟩
    · rw [List.mem_singleton.1 hd] at he
      cases he
  | intent split first same once open_ finished =>
    rw [split]
    simp only [List.mem_append, List.mem_cons] at hd ⊢
    rcases hd with hd | rfl | hd
    · exact ⟨d, .inl hd, .refl d, .inl he⟩
    · refine ⟨_, .inr (.inl rfl), ?_, .inr ⟨once, open_, finished⟩⟩
      exact ⟨rfl, rfl, rfl, rfl, rfl, fun e he => by simp [once] at he, fun _ h => h, fun h => h⟩
    · exact ⟨d, .inr (.inr hd), .refl d, .inl he⟩
  | outcome split first finished same =>
    rw [split]
    simp only [List.mem_append, List.mem_cons] at hd ⊢
    rcases hd with hd | rfl | hd
    · exact ⟨d, .inl hd, .refl d, .inl he⟩
    · refine ⟨_, .inr (.inl rfl), ?_, .inl he⟩
      exact ⟨rfl, rfl, rfl, rfl, rfl, fun _ h => h, fun o ho => by rw [same o ho], fun h => h⟩
    · exact ⟨d, .inr (.inr hd), .refl d, .inl he⟩
  | batch complete =>
    obtain ⟨c, hc, rfl⟩ := List.mem_map.1 hd
    exact ⟨c, hc, ⟨rfl, rfl, rfl, rfl, rfl, fun _ h => h, fun _ h => h, fun _ => rfl⟩, .inl he⟩

/-- Settlement records no intent. -/
theorem settles_intents {l l' : Ledger} {turns : List String} (h : Lts.Run Settle l turns l') :
    ∀ turn run' d e, l'.runs.get? turn = some run' → d ∈ run'.calls → d.intent = some e →
      ∃ run c, l.runs.get? turn = some run ∧ c ∈ run.calls ∧ CallKept c d ∧ c.intent = some e := by
  induction h with
  | nil l => exact fun turn run c e ht hc he => ⟨run, c, ht, hc, .refl c, he⟩
  | @cons l l₁ l₂ t ts hs _ ih =>
    intro turn run' d e ht hd he
    obtain ⟨run₁, c₁, ht₁, hc₁, hk₁, he₁⟩ := ih turn run' d e ht hd he
    cases hs with
    | @mk run candidate usage found active thread same terminal fits =>
      simp only [OrdMap.get?_insert] at ht₁
      split at ht₁
      · rename_i heq
        cases ht₁
        obtain ⟨c, hc, rfl⟩ := List.mem_map.1 hc₁
        exact ⟨run, c, heq ▸ found, hc, (settle_kept c).trans hk₁, he₁⟩
      · exact ⟨run₁, c₁, ht₁, hc₁, hk₁, he₁⟩

/-- A step records an intent only for a call that may be dispatched. -/
theorem Change.intents {revision : Nat} {l l' : Ledger} {e : Label} (h : Change revision l e l') :
    IntentsGuarded l l' := by
  cases h with
  | accept absent idle resolved thread turn active result distinct =>
    intro t x d e ht hd he
    simp only [OrdMap.get?_insert] at ht
    split at ht
    · cases ht
      cases hd
    · exact ⟨x, d, ht, hd, .refl d, .inl he⟩
  | @update turn fresh op run run' history found active edit =>
    have hi := RunEdit.intents edit
    exact IntentsGuarded.insert found hi
  | settle settles =>
    intro turn run' d e ht hd he
    obtain ⟨run, c, h1, h2, h3, h4⟩ := settles_intents settles turn run' d e ht hd he
    exact ⟨run, c, h1, h2, h3, .inl h4⟩
  | acknowledge => exact .refl l

/-! ## Unknown executions -/

/-- Between `l` and `l'` the run of `turn` becomes terminal while its call `c` is dispatched and has
no outcome. -/
def Interrupts (l l' : Ledger) (turn : String) (c : StoredCall) : Prop :=
  ∃ run run', l.runs.get? turn = some run ∧ run.snapshot.status.isTerminal = false ∧
    c ∈ run.calls ∧ c.intent.isSome ∧ c.outcome = none ∧
    l'.runs.get? turn = some run' ∧ run'.snapshot.status.isTerminal = true

theorem Grows.terminal {l l' : Ledger} {turn : String} {run : StoredRun} (h : l.Grows l')
    (hr : l.runs.get? turn = some run) (ht : run.snapshot.status.isTerminal = true) :
    l'.runs.get? turn = some run := by
  obtain ⟨new, hn, hg⟩ := h.runs turn run hr
  rw [hn, hg.frozen ht]

theorem unknown?_isSome (turn : String) {c : StoredCall} (hi : c.intent.isSome)
    (ho : c.outcome = none) : ∃ u, c.unknown? turn = some u ∧ u.executionId = c.executionId := by
  obtain ⟨e, he⟩ := Option.isSome_iff_exists.1 hi
  exact ⟨_, by rw [StoredCall.unknown?, ho, he], rfl⟩

/-- The executions settlement makes unknown are those it interrupts. -/
theorem settles_unknown {l l' : Ledger} {turns : List String} (h : Lts.Run Settle l turns l')
    (id : String) : (∃ u ∈ l'.unknown, u.executionId = id) ↔
      (∃ u ∈ l.unknown, u.executionId = id) ∨
        ∃ turn c, Interrupts l l' turn c ∧ c.executionId = id := by
  induction h with
  | nil l =>
    refine ⟨.inl, fun h => h.resolve_right ?_⟩
    rintro ⟨turn, c, ⟨run, run', hr, ha, -, -, -, hr', ht⟩, -⟩
    rw [hr] at hr'
    cases hr'
    rw [ha] at ht
    cases ht
  | @cons l l₁ l₂ t ts hs hrun ih =>
    rw [ih]
    have hterm := hs.terminal
    have hgrow := settles_grow hrun
    have hne : ∀ t', t ≠ t' → l₁.runs.get? t' = l.runs.get? t' := fun t' h => hs.get?_ne h
    -- after the first settlement its run is terminal, so later ones interrupt other runs
    have hlater : (∃ turn c, Interrupts l₁ l₂ turn c ∧ c.executionId = id) ↔
        ∃ turn c, t ≠ turn ∧ Interrupts l l₂ turn c ∧ c.executionId = id := by
      constructor
      · rintro ⟨turn, c, ⟨run, run', hr, ha, hrest⟩, hid⟩
        have hnt : t ≠ turn := fun he => by
          obtain ⟨x, hx, hxt⟩ := hterm
          rw [he, hr] at hx
          cases hx
          rw [ha] at hxt
          cases hxt
        exact ⟨turn, c, hnt, ⟨run, run', (hne turn hnt).symm.trans hr, ha, hrest⟩, hid⟩
      · rintro ⟨turn, c, hnt, ⟨run, run', hr, hrest⟩, hid⟩
        exact ⟨turn, c, ⟨run, run', (hne turn hnt).trans hr, hrest⟩, hid⟩
    rw [hlater]
    cases hs with
    | @mk run candidate usage found active thread same terminal fits =>
      obtain ⟨run', hr', ht'⟩ := hterm
      have hfinal := hgrow.terminal hr' ht'
      simp only [List.mem_append, List.mem_filterMap]
      constructor
      · rintro (⟨u, hu | ⟨c, hc, hcu⟩, hid⟩ | ⟨turn, c, -, hi⟩)
        · exact .inl ⟨u, hu, hid⟩
        · obtain ⟨ho, hint, hex, -, -⟩ := unknown?_some hcu
          exact .inr ⟨t, c, ⟨run, run', found, active, hc, hint, ho, hfinal, ht'⟩, hex ▸ hid⟩
        · exact .inr ⟨turn, c, hi⟩
      · rintro (⟨u, hu, hid⟩ | ⟨turn, c, hi, hid⟩)
        · exact .inl ⟨u, .inl hu, hid⟩
        · by_cases he : t = turn
          · subst he
            obtain ⟨run₁, run₂, hr, ha, hc, hint, ho, -⟩ := hi
            rw [found] at hr
            cases hr
            obtain ⟨u, hu, hue⟩ := unknown?_isSome t hint ho
            exact .inl ⟨u, .inr ⟨c, hc, hu⟩, hue.trans hid⟩
          · exact .inr ⟨turn, c, he, hi, hid⟩

/-- A step that is no settlement makes no active run terminal. -/
theorem no_interrupt {l l' : Ledger}
    (h : ∀ turn run run', l.runs.get? turn = some run → run.snapshot.status.isTerminal = false →
      l'.runs.get? turn = some run' → run'.snapshot.status.isTerminal = false) :
    ∀ turn c, ¬ Interrupts l l' turn c := by
  rintro turn c ⟨run, run', hr, ha, -, -, -, hr', ht⟩
  rw [h turn run run' hr ha hr'] at ht
  cases ht

/-- The executions a step makes unknown are those it interrupts. -/
theorem Change.unknown {revision : Nat} {l l' : Ledger} {e : Label} (h : Change revision l e l')
    (id : String) : (∃ u ∈ l'.unknown, u.executionId = id) ↔
      (∃ u ∈ l.unknown, u.executionId = id) ∨
        ∃ turn c, Interrupts l l' turn c ∧ c.executionId = id := by
  have hnone : (∀ turn c, ¬ Interrupts l l' turn c) →
      ((∃ u ∈ l.unknown, u.executionId = id) ↔ (∃ u ∈ l.unknown, u.executionId = id) ∨
        ∃ turn c, Interrupts l l' turn c ∧ c.executionId = id) := fun hn => by
    simp [hn]
  cases h with
  | accept absent idle resolved thread turn active result distinct =>
    refine hnone (no_interrupt fun t run run' hr ha hr' => ?_)
    simp only [OrdMap.get?_insert] at hr'
    split at hr'
    · rename_i he
      rw [← he, absent] at hr
      cases hr
    · rw [hr] at hr'
      cases hr'
      exact ha
  | @update turn fresh op run run' history found active edit =>
    refine hnone (no_interrupt fun t x x' hr ha hr' => ?_)
    simp only [OrdMap.get?_insert] at hr'
    split at hr'
    · cases hr'
      show run'.snapshot.status.isTerminal = false
      rw [edit.frame.snapshot]
      exact active
    · rw [hr] at hr'
      cases hr'
      exact ha
  | settle settles => exact settles_unknown settles id
  | acknowledge =>
    have hn : ∀ turn c, ¬ Interrupts l
        { l with unknown := l.unknown.map ({ · with acknowledged := true }) } turn c :=
      no_interrupt fun t run run' hr ha hr' => by
        rw [show l.runs.get? t = some run' from hr'] at hr
        cases hr
        exact ha
    rw [← hnone hn]
    simp

end Ledger

/-! ## Reachable records -/

/-- The history answers the call with `result`: the recorded outcome, the only item with the call's
result id, after the first item with its call id. -/
structure Answered (history : List CanonicalItem) (c : StoredCall) (result : CanonicalItem) :
    Prop where
  outcome : c.outcome = some result
  shape : c.isResult result = true
  once : history.filter (·.id == c.resultItemId) = [result]
  after : ∃ pre item mid post, history = pre ++ item :: mid ++ result :: post ∧
    c.isItem item = true ∧ ∀ i ∈ pre, i.callId? ≠ some c.callId

/-- Among elements with distinct keys, those with a given element's key are that element. -/
theorem filter_eq_singleton {α : Type} (f : α → String) {l : List α} {a : α}
    (hn : (l.map f).Nodup) (ha : a ∈ l) : l.filter (f · == f a) = [a] := by
  induction l with
  | nil => simp at ha
  | cons b l ih =>
    rw [List.map_cons, List.nodup_cons] at hn
    rcases List.mem_cons.1 ha with rfl | ha
    · rw [List.filter_cons_of_pos (by simp), List.filter_eq_nil_iff.2]
      intro k hk hke
      exact hn.1 (List.mem_map.2 ⟨k, hk, by simpa using hke⟩)
    · have hne : f b ≠ f a := fun he => hn.1 (List.mem_map.2 ⟨a, ha, he.symm⟩)
      rw [List.filter_cons_of_neg (by simpa using hne), ih hn.2 ha]

section
variable [External]

theorem run_placed {r r' : SessionRecord} {cs : List Committed} (h : Lts.Run Keep r cs r')
    (hp : r.ledger.Placed) : r'.ledger.Placed :=
  h.invariant (fun r => r.ledger.Placed)
    (fun _ _ _ hp hs => by obtain ⟨_, hc, -⟩ := hs.change; exact hc.placed hp) hp

/-- Along the run from `r₀` to `r` a write made the run of `turn` terminal while its call with the
call id was dispatched and had no outcome. -/
def Interrupted (r₀ : SessionRecord) (cs : List Committed) (r : SessionRecord)
    (turn callId : String) : Prop :=
  ∃ cs₁ c cs₂ p q call, cs = cs₁ ++ c :: cs₂ ∧ Lts.Run Keep r₀ cs₁ p ∧ Keep p c q ∧
    Lts.Run Keep q cs₂ r ∧ p.ledger.Interrupts q.ledger turn call ∧ call.callId = callId

/-- What a call recorded in `r` is still recorded in `r'`, for the only call with its call id. -/
theorem call_kept {r r' : SessionRecord} {cs : List Committed} (h : Lts.Run Keep r cs r')
    {turn turn' : String} {run run' : StoredRun} {c d : StoredCall}
    (hr : r.runs.get? turn = some run) (hc : c ∈ run.calls) (hr' : r'.runs.get? turn' = some run')
    (hd : d ∈ run'.calls) {f : StoredCall → String} (hn : (r'.ledger.calls.map f).Nodup)
    (hf : ∀ x, CallKept c x → f x = f c) (he : f c = f d) : turn = turn' ∧ CallKept c d := by
  obtain ⟨new, hnew, hg⟩ := (run_grows h).runs turn run hr
  obtain ⟨x, hx, hk⟩ := hg.calls c hc
  have hfx : f x = f d := (hf x hk).trans he
  have ht := Ledger.turn_unique hn hnew (show r'.ledger.runs.get? turn' = some run' from hr') hx hd hfx
  have hxd := Ledger.call_unique hn (Ledger.mem_calls.2 ⟨_, _, hnew, hx⟩)
    (Ledger.mem_calls.2 ⟨_, _, hr', hd⟩) hfx
  exact ⟨ht, hxd ▸ hk⟩

theorem Keep.unique {r r' r'' : SessionRecord} {c : Committed} (h : Keep r c r')
    (h' : Keep r c r'') : r' = r'' := by
  have := h.1.submitted.symm.trans h'.1.submitted
  simpa using this

/-- The unknown executions at the end of a run are those at its start and those it interrupted. -/
theorem run_unknown {r₀ r : SessionRecord} {cs : List Committed} (h : Lts.Run Keep r₀ cs r)
    (hv : Valid r) {turn : String} {run : StoredRun} {c : StoredCall}
    (hr : r.runs.get? turn = some run) (hc : c ∈ run.calls) :
    (∃ u ∈ r.unknownExecutions, u.executionId = c.executionId) ↔
      (∃ u ∈ r₀.unknownExecutions, u.executionId = c.executionId) ∨
        Interrupted r₀ cs r turn c.callId := by
  induction h with
  | nil r =>
    refine ⟨.inl, fun h => h.resolve_right ?_⟩
    rintro ⟨cs₁, x, cs₂, p, q, call, he, -⟩
    simp at he
  | @cons r₀ r₁ r x cs hs hrun ih =>
    rw [ih hv hr]
    obtain ⟨label, hchange, -⟩ := hs.change
    have hstep := hchange.unknown c.executionId
    -- what this write interrupts is the call of the final record
    have hthis : (∃ t d, r₀.ledger.Interrupts r₁.ledger t d ∧ d.executionId = c.executionId) ↔
        ∃ d, r₀.ledger.Interrupts r₁.ledger turn d ∧ d.callId = c.callId := by
      constructor
      · rintro ⟨t, d, hi, he⟩
        obtain ⟨run₀, -, hr₀, -, hd, -⟩ := id hi
        obtain ⟨rfl, hk⟩ := call_kept (.cons hs hrun) hr₀ hd hr hc hv.ledger.executionIds
          (fun _ h => h.executionId) he
        exact ⟨d, hi, hk.callId.symm⟩
      · rintro ⟨d, hi, he⟩
        obtain ⟨run₀, -, hr₀, -, hd, -⟩ := id hi
        obtain ⟨-, hk⟩ := call_kept (.cons hs hrun) hr₀ hd hr hc hv.ledger.callIds
          (fun _ h => h.callId) he
        exact ⟨turn, d, hi, hk.executionId.symm⟩
    rw [show (∃ u ∈ r₁.unknownExecutions, u.executionId = c.executionId) ↔ _ from hstep, hthis]
    constructor
    · rintro ((h | ⟨d, hi, he⟩) | ⟨cs₁, y, cs₂, p, q, call, rfl, hp, hy, hq, hi⟩)
      · exact .inl h
      · exact .inr ⟨[], x, cs, r₀, r₁, d, rfl, .nil _, hs, hrun, hi, he⟩
      · exact .inr ⟨x :: cs₁, y, cs₂, p, q, call, rfl, .cons hs hp, hy, hq, hi⟩
    · rintro (h | ⟨cs₁, y, cs₂, p, q, call, he, hp, hy, hq, hi, hcall⟩)
      · exact .inl (.inl h)
      · cases cs₁ with
        | nil =>
          cases he
          cases hp
          rw [hs.unique hy]
          exact .inl (.inr ⟨call, hi, hcall⟩)
        | cons z cs₁ =>
          rw [List.cons_append] at he
          cases he
          cases hp with
          | cons hz hp =>
            rw [← hs.unique hz] at hp
            exact .inr ⟨cs₁, y, cs₂, p, q, call, rfl, hp, hy, hq, hi, hcall⟩

/-- The calls of a terminal run are answered. -/
theorem terminal_answered {r : SessionRecord} (hv : Valid r) (hp : r.ledger.Placed)
    {turn : String} {run : StoredRun} {c : StoredCall} (hr : r.runs.get? turn = some run)
    (ht : run.snapshot.status.isTerminal = true) (hc : c ∈ run.calls) :
    ∃ result, Answered r.history c result := by
  obtain ⟨pre, item, post, hh, hitem, hfirst, hout⟩ := hp.calls turn run hr c hc
  obtain ⟨o, ho, hco⟩ := hout (hp.terminal turn run hr ht c hc)
  have hok := hv.ledger.calls run (OrdMap.mem_values hr) c hc
  have hid : o.id = c.resultItemId := StoredCall.isResult_id (hok.outcome o hco)
  have hh : r.history = pre ++ item :: post := hh
  refine ⟨o, hco, hok.outcome o hco, ?_, ?_⟩
  · rw [← hid]
    exact filter_eq_singleton CanonicalItem.id hv.ledger.history (by simp [hh, ho])
  · obtain ⟨mid, rest, rfl⟩ := List.append_of_mem ho
    exact ⟨pre, item, mid, rest, by rw [hh]; simp, hitem, hfirst⟩

/-- For every record that journal commands, attachments and recoveries reach from a created one: the
next write records a dispatch intent only for a call that has none, has no outcome and belongs to a
completed step; no later write changes a recorded intent or outcome; the calls of a terminal run are
answered, with any outcome they recorded before; and the unknown executions are one for each call
that was dispatched and had no outcome when its run became terminal. -/
theorem tool_ledger_exactly_once {r₀ r : SessionRecord} {cs : List Committed} (h₀ : Created r₀)
    (h : Lts.Run Keep r₀ cs r) :
    (∀ c r', Keep r c r' → r.ledger.IntentsGuarded r'.ledger) ∧
    (∀ cs' r', Lts.Run Keep r cs' r' → ∀ turn run c, r.runs.get? turn = some run → c ∈ run.calls →
      ∃ run' d, r'.runs.get? turn = some run' ∧ d ∈ run'.calls ∧ CallKept c d ∧
        ∀ x ∈ run'.calls, x.callId = c.callId → x = d) ∧
    (∀ turn run c, r.runs.get? turn = some run → run.snapshot.status.isTerminal = true →
      c ∈ run.calls → ∃ result, Answered r.history c result ∧
        ∀ cs₁ cs₂ p run₁ c₁ o, cs = cs₁ ++ cs₂ → Lts.Run Keep r₀ cs₁ p → Lts.Run Keep p cs₂ r →
          p.runs.get? turn = some run₁ → c₁ ∈ run₁.calls → c₁.callId = c.callId →
          c₁.outcome = some o → o = result) ∧
    (∀ turn run c, r.runs.get? turn = some run → c ∈ run.calls →
      (Interrupted r₀ cs r turn c.callId → ∃ u, u.turnId = turn ∧ u.callId = c.callId ∧
        r.unknownExecutions.filter (·.executionId == c.executionId) = [u]) ∧
      (¬ Interrupted r₀ cs r turn c.callId →
        r.unknownExecutions.filter (·.executionId == c.executionId) = [])) ∧
    (∀ u ∈ r.unknownExecutions, ∃ run c, r.runs.get? u.turnId = some run ∧ c ∈ run.calls ∧
      c.executionId = u.executionId ∧ c.callId = u.callId) := by
  have hv := run_valid h h₀.valid
  have hp : r.ledger.Placed :=
    run_placed h (h₀.ledger ▸ ⟨fun _ _ h => (nomatch h), fun _ _ h => (nomatch h)⟩)
  have hbelongs : ∀ u ∈ r.unknownExecutions, ∃ run c, r.runs.get? u.turnId = some run ∧
      c ∈ run.calls ∧ c.executionId = u.executionId ∧ c.callId = u.callId := by
    intro u hu
    obtain ⟨run, hrun, c, hc, hcu⟩ := hv.ledger.unknown u hu
    simp only [StoredCall.isUnknown, Bool.and_eq_true, beq_iff_eq] at hcu
    exact ⟨run, c, hrun, hc, hcu.1.1.1, hcu.1.1.2⟩
  refine ⟨fun c r' hs => ?_, fun cs' r' h' turn run c hr hc => ?_, fun turn run c hr ht hc => ?_,
    fun turn run c hr hc => ⟨fun hi => ?_, fun hi => ?_⟩, hbelongs⟩
  · obtain ⟨_, hc, -⟩ := hs.change
    exact hc.intents
  · obtain ⟨run', hr', hg⟩ := (run_grows h').runs turn run hr
    obtain ⟨d, hd, hk⟩ := hg.calls c hc
    refine ⟨run', d, hr', hd, hk, fun x hx he => ?_⟩
    exact Ledger.call_unique (run_valid h' hv).ledger.callIds (Ledger.mem_calls.2 ⟨_, _, hr', hx⟩)
      (Ledger.mem_calls.2 ⟨_, _, hr', hd⟩) (he.trans hk.callId.symm)
  · obtain ⟨result, hans⟩ := terminal_answered hv hp hr ht hc
    refine ⟨result, hans, fun cs₁ cs₂ p run₁ c₁ o _ _ hrest hr₁ hc₁ he ho => ?_⟩
    obtain ⟨-, hk⟩ := call_kept hrest hr₁ hc₁ hr hc hv.ledger.callIds (fun _ h => h.callId) he
    have := (hk.outcome o ho).symm.trans hans.outcome
    simpa using this
  · obtain ⟨u, hu, he⟩ := (run_unknown h hv hr hc).2 (.inr hi)
    obtain ⟨run', d, hr', hd, hex, hcall⟩ := hbelongs u hu
    have hturn := Ledger.turn_unique hv.ledger.executionIds hr' hr hd hc (hex.trans he)
    have hcd := Ledger.call_unique hv.ledger.executionIds (Ledger.mem_calls.2 ⟨_, _, hr', hd⟩)
      (Ledger.mem_calls.2 ⟨_, _, hr, hc⟩) (hex.trans he)
    refine ⟨u, hturn, by rw [← hcall, hcd], ?_⟩
    rw [← he]
    exact filter_eq_singleton UnknownExecution.executionId hv.ledger.unknownIds hu
  · rw [List.filter_eq_nil_iff]
    intro u hu he
    have := (run_unknown h hv hr hc).1 ⟨u, hu, by simpa using he⟩
    rcases this with ⟨u₀, hu₀, -⟩ | hi'
    · rw [show r₀.unknownExecutions = [] from congrArg Ledger.unknown h₀.ledger] at hu₀
      cases hu₀
    · exact hi hi'

end

theorem tool_ledger_exactly_once_sample : ∃ run c result,
    Sample.outcome.2.runs.get? "turn" = some run ∧ c ∈ run.calls ∧
      Answered Sample.outcome.2.history c result := by
  have h : (Sample.outcome.2.runs.get? "turn").any (fun run =>
      run.snapshot.status.isTerminal && !run.calls.isEmpty) = true := by decide +kernel
  obtain ⟨run, hrun, hterm⟩ := (Option.any_eq_true _ _).1 h
  rw [Bool.and_eq_true] at hterm
  obtain ⟨c, hc⟩ := List.exists_mem_of_ne_nil run.calls (by simpa using hterm.2)
  obtain ⟨result, hres, -⟩ := (@tool_ledger_exactly_once Sample.external _ _ _ Sample.record_created
    Sample.outcome_run).2.2.1 "turn" run c hrun hterm.1 hc
  exact ⟨run, c, result, hrun, hc, hres⟩

end Whale
