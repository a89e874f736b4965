import Whale.Store.Proof.Fencing
import Whale.Store.Proof.Recovery

/-!
# Unknown executions block new work

An execution whose side effects are unknown stays in its record, unacknowledged, until the journal is told
to acknowledge exactly the executions that are not, or the record is forgotten (`Exchanged.unknown_kept`,
and over runs of the shared store `SharedStore.Inv.unknown_run`). While there is one, no run is begun and
the record is not retired.
-/

namespace Whale

open Check

/-! ## The command -/

namespace SessionRecord

/-- The executions with these ids are acknowledged, and nothing else changes. -/
def acknowledging (r : SessionRecord) (ids : List String) : SessionRecord :=
  { r with unknownExecutions := r.unknownExecutions.map fun u =>
      if u.executionId ∈ ids then { u with acknowledged := true } else u }

/-- `ids` names the executions that are not acknowledged, each once. -/
structure Names (r : SessionRecord) (ids : List String) : Prop where
  nodup : ids.Nodup
  exactly : ∀ id, id ∈ ids ↔ ∃ u ∈ r.unknownExecutions, u.acknowledged = false ∧ u.executionId = id

end SessionRecord

theorem mem_requiredIds {r : SessionRecord} {id : String} :
    id ∈ requiredIds r ↔ ∃ u ∈ r.unknownExecutions, u.acknowledged = false ∧ u.executionId = id := by
  unfold requiredIds
  simp only [List.mem_map, List.mem_filter, Bool.not_eq_true', and_assoc]

/-- The check of `Acknowledge` on the ids. -/
theorem names_iff {r : SessionRecord} {ids : List String} :
    (repeats [] ids || !(ids.all (requiredIds r).contains && (requiredIds r).all ids.contains)) = false ↔
      r.Names ids := by
  have hnodup : repeats [] ids = false ↔ ids.Nodup := by
    rw [repeats_eq_false_iff, distinct_nil_iff]
  simp only [Bool.or_eq_false_iff, Bool.not_eq_false', Bool.and_eq_true, List.all_eq_true,
    List.contains_iff_mem, hnodup]
  constructor
  · rintro ⟨hn, h1, h2⟩
    exact ⟨hn, fun id => ⟨fun hm => mem_requiredIds.mp (h1 id hm), fun hu => h2 id (mem_requiredIds.mpr hu)⟩⟩
  · rintro ⟨hn, h⟩
    exact ⟨hn, fun id hm => mem_requiredIds.mpr ((h id).mp hm),
      fun id hm => (h id).mpr (mem_requiredIds.mp hm)⟩

/-- With the ids of all that is not acknowledged, everything is. -/
theorem SessionRecord.Names.acknowledging {r : SessionRecord} {ids : List String} (h : r.Names ids) :
    { r with unknownExecutions := r.unknownExecutions.map ({ · with acknowledged := true }) } =
      r.acknowledging ids := by
  unfold SessionRecord.acknowledging
  congr 1
  refine List.map_congr_left fun u hu => ?_
  split
  · rfl
  · rename_i hn
    cases ha : u.acknowledged with
    | true => rw [← ha]
    | false => exact absurd ((h.exactly _).mpr ⟨u, hu, ha, rfl⟩) hn

section
variable [External]

/-- `Acknowledge` succeeds on exactly these arguments, and does just this. -/
theorem apply_acknowledge_iff {r r' : SessionRecord} {inp : Inputs} {expected : Nat} {ids : List String} :
    (∃ response, apply r inp (.acknowledge expected ids) = .ok (response, r')) ↔
      expected = r.revision ∧ r.active = false ∧ r.Names ids ∧ r' = r.acknowledging ids := by
  constructor
  · rintro ⟨response, h⟩
    obtain ⟨hrev, h⟩ := refuse_bind_ok h
    obtain ⟨hactive, h⟩ := refuse_bind_ok h
    obtain ⟨hnames, h⟩ := refuse_bind_ok h
    have hnames := names_iff.mp hnames
    cases h
    exact ⟨(bne_eq_false_iff_eq.mp hrev).symm, hactive, hnames, hnames.acknowledging⟩
  · rintro ⟨rfl, hactive, hnames, rfl⟩
    refine ⟨.snapshot (r.acknowledging ids).snapshot, ?_⟩
    simp only [apply, bne_self_eq_false, hactive, names_iff.mpr hnames, refuse_false, ok_bind,
      hnames.acknowledging]

/-! ## The other writers -/

/-- A record with an execution that is not acknowledged is not retired. -/
theorem retirement_unresolved {r : SessionRecord} {u : UnknownExecution} (hu : u ∈ r.unknownExecutions)
    (ha : u.acknowledged = false) {expected now : Nat} {reason : String} {new : SessionRecord} :
    retirementReplacement r expected now reason ≠ .ok (some new) := by
  intro h
  obtain ⟨_, -, h⟩ := bind_ok h
  obtain ⟨-, h⟩ := refuse_bind_ok h
  split at h
  · cases h
  · obtain ⟨-, h⟩ := refuse_bind_ok h
    obtain ⟨hresolved, -⟩ := refuse_bind_ok h
    have hall := unresolved_eq_false_iff.mp hresolved u hu
    rw [ha] at hall
    cases hall

/-- The call acknowledges executions, or forgets its record. -/
def Writer.Resolves : Writer → Prop
  | .journal _ _ (.acknowledge ..) => True
  | .forget .. => True
  | _ => False

omit [External] in
theorem Ledger.Settle.unknown_kept {l l' : Ledger} {turn : String} (h : Ledger.Settle l turn l')
    {u : UnknownExecution} (hu : u ∈ l.unknown) : u ∈ l'.unknown := by
  cases h
  exact List.mem_append_left _ hu

omit [External] in
theorem Ledger.Change.unknown_kept {revision : Nat} {l l' : Ledger} {label : Ledger.Label}
    (h : Ledger.Change revision l label l') (hl : label ≠ .acknowledge) {u : UnknownExecution}
    (hu : u ∈ l.unknown) : u ∈ l'.unknown := by
  cases h with
  | accept | update => exact hu
  | settle settles => exact settles.invariant (u ∈ ·.unknown) (fun _ _ _ hu hs => hs.unknown_kept hu) hu
  | acknowledge => exact absurd rfl hl

/-- A call that does not resolve it leaves an execution in the record it submits. -/
theorem submit_unknown_kept {w : Writer} {r : SessionRecord} {s : Submission} (h : w.submit r = some s)
    (hw : ¬ w.Resolves) {u : UnknownExecution} (hu : u ∈ r.unknownExecutions)
    (ha : u.acknowledged = false) : u ∈ s.new.unknownExecutions := by
  cases w with
  | journal lease inp action =>
    obtain ⟨hholds, haction, response, r₁, next, happly, -, rfl⟩ := journal_submit h
    obtain ⟨-, -, -, -, hlive⟩ := lease_holds_iff.mp hholds
    obtain ⟨label, happlied⟩ := apply_effect hlive haction happly
    show u ∈ r₁.unknownExecutions
    cases happlied with
    | accepted thread change => exact change.unknown_kept nofun hu
    | commit change => exact change.unknown_kept nofun hu
    | finalize change => exact change.unknown_kept nofun hu
    | acknowledge change => exact absurd trivial hw
    | detach settles =>
      exact settles.invariant (u ∈ ·.unknown) (fun _ _ _ hu hs => hs.unknown_kept hu) hu
    | repeated | replace | replaceMetadata => exact hu
  | attach key expected configuration owner thread now =>
    obtain ⟨-, -, -, -, -, -, parsed, epoch, revision, -, -, -, rfl⟩ := attach_submit h
    exact hu
  | forget => exact absurd trivial hw
  | retire id expected now reason =>
    obtain ⟨new, hn, -⟩ := submission_some h
    exact absurd hn (retirement_unresolved hu ha)
  | opened id now =>
    obtain ⟨new, hn, rfl⟩ := submission_some h
    cases hf : r.forgotten with
    | false =>
      obtain ⟨-, parsed, l, next, -, hl, -, rfl⟩ := opened_live hf hn
      show u ∈ (openedRecord ..).ledger.unknown
      rw [openedRecord_ledger]
      exact hl.invariant (u ∈ ·.unknown) (fun _ _ _ hu hs => hs.unknown_kept hu) hu
    | true =>
      obtain ⟨-, -, next, -, rfl⟩ := opened_tombstone hf hn
      show u ∈ (r.migrateRetention now).2.ledger.unknown
      rw [migrateRetention_ledger]
      exact hu

namespace SharedStore

/-- Across a step the record keeps the execution. -/
theorem Inv.unknown_kept {s s' : SharedStore} {e : Event} (h : Inv s) (hstep : Step s e s') {id : String}
    {r : SessionRecord} (hr : s.records.get? id = some r)
    (he : ∀ p, e = .exchange p → p.writer.target = id → ¬ p.writer.Resolves) {u : UnknownExecution}
    (hu : u ∈ r.unknownExecutions) (ha : u.acknowledged = false) :
    ∃ r', s'.records.get? id = some r' ∧ u ∈ r'.unknownExecutions := by
  cases hstep with
  | create built stored =>
    obtain ⟨-, hnone, rfl⟩ := create_ok stored
    refine ⟨r, ?_, hu⟩
    rw [OrdMap.get?_insert_ne _ _ (fun he => by rw [he, hr] at hnone; cases hnone), hr]
  | load | abandon => exact ⟨r, hr, hu⟩
  | @exchange p before after records under stored =>
    obtain ⟨old, hex⟩ := h.exchanged (by simp [under]) stored
    by_cases ht : p.writer.target = id
    · subst ht
      rw [hex.stored] at hr
      cases hr
      refine ⟨p.submission.new, ?_, submit_unknown_kept hex.submitted (he p rfl rfl) hu ha⟩
      rw [hex.records]
      exact OrdMap.get?_insert_self _ _ _
    · refine ⟨r, ?_, hu⟩
      rw [hex.records]
      exact (OrdMap.get?_insert_ne _ _ ht).trans hr

/-- Over a run the record keeps the execution, until a call resolves it. -/
theorem Inv.unknown_run {s t : SharedStore} {es : List Event} (h : Inv s) (hrun : Lts.Run Step s es t)
    {id : String} {r : SessionRecord} (hr : s.records.get? id = some r)
    (hes : ∀ p, .exchange p ∈ es → p.writer.target = id → ¬ p.writer.Resolves) {u : UnknownExecution}
    (hu : u ∈ r.unknownExecutions) (ha : u.acknowledged = false) :
    ∃ r', t.records.get? id = some r' ∧ u ∈ r'.unknownExecutions := by
  induction hrun generalizing r with
  | nil => exact ⟨r, hr, hu⟩
  | cons hstep _ ih =>
    obtain ⟨r₁, hr₁, hu₁⟩ := h.unknown_kept hstep hr
      (fun p he => hes p (he ▸ List.mem_cons_self)) hu ha
    exact ih (h.step hstep) hr₁ (fun p hp => hes p (List.mem_cons_of_mem _ hp)) hu₁

end SharedStore

/-- Of every stored record: a new run is begun only when no run is active and every unknown execution is
acknowledged; `Acknowledge` succeeds on exactly the executions that are not, at the current revision and
with no active run, and only marks them; the record is not retired while there is one, and it keeps each
until a call acknowledges it or forgets the record. -/
theorem unknown_executions_block {s₀ s : SharedStore} {es : List Event} (h₀ : SharedStore.Initial s₀)
    (h : Lts.Run SharedStore.Step s₀ es s) {id : String} {r : SessionRecord} (hr : s.records.get? id = some r) :
    (∀ params snapshot options accepted r', r.runs.get? params.turnId = none →
      r.begin params snapshot options = .ok (accepted, r') →
      r.active = false ∧ ∀ u ∈ r.unknownExecutions, u.acknowledged = true) ∧
    (∀ inp expected ids r', (∃ response, apply r inp (.acknowledge expected ids) = .ok (response, r')) ↔
      expected = r.revision ∧ r.active = false ∧ r.Names ids ∧ r' = r.acknowledging ids) ∧
    -- what its exchange writes
    (∀ p s' lease inp expected ids, SharedStore.Step s (.exchange p) s' → p.writer.target = id →
      p.writer = .journal lease inp (.acknowledge expected ids) →
      expected = r.revision ∧ r.active = false ∧ r.Names ids ∧
        p.submission.new = written (r.acknowledging ids) inp (r.revision + 1)) ∧
    ∀ u ∈ r.unknownExecutions, u.acknowledged = false →
      (∀ expected now reason new, retirementReplacement r expected now reason ≠ .ok (some new)) ∧
      ∀ es' t, Lts.Run SharedStore.Step s es' t →
        (∀ p, .exchange p ∈ es' → p.writer.target = id → ¬ p.writer.Resolves) →
        ∃ r', t.records.get? id = some r' ∧ u ∈ r'.unknownExecutions := by
  have hinv : SharedStore.Inv s := h₀.inv.run h
  refine ⟨fun params snapshot options accepted r' hnew hb => ?_,
    fun inp expected ids r' => apply_acknowledge_iff,
    fun p s' lease inp expected ids hstep ht hw => ?_, fun u hu ha =>
      ⟨fun expected now reason new => retirement_unresolved hu ha,
        fun es' t hrun hes => hinv.unknown_run hrun hr hes hu ha⟩⟩
  · rcases begin_change hb with ⟨-, -, hf⟩ | ⟨-, -, l, hl, -⟩
    · rw [hnew] at hf
      cases hf
    · cases hl with
      | accept absent idle resolved => exact ⟨active_eq_false_iff.mpr idle, resolved⟩
  · cases hstep with
    | exchange under stored =>
      obtain ⟨old, hex⟩ := hinv.exchanged (by simp [under]) stored
      have hold := hex.stored
      rw [ht, hr] at hold
      cases hold
      have hsub := hex.submitted
      rw [hw] at hsub
      obtain ⟨-, -, response, r₁, next, happly, hnext, hs⟩ := journal_submit hsub
      obtain ⟨h1, h2, h3, rfl⟩ := apply_acknowledge_iff.mp ⟨response, happly⟩
      obtain ⟨rfl, -⟩ := checkedSucc_some hnext
      exact ⟨h1, h2, h3, by rw [hs]⟩

end

namespace Sample

/-- The store with the record that the run of `actions` leaves, detached while a tool runs. -/
def halted : SharedStore := ⟨store outcome.2, [], []⟩

theorem outcome_id : outcome.2.recoveryId = recoveryId := by decide +kernel

theorem halted_initial : @SharedStore.Initial external halted := by
  have hvalid := @run_valid external _ _ _ outcome_run (@Created.valid external _ record_created)
  refine @SharedStore.Initial.mk external _ (fun id r h => ?_) (fun id r h => ?_) rfl rfl
  · obtain ⟨hid, hr⟩ := store_get h
    rw [hr, hid]
    exact outcome_id
  · obtain ⟨-, hr⟩ := store_get h
    rw [hr]
    exact (@validate_ok_iff external _).mpr hvalid

end Sample

/-- The dispatched call is acknowledged by its id and keeps the record from being retired. -/
theorem unknown_executions_block_sample :
    (∃ response, @apply Sample.external Sample.outcome.2 Sample.inputs
      (.acknowledge Sample.outcome.2.revision ["execution"]) =
        .ok (response, Sample.outcome.2.acknowledging ["execution"])) ∧
    ∀ expected now reason new,
      @retirementReplacement Sample.external Sample.outcome.2 expected now reason ≠ .ok (some new) := by
  have hunknown : Sample.outcome.2.unknownExecutions.map (fun u => (u.executionId, u.acknowledged)) =
      [("execution", false)] := by decide +kernel
  obtain ⟨u, hu⟩ := List.map_eq_singleton_iff.mp hunknown
  obtain ⟨hlist, hid⟩ := hu
  have hmem : u ∈ Sample.outcome.2.unknownExecutions := by rw [hlist]; exact List.mem_singleton_self u
  obtain ⟨hexec, hack⟩ := Prod.mk.inj hid
  obtain ⟨-, hacknowledge, -, hkept⟩ := @unknown_executions_block Sample.external _ _ _
    Sample.halted_initial (.nil _) Sample.recoveryId Sample.outcome.2 (OrdMap.get?_insert_self _ _ _)
  refine ⟨(hacknowledge Sample.inputs _ ["execution"] _).mpr ⟨rfl, by decide +kernel, ?_, rfl⟩,
    (hkept u hmem hack).1⟩
  refine ⟨List.nodup_singleton _, fun id => ?_⟩
  rw [hlist, List.mem_singleton]
  constructor
  · rintro rfl
    exact ⟨u, List.mem_singleton_self u, hack, hexec⟩
  · rintro ⟨v, hv, -, rfl⟩
    rw [List.mem_singleton.mp hv, hexec]

end Whale
