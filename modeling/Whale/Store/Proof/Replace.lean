import Whale.Store.Backend
import Whale.Store.Proof.Ledger

/-!
# What `validate_replace` accepts

`Replaces old id expected new` collects the conditions of `validate_replace`;
`validateReplace_ok_iff` says that it accepts exactly these replacements. For a record that is not
retired the ledger conditions are `Ledger.Extends`.
-/

namespace Whale

open Check

/-! ## Conditions -/

theorem checkedSucc_some {n m : Nat} (h : checkedSucc n = some m) : m = n + 1 ∧ n < u64Max := by
  unfold checkedSucc at h
  split at h
  · cases h; exact ⟨rfl, by assumption⟩
  · cases h

/-- A call keeps its identity and what it has recorded. -/
structure CallKept (c d : StoredCall) : Prop where
  callId : d.callId = c.callId
  resultItemId : d.resultItemId = c.resultItemId
  executionId : d.executionId = c.executionId
  stepId : d.stepId = c.stepId
  toolName : d.toolName = c.toolName
  intent : ∀ e, c.intent = some e → d.intent = some e
  outcome : ∀ o, c.outcome = some o → d.outcome = some o
  committed : c.committed = true → d.committed = true

namespace CallKept

theorem refl (c : StoredCall) : CallKept c c := ⟨rfl, rfl, rfl, rfl, rfl, fun _ h => h, fun _ h => h, id⟩

theorem trans {c d e : StoredCall} (h : CallKept c d) (h' : CallKept d e) : CallKept c e where
  callId := h'.callId.trans h.callId
  resultItemId := h'.resultItemId.trans h.resultItemId
  executionId := h'.executionId.trans h.executionId
  stepId := h'.stepId.trans h.stepId
  toolName := h'.toolName.trans h.toolName
  intent := fun e he => h'.intent e (h.intent e he)
  outcome := fun o ho => h'.outcome o (h.outcome o ho)
  committed := fun hc => h'.committed (h.committed hc)

end CallKept

/-- A run keeps its identity, its calls and, once terminal, its snapshot. -/
structure RunKept (run new : StoredRun) : Prop where
  params : (new.params == run.params) = true
  options : new.effectiveOptions = run.effectiveOptions
  start : new.historyStart = run.historyStart
  frozen : run.snapshot.status.isTerminal = true → new.snapshot = run.snapshot
  calls : ∀ c ∈ run.calls, ∃ d, new.calls.find? (·.callId == c.callId) = some d ∧ CallKept c d

/-- The ledger is only added to. -/
structure Ledger.Extends (l l' : Ledger) : Prop where
  history : l.history <+: l'.history
  runs : ∀ id run, l.runs.get? id = some run → ∃ new, l'.runs.get? id = some new ∧ RunKept run new

/-- The lease changes only by a detachment or, from a detached record, by an attachment that raises
the epoch by one. -/
structure LeaseKept (old new : SessionRecord) : Prop where
  same : new.owner = old.owner → new.threadId = old.threadId → new.epoch = old.epoch
  attach : (new.owner ≠ old.owner ∨ new.threadId ≠ old.threadId) → new.owner.isSome →
    old.owner = none ∧ checkedSucc old.epoch = some new.epoch
  detach : (new.owner ≠ old.owner ∨ new.threadId ≠ old.threadId) → new.owner = none →
    new.epoch = old.epoch

/-- The conditions on a replacement that is not retired. -/
structure Continues (old new : SessionRecord) : Prop where
  ledger : old.ledger.Extends new.ledger
  threads : old.historicalThreadIds <+: new.historicalThreadIds
  lease : LeaseKept old new

/-- The conditions of `validate_replace`. -/
structure Replaces [External] (old : SessionRecord) (id : String) (expected : Nat)
    (new : SessionRecord) : Prop where
  valid : Valid new
  read : old.revision = expected
  id : new.recoveryId = id
  digest : new.secretDigest = old.secretDigest
  revision : checkedSucc expected = some new.revision
  epoch : old.epoch ≤ new.epoch
  tombstone : old.forgotten = true → isLegacyTombstoneMigration old new = true
  retention : old.schemaVersion = 2 → new.schemaVersion = 2 ∧ new.createdAtMs = old.createdAtMs ∧
    timeLt new.updatedAtMs old.updatedAtMs = false
  live : new.forgotten = false → Continues old new

/-! ## Tombstones -/

/-- The migration of a legacy tombstone changes its retention metadata only. -/
theorem legacy_migration {old new : SessionRecord} (h : isLegacyTombstoneMigration old new = true) :
    old.schemaVersion = 1 ∧ new.schemaVersion = 2 ∧ new.forgotten = old.forgotten ∧
      new.historicalThreadIds = old.historicalThreadIds := by
  unfold isLegacyTombstoneMigration at h
  split at h
  · cases h
  · rename_i hs
    simp only [Bool.or_eq_true, bne_iff_ne, ne_eq, not_or, not_not] at hs
    split at h
    · cases h
    · rename_i now hnow
      simp only [SessionRecord.jsonEq, Bool.and_eq_true, beq_iff_eq, and_assoc,
        SessionRecord.migrateRetention, hs.1, SessionRecord.withRevision] at h
      obtain ⟨-, -, -, -, -, -, -, -, -, -, -, -, hthreads, hforgotten, -⟩ := h
      exact ⟨hs.1, hs.2, hforgotten.symm, hthreads.symm⟩

theorem Replaces.forgotten [External] {old new : SessionRecord} {id : String} {expected : Nat}
    (h : Replaces old id expected new) (hf : old.forgotten = true) : new.forgotten = true := by
  obtain ⟨-, -, hn, -⟩ := legacy_migration (h.tombstone hf)
  rw [hn, hf]

/-! ## `validate_replace` -/

theorem checkCallReplacement_ok_iff {calls : List StoredCall} {c : StoredCall} :
    checkCallReplacement calls c = .ok () ↔
      ∃ d, calls.find? (·.callId == c.callId) = some d ∧ CallKept c d := by
  unfold checkCallReplacement
  cases hf : calls.find? (·.callId == c.callId) with
  | none => simp
  | some d =>
    have hid : d.callId = c.callId := by simpa using List.find?_some hf
    have hcom : (c.committed && !d.committed) = false ↔ (c.committed = true → d.committed = true) := by
      cases c.committed <;> cases d.committed <;> simp
    simp only [orElse_some, ok_bind, refuse_ok_iff, Bool.or_eq_false_iff, bne_eq_false_iff_eq,
      Option.any_eq_false, hcom, Option.some.injEq, exists_eq_left']
    exact ⟨fun ⟨⟨⟨⟨⟨⟨h1, h2⟩, h3⟩, h4⟩, h5⟩, h6⟩, h7⟩ => ⟨hid, h1, h2, h3, h4, h5, h6, h7⟩,
      fun ⟨_, h1, h2, h3, h4, h5, h6, h7⟩ => ⟨⟨⟨⟨⟨⟨h1, h2⟩, h3⟩, h4⟩, h5⟩, h6⟩, h7⟩⟩

theorem checkRunReplacement_ok_iff {runs : OrdMap String StoredRun} {entry : String × StoredRun} :
    checkRunReplacement runs entry = .ok () ↔
      ∃ new, runs.get? entry.1 = some new ∧ RunKept entry.2 new := by
  unfold checkRunReplacement
  cases hg : runs.get? entry.1 with
  | none => simp [hg]
  | some new =>
    have hfr : (entry.2.snapshot.status.isTerminal && new.snapshot != entry.2.snapshot) = false ↔
        (entry.2.snapshot.status.isTerminal = true → new.snapshot = entry.2.snapshot) := by
      cases entry.2.snapshot.status.isTerminal <;> simp
    simp only [hg, orElse_some, ok_bind, refuse_bind_ok_iff, forAll_ok_iff,
      checkCallReplacement_ok_iff, Bool.or_eq_false_iff, bne_eq_false_iff_eq, hfr,
      Bool.not_eq_false', Option.some.injEq, exists_eq_left']
    exact ⟨fun ⟨⟨⟨⟨h1, h2⟩, h3⟩, h4⟩, h5⟩ => ⟨h1, h2, h3, h4, h5⟩,
      fun ⟨h1, h2, h3, h4, h5⟩ => ⟨⟨⟨⟨h1, h2⟩, h3⟩, h4⟩, h5⟩⟩

theorem checkLeaseReplacement_ok_iff {old new : SessionRecord} :
    checkLeaseReplacement old new = .ok () ↔ LeaseKept old new := by
  unfold checkLeaseReplacement
  by_cases hsame : new.owner = old.owner ∧ new.threadId = old.threadId
  · have hcond : (new.owner != old.owner || new.threadId != old.threadId) = false := by
      simp [hsame.1, hsame.2]
    simp only [hcond, Bool.false_eq_true, if_false, refuse_ok_iff, bne_eq_false_iff_eq]
    exact ⟨fun h => ⟨fun _ _ => h, fun hd => by simp [hsame.1, hsame.2] at hd,
      fun hd => by simp [hsame.1, hsame.2] at hd⟩, fun h => h.same hsame.1 hsame.2⟩
  · have hcond : (new.owner != old.owner || new.threadId != old.threadId) = true := by
      simpa [imp_iff_not_or] using hsame
    have hd : new.owner ≠ old.owner ∨ new.threadId ≠ old.threadId := by
      simpa using hcond
    simp only [hcond, if_true]
    cases hn : new.owner with
    | none =>
      simp only [Option.isSome_none, Bool.false_eq_true, if_false, Option.isNone_none, Bool.true_and,
        ok_bind, refuse_ok_iff, bne_eq_false_iff_eq]
      exact ⟨fun h => ⟨fun _ _ => h, fun _ hs => by simp [hn] at hs, fun _ _ => h⟩,
        fun h => h.detach hd hn⟩
    | some o =>
      simp only [Option.isSome_some, if_true, Option.isNone_some, Bool.false_and, refuse_false]
      constructor
      · intro h
        obtain ⟨ho, h⟩ := refuse_bind_ok h
        obtain ⟨next, hnext, h⟩ := orElse_bind_ok h
        obtain ⟨he, -⟩ := refuse_bind_ok h
        have he : new.epoch = next := by simpa using he
        refine ⟨fun h1 h2 => absurd ⟨h1, h2⟩ hsame, fun _ _ => ⟨by simpa using ho, he ▸ hnext⟩,
          fun _ h => by simp [hn] at h⟩
      · intro h
        obtain ⟨ho, hnext⟩ := h.attach hd (by simp [hn])
        simp [ho, hnext]

theorem continues_iff {old new : SessionRecord} :
    (refuse (!old.history.isPrefixOf new.history ||
        !old.historicalThreadIds.isPrefixOf new.historicalThreadIds)
        (StoreError.invalid "Committed history and attachment identities are append-only")
      >>= fun _ => forAll (checkRunReplacement new.runs) old.runs.entries
      >>= fun _ => checkLeaseReplacement old new) = .ok () ↔ Continues old new := by
  have hbind : ∀ x y : Except StoreError Unit, (x >>= fun _ => y) = .ok () ↔
      x = .ok () ∧ y = .ok () := by
    intro x y
    cases x <;> simp
  rw [refuse_bind_ok_iff, hbind, forAll_ok_iff, checkLeaseReplacement_ok_iff]
  simp only [Bool.or_eq_false_iff, Bool.not_eq_false', List.isPrefixOf_iff_prefix, Prod.forall,
    checkRunReplacement_ok_iff, ← OrdMap.get?_eq_some_iff]
  exact ⟨fun ⟨⟨h1, h2⟩, h3, h4⟩ => ⟨⟨h1, h3⟩, h2, h4⟩, fun ⟨⟨h1, h3⟩, h2, h4⟩ => ⟨⟨h1, h2⟩, h3, h4⟩⟩

/-- `validate_replace` accepts exactly the replacements that keep what is recorded. -/
theorem validateReplace_ok_iff [External] {old new : SessionRecord} {id : String} {expected : Nat} :
    validateReplace old id expected new = .ok () ↔ Replaces old id expected new := by
  unfold validateReplace
  cases hv : new.validate with
  | error e =>
    refine ⟨fun h => (nomatch h), fun h => ?_⟩
    rw [validate_ok_iff.2 h.valid] at hv
    cases hv
  | ok u =>
    have hvalid : Valid new := validate_ok_iff.1 hv
    have hlive : (if new.forgotten then (.ok () : Except StoreError Unit) else
        (refuse (!old.history.isPrefixOf new.history ||
          !old.historicalThreadIds.isPrefixOf new.historicalThreadIds)
          (StoreError.invalid "Committed history and attachment identities are append-only")
        >>= fun _ => forAll (checkRunReplacement new.runs) old.runs.entries
        >>= fun _ => checkLeaseReplacement old new)) = .ok () ↔
        (new.forgotten = false → Continues old new) := by
      cases new.forgotten with
      | true => simp
      | false => simpa using continues_iff
    have hret : (old.schemaVersion == 2 && (new.schemaVersion != 2 ||
        new.createdAtMs != old.createdAtMs || timeLt new.updatedAtMs old.updatedAtMs)) = false ↔
        (old.schemaVersion = 2 → new.schemaVersion = 2 ∧ new.createdAtMs = old.createdAtMs ∧
          timeLt new.updatedAtMs old.updatedAtMs = false) := by
      simp [Bool.and_eq_false_imp, and_assoc]
    have htomb : (old.forgotten && !isLegacyTombstoneMigration old new) = false ↔
        (old.forgotten = true → isLegacyTombstoneMigration old new = true) := by
      cases old.forgotten <;> simp
    simp only [ok_bind, refuse_bind_ok_iff, bne_eq_false_iff_eq, Bool.or_eq_false_iff]
    cases hnext : checkedSucc expected with
    | none =>
      simp only [orElse_none, error_bind, reduceCtorEq, and_false, false_iff]
      intro h
      rw [h.revision] at hnext
      cases hnext
    | some next =>
      simp only [orElse_some, ok_bind, refuse_bind_ok_iff, Bool.or_eq_false_iff,
        bne_eq_false_iff_eq, htomb, hret, decide_eq_false_iff_not, not_lt]
      rw [hlive]
      constructor
      · rintro ⟨h1, ⟨h2, h3⟩, ⟨⟨h4, h5⟩, h6⟩, h7, h8⟩
        exact ⟨hvalid, h1, h2, h3, by rw [hnext, h4], h5, h6, h7, h8⟩
      · rintro ⟨-, h1, h2, h3, h4, h5, h6, h7, h8⟩
        rw [hnext] at h4
        exact ⟨h1, ⟨h2, h3⟩, ⟨⟨(Option.some.inj h4).symm, h5⟩, h6⟩, h7, h8⟩

theorem compareExchange_ok [External] {s s' : Records} {id : String} {expected : Nat} {new : SessionRecord}
    (h : s.compareExchange id expected new = .ok s') :
    ∃ old, s.get? id = some old ∧ Replaces old id expected new ∧ s' = s.insert id new := by
  obtain ⟨old, hold, h⟩ := orElse_bind_ok h
  obtain ⟨_, hv, h⟩ := bind_ok h
  cases h
  exact ⟨old, hold, validateReplace_ok_iff.1 hv, rfl⟩

theorem create_ok [External] {s s' : Records} {r : SessionRecord} (h : s.create r = .ok s') :
    Valid r ∧ s.get? r.recoveryId = none ∧ s' = s.insert r.recoveryId r := by
  obtain ⟨_, hv, h⟩ := bind_ok h
  obtain ⟨hnone, h⟩ := refuse_bind_ok h
  cases h
  obtain ⟨_, hv, -⟩ := bind_ok hv
  exact ⟨validate_ok_iff.1 hv, by simpa using hnone, rfl⟩

end Whale
