import Whale.Store.Writers
import Whale.Store.Proof.Configuration
import Whale.Store.Proof.Ok

/-!
# The effect of a writer

What each writer leaves of the record it loaded: `apply_effect` for a journal command,
`attach_effect`, `retire_effect` (for `forget` and `retire_detached`) and `opened_effect`. Every
writer that does not retire its record takes one step of the ledger machine (`Keep.change`).
-/

namespace Whale

open Check

section
variable [External]

/-! ## Journal commands -/

/-- What `apply` leaves of a record: another ledger, another configuration, or a detached record. -/
inductive Applied (r : SessionRecord) (inp : Inputs) :
    Action → Response → Ledger.Label → SessionRecord → Prop
  | accepted {params : StartTurnParams} {snapshot : RunSnapshot} {options : Value} {l : Ledger}
      (thread : r.threadId = some params.threadId)
      (change : Ledger.Change r.revision r.ledger (.accept params) l) :
      Applied r inp (.begin params snapshot options) (.bool true) (.accept params) (r.withLedger l)
  | repeated {params : StartTurnParams} {snapshot : RunSnapshot} {options : Value}
      (found : (r.runs.get? params.turnId).isSome) :
      Applied r inp (.begin params snapshot options) (.bool false) (.settle []) r
  | commit {turn : String} {op : RunMutation} {item : Option CanonicalItem} {l : Ledger}
      (change : Ledger.Change r.revision r.ledger (.update turn inp.fresh op) l) :
      Applied r inp (.commit turn op) (.receipt ⟨r.revision, item⟩) (.update turn inp.fresh op)
        (r.withLedger l)
  | finalize {turn : String} {candidate : RunSnapshot} {f : FinalizedRun} {turns : List String}
      {l : Ledger} (change : Ledger.Change r.revision r.ledger (.settle turns) l) :
      Applied r inp (.finalize turn candidate) (.finalized f) (.settle turns) (r.withLedger l)
  | replace {old configuration : Value} (object : old.isObject = true)
      (normal : normalizeConfigurationReplacement r.configuration old = .ok configuration) :
      Applied r inp (.replace old) .unit (.settle []) (r.withConfiguration configuration)
  | replaceMetadata {metadata : JsonMap} {old new : PersistedConfiguration} {migrated : Bool}
      (parsed : PersistedConfiguration.parseAndMigrate r.configuration = .ok (old, migrated))
      (replaced : old.replaceMetadata metadata = .ok new) :
      Applied r inp (.replaceMetadata metadata) (.metadata metadata) (.settle [])
        (r.withConfiguration new.intoValue)
  | acknowledge {expected : Nat} {ids : List String} {s : RecoverySnapshot} {l : Ledger}
      (change : Ledger.Change r.revision r.ledger .acknowledge l) :
      Applied r inp (.acknowledge expected ids) (.snapshot s) .acknowledge (r.withLedger l)
  | detach {l : Ledger} (settles : Lts.Run Ledger.Settle r.ledger r.activeTurns l) :
      Applied r inp .detach .unit (.settle r.activeTurns)
        ((r.withLedger l).dropLease.markDetached inp.detachNow)

theorem apply_effect {r r' : SessionRecord} {inp : Inputs} {action : Action} {response : Response}
    (hlive : r.forgotten = false) (haction : action ≠ .record)
    (h : apply r inp action = .ok (response, r')) :
    ∃ label, Applied r inp action response label r' := by
  cases action with
  | record => exact absurd rfl haction
  | begin params snapshot options =>
    obtain ⟨⟨accepted, r₁⟩, hb, h⟩ := bind_ok h
    cases h
    obtain ⟨rfl, rfl, hf⟩ | ⟨rfl, ht, l, hl, rfl⟩ := begin_change hb
    · exact ⟨_, .repeated hf⟩
    · exact ⟨_, .accepted ht hl⟩
  | commit turn op =>
    obtain ⟨⟨item, r₁⟩, hm, h⟩ := bind_ok h
    cases h
    obtain ⟨l, hl, rfl⟩ := mutate_change hm
    exact ⟨_, .commit hl⟩
  | finalize turn candidate =>
    obtain ⟨⟨f, r₁⟩, hf, h⟩ := bind_ok h
    cases h
    obtain ⟨turns, l, hl, rfl⟩ := finalize_change r.revision hf
    exact ⟨_, .finalize hl⟩
  | replace configuration =>
    obtain ⟨-, h⟩ := refuse_bind_ok h
    obtain ⟨hobj, h⟩ := refuse_bind_ok h
    obtain ⟨c, hc, h⟩ := bind_ok h
    cases h
    exact ⟨_, .replace (by simpa using hobj) hc⟩
  | replaceMetadata metadata =>
    obtain ⟨⟨c, migrated⟩, hp, h⟩ := bind_ok h
    obtain ⟨c', hr, h⟩ := bind_ok h
    cases h
    exact ⟨_, .replaceMetadata hp hr⟩
  | acknowledge expected ids =>
    obtain ⟨-, h⟩ := refuse_bind_ok h
    obtain ⟨-, h⟩ := refuse_bind_ok h
    obtain ⟨-, h⟩ := refuse_bind_ok h
    cases h
    exact ⟨_, .acknowledge .acknowledge⟩
  | detach =>
    obtain ⟨⟨changed, r₁⟩, hr, h⟩ := bind_ok h
    cases h
    obtain ⟨-, l, hl, rfl⟩ := recover_settles hr hlive
    exact ⟨_, .detach hl⟩

omit [External] in
theorem lease_holds_iff {l : Lease} {r : SessionRecord} : l.holds r = true ↔
    r.epoch = l.epoch ∧ r.owner = l.owner ∧ r.threadId = l.thread ∧ r.owner.isSome ∧
      r.forgotten = false := by
  simp only [Lease.holds, Bool.and_eq_true, beq_iff_eq, Bool.not_eq_true', and_assoc]

omit [External] in
theorem submission_some {expected : Nat} {x : Except StoreError (Option SessionRecord)}
    {s : Submission} (h : submission expected x = some s) :
    ∃ new, x = .ok (some new) ∧ s = ⟨expected, new, none⟩ := by
  unfold submission at h
  split at h
  · cases h; exact ⟨_, rfl, rfl⟩
  · cases h
  · cases h

/-- The worker past the lease check, for a command other than `Record`. -/
theorem afterLoad_holds {lease : Lease} {inp : Inputs} {action : Action} {r : SessionRecord}
    (hl : lease.holds r = true) (ha : action ≠ .record) :
    afterLoad lease inp action (.ok (some r)) =
      match apply r inp action with
      | .error e => .answer (.error e) none
      | .ok (response, r') =>
        match checkedSucc r.revision with
        | none => .answer (.error .conflict) none
        | some next => .exchange r.revision (written r' inp next) response := by
  have hheld : ¬ (!lease.holds r) = true := by simp [hl]
  cases action with
  | record => exact absurd rfl ha
  | _ => exact if_neg hheld

/-- A journal command that reaches its exchange: the lease holds and the record is applied to. -/
theorem journal_submit {lease : Lease} {inp : Inputs} {action : Action} {r : SessionRecord}
    {s : Submission} (h : (Writer.journal lease inp action).submit r = some s) :
    lease.holds r = true ∧ action ≠ .record ∧ ∃ response r₁ next,
      apply r inp action = .ok (response, r₁) ∧ checkedSucc r.revision = some next ∧
      s = ⟨r.revision, written r₁ inp next, some response⟩ := by
  have h : (afterLoad lease inp action (.ok (some r))).submission = some s := h
  cases hl : lease.holds r with
  | false => simp [afterLoad, hl, Loaded.submission] at h
  | true =>
    have ha : action ≠ .record := fun ha => by
      simp [afterLoad, hl, ha, Loaded.submission] at h
    rw [afterLoad_holds hl ha] at h
    cases happ : apply r inp action with
    | error e => simp [happ, Loaded.submission] at h
    | ok p =>
      obtain ⟨response, r₁⟩ := p
      cases hn : checkedSucc r.revision with
      | none => simp [happ, hn, Loaded.submission] at h
      | some next =>
        simp only [happ, hn, Loaded.submission, Option.some.injEq] at h
        exact ⟨rfl, ha, response, r₁, next, rfl, rfl, h.symm⟩

/-! ## Attachment and retirement -/

theorem authenticated_ok {key : RecoveryKey} {stored : Option SessionRecord} {r : SessionRecord}
    (h : authenticated key stored = .ok r) : stored = some r ∧ Valid r ∧
      r.recoveryId = key.recoveryId ∧ digest key.secret = r.secretDigest := by
  obtain ⟨_, -, h⟩ := bind_ok h
  obtain ⟨r', hr, h⟩ := orElse_bind_ok h
  obtain ⟨_, hk, h⟩ := bind_ok h
  obtain ⟨_, hv, h⟩ := bind_ok h
  cases h
  obtain ⟨_, -, hk⟩ := bind_ok hk
  have hk := refuse_ok hk
  simp only [Bool.or_eq_false_iff, bne_eq_false_iff_eq] at hk
  exact ⟨hr, validate_ok_iff.1 hv, hk.1, hk.2⟩

theorem attach_submit {key : RecoveryKey} {expected now : Nat} {configuration : Value}
    {owner thread : String} {r : SessionRecord} {s : Submission}
    (h : (Writer.attach key expected configuration owner thread now).submit r = some s) :
    Valid r ∧ r.forgotten = false ∧ r.owner = none ∧ blank owner = false ∧ blank thread = false ∧
      thread ∉ r.historicalThreadIds ∧ ∃ parsed epoch revision,
      parseVersionedConfiguration r.configuration = .ok parsed ∧
      checkedSucc r.epoch = some epoch ∧ checkedSucc r.revision = some revision ∧
      s = ⟨r.revision, (attachedRecord r (migratedConfiguration r.configuration parsed) owner thread
        now epoch).withRevision revision, none⟩ := by
  obtain ⟨new, hn, rfl⟩ := submission_some h
  cases ha : attachReplacement key expected configuration owner thread now (some r) with
  | error e => rw [ha] at hn; cases hn
  | ok new' =>
    rw [ha] at hn
    cases hn
    obtain ⟨_, hid, ha⟩ := bind_ok ha
    obtain ⟨r', hauth, ha⟩ := bind_ok ha
    obtain ⟨hr, hv, -, -⟩ := authenticated_ok hauth
    cases hr
    obtain ⟨hlive, ha⟩ := refuse_bind_ok ha
    obtain ⟨hown, ha⟩ := refuse_bind_ok ha
    obtain ⟨hrev, ha⟩ := refuse_bind_ok ha
    obtain ⟨parsed, hp, ha⟩ := bind_ok ha
    obtain ⟨_, -, ha⟩ := bind_ok ha
    obtain ⟨hfresh, ha⟩ := refuse_bind_ok ha
    obtain ⟨epoch, he, ha⟩ := orElse_bind_ok ha
    obtain ⟨revision, hnext, ha⟩ := orElse_bind_ok ha
    cases ha
    obtain ⟨hid, -⟩ := Bool.or_eq_false_iff.1 (refuse_ok hid)
    obtain ⟨howner, hthread⟩ := Bool.or_eq_false_iff.1 hid
    obtain ⟨-, hfresh⟩ := Bool.or_eq_false_iff.1 hfresh
    obtain rfl : r.revision = expected := by simpa using hrev
    exact ⟨hv, hlive, by simpa using hown, howner, hthread, by simpa using hfresh, parsed, epoch,
      revision, hp, he, hnext, rfl⟩

/-- `forget` and `retire_detached` submit the retired record. -/
theorem retire_submit {w : Writer} {r : SessionRecord} {s : Submission} (hw : w.keeps = false)
    (h : w.submit r = some s) :
    Valid r ∧ r.forgotten = false ∧ r.owner = none ∧ ∃ now reason revision,
      checkedSucc r.revision = some revision ∧
      s = ⟨r.revision, (r.retire now reason).withRevision revision, none⟩ := by
  cases w with
  | journal => cases hw
  | attach => cases hw
  | opened => cases hw
  | forget key expected now =>
    obtain ⟨new, hn, rfl⟩ := submission_some h
    obtain ⟨r', hauth, hn⟩ := bind_ok hn
    obtain ⟨hr, hv, -, -⟩ := authenticated_ok hauth
    cases hr
    cases hf : r.forgotten with
    | true => simp [hf] at hn
    | false =>
      rw [if_neg (by simp [hf])] at hn
      obtain ⟨hown, hn⟩ := refuse_bind_ok hn
      obtain ⟨hrev, hn⟩ := refuse_bind_ok hn
      obtain ⟨revision, hnext, hn⟩ := orElse_bind_ok hn
      cases hn
      obtain rfl : r.revision = expected := by simpa using hrev
      exact ⟨hv, rfl, by simpa using hown, now, _, revision, hnext, rfl⟩
  | retire id expected now reason =>
    obtain ⟨new, hn, rfl⟩ := submission_some h
    obtain ⟨_, hv, hn⟩ := bind_ok hn
    obtain ⟨hrev, hn⟩ := refuse_bind_ok hn
    cases hf : r.forgotten with
    | true => simp [hf] at hn
    | false =>
      rw [if_neg (by simp [hf])] at hn
      obtain ⟨hown, hn⟩ := refuse_bind_ok hn
      obtain ⟨-, hn⟩ := refuse_bind_ok hn
      obtain ⟨-, hn⟩ := refuse_bind_ok hn
      obtain ⟨revision, hnext, hn⟩ := orElse_bind_ok hn
      cases hn
      obtain rfl : r.revision = expected := by simpa using hrev
      simp only [Bool.or_eq_false_iff, Option.isSome_eq_false_iff, Option.isNone_iff_eq_none] at hown
      exact ⟨validate_ok_iff.1 hv, rfl, hown.1, now, reason, revision, hnext, rfl⟩

/-! ## Opening -/

omit [External] in
@[simp] theorem migrateRetention_ledger (r : SessionRecord) (now : Nat) :
    (r.migrateRetention now).2.ledger = r.ledger := by
  unfold SessionRecord.migrateRetention; split <;> rfl

omit [External] in
@[simp] theorem migrateRetention_forgotten (r : SessionRecord) (now : Nat) :
    (r.migrateRetention now).2.forgotten = r.forgotten := by
  unfold SessionRecord.migrateRetention; split <;> rfl

omit [External] in
@[simp] theorem migrateRetention_owner (r : SessionRecord) (now : Nat) :
    (r.migrateRetention now).2.owner = r.owner := by
  unfold SessionRecord.migrateRetention; split <;> rfl

omit [External] in
@[simp] theorem migrateRetention_fst (r : SessionRecord) (now : Nat) :
    (r.migrateRetention now).1 = (r.schemaVersion == 1) := by
  unfold SessionRecord.migrateRetention
  cases h : r.schemaVersion == 1 with
  | true => simp at h; simp [h]
  | false => simp at h; simp [h]

omit [External] in
theorem activeTurns_eq {r r' : SessionRecord} (h : r'.ledger = r.ledger) :
    r'.activeTurns = r.activeTurns := by
  have hr : r'.runs = r.runs := congrArg Ledger.runs h
  simp only [SessionRecord.activeTurns, hr]

/-- The record `open` settles: migrated, with the same ledger. -/
def migrated (r : SessionRecord) (configuration : Value) (now : Nat) : SessionRecord :=
  ((r.withConfiguration configuration).migrateRetention now).2

/-- The record `open` leaves of a live one, before its revision. -/
def openedRecord (r : SessionRecord) (configuration : Value) (now : Nat) (l : Ledger) :
    SessionRecord :=
  let detached := ((migrated r configuration now).withLedger l).dropLease
  if r.owner.isSome then detached.markDetached now else detached

/-- Whether `open` changes a live record. -/
def needsOpening (r : SessionRecord) (parsed : Option (PersistedConfiguration × Bool)) : Bool :=
  parsed.any (·.2) || r.schemaVersion == 1 || (r.owner.isSome || !r.activeTurns.isEmpty)

omit [External] in
@[simp] theorem migrated_ledger (r : SessionRecord) (configuration : Value) (now : Nat) :
    (migrated r configuration now).ledger = r.ledger := migrateRetention_ledger _ _

omit [External] in
@[simp] theorem migrated_forgotten (r : SessionRecord) (configuration : Value) (now : Nat) :
    (migrated r configuration now).forgotten = r.forgotten := migrateRetention_forgotten _ _

omit [External] in
@[simp] theorem migrated_owner (r : SessionRecord) (configuration : Value) (now : Nat) :
    (migrated r configuration now).owner = r.owner := migrateRetention_owner _ _

/-- The configuration part of `open`. -/
theorem migrateConfiguration_live {r : SessionRecord} (hlive : r.forgotten = false)
    {parsed : Option (PersistedConfiguration × Bool)}
    (hparsed : parseVersionedConfiguration r.configuration = .ok parsed) :
    migrateConfiguration r = .ok (parsed.any (·.2),
      r.withConfiguration (migratedConfiguration r.configuration parsed)) := by
  rw [migrateConfiguration, if_neg (by simp [hlive]), hparsed, ok_bind]
  cases parsed with
  | none => rfl
  | some p =>
    obtain ⟨c, m⟩ := p
    cases m <;> rfl

/-- What `open` does with a live record, given the settlement of its active runs. -/
theorem openReplacement_live {r : SessionRecord} (now : Nat) (hv : Valid r)
    (hlive : r.forgotten = false) {parsed : Option (PersistedConfiguration × Bool)}
    (hparsed : parseVersionedConfiguration r.configuration = .ok parsed) :
    openReplacement now r =
      ((migrated r (migratedConfiguration r.configuration parsed) now).recoverTurns r.activeTurns
        >>= fun r₁ =>
        if needsOpening r parsed then
          orElse (checkedSucc r.revision) .conflict >>= fun next =>
            .ok (some ((if r.owner.isSome then r₁.dropLease.markDetached now
              else r₁.dropLease).withRevision next))
        else .ok none) := by
  have hrecover : (migrated r (migratedConfiguration r.configuration parsed) now).recover =
      ((migrated r (migratedConfiguration r.configuration parsed) now).recoverTurns r.activeTurns
        >>= fun r₁ => .ok (r.owner.isSome || !r.activeTurns.isEmpty, r₁.dropLease)) := by
    rw [SessionRecord.recover, if_neg (by simp [hlive]), activeTurns_eq (migrated_ledger _ _ _),
      migrated_owner]
  rw [openReplacement, validate_ok_iff.2 hv, ok_bind, migrateConfiguration_live hlive hparsed,
    ok_bind]
  have hm : ((r.withConfiguration (migratedConfiguration r.configuration parsed)).migrateRetention
      now).2 = migrated r (migratedConfiguration r.configuration parsed) now := rfl
  simp only [hm, hrecover, migrateRetention_fst, migrated_owner, needsOpening]
  cases (migrated r (migratedConfiguration r.configuration parsed) now).recoverTurns
    r.activeTurns with
  | error e => rfl
  | ok r₁ => rfl

/-- What `open` submits for a live record. -/
theorem opened_live {r new : SessionRecord} {now : Nat} (hlive : r.forgotten = false)
    (h : openReplacement now r = .ok (some new)) :
    Valid r ∧ ∃ parsed l next, parseVersionedConfiguration r.configuration = .ok parsed ∧
      Lts.Run Ledger.Settle r.ledger r.activeTurns l ∧ checkedSucc r.revision = some next ∧
      new = (openedRecord r (migratedConfiguration r.configuration parsed) now l).withRevision
        next := by
  have hv : Valid r := by
    obtain ⟨_, hv, -⟩ := bind_ok h
    exact validate_ok_iff.1 hv
  have hparses : Parses r.configuration := by
    obtain ⟨_, -, h⟩ := bind_ok h
    obtain ⟨_, hcm, -⟩ := bind_ok h
    rw [migrateConfiguration, if_neg (by simp [hlive])] at hcm
    obtain ⟨parsed, hp, -⟩ := bind_ok hcm
    exact ⟨parsed, hp⟩
  obtain ⟨parsed, hp⟩ := hparses
  rw [openReplacement_live now hv hlive hp] at h
  obtain ⟨r₁, hturns, h⟩ := bind_ok h
  have hact := activeTurns_eq (migrated_ledger r (migratedConfiguration r.configuration parsed) now)
  rw [← hact] at hturns
  obtain ⟨l, hl, rfl⟩ :=
    recoverTurns_settles (fun _ => mem_activeTurns.1) (nodup_activeTurns _) hturns
  rw [hact, migrated_ledger] at hl
  split at h
  · obtain ⟨next, hnext, h⟩ := orElse_bind_ok h
    cases h
    exact ⟨hv, parsed, l, next, hp, hl, hnext, rfl⟩
  · cases h

/-- What `open` submits for a tombstone: its schema migration. -/
theorem opened_tombstone {r new : SessionRecord} {now : Nat} (hf : r.forgotten = true)
    (h : openReplacement now r = .ok (some new)) :
    Valid r ∧ r.schemaVersion = 1 ∧ ∃ next, checkedSucc r.revision = some next ∧
      new = (r.migrateRetention now).2.withRevision next := by
  obtain ⟨_, hv, h⟩ := bind_ok h
  have hv := validate_ok_iff.1 hv
  rw [migrateConfiguration, if_pos hf, ok_bind] at h
  simp only [SessionRecord.recover, migrateRetention_forgotten, hf, if_true, ok_bind,
    migrateRetention_fst, migrateRetention_owner, (hv.tombstone hf).1, Option.isSome_none,
    Bool.false_eq_true, if_false, Bool.false_or, Bool.or_false] at h
  split at h
  · rename_i hs
    obtain ⟨next, hnext, h⟩ := orElse_bind_ok h
    cases h
    exact ⟨hv, by simpa using hs, next, hnext, rfl⟩
  · cases h

/-! ## One step of the ledger machine -/

/-- The turn a call accepted, if it accepted one. -/
def Committed.accepted : Committed → Option String
  | (.journal _ _ (.begin params _ _), some (.bool true)) => some params.turnId
  | _ => none

/-- The turn a step accepts. -/
def Ledger.Label.accepted : Ledger.Label → Option String
  | .accept params => some params.turnId
  | _ => none

/-- The turn and the usage of a `ModelStepFinished` the call commits. -/
def Committed.finished : Committed → Option (String × UsageMetrics)
  | (.journal _ _ (.commit turn (.modelStepFinished _ usage)), _) => some (turn, usage)
  | _ => none

/-- The turn and the usage of the model step a step finishes. -/
def Ledger.Label.finished : Ledger.Label → Option (String × UsageMetrics)
  | .update turn _ (.modelStepFinished _ usage) => some (turn, usage)
  | _ => none

omit [External] in
@[simp] theorem openedRecord_ledger (r : SessionRecord) (configuration : Value) (now : Nat)
    (l : Ledger) : (openedRecord r configuration now l).ledger = l := by
  unfold openedRecord
  dsimp only
  split <;> rfl

/-- A write that keeps its record takes one step of the ledger machine. -/
theorem Keep.change {r r' : SessionRecord} {c : Committed} (h : Keep r c r') :
    ∃ label, Ledger.Change r.revision r.ledger label r'.ledger ∧ label.accepted = c.accepted ∧
      label.finished = c.finished := by
  obtain ⟨⟨-, hsub, -⟩, hkeep⟩ := h
  obtain ⟨w, response⟩ := c
  cases w with
  | journal lease inp action =>
    obtain ⟨hholds, haction, response', r₁, next, happly, -, hs⟩ := journal_submit hsub
    cases hs
    obtain ⟨-, -, -, -, hlive⟩ := lease_holds_iff.1 hholds
    obtain ⟨label, happlied⟩ := apply_effect hlive haction happly
    cases happlied with
    | accepted thread change => exact ⟨_, change, rfl, rfl⟩
    | repeated found => exact ⟨_, .keep _ _, rfl, rfl⟩
    | @commit turn op item l change =>
      refine ⟨_, change, rfl, ?_⟩
      cases op <;> rfl
    | finalize change => exact ⟨_, change, rfl, rfl⟩
    | replace object normal => exact ⟨_, .keep _ _, rfl, rfl⟩
    | replaceMetadata parsed replaced => exact ⟨_, .keep _ _, rfl, rfl⟩
    | acknowledge change => exact ⟨_, change, rfl, rfl⟩
    | detach settles => exact ⟨_, .settle settles, rfl, rfl⟩
  | attach key expected configuration owner thread now =>
    obtain ⟨-, -, -, -, -, -, parsed, epoch, revision, -, -, -, hs⟩ := attach_submit hsub
    cases hs
    exact ⟨_, .keep _ _, rfl, rfl⟩
  | forget => cases hkeep
  | retire => cases hkeep
  | opened id now =>
    obtain ⟨new, hn, hs⟩ := submission_some hsub
    cases hs
    cases hf : r.forgotten with
    | false =>
      obtain ⟨-, parsed, l, next, -, hl, -, rfl⟩ := opened_live hf hn
      refine ⟨.settle r.activeTurns, ?_, rfl, rfl⟩
      show Ledger.Change _ _ _ (openedRecord ..).ledger
      rw [openedRecord_ledger]
      exact .settle hl
    | true =>
      obtain ⟨-, -, next, -, rfl⟩ := opened_tombstone hf hn
      refine ⟨.settle [], ?_, rfl, rfl⟩
      show Ledger.Change _ _ _ (r.migrateRetention now).2.ledger
      rw [migrateRetention_ledger]
      exact .keep _ _

end

end Whale
