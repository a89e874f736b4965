import Whale.Store.Proof.Sound

/-!
# The writers' replacements meet the store's checks

For every shape of replacement (an edited record, a detached one, an attached one, a tombstone, a
record as `open` leaves it) the conditions under which `validate_replace` accepts it.
-/

namespace Whale

open Check

/-! ## Timestamps -/

theorem timeLt_self (t : Option Nat) : timeLt t t = false := by
  cases t <;> simp [timeLt]

/-- Touching a record does not move its timestamp below a bound it was not below. -/
theorem timeLt_touch {r : SessionRecord} {now : Nat} {t : Option Nat}
    (h : timeLt r.updatedAtMs t = false) : timeLt (r.touch now).updatedAtMs t = false := by
  cases t with
  | none => rfl
  | some t =>
    cases hu : r.updatedAtMs with
    | none => simp [hu, timeLt] at h
    | some u =>
      simp only [hu, timeLt, decide_eq_false_iff_not, not_lt] at h
      simp only [SessionRecord.touch, hu, Option.getD_some, timeLt, decide_eq_false_iff_not, not_lt]
      exact h.trans (le_max_right _ _)

theorem touch_updated (r : SessionRecord) (now : Nat) : (r.touch now).updatedAtMs.isSome := rfl

namespace Ledger

theorem Ok.mono {revision revision' : Nat} {l : Ledger} (h : l.Ok revision)
    (hle : revision ≤ revision') : l.Ok revision' :=
  { h with
    steps := fun run hr => { h.steps run hr with
      revision := fun s hs => ((h.steps run hr).revision s hs).trans hle } }

/-- Settling every active run leaves none. -/
theorem settles_idle {l l' : Ledger} {turns : List String} (h : Lts.Run Settle l turns l')
    (hall : ∀ turn run, l.runs.get? turn = some run → run.snapshot.status.isTerminal = false →
      turn ∈ turns) : l'.Idle := by
  induction h with
  | nil l =>
    intro run hr
    obtain ⟨turn, ht⟩ := OrdMap.mem_values_iff.1 hr
    cases hs : run.snapshot.status.isTerminal with
    | true => rfl
    | false => exact absurd (hall turn run ht hs) (by simp)
  | @cons l l₁ l₂ t ts hs _ ih =>
    refine ih fun turn run hr ha => ?_
    by_cases he : t = turn
    · obtain ⟨run', hr', ht'⟩ := hs.terminal
      rw [he, hr] at hr'
      cases hr'
      rw [ha] at ht'
      cases ht'
    · rw [hs.get?_ne he] at hr
      rcases List.mem_cons.1 (hall turn run hr ha) with h | h
      · exact absurd h.symm he
      · exact h

end Ledger

theorem active_settled {r : SessionRecord} {l : Ledger}
    (h : Lts.Run Ledger.Settle r.ledger r.activeTurns l) : l.Idle :=
  Ledger.settles_idle h fun _ run hr ha => mem_activeTurns.2 ⟨run, hr, ha⟩

section
variable [External]

/-! ## Edited records -/

theorem edited_replaces {r : SessionRecord} {l : Ledger} {configuration : Value} {next : Nat}
    (now : Nat) (v : Valid r) (hlive : r.forgotten = false) (howner : r.owner.isSome) (hok : l.Ok r.revision)
    (hext : r.ledger.Extends l) (hobj : configuration.isObject = true)
    (hnext : checkedSucc r.revision = some next) :
    Replaces r r.recoveryId r.revision
      ((((r.withLedger l).withConfiguration configuration).touch now).withRevision next) := by
  obtain ⟨hn, -⟩ := checkedSucc_some hnext
  refine
    { valid := ?_, read := rfl, id := rfl, digest := rfl, revision := hnext, epoch := le_refl _
      tombstone := fun h => by rw [hlive] at h; cases h
      retention := fun hs => ⟨hs, rfl, timeLt_touch (timeLt_self _)⟩
      live := fun _ => ⟨hext, List.prefix_refl _, fun _ _ => rfl, fun hd => ?_, fun _ _ => rfl⟩ }
  · exact
      { v with
        revision := by
          show next ≠ 0
          omega
        configuration := hobj
        retention := fun hs =>
          let ret := v.retention hs
          ⟨ret.created, timeLt_touch ret.ordered, ret.attached, ret.detached, ret.retired, ret.reason⟩
        tombstone := fun h => by
          have h : r.forgotten = true := h
          rw [hlive] at h
          cases h
        attached := fun _ => howner
        ledger := hok.mono (by show r.revision ≤ next; omega) }
  · rcases hd with hd | hd <;> exact absurd rfl hd

theorem detached_replaces {r : SessionRecord} {l : Ledger} {next : Nat} (now now' : Nat) (v : Valid r)
    (hlive : r.forgotten = false) (hok : l.Ok r.revision) (hext : r.ledger.Extends l)
    (hidle : l.Idle) (hnext : checkedSucc r.revision = some next) :
    Replaces r r.recoveryId r.revision
      ((((r.withLedger l).dropLease.markDetached now).touch now').withRevision next) := by
  obtain ⟨hn, -⟩ := checkedSucc_some hnext
  refine
    { valid := ?_, read := rfl, id := rfl, digest := rfl, revision := hnext, epoch := le_refl _
      tombstone := fun h => by rw [hlive] at h; cases h
      retention := fun hs => ⟨hs, rfl, timeLt_touch (timeLt_touch (timeLt_self _))⟩
      live := fun _ => ⟨hext, List.prefix_refl _, fun _ _ => rfl, fun _ h => (nomatch h),
        fun _ _ => rfl⟩ }
  exact
    { v with
      revision := by
        show next ≠ 0
        omega
      lease := rfl
      retention := fun hs =>
        let ret := v.retention hs
        ⟨ret.created, timeLt_touch (timeLt_touch ret.ordered), fun h => (nomatch h), fun _ _ => rfl,
          ret.retired, ret.reason⟩
      tombstone := fun h => by
        have h : r.forgotten = true := h
        rw [hlive] at h
        cases h
      owner := fun o ho => (nomatch ho)
      thread := fun t ht => (nomatch ht)
      attached := fun h => by
        have := active_eq_false_iff.2 (show (r.withLedger l).ledger.Idle from hidle)
        exact absurd (this.symm.trans h) (by simp)
      ledger := hok.mono (by show r.revision ≤ next; omega) }

/-! ## Attached records -/

omit [External] in
theorem migratedConfiguration_isObject {configuration : Value}
    (parsed : Option (PersistedConfiguration × Bool)) (h : configuration.isObject = true) :
    (migratedConfiguration configuration parsed).isObject = true := by
  unfold migratedConfiguration
  split
  · rfl
  · exact h

theorem migratedConfiguration_parses {configuration : Value}
    {parsed : Option (PersistedConfiguration × Bool)}
    (h : parseVersionedConfiguration configuration = .ok parsed) :
    parseVersionedConfiguration (migratedConfiguration configuration parsed) =
      .ok (parsed.map fun p => (p.1, false)) := by
  cases parsed with
  | none => exact h
  | some p =>
    obtain ⟨c, m⟩ := p
    cases m with
    | true => exact parseVersioned_intoValue (parseVersioned_some h)
    | false => exact h

theorem attached_replaces {r : SessionRecord} {configuration : Value} {owner thread : String}
    {epoch next : Nat} (now : Nat) (v : Valid r) (hlive : r.forgotten = false) (howner : r.owner = none)
    (hself : ∀ run ∈ r.runs.values, (run.params == run.params) = true)
    (hobj : configuration.isObject = true) (ho : blank owner = false) (ht : blank thread = false)
    (hfresh : thread ∉ r.historicalThreadIds) (hepoch : checkedSucc r.epoch = some epoch)
    (hnext : checkedSucc r.revision = some next) :
    Replaces r r.recoveryId r.revision
      ((attachedRecord r configuration owner thread now epoch).withRevision next) := by
  obtain ⟨hn, -⟩ := checkedSucc_some hnext
  obtain ⟨he, -⟩ := checkedSucc_some hepoch
  have hthread : r.threadId = none := by
    have := v.lease
    rw [howner] at this
    simpa using this.symm
  refine
    { valid := ?_, read := rfl, id := rfl, digest := rfl, revision := hnext
      epoch := by show r.epoch ≤ epoch; omega
      tombstone := fun h => by rw [hlive] at h; cases h
      retention := fun hs => ⟨hs, rfl, timeLt_touch (timeLt_self _)⟩
      live := fun _ =>
        ⟨(Ledger.Grows.refl r.ledger).extends v.ledger hself, List.prefix_append _ _,
          fun h => ?_, fun _ _ => ⟨howner, hepoch⟩, fun _ h => (nomatch h)⟩ }
  · exact
      { v with
        revision := by
          show next ≠ 0
          omega
        lease := rfl
        configuration := hobj
        epoch := by
          show epoch ≠ 0
          omega
        retention := fun hs =>
          let ret := v.retention hs
          ⟨ret.created, timeLt_touch ret.ordered, fun _ => rfl, fun _ h => (nomatch h), ret.retired,
            ret.reason⟩
        tombstone := fun h => by
          have h : r.forgotten = true := h
          rw [hlive] at h
          cases h
        owner := fun o h => by cases h; exact ho
        thread := fun t h => by cases h; exact ⟨ht, List.mem_append_right _ List.mem_cons_self⟩
        attached := fun _ => rfl
        threadsNamed := fun id hid => by
          rcases List.mem_append.1 hid with hid | hid
          · exact v.threadsNamed id hid
          · rw [List.mem_singleton.1 hid]; exact ne_empty_of_not_blank ht
        threadsDistinct := by
          show (r.historicalThreadIds ++ [thread]).Nodup
          rw [List.nodup_append_comm, List.singleton_append, List.nodup_cons]
          exact ⟨hfresh, v.threadsDistinct⟩
        ledger := v.ledger.mono (by show r.revision ≤ next; omega) }
  · have h : some owner = r.owner := h
    rw [howner] at h
    cases h

/-! ## Tombstones -/

omit [External] in
theorem empty_ledger_ok (revision : Nat) : Ledger.Ok revision ⟨[], .empty, []⟩ where
  history := .nil
  runs := fun _ _ h => (nomatch h)
  steps := fun _ h => (nomatch h)
  calls := fun _ h => (nomatch h)
  results := fun _ h => (nomatch h)
  callIds := .nil
  executionIds := .nil
  resultIds := .nil
  unknownIds := .nil
  unknown := fun _ h => (nomatch h)

theorem retired_replaces {r : SessionRecord} {next : Nat} (now : Nat) (reason : String) (v : Valid r)
    (hlive : r.forgotten = false) (howner : r.owner = none)
    (hnext : checkedSucc r.revision = some next) :
    Replaces r r.recoveryId r.revision ((r.retire now reason).withRevision next) := by
  obtain ⟨hn, -⟩ := checkedSucc_some hnext
  have hthread : r.threadId = none := by
    have := v.lease
    rw [howner] at this
    simpa using this.symm
  refine
    { valid := ?_, read := rfl, id := rfl, digest := rfl, revision := hnext, epoch := le_refl _
      tombstone := fun h => by rw [hlive] at h; cases h
      retention := fun hs => ⟨hs, rfl, timeLt_touch (timeLt_self _)⟩
      live := fun h => (nomatch h) }
  exact
    { v with
      revision := by
        show next ≠ 0
        omega
      configuration := rfl
      retention := fun hs =>
        let ret := v.retention hs
        ⟨ret.created, timeLt_touch ret.ordered, fun _ => rfl, fun h => (nomatch h), rfl, rfl⟩
      tombstone := fun _ => ⟨howner, rfl, rfl, rfl⟩
      owner := fun o ho => by rw [show r.owner = some o from ho] at howner; cases howner
      thread := fun t ht => by rw [show r.threadId = some t from ht] at hthread; cases hthread
      attached := fun h => (nomatch h)
      threadsNamed := fun _ h => (nomatch h)
      threadsDistinct := .nil
      ledger := empty_ledger_ok _ }

/-! ## Opened records -/

omit [External] in
/-- What the retention migration leaves of a live record, by schema. -/
theorem migrated_cases {r : SessionRecord} (configuration : Value) (now : Nat)
    (hschema : r.schemaVersion = 1 ∨ r.schemaVersion = 2) (hlive : r.forgotten = false) :
    (r.schemaVersion = 2 ∧ migrated r configuration now = r.withConfiguration configuration) ∨
    (r.schemaVersion = 1 ∧ migrated r configuration now = { r with
      schemaVersion := 2, createdAtMs := some now, updatedAtMs := some now,
      detachedSinceMs := if r.owner.isNone then some now else none, retiredAtMs := none,
      retirementReason := none, configuration }) := by
  have hv : ((r.withConfiguration configuration).schemaVersion != 1) = (r.schemaVersion != 1) := rfl
  rcases hschema with h | h
  · refine .inr ⟨h, ?_⟩
    simp only [migrated, SessionRecord.migrateRetention, hv, h, bne_self_eq_false,
      Bool.false_eq_true, if_false]
    simp [SessionRecord.withConfiguration, hlive]
  · refine .inl ⟨h, ?_⟩
    simp [migrated, SessionRecord.migrateRetention, hv, h]

/-- The fields of an opened record that `open` does not touch. -/
structure OpenedFrame (r new : SessionRecord) (configuration : Value) (l : Ledger) : Prop where
  recoveryId : new.recoveryId = r.recoveryId
  secretDigest : new.secretDigest = r.secretDigest
  epoch : new.epoch = r.epoch
  threads : new.historicalThreadIds = r.historicalThreadIds
  forgotten : new.forgotten = false
  configuration : new.configuration = configuration
  ledger : new.ledger = l
  schema : new.schemaVersion = 2
  owner : new.owner = none
  threadId : new.threadId = none
  retention : RetentionOk new
  updated : r.schemaVersion = 2 → new.createdAtMs = r.createdAtMs ∧
    timeLt new.updatedAtMs r.updatedAtMs = false

theorem openedRecord_frame {r : SessionRecord} (v : Valid r) (hlive : r.forgotten = false)
    (configuration : Value) (now : Nat) (l : Ledger) :
    OpenedFrame r (openedRecord r configuration now l) configuration l := by
  have hretired : r.schemaVersion = 2 → r.retiredAtMs.isSome = false ∧
      r.retirementReason.isSome = false := fun hs => by
    have ret := v.retention hs
    exact ⟨ret.retired.symm.trans hlive, ret.reason.symm.trans hlive⟩
  unfold openedRecord
  rcases migrated_cases configuration now v.schema hlive with ⟨hs, hm⟩ | ⟨hs, hm⟩ <;> rw [hm]
  · have ret := v.retention hs
    obtain ⟨hr1, hr2⟩ := hretired hs
    cases ho : r.owner with
    | some o =>
      refine ⟨rfl, rfl, rfl, rfl, hlive, rfl, rfl, hs, rfl, rfl, ?_, fun _ => ⟨rfl, ?_⟩⟩
      · exact ⟨ret.created, timeLt_touch ret.ordered, fun h => (nomatch h), fun _ _ => rfl,
          hlive.trans hr1.symm, hlive.trans hr2.symm⟩
      · exact timeLt_touch (timeLt_self _)
    | none =>
      refine ⟨rfl, rfl, rfl, rfl, hlive, rfl, rfl, hs, rfl, rfl, ?_, fun _ => ⟨rfl, timeLt_self _⟩⟩
      exact ⟨ret.created, ret.ordered, fun h => (nomatch h), fun _ _ => ret.detached hlive ho,
        hlive.trans hr1.symm, hlive.trans hr2.symm⟩
  · have hne : ¬ r.schemaVersion = 2 := by omega
    cases ho : r.owner with
    | some o =>
      refine ⟨rfl, rfl, rfl, rfl, hlive, rfl, rfl, rfl, rfl, rfl, ?_, fun h => absurd h hne⟩
      exact ⟨rfl, timeLt_touch (timeLt_self _), fun h => (nomatch h), fun _ _ => rfl, hlive, hlive⟩
    | none =>
      refine ⟨rfl, rfl, rfl, rfl, hlive, rfl, rfl, rfl, rfl, rfl, ?_, fun h => absurd h hne⟩
      exact ⟨rfl, timeLt_self _, fun h => (nomatch h), fun _ _ => rfl, hlive, hlive⟩

theorem opened_replaces {r : SessionRecord} {configuration : Value} {l : Ledger} {next : Nat}
    (now : Nat) (v : Valid r) (hlive : r.forgotten = false) (hok : l.Ok r.revision)
    (hext : r.ledger.Extends l) (hidle : l.Idle) (hobj : configuration.isObject = true)
    (hnext : checkedSucc r.revision = some next) :
    Replaces r r.recoveryId r.revision
      ((openedRecord r configuration now l).withRevision next) := by
  obtain ⟨hn, -⟩ := checkedSucc_some hnext
  have f := openedRecord_frame v hlive configuration now l
  generalize openedRecord r configuration now l = new at f
  have hledger : (new.withRevision next).ledger = l := f.ledger
  refine
    { valid := ?_, read := rfl, id := f.recoveryId, digest := f.secretDigest, revision := hnext
      epoch := by show r.epoch ≤ new.epoch; rw [f.epoch]
      tombstone := fun h => by rw [hlive] at h; cases h
      retention := fun hs => ⟨f.schema, f.updated hs⟩
      live := fun _ => ⟨hledger ▸ hext, by show _ <+: new.historicalThreadIds; rw [f.threads],
        fun _ _ => f.epoch, fun _ h => ?_, fun _ _ => f.epoch⟩ }
  · exact
      { schema := .inr f.schema
        uuid := by show External.parseUuid new.recoveryId = true; rw [f.recoveryId]; exact v.uuid
        digestSize := by
          show new.secretDigest.utf8ByteSize = 64
          rw [f.secretDigest]; exact v.digestSize
        digestHex := by
          show allHexDigits new.secretDigest = true
          rw [f.secretDigest]; exact v.digestHex
        revision := by
          show next ≠ 0
          omega
        lease := by
          show new.owner.isSome = new.threadId.isSome
          rw [f.owner, f.threadId]
        configuration := by show new.configuration.isObject = true; rw [f.configuration]; exact hobj
        epoch := by show new.epoch ≠ 0; rw [f.epoch]; exact v.epoch
        retention := fun _ =>
          let ret := f.retention
          ⟨ret.created, ret.ordered, ret.attached, ret.detached, ret.retired, ret.reason⟩
        tombstone := fun h => by
          have h : new.forgotten = true := h
          rw [f.forgotten] at h
          cases h
        owner := fun o h => by
          have h : new.owner = some o := h
          rw [f.owner] at h
          cases h
        thread := fun t h => by
          have h : new.threadId = some t := h
          rw [f.threadId] at h
          cases h
        attached := fun h => by
          have := active_eq_false_iff.2 (hledger ▸ hidle)
          exact absurd (this.symm.trans h) (by simp)
        threadsNamed := by
          show ∀ id ∈ new.historicalThreadIds, id ≠ ""
          rw [f.threads]; exact v.threadsNamed
        threadsDistinct := by
          show new.historicalThreadIds.Nodup
          rw [f.threads]; exact v.threadsDistinct
        ledger := hledger ▸ hok.mono (by show r.revision ≤ next; omega) }
  · have h : new.owner.isSome := h
    rw [f.owner] at h
    cases h

omit [External] in
/-- A record without runs equals itself as JSON. -/
theorem jsonEq_self {r : SessionRecord} (h : r.runs.entries = []) : r.jsonEq r = true := by
  simp [SessionRecord.jsonEq, h, runsJsonEq]

theorem tombstone_replaces {r : SessionRecord} {next : Nat} (now : Nat) (v : Valid r)
    (hf : r.forgotten = true) (hs : r.schemaVersion = 1)
    (hnext : checkedSucc r.revision = some next) :
    Replaces r r.recoveryId r.revision ((r.migrateRetention now).2.withRevision next) := by
  obtain ⟨hn, -⟩ := checkedSucc_some hnext
  obtain ⟨howner, hhist, hruns, hunk⟩ := v.tombstone hf
  have hthread : r.threadId = none := by
    have := v.lease
    rw [howner] at this
    simpa using this.symm
  have hm : (r.migrateRetention now).2 = { r with
      schemaVersion := 2, createdAtMs := some now, updatedAtMs := some now, detachedSinceMs := none,
      retiredAtMs := some now, retirementReason := some "legacy_forget" } := by
    simp [SessionRecord.migrateRetention, hs, hf]
  refine
    { valid := ?_, read := rfl, id := by rw [hm]; rfl, digest := by rw [hm]; rfl, revision := hnext
      epoch := by rw [hm]; exact le_refl _
      tombstone := fun _ => ?_
      retention := fun h => by rw [hs] at h; cases h
      live := fun h => by rw [hm] at h; exact absurd (hf.symm.trans h) (by simp) }
  · rw [hm]
    exact
      { v with
        schema := .inr rfl
        revision := by
          show next ≠ 0
          omega
        retention := fun _ => ⟨rfl, timeLt_self _, fun _ => rfl,
          fun h => absurd (hf.symm.trans h) (by simp), hf, hf⟩
        ledger := v.ledger.mono (by show r.revision ≤ next; omega) }
  · have hcreated : ((r.migrateRetention now).2.withRevision next).createdAtMs = some now := by
      rw [hm]; rfl
    have hschema : ((r.migrateRetention now).2.withRevision next).schemaVersion = 2 := by
      rw [hm]; rfl
    have hentries : ((r.migrateRetention now).2.withRevision next).runs.entries = [] := by
      rw [hm]; exact hruns
    rw [isLegacyTombstoneMigration, hs, hschema, hcreated]
    exact jsonEq_self hentries

end

end Whale
