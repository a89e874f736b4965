import Whale.Store.Proof.Acceptance

/-!
# Recovery at open

`open` settles whatever it finds. For records whose ledgers can be settled (`Recoverable`) it never
fails, leaves every record detached and migrated (`Opened`), and finds nothing to do the next time
(`open_total_idempotent`).
-/

namespace Whale

open Check

/-! ## Settlement is total -/

/-- The run can be settled as interrupted. -/
structure Settleable (turn : String) (run : StoredRun) : Prop where
  active : run.snapshot.status.isTerminal = false
  thread : run.snapshot.threadId = run.params.threadId
  turn : run.snapshot.turnId = turn
  usage : ∃ total, UsageMetrics.checkedSum {} run.usages = some total

theorem finalize_interrupted {r : SessionRecord} {turn : String} {run : StoredRun}
    (found : r.runs.get? turn = some run) (h : Settleable turn run) :
    ∃ p, r.finalize turn (SessionRecord.interrupted run.snapshot) = .ok p := by
  obtain ⟨total, htotal⟩ := h.usage
  have hc : ((SessionRecord.interrupted run.snapshot).threadId != run.params.threadId ||
      (SessionRecord.interrupted run.snapshot).turnId != turn ||
      !(SessionRecord.interrupted run.snapshot).status.isTerminal) = false := by
    simp [SessionRecord.interrupted, h.thread, h.turn, RunStatus.isTerminal]
  rw [SessionRecord.finalize, found, orElse_some, ok_bind, if_neg (by simp [h.active]), hc,
    refuse_false, ok_bind]
  simp only [checkedUsage, htotal, orElse_some, ok_bind]
  exact ⟨_, rfl⟩

theorem recoverTurns_ok : ∀ {turns : List String} {r : SessionRecord},
    (∀ turn ∈ turns, ∃ run, r.runs.get? turn = some run ∧ Settleable turn run) → turns.Nodup →
    ∃ r', r.recoverTurns turns = .ok r'
  | [], r, _, _ => ⟨r, rfl⟩
  | turn :: turns, r, hall, hnd => by
    obtain ⟨hnot, hnd⟩ := List.nodup_cons.1 hnd
    obtain ⟨run, hrun, hset⟩ := hall turn List.mem_cons_self
    obtain ⟨⟨f, r₁⟩, hfin⟩ := finalize_interrupted hrun hset
    rw [SessionRecord.recoverTurns, hrun, orElse_some, ok_bind, hfin, ok_bind]
    refine recoverTurns_ok (fun t ht => ?_) hnd
    obtain ⟨x, hx, h⟩ := hall t (List.mem_cons_of_mem _ ht)
    have hne : turn ≠ t := fun he => hnot (he ▸ ht)
    obtain ⟨_, -, ⟨-, rfl⟩ | ⟨-, l, hl, rfl⟩⟩ := finalize_settle hfin
    · exact ⟨x, hx, h⟩
    · exact ⟨x, (hl.get?_ne hne).trans hx, h⟩

/-! ## One record -/

section
variable [External]

/-- What recovery needs of a record: `validate` accepts it, its configuration parses, the usages of
its runs sum within `u64`, its revision is not the last, no open call shares its result id with a
history item, and no temperature is a NaN. -/
structure Recoverable (r : SessionRecord) : Prop where
  valid : Valid r
  parses : Parses r.configuration
  usage : ∀ run ∈ r.runs.values, ∃ total, UsageMetrics.checkedSum {} run.usages = some total
  revision : r.revision < u64Max
  results : r.ledger.ResultsFresh
  params : ∀ run ∈ r.runs.values, run.params.nanTemperature = false

/-- The version of a versioned configuration is 3. -/
def VersionThree (configuration : Value) : Prop :=
  (configuration.get "version").isSome → configuration.get "version" = some (.number (.int 3))

/-- A record as `open` leaves it. -/
structure Opened (r : SessionRecord) : Prop where
  valid : Valid r
  schema : r.schemaVersion = 2
  owner : r.owner = none
  thread : r.threadId = none
  idle : r.ledger.Idle
  detached : r.forgotten = false → r.detachedSinceMs.isSome
  configuration : r.forgotten = false → ∃ c : Option PersistedConfiguration,
    parseVersionedConfiguration r.configuration = .ok (c.map (·, false))

omit [External] in
theorem activeTurns_nil {r : SessionRecord} (h : r.ledger.Idle) : r.activeTurns = [] := by
  refine List.eq_nil_iff_forall_not_mem.2 fun turn ht => ?_
  obtain ⟨run, hr, ha⟩ := mem_activeTurns.1 ht
  rw [h run (OrdMap.mem_values hr)] at ha
  cases ha

/-- `open` finds nothing to do for a record it has left. -/
theorem Opened.stable {r : SessionRecord} (h : Opened r) (now : Nat) :
    openReplacement now r = .ok none := by
  cases hf : r.forgotten with
  | true =>
    have hm : (r.migrateRetention now).2 = r := by
      simp [SessionRecord.migrateRetention, h.schema]
    simp [openReplacement, validate_ok_iff.2 h.valid, migrateConfiguration, hf, hm,
      SessionRecord.recover, h.schema]
  | false =>
    obtain ⟨c, hc⟩ := h.configuration hf
    rw [openReplacement_live now h.valid hf hc, activeTurns_nil h.idle]
    have hn : needsOpening r (c.map (·, false)) = false := by
      cases c <;> simp [needsOpening, h.schema, h.owner, activeTurns_nil h.idle]
    simp [SessionRecord.recoverTurns, hn]

/-- The active runs of a valid record whose usages sum within `u64` can be settled. -/
theorem Valid.settleable {r : SessionRecord} (hv : Valid r)
    (husage : ∀ run ∈ r.runs.values, ∃ total, UsageMetrics.checkedSum {} run.usages = some total) :
    ∀ turn ∈ r.activeTurns, ∃ run, r.runs.get? turn = some run ∧ Settleable turn run := by
  intro turn ht
  obtain ⟨run, hr, ha⟩ := mem_activeTurns.1 ht
  have hok := hv.ledger.runs turn run hr
  exact ⟨run, hr, ha, hok.thread.symm, hok.turn, husage run (OrdMap.mem_values hr)⟩

/-- The settlement `open` performs on a live recoverable record. -/
theorem Recoverable.settles {r : SessionRecord} (h : Recoverable r) (configuration : Value)
    (now : Nat) : ∃ l, (migrated r configuration now).recoverTurns r.activeTurns =
        .ok ((migrated r configuration now).withLedger l) ∧
      Lts.Run Ledger.Settle r.ledger r.activeTurns l := by
  have hturns := activeTurns_eq (migrated_ledger r configuration now)
  have hruns : (migrated r configuration now).runs = r.runs :=
    congrArg Ledger.runs (migrated_ledger r configuration now)
  have hall : ∀ turn ∈ (migrated r configuration now).activeTurns, ∃ run,
      (migrated r configuration now).runs.get? turn = some run ∧ Settleable turn run := by
    rw [hturns, hruns]
    exact h.valid.settleable h.usage
  obtain ⟨r', hr'⟩ := recoverTurns_ok hall (nodup_activeTurns _)
  obtain ⟨l, hl, rfl⟩ :=
    recoverTurns_settles (fun _ => mem_activeTurns.1) (nodup_activeTurns _) hr'
  rw [hturns] at hr' hl
  rw [migrated_ledger] at hl
  exact ⟨l, hr', hl⟩

/-- The record `open` leaves of `r`. -/
def openedTo (now : Nat) (r : SessionRecord) : SessionRecord :=
  match openReplacement now r with
  | .ok (some new) => new
  | _ => r

omit [External] in
theorem checkedSucc_of_lt {n : Nat} (h : n < u64Max) : checkedSucc n = some (n + 1) := by
  simp [checkedSucc, h]

/-- `open` of a recoverable record: it leaves it, or submits an accepted replacement. -/
theorem Recoverable.opened {r : SessionRecord} (h : Recoverable r) (now : Nat) :
    Opened (openedTo now r) ∧
    (openReplacement now r = .ok none ∨ ∃ new, openReplacement now r = .ok (some new) ∧
      Replaces r r.recoveryId r.revision new) := by
  have hnext := checkedSucc_of_lt h.revision
  cases hf : r.forgotten with
  | true =>
    obtain ⟨howner, -, hruns, -⟩ := h.valid.tombstone hf
    have hthread : r.threadId = none := by
      have := h.valid.lease
      rw [howner] at this
      simpa using this.symm
    have hidle : r.ledger.Idle := by
      intro run hr
      simp [OrdMap.values, hruns] at hr
    have hmf : ∀ now, (r.migrateRetention now).2.forgotten = true :=
      fun now => (migrateRetention_forgotten r now).trans hf
    have hopen : openReplacement now r = if r.schemaVersion == 1 then
        .ok (some ((r.migrateRetention now).2.withRevision (r.revision + 1))) else .ok none := by
      rw [openReplacement, validate_ok_iff.2 h.valid, ok_bind, migrateConfiguration, if_pos hf,
        ok_bind]
      simp only [SessionRecord.recover, hmf, if_true, ok_bind, migrateRetention_fst,
        migrateRetention_owner, howner, Option.isSome_none, Bool.false_eq_true, if_false,
        Bool.false_or, Bool.or_false, hnext, orElse_some]
    rcases h.valid.schema with hs | hs
    · rw [hs] at hopen
      have hrep := tombstone_replaces now h.valid hf hs hnext
      refine ⟨?_, .inr ⟨_, hopen, hrep⟩⟩
      rw [openedTo, hopen]
      have hm : (r.migrateRetention now).2 = { r with
          schemaVersion := 2, createdAtMs := some now, updatedAtMs := some now,
          detachedSinceMs := none, retiredAtMs := some now,
          retirementReason := some "legacy_forget" } := by
        simp [SessionRecord.migrateRetention, hs, hf]
      have hlive : ((r.migrateRetention now).2.withRevision (r.revision + 1)).forgotten ≠ false := by
        rw [hm]; simp [SessionRecord.withRevision, hf]
      refine ⟨hrep.valid, by rw [hm]; rfl, by rw [hm]; exact howner, by rw [hm]; exact hthread,
        by rw [hm]; exact hidle, fun h => absurd h hlive, fun h => absurd h hlive⟩
    · rw [hs] at hopen
      refine ⟨?_, .inl hopen⟩
      rw [openedTo, hopen]
      exact ⟨h.valid, hs, howner, hthread, hidle, fun hl => absurd (hf.symm.trans hl) (by simp),
        fun hl => absurd (hf.symm.trans hl) (by simp)⟩
  | false =>
    obtain ⟨parsed, hp⟩ := h.parses
    obtain ⟨l, hrec, settles⟩ := h.settles (migratedConfiguration r.configuration parsed) now
    have hopen := openReplacement_live now h.valid hf hp
    rw [hrec, ok_bind] at hopen
    obtain ⟨hok, -⟩ := Ledger.settles_ok settles h.valid.ledger h.results
    have hself : ∀ run ∈ r.ledger.runs.values, (run.params == run.params) = true := fun run hr => by
      rw [StartTurnParams.beq_self, h.params run hr]
      rfl
    cases hneeds : needsOpening r parsed with
    | true =>
      rw [hneeds, if_pos rfl, hnext] at hopen
      have hrep := opened_replaces now h.valid hf hok
        ((Ledger.settles_grow settles).extends hok hself) (active_settled settles)
        (migratedConfiguration_isObject parsed h.valid.configuration) hnext
      have f := openedRecord_frame h.valid hf (migratedConfiguration r.configuration parsed) now l
      have hopen : openReplacement now r = .ok (some ((openedRecord r
          (migratedConfiguration r.configuration parsed) now l).withRevision (r.revision + 1))) :=
        hopen
      refine ⟨?_, .inr ⟨_, hopen, hrep⟩⟩
      rw [openedTo, hopen]
      refine ⟨hrep.valid, f.schema, f.owner, f.threadId, ?_, fun hl => f.retention.detached hl f.owner,
        fun _ => ⟨parsed.map (·.1), ?_⟩⟩
      · show (openedRecord r _ now l).ledger.Idle
        rw [f.ledger]
        exact active_settled settles
      · show parseVersionedConfiguration (openedRecord r _ now l).configuration = _
        rw [f.configuration, migratedConfiguration_parses hp, Option.map_map]
        rfl
    | false =>
      rw [hneeds] at hopen
      have hopen : openReplacement now r = .ok none := hopen
      refine ⟨?_, .inl hopen⟩
      rw [openedTo, hopen]
      simp only [needsOpening, Bool.or_eq_false_iff, beq_eq_false_iff_ne, Option.isSome_eq_false_iff,
        Option.isNone_iff_eq_none, Bool.not_eq_false', List.isEmpty_iff] at hneeds
      obtain ⟨⟨hm, hs⟩, howner, hturns⟩ := hneeds
      have hs : r.schemaVersion = 2 := h.valid.schema.resolve_left hs
      have hthread : r.threadId = none := by
        have := h.valid.lease
        rw [howner] at this
        simpa using this.symm
      refine ⟨h.valid, hs, howner, hthread, ?_, fun hl => (h.valid.retention hs).detached hl howner,
        fun _ => ⟨parsed.map (·.1), ?_⟩⟩
      · intro run hr
        obtain ⟨turn, ht⟩ := OrdMap.mem_values_iff.1 hr
        cases ha : run.snapshot.status.isTerminal with
        | true => rfl
        | false =>
          have := mem_activeTurns.2 ⟨run, ht, ha⟩
          rw [hturns] at this
          cases this
      · rw [hp]
        cases parsed with
        | none => rfl
        | some p =>
          obtain ⟨c, m⟩ := p
          obtain rfl : m = false := by simpa using hm
          rfl

/-! ## The store -/

/-- `open` over the records still to be visited, each stored as it was listed. -/
theorem openAll_ok (now : Nat) : ∀ {rs : List SessionRecord} {s : Records},
    (rs.map (·.recoveryId)).Nodup →
    (∀ r ∈ rs, s.get? r.recoveryId = some r ∧ Recoverable r) →
    ∃ s', openAll now s rs = .ok s' ∧
      (∀ id, id ∉ rs.map (·.recoveryId) → s'.get? id = s.get? id) ∧
      ∀ r ∈ rs, s'.get? r.recoveryId = some (openedTo now r)
  | [], s, _, _ => ⟨s, rfl, fun _ _ => rfl, by simp⟩
  | r :: rs, s, hnd, hall => by
    rw [List.map_cons, List.nodup_cons] at hnd
    obtain ⟨hstored, hrec⟩ := hall r List.mem_cons_self
    have hne : ∀ x ∈ rs, r.recoveryId ≠ x.recoveryId :=
      fun x hx he => hnd.1 (he ▸ List.mem_map_of_mem hx)
    -- the rest of the loop, from a store in which `r` is replaced by what `open` leaves of it
    have hrest : ∀ s₁ : Records, s₁.get? r.recoveryId = some (openedTo now r) →
        (∀ id, r.recoveryId ≠ id → s₁.get? id = s.get? id) →
        ∃ s', openAll now s₁ rs = .ok s' ∧
          (∀ id, id ∉ (r :: rs).map (·.recoveryId) → s'.get? id = s.get? id) ∧
          ∀ x ∈ r :: rs, s'.get? x.recoveryId = some (openedTo now x) := by
      intro s₁ hself hother
      obtain ⟨s', hs', hout, hin⟩ := openAll_ok now hnd.2 fun x hx =>
        ⟨(hother _ (hne x hx)).trans (hall x (List.mem_cons_of_mem _ hx)).1,
          (hall x (List.mem_cons_of_mem _ hx)).2⟩
      refine ⟨s', hs', fun id hid => ?_, fun x hx => ?_⟩
      · rw [List.map_cons, List.mem_cons, not_or] at hid
        exact (hout id hid.2).trans (hother id fun he => hid.1 he.symm)
      · rcases List.mem_cons.1 hx with rfl | hx
        · exact (hout _ hnd.1).trans hself
        · exact hin x hx
    obtain ⟨-, ho | ⟨new, ho, hrep⟩⟩ := hrec.opened now
    · have hto : openedTo now r = r := by rw [openedTo, ho]
      obtain ⟨s', hs', h⟩ := hrest s (by rw [hto]; exact hstored) fun _ _ => rfl
      exact ⟨s', by rw [openAll, ho, ok_bind]; exact hs', h⟩
    · have hto : openedTo now r = new := by rw [openedTo, ho]
      have hcas : s.compareExchange new.recoveryId r.revision new = .ok (s.insert r.recoveryId new) := by
        rw [hrep.id, Records.compareExchange, hstored, orElse_some, ok_bind,
          validateReplace_ok_iff.2 hrep]
        rfl
      obtain ⟨s', hs', h⟩ := hrest (s.insert r.recoveryId new)
        (by rw [hto]; exact OrdMap.get?_insert_self _ _ _) fun id hid => OrdMap.get?_insert_ne _ _ hid
      refine ⟨s', ?_, h⟩
      rw [openAll, ho, ok_bind]
      dsimp only
      rw [hcas, ok_bind]
      exact hs'

omit [External] in
/-- The records are listed in the order of their ids when each is stored under its own. -/
theorem values_ids_sorted {s : Records} (h : ∀ id r, s.get? id = some r → r.recoveryId = id) :
    (s.values.map (·.recoveryId)).Pairwise (· < ·) := by
  have hkeys : s.values.map (·.recoveryId) = s.entries.map (·.1) := by
    rw [OrdMap.values, List.map_map]
    refine List.map_congr_left fun e he => ?_
    exact h e.1 e.2 (OrdMap.get?_eq_some_iff.2 he)
  rw [hkeys]
  exact List.pairwise_map.2 s.sorted

omit [External] in
theorem values_ids_nodup {s : Records} (h : ∀ id r, s.get? id = some r → r.recoveryId = id) :
    (s.values.map (·.recoveryId)).Nodup := (values_ids_sorted h).imp fun h => ne_of_lt h

/-- A version-3 configuration or none. -/
theorem Opened.versionThree {r : SessionRecord} (h : Opened r) (hlive : r.forgotten = false) :
    VersionThree r.configuration := by
  intro hsome
  obtain ⟨v, hv⟩ := Option.isSome_iff_exists.1 hsome
  obtain ⟨c, hc⟩ := h.configuration hlive
  rw [hv]
  unfold parseVersionedConfiguration at hc
  rw [hv] at hc
  obtain ⟨⟨c', m⟩, hp, he⟩ := PersistedConfiguration.map_ok hc
  obtain rfl : m = false := by
    cases c with
    | none => cases he
    | some c => cases he; rfl
  cases hr : r.configuration with
  | object root =>
    rw [hr] at hp hv
    have hv : JsonMap.get root "version" = some v := hv
    simp only [PersistedConfiguration.parseAndMigrate, hv, Option.bind_some] at hp
    obtain ⟨version, hver, hp⟩ := orElse_bind_ok hp
    -- only version 3 is parsed without a migration
    obtain rfl : version = 3 := by
      split at hp
      · obtain ⟨_, -, he⟩ := PersistedConfiguration.map_ok hp; cases he
      · obtain ⟨_, -, he⟩ := PersistedConfiguration.map_ok hp; cases he
      · rfl
      · cases hp
    cases v with
    | number n =>
      cases n with
      | int i =>
        simp only [Value.asU64] at hver
        split at hver
        · obtain rfl : i = 3 := by have := Option.some.inj hver; omega
          rfl
        · cases hver
      | float q => cases hver
    | null => cases hver
    | bool b => cases hver
    | string s => cases hver
    | array vs => cases hver
    | object m => cases hver
  | null => rw [hr] at hv; cases hv
  | bool b => rw [hr] at hv; cases hv
  | number n => rw [hr] at hv; cases hv
  | string s => rw [hr] at hv; cases hv
  | array vs => rw [hr] at hv; cases hv

theorem Sound.recoverable {G : String → Prop} {r : SessionRecord} (h : Sound G r)
    (hrev : r.revision < u64Max) : Recoverable r :=
  ⟨h.valid, h.parses, h.ledger.usage, hrev, h.ledger.resultsFresh h.valid.ledger, h.ledger.params⟩

/-- The records after `open`, each as `open` leaves it. -/
theorem openStore_opened {s : Records} (hkeys : ∀ id r, s.get? id = some r → r.recoveryId = id)
    (hrec : ∀ id r, s.get? id = some r → Recoverable r) (now : Nat) :
    ∃ s', openStore now s = .ok s' ∧ (∀ id, (s'.get? id).isSome = (s.get? id).isSome) ∧
      ∀ id r, s'.get? id = some r → Opened r := by
  have hall : ∀ r ∈ s.values, s.get? r.recoveryId = some r ∧ Recoverable r := fun r hr => by
    obtain ⟨id, hid⟩ := OrdMap.mem_values_iff.1 hr
    exact ⟨hkeys id r hid ▸ hid, hrec id r hid⟩
  obtain ⟨s', hs', hout, hin⟩ := openAll_ok now (values_ids_nodup hkeys) hall
  -- what is stored afterwards is what `open` left of a stored record
  have hopened : ∀ id r', s'.get? id = some r' → Opened r' := by
    intro id r' hr'
    cases hg : s.get? id with
    | none =>
      have hnot : id ∉ s.values.map (·.recoveryId) := fun hm => by
        obtain ⟨r, hr, he⟩ := List.mem_map.1 hm
        rw [← he, (hall r hr).1] at hg
        cases hg
      rw [hout id hnot, hg] at hr'
      cases hr'
    | some r =>
      have := hin r (OrdMap.mem_values hg)
      rw [hkeys id r hg, hr'] at this
      cases this
      exact ((hrec id r hg).opened now).1
  refine ⟨s', hs', fun id => ?_, hopened⟩
  cases hg : s.get? id with
  | none =>
    rw [hout id fun hm => ?_, hg]
    obtain ⟨r, hr, he⟩ := List.mem_map.1 hm
    rw [← he, (hall r hr).1] at hg
    cases hg
  | some r =>
    have := hin r (OrdMap.mem_values hg)
    rw [hkeys id r hg] at this
    rw [this]
    rfl

/-- Opening opened records writes nothing. -/
theorem openAll_stable (now : Nat) {s : Records} : ∀ {rs : List SessionRecord},
    (∀ r ∈ rs, Opened r) → openAll now s rs = .ok s
  | [], _ => rfl
  | r :: rs, h => by
    rw [openAll, (h r List.mem_cons_self).stable now, ok_bind]
    exact openAll_stable now fun x hx => h x (List.mem_cons_of_mem _ hx)

/-- Every record below the last revision that calls reach from a created one is recoverable. `open`
succeeds on every set of recoverable records and leaves each of them at schema 2 without an owner, a
thread or an active run, a live one with a detachment time and, if versioned, a version-3
configuration; opening the result again, at any time, writes nothing. -/
theorem open_total_idempotent :
    (∀ (G : String → Prop) (r₀ r : SessionRecord) (ws : List Writer), Created r₀ →
      Lts.Run (Submits G) r₀ ws r → r.revision < u64Max → Recoverable r) ∧
    ∀ (s : Records) (now : Nat), (∀ id r, s.get? id = some r → r.recoveryId = id) →
      (∀ id r, s.get? id = some r → Recoverable r) →
      ∃ s', openStore now s = .ok s' ∧
        (∀ id, (s'.get? id).isSome = (s.get? id).isSome) ∧
        (∀ id r, s'.get? id = some r → r.schemaVersion = 2 ∧ r.owner = none ∧ r.threadId = none ∧
          r.active = false ∧
          (r.forgotten = false → r.detachedSinceMs.isSome ∧ VersionThree r.configuration)) ∧
        ∀ now', (∀ id r, s'.get? id = some r → openReplacement now' r = .ok none) ∧
          openStore now' s' = .ok s' := by
  refine ⟨fun G r₀ r ws h₀ h hrev => (reachable_sound h₀ h).recoverable hrev,
    fun s now hkeys hrec => ?_⟩
  obtain ⟨s', hs', hsome, hopened⟩ := openStore_opened hkeys hrec now
  refine ⟨s', hs', hsome, fun id r hr => ?_,
    fun now' => ⟨fun id r hr => (hopened id r hr).stable now', openAll_stable now' fun r hr => ?_⟩⟩
  · have h := hopened id r hr
    exact ⟨h.schema, h.owner, h.thread, active_eq_false_iff.2 h.idle,
      fun hl => ⟨h.detached hl, h.versionThree hl⟩⟩
  · obtain ⟨id, hid⟩ := OrdMap.mem_values_iff.1 hr
    exact hopened id r hid

end

namespace Sample

/-- The sample store with one record. -/
def store (r : SessionRecord) : Records := OrdMap.empty.insert recoveryId r

theorem store_get {r x : SessionRecord} {id : String} (h : (store r).get? id = some x) :
    id = recoveryId ∧ x = r := by
  rw [store, OrdMap.get?_insert] at h
  split at h
  · rename_i he; cases h; exact ⟨he.symm, rfl⟩
  · cases h

/-- A record stopped while a tool call is open, whose result id is also the id of an input item. -/
def clash : SessionRecord :=
  { record with
    history := [.userMessage "question" [], .toolCall "item" "call" none "tool" none "\x7b\x7d"]
    runs := OrdMap.empty.insert "turn"
      { params, snapshot, effectiveOptions := .object [], historyStart := 0
        modelInputs := [⟨"step", 0, 1, .object [], false, none⟩]
        calls := [{ callId := "call", stepId := "step", toolName := "tool",
                    resultItemId := "question", executionId := "execution" }] } }

end Sample

/-- A valid record with a parsing configuration, summable usages, a next revision and no NaN that
`open` cannot recover: settling the open call would repeat an item id. -/
theorem open_fails_on_clash :
    @SessionRecord.validate Sample.external Sample.clash = .ok () ∧
    @parseVersionedConfiguration Sample.external Sample.clash.configuration = .ok none ∧
    (Sample.clash.runs.values.all fun run =>
      (UsageMetrics.checkedSum {} run.usages).isSome && !run.params.nanTemperature) = true ∧
    Sample.clash.revision < u64Max ∧
    @openStore Sample.external 9 (Sample.store Sample.clash) =
      .error (.invalid "Duplicate history item ID") := by
  refine ⟨rfl, rfl, by decide +kernel, by decide, ?_⟩
  rfl

theorem open_total_idempotent_sample :
    ∃ s', @openStore Sample.external 9 (Sample.store Sample.record) = .ok s' ∧
      ∀ now', @openStore Sample.external now' s' = .ok s' := by
  obtain ⟨hreach, hopen⟩ := @open_total_idempotent Sample.external
  have hrec : @Recoverable Sample.external Sample.record :=
    hreach (fun _ => False) Sample.record Sample.record [] Sample.record_created (.nil _) (by decide)
  obtain ⟨s', hs', -, -, hstable⟩ := hopen (Sample.store Sample.record) 9
    (fun id r h => by obtain ⟨rfl, rfl⟩ := Sample.store_get h; rfl)
    (fun id r h => by obtain ⟨-, rfl⟩ := Sample.store_get h; exact hrec)
  exact ⟨s', hs', fun now' => (hstable now').2⟩

end Whale
