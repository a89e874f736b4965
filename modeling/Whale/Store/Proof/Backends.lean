import Whale.Store.Backends
import Whale.Store.Proof.Partition

/-!
# The two backends agree

`metadata_row`: the query of `metadata_page` reads the retention metadata of a record in its text. With it
a table that holds the texts of the records of a map answers every call as the map does, and goes on
holding them (`Backed.perform`).
-/

namespace Whale

open Check

section
variable [RecordSerde]

/-- The row that holds a record. -/
def SessionRecord.row (r : SessionRecord) : SessionRow := ⟨r.revision, RecordSerde.toText r⟩

/-- What the backends rely on for a record: its text parses back to it and is its document to JSON1, and
its revision and the length of its text fit the integers of SQLite. -/
structure Storable (r : SessionRecord) : Prop where
  roundTrip : RecordSerde.fromText (RecordSerde.toText r) = .ok r
  document : RecordSerde.parse (RecordSerde.toText r) = some r.document
  revision : r.revision ≤ i64Max
  size : (RecordSerde.toText r).utf8ByteSize ≤ i64Max

/-! ## The query of `metadata_page` -/

theorem extract_status (run : StoredRun) :
    Sql.notIn (Sql.jsonExtract ["snapshot", "status"] run.document)
      ["completed", "failed", "cancelled"] = some (!run.snapshot.status.isTerminal) := by
  have h : Sql.member ["snapshot", "status"] run.document = some run.snapshot.status.document := rfl
  unfold Sql.jsonExtract
  rw [h]
  cases run.snapshot.status <;> rfl

omit [RecordSerde] in
theorem extract_acknowledged (u : UnknownExecution) :
    Sql.isZero (Sql.jsonExtract ["acknowledged"] u.document) = some (!u.acknowledged) := by
  have h : Sql.member ["acknowledged"] u.document = some (.bool u.acknowledged) := by
    unfold UnknownExecution.document
    cases u.originalArguments <;> cases u.arguments <;> rfl
  unfold Sql.jsonExtract
  rw [h]
  cases u.acknowledged <;> rfl

theorem exists_active (r : SessionRecord) :
    (Sql.existsWhere (Sql.jsonEach ["runs"] r.document) fun value =>
      Sql.notIn (Sql.jsonExtract ["snapshot", "status"] value) ["completed", "failed", "cancelled"]) =
      r.active := by
  have h : Sql.jsonEach ["runs"] r.document = r.runs.values.map StoredRun.document := by
    show ((r.runs.entries.map fun e => (e.1, e.2.document)).map (·.2)) = _
    simp [OrdMap.values]
  rw [h, Sql.existsWhere, List.any_map]
  simp only [SessionRecord.active, Function.comp_def, extract_status]
  simp

theorem exists_unresolved (r : SessionRecord) :
    (Sql.existsWhere (Sql.jsonEach ["unknown_executions"] r.document) fun value =>
      Sql.isZero (Sql.jsonExtract ["acknowledged"] value)) = r.unresolved := by
  have h : Sql.jsonEach ["unknown_executions"] r.document =
      r.unknownExecutions.map UnknownExecution.document := rfl
  rw [h, Sql.existsWhere, List.any_map]
  simp only [SessionRecord.unresolved, Function.comp_def, extract_acknowledged]
  simp

theorem extract_owner (r : SessionRecord) :
    Sql.isNotNull (Sql.jsonExtract ["owner"] r.document) = r.owner.isSome := by
  have h : Sql.member ["owner"] r.document = some (optionDocument .string r.owner) := rfl
  unfold Sql.jsonExtract
  rw [h]
  cases r.owner <;> rfl

theorem arrow_detached (r : SessionRecord) :
    optionU64 (Sql.arrow ["detached_since_ms"] r.document) = some r.detachedSinceMs := by
  have h : Sql.arrow ["detached_since_ms"] r.document =
      some (optionDocument natDocument r.detachedSinceMs) := rfl
  rw [h]
  cases r.detachedSinceMs with
  | none => rfl
  | some n => simp [optionDocument, natDocument, optionU64, Value.asU64]

/-- **The query reads the retention metadata.** -/
theorem metadata_row {r : SessionRecord} (h : Storable r) :
    r.row.metadata r.recoveryId = r.retentionMetadata := by
  have hforgotten : Sql.jsonExtract ["forgotten"] r.document =
      .integer (if r.forgotten then 1 else 0) := rfl
  have hsize : ¬ u64Max < (RecordSerde.toText r).utf8ByteSize := by
    have := h.size
    simp only [i64Max, u64Max] at this ⊢
    omega
  unfold SessionRow.metadata SessionRecord.row SessionRecord.retentionMetadata
  rw [h.document, orElse_some, ok_bind, hforgotten, arrow_detached]
  cases hf : r.forgotten with
  | true => simp [Sql.getBool, Sql.isTrue, extract_owner, exists_active, exists_unresolved]
  | false =>
    simp [Sql.getBool, Sql.isTrue, extract_owner, exists_active, exists_unresolved,
      SessionRecord.serializedBytes, hsize, Except.mapError]

/-! ## Calls -/

/-- The table holds the records of the map, each under its own id. -/
structure Backed (t : SessionTable) (s : Records) : Prop where
  rows : t = s.mapValues SessionRecord.row
  keyed : ∀ id r, s.get? id = some r → r.recoveryId = id
  storable : ∀ r ∈ s.values, Storable r

namespace Backed

variable {t : SessionTable} {s : Records}

theorem get? (h : Backed t s) (id : String) : t.get? id = (s.get? id).map SessionRecord.row := by
  rw [h.rows, OrdMap.get?_mapValues]

theorem recordOf (h : Backed t s) {r : SessionRecord} (hr : r ∈ s.values) :
    SQLiteStore.recordOf r.row = .ok r := by
  show (RecordSerde.fromText (RecordSerde.toText r)).mapError _ = _
  rw [(h.storable r hr).roundTrip]
  rfl

theorem load (h : Backed t s) (id : String) : SQLiteStore.load t id = .ok (s.get? id) := by
  unfold SQLiteStore.load
  rw [h.get?]
  cases hs : s.get? id with
  | none => rfl
  | some r =>
    show (SQLiteStore.recordOf r.row).map some = _
    rw [h.recordOf (OrdMap.mem_values hs)]
    rfl

theorem read (h : Backed t s) (id : String) :
    SQLiteStore.read t id = orElse (s.get? id) .notFound := by
  unfold SQLiteStore.read
  rw [h.get?]
  cases hs : s.get? id with
  | none => rfl
  | some r => exact h.recordOf (OrdMap.mem_values hs)

theorem list (h : Backed t s) : SQLiteStore.list t = .ok s.values := by
  have hmap : ∀ rs : List SessionRecord, (∀ r ∈ rs, r ∈ s.values) →
      (rs.map SessionRecord.row).mapM SQLiteStore.recordOf = .ok rs := by
    intro rs
    induction rs with
    | nil => intro _; rfl
    | cons r rs ih =>
      intro hmem
      rw [List.map_cons, List.mapM_cons, h.recordOf (hmem r List.mem_cons_self), ok_bind,
        ih fun r hr => hmem r (List.mem_cons_of_mem _ hr)]
      rfl
  unfold SQLiteStore.list
  rw [h.rows, OrdMap.values_mapValues]
  exact hmap s.values fun r hr => hr

omit [RecordSerde] in
theorem i64TryFrom_of_le {n : Nat} (h : n ≤ i64Max) : i64TryFrom n = .ok n := by
  simp [i64TryFrom, Nat.not_lt.mpr h]

theorem metadataPage (h : Backed t s) (afterId : Option String) {limit : Nat} (hlimit : limit ≤ i64Max) :
    SQLiteStore.metadataPage t afterId limit =
      ((s.values.filter fun r => afterId.all fun id => decide (id < r.recoveryId)).take limit).mapM
        SessionRecord.retentionMetadata := by
  have hentry : ∀ e ∈ s.entries, e.2.recoveryId = e.1 ∧ Storable e.2 := fun e he =>
    ⟨h.keyed e.1 e.2 (OrdMap.get?_eq_some_iff.mpr he), h.storable e.2 (List.mem_map_of_mem he)⟩
  unfold SQLiteStore.metadataPage
  rw [i64TryFrom_of_le hlimit, ok_bind, h.rows]
  simp only [OrdMap.mapValues, OrdMap.values, List.filter_map, ← List.map_take, List.mapM_map]
  have hfilter : s.entries.filter ((fun e : String × SessionRow => afterId.all fun id => decide (id < e.1)) ∘
        fun e => (e.1, e.2.row)) =
      s.entries.filter ((fun r : SessionRecord => afterId.all fun id => decide (id < r.recoveryId)) ∘
        (·.2)) := by
    apply List.filter_congr
    intro e he
    simp [(hentry e he).1]
  rw [hfilter]
  apply mapM_congr
  intro e he
  obtain ⟨hkey, hst⟩ := hentry e (List.mem_of_mem_filter (List.mem_of_mem_take he))
  show e.2.row.metadata e.1 = _
  rw [← hkey]
  exact metadata_row hst

variable [External]

/-- An exchange of the table is one of the map. -/
theorem exchange (h : Backed t s) {id : String} {old new : SessionRecord} {expected : Nat}
    (hold : s.get? id = some old)
    (hnew : ∀ s', s.compareExchange id expected new = .ok s' → Storable new) :
    SQLiteStore.exchange t old id expected new =
      (s.compareExchange id expected new).map (·.mapValues SessionRecord.row) := by
  have hcx : s.compareExchange id expected new = (do
      validateReplace old id expected new
      .ok (s.insert id new)) := by
    rw [Records.compareExchange, hold]
    rfl
  rw [hcx] at hnew ⊢
  unfold SQLiteStore.exchange
  cases hv : validateReplace old id expected new with
  | error e => rfl
  | ok u =>
    rw [hv] at hnew
    have hst : Storable new := hnew _ rfl
    have hread : old.revision = expected := (validateReplace_ok_iff.1 hv).read
    have hexpected : expected ≤ i64Max := hread ▸ (h.storable old (OrdMap.mem_values hold)).revision
    have hupdate : t.update new.revision (RecordSerde.toText new) id expected =
        (1, t.insert id new.row) := by
      unfold SessionTable.update
      rw [h.get?, hold]
      exact if_pos hread
    rw [ok_bind, i64TryFrom_of_le hst.revision, ok_bind, i64TryFrom_of_le hexpected, ok_bind, hupdate,
      h.rows, ← OrdMap.insert_mapValues]
    rfl

theorem create (h : Backed t s) {r : SessionRecord}
    (hnew : ∀ s', s.create r = .ok s' → Storable r) :
    SQLiteStore.create t r = (s.create r).map (·.mapValues SessionRecord.row) := by
  unfold SQLiteStore.create
  unfold Records.create at hnew ⊢
  rw [h.get?]
  cases hv : validateCreate r with
  | error e => rfl
  | ok u =>
    rw [hv] at hnew
    cases hg : s.get? r.recoveryId with
    | some old => rfl
    | none =>
      rw [hg] at hnew
      have hst : Storable r := hnew _ rfl
      simp only [ok_bind, Option.map_none, Option.isSome_none, refuse_false]
      rw [i64TryFrom_of_le hst.revision, ok_bind, h.rows]
      exact congrArg Except.ok (OrdMap.insert_mapValues s SessionRecord.row r.recoveryId r).symm

theorem compareExchange (h : Backed t s) {id : String} {expected : Nat} {new : SessionRecord}
    (hnew : ∀ s', s.compareExchange id expected new = .ok s' → Storable new) :
    SQLiteStore.compareExchange t id expected new =
      (s.compareExchange id expected new).map (·.mapValues SessionRecord.row) := by
  unfold SQLiteStore.compareExchange
  rw [h.read]
  cases hs : s.get? id with
  | none => simp [Records.compareExchange, hs, Except.map]
  | some old => exact h.exchange hs hnew

omit [RecordSerde] in
/-- What the default does when it succeeds: nothing, or one exchange. -/
theorem defaultRetireDetached_ok {s s' : Records} {id : String} {expected now : Nat} {reason : String}
    {b : Bool} (h : SessionStore.defaultRetireDetached (fun s id => .ok (s.get? id))
      Records.compareExchange s id expected now reason = .ok (b, s')) :
    s' = s ∨ ∃ new, s.compareExchange id expected new = .ok s' := by
  obtain ⟨_, -, h⟩ := bind_ok h
  obtain ⟨_, -, h⟩ := orElse_bind_ok h
  obtain ⟨retired, -, h⟩ := bind_ok h
  cases retired with
  | none => cases h; exact .inl rfl
  | some new =>
    obtain ⟨_, hx, h⟩ := bind_ok h
    cases h
    exact .inr ⟨new, hx⟩

theorem retireDetached (h : Backed t s) {id : String} {expected now : Nat} {reason : String}
    (hnew : ∀ b s', SessionStore.defaultRetireDetached (fun s id => .ok (s.get? id))
      Records.compareExchange s id expected now reason = .ok (b, s') → ∀ r ∈ s'.values, Storable r) :
    SQLiteStore.retireDetached t id expected now reason =
      (SessionStore.defaultRetireDetached (fun s id => .ok (s.get? id)) Records.compareExchange s id
        expected now reason).map fun p => (p.1, p.2.mapValues SessionRecord.row) := by
  unfold SQLiteStore.retireDetached
  unfold SessionStore.defaultRetireDetached at hnew ⊢
  rw [h.read]
  simp only [ok_bind] at hnew ⊢
  cases hs : s.get? id with
  | none => rfl
  | some old =>
    rw [hs] at hnew
    simp only [orElse_some, ok_bind] at hnew ⊢
    cases hret : retirementReplacement old expected now reason with
    | error e => rfl
    | ok retired =>
      rw [hret] at hnew
      cases retired with
      | none => simp only [ok_bind, Except.map, h.rows]
      | some new =>
        simp only [ok_bind] at hnew ⊢
        have hst : ∀ s', s.compareExchange id expected new = .ok s' → Storable new := by
          intro s' hs'
          rw [hs'] at hnew
          obtain ⟨-, -, -, rfl⟩ := compareExchange_ok hs'
          exact hnew true _ rfl new (OrdMap.mem_values (OrdMap.get?_insert_self _ _ _))
        rw [h.exchange hs hst]
        cases s.compareExchange id expected new with
        | error e => rfl
        | ok s' => rfl

/-- The transaction is the default over the calls of the same table. -/
theorem retireDetached_default (h : Backed t s) (id : String) (expected now : Nat) (reason : String) :
    SQLiteStore.retireDetached t id expected now reason =
      SessionStore.defaultRetireDetached SQLiteStore.load SQLiteStore.compareExchange t id expected now
        reason := by
  unfold SQLiteStore.retireDetached SessionStore.defaultRetireDetached SQLiteStore.compareExchange
  rw [h.read, h.load, ok_bind]
  cases s.get? id with
  | none => rfl
  | some old => rfl

omit [RecordSerde] [External] in
/-- A record that is put under its own id. -/
theorem keyed_insert {id : String} {new : SessionRecord}
    (hkeyed : ∀ id r, s.get? id = some r → r.recoveryId = id) (hid : new.recoveryId = id) :
    ∀ id' r, (s.insert id new).get? id' = some r → r.recoveryId = id' := by
  intro id' r hr
  rw [OrdMap.get?_insert] at hr
  split at hr
  · rename_i heq
    cases hr
    exact hid.trans heq
  · exact hkeyed id' r hr

/-- A call has the same answer on both sides, and the table goes on holding the records. -/
theorem perform (h : Backed t s) {call : StoreCall}
    (hlimit : ∀ afterId limit, call = .metadataPage afterId limit → limit ≤ i64Max)
    (hnext : ∀ r ∈ (MemoryStore.perform s call).2.values, Storable r) :
    (SQLiteStore.perform t call).1 = (MemoryStore.perform s call).1 ∧
      Backed (SQLiteStore.perform t call).2 (MemoryStore.perform s call).2 := by
  cases call with
  | create r =>
    have hcreate : (SQLiteStore.create t r) = (s.create r).map (·.mapValues SessionRecord.row) := by
      refine h.create fun s' hs' => hnext r ?_
      obtain ⟨-, -, rfl⟩ := create_ok hs'
      simp only [SessionStore.perform, MemoryStore, hs']
      exact OrdMap.mem_values (OrdMap.get?_insert_self _ _ _)
    simp only [SessionStore.perform, SQLiteStore, MemoryStore, hcreate] at hnext ⊢
    cases hs' : s.create r with
    | error e => exact ⟨rfl, h⟩
    | ok s' =>
      rw [hs'] at hnext
      obtain ⟨-, -, rfl⟩ := create_ok hs'
      exact ⟨rfl, rfl, keyed_insert h.keyed rfl, hnext⟩
  | load id => 
    exact ⟨congrArg (Except.map StoreAnswer.loaded) (h.load id), h⟩
  | compareExchange id expected new =>
    have hexchange : SQLiteStore.compareExchange t id expected new =
        (s.compareExchange id expected new).map (·.mapValues SessionRecord.row) := by
      refine h.compareExchange fun s' hs' => hnext new ?_
      obtain ⟨-, -, -, rfl⟩ := compareExchange_ok hs'
      simp only [SessionStore.perform, MemoryStore, hs']
      exact OrdMap.mem_values (OrdMap.get?_insert_self _ _ _)
    simp only [SessionStore.perform, SQLiteStore, MemoryStore, hexchange] at hnext ⊢
    cases hs' : s.compareExchange id expected new with
    | error e => exact ⟨rfl, h⟩
    | ok s' =>
      rw [hs'] at hnext
      obtain ⟨_, -, hreplaces, rfl⟩ := compareExchange_ok hs'
      exact ⟨rfl, rfl, keyed_insert h.keyed hreplaces.id, hnext⟩
  | retireDetached id expected now reason =>
    have hretire : SQLiteStore.retireDetached t id expected now reason =
        (SessionStore.defaultRetireDetached (fun s id => .ok (s.get? id)) Records.compareExchange s id
          expected now reason).map fun p => (p.1, p.2.mapValues SessionRecord.row) := by
      refine h.retireDetached fun b s' hs' => ?_
      simp only [SessionStore.perform, MemoryStore, hs'] at hnext
      exact hnext
    simp only [SessionStore.perform, SQLiteStore, MemoryStore, hretire] at hnext ⊢
    cases hs' : SessionStore.defaultRetireDetached (fun s id => .ok (s.get? id)) Records.compareExchange s
      id expected now reason with
    | error e => exact ⟨rfl, h⟩
    | ok p =>
      obtain ⟨b, s'⟩ := p
      rw [hs'] at hnext
      rcases defaultRetireDetached_ok hs' with rfl | ⟨new, hx⟩
      · exact ⟨rfl, rfl, h.keyed, hnext⟩
      · obtain ⟨_, -, hreplaces, rfl⟩ := compareExchange_ok hx
        exact ⟨rfl, rfl, keyed_insert h.keyed hreplaces.id, hnext⟩
  | metadataPage afterId limit => 
    exact ⟨congrArg (Except.map StoreAnswer.page) (h.metadataPage afterId (hlimit _ _ rfl)), h⟩
  | list => exact ⟨congrArg (Except.map StoreAnswer.listed) h.list, h⟩

end Backed

variable [External]

/-! ## Runs -/

omit [RecordSerde] [External] in
/-- A call that fails changes nothing. -/
theorem SessionStore.perform_error {σ : Type} {store : SessionStore σ} {s : σ} {call : StoreCall}
    {e : StoreError} (h : (store.perform s call).1 = .error e) : (store.perform s call).2 = s := by
  cases call with
  | create r =>
    simp only [perform] at h ⊢
    cases hc : store.create s r with
    | error => rfl
    | ok s' => rw [hc] at h; cases h
  | compareExchange id expected new =>
    simp only [perform] at h ⊢
    cases hc : store.compareExchange s id expected new with
    | error => rfl
    | ok s' => rw [hc] at h; cases h
  | retireDetached id expected now reason =>
    simp only [perform] at h ⊢
    cases hc : store.retireDetached s id expected now reason with
    | error => rfl
    | ok p => rw [hc] at h; cases h
  | load | metadataPage | list => rfl

/-- The default of `metadata_page` over a map is the page that the map gives. -/
theorem defaultMetadataPage_eq {s : Records} (hkeyed : ∀ id r, s.get? id = some r → r.recoveryId = id)
    (afterId : Option String) (limit : Nat) :
    SessionStore.defaultMetadataPage MemoryStore.list s afterId limit =
      MemoryStore.metadataPage s afterId limit := by
  have hsorted : s.values.Pairwise fun a b => decide (a.recoveryId ≤ b.recoveryId) = true := by
    unfold OrdMap.values
    rw [List.pairwise_map]
    refine List.Pairwise.imp_of_mem ?_ s.sorted
    intro a b ha hb hlt
    have hka := hkeyed a.1 a.2 (OrdMap.get?_eq_some_iff.mpr ha)
    have hkb := hkeyed b.1 b.2 (OrdMap.get?_eq_some_iff.mpr hb)
    simpa [hka, hkb] using hlt.le
  show ((s.values.mergeSort _).filter _ |>.take limit).mapM _ = _
  rw [List.mergeSort_of_pairwise hsorted]
  rfl

omit [External] in
theorem metadata_recoveryId {id : String} {row : SessionRow} {m : RetentionMetadata}
    (h : row.metadata id = .ok m) : m.recoveryId = id := by
  obtain ⟨_, -, h⟩ := orElse_bind_ok h
  obtain ⟨_, -, h⟩ := bind_ok h
  obtain ⟨_, -, h⟩ := orElse_bind_ok h
  cases h
  rfl

omit [External] in
theorem mapM_metadata : ∀ {es : List (String × SessionRow)} {rows : List RetentionMetadata},
    (es.mapM fun e => e.2.metadata e.1) = .ok rows → rows.map (·.recoveryId) = es.map (·.1)
  | [], _, h => by cases h; rfl
  | e :: es, _, h => by
    rw [List.mapM_cons] at h
    obtain ⟨m, hm, h⟩ := bind_ok h
    obtain ⟨ms, hms, h⟩ := bind_ok h
    cases h
    rw [List.map_cons, List.map_cons, metadata_recoveryId hm, mapM_metadata hms]

omit [External] in
/-- The ids of a page ascend. -/
theorem metadataPage_ascending {t : SessionTable} {afterId : Option String} {limit : Nat}
    {rows : List RetentionMetadata} (h : SQLiteStore.metadataPage t afterId limit = .ok rows) :
    (rows.map (·.recoveryId)).Pairwise (· < ·) := by
  obtain ⟨_, -, h⟩ := bind_ok h
  rw [mapM_metadata h, List.pairwise_map]
  exact t.sorted.sublist ((List.take_sublist _ _).trans List.filter_sublist)

/-- The backends over sequences of calls. -/
theorem run_backed : ∀ {calls : List StoreCall} {t : SessionTable} {s : Records}, Backed t s →
    (∀ afterId limit, StoreCall.metadataPage afterId limit ∈ calls → limit ≤ i64Max) →
    (∀ before after, calls = before ++ after → ∀ r ∈ (MemoryStore.run s before).2.values, Storable r) →
    (SQLiteStore.run t calls).1 = (MemoryStore.run s calls).1 ∧
      ∀ before after, calls = before ++ after →
        Backed (SQLiteStore.run t before).2 (MemoryStore.run s before).2
  | [], t, s, h, _, _ => by
    refine ⟨rfl, fun before after he => ?_⟩
    obtain ⟨rfl, -⟩ := List.nil_eq_append_iff.mp he
    exact h
  | call :: calls, t, s, h, hlimit, hserde => by
    obtain ⟨hanswer, hnext⟩ := h.perform
      (fun afterId limit he => hlimit afterId limit (he ▸ List.mem_cons_self))
      (hserde [call] calls rfl)
    obtain ⟨hanswers, hrest⟩ := run_backed hnext
      (fun afterId limit hm => hlimit afterId limit (List.mem_cons_of_mem _ hm))
      (fun before after he => hserde (call :: before) after (congrArg (call :: ·) he))
    refine ⟨?_, fun before after he => ?_⟩
    · simp only [SessionStore.run, hanswer, hanswers]
    · cases before with
      | nil => exact h
      | cons c before =>
        obtain ⟨rfl, he'⟩ := List.cons.inj he
        exact hrest before after he'

/-- **The two backends are interchangeable.** For every sequence of calls from empty stores whose page
sizes fit an `i64`, when the records that the map holds on the way are `Storable`: both backends give the
same answers; after every call the table holds the same records, reads their retention metadata in their
texts in ascending order of the ids, and its transactional `retire_detached` is the default over its own
`load` and `compare_exchange`; and a call that fails changes nothing. -/
theorem backends_interchangeable (calls : List StoreCall)
    (hlimit : ∀ afterId limit, StoreCall.metadataPage afterId limit ∈ calls → limit ≤ i64Max)
    (hserde : ∀ before after, calls = before ++ after →
      ∀ r ∈ (MemoryStore.run .empty before).2.values, Storable r) :
    (SQLiteStore.run .empty calls).1 = (MemoryStore.run .empty calls).1 ∧
    ∀ before after t s, calls = before ++ after → t = (SQLiteStore.run .empty before).2 →
      s = (MemoryStore.run .empty before).2 →
      (∀ id, SQLiteStore.load t id = MemoryStore.load s id) ∧
      SQLiteStore.list t = MemoryStore.list s ∧
      (∀ id r, s.get? id = some r →
        ∃ row, t.get? id = some row ∧ row.metadata id = r.retentionMetadata) ∧
      (∀ afterId limit rows, SQLiteStore.metadataPage t afterId limit = .ok rows →
        (rows.map (·.recoveryId)).Pairwise (· < ·)) ∧
      (∀ afterId limit, SessionStore.defaultMetadataPage MemoryStore.list s afterId limit =
        MemoryStore.metadataPage s afterId limit) ∧
      (∀ id expected now reason, SQLiteStore.retireDetached t id expected now reason =
        SessionStore.defaultRetireDetached SQLiteStore.load SQLiteStore.compareExchange t id expected now
          reason) ∧
      ∀ call e, ((SQLiteStore.perform t call).1 = .error e → (SQLiteStore.perform t call).2 = t) ∧
        ((MemoryStore.perform s call).1 = .error e → (MemoryStore.perform s call).2 = s) := by
  have hempty : Backed .empty .empty := ⟨rfl, by simp, by simp⟩
  obtain ⟨hanswers, hbacked⟩ := run_backed hempty hlimit hserde
  refine ⟨hanswers, ?_⟩
  rintro before after t s he rfl rfl
  have h := hbacked before after he
  refine ⟨h.load, h.list, fun id r hr => ?_, fun afterId limit rows => metadataPage_ascending,
    defaultMetadataPage_eq h.keyed, h.retireDetached_default, fun call e => ⟨SessionStore.perform_error, SessionStore.perform_error⟩⟩
  refine ⟨r.row, by rw [h.get?, hr]; rfl, ?_⟩
  rw [← h.keyed id r hr]
  exact metadata_row (h.storable r (OrdMap.mem_values hr))

end

namespace Sample

/-- The text of the record that `create` stores. -/
def recordText : String :=
  "\x7b\"schema_version\":2,\"created_at_ms\":7,\"updated_at_ms\":7,\"detached_since_ms\":null," ++
  "\"retired_at_ms\":null,\"retirement_reason\":null," ++
  "\"recovery_id\":\"00000000-0000-4000-8000-000000000001\"," ++
  "\"secret_digest\":\"60e05bd1b195af2f94112fa7197a5c88289058840ce7c6df9693756bc6250f55\"," ++
  "\"revision\":1,\"epoch\":1,\"owner\":\"owner\",\"thread_id\":\"thread\"," ++
  "\"historical_thread_ids\":[\"thread\"],\"forgotten\":false,\"configuration\":\x7b\x7d,\"history\":[]," ++
  "\"runs\":\x7b\x7d,\"unknown_executions\":[]\x7d"

/-- Serialization before anything is parsed, on values without parts. -/
@[reducible] def blankSerde : RecordSerde where
  toText _ := recordText
  fromText _ := .ok record
  parse _ := none
  items _ := .array []
  params _ := .null
  usage _ := .null
  approvals _ := .array []
  executions _ := .array []
  result _ := .null
  failure _ := .null
  modelInputs _ := .array []
  calls _ := .array []

/-- Serialization of the sample record. -/
@[reducible] def recordSerde : RecordSerde :=
  { blankSerde with parse := fun _ => some (@SessionRecord.document blankSerde record) }

theorem record_storable : @Storable recordSerde record :=
  @Storable.mk recordSerde record rfl rfl (by decide) (by decide +kernel)

end Sample

/-- A page size that does not fit an `i64` is refused by the one backend only. -/
theorem page_size_refused : ¬ ∀ calls : List StoreCall,
    (∀ before after, calls = before ++ after → ∀ r ∈ (@SessionStore.run _
      (@MemoryStore Sample.external Sample.recordSerde) .empty before).2.values,
        @Storable Sample.recordSerde r) →
    (@SessionStore.run _ (@SQLiteStore Sample.recordSerde Sample.external) .empty calls).1 =
      (@SessionStore.run _ (@MemoryStore Sample.external Sample.recordSerde) .empty calls).1 := by
  intro h
  have hpage := h [.metadataPage none (i64Max + 1)] (by
    intro before after he r hr
    rcases List.singleton_eq_append_iff.mp he with ⟨rfl, -⟩ | ⟨rfl, -⟩
    · cases hr
    · cases hr)
  cases hpage

/-- A record is created, scanned and listed. -/
theorem backends_interchangeable_sample :
    (@SessionStore.run _ (@SQLiteStore Sample.recordSerde Sample.external) .empty
      [.create Sample.record, .metadataPage none 10, .list]).1 =
    (@SessionStore.run _ (@MemoryStore Sample.external Sample.recordSerde) .empty
      [.create Sample.record, .metadataPage none 10, .list]).1 := by
  refine (@backends_interchangeable Sample.recordSerde Sample.external
    [.create Sample.record, .metadataPage none 10, .list] ?_ ?_).1
  · intro afterId limit hm
    simp only [List.mem_cons, StoreCall.metadataPage.injEq, reduceCtorEq, List.not_mem_nil, or_false,
      false_or] at hm
    rw [hm.2]
    decide
  · intro before after he r hr
    -- after the first call the store holds the record, before it nothing
    have hheld : (@SessionStore.run _ (@MemoryStore Sample.external Sample.recordSerde) .empty
        before).2.values ⊆ [Sample.record] := by
      rcases List.cons_eq_append_iff.mp he with ⟨rfl, -⟩ | ⟨before, rfl, he₁⟩
      · exact List.nil_subset _
      rcases List.cons_eq_append_iff.mp he₁ with ⟨rfl, -⟩ | ⟨before, rfl, he₂⟩
      · exact fun _ h => h
      rcases List.singleton_eq_append_iff.mp he₂ with ⟨rfl, -⟩ | ⟨rfl, -⟩
      · exact fun _ h => h
      · exact fun _ h => h
    obtain rfl := List.mem_singleton.mp (hheld hr)
    exact Sample.record_storable

end Whale
