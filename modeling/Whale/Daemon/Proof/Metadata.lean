import Whale.Daemon.Metadata
import Whale.Daemon.Proof.Publication
import Whale.Store.Proof.FailStop

/-!
# Metadata replacement is a compare-and-set

`replaceMetadata_eq` and `completeClosed_eq`: the operations of the lane are their two parts with nothing in
between. What a step does to the projection is its `Commit`. `LaneHold.Prepared` says what stays true
while an operation keeps the lane, `Agrees` that the journal of a persistent session holds the projected
metadata; both are kept by every step, whatever the store does.
-/

namespace Whale

open Check Transaction

/-! ## The two parts of an operation -/

namespace LaneOperation

section
variable [External] [EventSerde]

/-- The answer of an operation after its preparation, when the store answers at once or with `journal`. -/
def answer (operation : LaneOperation) (journal : Option (Except StoreError Unit)) (s : Projections) :
    Except SessionManagementFailure (Option (ManagementProjection × SessionEventEnvelopeV2)) →
      Except SessionManagementFailure Bool × Projections
  | .error e => (.error e, s)
  | .ok none => (.ok false, s)
  | .ok (some (next, envelope)) =>
    let hold : LaneHold :=
      ⟨operation, s.management.projection.snapshot.cursor, next, envelope, s.storedAtOnce journal.isSome⟩
    hold.finish (hold.stored.getD (journal.getD (.ok ()))) s

variable {operation : LaneOperation} {journal : Option (Except StoreError Unit)} {s : Projections}

omit [External] [EventSerde] in
/-- A check of the one is a check of the other. -/
theorem answer_bind {α : Type} {x : Except SessionManagementFailure α} {f : α → Lane Bool}
    {g : α → Except SessionManagementFailure (Option (ManagementProjection × SessionEventEnvelopeV2))}
    (h : ∀ a, outcome (f a) s = operation.answer journal s (g a)) :
    outcome (of x >>= f) s = operation.answer journal s (x >>= g) := by
  cases x with
  | error e => rfl
  | ok a => exact h a

omit [External] [EventSerde] in
/-- The store and the installation after it, under the lane. -/
theorem answer_store (next : ManagementProjection × SessionEventEnvelopeV2) :
    outcome (do
      Lane.store s journal
      modify (·.installProjection next.1)
      return true) s = operation.answer journal s (.ok (some next)) := by
  unfold Lane.store answer Projections.storedAtOnce LaneHold.finish
  rw [outcome_bind]
  cases s.management.projection.snapshot.persistence with
  | ephemeral => exact (if_pos rfl).symm
  | persistent id =>
    cases journal with
    | none => rfl
    | some answer =>
      cases answer with
      | error e => rfl
      | ok u => exact (if_pos rfl).symm

/-- `replace_metadata` is its two parts with nothing in between. -/
theorem replaceMetadata_eq (owner threadId : String) (expectedViewRevision : Nat) (metadata : JsonMap)
    (now : Nat) :
    outcome (Lane.replaceMetadata owner threadId expectedViewRevision metadata now journal) s =
      (replaceMetadata owner threadId expectedViewRevision metadata now).answer journal s
        ((replaceMetadata owner threadId expectedViewRevision metadata now).prepare s) := by
  refine answer_bind fun _ => answer_bind fun _ => ?_
  rw [outcome_bind, outcome_get]
  refine answer_bind fun _ => answer_bind fun _ => answer_bind fun _ => answer_bind fun _ => ?_
  by_cases hsame : s.management.projection.snapshot.summary.metadata = metadata
  · simp only [if_pos hsame]
    rfl
  · simp only [if_neg hsame]
    exact answer_bind fun next => answer_store next

/-- `complete_closed` is its two parts with nothing in between. -/
theorem completeClosed_eq (owner threadId : String) (now : Nat) :
    outcome (do
      Lane.completeClosed owner threadId now journal
      return s.management.projection.snapshot.lifecycle == .closing) s =
      (completeClosed owner threadId now).answer journal s
        ((completeClosed owner threadId now).prepare s) := by
  unfold Lane.completeClosed prepare
  simp only [bind_assoc]
  rw [outcome_bind, outcome_get]
  refine answer_bind fun _ => ?_
  cases s.management.projection.snapshot.lifecycle with
  | opened => rfl
  | closing =>
    simp only [bind_assoc]
    exact answer_bind fun next => answer_store next
  | closed => rfl

/-- What is prepared is the event of the operation over the current projection. -/
theorem prepare_ok {next : ManagementProjection} {envelope : SessionEventEnvelopeV2}
    (h : operation.prepare s = .ok (some (next, envelope))) :
    ∃ now, s.management.projection.prepare now operation.payload none = .ok (next, envelope) := by
  cases operation with
  | replaceMetadata owner threadId expectedViewRevision metadata now =>
    obtain ⟨_, -, h⟩ := bind_ok h
    obtain ⟨_, -, h⟩ := bind_ok h
    obtain ⟨_, -, h⟩ := bind_ok h
    obtain ⟨-, h⟩ := refuse_bind_ok h
    obtain ⟨-, h⟩ := refuse_bind_ok h
    obtain ⟨-, h⟩ := refuse_bind_ok h
    split at h
    · cases h
    · obtain ⟨_, hp, h⟩ := bind_ok h
      cases h
      exact ⟨now, mapError_ok_iff.mp hp⟩
  | completeClosed owner threadId now =>
    obtain ⟨_, -, h⟩ := bind_ok h
    split at h
    · obtain ⟨_, hp, h⟩ := bind_ok h
      cases h
      exact ⟨now, mapError_ok_iff.mp hp⟩
    · cases h
    · cases h

/-- A replacement passes its preparation on an open session whose owner is connected, at its revision. -/
theorem prepare_replaceMetadata {owner threadId : String} {expectedViewRevision : Nat}
    {metadata : JsonMap} {now : Nat}
    {r : Option (ManagementProjection × SessionEventEnvelopeV2)}
    (h : (replaceMetadata owner threadId expectedViewRevision metadata now).prepare s = .ok r) :
    s.management.acceptingMetadata = true ∧ s.management.projection.snapshot.lifecycle = .opened ∧
      s.management.projection.snapshot.summary.revision = expectedViewRevision := by
  obtain ⟨_, -, h⟩ := bind_ok h
  obtain ⟨_, -, h⟩ := bind_ok h
  obtain ⟨_, -, h⟩ := bind_ok h
  obtain ⟨haccept, h⟩ := refuse_bind_ok h
  obtain ⟨hopen, h⟩ := refuse_bind_ok h
  obtain ⟨hrevision, -⟩ := refuse_bind_ok h
  exact ⟨by simpa using haccept, by simpa using hopen, (by simpa using hrevision : _ = _).symm⟩

end

end LaneOperation

/-! ## Commits -/

namespace Commit

variable [External] [EventSerde] {p p' : ManagementProjection} {event : Option SessionEventEnvelopeV2}

/-- An event moves the view revision by one. -/
theorem revision (h : Commit p p' event) :
    p'.snapshot.summary.revision = p.snapshot.summary.revision + event.toList.length := by
  cases h with
  | quiet same => rw [same]; rfl
  | event prepared =>
    obtain ⟨ha, -⟩ := ManagementProjection.prepare_ok prepared
    rw [(SessionSnapshotV2.validate_iff.mp ha.target).revision, ha.cursor_eq, ha.cursor,
      (SessionSnapshotV2.validate_iff.mp ha.source).revision]
    rfl

/-- The metadata changes with a metadata event only. -/
theorem metadata (h : Commit p p' event) (hno : ∀ e ∈ event, ∀ m, e.payload ≠ .metadataChanged m) :
    p'.snapshot.summary.metadata = p.snapshot.summary.metadata := by
  cases h with
  | quiet same => rw [same]
  | @event _ _ _ e prepared =>
    obtain ⟨ha, -⟩ := ManagementProjection.prepare_ok prepared
    have hm := ha.managed.1
    have hno := hno e rfl
    generalize e.payload = payload at hm hno
    cases hm with
    | run _ _ h => exact h
    | metadata _ _ _ => exact absurd rfl (hno _)
    | closing _ _ h => exact h
    | closed _ _ h => exact h

/-- A session that is not open does not open, and its metadata stays. -/
theorem not_opened (h : Commit p p' event) (hs : p.snapshot.lifecycle ≠ .opened) :
    p'.snapshot.lifecycle ≠ .opened ∧ p'.snapshot.summary.metadata = p.snapshot.summary.metadata := by
  cases h with
  | quiet same => rw [same]; exact ⟨hs, rfl⟩
  | @event _ _ _ e prepared =>
    obtain ⟨ha, -⟩ := ManagementProjection.prepare_ok prepared
    have hm := ha.managed.1
    generalize e.payload = payload at hm
    cases hm with
    | run _ hl hm => exact ⟨hl ▸ hs, hm⟩
    | metadata hopen _ _ => exact absurd hopen hs
    | closing hopen _ _ => exact absurd hopen hs
    | closed _ hl hm => exact ⟨by rw [hl]; simp, hm⟩

theorem persistence (h : Commit p p' event) : p'.snapshot.persistence = p.snapshot.persistence := by
  cases h with
  | quiet same => rw [same]
  | event prepared => exact (ManagementProjection.prepare_ok prepared).1.managed.2

end Commit

section
variable [External] [EventSerde]

/-- A call that awaits nothing commits at most one event, and not one of metadata. -/
theorem Lane.Call.perform_brief {call : Lane.Call} (hb : call.brief = true) (s : Projections) :
    (∃ event, Commit s.management.projection (call.perform s).2.management.projection event ∧
      ∀ e ∈ event, ∀ m, e.payload ≠ .metadataChanged m) ∧
    (call.perform s).2.management.acceptingMetadata = s.management.acceptingMetadata := by
  rcases hc : call.perform s with ⟨r, s'⟩
  have hquiet : s' = s → (∃ event, Commit s.management.projection s'.management.projection event ∧
      ∀ e ∈ event, ∀ m, e.payload ≠ .metadataChanged m) ∧
      s'.management.acceptingMetadata = s.management.acceptingMetadata := by
    rintro rfl
    exact ⟨⟨none, .quiet rfl, by simp⟩, rfl⟩
  cases r with
  | error e =>
    have h := call.perform_atomic s e
    rw [hc] at h
    exact hquiet (h rfl)
  | ok b =>
    cases call with
    | publishRun owner mutation occurredAtMs =>
      obtain ⟨r, t, hr, ht⟩ := outcome_bind_ok hc
      cases ht
      obtain ⟨views, projection, history, -, -, hm, -, rfl⟩ := publishRun_ok hr
      obtain ⟨payload, payload', identity, hrun, -, hp⟩ := Projections.prepareManagement_ok hm
      have hevent : ∀ m, r.2.payload ≠ .metadataChanged m := by
        intro m hpay
        rw [(ManagementProjection.prepare_ok hp).2.1] at hpay
        cases hpay
        cases hrun
      cases history with
      | none => exact ⟨⟨some r.2, .event hp, by simpa using hevent⟩, rfl⟩
      | some archive => exact ⟨⟨some r.2, .event hp, by simpa using hevent⟩, rfl⟩
    | beginClosing owner threadId now =>
      obtain ⟨_, t, hr, ht⟩ := outcome_bind_ok hc
      cases ht
      unfold Lane.beginClosing at hr
      have hr := outcome_get_bind_ok hr
      obtain ⟨_, -, hr⟩ := outcome_of_bind_ok hr
      cases hl : s.management.projection.snapshot.lifecycle with
      | opened =>
        rw [hl] at hr
        obtain ⟨⟨next, e⟩, hp, hr⟩ := prepared_bind_ok hr
        cases hr
        refine ⟨⟨some e, .event hp, ?_⟩, rfl⟩
        simp [(ManagementProjection.prepare_ok hp).2.1]
      | closing =>
        rw [hl] at hr
        cases hr
        exact hquiet rfl
      | closed =>
        rw [hl] at hr
        cases hr
        exact hquiet rfl
    | retireRun owner threadId turnId identity =>
      rcases retireRun_eq owner threadId turnId identity s with ⟨views, projection, hv, hm, he⟩ | he
      · simp only [Call.perform, he, Prod.mk.injEq] at hc
        rw [← hc.2]
        refine ⟨⟨none, .quiet ?_, by simp⟩, rfl⟩
        rw [ManagementProjection.prepareRetireRun_some hm]
        rfl
      · simp only [Call.perform, he, Prod.mk.injEq] at hc
        exact hquiet hc.2.symm
    | replaceMetadata => cases hb
    | completeClosed => cases hb

end

/-! ## The journal -/

/-- The stored configuration has the metadata. -/
def Durable [External] (r : SessionRecord) (metadata : JsonMap) : Prop :=
  ∃ c, PersistedConfiguration.parseAndMigrate r.configuration = .ok (c, false) ∧ c.metadata = metadata

section
variable [External]

/-- A normalized replacement of a configuration keeps its metadata. -/
theorem normalizeReplacement_durable {current v v' : Value} {c : PersistedConfiguration}
    (hc : PersistedConfiguration.parseAndMigrate current = .ok (c, false))
    (h : normalizeConfigurationReplacement current v = .ok v') :
    ∃ c', PersistedConfiguration.parseAndMigrate v' = .ok (c', false) ∧ c'.metadata = c.metadata := by
  obtain ⟨w, hw, h⟩ := bind_ok h
  obtain ⟨p, hp, h⟩ := bind_ok h
  obtain ⟨q, hq, h⟩ := bind_ok h
  rw [parseVersioned_of_parse hc] at hp
  cases hp
  cases q with
  | none => cases h
  | some q =>
    obtain ⟨c', m⟩ := q
    obtain ⟨hmeta, h⟩ := refuse_bind_ok h
    cases h
    -- what is normalized parses without migration
    obtain ⟨n, hn, hw⟩ := bind_ok hw
    cases n with
    | none =>
      cases hw
      rw [hn] at hq
      cases hq
    | some n =>
      obtain ⟨c₀, m₀⟩ := n
      cases hw
      have hwell := parseVersioned_some hn
      rw [parseVersioned_intoValue hwell] at hq
      cases hq
      exact ⟨c', PersistedConfiguration.parse_intoValue hwell, (by simpa using hmeta : _ = _).symm⟩

theorem apply_durable {r r' : SessionRecord} {inp : Inputs} {action : Action} {response : Response}
    {metadata : JsonMap} (hlive : r.forgotten = false) (hr : Durable r metadata)
    (hother : ∀ m, action ≠ .replaceMetadata m) (h : apply r inp action = .ok (response, r')) :
    Durable r' metadata := by
  by_cases hrec : action = .record
  · subst hrec
    cases h
    exact hr
  obtain ⟨label, happ⟩ := apply_effect hlive hrec h
  obtain ⟨c, hc, rfl⟩ := hr
  cases happ with
  | accepted => exact ⟨c, hc, rfl⟩
  | repeated => exact ⟨c, hc, rfl⟩
  | commit => exact ⟨c, hc, rfl⟩
  | finalize => exact ⟨c, hc, rfl⟩
  | replace _ normal => exact normalizeReplacement_durable hc normal
  | replaceMetadata => exact absurd rfl (hother _)
  | acknowledge => exact ⟨c, hc, rfl⟩
  | detach => exact ⟨c, hc, rfl⟩

/-- The lease and the configuration of what a command other than a detachment writes. -/
theorem written_holds {l : Lease} {r r' : SessionRecord} {inp : Inputs} {action : Action}
    {response : Response} (hl : l.holds r = true) (hdetach : action ≠ .detach)
    (h : apply r inp action = .ok (response, r')) (next : Nat) :
    l.holds (written r' inp next) = true := by
  by_cases hrec : action = .record
  · subst hrec
    cases h
    exact hl
  obtain ⟨label, happ⟩ := apply_effect (lease_holds_iff.mp hl).2.2.2.2 hrec h
  cases happ with
  | detach => exact absurd rfl hdetach
  | _ => exact hl

/-- A poisoned worker stays poisoned. -/
theorem Worker.serve_poison {l : Lease} {w : Worker} {c : Command} {b : Behaviour}
    (h : (w.serve l c b).1.poison = none) : w.poison = none := by
  cases hw : w.poison with
  | none => rfl
  | some cause =>
    unfold Worker.serve at h
    rw [hw] at h
    exact hw.symm.trans h

/-- A pass of the worker writes nothing, or what the command makes of the stored record. An error or a
poison goes with anything but a pass that writes and is acknowledged. -/
theorem Worker.serve_writes (l : Lease) (w : Worker) (c : Command) (b : Behaviour) :
    ((w.serve l c b).1.records = w.records ∧
      (c.action = .record ∨ ∃ e, (w.serve l c b).2.reply = .error e)) ∨
    ∃ r response r' next, w.records.get? l.id = some r ∧ l.holds r = true ∧
      apply r c.inputs c.action = .ok (response, r') ∧
      (w.serve l c b).1.records = w.records.insert l.id (written r' c.inputs next) ∧
      ((∃ answer, (w.serve l c b).2.reply = .ok answer) ∨
        (w.serve l c b).1.poison.isSome ∧ ∃ e, (w.serve l c b).2.reply = .error e) := by
  unfold Worker.serve
  cases w.poison with
  | some cause => exact .inl ⟨rfl, .inr ⟨_, rfl⟩⟩
  | none =>
    simp only
    cases hload : (BackendCall.load (b.load.result (w.records.get? l.id))).failed with
    | true =>
      obtain ⟨e, cause, ha⟩ := afterLoad_unloaded l c.inputs c.action hload
      rw [ha]
      exact .inl ⟨rfl, .inr ⟨e, rfl⟩⟩
    | false =>
      obtain ⟨r, hr, hstored⟩ := LoadBehaviour.result_some hload
      rw [hr]
      obtain ⟨e, ha⟩ | ⟨ha, hread⟩ | ⟨expected, new, response, ha⟩ :=
        afterLoad_loaded l c.inputs c.action r
      · rw [ha]
        exact .inl ⟨rfl, .inr ⟨e, rfl⟩⟩
      · exact .inl ⟨by rw [hread], .inl ha⟩
      · have hsubmit : (Writer.journal l c.inputs c.action).submit r =
            some ⟨expected, new, some response⟩ := by
          show (afterLoad l c.inputs c.action (.ok (some r))).submission = _
          rw [ha]
          rfl
        obtain ⟨hl, -, response', r', next, happ, -, he⟩ := journal_submit hsubmit
        cases he
        rw [ha]
        simp only
        obtain ⟨s', hs, hp⟩ | ⟨e, s', hp, rfl | rfl⟩ := perform_cases b.exchange w.records l.id
          r.revision (written r' c.inputs next)
        · obtain ⟨_, -, -, rfl⟩ := compareExchange_ok hs
          rw [hp]
          exact .inr ⟨r, response, r', next, hstored, hl, happ, rfl, .inl ⟨_, rfl⟩⟩
        · rw [hp]
          exact .inl ⟨rfl, .inr ⟨_, rfl⟩⟩
        · rw [hp]
          exact .inr ⟨r, response, r', next, hstored, hl, happ, rfl, .inr ⟨rfl, _, rfl⟩⟩

/-- What the worker makes of a record whose configuration has some metadata, when another command than a
replacement of it is served. -/
theorem Worker.serve_durable {l : Lease} {w : Worker} {c : Command} {b : Behaviour} {metadata : JsonMap}
    (hother : ∀ m, c.action ≠ .replaceMetadata m)
    (h : ∀ r, w.records.get? l.id = some r → l.holds r = true → Durable r metadata) {r : SessionRecord}
    (hr : (w.serve l c b).1.records.get? l.id = some r) (hl : l.holds r = true) :
    Durable r metadata := by
  rcases w.serve_writes l c b with ⟨hsame, -⟩ | ⟨r₀, response, r', next, hr₀, hl₀, happ, hnew, -⟩
  · rw [hsame] at hr
    exact h r hr hl
  · rw [hnew, OrdMap.get?_insert_self] at hr
    cases hr
    obtain ⟨c', hc', hm⟩ := apply_durable (lease_holds_iff.mp hl₀).2.2.2.2 (h r₀ hr₀ hl₀) hother happ
    exact ⟨c', hc', hm⟩

/-- What a replacement that the journal acknowledges leaves in the store. -/
theorem Worker.serve_replaceMetadata {l : Lease} {w : Worker} {inputs : Inputs} {b : Behaviour}
    {metadata : JsonMap} {answer : Response}
    (h : (w.serve l ⟨.replaceMetadata metadata, inputs⟩ b).2.reply = .ok answer) :
    ∃ r, (w.serve l ⟨.replaceMetadata metadata, inputs⟩ b).1.records.get? l.id = some r ∧
      l.holds r = true ∧ Durable r metadata := by
  rcases w.serve_writes l ⟨.replaceMetadata metadata, inputs⟩ b with
    ⟨-, hrec | ⟨e, he⟩⟩ | ⟨r₀, response, r', next, hr₀, hl₀, happ, hnew, -⟩
  · cases hrec
  · rw [h] at he
    cases he
  · refine ⟨written r' inputs next, by rw [hnew, OrdMap.get?_insert_self],
      written_holds hl₀ (by simp) happ next, ?_⟩
    obtain ⟨label, heff⟩ := apply_effect (lease_holds_iff.mp hl₀).2.2.2.2 (by simp) happ
    cases heff with
    | replaceMetadata parsed replaced =>
      obtain ⟨_, -, hnew⟩ := bind_ok replaced
      cases hnew
      have hwell := PersistedConfiguration.parseAndMigrate_wellFormed parsed
      exact ⟨_, PersistedConfiguration.parse_intoValue ⟨hwell.defaults, hwell.identity, hwell.metadata⟩,
        rfl⟩

end

/-! ## While the lane is kept -/

section
variable [External] [EventSerde]

omit [External] [EventSerde] in
/-- An operation that succeeds installs what it prepared. -/
theorem LaneHold.finish_ok {h : LaneHold} {stored : Except StoreError Unit} {s s' : Projections} {b : Bool}
    (hf : h.finish stored s = (.ok b, s')) : b = true ∧ s' = s.installProjection h.next := by
  unfold finish at hf
  split at hf
  · cases hf
  · split at hf
    · cases hf
      exact ⟨rfl, rfl⟩
    · cases hf

omit [External] [EventSerde] in
/-- An operation that fails changes nothing. -/
theorem LaneHold.finish_error {h : LaneHold} {stored : Except StoreError Unit} {s s' : Projections}
    {e : SessionManagementFailure} (hf : h.finish stored s = (.error e, s')) : s' = s := by
  unfold finish at hf
  split at hf
  · cases hf
    rfl
  · split at hf
    · cases hf
    · cases hf
      rfl

/-- The session is a persistent one. -/
def LaneState.Persistent (s : LaneState) : Prop :=
  ∃ recoveryId, s.snapshot.persistence = .persistent recoveryId

/-- What is true of an operation while it keeps the lane: the projection is the one it prepared from, and
what the store acknowledged is stored. -/
structure LaneHold.Sound (l : Lease) (s : LaneState) (h : LaneHold) : Prop where
  source : s.snapshot.cursor = h.source
  prepared : ∃ now, s.projections.management.projection.prepare now h.operation.payload none =
    .ok (h.next, h.envelope)
  expected : ∀ owner threadId expected metadata now,
    h.operation = .replaceMetadata owner threadId expected metadata now → s.revision = expected
  durable : s.Persistent → h.stored = some (.ok ()) → ∀ metadata, h.operation.metadata? = some metadata →
    ∃ r, s.worker.records.get? l.id = some r ∧ l.holds r = true ∧ Durable r metadata

/-- Who keeps the lane is sound. -/
def LaneState.Sound (l : Lease) (s : LaneState) : Prop := ∀ h, s.hold = some h → h.Sound l s

omit [External] [EventSerde] in
/-- What a replacement asks of the journal, and the event it publishes. -/
theorem LaneOperation.of_metadata? {operation : LaneOperation} {metadata : JsonMap}
    (h : operation.metadata? = some metadata) :
    operation.action = .replaceMetadata metadata ∧ operation.payload = .metadataChanged metadata := by
  cases operation with
  | replaceMetadata => cases h; exact ⟨rfl, rfl⟩
  | completeClosed => cases h

omit [External] [EventSerde] in
/-- A persistent session has no success at once. -/
theorem Projections.storedAtOnce_persistent {s : Projections} {recoveryId : String}
    (h : s.management.projection.snapshot.persistence = .persistent recoveryId) (journal : Bool) :
    s.storedAtOnce journal ≠ some (.ok ()) := by
  unfold storedAtOnce
  rw [h]
  cases journal <;> simp

theorem LaneStep.sound {l : Lease} {s s' : LaneState} {label : LaneLabel} (hs : s.Sound l)
    (h : LaneStep l s label s') : s'.Sound l := by
  cases h with
  | call free => intro h hh; rw [free] at hh; cases hh
  | refused => exact hs
  | unchanged => exact hs
  | take journal free prepared =>
    intro h hh
    cases hh
    refine ⟨rfl, LaneOperation.prepare_ok prepared, ?_, ?_⟩
    · intro owner threadId expected metadata now he
      cases he
      exact (LaneOperation.prepare_replaceMetadata prepared).2.2
    · rintro ⟨recoveryId, hp⟩ hst
      exact absurd hst (Projections.storedAtOnce_persistent hp journal)
  | @stored h inputs b held awaits =>
    intro h' hh
    cases hh
    obtain ⟨hsource, hprep, hexp, -⟩ := hs h held
    refine ⟨hsource, hprep, hexp, ?_⟩
    intro _ hst metadata hm
    rw [(LaneOperation.of_metadata? hm).1] at hst ⊢
    cases hreply : (s.worker.serve l ⟨.replaceMetadata metadata, inputs⟩ b).2.reply with
    | error e =>
      rw [hreply] at hst
      cases hst
    | ok answer => exact Worker.serve_replaceMetadata hreply
  | installed => intro h hh; cases hh
  | failed => intro h hh; cases hh
  | @serve c b other attached =>
    intro h hh
    obtain ⟨hsource, hprep, hexp, hdur⟩ := hs h hh
    refine ⟨hsource, hprep, hexp, fun hp hst metadata hm => ?_⟩
    obtain ⟨r, hr, hl, hd⟩ := hdur hp hst metadata hm
    have hdetach : c.action ≠ .detach := fun ha => by
      rw [attached ha h hh] at hm
      cases hm
    rcases s.worker.serve_writes l c b with ⟨hsame, -⟩ | ⟨r₀, _, r', next, hr₀, hl₀, happ, hnew, -⟩
    · exact ⟨r, by rw [← hr]; exact congrArg (OrdMap.get? · l.id) hsame, hl, hd⟩
    · have hget : (s.worker.serve l c b).1.records.get? l.id = some (written r' c.inputs next) := by
        rw [hnew, OrdMap.get?_insert_self]
      have hl' := written_holds hl₀ hdetach happ next
      refine ⟨_, hget, hl', Worker.serve_durable other (fun r₁ hr₁ _ => ?_) hget hl'⟩
      rw [hr] at hr₁
      cases hr₁
      exact hd
  | disconnect => 
    intro h hh
    obtain ⟨hsource, hprep, hexp, hdur⟩ := hs h hh
    exact ⟨hsource, hprep, hexp, hdur⟩
  | elsewhere leased =>
    intro h hh
    obtain ⟨hsource, hprep, hexp, hdur⟩ := hs h hh
    refine ⟨hsource, hprep, hexp, fun hp hst metadata hm => ?_⟩
    obtain ⟨r, hr, hl, hd⟩ := hdur hp hst metadata hm
    exact ⟨r, (leased r hl).mpr hr, hl, hd⟩

/-- A step installs the event of its label, or shows none. -/
theorem LaneStep.commit {l : Lease} {s s' : LaneState} {label : LaneLabel} (hs : s.Sound l)
    (h : LaneStep l s label s') :
    Commit s.projections.management.projection s'.projections.management.projection label.event := by
  cases h with
  | call _ _ commit => exact commit
  | @installed h projections held answered finished =>
    obtain ⟨now, hp⟩ := (hs h held).prepared
    obtain ⟨-, rfl⟩ := LaneHold.finish_ok finished
    exact .event hp
  | failed held answered finished =>
    obtain rfl := LaneHold.finish_error finished
    exact .quiet rfl
  | _ => exact .quiet rfl

omit [External] [EventSerde] in
theorem LaneLabel.changed_iff {label : LaneLabel} {expected : Nat} : label.changed expected = true ↔
    ∃ owner threadId metadata now event,
      label = .answer (.replaceMetadata owner threadId expected metadata now) (.ok true) event := by
  constructor
  · intro h
    unfold changed at h
    split at h
    · obtain rfl : _ = expected := by simpa using h
      exact ⟨_, _, _, _, _, rfl⟩
    · cases h
  · rintro ⟨_, _, _, _, _, rfl⟩
    simp [changed]

/-- An operation that answers that it changed something kept the lane, and installed what it prepared. -/
theorem LaneStep.answered {l : Lease} {s s' : LaneState} {operation : LaneOperation}
    {event : Option SessionEventEnvelopeV2} (h : LaneStep l s (.answer operation (.ok true) event) s') :
    ∃ hold, s.hold = some hold ∧ hold.operation = operation ∧ hold.stored = some (.ok ()) ∧
      event = some hold.envelope ∧
      s' = { s with projections := s.projections.installProjection hold.next, hold := none } := by
  generalize hl : LaneLabel.answer operation (.ok true) event = label at h
  cases h with
  | installed held answered finished =>
    cases hl
    obtain ⟨-, rfl⟩ := LaneHold.finish_ok finished
    exact ⟨_, held, rfl, answered, rfl, rfl⟩
  | _ => cases hl

/-- A replacement that answers that it changed the metadata met its revision, and commits an event. -/
theorem LaneStep.changed {l : Lease} {s s' : LaneState} {label : LaneLabel} (hs : s.Sound l)
    (h : LaneStep l s label s') {expected : Nat} (hc : label.changed expected = true) :
    s.revision = expected ∧ label.event.isSome = true := by
  obtain ⟨owner, threadId, metadata, now, event, rfl⟩ := LaneLabel.changed_iff.mp hc
  obtain ⟨hold, held, hop, -, rfl, -⟩ := h.answered
  exact ⟨(hs hold held).expected owner threadId expected metadata now hop, rfl⟩

/-- What an operation that keeps the lane makes of the metadata. -/
theorem LaneHold.Sound.metadata {l : Lease} {s : LaneState} {h : LaneHold} (hs : h.Sound l s) :
    h.next.snapshot.summary.metadata = h.operation.metadata?.getD s.metadata := by
  obtain ⟨now, hp⟩ := hs.prepared
  obtain ⟨ha, he, -⟩ := ManagementProjection.prepare_ok hp
  have hpay : h.envelope.payload = h.operation.payload := by rw [he]
  have hm := ha.managed.1
  rw [hpay] at hm
  cases hop : h.operation with
  | replaceMetadata owner threadId expected metadata now =>
    rw [hop] at hm
    cases hm with
    | run hrun => cases hrun
    | metadata _ _ changed => exact changed
  | completeClosed owner threadId now =>
    rw [hop] at hm
    cases hm with
    | run hrun => cases hrun
    | closed _ _ hmeta => exact hmeta

/-- The metadata changes when a replacement is installed, and then it is the one it carries. -/
theorem LaneStep.metadata {l : Lease} {s s' : LaneState} {label : LaneLabel} (hs : s.Sound l)
    (h : LaneStep l s label s') : s'.metadata = s.metadata ∨
      ∃ hold, s.hold = some hold ∧ s'.hold = none ∧ hold.stored = some (.ok ()) ∧
        hold.operation.metadata? = some s'.metadata := by
  have hcommit := h.commit hs
  cases h with
  | @call call event free brief commit =>
    obtain ⟨⟨event, hc, hno⟩, -⟩ := Lane.Call.perform_brief brief s.projections
    exact .inl (hc.metadata hno)
  | @installed hold projections held answered finished =>
    obtain ⟨-, rfl⟩ := LaneHold.finish_ok finished
    have hafter := (hs hold held).metadata
    cases hm : hold.operation.metadata? with
    | none => exact .inl (by rw [hm] at hafter; exact hafter)
    | some metadata =>
      rw [hm] at hafter
      exact .inr ⟨hold, held, rfl, answered, hm.trans (congrArg some hafter.symm)⟩
  | failed held answered finished =>
    obtain rfl := LaneHold.finish_error finished
    exact .inl rfl
  | _ => exact .inl rfl

/-- A disconnected owner stays disconnected. -/
theorem LaneStep.accepting {l : Lease} {s s' : LaneState} {label : LaneLabel}
    (h : LaneStep l s label s') (hs : s.projections.management.acceptingMetadata = false) :
    s'.projections.management.acceptingMetadata = false := by
  cases h with
  | call free brief commit => exact (Lane.Call.perform_brief brief s.projections).2.trans hs
  | installed held answered finished =>
    obtain ⟨-, rfl⟩ := LaneHold.finish_ok finished
    exact hs
  | failed held answered finished =>
    obtain rfl := LaneHold.finish_error finished
    exact hs
  | disconnect => rfl
  | _ => exact hs

/-- Who keeps the lane keeps it until it answers, and nobody else changes the projection meanwhile. -/
theorem LaneStep.held {l : Lease} {s s' : LaneState} {label : LaneLabel} (h : LaneStep l s label s')
    {hold : LaneHold} (hs : s.hold = some hold) (hl : label.answers = false) :
    (∃ stored, s'.hold = some { hold with stored }) ∧
      s'.projections.management.projection = s.projections.management.projection := by
  cases h with
  | call free => rw [free] at hs; cases hs
  | refused free => rw [free] at hs; cases hs
  | unchanged free => rw [free] at hs; cases hs
  | take journal free => rw [free] at hs; cases hs
  | stored held awaits =>
    rw [held] at hs
    cases hs
    exact ⟨⟨_, rfl⟩, rfl⟩
  | installed => cases hl
  | failed => cases hl
  | _ => exact ⟨⟨hold.stored, hs⟩, rfl⟩

/-- After a disconnect no replacement takes the lane. -/
theorem LaneStep.hold_disconnected {l : Lease} {s s' : LaneState} {label : LaneLabel}
    (h : LaneStep l s label s') (ha : s.projections.management.acceptingMetadata = false)
    {hold : LaneHold} (hs : s'.hold = some hold) {metadata : JsonMap}
    (hm : hold.operation.metadata? = some metadata) :
    ∃ hold', s.hold = some hold' ∧ hold'.operation = hold.operation := by
  cases h with
  | take journal free prepared =>
    cases hs
    rename_i operation _ _
    cases operation with
    | completeClosed => cases hm
    | replaceMetadata =>
      rw [(LaneOperation.prepare_replaceMetadata prepared).1] at ha
      cases ha
  | stored held awaits =>
    cases hs
    exact ⟨_, held, rfl⟩
  | installed => cases hs
  | failed => cases hs
  | _ => exact ⟨hold, hs, rfl⟩

/-! ## Runs -/

variable {l : Lease} {s t : LaneState} {ls : List LaneLabel}

theorem run_sound (h : Lts.Run (LaneStep l) s ls t) (hs : s.Sound l) : t.Sound l :=
  h.invariant (LaneState.Sound l) (fun _ _ _ hs hstep => hstep.sound hs) hs

/-- The view revision counts the events. -/
theorem run_revision (h : Lts.Run (LaneStep l) s ls t) (hs : s.Sound l) :
    t.revision = s.revision + (ls.filterMap LaneLabel.event).length := by
  induction h with
  | nil => rfl
  | @cons s u t label ls hstep _ ih =>
    have hrev : u.revision = s.revision + label.event.toList.length := (hstep.commit hs).revision
    rw [ih (hstep.sound hs), hrev]
    cases hl : label.event with
    | none => simp [hl]
    | some e => simp [hl]; omega

/-- A revision that the session has passed changes nothing any more. -/
theorem run_passed (h : Lts.Run (LaneStep l) s ls t) (hs : s.Sound l) {expected : Nat}
    (hlt : expected < s.revision) : ls.countP (·.changed expected) = 0 := by
  rw [List.countP_eq_zero]
  intro label hmem hc
  obtain ⟨before, after, rfl⟩ := List.append_of_mem hmem
  obtain ⟨u, hbefore, hafter⟩ := h.split
  cases hafter with
  | cons hstep _ =>
    have hu := hstep.changed (run_sound hbefore hs) hc
    have := run_revision hbefore hs
    omega

/-- Of the replacements with one revision at most one changes the metadata. -/
theorem run_changed (h : Lts.Run (LaneStep l) s ls t) (hs : s.Sound l) (expected : Nat) :
    ls.countP (·.changed expected) ≤ 1 := by
  induction h with
  | nil => simp
  | @cons s u t label ls hstep hrest ih =>
    rw [List.countP_cons]
    cases hc : label.changed expected with
    | false => simpa [hc] using ih (hstep.sound hs)
    | true =>
      obtain ⟨hrev, he⟩ := hstep.changed hs hc
      have hnext : u.revision = s.revision + label.event.toList.length := (hstep.commit hs).revision
      obtain ⟨e, he⟩ := Option.isSome_iff_exists.mp he
      rw [he] at hnext
      have hpassed : expected < u.revision := by
        simp only [Option.toList_some, List.length_singleton] at hnext
        omega
      simp [run_passed hrest (hstep.sound hs) hpassed]

/-- A session that is not open keeps its metadata. -/
theorem run_not_opened (h : Lts.Run (LaneStep l) s ls t) (hs : s.Sound l)
    (hl : s.snapshot.lifecycle ≠ .opened) : t.metadata = s.metadata := by
  induction h with
  | nil => rfl
  | cons hstep _ ih =>
    obtain ⟨hl', hm⟩ := (hstep.commit hs).not_opened hl
    exact (ih (hstep.sound hs) hl').trans hm

/-- Nobody but the caller that keeps the lane replaces the metadata after a disconnect. -/
theorem run_disconnected (h : Lts.Run (LaneStep l) s ls t) (hs : s.Sound l)
    (ha : s.projections.management.acceptingMetadata = false) :
    t.metadata = s.metadata ∨
      ∃ hold, s.hold = some hold ∧ hold.operation.metadata? = some t.metadata := by
  induction h with
  | nil => exact .inl rfl
  | cons hstep _ ih =>
    rcases hstep.metadata hs with hsame | ⟨hold, hhold, hfree, -, hmeta⟩
    · rcases ih (hstep.sound hs) (hstep.accepting ha) with ht | ⟨hold, hhold, hmeta⟩
      · exact .inl (ht.trans hsame)
      · obtain ⟨hold', hhold', hop⟩ := hstep.hold_disconnected ha hhold hmeta
        exact .inr ⟨hold', hhold', hop ▸ hmeta⟩
    · rcases ih (hstep.sound hs) (hstep.accepting ha) with ht | ⟨hold', hhold', -⟩
      · exact .inr ⟨hold, hhold, ht ▸ hmeta⟩
      · rw [hfree] at hhold'
        cases hhold'

/-- Between its preparation and its answer an operation leaves the projection alone, and so does everyone
else. -/
theorem run_held (h : Lts.Run (LaneStep l) s ls t) {hold : LaneHold} (hs : s.hold = some hold)
    (hl : ∀ label ∈ ls, label.answers = false) :
    t.projections.management.projection = s.projections.management.projection := by
  induction h generalizing hold with
  | nil => rfl
  | cons hstep _ ih =>
    obtain ⟨⟨stored, hu⟩, hp⟩ := hstep.held hs (hl _ List.mem_cons_self)
    exact (ih hu fun label hm => hl label (List.mem_cons_of_mem _ hm)).trans hp

/-! ## The journal holds the projected metadata -/

omit [External] [EventSerde] in
/-- The metadata that the store should have: that of an acknowledged replacement, or the projected one. -/
def LaneState.storedMetadata (s : LaneState) : JsonMap :=
  match s.hold with
  | some ⟨operation, _, _, _, some (.ok ())⟩ => operation.metadata?.getD s.metadata
  | _ => s.metadata

omit [External] [EventSerde] in
theorem LaneState.storedMetadata_free (h : s.hold = none) : s.storedMetadata = s.metadata := by
  simp [storedMetadata, h]

omit [External] [EventSerde] in
theorem LaneState.storedMetadata_ok {hold : LaneHold} (h : s.hold = some hold)
    (hst : hold.stored = some (.ok ())) :
    s.storedMetadata = hold.operation.metadata?.getD s.metadata := by
  obtain ⟨operation, source, next, envelope, stored⟩ := hold
  cases hst
  simp [storedMetadata, h]

omit [External] [EventSerde] in
theorem LaneState.storedMetadata_not_ok {hold : LaneHold} (h : s.hold = some hold)
    (hst : hold.stored ≠ some (.ok ())) : s.storedMetadata = s.metadata := by
  obtain ⟨operation, source, next, envelope, stored⟩ := hold
  unfold storedMetadata
  rw [h]
  split
  · rename_i he
    cases he
    exact absurd rfl hst
  · rfl

/-- The record that the lease of a persistent session holds has the metadata, unless the journal is
poisoned. -/
structure LaneState.Agrees (l : Lease) (s : LaneState) : Prop where
  persistent : s.Persistent
  durable : s.worker.poison = none → ∀ r, s.worker.records.get? l.id = some r → l.holds r = true →
    Durable r s.storedMetadata

theorem LaneStep.agrees {s' : LaneState} {label : LaneLabel} (hs : s.Sound l) (ha : s.Agrees l)
    (h : LaneStep l s label s') : s'.Agrees l := by
  obtain ⟨recoveryId, hp⟩ := ha.persistent
  have hpersist : s'.Persistent := ⟨recoveryId, (h.commit hs).persistence.trans hp⟩
  refine ⟨hpersist, ?_⟩
  have hdur := ha.durable
  have hmeta := h.metadata hs
  cases h with
  | @call call event free brief commit =>
    intro hpoison r hr hl
    have hd := hdur hpoison r hr hl
    rw [LaneState.storedMetadata_free free] at hd
    have hafter : LaneState.storedMetadata { s with projections := (call.perform s.projections).2 } =
        LaneState.metadata { s with projections := (call.perform s.projections).2 } :=
      LaneState.storedMetadata_free free
    rw [hafter]
    rcases hmeta with hmeta | ⟨hold, held, -⟩
    · rwa [hmeta]
    · rw [free] at held
      cases held
  | refused => exact hdur
  | unchanged => exact hdur
  | take journal free prepared =>
    intro hpoison r hr hl
    have hd := hdur hpoison r hr hl
    rw [LaneState.storedMetadata_free free] at hd
    rw [LaneState.storedMetadata_not_ok rfl (Projections.storedAtOnce_persistent hp journal)]
    exact hd
  | @stored hold inputs b held awaits =>
    intro hpoison r hr hl
    have hbefore : s.storedMetadata = s.metadata :=
      LaneState.storedMetadata_not_ok held (by rw [awaits]; simp)
    rw [hbefore] at hdur
    have hdur := hdur (Worker.serve_poison hpoison)
    cases hm : hold.operation.metadata? with
    | none =>
      have hafter : ∀ stored, LaneState.storedMetadata { s with
          worker := (s.worker.serve l ⟨hold.operation.action, inputs⟩ b).1
          hold := some { hold with stored } } = s.metadata := by
        intro stored
        by_cases hst : stored = some (.ok ())
        · rw [LaneState.storedMetadata_ok rfl hst, hm]
          rfl
        · exact LaneState.storedMetadata_not_ok rfl hst
      rw [hafter]
      refine Worker.serve_durable ?_ hdur hr hl
      intro m
      cases hop : hold.operation with
      | replaceMetadata => rw [hop] at hm; cases hm
      | completeClosed => simp [LaneOperation.action]
    | some metadata =>
      rw [(LaneOperation.of_metadata? hm).1] at hpoison hr ⊢
      cases hreply : (s.worker.serve l ⟨.replaceMetadata metadata, inputs⟩ b).2.reply with
      | ok answer =>
        rw [LaneState.storedMetadata_ok rfl rfl, hm]
        obtain ⟨r', hr', -, hd⟩ := Worker.serve_replaceMetadata hreply
        rw [hr] at hr'
        cases hr'
        exact hd
      | error e =>
        rw [LaneState.storedMetadata_not_ok rfl (by simp [Except.map])]
        rcases s.worker.serve_writes l ⟨.replaceMetadata metadata, inputs⟩ b with
          ⟨hsame, -⟩ | ⟨_, _, _, _, -, -, -, -, ⟨answer, hok⟩ | ⟨hpoisoned, -⟩⟩
        · rw [hsame] at hr
          exact hdur r hr hl
        · rw [hreply] at hok
          cases hok
        · rw [hpoison] at hpoisoned
          cases hpoisoned
  | @installed hold projections held answered finished =>
    intro hpoison r hr hl
    have hd := hdur hpoison r hr hl
    rw [LaneState.storedMetadata_ok held answered, ← (hs hold held).metadata] at hd
    rw [LaneState.storedMetadata_free rfl]
    obtain ⟨-, rfl⟩ := LaneHold.finish_ok finished
    exact hd
  | @failed hold stored e projections held answered finished =>
    intro hpoison r hr hl
    obtain rfl := LaneHold.finish_error finished
    have hd := hdur hpoison r hr hl
    rw [LaneState.storedMetadata_free rfl]
    rwa [LaneState.storedMetadata_not_ok held ?_] at hd
    rintro hok
    rw [answered] at hok
    cases hok
    have hsource : s.projections.management.projection.snapshot.cursor = hold.source :=
      (hs hold held).source
    rw [LaneHold.finish, if_pos hsource] at finished
    cases finished
  | @serve c b other attached =>
    intro hpoison r hr hl
    exact Worker.serve_durable other (hdur (Worker.serve_poison hpoison)) hr hl
  | disconnect => exact hdur
  | elsewhere leased => 
    intro hpoison r hr hl
    exact hdur hpoison r ((leased r hl).mp hr) hl

/-- The journal holds the metadata that a successful replacement projects, and goes on holding it. -/
theorem run_agrees (h : Lts.Run (LaneStep l) s ls t) (hs : s.Sound l) (ha : s.Agrees l) : t.Agrees l :=
  (h.invariant (fun s => s.Sound l ∧ s.Agrees l)
    (fun _ _ _ hs hstep => ⟨hstep.sound hs.1, hstep.agrees hs.1 hs.2⟩) ⟨hs, ha⟩).2

theorem LaneStep.replaced {s' : LaneState} (hs : s.Sound l) (hp : s.Persistent) {operation : LaneOperation}
    {event : Option SessionEventEnvelopeV2} (h : LaneStep l s (.answer operation (.ok true) event) s')
    {metadata : JsonMap} (hm : operation.metadata? = some metadata) :
    s'.metadata = metadata ∧ s'.Agrees l ∧
      ∃ r, s'.worker.records.get? l.id = some r ∧ l.holds r = true ∧ Durable r metadata := by
  have hpersist : s'.Persistent := by
    obtain ⟨recoveryId, hp⟩ := hp
    exact ⟨recoveryId, (h.commit hs).persistence.trans hp⟩
  obtain ⟨hold, held, rfl, hstored, -, rfl⟩ := h.answered
  have hsound := hs hold held
  obtain ⟨r, hr, hl, hd⟩ := hsound.durable hp hstored metadata hm
  have hafter : hold.next.snapshot.summary.metadata = metadata := by
    rw [hsound.metadata, hm]
    rfl
  refine ⟨hafter, ⟨hpersist, fun _ r' hr' _ => ?_⟩, r, hr, hl, hd⟩
  rw [LaneState.storedMetadata_free rfl]
  rw [hr] at hr'
  cases hr'
  rw [← hafter] at hd
  exact hd

/-- **Metadata replacement is a compare-and-set.** Whatever the store does, in every run from a state in
which the lane is free: of the replacements with one expected revision at most one changes the metadata,
and when it does every event committed so far is one of those up to that revision; every event raises the
view revision by one; an operation that answers an error leaves the projection and its journal as they were
before it took the lane; after a successful replacement of a persistent session the record that its lease
holds has the projected metadata, and goes on having it while no replacement keeps the lane and the journal
is not poisoned; and the metadata of a session that is not open does not change, nor does that of a session
whose owner is disconnected, except by the replacement that kept the lane then. -/
theorem metadata_compare_and_set (l : Lease) (s t : LaneState) (ls : List LaneLabel)
    (hfree : s.hold = none) (hrun : Lts.Run (LaneStep l) s ls t) :
    (∀ expected, ls.countP (·.changed expected) ≤ 1) ∧
    (∀ before label after expected, ls = before ++ label :: after → label.changed expected = true →
      s.revision + (before.filterMap LaneLabel.event).length = expected) ∧
    (∀ label u, LaneStep l t label u → u.revision = t.revision + label.event.toList.length) ∧
    ((∀ operation e event u, LaneStep l t (.answer operation (.error e) event) u →
        u.projections = t.projections) ∧
      ∀ operation u us v, LaneStep l t (.take operation) u → Lts.Run (LaneStep l) u us v →
        (∀ label ∈ us, label.answers = false) →
        v.projections.management.projection = t.projections.management.projection) ∧
    (∀ operation metadata event u, t.Persistent → operation.metadata? = some metadata →
      LaneStep l t (.answer operation (.ok true) event) u →
      u.metadata = metadata ∧
      (∃ r, u.worker.records.get? l.id = some r ∧ l.holds r = true ∧ Durable r metadata) ∧
      ∀ us v, Lts.Run (LaneStep l) u us v → v.worker.poison = none → v.hold = none →
        ∀ r, v.worker.records.get? l.id = some r → l.holds r = true → Durable r v.metadata) ∧
    (∀ us v, Lts.Run (LaneStep l) t us v →
      (t.snapshot.lifecycle ≠ .opened → v.metadata = t.metadata) ∧
      (t.projections.management.acceptingMetadata = false → v.metadata = t.metadata ∨
        ∃ hold, t.hold = some hold ∧ hold.operation.metadata? = some v.metadata)) := by
  have hs : s.Sound l := fun h hh => by
    rw [hfree] at hh
    cases hh
  have ht := run_sound hrun hs
  refine ⟨run_changed hrun hs, ?_, fun label u h => (h.commit ht).revision, ⟨?_, ?_⟩, ?_,
    fun us v h => ⟨run_not_opened h ht, run_disconnected h ht⟩⟩
  · rintro before label after expected rfl hc
    obtain ⟨u, hbefore, hafter⟩ := hrun.split
    cases hafter with
    | cons hstep _ =>
      rw [← run_revision hbefore hs]
      exact (hstep.changed (run_sound hbefore hs) hc).1
  · intro operation e event u h
    generalize hl : LaneLabel.answer operation (.error e) event = label at h
    cases h with
    | refused => rfl
    | failed held answered finished => exact LaneHold.finish_error finished
    | _ => cases hl
  · intro operation u us v h hus hanswers
    cases h with
    | take journal free prepared =>
      have hheld := run_held hus rfl hanswers
      exact hheld
  · intro operation metadata event u hp hm h
    obtain ⟨hafter, hagrees, hr⟩ := h.replaced ht hp hm
    refine ⟨hafter, hr, fun us v hus hpoison hfree' r hr hl => ?_⟩
    have hd := (run_agrees hus (h.sound ht) hagrees).durable hpoison r hr hl
    rwa [LaneState.storedMetadata_free hfree'] at hd

end

namespace Sample

/-- A replacement of the empty metadata at the first revision. -/
def relabel : LaneOperation := .replaceMetadata "o" "t" 0 [("title", .string "draft")] 7

/-- The recovery key of a stored session. -/
def vaultKey : RecoveryKey := ⟨recoveryId, secretDigest⟩

/-- The record of a stored session. -/
def vault : SessionRecord :=
  @createdRecord host vaultKey
    (PersistedConfiguration.intoValue ⟨[("tools", .array [])], .object [], [], false⟩) "o" "t" 7

/-- A session of this record, without runs. -/
def blankLane : LaneState where
  projections := ⟨viewRecord, { managementRecord with
    projection := { managementRecord.projection with
      snapshot := { managementRecord.projection.snapshot with persistence := .persistent recoveryId } } }⟩
  hold := none
  worker := ⟨none, OrdMap.empty.insert recoveryId vault⟩

theorem relabel_prepared :
    ((@LaneOperation.prepare host serde blankLane.projections relabel).toOption.bind id).isSome = true := by
  decide

theorem relabel_stored : (@Worker.serve host (Lease.of vault) blankLane.worker
    ⟨relabel.action, inputs⟩ {}).2.reply.isOk = true := by
  decide

end Sample

/-- A replacement that is stored and installed. -/
theorem metadata_compare_and_set_sample : ∃ ls t event u,
    Lts.Run (@LaneStep Sample.host Sample.serde (Lease.of Sample.vault)) Sample.blankLane ls t ∧
      @LaneStep Sample.host Sample.serde (Lease.of Sample.vault) t
        (.answer Sample.relabel (.ok true) event) u ∧
      u.metadata = [("title", .string "draft")] ∧
      ∃ r, u.worker.records.get? Sample.recoveryId = some r ∧
        @Durable Sample.host r [("title", .string "draft")] := by
  let _ : External := Sample.host
  let _ : EventSerde := Sample.serde
  obtain ⟨⟨next, envelope⟩, hprep⟩ := Option.isSome_iff_exists.mp Sample.relabel_prepared
  have hprep : Sample.relabel.prepare Sample.blankLane.projections = .ok (some (next, envelope)) := by
    cases hx : Sample.relabel.prepare Sample.blankLane.projections with
    | error e => rw [hx] at hprep; cases hprep
    | ok x => rw [hx] at hprep; exact congrArg Except.ok hprep
  have hreply : (Sample.blankLane.worker.serve (Lease.of Sample.vault)
      ⟨Sample.relabel.action, Sample.inputs⟩ {}).2.reply.map (fun _ => ()) = .ok () := by
    have hok := Sample.relabel_stored
    cases hx : (Sample.blankLane.worker.serve (Lease.of Sample.vault)
      ⟨Sample.relabel.action, Sample.inputs⟩ {}).2.reply with
    | error e => rw [hx] at hok; cases hok
    | ok x => rfl
  have htake := LaneStep.take (l := Lease.of Sample.vault) true rfl hprep
  have hstored := @LaneStep.stored Sample.host Sample.serde (Lease.of Sample.vault) _ _ Sample.inputs {}
    (rfl : LaneState.hold ⟨Sample.blankLane.projections, some ⟨Sample.relabel,
      Sample.blankLane.snapshot.cursor, next, envelope, none⟩, Sample.blankLane.worker⟩ = _) rfl
  simp only [hreply] at hstored
  have hanswer := @LaneStep.installed Sample.host Sample.serde (Lease.of Sample.vault)
    ⟨Sample.blankLane.projections, some ⟨Sample.relabel, Sample.blankLane.snapshot.cursor, next, envelope,
      some (.ok ())⟩, (Sample.blankLane.worker.serve (Lease.of Sample.vault)
        ⟨Sample.relabel.action, Sample.inputs⟩ {}).1⟩ _ _ rfl rfl rfl
  have hrun := (Lts.Run.single htake).snoc hstored
  obtain ⟨-, -, -, -, h, -⟩ := @metadata_compare_and_set Sample.host Sample.serde _ _ _ _ rfl hrun
  obtain ⟨hmeta, ⟨r, hr, -, hd⟩, -⟩ := h _ [("title", .string "draft")] _ _ ⟨_, rfl⟩ rfl hanswer
  exact ⟨_, _, _, _, hrun, hanswer, hmeta, r, hr, hd⟩

end Whale
