import Whale.Store.Proof.Fencing

/-!
# Forgetting is permanent

A tombstone accepts one replacement, the migration of a schema-1 one (`tombstone_write`), so over
every run it keeps its identity and stays empty (`Buried`), and every call on it fails or does
nothing. Thread ids are cleared by `retire`; a tombstone that a store was opened with keeps the ones
it had.
-/

namespace Whale

open Check SharedStore

section
variable [External]

/-- `r'` is the tombstone `r`, or its migration. -/
structure Buried (r r' : SessionRecord) : Prop where
  forgotten : r'.forgotten = true
  recoveryId : r'.recoveryId = r.recoveryId
  secretDigest : r'.secretDigest = r.secretDigest
  threads : r'.historicalThreadIds = r.historicalThreadIds

namespace Buried

omit [External] in
theorem refl {r : SessionRecord} (h : r.forgotten = true) : Buried r r := ⟨h, rfl, rfl, rfl⟩

theorem replaces {r old new : SessionRecord} {expected : Nat} (h : Buried r old)
    (hrep : Replaces old old.recoveryId expected new) : Buried r new := by
  obtain ⟨-, -, hf, ht⟩ := legacy_migration (hrep.tombstone h.forgotten)
  exact ⟨hf.trans h.forgotten, hrep.id.trans h.recoveryId, hrep.digest.trans h.secretDigest,
    ht.trans h.threads⟩

end Buried

/-- Over a run a tombstone stays one. -/
theorem SharedStore.Inv.buried {s t : SharedStore} {es : List Event} (h : Inv s)
    (hrun : Lts.Run Step s es t) {id : String} {r : SessionRecord}
    (hr : s.records.get? id = some r) (hf : r.forgotten = true) :
    ∃ r', t.records.get? id = some r' ∧ Buried r r' := by
  refine (hrun.invariant (fun u => Inv u ∧ ∃ r', u.records.get? id = some r' ∧ Buried r r')
    ?_ ⟨h, r, hr, .refl hf⟩).2
  rintro u e v ⟨hu, r', hr', hb⟩ hstep
  obtain ⟨r'', hr'', rfl | ⟨expected, hrep⟩⟩ := hu.evolves hstep hr'
  · exact ⟨hu.step hstep, r'', hr'', hb⟩
  · rw [← hu.keyed id r' hr'] at hrep
    exact ⟨hu.step hstep, r'', hr'', hb.replaces hrep⟩

/-- The only call that submits anything for a tombstone is `open`, for its schema migration. -/
theorem tombstone_write {w : Writer} {r : SessionRecord} {s : Submission}
    (hf : r.forgotten = true) (h : w.submit r = some s) :
    r.schemaVersion = 1 ∧ ∃ id now, w = .opened id now ∧
      s.new = (r.migrateRetention now).2.withRevision (r.revision + 1) := by
  have hkept : w.keeps = false → False := fun hk => by
    obtain ⟨-, hlive, -⟩ := retire_submit hk h
    rw [hf] at hlive
    cases hlive
  cases w with
  | journal lease inp action =>
    have hholds := (journal_submit h).1
    rw [not_holds_of_forgotten hf] at hholds
    cases hholds
  | attach key expected configuration owner thread now =>
    obtain ⟨-, hlive, -⟩ := attach_submit h
    rw [hf] at hlive
    cases hlive
  | forget => exact (hkept rfl).elim
  | retire => exact (hkept rfl).elim
  | opened id now =>
    obtain ⟨new, hn, rfl⟩ := submission_some h
    obtain ⟨-, hs, next, hnext, rfl⟩ := opened_tombstone hf hn
    obtain ⟨rfl, -⟩ := checkedSucc_some hnext
    exact ⟨hs, id, now, rfl, rfl⟩

/-- Retiring a record clears its thread ids. -/
theorem retired_threads {w : Writer} {r : SessionRecord} {s : Submission}
    (hlive : r.forgotten = false) (h : w.submit r = some s) (hf : s.new.forgotten = true) :
    s.new.historicalThreadIds = [] := by
  have hretired : w.keeps = false → s.new.historicalThreadIds = [] := fun hk => by
    obtain ⟨-, -, -, now, reason, revision, -, rfl⟩ := retire_submit hk h
    rfl
  cases w with
  | journal lease inp action =>
    obtain ⟨-, haction, response, r₁, next, happ, -, rfl⟩ := journal_submit h
    obtain ⟨label, happlied⟩ := apply_effect hlive haction happ
    -- no command sets the mark
    have hsame : r₁.forgotten = r.forgotten := by cases happlied <;> rfl
    rw [show (written r₁ inp next).forgotten = r₁.forgotten from rfl, hsame, hlive] at hf
    cases hf
  | attach key expected configuration owner thread now =>
    obtain ⟨-, -, -, -, -, -, parsed, epoch, revision, -, -, -, rfl⟩ := attach_submit h
    rw [show (SessionRecord.withRevision (attachedRecord r _ owner thread now epoch)
      revision).forgotten = r.forgotten from rfl, hlive] at hf
    cases hf
  | forget => exact hretired rfl
  | retire => exact hretired rfl
  | opened id now =>
    obtain ⟨new, hn, rfl⟩ := submission_some h
    obtain ⟨hv, parsed, ledger, next, -, -, -, rfl⟩ := opened_live hlive hn
    have hnot := (openedRecord_frame hv hlive (migratedConfiguration r.configuration parsed) now
      ledger).forgotten
    rw [show (SessionRecord.withRevision (openedRecord r _ now ledger) next).forgotten = _ from hnot]
      at hf
    cases hf

/-- Where a record stored after a step comes from. -/
theorem SharedStore.Inv.origin {s s' : SharedStore} {e : Event} (h : Inv s) (hstep : Step s e s')
    {id : String} {r' : SessionRecord} (hr' : s'.records.get? id = some r') :
    s.records.get? id = some r' ∨ r'.forgotten = false ∨
      ∃ p old, Exchanged s p old s'.records ∧ p.writer.target = id ∧ p.submission.new = r' := by
  cases hstep with
  | create built stored =>
    obtain ⟨-, -, rfl⟩ := create_ok stored
    rw [OrdMap.get?_insert] at hr'
    split at hr'
    · cases hr'
      obtain ⟨_, -, built⟩ := bind_ok built
      obtain ⟨_, -, built⟩ := bind_ok built
      obtain ⟨_, -, built⟩ := bind_ok built
      cases built
      exact .inr (.inl rfl)
    · exact .inl hr'
  | load => exact .inl hr'
  | @exchange p before after records under stored =>
    obtain ⟨old, hex⟩ := h.exchanged (by simp [under]) stored
    have hr' : records.get? id = some r' := hr'
    rw [hex.records, OrdMap.get?_insert] at hr'
    split at hr'
    · rename_i he
      cases hr'
      exact .inr (.inr ⟨p, old, hex, he, rfl⟩)
    · exact .inl hr'
  | abandon => exact .inl hr'

/-- The thread ids of a tombstone: none, unless the store was opened with it. -/
theorem SharedStore.Inv.threads {s t : SharedStore} {es : List Event} (h : Inv s)
    (hrun : Lts.Run Step s es t) (id : String) : ∀ r, t.records.get? id = some r →
      r.forgotten = true → r.historicalThreadIds = [] ∨
        ∃ r₀, s.records.get? id = some r₀ ∧ r₀.forgotten = true ∧ Buried r₀ r := by
  refine (hrun.invariant (fun u => Inv u ∧ ∀ r, u.records.get? id = some r → r.forgotten = true →
    r.historicalThreadIds = [] ∨ ∃ r₀, s.records.get? id = some r₀ ∧ r₀.forgotten = true ∧
      Buried r₀ r) ?_ ⟨h, fun r hr hf => .inr ⟨r, hr, hf, .refl hf⟩⟩).2
  rintro u e v ⟨hu, hthreads⟩ hstep
  refine ⟨hu.step hstep, fun r' hr' hf => ?_⟩
  obtain hr | hlive | ⟨p, old, hex, rfl, rfl⟩ := hu.origin hstep hr'
  · exact hthreads r' hr hf
  · rw [hf] at hlive
    cases hlive
  · cases hold : old.forgotten with
    | false => exact .inl (retired_threads hold hex.submitted hf)
    | true =>
      have hrep := hex.replaces
      rw [← hu.keyed _ _ hex.stored] at hrep
      obtain ⟨-, -, -, ht⟩ := legacy_migration (hrep.tombstone hold)
      obtain hnil | ⟨r₀, hr₀, hf₀, hb⟩ := hthreads old hex.stored hold
      · exact .inl (ht.trans hnil)
      · exact .inr ⟨r₀, hr₀, hf₀, hb.replaces hrep⟩

/-! ## Calls on a tombstone -/

theorem attach_forgotten {r : SessionRecord} (hf : r.forgotten = true) (key : RecoveryKey)
    (expected : Nat) (configuration : Value) (owner thread : String) (now : Nat) :
    ∃ e, attachReplacement key expected configuration owner thread now (some r) = .error e := by
  cases h : attachReplacement key expected configuration owner thread now (some r) with
  | error e => exact ⟨e, rfl⟩
  | ok new =>
    have hsub : (Writer.attach key expected configuration owner thread now).submit r =
        some ⟨expected, new, none⟩ := by simp [Writer.submit, h, Except.map, submission]
    obtain ⟨-, hlive, -⟩ := attach_submit hsub
    rw [hf] at hlive
    cases hlive

theorem inspect_forgotten {r : SessionRecord} (hf : r.forgotten = true) (key : RecoveryKey) :
    ∃ e, inspect key (some r) = .error e := by
  unfold inspect
  cases h : authenticated key (some r) with
  | error e => exact ⟨e, rfl⟩
  | ok r' =>
    obtain ⟨hr, -⟩ := authenticated_ok h
    cases hr
    exact ⟨.forgotten, by rw [ok_bind, hf]; rfl⟩

theorem create_taken {s : Records} {r new : SessionRecord}
    (hr : s.get? new.recoveryId = some r) : ∃ e, s.create new = .error e := by
  cases h : s.create new with
  | error e => exact ⟨e, rfl⟩
  | ok s' =>
    obtain ⟨-, hnone, -⟩ := create_ok h
    rw [hr] at hnone
    cases hnone

/-- `forget` on a tombstone with a well-formed key. -/
theorem forget_forgotten {r : SessionRecord} (hv : Valid r) (hf : r.forgotten = true)
    {key : RecoveryKey} (hkey : key.validate = .ok ()) (hid : key.recoveryId = r.recoveryId)
    (expected now : Nat) :
    (digest key.secret = r.secretDigest → forgetReplacement key expected now (some r) = .ok none) ∧
    (digest key.secret ≠ r.secretDigest →
      forgetReplacement key expected now (some r) = .error .unauthorized) := by
  have hvk : validateKey key = .ok () := by simp [validateKey, hkey]
  constructor
  · intro hd
    have hck : checkKey r key = .ok () := by simp [checkKey, hvk, hid, hd]
    have hauth : authenticated key (some r) = .ok r := by
      simp [authenticated, hvk, hck, validate_ok_iff.2 hv]
    simp [forgetReplacement, hauth, hf]
  · intro hd
    have hne : (digest key.secret != r.secretDigest) = true := by simpa using hd
    have hck : checkKey r key = .error .unauthorized := by simp [checkKey, hvk, hid, hne, refuse]
    have hauth : authenticated key (some r) = .error .unauthorized := by
      simp [authenticated, hvk, hck]
    simp [forgetReplacement, hauth]

/-- Once forgotten, a record stays so in every run. It keeps its id and digest and holds no history, no
run, no unknown execution, no owner, no thread and no thread id but those of a tombstone the store
was opened with. Creating, attaching, inspecting and every journal command fail; `forget` with a
well-formed key returns false for the right secret and `Unauthorized` for another; and the only write
that is accepted is the migration of a schema-1 tombstone. -/
theorem forgotten_permanent {s₀ s t : SharedStore} {es fs : List Event} (h₀ : Initial s₀)
    (h : Lts.Run Step s₀ es s) (h' : Lts.Run Step s fs t) {id : String} {r : SessionRecord}
    (hr : s.records.get? id = some r) (hf : r.forgotten = true) :
    ∃ r', t.records.get? id = some r' ∧ r'.forgotten = true ∧ r'.recoveryId = id ∧
      r'.secretDigest = r.secretDigest ∧ r'.history = [] ∧ r'.runs.entries = [] ∧
      r'.unknownExecutions = [] ∧ r'.owner = none ∧ r'.threadId = none ∧
      (r'.historicalThreadIds = [] ∨ ∃ r₀, s₀.records.get? id = some r₀ ∧ r₀.forgotten = true ∧
        r'.historicalThreadIds = r₀.historicalThreadIds) ∧
      (∀ new : SessionRecord, new.recoveryId = id → ∃ e, t.records.create new = .error e) ∧
      (∀ key expected configuration owner thread now, ∃ e,
        attachReplacement key expected configuration owner thread now (some r') = .error e) ∧
      (∀ key, ∃ e, inspect key (some r') = .error e) ∧
      (∀ l inp action,
        afterLoad l inp action (.ok (some r')) = .answer (.error .staleLease) none) ∧
      (∀ (key : RecoveryKey) (expected now : Nat), key.validate = .ok () → key.recoveryId = id →
        (digest key.secret = r.secretDigest →
          forgetReplacement key expected now (some r') = .ok none) ∧
        (digest key.secret ≠ r.secretDigest →
          forgetReplacement key expected now (some r') = .error .unauthorized)) ∧
      (∀ (p : Pending) (t' : SharedStore), Step t (.exchange p) t' → p.writer.target = id →
        r'.schemaVersion = 1 ∧ p.submission.new.schemaVersion = 2 ∧ ∃ now,
          p.writer = .opened id now ∧
          p.submission.new = (r'.migrateRetention now).2.withRevision (r'.revision + 1)) := by
  have hs := h₀.run h
  have ht := hs.run h'
  obtain ⟨r', hr', hb⟩ := hs.buried h' hr hf
  have hv := ht.valid id r' hr'
  have hid := ht.keyed id r' hr'
  obtain ⟨howner, hhistory, hruns, hunknown⟩ := hv.tombstone hb.forgotten
  have hthread : r'.threadId = none := by
    have hl := hv.lease
    rw [howner] at hl
    simpa using hl.symm
  refine ⟨r', hr', hb.forgotten, hid, hb.secretDigest, hhistory, hruns, hunknown, howner, hthread,
    ?_, fun new hnew => create_taken (hnew ▸ hr'), attach_forgotten hb.forgotten,
    inspect_forgotten hb.forgotten, fun l inp action => ?_, fun key expected now hkey hkid => ?_,
    fun p t' hstep htarget => ?_⟩
  · obtain hnil | ⟨r₀, hr₀, hf₀, hb₀⟩ := h₀.inv.threads (h.append h') id r' hr' hb.forgotten
    · exact .inl hnil
    · exact .inr ⟨r₀, hr₀, hf₀, hb₀.threads⟩
  · simp [afterLoad, not_holds_of_forgotten hb.forgotten]
  · rw [← hb.secretDigest]
    exact forget_forgotten hv hb.forgotten hkey (hkid.trans hid.symm) expected now
  · cases hstep with
    | exchange under stored =>
      obtain ⟨old, hex⟩ := ht.exchanged (by simp [under]) stored
      have hold := hex.stored
      rw [htarget, hr'] at hold
      cases hold
      obtain ⟨hone, id', now, hw, hnew⟩ := tombstone_write hb.forgotten hex.submitted
      obtain ⟨-, htwo, -⟩ := legacy_migration (hex.replaces.tombstone hb.forgotten)
      refine ⟨hone, htwo, now, ?_, hnew⟩
      rw [hw] at htarget ⊢
      rw [show id' = id from htarget]

end

namespace Sample

/-- A schema-1 tombstone that still has the thread id it was attached with. -/
def tombstone : SessionRecord :=
  { record with
    schemaVersion := 1, createdAtMs := none, updatedAtMs := none, owner := none, threadId := none,
    forgotten := true }

def buried : SharedStore := ⟨OrdMap.empty.insert recoveryId tombstone, [], []⟩

theorem buried_initial : @SharedStore.Initial external buried := by
  have hstored : ∀ id r, buried.records.get? id = some r → recoveryId = id ∧ r = tombstone := by
    intro id r h
    rw [buried, OrdMap.get?_insert] at h
    split at h
    · cases h
      exact ⟨by assumption, rfl⟩
    · cases h
  refine @SharedStore.Initial.mk external _ (fun id r h => ?_) (fun id r h => ?_) rfl rfl
  · obtain ⟨rfl, rfl⟩ := hstored id r h
    rfl
  · obtain ⟨-, rfl⟩ := hstored id r h
    rfl

/-- `open` between its listing and its exchange. -/
def opening : Pending :=
  ⟨.opened recoveryId 9, tombstone,
    (@Writer.submit external (.opened recoveryId 9) tombstone).getD ⟨0, tombstone, none⟩⟩

theorem opening_run : ∃ t, @Lts.Run _ _ (@SharedStore.Step external) buried
    [.load opening, .exchange opening] t :=
  ⟨_, .cons (@SharedStore.Step.load external _ _ _ _ trivial (OrdMap.get?_insert_self _ _ _) rfl)
    (.single (@SharedStore.Step.exchange external _ opening [] []
      (buried.records.insert recoveryId opening.submission.new) rfl rfl))⟩

end Sample

/-- A valid tombstone with a thread id, and a wrong secret for which `forget` does not answer
`Unauthorized`. -/
theorem legacy_tombstone_keeps_thread :
    @SharedStore.Initial Sample.external Sample.buried ∧
    Sample.buried.records.get? Sample.recoveryId = some Sample.tombstone ∧
    Sample.tombstone.forgotten = true ∧ Sample.tombstone.historicalThreadIds = ["thread"] ∧
    @forgetReplacement Sample.external ⟨Sample.recoveryId, "wrong"⟩ 1 8 (some Sample.tombstone) =
      .error (.invalid "Recovery secret must contain 64 hexadecimal characters") :=
  ⟨Sample.buried_initial, rfl, rfl, rfl, rfl⟩

theorem forgotten_permanent_sample : ∃ t r', @Lts.Run _ _ (@SharedStore.Step Sample.external)
      Sample.buried [.load Sample.opening, .exchange Sample.opening] t ∧
    t.records.get? Sample.recoveryId = some r' ∧ r'.forgotten = true ∧
    @forgetReplacement Sample.external Sample.key 1 10 (some r') = .ok none := by
  obtain ⟨t, ht⟩ := Sample.opening_run
  obtain ⟨r', hr', hf, -, -, -, -, -, -, -, -, -, -, -, -, hforget, -⟩ :=
    @forgotten_permanent Sample.external _ _ _ _ _ Sample.buried_initial (.nil _) ht
      Sample.recoveryId Sample.tombstone rfl rfl
  exact ⟨t, r', ht, hr', hf, (hforget Sample.key 1 10 rfl rfl).1 rfl⟩

end Whale
