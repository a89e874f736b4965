import Whale.Protocol.Management

/-!
# Inversion of the reducers

What `apply` of the two versions does when it succeeds: either the event was seen before and nothing
changes, or it is the next one, its payload is accepted and the result is valid.
-/

namespace Whale

open Check

/-! ## V1 -/

theorem SessionEventEnvelope.thread_of_validate {e : SessionEventEnvelope} (h : e.validate = .ok ()) :
    e.cursor.threadId = e.threadId := by
  unfold validate at h
  obtain ⟨_, -, h⟩ := bind_ok h
  obtain ⟨_, -, h⟩ := bind_ok h
  simpa using (refuse_bind_ok h).1

namespace SessionSnapshot

/-- What an applied event does. -/
structure Applied (s : SessionSnapshot) (e : SessionEventEnvelope) (s' : SessionSnapshot) : Prop where
  source : s.validate = .ok ()
  event : e.validate = .ok ()
  cursor : e.cursor = { s.cursor with seq := s.cursor.seq + 1 }
  bound : s.cursor.seq < u64Max
  payload : ∃ next, s.applyPayload e = .ok next ∧ s' = next.advance e
  target : s'.validate = .ok ()

/-- What `validate` says of the cursor and of the parts of a snapshot. -/
structure Valid (s : SessionSnapshot) : Prop where
  summary : s.summary.validate = .ok ()
  cursor : s.cursor.validate = .ok ()
  thread : s.summary.threadId = s.cursor.threadId
  revision : s.summary.revision = s.cursor.seq
  history : s.history.validate = .ok ()
  active : ∀ run, s.activeRun = some run →
    run.validate = .ok () ∧ run.snapshot.threadId = s.summary.threadId
  last : ∀ run, s.lastRun = some run → run.validate = .ok ()

theorem validate_iff {s : SessionSnapshot} : s.validate = .ok () ↔ s.Valid := by
  constructor
  · intro h
    unfold validate at h
    obtain ⟨_, hsum, h⟩ := bind_ok h
    obtain ⟨_, hcur, h⟩ := bind_ok h
    obtain ⟨hthread, h⟩ := refuse_bind_ok h
    obtain ⟨hrev, h⟩ := refuse_bind_ok h
    obtain ⟨_, hhist, h⟩ := bind_ok h
    obtain ⟨_, hact, hlast⟩ := bind_ok h
    refine ⟨hsum, hcur, by simpa using hthread, by simpa using hrev, hhist, fun run hr => ?_,
      fun run hr => ?_⟩
    · rw [validateActive, hr] at hact
      obtain ⟨_, hv, ht⟩ := bind_ok hact
      exact ⟨hv, by simpa using refuse_ok ht⟩
    · rw [hr] at hlast
      exact hlast
  · intro h
    unfold validate
    rw [h.summary, ok_bind, h.cursor, ok_bind, refuse_bind_ok_iff]
    refine ⟨by simp [h.thread], ?_⟩
    rw [refuse_bind_ok_iff]
    refine ⟨by simp [h.revision], ?_⟩
    have hact : s.validateActive = .ok () := by
      unfold validateActive
      cases ha : s.activeRun with
      | none => rfl
      | some run =>
        obtain ⟨hv, ht⟩ := h.active run ha
        simp [hv, ht]
    rw [h.history, ok_bind, hact, ok_bind]
    cases hl : s.lastRun with
    | none => rfl
    | some run => exact h.last run hl

/-- An accepted event was seen before, or is applied. -/
theorem apply_ok {s s' : SessionSnapshot} {e : SessionEventEnvelope} {b : Bool}
    (h : s.apply e = .ok (s', b)) :
    (e.cursor.seq ≤ s.cursor.seq ∧ s' = s ∧ b = false) ∨
      (s.cursor.seq < e.cursor.seq ∧ s.Applied e s' ∧ b = true) := by
  unfold apply at h
  obtain ⟨_, hv, h⟩ := bind_ok h
  obtain ⟨_, he, h⟩ := bind_ok h
  obtain ⟨-, h⟩ := refuse_bind_ok h
  rw [mapError_ok_iff] at hv he
  split at h
  · cases h
    exact .inl ⟨‹_›, rfl, rfl⟩
  · obtain ⟨expected, hn, h⟩ := bind_ok h
    obtain ⟨hc, h⟩ := refuse_bind_ok h
    obtain ⟨next, hp, h⟩ := bind_ok h
    obtain ⟨_, ht, h⟩ := bind_ok h
    rw [mapError_ok_iff] at hn hp ht
    cases h
    obtain ⟨-, hb, rfl⟩ := Cursor.next_ok hn
    have hcur : e.cursor = { s.cursor with seq := s.cursor.seq + 1 } := by simpa using hc
    exact .inr ⟨by omega, ⟨hv, he, hcur, hb, ⟨next, hp, rfl⟩, ht⟩, rfl⟩

/-- An accepted event is one of the stream. -/
theorem apply_sameStream {s : SessionSnapshot} {e : SessionEventEnvelope} {r : SessionSnapshot × Bool}
    (h : s.apply e = .ok r) : e.cursor.sameStream s.cursor = true := by
  unfold apply at h
  obtain ⟨_, hv, h⟩ := bind_ok h
  obtain ⟨_, he, h⟩ := bind_ok h
  obtain ⟨hs, -⟩ := refuse_bind_ok h
  rw [mapError_ok_iff] at hv he
  simp only [Bool.or_eq_false_iff, bne_eq_false_iff_eq] at hs
  rw [Cursor.sameStream_iff, e.thread_of_validate he, hs.1, (validate_iff.mp hv).thread]
  exact ⟨rfl, hs.2⟩

/-- An event of the stream at or below the cursor changes nothing. -/
theorem apply_of_seen {s : SessionSnapshot} {e : SessionEventEnvelope} (hv : s.validate = .ok ())
    (he : e.validate = .ok ()) (hs : e.cursor.sameStream s.cursor = true)
    (hle : e.cursor.seq ≤ s.cursor.seq) : s.apply e = .ok (s, false) := by
  obtain ⟨hthread, hstream⟩ := Cursor.sameStream_iff.mp hs
  rw [e.thread_of_validate he, ← (validate_iff.mp hv).thread] at hthread
  unfold apply
  rw [hv, he]
  simp only [Except.mapError, ok_bind]
  refine refuse_bind_ok_iff.mpr ⟨by simp [hthread, hstream], ?_⟩
  rw [if_pos hle]

/-- The next event, when its payload is accepted and leaves a valid snapshot, is applied. -/
theorem apply_of_applied {s s' : SessionSnapshot} {e : SessionEventEnvelope} (h : s.Applied e s') :
    s.apply e = .ok (s', true) := by
  have hv := validate_iff.mp h.source
  obtain ⟨next, hp, rfl⟩ := h.payload
  have hthread : e.threadId = s.summary.threadId := by
    rw [← e.thread_of_validate h.event, h.cursor, hv.thread]
  have hlt : ¬ e.cursor.seq ≤ s.cursor.seq := by
    rw [h.cursor]
    simp
  have hnext : s.cursor.checkedNext = .ok { s.cursor with seq := s.cursor.seq + 1 } :=
    Cursor.next_of_lt hv.cursor h.bound
  unfold apply
  rw [h.source, h.event]
  simp only [Except.mapError, ok_bind]
  rw [refuse_bind_ok_iff]
  refine ⟨by simp [hthread, h.cursor], ?_⟩
  rw [if_neg hlt, hnext]
  simp only [ok_bind]
  rw [refuse_bind_ok_iff]
  refine ⟨by simp [h.cursor], ?_⟩
  rw [hp]
  simp only [ok_bind, h.target]

theorem Applied.cursor_eq {s s' : SessionSnapshot} {e : SessionEventEnvelope} (h : s.Applied e s') :
    s'.cursor = e.cursor := by
  obtain ⟨next, -, rfl⟩ := h.payload
  rfl

/-- An event of another stream, or one that skips a cursor, is refused. -/
theorem apply_error {s : SessionSnapshot} {e : SessionEventEnvelope}
    (h : e.cursor.sameStream s.cursor = false ∨ s.cursor.seq + 1 < e.cursor.seq) :
    ∃ error, s.apply e = .error error := by
  cases ha : s.apply e with
  | error error => exact ⟨error, rfl⟩
  | ok r =>
    exfalso
    rcases h with h | h
    · rw [apply_sameStream ha] at h
      cases h
    · rcases apply_ok (b := r.2) ha with ⟨hle, -, -⟩ | ⟨-, happ, -⟩
      · omega
      · rw [happ.cursor] at h
        exact absurd h (Nat.lt_irrefl _)

end SessionSnapshot

/-! ## V2 -/

theorem SessionEventEnvelopeV2.thread_of_validate [External] {e : SessionEventEnvelopeV2}
    (h : e.validate = .ok ()) : e.cursor.threadId = e.threadId := by
  unfold validate at h
  obtain ⟨_, -, h⟩ := bind_ok h
  obtain ⟨_, -, h⟩ := bind_ok h
  simpa using (refuse_bind_ok h).1

namespace SessionSnapshotV2

section
variable [External]

/-- What an applied event does. -/
structure Applied (s : SessionSnapshotV2) (e : SessionEventEnvelopeV2) (s' : SessionSnapshotV2) :
    Prop where
  source : s.validate = .ok ()
  event : e.validate = .ok ()
  running : s.lifecycle ≠ .closed
  cursor : e.cursor = { s.cursor with seq := s.cursor.seq + 1 }
  bound : s.cursor.seq < u64Max
  payload : ∃ next, s.applyPayload e = .ok next ∧ s' = next.advance e
  target : s'.validate = .ok ()

/-- What `validate` says of the cursor and of the parts of a snapshot. -/
structure Valid (s : SessionSnapshotV2) : Prop where
  summary : s.summary.validateV2 = .ok ()
  persistence : s.persistence.validate = .ok ()
  history : s.history.validate = .ok ()
  cursor : s.cursor.validateV2 = .ok ()
  thread : s.summary.threadId = s.cursor.threadId
  revision : s.summary.revision = s.cursor.seq
  active : ∀ run, s.activeRun = some run →
    run.validate = .ok () ∧ run.snapshot.threadId = s.summary.threadId ∧ s.lifecycle ≠ .closed
  last : ∀ run, s.lastRun = some run → run.validate = .ok ()

theorem validate_iff {s : SessionSnapshotV2} : s.validate = .ok () ↔ s.Valid := by
  constructor
  · intro h
    unfold validate at h
    obtain ⟨_, hsum, h⟩ := bind_ok h
    obtain ⟨_, hper, h⟩ := bind_ok h
    obtain ⟨_, hhist, h⟩ := bind_ok h
    obtain ⟨_, hcur, h⟩ := bind_ok h
    obtain ⟨hthread, h⟩ := refuse_bind_ok h
    obtain ⟨hrev, h⟩ := refuse_bind_ok h
    obtain ⟨_, hact, hlast⟩ := bind_ok h
    refine ⟨hsum, hper, hhist, hcur, by simpa using hthread, by simpa using hrev, fun run hr => ?_,
      fun run hr => ?_⟩
    · rw [validateActive, hr] at hact
      obtain ⟨_, hv, hact⟩ := bind_ok hact
      obtain ⟨ht, hc⟩ := refuse_bind_ok hact
      exact ⟨hv, by simpa using ht, by simpa using refuse_ok hc⟩
    · rw [hr] at hlast
      exact hlast
  · intro h
    unfold validate
    rw [h.summary, ok_bind, h.persistence, ok_bind, h.history, ok_bind, h.cursor, ok_bind,
      refuse_bind_ok_iff]
    refine ⟨by simp [h.thread], ?_⟩
    rw [refuse_bind_ok_iff]
    refine ⟨by simp [h.revision], ?_⟩
    have hact : s.validateActive = .ok () := by
      unfold validateActive
      cases ha : s.activeRun with
      | none => rfl
      | some run =>
        obtain ⟨hv, ht, hc⟩ := h.active run ha
        simp [hv, ht, refuse_ok_iff, hc]
    rw [hact, ok_bind]
    cases hl : s.lastRun with
    | none => rfl
    | some run => exact h.last run hl

/-- An accepted event was seen before, or is applied. -/
theorem apply_ok {s s' : SessionSnapshotV2} {e : SessionEventEnvelopeV2} {b : Bool}
    (h : s.apply e = .ok (s', b)) :
    (e.cursor.seq ≤ s.cursor.seq ∧ s' = s ∧ b = false) ∨
      (s.cursor.seq < e.cursor.seq ∧ s.Applied e s' ∧ b = true) := by
  unfold apply at h
  obtain ⟨_, hv, h⟩ := bind_ok h
  obtain ⟨_, he, h⟩ := bind_ok h
  obtain ⟨-, h⟩ := refuse_bind_ok h
  rw [mapError_ok_iff] at hv he
  split at h
  · cases h
    exact .inl ⟨‹_›, rfl, rfl⟩
  · obtain ⟨hclosed, h⟩ := refuse_bind_ok h
    obtain ⟨expected, hn, h⟩ := bind_ok h
    obtain ⟨hc, h⟩ := refuse_bind_ok h
    obtain ⟨next, hp, h⟩ := bind_ok h
    obtain ⟨_, ht, h⟩ := bind_ok h
    rw [mapError_ok_iff] at hn hp ht
    cases h
    obtain ⟨-, hb, rfl⟩ := Cursor.next_ok hn
    have hcur : e.cursor = { s.cursor with seq := s.cursor.seq + 1 } := by simpa using hc
    exact .inr ⟨by omega, ⟨hv, he, by simpa using hclosed, hcur, hb, ⟨next, hp, rfl⟩, ht⟩, rfl⟩

/-- An accepted event is one of the stream. -/
theorem apply_sameStream {s : SessionSnapshotV2} {e : SessionEventEnvelopeV2}
    {r : SessionSnapshotV2 × Bool} (h : s.apply e = .ok r) : e.cursor.sameStream s.cursor = true := by
  unfold apply at h
  obtain ⟨_, -, h⟩ := bind_ok h
  obtain ⟨_, -, h⟩ := bind_ok h
  obtain ⟨hs, -⟩ := refuse_bind_ok h
  simp only [Bool.or_eq_false_iff, Bool.not_eq_false'] at hs
  obtain ⟨h1, h2⟩ := Cursor.sameStream_iff.mp hs.2
  exact Cursor.sameStream_iff.mpr ⟨h1.symm, h2.symm⟩

/-- An event of the stream at or below the cursor changes nothing. -/
theorem apply_of_seen {s : SessionSnapshotV2} {e : SessionEventEnvelopeV2} (hv : s.validate = .ok ())
    (he : e.validate = .ok ()) (hs : e.cursor.sameStream s.cursor = true)
    (hle : e.cursor.seq ≤ s.cursor.seq) : s.apply e = .ok (s, false) := by
  obtain ⟨hthread, hstream⟩ := Cursor.sameStream_iff.mp hs
  have hevent : e.threadId = s.summary.threadId := by
    rw [← e.thread_of_validate he, hthread, (validate_iff.mp hv).thread]
  unfold apply
  rw [hv, he]
  simp only [Except.mapError, ok_bind]
  refine refuse_bind_ok_iff.mpr ⟨by simp [hevent, Cursor.sameStream, hthread, hstream], ?_⟩
  rw [if_pos hle]

/-- The next event, when its payload is accepted and leaves a valid snapshot, is applied. -/
theorem apply_of_applied {s s' : SessionSnapshotV2} {e : SessionEventEnvelopeV2}
    (h : s.Applied e s') : s.apply e = .ok (s', true) := by
  have hv := validate_iff.mp h.source
  obtain ⟨next, hp, rfl⟩ := h.payload
  have hthread : e.threadId = s.summary.threadId := by
    rw [← e.thread_of_validate h.event, h.cursor, hv.thread]
  have hlt : ¬ e.cursor.seq ≤ s.cursor.seq := by
    rw [h.cursor]
    simp
  have hnext : s.cursor.checkedNextV2 = .ok { s.cursor with seq := s.cursor.seq + 1 } :=
    Cursor.next_of_lt hv.cursor h.bound
  unfold apply
  rw [h.source, h.event]
  simp only [Except.mapError, ok_bind]
  rw [refuse_bind_ok_iff]
  refine ⟨by simp [hthread, h.cursor, Cursor.sameStream], ?_⟩
  rw [if_neg hlt, refuse_bind_ok_iff]
  refine ⟨by simp [h.running], ?_⟩
  rw [hnext]
  simp only [ok_bind]
  rw [refuse_bind_ok_iff]
  refine ⟨by simp [h.cursor], ?_⟩
  rw [hp]
  simp only [ok_bind, h.target]

theorem Applied.cursor_eq {s s' : SessionSnapshotV2} {e : SessionEventEnvelopeV2}
    (h : s.Applied e s') : s'.cursor = e.cursor := by
  obtain ⟨next, -, rfl⟩ := h.payload
  rfl

/-- An event of another stream, or one that skips a cursor, is refused. -/
theorem apply_error {s : SessionSnapshotV2} {e : SessionEventEnvelopeV2}
    (h : e.cursor.sameStream s.cursor = false ∨ s.cursor.seq + 1 < e.cursor.seq) :
    ∃ error, s.apply e = .error error := by
  cases ha : s.apply e with
  | error error => exact ⟨error, rfl⟩
  | ok r =>
    exfalso
    rcases h with h | h
    · rw [apply_sameStream ha] at h
      cases h
    · rcases apply_ok (b := r.2) ha with ⟨hle, -, -⟩ | ⟨-, happ, -⟩
      · omega
      · rw [happ.cursor] at h
        exact absurd h (Nat.lt_irrefl _)

end

end SessionSnapshotV2

end Whale
