import Whale.Daemon.Interactions
import Whale.Protocol.Proof.Interactions

/-!
# Operations of the registry

What each operation under the lock does to the entries of a record. A commit touches the snapshot and the
journal (`publish_frame`); `begin` inserts one entry of a new generation (`begin_ok`); the cleanups only
take entries away (`Shrinks`), and say which senders are left over.
-/

namespace Whale

open Check

namespace InteractionRecord

variable {r r' : InteractionRecord} {key : InteractionKey} {events : List InteractionEventEnvelope}

/-- Entries go, and none comes. -/
structure Shrinks (r r' : InteractionRecord) : Prop where
  entries : ∀ key state, r'.entries.get? key = some state → r.entries.get? key = some state
  generation : r.nextGeneration ≤ r'.nextGeneration
  enabled : r'.enabled = r.enabled
  cursor : r.snapshot.cursor.seq ≤ r'.snapshot.cursor.seq

theorem Shrinks.refl (r : InteractionRecord) : Shrinks r r := ⟨fun _ _ h => h, le_rfl, rfl, le_rfl⟩

theorem Shrinks.of_erase (h : Shrinks { r with entries := r.entries.erase key } r') : Shrinks r r' :=
  ⟨fun k state hk => (KeyMap.get?_erase.mp (h.entries k state hk)).1, h.generation, h.enabled, h.cursor⟩

theorem shrinks_unregisterRun (turnId : String) (identity : Nat) :
    Shrinks r (r.unregisterRun turnId identity) := by
  unfold unregisterRun
  split
  · exact ⟨fun _ _ h => h, le_rfl, rfl, le_rfl⟩
  · exact .refl r

theorem shrinks_registerRun {turnId : String} {identity : Nat}
    (h : r.registerRun turnId identity = .ok r') : Shrinks r r' := by
  unfold registerRun at h
  split at h
  · split at h
    · cases h
      exact .refl r
    · cases h
  · cases h
    exact ⟨fun _ _ h => h, le_rfl, rfl, le_rfl⟩

/-- What `retire_run` takes away. -/
theorem retireRun_cases (r : InteractionRecord) (turnId : String) (identity : Nat) :
    (r.retireRun turnId identity).2 = r ∨
    ((r.retireRun turnId identity).1 = true ∧ r.pendingOf turnId = [] ∧
      (r.retireRun turnId identity).2 = { r.forgetRun turnId with
        journal := r.journal.scrubRun turnId, entries := r.entries.filter (·.1.1 != turnId) }) := by
  unfold retireRun
  split
  · exact .inl rfl
  · split
    · exact .inl rfl
    · rename_i h
      rw [not_or, not_not, not_not] at h
      exact .inr ⟨rfl, h.2, rfl⟩

/-- A run that is retired has no entry. -/
theorem retireRun_entries {turnId : String} {identity : Nat}
    (h : (r.retireRun turnId identity).1 = true) {state : ResponseState}
    (hk : (r.retireRun turnId identity).2.entries.get? key = some state) : key.1 ≠ turnId := by
  unfold retireRun at h hk
  split at h
  · rename_i hnone
    rw [hnone] at hk
    rw [Bool.and_eq_true, Bool.not_eq_true', List.any_eq_false] at h
    rintro rfl
    exact h.1 _ (KeyMap.get?_eq_some_iff.mp hk) (by simp)
  · rename_i current hsome
    rw [hsome] at hk
    split at h
    · cases h
    · rename_i hretire
      simp only [hretire, if_false] at hk
      simpa using (KeyMap.get?_filter.mp hk).2

theorem shrinks_retireRun (turnId : String) (identity : Nat) :
    Shrinks r (r.retireRun turnId identity).2 := by
  obtain h | ⟨-, -, h⟩ := retireRun_cases r turnId identity
  · rw [h]
    exact .refl r
  · rw [h]
    exact ⟨fun _ _ h => (KeyMap.get?_filter.mp h).1, le_rfl, rfl, le_rfl⟩

theorem mem_pendingOf {turnId : String} {state : ResponseState} :
    (key, state) ∈ r.pendingOf turnId ↔
      r.entries.get? key = some state ∧ key.1 = turnId ∧ state.isPending = true := by
  rw [KeyMap.get?_eq_some_iff, pendingOf, List.mem_filter]
  simp

/-! ## Lookups -/

theorem find_same {requireEnabled : Bool} {digest : BitVec 256} {generation : Nat}
    (h : r.find requireEnabled key digest = .ok (.same generation)) :
    ∃ typed, r.entries.get? key = some (.resolved digest generation typed) := by
  unfold find at h
  obtain ⟨-, h⟩ := refuse_bind_ok h
  split at h
  · rename_i previous current typed hget
    split at h
    · rename_i heq
      cases h
      exact ⟨typed, heq ▸ hget⟩
    · cases h
  · cases h
  · cases h

theorem find_open {requireEnabled : Bool} {digest : BitVec 256} {entry : PendingEntry}
    (h : r.find requireEnabled key digest = .ok (.open entry)) :
    r.entries.get? key = some (.pending entry) := by
  unfold find at h
  obtain ⟨-, h⟩ := refuse_bind_ok h
  split at h
  · split at h <;> cases h
  · cases h
    assumption
  · cases h

theorem matchesResolved_iff {generation : Nat} {digest : BitVec 256} :
    r.matchesResolved key generation digest = true ↔
      ∃ typed, r.entries.get? key = some (.resolved digest generation typed) := by
  unfold matchesResolved
  split
  · rename_i saved current typed hget
    rw [hget]
    simp [and_comm]
  · rename_i hne
    constructor
    · intro h
      cases h
    · rintro ⟨typed, h⟩
      exact absurd h (hne digest generation typed)

section
variable [External] [InteractionHost]

/-! ## Publications -/

/-- A publication changes the snapshot and the journal. -/
theorem publish_frame {now : Nat} {payload : InteractionEventPayload}
    (h : r.publish now payload = .ok (r', events)) :
    ∃ snapshot journal, r' = { r with snapshot, journal } ∧
      r.snapshot.cursor.seq ≤ snapshot.cursor.seq := by
  unfold publish at h
  split at h
  · unfold commit at h
    simp only [except_map_bind] at h
    obtain ⟨cursor, -, h⟩ := bind_ok h
    obtain ⟨_, -, h⟩ := bind_ok h
    obtain ⟨bytes, -, h⟩ := bind_ok h
    obtain ⟨applied, happ, h⟩ := bind_ok h
    cases h
    exact ⟨_, _, rfl, (InteractionSnapshot.apply_cursor (mapError_ok_iff.mp happ)).1⟩
  · cases h
    exact ⟨_, _, rfl, le_rfl⟩

/-- An enabled session publishes one event with the payload, a disabled one nothing. -/
theorem publish_events {now : Nat} {payload : InteractionEventPayload}
    (h : r.publish now payload = .ok (r', events)) :
    (r.enabled = true ∧ ∃ e, events = [e] ∧ e.payload = payload) ∨ (r.enabled = false ∧ events = []) := by
  unfold publish at h
  split at h
  · rename_i henabled
    unfold commit at h
    simp only [except_map_bind] at h
    obtain ⟨cursor, -, h⟩ := bind_ok h
    obtain ⟨_, -, h⟩ := bind_ok h
    obtain ⟨bytes, -, h⟩ := bind_ok h
    obtain ⟨applied, -, h⟩ := bind_ok h
    cases h
    exact .inl ⟨henabled, _, rfl, rfl⟩
  · rename_i hdisabled
    cases h
    exact .inr ⟨by simpa using hdisabled, rfl⟩

theorem shrinks_publish {now : Nat} {payload : InteractionEventPayload}
    (h : r.publish now payload = .ok (r', events)) : Shrinks r r' := by
  obtain ⟨snapshot, journal, rfl, hcursor⟩ := publish_frame h
  exact ⟨fun _ _ h => h, le_rfl, rfl, hcursor⟩

theorem publishOr_cases (r : InteractionRecord) (now : Nat) (payload : InteractionEventPayload) :
    (∃ p, r.publish now payload = .ok p ∧ r.publishOr now payload = p) ∨
    ∃ e, r.publish now payload = .error e ∧ r.publishOr now payload = (r, []) := by
  unfold publishOr
  cases h : r.publish now payload with
  | ok p => exact .inl ⟨p, rfl, rfl⟩
  | error e => exact .inr ⟨e, rfl, rfl⟩

theorem publishOr_payload {now : Nat} {payload : InteractionEventPayload}
    (h : r.publishOr now payload = (r', events)) {e : InteractionEventEnvelope} (he : e ∈ events) :
    e.payload = payload := by
  obtain ⟨p, hp, heq⟩ | ⟨_, -, heq⟩ := publishOr_cases r now payload
  · rw [heq] at h
    subst h
    obtain ⟨-, e', rfl, rfl⟩ | ⟨-, rfl⟩ := publish_events hp
    · rw [List.mem_singleton.mp he]
    · cases he
  · rw [heq] at h
    cases h
    cases he

theorem shrinks_publishOr {now : Nat} {payload : InteractionEventPayload}
    (h : r.publishOr now payload = (r', events)) : Shrinks r r' := by
  obtain ⟨p, hp, heq⟩ | ⟨_, -, heq⟩ := publishOr_cases r now payload
  · rw [heq] at h
    subst h
    exact shrinks_publish hp
  · rw [heq] at h
    cases h
    exact .refl r

/-! ## Requests -/

section
variable {turnId requestId : String} {request : InteractionRequest} {origin : InteractionOrigin}
  {now : Nat}

/-- `begin` inserts a request of a new generation, under an id that no entry has. -/
theorem begin_ok {g : Nat} (h : r.begin turnId requestId request origin now = (.ok g, r', events)) :
    ∃ next, ({ r with nextGeneration := r.nextGeneration + 1 } : InteractionRecord).publish now
        (.requested ⟨requestId, turnId, request⟩) = .ok (next, events) ∧
      g = r.nextGeneration ∧ r.entries.get? (turnId, requestId) = none ∧
      r' = { next with
        entries := next.entries.insert (turnId, requestId)
          (.pending ⟨request, g, origin, request.kind == kindToolApproval⟩) } := by
  unfold begin at h
  split at h
  · cases h
  · cases h
  · rename_i n hcheck hsucc
    unfold checkedSucc at hsucc
    split at hsucc
    · cases hsucc
      simp only at h
      split at h
      · cases h
      · rename_i next es hpub
        cases h
        unfold publishRequested at hpub
        obtain ⟨_, -, hpub⟩ := bind_ok hpub
        refine ⟨next, mapError_ok_iff.mp hpub, rfl, ?_, rfl⟩
        -- no entry has the id of the request
        unfold checkBegin at hcheck
        obtain ⟨_, -, hcheck⟩ := bind_ok hcheck
        obtain ⟨-, hcheck⟩ := refuse_bind_ok hcheck
        obtain ⟨-, hcheck⟩ := refuse_bind_ok hcheck
        obtain ⟨hdup, -⟩ := refuse_bind_ok hcheck
        cases hget : r.entries.get? (turnId, requestId) with
        | none => rfl
        | some state =>
          have hmem := KeyMap.get?_eq_some_iff.mp hget
          have hany : (r.entries.entries.any (·.1.2 == requestId)) = true :=
            List.any_eq_true.mpr ⟨_, hmem, by simp⟩
          rw [hany] at hdup
          cases hdup
    · cases hsucc

/-- A refused `begin` takes at most a generation. -/
theorem begin_error {e : InteractionError}
    (h : r.begin turnId requestId request origin now = (.error e, r', events)) :
    events = [] ∧ (r' = r ∨ r' = { r with nextGeneration := r.nextGeneration + 1 }) := by
  unfold begin at h
  split at h
  · cases h
    exact ⟨rfl, .inl rfl⟩
  · cases h
    exact ⟨rfl, .inl rfl⟩
  · rename_i n hcheck hsucc
    unfold checkedSucc at hsucc
    split at hsucc
    · cases hsucc
      simp only at h
      split at h
      · cases h
        exact ⟨rfl, .inr rfl⟩
      · cases h
    · cases hsucc

end

/-! ## Removals -/

theorem shrinks_removeClosed {now : Nat} {failure : InteractionFailure}
    (h : r.removeClosed key now = (failure, r', events)) : Shrinks r r' := by
  unfold removeClosed at h
  simp only at h
  split at h
  · rename_i hpub
    cases h
    exact (shrinks_publish hpub).of_erase
  · cases h
    exact (Shrinks.refl _).of_erase

theorem removeClosed_payload {now : Nat} {failure : InteractionFailure}
    (h : r.removeClosed key now = (failure, r', events)) {e : InteractionEventEnvelope}
    (he : e ∈ events) : e.payload = .removed key.2 key.1 InteractionRemoval.originFinished.text := by
  unfold removeClosed at h
  simp only at h
  split at h
  · rename_i hpub
    cases h
    obtain ⟨-, e', rfl, he'⟩ | ⟨-, rfl⟩ := publish_events hpub
    · rw [List.mem_singleton.mp he, he']
    · cases he
  · cases h
    cases he

theorem publishResolvedExact_ok {generation now : Nat} {digest : BitVec 256}
    (h : r.publishResolvedExact key generation digest now = .ok (r', events)) :
    r.matchesResolved key generation digest = true ∧
      r.publish now (.removed key.2 key.1 InteractionRemoval.resolved.text) = .ok (r', events) := by
  obtain ⟨hmatch, h⟩ := refuse_bind_ok h
  exact ⟨by simpa using hmatch, mapError_ok_iff.mp h⟩

theorem shrinks_publishResolvedExact {generation now : Nat} {digest : BitVec 256}
    (h : r.publishResolvedExact key generation digest now = .ok (r', events)) : Shrinks r r' := by
  exact shrinks_publish (publishResolvedExact_ok h).2

/-- An abort finds nothing, publishes the removal, or can only take the request out of the snapshot. -/
theorem abortResolvedExact_cases {generation now : Nat} {digest : BitVec 256}
    {cause : InteractionRemoval}
    (h : r.abortResolvedExact key generation digest cause now = (r', events)) :
    (r.matchesResolved key generation digest = false ∧ r' = r ∧ events = []) ∨
    (∃ next, r.matchesResolved key generation digest = true ∧
      r.publish now (.removed key.2 key.1 cause.text) = .ok (next, events) ∧
      r' = { next with entries := next.entries.erase key }) ∨
    (∃ e, r.matchesResolved key generation digest = true ∧
      r.publish now (.removed key.2 key.1 cause.text) = .error e ∧ events = [] ∧
      r' = { r with
        snapshot := { r.snapshot with pending := r.snapshot.pending.filter (·.key != key) }
        entries := r.entries.erase key }) := by
  unfold abortResolvedExact at h
  split at h
  · rename_i hmatch
    cases hpub : r.publish now (.removed key.2 key.1 cause.text) with
    | ok published =>
      rw [hpub] at h
      cases h
      exact .inr (.inl ⟨published.1, hmatch, rfl, rfl⟩)
    | error e =>
      rw [hpub] at h
      cases h
      exact .inr (.inr ⟨e, hmatch, rfl, rfl, rfl⟩)
  · rename_i hmatch
    cases h
    exact .inl ⟨by simpa using hmatch, rfl, rfl⟩

theorem shrinks_abortResolvedExact {generation now : Nat} {digest : BitVec 256}
    {cause : InteractionRemoval}
    (h : r.abortResolvedExact key generation digest cause now = (r', events)) : Shrinks r r' := by
  obtain ⟨-, rfl, -⟩ | ⟨next, -, hpub, rfl⟩ | ⟨e, -, -, -, rfl⟩ := abortResolvedExact_cases h
  · exact .refl _
  · have hnext := shrinks_publish hpub
    exact ⟨fun k state hk => hnext.entries k state (KeyMap.get?_erase.mp hk).1, hnext.generation,
      hnext.enabled, hnext.cursor⟩
  · exact ⟨fun _ _ hk => (KeyMap.get?_erase.mp hk).1, le_rfl, rfl, le_rfl⟩

theorem abortResolvedExact_payload {generation now : Nat} {digest : BitVec 256}
    {cause : InteractionRemoval}
    (h : r.abortResolvedExact key generation digest cause now = (r', events))
    {e : InteractionEventEnvelope} (he : e ∈ events) : e.payload = .removed key.2 key.1 cause.text := by
  obtain ⟨-, -, rfl⟩ | ⟨next, -, hpub, -⟩ | ⟨e, -, -, rfl, -⟩ := abortResolvedExact_cases h
  · cases he
  · obtain ⟨-, e', rfl, he'⟩ | ⟨-, rfl⟩ := publish_events hpub
    · rw [List.mem_singleton.mp he, he']
    · cases he
  · cases he

/-- `clear_exact` takes the request of its generation away, or nothing. -/
theorem clearExact_cases {generation now : Nat} {cause : InteractionRemoval} {sender : Option Nat}
    (h : r.clearExact key generation cause now = (sender, r', events)) :
    (sender = none ∧ r' = r ∧ events = []) ∨
    ∃ entry, sender = some generation ∧ r.entries.get? key = some (.pending entry) ∧
      entry.generation = generation ∧
      ({ r with entries := r.entries.erase key } : InteractionRecord).publishOr now
        (.removed key.2 key.1 cause.text) = (r', events) := by
  unfold clearExact at h
  split at h
  · rename_i entry hget
    split at h
    · rename_i hgen
      cases h
      exact .inr ⟨entry, rfl, hget, hgen, rfl⟩
    · cases h
      exact .inl ⟨rfl, rfl, rfl⟩
  · cases h
    exact .inl ⟨rfl, rfl, rfl⟩

theorem shrinks_clearExact {generation now : Nat} {cause : InteractionRemoval} {sender : Option Nat}
    (h : r.clearExact key generation cause now = (sender, r', events)) : Shrinks r r' := by
  obtain ⟨-, rfl, -⟩ | ⟨entry, -, -, -, hpub⟩ := clearExact_cases h
  · exact .refl _
  · exact (shrinks_publishOr hpub).of_erase

/-- One round of the loop of `clear_run`. -/
theorem clearKeys_cons {cause : InteractionRemoval} {now : Nat} {keys : List (InteractionKey × Nat)}
    {generations : List Nat} (h : clearKeys cause r ((key, now) :: keys) = (generations, r', events)) :
    (∃ entry next es generations' rest, r.entries.get? key = some (.pending entry) ∧
      ({ r with entries := r.entries.erase key } : InteractionRecord).publishOr now
        (.removed key.2 key.1 cause.text) = (next, es) ∧
      clearKeys cause next keys = (generations', r', rest) ∧
      generations = entry.generation :: generations' ∧ events = es ++ rest) ∨
    (∃ digest generation typed, r.entries.get? key = some (.resolved digest generation typed) ∧
      clearKeys cause { r with entries := r.entries.erase key } keys = (generations, r', events)) ∨
    (r.entries.get? key = none ∧ clearKeys cause r keys = (generations, r', events)) := by
  unfold clearKeys at h
  split at h
  · rename_i entry hget
    cases h
    exact .inl ⟨entry, _, _, _, _, hget, rfl, rfl, rfl, rfl⟩
  · rename_i digest generation typed hget
    exact .inr (.inl ⟨digest, generation, typed, hget, h⟩)
  · rename_i hget
    exact .inr (.inr ⟨hget, h⟩)

/-- The loop of `clear_run` tells the requests that it takes away. -/
theorem clearKeys_shrinks {cause : InteractionRemoval} : ∀ {keys : List (InteractionKey × Nat)}
    {r r' : InteractionRecord} {generations : List Nat} {events : List InteractionEventEnvelope},
    clearKeys cause r keys = (generations, r', events) → Shrinks r r' ∧
      ∀ g ∈ generations, ∃ key entry, r.entries.get? key = some (.pending entry) ∧
        entry.generation = g ∧ r'.entries.get? key = none
  | [], r, r', generations, events, h => by
    cases h
    exact ⟨.refl r, by simp⟩
  | (key, now) :: keys, r, r', generations, events, h => by
    obtain ⟨entry, next, es, generations', rest, hget, hpub, hrest, rfl, rfl⟩ |
      ⟨digest, generation, typed, hget, h⟩ | ⟨hget, h⟩ := clearKeys_cons h
    · have hone := shrinks_publishOr hpub
      obtain ⟨hshrink, hgens⟩ := clearKeys_shrinks hrest
      have hall : Shrinks { r with entries := r.entries.erase key } r' :=
        ⟨fun k state hk => hone.entries k state (hshrink.entries k state hk),
          hone.generation.trans hshrink.generation, hshrink.enabled.trans hone.enabled,
          hone.cursor.trans hshrink.cursor⟩
      refine ⟨hall.of_erase, fun g hg => ?_⟩
      rcases List.mem_cons.mp hg with rfl | hg
      · refine ⟨key, entry, hget, rfl, ?_⟩
        cases hk : r'.entries.get? key with
        | none => rfl
        | some state => exact absurd rfl (KeyMap.get?_erase.mp (hall.entries key state hk)).2
      · obtain ⟨k, e, hk, he, hnone⟩ := hgens g hg
        exact ⟨k, e, (KeyMap.get?_erase.mp (hone.entries _ _ hk)).1, he, hnone⟩
    · obtain ⟨hshrink, hgens⟩ := clearKeys_shrinks h
      refine ⟨hshrink.of_erase, fun g hg => ?_⟩
      obtain ⟨k, e, hk, he, hnone⟩ := hgens g hg
      exact ⟨k, e, (KeyMap.get?_erase.mp hk).1, he, hnone⟩
    · exact clearKeys_shrinks h

/-- The events of `clear_run` have its cause. -/
theorem clearKeys_events {cause : InteractionRemoval} : ∀ {keys : List (InteractionKey × Nat)}
    {r r' : InteractionRecord} {generations : List Nat} {events : List InteractionEventEnvelope},
    clearKeys cause r keys = (generations, r', events) → ∀ e ∈ events,
      ∃ key : InteractionKey, e.payload = .removed key.2 key.1 cause.text
  | [], r, r', generations, events, h => by
    cases h
    simp
  | (key, now) :: keys, r, r', generations, events, h => by
    obtain ⟨entry, next, es, generations', rest, hget, hpub, hrest, rfl, rfl⟩ |
      ⟨digest, generation, typed, hget, h⟩ | ⟨hget, h⟩ := clearKeys_cons h
    · intro e he
      rcases List.mem_append.mp he with he | he
      · exact ⟨key, publishOr_payload hpub he⟩
      · exact clearKeys_events hrest e he
    · exact clearKeys_events h
    · exact clearKeys_events h

end

end InteractionRecord

theorem InteractionRemoval.text_injective : Function.Injective InteractionRemoval.text := by
  intro a b h
  cases a <;> cases b <;> first | rfl | exact absurd h (by decide)

end Whale
