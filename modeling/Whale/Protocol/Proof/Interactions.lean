import Whale.Lib.Run
import Whale.Protocol.Interactions

/-!
# The pending set of a snapshot

A snapshot that is valid has every request once, and stays valid when requests are taken out of it. The
reducer accepts the next event of a valid snapshot when its payload is valid and fits the pending set
(`apply_nextEnvelope`, `apply_removed`). A log of events that the reducer applies one after another
(`Reduces`) removes no request twice without asking for it in between (`Reduces.requested_between`).
-/

namespace Whale

open Check

namespace InteractionSnapshot

variable {s t : InteractionSnapshot} {e : InteractionEventEnvelope} {k : InteractionKey}

/-- The identities of the pending requests. -/
def keys (s : InteractionSnapshot) : List InteractionKey := s.pending.map (·.key)

theorem any_key_iff {ps : List PendingInteraction} :
    (ps.any (·.key == k)) = true ↔ k ∈ ps.map (·.key) := by
  rw [List.any_eq_true, List.mem_map]
  simp only [beq_iff_eq]

/-- The event that publishes a payload at the next cursor. -/
def nextEnvelope (s : InteractionSnapshot) (now : Nat) (payload : InteractionEventPayload) :
    InteractionEventEnvelope :=
  ⟨s.threadId, { s.cursor with seq := s.cursor.seq + 1 }, now, payload⟩

section
variable [External]

/-! ## Validity -/

/-- A valid set has its keys once, and none of those that were seen. -/
theorem validatePendingSet_nodup : ∀ {ps seen : List PendingInteraction},
    validatePendingSet seen ps = .ok () →
      (ps.map (·.key)).Nodup ∧ ∀ p ∈ ps, p.key ∉ seen.map (·.key)
  | [], _, _ => ⟨.nil, by simp⟩
  | p :: ps, seen, h => by
    unfold validatePendingSet at h
    obtain ⟨_, -, h⟩ := bind_ok h
    obtain ⟨hseen, h⟩ := refuse_bind_ok h
    obtain ⟨-, h⟩ := refuse_bind_ok h
    obtain ⟨hnodup, hnew⟩ := validatePendingSet_nodup h
    have hp : p.key ∉ seen.map (·.key) := by
      intro hm
      rw [any_key_iff.mpr hm] at hseen
      cases hseen
    refine ⟨List.nodup_cons.mpr ⟨fun hm => ?_, hnodup⟩, fun q hq hm => ?_⟩
    · obtain ⟨q, hq, hk⟩ := List.mem_map.mp hm
      exact hnew q hq (by simp [hk])
    · rcases List.mem_cons.mp hq with rfl | hq
      · exact hp hm
      · exact hnew q hq (List.mem_cons_of_mem _ hm)

theorem validatePendingSet_mem : ∀ {ps seen : List PendingInteraction},
    validatePendingSet seen ps = .ok () → ∀ p ∈ ps, p.validate = .ok ()
  | [], _, _ => by simp
  | p :: ps, seen, h => by
    unfold validatePendingSet at h
    obtain ⟨_, hp, h⟩ := bind_ok h
    obtain ⟨-, h⟩ := refuse_bind_ok h
    obtain ⟨-, h⟩ := refuse_bind_ok h
    intro q hq
    rcases List.mem_cons.mp hq with rfl | hq
    · exact hp
    · exact validatePendingSet_mem h q hq

/-- A part of a valid set is valid. -/
theorem validatePendingSet_sublist {ps ps' : List PendingInteraction} (hps : ps'.Sublist ps) :
    ∀ {seen seen' : List PendingInteraction}, seen'.Sublist seen →
      validatePendingSet seen ps = .ok () → validatePendingSet seen' ps' = .ok () := by
  induction hps with
  | slnil =>
    intro _ _ _ _
    rfl
  | cons p _ ih =>
    intro seen seen' hseen h
    unfold validatePendingSet at h
    obtain ⟨_, -, h⟩ := bind_ok h
    obtain ⟨-, h⟩ := refuse_bind_ok h
    obtain ⟨-, h⟩ := refuse_bind_ok h
    exact ih (hseen.trans (List.sublist_cons_self p seen)) h
  | cons_cons p _ ih =>
    intro seen seen' hseen h
    unfold validatePendingSet at h ⊢
    obtain ⟨_, hp, h⟩ := bind_ok h
    obtain ⟨hnew, h⟩ := refuse_bind_ok h
    obtain ⟨hcount, h⟩ := refuse_bind_ok h
    have hnew' : (seen'.any (·.key == p.key)) = false := by
      rw [Bool.eq_false_iff] at hnew ⊢
      intro hm
      exact hnew (any_key_iff.mpr ((hseen.map _).subset (any_key_iff.mp hm)))
    have hle : (seen'.filter (·.turnId == p.turnId)).length ≤
        (seen.filter (·.turnId == p.turnId)).length := (hseen.filter _).length_le
    have hcount' : decide (maxPendingInteractionsPerRun <
        (seen'.filter (·.turnId == p.turnId)).length + 1) = false := by
      have := of_decide_eq_false hcount
      exact decide_eq_false (by omega)
    rw [hp, ok_bind, hnew', refuse_false, ok_bind, hcount', refuse_false, ok_bind]
    exact ih (hseen.cons_cons p) h

/-- What `validate` checks. -/
theorem validate_iff : s.validate = .ok () ↔
    validateInteractionIdentity s.threadId "thread_id" = .ok () ∧
      s.cursor.validateInteraction = .ok () ∧ s.cursor.threadId = s.threadId ∧
      validatePendingSet [] s.pending = .ok () := by
  unfold validate
  constructor
  · intro h
    obtain ⟨_, h1, h⟩ := bind_ok h
    obtain ⟨_, h2, h⟩ := bind_ok h
    obtain ⟨h3, h4⟩ := refuse_bind_ok h
    exact ⟨h1, h2, by simpa using h3, h4⟩
  · rintro ⟨h1, h2, h3, h4⟩
    simp [h1, h2, h3, h4]

theorem nodup_keys (h : s.validate = .ok ()) : s.keys.Nodup :=
  (validatePendingSet_nodup (validate_iff.mp h).2.2.2).1

/-! ## The reducer -/

/-- The reducer accepts the next event. -/
theorem apply_nextEnvelope {pending : List PendingInteraction} (hv : s.validate = .ok ())
    (hseq : s.cursor.seq < u64Max) (now : Nat) {payload : InteractionEventPayload}
    (hp : payload.validate = .ok ()) (ha : s.applyPayload payload = .ok pending)
    (hset : validatePendingSet [] pending = .ok ()) :
    (s.nextEnvelope now payload).validate = .ok () ∧
    s.apply (s.nextEnvelope now payload) =
      .ok ({ s with pending, cursor := { s.cursor with seq := s.cursor.seq + 1 } }, true) := by
  obtain ⟨h1, h2, h3, -⟩ := validate_iff.mp hv
  have hcursor : ({ s.cursor with seq := s.cursor.seq + 1 } : Cursor).validateInteraction = .ok () := h2
  have henv : (s.nextEnvelope now payload).validate = .ok () := by
    unfold InteractionEventEnvelope.validate nextEnvelope
    simp only
    rw [h1, hcursor]
    simp [h3, hp]
  have hnext : ({ s with pending, cursor := { s.cursor with seq := s.cursor.seq + 1 } } :
      InteractionSnapshot).validate = .ok () := validate_iff.mpr ⟨h1, hcursor, h3, hset⟩
  refine ⟨henv, ?_⟩
  have hexpected : s.cursor.checkedNextInteraction = .ok { s.cursor with seq := s.cursor.seq + 1 } :=
    Cursor.next_of_lt h2 hseq
  unfold apply
  rw [hv, henv]
  simp only [Except.mapError, ok_bind, nextEnvelope, bne_self_eq_false, Bool.or_self, refuse_false,
    hexpected, ne_eq, not_true_eq_false, decide_false, ha, hnext]
  rw [if_neg (by omega)]

/-- What the reducer did when it took an event for a new one. -/
theorem of_apply (h : s.apply e = .ok (t, true)) :
    t.validate = .ok () ∧ e.cursor = { s.cursor with seq := s.cursor.seq + 1 } ∧
      s.applyPayload e.payload = .ok t.pending ∧
      t = { s with pending := t.pending, cursor := e.cursor } := by
  unfold apply at h
  obtain ⟨_, -, h⟩ := bind_ok h
  obtain ⟨_, -, h⟩ := bind_ok h
  obtain ⟨-, h⟩ := refuse_bind_ok h
  split at h
  · cases h
  · obtain ⟨expected, hexpected, h⟩ := bind_ok h
    obtain ⟨hcursor, h⟩ := refuse_bind_ok h
    obtain ⟨pending, ha, h⟩ := bind_ok h
    obtain ⟨_, hv, h⟩ := bind_ok h
    cases h
    obtain ⟨-, -, hnext⟩ := Cursor.next_ok (mapError_ok_iff.mp hexpected)
    refine ⟨mapError_ok_iff.mp hv, ?_, mapError_ok_iff.mp ha, rfl⟩
    rw [← hnext]
    simpa using hcursor

/-- The reducer takes an event past the cursor for a new one, and never moves the cursor back. -/
theorem apply_cursor {new : Bool} (h : s.apply e = .ok (t, new)) :
    s.cursor.seq ≤ t.cursor.seq ∧ (s.cursor.seq < e.cursor.seq → new = true) := by
  cases new with
  | true =>
    obtain ⟨-, hcursor, -, ht⟩ := of_apply h
    rw [ht]
    show s.cursor.seq ≤ e.cursor.seq ∧ _
    rw [hcursor]
    exact ⟨Nat.le_succ _, fun _ => rfl⟩
  | false =>
    unfold apply at h
    obtain ⟨_, -, h⟩ := bind_ok h
    obtain ⟨_, -, h⟩ := bind_ok h
    obtain ⟨-, h⟩ := refuse_bind_ok h
    split at h
    · rename_i hle
      cases h
      exact ⟨le_rfl, fun hlt => absurd hlt (Nat.not_lt.mpr hle)⟩
    · obtain ⟨expected, -, h⟩ := bind_ok h
      obtain ⟨-, h⟩ := refuse_bind_ok h
      obtain ⟨pending, -, h⟩ := bind_ok h
      obtain ⟨_, -, h⟩ := bind_ok h
      cases h

/-- The keys after an event. -/
theorem mem_keys_of_apply (h : s.apply e = .ok (t, true)) :
    (∃ p, e.payload = .requested p ∧ p.key ∉ s.keys ∧ t.pending = s.pending ++ [p]) ∨
    (∃ requestId turnId cause, e.payload = .removed requestId turnId cause ∧
      (turnId, requestId) ∈ s.keys ∧
      t.pending = s.pending.eraseP (·.key == (turnId, requestId))) := by
  obtain ⟨-, -, ha, -⟩ := of_apply h
  cases hp : e.payload with
  | requested p =>
    rw [hp] at ha
    obtain ⟨hnew, ha⟩ := refuse_bind_ok ha
    refine .inl ⟨p, rfl, fun hm => ?_, (Except.ok.inj ha).symm⟩
    rw [any_key_iff.mpr hm] at hnew
    cases hnew
  | removed requestId turnId cause =>
    rw [hp] at ha
    obtain ⟨hold, ha⟩ := refuse_bind_ok ha
    rw [Bool.not_eq_false'] at hold
    exact .inr ⟨requestId, turnId, cause, rfl, any_key_iff.mp hold, (Except.ok.inj ha).symm⟩

end

/-- Erasing a request erases its key and no other. -/
theorem mem_eraseP_key {ps : List PendingInteraction} (hn : (ps.map (·.key)).Nodup) {p : PendingInteraction} :
    p ∈ ps.eraseP (·.key == k) ↔ p ∈ ps ∧ p.key ≠ k := by
  induction ps with
  | nil => simp
  | cons q ps ih =>
    obtain ⟨hq, hps⟩ := List.nodup_cons.mp hn
    rw [List.eraseP_cons]
    by_cases hk : q.key = k
    · simp only [hk, beq_self_eq_true, cond_true, List.mem_cons]
      constructor
      · intro hp
        refine ⟨.inr hp, fun hpk => hq ?_⟩
        show q.key ∈ _
        rw [hk, ← hpk]
        exact List.mem_map_of_mem hp
      · rintro ⟨rfl | hp, hne⟩
        · exact absurd hk hne
        · exact hp
    · rw [show (q.key == k) = false by simpa using hk]
      simp only [cond_false, List.mem_cons, ih hps]
      constructor
      · rintro (rfl | ⟨hp, hne⟩)
        · exact ⟨.inl rfl, hk⟩
        · exact ⟨.inr hp, hne⟩
      · rintro ⟨rfl | hp, hne⟩
        · exact .inl rfl
        · exact .inr ⟨hp, hne⟩

section
variable [External]

omit [External] in
/-- The causes of the daemon are valid. -/
theorem validateBoundedText_removal (cause : InteractionRemoval) :
    validateBoundedText cause.text "Interaction removal cause" maxInteractionIdBytes = .ok () := by
  cases cause <;> decide +kernel

/-- The reducer accepts the removal of a pending request. -/
theorem apply_removed (hv : s.validate = .ok ()) (hseq : s.cursor.seq < u64Max) (hk : k ∈ s.keys)
    (cause : InteractionRemoval) (now : Nat) :
    (s.nextEnvelope now (.removed k.2 k.1 cause.text)).validate = .ok () ∧
    s.apply (s.nextEnvelope now (.removed k.2 k.1 cause.text)) =
      .ok ({ s with
        pending := s.pending.eraseP (·.key == k)
        cursor := { s.cursor with seq := s.cursor.seq + 1 } }, true) := by
  have hset := (validate_iff.mp hv).2.2.2
  obtain ⟨p, hp, rfl⟩ := List.mem_map.mp hk
  -- its texts are those of a pending request, so they are valid
  have hpv := validatePendingSet_mem hset p hp
  unfold PendingInteraction.validate at hpv
  obtain ⟨_, h1, hpv⟩ := bind_ok hpv
  obtain ⟨_, h2, -⟩ := bind_ok hpv
  apply apply_nextEnvelope hv hseq
  · show InteractionEventPayload.validate (.removed p.requestId p.turnId cause.text) = .ok ()
    simp [InteractionEventPayload.validate, h1, h2, validateBoundedText_removal]
  · show (do
        refuse (!s.pending.any (·.key == p.key)) "Removed Interaction is not pending"
        .ok (s.pending.eraseP (·.key == p.key)) : Except String (List PendingInteraction)) = _
    rw [any_key_iff.mpr hk]
    rfl
  · exact validatePendingSet_sublist List.eraseP_sublist .slnil hset

/-! ## Logs -/

/-- The reducer takes every event of a log for a new one. -/
def Reduces : InteractionSnapshot → List InteractionEventEnvelope → InteractionSnapshot → Prop :=
  Lts.Run fun s e t => s.apply e = .ok (t, true)

/-- Every event of a log moves the cursor by one. -/
theorem Reduces.cursor {es : List InteractionEventEnvelope} (h : Reduces s es t) :
    t.cursor.seq = s.cursor.seq + es.length := by
  induction h with
  | nil => rfl
  | cons hstep _ ih =>
    obtain ⟨-, hcursor, -, ht⟩ := of_apply hstep
    rw [ih, ht]
    simp only [hcursor, List.length_cons]
    omega

/-- A request that becomes pending is asked for. -/
theorem Reduces.requested {es : List InteractionEventEnvelope} (h : Reduces s es t) (hs : k ∉ s.keys)
    (ht : k ∈ t.keys) : ∃ e ∈ es, ∃ p, e.payload = .requested p ∧ p.key = k := by
  obtain ⟨es₁, e, es₂, u, u', rfl, -, hstep, -, hu, hu'⟩ :=
    Lts.Run.exists_step (P := fun s => k ∈ s.keys) h hs ht
  refine ⟨e, by simp, ?_⟩
  obtain ⟨p, hp, -, hpending⟩ | ⟨requestId, turnId, cause, -, -, hpending⟩ := mem_keys_of_apply hstep
  · refine ⟨p, hp, ?_⟩
    simp only [keys, hpending, List.map_append, List.mem_append, List.map_cons, List.map_nil,
      List.mem_singleton] at hu'
    rcases hu' with hold | hnew
    · exact absurd hold hu
    · exact hnew.symm
  · refine absurd ?_ hu
    unfold keys at hu' ⊢
    rw [hpending] at hu'
    exact (List.eraseP_sublist.map _).subset hu'

/-- Between two removals of a request it is asked for. -/
theorem Reduces.requested_between {es₁ es₂ es₃ : List InteractionEventEnvelope}
    {e e' : InteractionEventEnvelope} {requestId turnId cause cause' : String}
    (hs : s.validate = .ok ()) (h : Reduces s (es₁ ++ e :: (es₂ ++ e' :: es₃)) t)
    (he : e.payload = .removed requestId turnId cause)
    (he' : e'.payload = .removed requestId turnId cause') :
    ∃ f ∈ es₂, ∃ p, f.payload = .requested p ∧ p.key = (turnId, requestId) := by
  obtain ⟨u, h1, h⟩ := Lts.Run.split h
  cases h with
  | @cons _ v _ _ _ hv h =>
    obtain ⟨x, h2, h⟩ := Lts.Run.split h
    cases h with
    | cons hx _ =>
      -- valid snapshots have every key once, so the first removal leaves none
      have huv : u.validate = .ok () :=
        Lts.Run.invariant (fun s => s.validate = .ok ()) (fun _ _ _ _ hstep => (of_apply hstep).1) h1 hs
      apply Reduces.requested h2
      · obtain ⟨p, hp, -⟩ | ⟨requestId', turnId', cause', hp, -, hpending⟩ := mem_keys_of_apply hv
        · rw [he] at hp
          cases hp
        · rw [he] at hp
          cases hp
          intro hm
          obtain ⟨p, hp, hk⟩ := List.mem_map.mp hm
          rw [hpending] at hp
          exact ((mem_eraseP_key (nodup_keys huv)).mp hp).2 hk
      · obtain ⟨p, hp, -⟩ | ⟨requestId', turnId', cause', hp, hk, -⟩ := mem_keys_of_apply hx
        · rw [he'] at hp
          cases hp
        · rw [he'] at hp
          cases hp
          exact hk

end

end InteractionSnapshot

end Whale
