import Whale.Sdk.Proof.ToolSteps

/-!
# The locks of a registration

Two invariants of every run. `Fenced`: the phase of a session fits its close, and does not change in a closure of a
registration. `Locked`: a registration lock has one holder, it is the one in the map while the session is live, and
so a name has one task.
-/

namespace Whale.ToolRegistration

variable {Tool : Type} {name : Tool → String} {shards : Shards}

/-! ## The phases -/

/-- What a close and the phase of its session have to do with each other. -/
def Close.fits (closed : Bool) : Close → SessionPhase → Bool
  | idle, p => p == .opened || p == .closed
  | calling, p | rejecting, p => p == .closing || closed && p == .closed
  | failing, p => p == .closed
  | _, p => p == .releasing || p == .closed

theorem Close.fits_mono {closed closed' : Bool} {c : Close} {p : SessionPhase} (h : c.fits closed p = true)
    (hc : closed = true → closed' = true) : c.fits closed' p = true := by
  cases closed with
  | true => rwa [hc rfl]
  | false => cases c <;> cases p <;> first | exact h | cases h

/-- The close releases the session, or has. -/
def Close.tears : Close → Bool
  | idle | calling | rejecting | failing => false
  | _ => true

theorem Close.fits_tears {closed : Bool} {c : Close} {p : SessionPhase} (h : c.fits closed p = true)
    (hc : c.tears = true) : p.live = false := by
  cases c with
  | idle | calling | rejecting | failing => cases hc
  | _ => cases p <;> first | rfl | cases h

/-- The client is not closed and the session neither. -/
structure State.Live (s : State Tool) (sid : String) : Prop where
  closed : s.closed = false
  phase : (s.sessions sid).phase.live = true

/-- The invariant of the phases. -/
structure Fenced (s : State Tool) : Prop where
  fits : ∀ sid, (s.sessions sid).close.fits s.closed (s.sessions sid).phase = true
  fence : ∀ sid, s.Live sid → (s.sessions sid).released = false
  held : ∀ {i : Nat} {r : Registration Tool}, s.registrations[i]? = some r → r.stage.holdsPhase = true →
    (s.sessions r.sid).phase.live = true

theorem Move.live {s u : State Tool} {r r' : Registration Tool} (h : Move s r r' u) {i : Nat} {sid : String}
    (hl : (u.put i r').Live sid) : s.Live sid :=
  ⟨h.closed hl.closed, by rw [← h.sessions]; exact hl.phase⟩

theorem Local.holdsPhase {s : State Tool} {sid : String} {a b : Stage} (h : Local s sid a b)
    (hb : b.holdsPhase = true) : (s.sessions sid).phase.live = true := by
  cases h with
  | locking h | binding h => rw [(refusal_eq_none.mp h).2]; rfl
  | restoring h hopen => exact h
  | _ => cases hb

/-- A registration takes the lock of the phase of a session that is neither closed nor being released. -/
theorem Move.holdsPhase {s u : State Tool} {r r' : Registration Tool} (h : Move s r r' u)
    (hr : r'.stage.holdsPhase = true) : r.stage.holdsPhase = true ∨ (s.sessions r.sid).phase.live = true := by
  cases h with
  | stays h => exact .inr (h.holdsPhase hr)
  | bind hstage =>
    left
    rw [hstage]
    rfl
  | unbind hstage => obtain ⟨-, rfl⟩ | ⟨o, -, rfl⟩ := hstage <;> cases hr
  | _ => cases hr

/-- The phase of a session changes under its lock. -/
theorem Change.phase {s t : State Tool} (h : Change shards s t) (sid : String) :
    (t.sessions sid).phase = (s.sessions sid).phase ∨ s.Free sid := by
  cases h with
  | @close sid' hfree | @accept sid' _ hfree | @reopen sid' _ hfree | @fail sid' _ hfree | @finish sid' _ hfree
  | @drainPhase sid' _ _ hfree =>
    by_cases hsid : sid = sid'
    · subst hsid
      exact .inr hfree
    · left
      simp [hsid]
  | failed | reject | fence | wait | retainTools | retainBindings | retainLocks | drainFence =>
    left
    simp only [setSession_sessions]
    split
    · next hsid => rw [hsid]
    · first | rfl | (unfold State.disconnect; split <;> rfl)
  | _ => exact .inl rfl

/-- The fence of a session is cancelled when it is released, or the client closed. -/
theorem Change.released {s t : State Tool} (hf : Fenced s) (h : Change shards s t) {sid : String}
    (hl : t.Live sid) : s.Live sid ∧ (t.sessions sid).released = (s.sessions sid).released := by
  have hc := h.closed hl.closed
  have hfits := hf.fits sid
  have hphase := hl.phase
  rw [hc] at hfits
  cases h with
  | @close sid' hfree hopen =>
    simp only [setSession_sessions] at hphase ⊢
    split at hphase
    · next hsid =>
      subst hsid
      exact ⟨⟨hc, by rw [hopen]; rfl⟩, by simp⟩
    · next hsid => exact ⟨⟨hc, hphase⟩, by simp [hsid]⟩
  | @reopen sid' hclose hfree =>
    simp only [setSession_sessions] at hphase ⊢
    split at hphase
    · next hsid =>
      subst hsid
      rw [hclose] at hfits
      have hp : (s.sessions sid).phase = .closing := by simpa [Close.fits] using hfits
      exact ⟨⟨hc, by rw [hp]; rfl⟩, by simp⟩
    · next hsid => exact ⟨⟨hc, hphase⟩, by simp [hsid]⟩
  | @fence sid' hclose =>
    simp only [setSession_sessions] at hphase ⊢
    split at hphase
    · next hsid =>
      subst hsid
      -- a session that is being released is not live
      have hdead := Close.fits_tears hfits (by rw [hclose]; rfl)
      exact absurd (hdead.symm.trans hphase) Bool.noConfusion
    · next hsid => exact ⟨⟨hc, hphase⟩, by simp [hsid]⟩
  | @accept sid' | @reject sid' | @fail sid' | @wait sid' | @retainTools sid' | @retainBindings sid'
  | @retainLocks sid' | @finish sid' =>
    simp only [setSession_sessions] at hphase ⊢
    split at hphase
    · next hsid =>
      subst hsid
      first | cases hphase | exact ⟨⟨hc, hphase⟩, by simp⟩
    · next hsid => exact ⟨⟨hc, hphase⟩, by simp [hsid]⟩
  | failed hclose => exact absurd hl.closed (by rw [setSession_closed, disconnect_closed]; exact Bool.noConfusion)
  | invoke => exact ⟨⟨hc, hphase⟩, rfl⟩
  | _ => exact absurd hl.closed Bool.noConfusion

theorem Close.fits_closed (c : Close) : c.fits true .closed = true := by
  cases c <;> rfl

theorem Fenced.change {s t : State Tool} (hf : Fenced s) (h : Change shards s t) : Fenced t where
  fits := by
    intro sid
    have hfits : (s.sessions sid).close.fits t.closed (s.sessions sid).phase = true := by
      refine Close.fits_mono (hf.fits sid) fun hc => ?_
      by_contra ht
      exact absurd (h.closed (by simpa using ht)) (by simp [hc])
    cases h with
    | @drainPhase sid' =>
      simp only [setSession_sessions]
      split
      · exact Close.fits_closed _
      · exact hfits
    | @close sid' | @accept sid' | @reopen sid' | @fail sid' | @finish sid' =>
      simp only [setSession_sessions]
      split
      · simp [Close.fits]
      · exact hfits
    | @failed sid' hclose =>
      have hs : s.disconnect.sessions sid = s.sessions sid := by unfold State.disconnect; split <;> rfl
      simp only [setSession_sessions, hs]
      split
      · next hsid =>
        subst hsid
        rw [hclose] at hfits
        rw [show (s.sessions sid).phase = .closed by simpa [Close.fits] using hfits]
        rfl
      · exact hfits
    | @wait sid' _ hclose =>
      simp only [setSession_sessions]
      split
      · next hsid =>
        subst hsid
        obtain hclose | ⟨l, hclose⟩ := hclose <;> rw [hclose] at hfits <;> exact hfits
      · exact hfits
    | @reject sid' hclose | @fence sid' hclose | @retainTools sid' hclose | @retainBindings sid' hclose
    | @retainLocks sid' hclose =>
      simp only [setSession_sessions]
      split
      · next hsid =>
        subst hsid
        rw [hclose] at hfits
        exact hfits
      · exact hfits
    | @drainFence sid' =>
      simp only [setSession_sessions]
      split
      · next hsid =>
        subst hsid
        exact hfits
      · exact hfits
    | _ => exact hfits
  fence := by
    intro sid hl
    obtain ⟨hl', hr⟩ := h.released hf hl
    rw [hr]
    exact hf.fence sid hl'
  held := by
    intro i r hr hp
    rw [h.registrations] at hr
    obtain hphase | hfree := h.phase r.sid
    · rw [hphase]
      exact hf.held hr hp
    · rw [hfree r (List.mem_of_getElem? hr) rfl] at hp
      cases hp

theorem Fenced.move {s u : State Tool} (hf : Fenced s) {i : Nat} {r r' : Registration Tool}
    (hr : s.registrations[i]? = some r) (h : Move s r r' u) : Fenced (u.put i r') where
  fits := by
    intro sid
    show ((u.sessions sid).close.fits u.closed (u.sessions sid).phase) = true
    rw [h.sessions]
    refine Close.fits_mono (hf.fits sid) fun hc => ?_
    by_contra hu
    exact absurd (h.closed (by simpa using hu)) (by simp [hc])
  fence := by
    intro sid hl
    show (u.sessions sid).released = false
    rw [h.sessions]
    exact hf.fence sid (h.live hl)
  held := by
    intro j q hq hp
    show (u.sessions q.sid).phase.live = true
    rw [h.sessions]
    obtain ⟨rfl, rfl⟩ | ⟨-, hq⟩ := h.get hq
    · rw [h.same.sid]
      exact (h.holdsPhase hp).elim (hf.held hr) id
    · exact hf.held hq hp

/-- What is said of all registrations, with a new one. -/
theorem get_snoc {rs : List (Registration Tool)} {r q : Registration Tool} {j : Nat}
    (h : (rs ++ [r])[j]? = some q) : rs[j]? = some q ∨ j = rs.length ∧ q = r := by
  rw [List.getElem?_append] at h
  split at h
  · exact .inl h
  · next hj =>
    rw [List.getElem?_singleton] at h
    split at h
    · exact .inr ⟨by omega, (Option.some.inj h).symm⟩
    · cases h

theorem Fenced.step {s t : State Tool} {e : Event} (hf : Fenced s) (h : Step name shards s e t) : Fenced t := by
  obtain ⟨i, r, r', u, hr, hm, rfl, -⟩ | ⟨sid, tool, bindingId, -, rfl⟩ | rfl | hc := h.cases
  · exact hf.move hr hm
  · refine ⟨hf.fits, fun sid hl => hf.fence sid ⟨hl.closed, hl.phase⟩, fun {j q} hq hp => ?_⟩
    obtain hq | ⟨-, rfl⟩ := get_snoc hq
    · exact hf.held hq hp
    · cases hp
  · exact hf
  · exact hf.change hc

/-! ## The locks of the names -/

/-- It waits for the lock of its name, or has it. -/
def Stage.hasLock (stage : Stage) : Bool := stage == .queued || stage.holdsLock

/-- The invariant of the locks. -/
structure Locked (s : State Tool) : Prop where
  mutex : ∀ {i j : Nat} {r q : Registration Tool}, s.registrations[i]? = some r → s.registrations[j]? = some q →
    r.stage.holdsLock = true → q.stage.holdsLock = true → r.lock = q.lock → i = j
  entry : ∀ {i : Nat} {r : Registration Tool}, s.registrations[i]? = some r → s.Live r.sid →
    r.stage.hasLock = true → s.locks.get? r.key = some r.lock
  single : ∀ {i j : Nat} {r q : Registration Tool}, s.registrations[i]? = some r → s.registrations[j]? = some q →
    r.stage.running = true → q.stage.running = true → r.key = q.key → i = j

theorem Stage.holdsLock_of_running {stage : Stage} (h : stage.running = true) : stage.holdsLock = true := by
  rw [holdsLock, h, Bool.or_true]

theorem Stage.hasLock_of_holdsLock {stage : Stage} (h : stage.holdsLock = true) : stage.hasLock = true := by
  rw [hasLock, h, Bool.or_true]

/-- A task is spawned under the lock of its name, for an open session. -/
theorem Local.running {s : State Tool} {sid : String} {a b : Stage} (h : Local s sid a b) (hb : b.running = true) :
    a.running = true ∨ a = .locked ∧ s.refusal sid = none := by
  cases h with
  | spawned h => exact .inr ⟨rfl, h⟩
  | disconnected ha | fenced ha => cases a <;> simp_all [Stage.admits, Stage.running]
  | released ha | replied ha => obtain rfl | rfl := ha <;> exact .inl rfl
  | refused | stopped | opened | available | locking | late | done | gone | kept | disconnectedAlready | drained =>
    cases hb
  | _ => exact .inl rfl

theorem Local.hasLock {s : State Tool} {sid : String} {a b : Stage} (h : Local s sid a b)
    (hb : b.hasLock = true) : a.holdsLock = true := by
  have hrun : b.running = true := by
    cases h with
    | refused | stopped | opened | available | locking | late | done | gone | kept | disconnectedAlready | drained =>
      cases hb
    | _ => rfl
  obtain ha | ⟨rfl, -⟩ := h.running hrun
  · exact Stage.holdsLock_of_running ha
  · rfl

section Move

variable {s u : State Tool} {r r' : Registration Tool}

theorem Move.running (h : Move s r r' u) (hr : r'.stage.running = true) :
    r.stage.running = true ∨ r.stage = .locked ∧ s.refusal r.sid = none := by
  cases h with
  | stays h => exact h.running hr
  | bind hstage | install hstage | acknowledge hstage | restore hstage | forget hstage | disconnect hstage =>
    left
    rw [hstage]
    rfl
  | unbind hstage =>
    left
    obtain ⟨hstage, -⟩ | ⟨o, hstage, -⟩ := hstage <;> rw [hstage] <;> rfl
  | _ => cases hr

/-- A registration keeps its lock, or takes one that is free. -/
theorem Move.holdsLock (h : Move s r r' u) (hr : r'.stage.holdsLock = true) :
    r'.lock = r.lock ∧ (r.stage.holdsLock = true ∨ s.Unlocked r.lock) := by
  cases h with
  | stays h => exact ⟨rfl, .inl (h.hasLock (Stage.hasLock_of_holdsLock hr))⟩
  | acquire hstage h => exact ⟨rfl, .inr h⟩
  | lock | newLock => cases hr
  | bind hstage | install hstage | acknowledge hstage | restore hstage | forget hstage | disconnect hstage =>
    refine ⟨rfl, .inl ?_⟩
    rw [hstage]
    rfl
  | unbind hstage =>
    refine ⟨rfl, .inl ?_⟩
    obtain ⟨hstage, -⟩ | ⟨o, hstage, -⟩ := hstage <;> rw [hstage] <;> rfl

/-- A registration that asks for the lock of its name is given the one of the map. -/
theorem Move.entry (h : Move s r r' u) (hr : r'.stage.hasLock = true)
    (hs : r.stage.hasLock = true → s.locks.get? r.key = some r.lock) : u.locks.get? r.key = some r'.lock := by
  cases h with
  | lock hstage h => exact h
  | newLock hstage h => exact KeyMap.get?_insert_self
  | stays h => exact hs (Stage.hasLock_of_holdsLock (h.hasLock hr))
  | acquire hstage | bind hstage | install hstage | acknowledge hstage | restore hstage | forget hstage
  | disconnect hstage =>
    apply hs
    rw [hstage]
    rfl
  | unbind hstage =>
    apply hs
    obtain ⟨hstage, -⟩ | ⟨o, hstage, -⟩ := hstage <;> rw [hstage] <;> rfl

theorem Move.locks (h : Move s r r' u) {k : Key} {lock : Nat} (hk : s.locks.get? k = some lock) :
    u.locks.get? k = some lock := by
  cases h with
  | newLock hstage h =>
    rw [KeyMap.get?_insert_ne]
    · exact hk
    · rintro rfl
      rw [h] at hk
      cases hk
  | _ => exact hk

end Move

/-- The locks of a session are removed when it is released, or the client closed. -/
theorem Change.locks {s t : State Tool} (hf : Fenced s) (h : Change shards s t) {k : Key} (hl : t.Live k.1) :
    t.locks.get? k = s.locks.get? k := by
  have hl' := (h.released hf hl).1
  cases h with
  | @retainLocks sid hclose =>
    have hne : k.1 ≠ sid := by
      rintro rfl
      have hdead := Close.fits_tears (hf.fits k.1) (by rw [hclose]; rfl)
      exact absurd (hdead.symm.trans hl'.phase) Bool.noConfusion
    rw [KeyMap.get?_filter_eq]
    cases s.locks.get? k <;> simp [hne]
  | clearLocks => exact absurd hl.closed Bool.noConfusion
  | failed =>
    unfold State.disconnect State.setSession
    split <;> rfl
  | _ => rfl

theorem Locked.move {s u : State Tool} (hk : Locked s) {i : Nat} {r r' : Registration Tool}
    (hr : s.registrations[i]? = some r) (h : Move s r r' u) : Locked (u.put i r') where
  mutex := by
    have hmover : ∀ {j : Nat} {q : Registration Tool}, j ≠ i → s.registrations[j]? = some q →
        r'.stage.holdsLock = true → q.stage.holdsLock = true → r'.lock ≠ q.lock := by
      intro j q hj hq hr' hq' heq
      obtain ⟨hlock, hheld | hfree⟩ := h.holdsLock hr'
      · exact hj (hk.mutex hr hq hheld hq' (hlock.symm.trans heq)).symm
      · exact hfree q (List.mem_of_getElem? hq) hq' (heq.symm.trans hlock)
    intro j j' q q' hq hq' ha hb heq
    obtain ⟨rfl, rfl⟩ | ⟨hj, hold⟩ := h.get hq <;> obtain ⟨rfl, rfl⟩ | ⟨hj', hold'⟩ := h.get hq'
    · rfl
    · exact absurd heq (hmover hj' hold' ha hb)
    · exact absurd heq.symm (hmover hj hold hb ha)
    · exact hk.mutex hold hold' ha hb heq
  entry := by
    intro j q hq hl hlock
    have hl' := h.live hl
    show u.locks.get? q.key = _
    obtain ⟨rfl, rfl⟩ | ⟨-, hq⟩ := h.get hq
    · rw [h.same.key]
      exact h.entry hlock (hk.entry hr (by rw [← h.same.sid]; exact hl'))
    · exact h.locks (hk.entry hq hl' hlock)
  single := by
    have hmover : ∀ {j : Nat} {q : Registration Tool}, j ≠ i → s.registrations[j]? = some q →
        r'.stage.running = true → q.stage.running = true → r'.key ≠ q.key := by
      intro j q hj hq hr' hq' heq
      rw [h.same.key] at heq
      obtain hrun | ⟨hst, hopen⟩ := h.running hr'
      · exact hj (hk.single hr hq hrun hq' heq).symm
      · -- both have the lock that the map has for the name
        obtain ⟨hc, hp⟩ := refusal_eq_none.mp hopen
        have hl : s.Live r.sid := ⟨hc, by rw [hp]; rfl⟩
        have hheld : r.stage.holdsLock = true := by rw [hst]; rfl
        have hheld' := Stage.holdsLock_of_running hq'
        have he := hk.entry hr hl (Stage.hasLock_of_holdsLock hheld)
        have hsid : q.sid = r.sid := (congrArg Prod.fst heq).symm
        have he' := hk.entry hq (by rw [hsid]; exact hl) (Stage.hasLock_of_holdsLock hheld')
        rw [← heq, he] at he'
        exact hj (hk.mutex hr hq hheld hheld' (Option.some.inj he')).symm
    intro j j' q q' hq hq' ha hb heq
    obtain ⟨rfl, rfl⟩ | ⟨hj, hold⟩ := h.get hq <;> obtain ⟨rfl, rfl⟩ | ⟨hj', hold'⟩ := h.get hq'
    · rfl
    · exact absurd heq (hmover hj' hold' ha hb)
    · exact absurd heq.symm (hmover hj hold hb ha)
    · exact hk.single hold hold' ha hb heq

theorem Locked.step {s t : State Tool} {e : Event} (hf : Fenced s) (hk : Locked s)
    (h : Step name shards s e t) : Locked t := by
  obtain ⟨i, r, r', u, hr, hm, rfl, -⟩ | ⟨sid, tool, bindingId, -, rfl⟩ | rfl | hc := h.cases
  · exact hk.move hr hm
  · refine ⟨fun hq hq' ha hb heq => ?_, fun hq hl hlock => ?_, fun hq hq' ha hb heq => ?_⟩
    · obtain hq | ⟨-, rfl⟩ := get_snoc hq
      · obtain hq' | ⟨-, rfl⟩ := get_snoc hq'
        · exact hk.mutex hq hq' ha hb heq
        · cases hb
      · cases ha
    · obtain hq | ⟨-, rfl⟩ := get_snoc hq
      · exact hk.entry hq ⟨hl.closed, hl.phase⟩ hlock
      · cases hlock
    · obtain hq | ⟨-, rfl⟩ := get_snoc hq
      · obtain hq' | ⟨-, rfl⟩ := get_snoc hq'
        · exact hk.single hq hq' ha hb heq
        · cases hb
      · cases ha
  · exact hk
  · refine ⟨fun hq hq' => ?_, fun {i r} hq hl hlock => ?_, fun hq hq' => ?_⟩
    · rw [hc.registrations] at hq hq'
      exact hk.mutex hq hq'
    · rw [hc.registrations] at hq
      have hl' := (hc.released hf hl).1
      rw [hc.locks hf (k := r.key) hl]
      exact hk.entry hq hl' hlock
    · rw [hc.registrations] at hq hq'
      exact hk.single hq hq'

end Whale.ToolRegistration
