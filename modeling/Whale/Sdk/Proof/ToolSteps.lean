import Whale.Sdk.Tools

/-!
# The steps of a registration

`Step.cases`: a step is a `Move` of one registration (a `Local` one where nothing else changes), a new registration,
or a `Change` of what all share. The invariants of the registrations go by these, and by what each of them keeps.
-/

namespace Whale.ToolRegistration

variable {Tool : Type} {name : Tool → String} {shards : Shards}

/-! ## What a step can do -/

/-- The caller is not in a closure. -/
def Stage.early : Stage → Bool
  | called | opened | available | queued | locked => true
  | _ => false

/-- The moves of a registration that change nothing else. -/
inductive Local (s : State Tool) (sid : String) : Stage → Stage → Prop
  | refused {a : Stage} {o : Outcome} (ha : a.early = true) (ho : o ≠ .rpc) : Local s sid a (.ended o)
  | stopped {a : Stage} {o : Outcome} (ha : a = .spawned ∨ a = .starting) (ho : o ≠ .rpc) :
      Local s sid a (.ended o)
  | opened : Local s sid .called .opened
  | available : Local s sid .opened .available
  | locking (h : s.refusal sid = none) : Local s sid .available .locking
  | spawned (h : s.refusal sid = none) : Local s sid .locked .spawned
  | starting : Local s sid .spawned .starting
  | binding (h : s.refusal sid = none) : Local s sid .starting .binding
  | admitting (h : s.closed = false) : Local s sid .requesting .admitting
  | enrolling (h : s.closed = false) : Local s sid .admitting .enrolling
  | enrolled (h : s.closed = false) : Local s sid .enrolling .enrolled
  | sending (h : s.closed = false) : Local s sid .enrolled .sending
  | sent : Local s sid .sending .sent
  /-- The client is closed. -/
  | disconnected {a : Stage} (ha : a = .requesting ∨ a.admits = true ∨ a = .enrolled) (h : s.closed = true) :
      Local s sid a (.settled .channelClosed)
  /-- The session is not open, at a check of the request. -/
  | fenced {a : Stage} (ha : a.admits = true) (h : s.closed = false) (hphase : (s.sessions sid).phase ≠ .opened) :
      Local s sid a (.settled .sessionClosed)
  | released {a : Stage} (ha : a = .sending ∨ a = .sent) (h : (s.sessions sid).released = true) :
      Local s sid a (.replied .sessionClosed)
  | replied {a : Stage} {o : Outcome} (ha : a = .sending ∨ a = .sent)
      (ho : o = .failed ∨ o = .channelClosed ∨ o = .rpc) : Local s sid a (.replied o)
  | torn {o : Outcome} (h : (s.sessions sid).phase.live = false) :
      Local s sid (.replied o) (.settled .sessionClosed)
  | settled {o : Outcome} (h : (s.sessions sid).phase.live = true) : Local s sid (.replied o) (.settled o)
  | late (h : (s.sessions sid).phase.live = false) : Local s sid (.settled .ok) (.ended .sessionClosed)
  | done : Local s sid (.settled .ok) (.ended .ok)
  | gone : Local s sid (.settled .sessionClosed) (.ended .sessionClosed)
  | rejected (h : s.closed = false) : Local s sid (.settled .rpc) .rejected
  | lost {o : Outcome} (ho : o ≠ .ok) (ho' : o ≠ .sessionClosed) : Local s sid (.settled o) (.lost o)
  | kept (h : (s.sessions sid).phase.live = false ∨ s.closed = true) : Local s sid .unbound (.ended .rpc)
  | restoring (h : (s.sessions sid).phase.live = true) (hopen : s.closed = false) : Local s sid .unbound .restoring
  | disconnectedAlready {o : Outcome} (h : s.closed = true) : Local s sid (.disconnecting o) (.ended o)
  | drained {o : Outcome} (h : s.closed = true) : Local s sid (.draining o) (.ended o)

/-- The moves of a registration, to what it becomes and to what the shared state becomes. -/
inductive Move (s : State Tool) (r : Registration Tool) : Registration Tool → State Tool → Prop
  | stays {stage : Stage} (h : Local s r.sid r.stage stage) : Move s r { r with stage } s
  | lock {lock : Nat} (hstage : r.stage = .locking) (h : s.locks.get? r.key = some lock) :
      Move s r { r with lock, stage := .queued } s
  | newLock (hstage : r.stage = .locking) (h : s.locks.get? r.key = none) :
      Move s r { r with lock := s.nextLock, stage := .queued }
        { s with locks := s.locks.insert r.key s.nextLock, nextLock := s.nextLock + 1 }
  | acquire (hstage : r.stage = .queued) (h : s.Unlocked r.lock) : Move s r { r with stage := .locked } s
  | bind (hstage : r.stage = .binding) :
      Move s r { r with stage := .naming } { s with bindings := s.bindings.insert r.bindingKey r.tool }
  | install (hstage : r.stage = .naming) :
      Move s r { r with stage := .requesting, old := s.tools.get? r.key }
        { s with tools := s.tools.insert r.key r.tool }
  | acknowledge (hstage : r.stage = .sent) :
      Move s r { r with stage := .replied .ok }
        { s with acknowledged := s.acknowledged.insert r.key (r.tool, r.bindingId) }
  | unbind {stage : Stage}
      (hstage : r.stage = .rejected ∧ stage = .unbound ∨ ∃ o, r.stage = .lost o ∧ stage = .forgetting o) :
      Move s r { r with stage } { s with bindings := s.bindings.erase r.bindingKey }
  | restore (hstage : r.stage = .restoring) :
      Move s r { r with stage := .ended .rpc } { s with tools := s.restore r }
  | forget {o : Outcome} (hstage : r.stage = .forgetting o) :
      Move s r { r with stage := .disconnecting o } { s with tools := s.tools.erase r.key }
  | disconnect {o : Outcome} (hstage : r.stage = .disconnecting o) (h : s.closed = false) :
      Move s r { r with stage := .draining o } { s with shutdown := .tools 0 }

/-- The other steps: a close, the shutdown, an invocation. -/
inductive Change (shards : Shards) (s : State Tool) : State Tool → Prop
  | close {sid : String} (hfree : s.Free sid) (hphase : (s.sessions sid).phase = .opened) :
      Change shards s (s.setSession sid { s.sessions sid with phase := .closing, close := .calling })
  | accept {sid : String} (hclose : (s.sessions sid).close = .calling) (hfree : s.Free sid) :
      Change shards s (s.setSession sid { s.sessions sid with phase := .releasing, close := .releasing })
  | reject {sid : String} (hclose : (s.sessions sid).close = .calling) :
      Change shards s (s.setSession sid { s.sessions sid with close := .rejecting })
  | reopen {sid : String} (hclose : (s.sessions sid).close = .rejecting) (hfree : s.Free sid) :
      Change shards s (s.setSession sid { s.sessions sid with phase := .opened, close := .idle })
  | fail {sid : String} (hclose : (s.sessions sid).close = .calling) (hfree : s.Free sid) :
      Change shards s (s.setSession sid { s.sessions sid with phase := .closed, close := .failing })
  | failed {sid : String} (hclose : (s.sessions sid).close = .failing) :
      Change shards s (s.disconnect.setSession sid { s.sessions sid with close := .idle })
  | fence {sid : String} (hclose : (s.sessions sid).close = .releasing) :
      Change shards s (s.setSession sid { s.sessions sid with released := true, close := .collecting })
  | wait {sid : String} {locks : List Nat}
      (hclose : (s.sessions sid).close = .collecting ∨ ∃ l, (s.sessions sid).close = .waiting l) :
      Change shards s (s.setSession sid { s.sessions sid with close := .waiting locks })
  | retainTools {sid : String} (hclose : (s.sessions sid).close = .waiting []) :
      Change shards s { s.setSession sid { s.sessions sid with close := .toolsRetained } with
        tools := s.tools.filter (·.1.1 != sid) }
  | retainBindings {sid : String} (hclose : (s.sessions sid).close = .toolsRetained) :
      Change shards s { s.setSession sid { s.sessions sid with close := .bindingsRetained } with
        bindings := s.bindings.filter (·.1.1 != sid) }
  | retainLocks {sid : String} (hclose : (s.sessions sid).close = .bindingsRetained) :
      Change shards s { s.setSession sid { s.sessions sid with close := .locksRetained } with
        locks := s.locks.filter (·.1.1 != sid) }
  | finish {sid : String} (hclose : (s.sessions sid).close = .locksRetained) (hfree : s.Free sid) :
      Change shards s (s.setSession sid { s.sessions sid with phase := .closed, close := .done })
  | disconnect (h : s.closed = false) : Change shards s { s with shutdown := .tools 0 }
  | clearTools {n : Nat} (h : s.shutdown = .tools n) :
      Change shards s { s with tools := s.tools.filter fun e => (shards.tools e.1).val != n,
                               shutdown := .tools (n + 1) }
  | clearBindings {n : Nat} (h : s.shutdown = .bindings n) :
      Change shards s { s with bindings := s.bindings.filter fun e => (shards.bindings e.1).val != n,
                               shutdown := .bindings (n + 1) }
  | toolsCleared {n : Nat} (h : s.shutdown = .tools n) (hn : shards.count ≤ n) :
      Change shards s { s with shutdown := .bindings 0 }
  | bindingsCleared {n : Nat} (h : s.shutdown = .bindings n) (hn : shards.count ≤ n) :
      Change shards s { s with shutdown := .locks }
  | clearLocks (h : s.shutdown = .locks) :
      Change shards s { s with locks := .empty, shutdown := .sessions s.known false }
  | drainFence {sid : String} {sids : List String} (h : s.shutdown = .sessions (sid :: sids) false) :
      Change shards s { s.setSession sid { s.sessions sid with released := true } with
        shutdown := .sessions (sid :: sids) true }
  | drainPhase {sid : String} {sids : List String} (h : s.shutdown = .sessions (sid :: sids) true)
      (hfree : s.Free sid) :
      Change shards s { s.setSession sid { s.sessions sid with phase := .closed } with
        shutdown := .sessions sids false }
  | drained {b : Bool} (h : s.shutdown = .sessions [] b) : Change shards s { s with shutdown := .finished }
  | invoke {p : ToolExecuteHostParams} {tool : Tool} (h : s.handler p = some tool) :
      Change shards s { s with ran := s.ran ++ [(p, tool)] }

theorem refusal_eq_none {s : State Tool} {sid : String} :
    s.refusal sid = none ↔ s.closed = false ∧ (s.sessions sid).phase = .opened := by
  unfold State.refusal
  cases s.closed <;> simp

theorem refusal_eq_some {s : State Tool} {sid : String} {o : Outcome} (h : s.refusal sid = some o) :
    s.closed = true ∧ o = .channelClosed ∨
      s.closed = false ∧ (s.sessions sid).phase ≠ .opened ∧ o = .sessionClosed := by
  unfold State.refusal at h
  split at h
  · next hc => exact .inl ⟨hc, (Option.some.inj h).symm⟩
  · next hc =>
    split at h
    · next hp => exact .inr ⟨by simpa using hc, by simpa using hp, (Option.some.inj h).symm⟩
    · cases h

theorem refusal_ne_rpc {s : State Tool} {sid : String} {o : Outcome} (h : s.refusal sid = some o) : o ≠ .rpc := by
  obtain ⟨-, rfl⟩ | ⟨-, -, rfl⟩ := refusal_eq_some h <;> exact Outcome.noConfusion

/-- Where a check of an open session leads. -/
theorem elim_refusal {s : State Tool} {sid : String} {stage stage' : Stage} {f : Outcome → Stage}
    (h : (s.refusal sid).elim stage f = stage') :
    (s.refusal sid = none ∧ stage' = stage) ∨ ∃ o, s.refusal sid = some o ∧ stage' = f o := by
  cases hr : s.refusal sid with
  | none => exact .inl ⟨rfl, by rw [← h, hr]; rfl⟩
  | some o => exact .inr ⟨o, rfl, by rw [← h, hr]; rfl⟩

/-- A refusal before the handler is installed. -/
theorem Local.early {s : State Tool} {sid : String} {a : Stage} {o : Outcome} (h : s.refusal sid = some o)
    (ha : a.early = true ∨ a = .spawned ∨ a = .starting) : Local s sid a (.ended o) := by
  obtain ha | ha := ha
  · exact .refused ha (refusal_ne_rpc h)
  · exact .stopped ha (refusal_ne_rpc h)

/-- A refusal in the request. -/
theorem Local.late_refusal {s : State Tool} {sid : String} {a : Stage} {o : Outcome} (h : s.refusal sid = some o)
    (ha : a.admits = true) : Local s sid a (.settled o) := by
  obtain ⟨hc, rfl⟩ | ⟨hc, hp, rfl⟩ := refusal_eq_some h
  · exact .disconnected (.inr (.inl ha)) hc
  · exact .fenced ha hc hp

theorem check_local {s : State Tool} {r : Registration Tool} {stage : Stage} (h : s.check r = some stage) :
    Local s r.sid r.stage stage := by
  unfold State.check at h
  split at h <;> simp only [Option.some.injEq, reduceCtorEq] at h
  case _ hst =>
    rw [hst]
    obtain ⟨-, rfl⟩ | ⟨o, ho, rfl⟩ := elim_refusal h
    · exact .opened
    · exact .early ho (.inl rfl)
  case _ hst =>
    rw [hst]
    subst h
    split
    · next o ho => exact .early ho (.inl rfl)
    · split
      · exact .refused rfl Outcome.noConfusion
      · exact .available
  case _ hst =>
    rw [hst]
    obtain ⟨hn, rfl⟩ | ⟨o, ho, rfl⟩ := elim_refusal h
    · exact .locking hn
    · exact .early ho (.inl rfl)
  case _ hst =>
    rw [hst]
    obtain ⟨hn, rfl⟩ | ⟨o, ho, rfl⟩ := elim_refusal h
    · exact .spawned hn
    · exact .early ho (.inl rfl)
  case _ hst =>
    rw [hst, ← h]
    split
    · exact .stopped (.inl rfl) Outcome.noConfusion
    · exact .starting
  case _ hst =>
    rw [hst]
    obtain ⟨hn, rfl⟩ | ⟨o, ho, rfl⟩ := elim_refusal h
    · exact .binding hn
    · exact .early ho (.inr (.inr rfl))
  case _ hst =>
    rw [hst, ← h]
    split
    · next hc => exact .disconnected (.inl rfl) hc
    · next hc => exact .admitting (by simpa using hc)
  case _ hst =>
    rw [hst]
    obtain ⟨hn, rfl⟩ | ⟨o, ho, rfl⟩ := elim_refusal h
    · exact .enrolling (refusal_eq_none.mp hn).1
    · exact .late_refusal ho rfl
  case _ hst =>
    rw [hst]
    obtain ⟨hn, rfl⟩ | ⟨o, ho, rfl⟩ := elim_refusal h
    · exact .enrolled (refusal_eq_none.mp hn).1
    · exact .late_refusal ho rfl
  case _ hst =>
    rw [hst, ← h]
    split
    · next hc => exact .disconnected (.inr (.inr rfl)) hc
    · next hc => exact .sending (by simpa using hc)
  case _ o hst =>
    rw [hst, ← h]
    split
    · next hp => exact .torn (by simpa [State.sessionClosed] using hp)
    · next hp => exact .settled (by simpa [State.sessionClosed] using hp)
  case _ hst =>
    rw [hst, ← h]
    split
    · next hp => exact .late (by simpa [State.sessionClosed] using hp)
    · exact .done
  case _ hst =>
    rw [hst, ← h]
    exact .gone
  case _ hst =>
    rw [hst, ← h]
    split
    · exact .lost Outcome.noConfusion Outcome.noConfusion
    · next hc => exact .rejected (by simpa using hc)
  case _ o hok hclosed hrpc hst =>
    rw [hst, ← h]
    exact .lost (fun ho => hok (by rw [← ho])) fun ho => hclosed (by rw [← ho])
  case _ hst =>
    rw [hst, ← h]
    split
    · next hk => exact .kept (by simpa [State.sessionClosed] using hk)
    · next hk =>
      simp only [State.sessionClosed, Bool.or_eq_true, Bool.not_eq_true', not_or, Bool.not_eq_false,
        Bool.not_eq_true] at hk
      exact .restoring hk.1 hk.2

theorem work_move {s t : State Tool} {i : Nat} {r : Registration Tool} (h : s.work i r = some t) :
    ∃ r' u, Move s r r' u ∧ t = u.put i r' := by
  unfold State.work at h
  split at h <;> simp only [Option.some.injEq, reduceCtorEq] at h <;> subst h
  case _ hst =>
    split
    · next lock hl => exact ⟨_, s, .lock hst hl, rfl⟩
    · next hl => exact ⟨_, _, .newLock hst hl, rfl⟩
  case _ hst => exact ⟨_, _, .bind hst, rfl⟩
  case _ hst => exact ⟨_, _, .install hst, rfl⟩
  case _ hst => exact ⟨_, _, .unbind (.inl ⟨hst, rfl⟩), rfl⟩
  case _ hst => exact ⟨_, _, .restore hst, rfl⟩
  case _ o hst => exact ⟨_, _, .unbind (.inr ⟨o, hst, rfl⟩), rfl⟩
  case _ o hst => exact ⟨_, _, .forget hst, rfl⟩
  case _ o hst =>
    split
    · next hc => exact ⟨_, s, .stays (by rw [hst]; exact .disconnectedAlready hc), rfl⟩
    · next hc => exact ⟨_, _, .disconnect hst (by simpa using hc), rfl⟩

theorem proceed_change {s t : State Tool} {sid : String} (h : s.proceed sid = some t)
    (hfree : (s.sessions sid).close.locksPhase = true → s.Free sid) : Change shards s t := by
  simp only [State.proceed] at h
  split at h <;> simp only [Option.some.injEq, reduceCtorEq] at h <;> subst h
  case _ hc => exact .reopen hc (hfree (by rw [hc]; rfl))
  case _ hc => exact .failed hc
  case _ hc => exact .fence hc
  case _ hc => exact .wait (.inl hc)
  case _ hc => exact .retainTools hc
  case _ hc => exact .retainBindings hc
  case _ hc => exact .retainLocks hc
  case _ hc => exact .finish hc (hfree (by rw [hc]; rfl))

theorem sweep_change {s t : State Tool} {locked : Option String} (h : s.sweep shards = some (t, locked))
    (hfree : ∀ sid, locked = some sid → s.Free sid) : Change shards s t := by
  unfold State.sweep at h
  split at h
  case _ n hs =>
    split at h <;> obtain ⟨rfl, rfl⟩ := Prod.mk.inj (Option.some.inj h)
    · exact .clearTools hs
    · next hn => exact .toolsCleared hs (Nat.le_of_not_lt hn)
  case _ n hs =>
    split at h <;> obtain ⟨rfl, rfl⟩ := Prod.mk.inj (Option.some.inj h)
    · exact .clearBindings hs
    · next hn => exact .bindingsCleared hs (Nat.le_of_not_lt hn)
  case _ hs =>
    obtain ⟨rfl, rfl⟩ := Prod.mk.inj (Option.some.inj h)
    exact .clearLocks hs
  case _ sid sids hs =>
    obtain ⟨rfl, rfl⟩ := Prod.mk.inj (Option.some.inj h)
    exact .drainFence hs
  case _ sid sids hs =>
    obtain ⟨rfl, rfl⟩ := Prod.mk.inj (Option.some.inj h)
    exact .drainPhase hs (hfree sid rfl)
  case _ b hs =>
    obtain ⟨rfl, rfl⟩ := Prod.mk.inj (Option.some.inj h)
    exact .drained hs
  case _ => cases h

/-- What a step is. -/
theorem Step.cases {s t : State Tool} {e : Event} (h : Step name shards s e t) :
    (∃ i r r' u, s.registrations[i]? = some r ∧ Move s r r' u ∧ t = u.put i r' ∧
      (r.stage.admits = true → e = .registration i)) ∨
    (∃ sid tool bindingId, bindingId ∉ s.issued ∧
      t = { s with registrations := s.registrations ++ [{ sid, name := name tool, tool, bindingId }],
                   issued := bindingId :: s.issued }) ∨
    t = s ∨ Change shards s t := by
  cases h with
  | register hsid tool hid => exact .inr (.inl ⟨_, tool, _, hid, rfl⟩)
  | check hr hfree h => exact .inl ⟨_, _, _, s, hr, .stays (check_local h), rfl, fun _ => rfl⟩
  | work hr h =>
    obtain ⟨r', u, hm, rfl⟩ := work_move h
    exact .inl ⟨_, _, r', u, hr, hm, rfl, fun _ => rfl⟩
  | acquire hr hstage hfree => exact .inl ⟨_, _, _, s, hr, .acquire hstage hfree, rfl, fun _ => rfl⟩
  | drop hr hstage =>
    refine .inl ⟨_, _, _, s, hr, .stays ?_, rfl, fun h => ?_⟩
    · rw [hstage]
      exact .refused rfl Outcome.noConfusion
    · rw [hstage] at h
      cases h
  | send hr hstage =>
    refine .inl ⟨_, _, _, s, hr, .stays ?_, rfl, fun _ => rfl⟩
    rw [hstage]
    exact .sent
  | fence hr hstage hreleased =>
    exact .inl ⟨_, _, _, s, hr, .stays (.released hstage hreleased), rfl, fun _ => rfl⟩
  | fail hr hstage ho =>
    refine .inl ⟨_, _, _, s, hr, .stays (.replied hstage ?_), rfl, fun _ => rfl⟩
    obtain rfl | rfl := ho
    · exact .inl rfl
    · exact .inr (.inl rfl)
  | reject hr hstage hreleased =>
    exact .inl ⟨_, _, _, s, hr, .stays (.replied (.inr hstage) (.inr (.inr rfl))), rfl, fun _ => rfl⟩
  | acknowledge hr hstage hreleased => exact .inl ⟨_, _, _, _, hr, .acknowledge hstage, rfl, fun _ => rfl⟩
  | drained hr hstage hdone =>
    refine .inl ⟨_, _, _, s, hr, .stays ?_, rfl, fun _ => rfl⟩
    rw [hstage]
    exact .drained (by simp [State.closed, hdone])
  | close hsid hfree hphase => exact .inr (.inr (.inr (.close hfree hphase)))
  | closeAccepted hclose hfree => exact .inr (.inr (.inr (.accept hclose hfree)))
  | closeRejected hclose hopen => exact .inr (.inr (.inr (.reject hclose)))
  | closeFailed hclose hfree => exact .inr (.inr (.inr (.fail hclose hfree)))
  | proceed h hfree => exact .inr (.inr (.inr (proceed_change h hfree)))
  | waited hclose hfree => exact .inr (.inr (.inr (.wait (.inr ⟨_, hclose⟩))))
  | disconnect =>
    unfold State.disconnect
    split
    · exact .inr (.inr (.inl rfl))
    · next hc => exact .inr (.inr (.inr (.disconnect (by simpa using hc))))
  | sweep h hfree => exact .inr (.inr (.inr (sweep_change h hfree)))
  | invoke hvalid h => exact .inr (.inr (.inr (.invoke h)))

/-! ## Frames -/

theorem get_put {s : State Tool} {i j : Nat} {r q : Registration Tool} (h : (s.put i r).registrations[j]? = some q) :
    (j = i ∧ q = r) ∨ (j ≠ i ∧ s.registrations[j]? = some q) := by
  simp only [State.put, List.getElem?_set] at h
  split at h
  · next hij =>
    split at h
    · exact .inl ⟨hij.symm, (Option.some.inj h).symm⟩
    · cases h
  · next hij => exact .inr ⟨fun hji => hij hji.symm, h⟩

@[simp] theorem setSession_sessions (s : State Tool) (sid sid' : String) (life : SessionLifecycle) :
    (s.setSession sid life).sessions sid' = if sid' = sid then life else s.sessions sid' :=
  Function.update_apply _ _ _ _

@[simp] theorem setSession_closed (s : State Tool) (sid : String) (life : SessionLifecycle) :
    (s.setSession sid life).closed = s.closed := rfl

/-- The identity of a registration stays. -/
structure Registration.Same (r r' : Registration Tool) : Prop where
  sid : r'.sid = r.sid
  name : r'.name = r.name
  tool : r'.tool = r.tool
  bindingId : r'.bindingId = r.bindingId

theorem Registration.Same.key {r r' : Registration Tool} (h : r.Same r') : r'.key = r.key := by
  rw [Registration.key, h.sid, h.name, Registration.key]

theorem Registration.Same.bindingKey {r r' : Registration Tool} (h : r.Same r') :
    r'.bindingKey = r.bindingKey := by
  rw [Registration.bindingKey, h.sid, h.bindingId, Registration.bindingKey]

section Move

variable {s u : State Tool} {r r' : Registration Tool}

theorem Move.same (h : Move s r r' u) : r.Same r' := by
  cases h <;> exact ⟨rfl, rfl, rfl, rfl⟩

theorem Move.sessions (h : Move s r r' u) : u.sessions = s.sessions := by
  cases h <;> rfl

theorem Move.registrations (h : Move s r r' u) : u.registrations = s.registrations := by
  cases h <;> rfl

theorem Move.issued (h : Move s r r' u) : u.issued = s.issued := by
  cases h <;> rfl

theorem Move.closed (h : Move s r r' u) (hu : u.closed = false) : s.closed = false := by
  cases h <;> first | exact hu | cases hu

/-- What the other registrations were and are. -/
theorem Move.get (h : Move s r r' u) {i j : Nat} {q : Registration Tool}
    (hq : (u.put i r').registrations[j]? = some q) :
    (j = i ∧ q = r') ∨ (j ≠ i ∧ s.registrations[j]? = some q) := by
  obtain hq | ⟨hj, hq⟩ := get_put hq
  · exact .inl hq
  · exact .inr ⟨hj, by rwa [h.registrations] at hq⟩

end Move

theorem Change.registrations {s t : State Tool} (h : Change shards s t) : t.registrations = s.registrations := by
  cases h <;> first | rfl | (unfold State.disconnect State.setSession; split <;> rfl)

theorem Change.issued {s t : State Tool} (h : Change shards s t) : t.issued = s.issued := by
  cases h <;> first | rfl | (unfold State.disconnect State.setSession; split <;> rfl)

theorem disconnect_closed (s : State Tool) : s.disconnect.closed = true := by
  unfold State.disconnect
  split
  · next h => exact h
  · rfl

theorem Change.closed {s t : State Tool} (h : Change shards s t) (ht : t.closed = false) : s.closed = false := by
  cases h with
  | failed hclose =>
    rw [setSession_closed, disconnect_closed] at ht
    cases ht
  | disconnect h => exact h
  | clearTools h | clearBindings h | toolsCleared h | bindingsCleared h | clearLocks h | drainFence h | drained h =>
    cases ht
  | drainPhase h hfree => cases ht
  | _ => exact ht

end Whale.ToolRegistration
