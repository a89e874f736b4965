import Whale.Daemon.Lifecycle

/-!
# The lifecycle is one-way

What an entry, its preparation and its closer know of each other is local to a thread (`Local`): a
preparation that is held has the entry of its owner, or the owner is gone, and so has a closer that runs.
A step touches one thread, or does the same to all of them, and moves an entry only forward (`Moves`).
-/

namespace Whale

namespace LifecycleState

variable {s s' : LifecycleState} {thread owner t : String} {phase : SessionPhase}

/-- An owner that is disconnected and has no entry of a thread gets none. -/
def Gone (s : LifecycleState) (thread owner : String) : Prop :=
  s.disconnected owner = true ∧ ∀ e, s.sessions.get? thread = some e → e.owner ≠ owner

theorem get?_put_self : (s.put thread owner phase).sessions.get? thread = some ⟨owner, phase⟩ :=
  KeyMap.get?_insert_self

theorem get?_put_ne (h : t ≠ thread) :
    (s.put thread owner phase).sessions.get? t = s.sessions.get? t := KeyMap.get?_insert_ne h

/-! ## Operations -/

theorem reserve_ok {p : Preparation} (h : s.reserve thread owner = .ok (p, s')) :
    s.disconnected owner = false ∧ s.sessions.get? thread = none ∧
      p = ⟨thread, owner, ⟨s.serial, thread⟩⟩ ∧
      s' = { s.put thread owner (.preparing ⟨s.serial, thread⟩ false) with serial := s.serial + 1 } := by
  unfold reserve at h
  split at h
  · cases h
  · rename_i hconnected
    split at h
    · cases h
    · rename_i hnone
      cases h
      exact ⟨by simpa using hconnected, by simpa using hnone, rfl, rfl⟩

theorem publish_ok {inner : CloseOutcome} (h : s.publish thread owner inner = .ok s') :
    s.disconnected owner = false ∧ s.sessions.get? thread = none ∧ s' = s.put thread owner .open := by
  unfold publish at h
  split at h
  · cases h
  · rename_i hconnected
    split at h
    · cases h
    · rename_i hnone
      split at h
      · cases h
      · cases h
        exact ⟨by simpa using hconnected, by simpa using hnone, rfl⟩

theorem publishPrepared_ok {p : Preparation} {inner : CloseOutcome} (h : p.publish s inner = .ok s') :
    s.disconnected p.owner = false ∧
      (∃ c, s.sessions.get? p.thread = some ⟨p.owner, .preparing c false⟩) ∧
      s' = s.put p.thread p.owner .open := by
  unfold Preparation.publish at h
  split at h
  · cases h
  · rename_i hconnected
    split at h
    · cases h
    · rename_i session hget
      split at h
      · cases h
      · rename_i howner
        rw [not_not] at howner
        split at h
        · rename_i c hphase
          split at h
          · cases h
          · cases h
            refine ⟨by simpa using hconnected, ⟨c, ?_⟩, rfl⟩
            rw [hget, ← howner, ← hphase]
        · cases h

theorem beginClose_ok {action : CloseAction} (h : s.beginClose thread owner = .ok (action, s')) :
    (s.sessions.get? thread = none ∧ action = ⟨thread, false, none⟩ ∧ s' = s) ∨
    ∃ phase, s.sessions.get? thread = some ⟨owner, phase⟩ ∧
      action = ⟨thread, (phase.markClosing ⟨s.serial, thread⟩).2.1,
        (phase.markClosing ⟨s.serial, thread⟩).2.2⟩ ∧
      s' = { s.put thread owner (phase.markClosing ⟨s.serial, thread⟩).1 with serial := s.serial + 1 } := by
  unfold beginClose at h
  split at h
  · rename_i hnone
    cases h
    exact .inl ⟨hnone, rfl, rfl⟩
  · rename_i session hget
    split at h
    · cases h
    · rename_i howner
      rw [not_not] at howner
      subst howner
      cases h
      exact .inr ⟨session.phase, hget, rfl, rfl⟩

theorem complete_cases (s : LifecycleState) (thread owner : String) :
    (∃ phase, s.sessions.get? thread = some ⟨owner, phase⟩ ∧
      s.complete thread owner = s.put thread owner .closed) ∨
    ((∀ e, s.sessions.get? thread = some e → e.owner ≠ owner) ∧ s.complete thread owner = s) := by
  unfold complete
  split
  · rename_i session hget
    split
    · rename_i howner
      subst howner
      exact .inl ⟨session.phase, hget, rfl⟩
    · rename_i howner
      refine .inr ⟨fun e he => ?_, rfl⟩
      rw [hget] at he
      cases he
      exact howner
  · rename_i hnone
    refine .inr ⟨fun e he => ?_, rfl⟩
    rw [hnone] at he
    cases he

theorem get?_beginDisconnect {e : SessionOwner} :
    (s.beginDisconnect owner).2.sessions.get? t = some e ↔
      (∃ phase, s.sessions.get? t = some ⟨owner, phase⟩ ∧
        e = ⟨owner, (phase.markClosing ⟨s.serial, t⟩).1⟩) ∨
      (s.sessions.get? t = some e ∧ e.owner ≠ owner) := by
  unfold beginDisconnect
  simp only
  rw [KeyMap.get?_mapValues]
  constructor
  · rintro ⟨u, hu, rfl⟩
    by_cases ho : u.owner = owner
    · rw [if_pos ho]
      subst ho
      exact .inl ⟨u.phase, hu, rfl⟩
    · rw [if_neg ho]
      exact .inr ⟨hu, ho⟩
  · rintro (⟨phase, hget, rfl⟩ | ⟨hget, ho⟩)
    · exact ⟨_, hget, by rw [if_pos rfl]⟩
    · exact ⟨_, hget, by rw [if_neg ho]⟩

theorem get?_beginDisconnect_ne (h : ∀ phase, s.sessions.get? t ≠ some ⟨owner, phase⟩) :
    (s.beginDisconnect owner).2.sessions.get? t = s.sessions.get? t := by
  apply Option.ext
  intro e
  rw [get?_beginDisconnect]
  constructor
  · rintro (⟨phase, hget, -⟩ | ⟨hget, -⟩)
    · exact absurd hget (h phase)
    · exact hget
  · intro hget
    refine .inr ⟨hget, ?_⟩
    rintro rfl
    exact h e.phase hget

theorem get?_forgetOwner {e : SessionOwner} :
    (s.forgetOwner owner).sessions.get? t = some e ↔ s.sessions.get? t = some e ∧ e.owner ≠ owner := by
  unfold forgetOwner
  rw [KeyMap.get?_filter, bne_iff_ne]

/-- What `begin_disconnect` says about a thread is what `mark_closing` said about its entry. -/
theorem mem_beginDisconnect {a : CloseAction} :
    a ∈ (s.beginDisconnect owner).1 ↔ ∃ phase, s.sessions.get? a.thread = some ⟨owner, phase⟩ ∧
      a = ⟨a.thread, (phase.markClosing ⟨s.serial, a.thread⟩).2.1,
        (phase.markClosing ⟨s.serial, a.thread⟩).2.2⟩ := by
  unfold beginDisconnect
  simp only [List.mem_filterMap, KeyMap.get?_eq_some_iff]
  constructor
  · rintro ⟨⟨thread, session⟩, hmem, ha⟩
    split at ha
    · rename_i ho
      cases ha
      subst ho
      exact ⟨session.phase, hmem, rfl⟩
    · cases ha
  · rintro ⟨phase, hmem, ha⟩
    refine ⟨(a.thread, ⟨owner, phase⟩), hmem, ?_⟩
    rw [if_pos rfl]
    exact congrArg some ha.symm

end LifecycleState

/-! ## Moves of an entry -/

/-- The moves of a phase. -/
def SessionPhase.Next : SessionPhase → SessionPhase → Prop
  | preparing c _, phase => phase = preparing c true ∨ phase = .open ∨ phase = closed
  | .open, phase => ∃ c, phase = closing c
  | closing _, phase => phase = closed
  | closed, _ => False

/-- `mark_closing` moves a phase, or finds that it is closing already. -/
theorem SessionPhase.next_markClosing (phase : SessionPhase) (fresh : CloseCompletion) :
    (phase.markClosing fresh).1 = phase ∨ phase.Next (phase.markClosing fresh).1 := by
  cases phase with
  | preparing c cancelled => exact .inr (.inl rfl)
  | «open» => exact .inr ⟨fresh, rfl⟩
  | closing c => exact .inl rfl
  | closed => exact .inl rfl

theorem SessionPhase.markClosing_ne_open (phase : SessionPhase) (fresh : CloseCompletion) :
    (phase.markClosing fresh).1 ≠ .open := by
  cases phase <;> simp [markClosing]

namespace Lifecycle

open LifecycleState

variable {w w' : Lifecycle} {l : Label} {thread owner : String} {c : CloseCompletion}

/-- A thread is opened in a step. -/
def Label.Opens (l : Label) (thread : String) : Prop := ∃ c, l = .opened thread c

/-- What a step does to the entry of a thread. -/
inductive Moves (s : LifecycleState) (l : Label) (s' : LifecycleState) (thread : String) : Prop
  | kept (same : s'.sessions.get? thread = s.sessions.get? thread)
  | entered (owner : String) (phase : SessionPhase) (absent : s.sessions.get? thread = none)
      (get : s'.sessions.get? thread = some ⟨owner, phase⟩) (connected : s.disconnected owner = false)
      (phases : phase = .preparing ⟨s.serial, thread⟩ false ∨ phase = .open ∧ l.Opens thread)
  | moved (owner : String) (phase phase' : SessionPhase)
      (get : s.sessions.get? thread = some ⟨owner, phase⟩)
      (get' : s'.sessions.get? thread = some ⟨owner, phase'⟩) (next : phase.Next phase')
      (opens : phase' = .open → l.Opens thread ∧ s.disconnected owner = false)
  | forgotten (e : SessionOwner) (get : s.sessions.get? thread = some e)
      (absent : s'.sessions.get? thread = none) (gone : s.disconnected e.owner = true)

/-- What the parties know of the entry of a thread. -/
structure Local (w : Lifecycle) (thread : String) : Prop where
  connected : ∀ owner, w.state.sessions.get? thread = some ⟨owner, .open⟩ →
    w.state.disconnected owner = false
  preparing : ∀ owner c f, w.state.sessions.get? thread = some ⟨owner, .preparing c f⟩ →
    c.thread = thread ∧ w.preparations c = some (⟨thread, owner, c⟩, .held)
  prepared : ∀ c p stage, c.thread = thread → w.preparations c = some (p, stage) →
    p.thread = thread ∧ p.completion = c ∧ c.serial < w.state.serial ∧ w.closers c = none ∧
      ((w.outcomes c).isSome = true ↔ stage = .finished)
  held : ∀ c p, c.thread = thread → w.preparations c = some (p, .held) →
    (∃ f, w.state.sessions.get? thread = some ⟨p.owner, .preparing c f⟩) ∨ w.state.Gone thread p.owner
  closing : ∀ c k, c.thread = thread → w.closers c = some k →
    k.thread = thread ∧ c.serial < w.state.serial
  running : ∀ c k, c.thread = thread → w.closers c = some k → k.stage = .running →
    w.state.sessions.get? thread = some ⟨k.owner, .closing c⟩ ∨ w.state.Gone thread k.owner
  fresh : ∀ c, c.thread = thread → w.state.serial ≤ c.serial → w.outcomes c = none

/-- The invariant. -/
def Inv (w : Lifecycle) : Prop := ∀ thread, w.Local thread

/-- A step that does nothing to a thread. -/
theorem Local.congr (h : w.Local thread)
    (hget : w'.state.sessions.get? thread = w.state.sessions.get? thread)
    (hdisconnected : ∀ owner, w.state.disconnected owner = true → w'.state.disconnected owner = true)
    (hconnected : ∀ owner, w.state.sessions.get? thread = some ⟨owner, .open⟩ →
      w'.state.disconnected owner = w.state.disconnected owner)
    (hserial : w.state.serial ≤ w'.state.serial)
    (hprepared : ∀ c, c.thread = thread → w'.preparations c = w.preparations c)
    (hclosers : ∀ c, c.thread = thread → w'.closers c = w.closers c)
    (houtcomes : ∀ c, c.thread = thread → w'.outcomes c = w.outcomes c) : w'.Local thread := by
  refine ⟨?_, ?_, ?_, ?_, ?_, ?_, ?_⟩
  · intro owner ho
    rw [hget] at ho
    rw [hconnected owner ho]
    exact h.connected owner ho
  · intro owner c f hc
    rw [hget] at hc
    obtain ⟨h1, h2⟩ := h.preparing owner c f hc
    exact ⟨h1, (hprepared c h1).trans h2⟩
  · intro c p stage hc hp
    rw [hprepared c hc] at hp
    obtain ⟨h1, h2, h3, h4, h5⟩ := h.prepared c p stage hc hp
    refine ⟨h1, h2, by omega, (hclosers c hc).trans h4, ?_⟩
    rw [houtcomes c hc]
    exact h5
  · intro c p hc hp
    rw [hprepared c hc] at hp
    unfold Gone
    rw [hget]
    exact (h.held c p hc hp).imp_right fun hgone => ⟨hdisconnected _ hgone.1, hgone.2⟩
  · intro c k hc hk
    rw [hclosers c hc] at hk
    obtain ⟨h1, h2⟩ := h.closing c k hc hk
    exact ⟨h1, by omega⟩
  · intro c k hc hk
    rw [hclosers c hc] at hk
    unfold Gone
    rw [hget]
    exact fun hrunning =>
      (h.running c k hc hk hrunning).imp_right fun hgone => ⟨hdisconnected _ hgone.1, hgone.2⟩
  · intro c hc hle
    rw [houtcomes c hc]
    exact h.fresh c hc (by omega)

/-! ## Steps -/

/-- Whoever enters a thread is connected, so an owner that is gone stays so. -/
theorem gone_put {s : LifecycleState} {phase : SessionPhase} {o : String} (h : s.Gone thread o)
    (hconnected : s.disconnected owner = false) : (s.put thread owner phase).Gone thread o := by
  refine ⟨h.1, fun e he => ?_⟩
  rw [get?_put_self] at he
  cases he
  rintro rfl
  rw [show s.disconnected _ = true from h.1] at hconnected
  cases hconnected

/-- The owner of the entry does not change. -/
theorem gone_moved {s : LifecycleState} {phase phase' : SessionPhase} {o : String} (h : s.Gone thread o)
    (hget : s.sessions.get? thread = some ⟨owner, phase⟩) : (s.put thread owner phase').Gone thread o := by
  refine ⟨h.1, fun e he => ?_⟩
  rw [get?_put_self] at he
  cases he
  exact h.2 ⟨owner, phase⟩ hget

section
variable {p : Preparation} {stage : PreparationStage} {outcome : CloseOutcome} {c' : CloseCompletion}

@[simp] theorem prepared_self : (w.prepared c p stage).preparations c = some (p, stage) :=
  Function.update_self ..

theorem prepared_ne (h : c' ≠ c) : (w.prepared c p stage).preparations c' = w.preparations c' :=
  Function.update_of_ne h ..

@[simp] theorem prepared_prepared {stage' : PreparationStage} :
    (w.prepared c p stage').prepared c p stage = w.prepared c p stage := by
  unfold prepared
  rw [Function.update_idem]

@[simp] theorem send_self : (w.send c outcome).outcomes c = some outcome := Function.update_self ..

theorem send_ne (h : c' ≠ c) : (w.send c outcome).outcomes c' = w.outcomes c' :=
  Function.update_of_ne h ..

end

theorem spawn_cases (owner : String) (actions : List CloseAction)
    (closers : CloseCompletion → Option Closer) (c : CloseCompletion) :
    (∃ a ∈ actions, a.first = true ∧ a.completion = some c ∧
      spawn owner actions closers c = some { thread := a.thread, owner }) ∨
    ((∀ a ∈ actions, a.first = true → a.completion ≠ some c) ∧ spawn owner actions closers c = closers c) := by
  unfold spawn
  cases hfind : actions.find? fun a => a.first && a.completion == some c with
  | some a =>
    have ha := List.find?_some hfind
    rw [Bool.and_eq_true, beq_iff_eq] at ha
    exact .inl ⟨a, List.mem_of_find?_eq_some hfind, ha.1, ha.2, rfl⟩
  | none =>
    refine .inr ⟨fun a ha hfirst hc => ?_, rfl⟩
    exact List.find?_eq_none.mp hfind a ha (by simp [hfirst, hc])

/-- Only an open session is closed by who asks for it, on a new channel. -/
theorem first_markClosing {phase : SessionPhase} {fresh : CloseCompletion}
    (h : (phase.markClosing fresh).2.1 = true) :
    phase = .open ∧ (phase.markClosing fresh).2.2 = some fresh := by
  cases phase with
  | «open» => exact ⟨rfl, rfl⟩
  | preparing | closing | closed => cases h

/-- What is said about threads is what `mark_closing` said about the entries of an owner. -/
def Marked (s : LifecycleState) (owner : String) (actions : List CloseAction) : Prop :=
  ∀ a ∈ actions, ∃ phase, s.sessions.get? a.thread = some ⟨owner, phase⟩ ∧
    a = ⟨a.thread, (phase.markClosing ⟨s.serial, a.thread⟩).2.1,
      (phase.markClosing ⟨s.serial, a.thread⟩).2.2⟩

/-- A task is spawned for every open session, on its new channel. -/
theorem Marked.spawn {s : LifecycleState} {actions : List CloseAction} (h : Marked s owner actions)
    (closers : CloseCompletion → Option Closer) (c : CloseCompletion) :
    spawn owner actions closers c = closers c ∨ (c.thread ∈ actions.map (·.thread) ∧
      s.sessions.get? c.thread = some ⟨owner, .open⟩ ∧ c = ⟨s.serial, c.thread⟩ ∧
        Lifecycle.spawn owner actions closers c = some { thread := c.thread, owner }) := by
  obtain ⟨a, ha, hfirst, hcompletion, heq⟩ | ⟨-, heq⟩ := spawn_cases owner actions closers c
  · obtain ⟨phase, hget, hmark⟩ := h a ha
    rw [hmark] at hfirst hcompletion
    obtain ⟨rfl, hfresh⟩ := first_markClosing hfirst
    rw [hfresh] at hcompletion
    cases hcompletion
    exact .inr ⟨List.mem_map_of_mem ha, hget, rfl, heq⟩
  · exact .inl heq

theorem Local.reserve {p : Preparation} {s : LifecycleState} (h : w.Local thread)
    (result : w.state.reserve thread owner = .ok (p, s)) :
    ({ w with state := s }.prepared p.completion p .held).Local thread := by
  obtain ⟨hconnected, hnone, rfl, rfl⟩ := reserve_ok result
  refine ⟨?_, ?_, ?_, ?_, ?_, ?_, ?_⟩
  · intro o ho
    have ho := get?_put_self.symm.trans ho
    cases ho
  · intro o c f hc
    have hc := get?_put_self.symm.trans hc
    cases hc
    exact ⟨rfl, prepared_self⟩
  · intro c q stage hc hq
    by_cases he : c = ⟨w.state.serial, thread⟩
    · subst he
      rw [prepared_self] at hq
      cases hq
      refine ⟨rfl, rfl, Nat.lt_succ_self _, ?_, ?_⟩
      · cases hk : w.closers ⟨w.state.serial, thread⟩ with
        | none => exact hk
        | some k => exact absurd (h.closing _ k rfl hk).2 (Nat.lt_irrefl _)
      · show (w.outcomes ⟨w.state.serial, thread⟩).isSome = true ↔ _
        rw [h.fresh ⟨w.state.serial, thread⟩ rfl (Nat.le_refl _)]
        simp
    · rw [prepared_ne he] at hq
      obtain ⟨h1, h2, h3, h4, h5⟩ := h.prepared c q stage hc hq
      exact ⟨h1, h2, Nat.lt_succ_of_lt h3, h4, h5⟩
  · intro c q hc hq
    by_cases he : c = ⟨w.state.serial, thread⟩
    · subst he
      rw [prepared_self] at hq
      cases hq
      exact .inl ⟨false, get?_put_self⟩
    · rw [prepared_ne he] at hq
      obtain ⟨f, hget⟩ | hgone := h.held c q hc hq
      · rw [hnone] at hget
        cases hget
      · exact .inr (gone_put hgone hconnected)
  · intro c k hc hk
    obtain ⟨h1, h2⟩ := h.closing c k hc hk
    exact ⟨h1, Nat.lt_succ_of_lt h2⟩
  · intro c k hc hk hrunning
    obtain hget | hgone := h.running c k hc hk hrunning
    · rw [hnone] at hget
      cases hget
    · exact .inr (gone_put hgone hconnected)
  · intro c hc hle
    exact h.fresh c hc (Nat.le_of_succ_le hle)

theorem Local.publish {s : LifecycleState} {inner : CloseOutcome} (h : w.Local thread)
    (result : w.state.publish thread owner inner = .ok s) : ({ w with state := s }).Local thread := by
  obtain ⟨hconnected, hnone, rfl⟩ := publish_ok result
  refine ⟨?_, ?_, h.prepared, ?_, h.closing, ?_, h.fresh⟩
  · intro o ho
    have ho := get?_put_self.symm.trans ho
    cases ho
    exact hconnected
  · intro o c f hc
    have hc := get?_put_self.symm.trans hc
    cases hc
  · intro c q hc hq
    obtain ⟨f, hget⟩ | hgone := h.held c q hc hq
    · rw [hnone] at hget
      cases hget
    · exact .inr (gone_put hgone hconnected)
  · intro c k hc hk hrunning
    obtain hget | hgone := h.running c k hc hk hrunning
    · rw [hnone] at hget
      cases hget
    · exact .inr (gone_put hgone hconnected)

/-- A preparation whose entry is gone leaves the stage in which it had one. -/
theorem Local.leave {p : Preparation} {stage : PreparationStage} (h : w.Local thread)
    (hc : c.thread = thread) (hp : w.preparations c = some (p, .held)) (hheld : stage ≠ .held)
    (hfinished : stage ≠ .finished)
    (hentry : ∀ owner f, w.state.sessions.get? thread ≠ some ⟨owner, .preparing c f⟩) :
    (w.prepared c p stage).Local thread := by
  refine ⟨h.connected, ?_, ?_, ?_, h.closing, h.running, h.fresh⟩
  · intro o c' f hget
    obtain ⟨h1, h2⟩ := h.preparing o c' f hget
    have hne : c' ≠ c := by
      rintro rfl
      exact hentry o f hget
    exact ⟨h1, (prepared_ne hne).trans h2⟩
  · intro c' q stage' hc' hq
    by_cases he : c' = c
    · subst he
      rw [prepared_self] at hq
      cases hq
      obtain ⟨h1, h2, h3, h4, h5⟩ := h.prepared c' p _ hc hp
      exact ⟨h1, h2, h3, h4, h5.trans (by simp [hfinished])⟩
    · rw [prepared_ne he] at hq
      exact h.prepared c' q stage' hc' hq
  · intro c' q hc' hq
    by_cases he : c' = c
    · subst he
      rw [prepared_self] at hq
      cases hq
      exact absurd rfl hheld
    · rw [prepared_ne he] at hq
      exact h.held c' q hc' hq

/-- The entry of a preparation is opened or closed, and the preparation leaves its stage. -/
theorem Local.settle {p : Preparation} {stage : PreparationStage} {phase : SessionPhase} {f : Bool}
    (h : w.Local thread) (hc : c.thread = thread) (hp : w.preparations c = some (p, .held))
    (hheld : stage ≠ .held) (hfinished : stage ≠ .finished)
    (hget : w.state.sessions.get? thread = some ⟨p.owner, .preparing c f⟩)
    (hphase : phase = .open ∧ w.state.disconnected p.owner = false ∨ phase = .closed) :
    ({ w with state := w.state.put thread p.owner phase }.prepared c p stage).Local thread := by
  -- the entry was of no other channel
  have hother : ∀ c', c' ≠ c → ∀ o f', w.state.sessions.get? thread ≠ some ⟨o, .preparing c' f'⟩ := by
    intro c' hne o f' he
    rw [hget] at he
    cases he
    exact hne rfl
  refine ⟨?_, ?_, ?_, ?_, h.closing, ?_, h.fresh⟩
  · intro o ho
    have ho := get?_put_self.symm.trans ho
    cases ho
    rcases hphase with ⟨-, hconnected⟩ | hclosed
    · exact hconnected
    · cases hclosed
  · intro o c' f' hc'
    have hc' := get?_put_self.symm.trans hc'
    cases hc'
    rcases hphase with ⟨hopen, -⟩ | hclosed
    · cases hopen
    · cases hclosed
  · intro c' q stage' hc' hq
    by_cases he : c' = c
    · subst he
      rw [prepared_self] at hq
      cases hq
      obtain ⟨h1, h2, h3, h4, h5⟩ := h.prepared c' p _ hc hp
      exact ⟨h1, h2, h3, h4, h5.trans (by simp [hfinished])⟩
    · rw [prepared_ne he] at hq
      exact h.prepared c' q stage' hc' hq
  · intro c' q hc' hq
    by_cases he : c' = c
    · subst he
      rw [prepared_self] at hq
      cases hq
      exact absurd rfl hheld
    · rw [prepared_ne he] at hq
      obtain ⟨f', hf'⟩ | hgone := h.held c' q hc' hq
      · exact absurd hf' (hother c' he _ f')
      · exact .inr (gone_moved hgone hget)
  · intro c' k hc' hk hrunning
    obtain hclosing | hgone := h.running c' k hc' hk hrunning
    · rw [hget] at hclosing
      exact nomatch (SessionOwner.mk.inj (Option.some.inj hclosing)).2
    · exact .inr (gone_moved hgone hget)

/-- The holder of a preparation sends its result. -/
theorem Local.sent {p : Preparation} {stage : PreparationStage} (h : w.Local thread)
    (hc : c.thread = thread) (hp : w.preparations c = some (p, stage)) (hheld : stage ≠ .held)
    (outcome : CloseOutcome) : ((w.prepared c p .finished).send c outcome).Local thread := by
  obtain ⟨h1, h2, h3, h4, -⟩ := h.prepared c p stage hc hp
  refine ⟨h.connected, ?_, ?_, ?_, h.closing, h.running, ?_⟩
  · intro o c' f hget
    obtain ⟨hthread, hc'⟩ := h.preparing o c' f hget
    have hne : c' ≠ c := by
      rintro rfl
      rw [hp] at hc'
      cases hc'
      exact hheld rfl
    exact ⟨hthread, (prepared_ne hne).trans hc'⟩
  · intro c' q stage' hc' hq
    by_cases he : c' = c
    · subst he
      have hq := prepared_self.symm.trans hq
      cases hq
      refine ⟨h1, h2, h3, h4, ?_⟩
      rw [send_self]
      simp
    · have hq := (prepared_ne he).symm.trans hq
      rw [send_ne he]
      exact h.prepared c' q stage' hc' hq
  · intro c' q hc' hq
    by_cases he : c' = c
    · subst he
      have hq := prepared_self.symm.trans hq
      cases hq
    · exact h.held c' q hc' ((prepared_ne he).symm.trans hq)
  · intro c' hc' hle
    have hne : c' ≠ c := by
      rintro rfl
      exact absurd h3 (Nat.not_lt.mpr hle)
    rw [send_ne hne]
    exact h.fresh c' hc' hle

/-- The task of a close goes on. -/
theorem Local.work {k : Closer} {stage : CloserStage} (h : w.Local thread) (hc : c.thread = thread)
    (hk : w.closers c = some k) (hstage : stage ≠ .running) :
    ({ w with closers := Function.update w.closers c (some { k with stage }) } : Lifecycle).Local
      thread := by
  obtain ⟨h1, h2⟩ := h.closing c k hc hk
  refine ⟨h.connected, h.preparing, ?_, h.held, ?_, ?_, h.fresh⟩
  · intro c' p stage' hc' hp
    obtain ⟨h3, h4, h5, h6, h7⟩ := h.prepared c' p stage' hc' hp
    have hne : c' ≠ c := by
      rintro rfl
      rw [hk] at h6
      cases h6
    exact ⟨h3, h4, h5, (Function.update_of_ne hne ..).trans h6, h7⟩
  · intro c' k' hc' hk'
    by_cases he : c' = c
    · subst he
      have hk' := (Function.update_self ..).symm.trans hk'
      cases hk'
      exact ⟨h1, h2⟩
    · exact h.closing c' k' hc' ((Function.update_of_ne he ..).symm.trans hk')
  · intro c' k' hc' hk' hrunning
    by_cases he : c' = c
    · subst he
      have hk' := (Function.update_self ..).symm.trans hk'
      cases hk'
      exact absurd hrunning hstage
    · exact h.running c' k' hc' ((Function.update_of_ne he ..).symm.trans hk') hrunning

/-- The entry of a close is completed, and its task knows it. -/
theorem Local.closed (h : w.Local thread)
    (hget : w.state.sessions.get? thread = some ⟨owner, .closing c⟩)
    (htask : ∀ k, w.closers c = some k → k.stage ≠ .running) :
    ({ w with state := w.state.put thread owner .closed }).Local thread := by
  refine ⟨?_, ?_, h.prepared, ?_, h.closing, ?_, h.fresh⟩
  · intro o ho
    have ho := get?_put_self.symm.trans ho
    cases ho
  · intro o c' f hc'
    have hc' := get?_put_self.symm.trans hc'
    cases hc'
  · intro c' p hc' hp
    obtain ⟨f, hf⟩ | hgone := h.held c' p hc' hp
    · rw [hget] at hf
      exact nomatch (SessionOwner.mk.inj (Option.some.inj hf)).2
    · exact .inr (gone_moved hgone hget)
  · intro c' k hc' hk hrunning
    obtain hclosing | hgone := h.running c' k hc' hk hrunning
    · rw [hget] at hclosing
      obtain ⟨-, hphase⟩ := SessionOwner.mk.inj (Option.some.inj hclosing)
      cases hphase
      exact absurd hrunning (htask k hk)
    · exact .inr (gone_moved hgone hget)

/-- The channel of a result that a task sends is no preparation's. -/
theorem Local.ended {k : Closer} (h : w.Local thread) (hc : c.thread = thread)
    (hk : w.closers c = some k) (outcome : CloseOutcome) : (w.send c outcome).Local thread := by
  obtain ⟨-, h2⟩ := h.closing c k hc hk
  refine ⟨h.connected, h.preparing, ?_, h.held, h.closing, h.running, ?_⟩
  · intro c' p stage hc' hp
    obtain ⟨h3, h4, h5, h6, h7⟩ := h.prepared c' p stage hc' hp
    have hne : c' ≠ c := by
      rintro rfl
      rw [hk] at h6
      cases h6
    rw [send_ne hne]
    exact ⟨h3, h4, h5, h6, h7⟩
  · intro c' hc' hle
    have hne : c' ≠ c := by
      rintro rfl
      exact absurd h2 (Nat.not_lt.mpr hle)
    rw [send_ne hne]
    exact h.fresh c' hc' hle

/-- The entry of a thread is marked for its close, by its owner or with all of them. -/
theorem Local.mark {phase : SessionPhase} (h : w.Local thread)
    (hget : w.state.sessions.get? thread = some ⟨owner, phase⟩)
    (hget' : w'.state.sessions.get? thread =
      some ⟨owner, (phase.markClosing ⟨w.state.serial, thread⟩).1⟩)
    (hdisconnected : ∀ owner, w.state.disconnected owner = true → w'.state.disconnected owner = true)
    (hserial : w'.state.serial = w.state.serial + 1) (hprepared : w'.preparations = w.preparations)
    (houtcomes : w'.outcomes = w.outcomes)
    (hclosers : ∀ c, c.thread = thread →
      w'.closers c = w.closers c ∨ (phase = .open ∧ c = ⟨w.state.serial, thread⟩ ∧
        w'.closers c = some { thread, owner })) :
    w'.Local thread := by
  -- an owner that is gone stays so
  have hgone : ∀ {o}, w.state.Gone thread o → w'.state.Gone thread o := by
    intro o hgone
    refine ⟨hdisconnected o hgone.1, fun e he => ?_⟩
    rw [hget'] at he
    cases he
    exact hgone.2 ⟨owner, phase⟩ hget
  refine ⟨?_, ?_, ?_, ?_, ?_, ?_, ?_⟩
  · intro o ho
    rw [hget'] at ho
    exact absurd (SessionOwner.mk.inj (Option.some.inj ho)).2 (phase.markClosing_ne_open _)
  · intro o c f hc
    rw [hget'] at hc
    obtain ⟨rfl, hphase⟩ := SessionOwner.mk.inj (Option.some.inj hc)
    rw [hprepared]
    cases phase with
    | preparing c' f' =>
      cases hphase
      exact h.preparing _ _ _ hget
    | «open» | closing | closed => cases hphase
  · intro c p stage hc hp
    rw [hprepared] at hp
    obtain ⟨h1, h2, h3, h4, h5⟩ := h.prepared c p stage hc hp
    refine ⟨h1, h2, by omega, ?_, by rwa [houtcomes]⟩
    obtain hsame | ⟨-, rfl, -⟩ := hclosers c hc
    · exact hsame.trans h4
    · exact absurd h3 (Nat.lt_irrefl _)
  · intro c p hc hp
    rw [hprepared] at hp
    obtain ⟨f, hf⟩ | h0 := h.held c p hc hp
    · rw [hget] at hf
      obtain ⟨rfl, rfl⟩ := SessionOwner.mk.inj (Option.some.inj hf)
      exact .inl ⟨true, hget'⟩
    · exact .inr (hgone h0)
  · intro c k hc hk
    obtain hsame | ⟨-, rfl, hnew⟩ := hclosers c hc
    · rw [hsame] at hk
      obtain ⟨h1, h2⟩ := h.closing c k hc hk
      exact ⟨h1, by omega⟩
    · rw [hnew] at hk
      cases hk
      refine ⟨rfl, ?_⟩
      rw [hserial]
      exact Nat.lt_succ_self _
  · intro c k hc hk hrunning
    obtain hsame | ⟨rfl, rfl, hnew⟩ := hclosers c hc
    · rw [hsame] at hk
      obtain hclosing | h0 := h.running c k hc hk hrunning
      · rw [hget] at hclosing
        obtain ⟨rfl, rfl⟩ := SessionOwner.mk.inj (Option.some.inj hclosing)
        exact .inl hget'
      · exact .inr (hgone h0)
    · rw [hnew] at hk
      cases hk
      exact .inl hget'
  · intro c hc hle
    rw [houtcomes]
    exact h.fresh c hc (by omega)

/-- A preparation completes its entry, if there is one. -/
theorem Local.give_up {p : Preparation} {stage : PreparationStage} (h : w.Local c.thread)
    (hp : w.preparations c = some (p, .held)) (hheld : stage ≠ .held) (hfinished : stage ≠ .finished) :
    ({ w with state := w.state.complete p.thread p.owner }.prepared c p stage).Local c.thread := by
  obtain ⟨hthread, -⟩ := h.prepared c p _ rfl hp
  rw [hthread]
  have hentry := h.held c p rfl hp
  obtain ⟨phase, hget, heq⟩ | ⟨hnone, heq⟩ := w.state.complete_cases c.thread p.owner
  · rw [heq]
    obtain ⟨f, hf⟩ | hgone := hentry
    · exact h.settle rfl hp hheld hfinished hf (.inr rfl)
    · exact absurd rfl (hgone.2 _ hget)
  · rw [heq]
    refine h.leave rfl hp hheld hfinished fun o f hget => ?_
    obtain ⟨-, hc⟩ := h.preparing o c f hget
    rw [hp] at hc
    cases hc
    exact hnone _ hget rfl

/-- The task of a close completes its entry, if there is one. -/
theorem Local.complete {k : Closer} (h : w.Local c.thread) (hk : w.closers c = some k)
    (hrunning : k.stage = .running) :
    ({ w with
      state := w.state.complete k.thread k.owner
      closers := Function.update w.closers c (some { k with stage := .completed }) } :
        Lifecycle).Local c.thread := by
  obtain ⟨thread, owner, stage⟩ := k
  obtain rfl : thread = c.thread := (h.closing c _ rfl hk).1
  have hentry := h.running c _ rfl hk hrunning
  have hdone : ({ w with
      closers := Function.update w.closers c (some ⟨c.thread, owner, .completed⟩) } :
        Lifecycle).Local c.thread := h.work rfl hk (by simp)
  obtain ⟨phase, hget, heq⟩ | ⟨hnone, heq⟩ := w.state.complete_cases c.thread owner
  · rw [heq]
    obtain hclosing | hgone := hentry
    · refine hdone.closed hclosing fun k hk' => ?_
      have hk' := (Function.update_self ..).symm.trans hk'
      cases hk'
      simp
    · exact absurd rfl (hgone.2 _ hget)
  · rw [heq]
    exact hdone

/-- A call of `complete` leaves the other threads. -/
theorem get?_complete_ne {s : LifecycleState} {t : String} (ht : t ≠ thread) :
    (s.complete thread owner).sessions.get? t = s.sessions.get? t := by
  obtain ⟨_, -, heq⟩ | ⟨-, heq⟩ := s.complete_cases thread owner
  · rw [heq, get?_put_ne ht]
  · rw [heq]

theorem complete_frame (s : LifecycleState) (thread owner : String) :
    (s.complete thread owner).disconnected = s.disconnected ∧
      (s.complete thread owner).serial = s.serial := by
  obtain ⟨_, -, heq⟩ | ⟨-, heq⟩ := s.complete_cases thread owner
  · rw [heq]
    exact ⟨rfl, rfl⟩
  · rw [heq]
    exact ⟨rfl, rfl⟩

/-- The entries of an owner that is disconnected are forgotten. -/
theorem Local.forget (h : w.Local thread) (hdisconnected : w.state.disconnected owner = true) :
    ({ w with state := w.state.forgetOwner owner }).Local thread := by
  have hgone : ∀ {o}, w.state.Gone thread o → (w.state.forgetOwner owner).Gone thread o :=
    fun h => ⟨h.1, fun e he => h.2 e (get?_forgetOwner.mp he).1⟩
  -- what is forgotten is gone
  have hkept : ∀ {o phase}, w.state.sessions.get? thread = some ⟨o, phase⟩ →
      (w.state.forgetOwner owner).sessions.get? thread = some ⟨o, phase⟩ ∨
        (w.state.forgetOwner owner).Gone thread o := by
    intro o phase ho
    by_cases he : o = owner
    · exact .inr ⟨he ▸ hdisconnected, fun e h => he ▸ (get?_forgetOwner.mp h).2⟩
    · exact .inl (get?_forgetOwner.mpr ⟨ho, he⟩)
  refine ⟨?_, ?_, h.prepared, ?_, h.closing, ?_, h.fresh⟩
  · intro o ho
    exact h.connected o (get?_forgetOwner.mp ho).1
  · intro o c f hc
    exact h.preparing o c f (get?_forgetOwner.mp hc).1
  · intro c p hc hp
    obtain ⟨f, hf⟩ | h0 := h.held c p hc hp
    · exact (hkept hf).imp_left fun h => ⟨f, h⟩
    · exact .inr (hgone h0)
  · intro c k hc hk hrunning
    obtain hclosing | h0 := h.running c k hc hk hrunning
    · exact hkept hclosing
    · exact .inr (hgone h0)

/-- A step on the channel of another thread. -/
theorem Local.elsewhere {t : String} (h : w.Local t) (ht : t ≠ c.thread)
    (hget : w'.state.sessions.get? t = w.state.sessions.get? t)
    (hdisconnected : w'.state.disconnected = w.state.disconnected)
    (hserial : w'.state.serial = w.state.serial)
    (hprepared : ∀ c', c' ≠ c → w'.preparations c' = w.preparations c')
    (hclosers : ∀ c', c' ≠ c → w'.closers c' = w.closers c')
    (houtcomes : ∀ c', c' ≠ c → w'.outcomes c' = w.outcomes c') : w'.Local t := by
  have hne : ∀ c' : CloseCompletion, c'.thread = t → c' ≠ c := by
    rintro c' hc' rfl
    exact ht hc'.symm
  refine h.congr hget (fun _ ho => by rw [hdisconnected]; exact ho) (fun _ _ => by rw [hdisconnected])
    (by omega) (fun c' hc' => hprepared c' (hne c' hc')) (fun c' hc' => hclosers c' (hne c' hc'))
    fun c' hc' => houtcomes c' (hne c' hc')

theorem Inv.step (h : w.Inv) (hs : Step w l w') : w'.Inv := by
  intro t
  cases hs with
  | reserve thread owner result =>
    by_cases ht : t = thread
    · subst ht
      exact (h t).reserve result
    · obtain ⟨-, -, rfl, rfl⟩ := reserve_ok result
      refine (h t).congr (get?_put_ne ht) (fun _ h => h) (fun _ _ => rfl) (Nat.le_succ _)
        (fun c hc => prepared_ne ?_) (fun _ _ => rfl) fun _ _ => rfl
      rintro rfl
      exact ht hc.symm
  | publish thread owner inner result =>
    by_cases ht : t = thread
    · subst ht
      exact (h t).publish result
    · obtain ⟨-, -, rfl⟩ := publish_ok result
      exact (h t).congr (get?_put_ne ht) (fun _ h => h) (fun _ _ => rfl) (Nat.le_refl _)
        (fun _ _ => rfl) (fun _ _ => rfl) fun _ _ => rfl
  | @publishPrepared c p s inner held result =>
    obtain ⟨hconnected, ⟨c', hget⟩, rfl⟩ := publishPrepared_ok result
    obtain ⟨hthread, -⟩ := (h c.thread).prepared c p _ rfl held
    by_cases ht : t = c.thread
    · subst ht
      rw [hthread] at hget ⊢
      obtain ⟨f, hf⟩ | hgone := (h c.thread).held c p rfl held
      · have hleft : ({ w with state := w.state.put c.thread p.owner .open }.prepared c p
            .dropping).Local c.thread :=
          (h c.thread).settle rfl held (by simp) (by simp) hf (.inl ⟨rfl, hconnected⟩)
        have hsent := hleft.sent rfl prepared_self (by simp) (.ok ())
        rwa [prepared_prepared] at hsent
      · exact absurd rfl (hgone.2 _ hget)
    · exact (h t).elsewhere ht (get?_put_ne fun he => ht (he.trans hthread)) rfl rfl
        (fun _ => prepared_ne) (fun _ _ => rfl) fun _ => send_ne
  | @fail c p error held =>
    by_cases ht : t = c.thread
    · subst ht
      exact (h c.thread).give_up held (by simp) (by simp)
    · obtain ⟨hthread, -⟩ := (h c.thread).prepared c p _ rfl held
      obtain ⟨h1, h2⟩ := complete_frame w.state p.thread p.owner
      exact (h t).elsewhere ht (get?_complete_ne fun he => ht (he.trans hthread)) h1 h2
        (fun _ => prepared_ne) (fun _ _ => rfl) fun _ _ => rfl
  | @drop c p held =>
    by_cases ht : t = c.thread
    · subst ht
      exact (h c.thread).give_up held (by simp) (by simp)
    · obtain ⟨hthread, -⟩ := (h c.thread).prepared c p _ rfl held
      obtain ⟨h1, h2⟩ := complete_frame w.state p.thread p.owner
      exact (h t).elsewhere ht (get?_complete_ne fun he => ht (he.trans hthread)) h1 h2
        (fun _ => prepared_ne) (fun _ _ => rfl) fun _ _ => rfl
  | @failed c p error failing =>
    by_cases ht : t = c.thread
    · subst ht
      exact (h c.thread).sent rfl failing (by simp) _
    · exact (h t).elsewhere ht rfl rfl rfl (fun _ => prepared_ne) (fun _ _ => rfl) fun _ => send_ne
  | @dropped c p dropping =>
    by_cases ht : t = c.thread
    · subst ht
      exact (h c.thread).sent rfl dropping (by simp) _
    · exact (h t).elsewhere ht rfl rfl rfl (fun _ => prepared_ne) (fun _ _ => rfl) fun _ => send_ne
  | @beginClose action s thread owner result =>
    obtain ⟨hnone, rfl, rfl⟩ | ⟨phase, hget, rfl, rfl⟩ := beginClose_ok result
    · exact (h t).congr rfl (fun _ h => h) (fun _ _ => rfl) (Nat.le_refl _) (fun _ _ => rfl)
        (fun _ _ => rfl) fun _ _ => rfl
    · have hmarked : Marked w.state owner [⟨thread,
          (phase.markClosing ⟨w.state.serial, thread⟩).2.1,
          (phase.markClosing ⟨w.state.serial, thread⟩).2.2⟩] := by
        intro a ha
        rw [List.mem_singleton.mp ha]
        exact ⟨phase, hget, rfl⟩
      by_cases ht : t = thread
      · subst ht
        refine (h t).mark hget get?_put_self (fun _ h => h) rfl rfl rfl fun c hc => ?_
        refine (hmarked.spawn w.closers c).imp_right fun ⟨_, hopen, hfresh, heq⟩ => ?_
        rw [hc] at hopen hfresh heq
        rw [hget] at hopen
        exact ⟨(SessionOwner.mk.inj (Option.some.inj hopen)).2, hfresh, heq⟩
      · refine (h t).congr (get?_put_ne ht) (fun _ h => h) (fun _ _ => rfl) (Nat.le_succ _)
          (fun _ _ => rfl) (fun c hc => ?_) fun _ _ => rfl
        refine (hmarked.spawn w.closers c).resolve_right fun ⟨hmem, _⟩ => ?_
        exact ht (hc.symm.trans (List.mem_singleton.mp hmem))
  | beginDisconnect owner =>
    have hmarked : Marked w.state owner (w.state.beginDisconnect owner).1 :=
      fun a ha => mem_beginDisconnect.mp ha
    have hdisconnected : ∀ o, w.state.disconnected o = true →
        (w.state.beginDisconnect owner).2.disconnected o = true := by
      intro o ho
      show Function.update w.state.disconnected owner true o = true
      by_cases he : o = owner
      · rw [he, Function.update_self]
      · rw [Function.update_of_ne he]
        exact ho
    by_cases hmine : ∃ phase, w.state.sessions.get? t = some ⟨owner, phase⟩
    · obtain ⟨phase, hget⟩ := hmine
      refine (h t).mark hget (get?_beginDisconnect.mpr (.inl ⟨phase, hget, rfl⟩)) hdisconnected rfl rfl
        rfl fun c hc => ?_
      refine (hmarked.spawn w.closers c).imp_right fun ⟨_, hopen, hfresh, heq⟩ => ?_
      rw [hc] at hopen hfresh heq
      rw [hget] at hopen
      exact ⟨(SessionOwner.mk.inj (Option.some.inj hopen)).2, hfresh, heq⟩
    · refine (h t).congr ?_ hdisconnected ?_ (Nat.le_succ _) (fun _ _ => rfl) (fun c hc => ?_)
        fun _ _ => rfl
      · exact get?_beginDisconnect_ne fun phase hget => hmine ⟨phase, hget⟩
      · intro o ho
        show Function.update w.state.disconnected owner true o = _
        rw [Function.update_of_ne]
        rintro rfl
        exact hmine ⟨_, ho⟩
      · refine (hmarked.spawn w.closers c).resolve_right fun ⟨_, hopen, _⟩ => ?_
        rw [hc] at hopen
        exact hmine ⟨_, hopen⟩
  | @complete c k task running =>
    by_cases ht : t = c.thread
    · subst ht
      exact (h c.thread).complete task running
    · obtain ⟨hthread, -⟩ := (h c.thread).closing c k rfl task
      obtain ⟨h1, h2⟩ := complete_frame w.state k.thread k.owner
      exact (h t).elsewhere ht (get?_complete_ne fun he => ht (he.trans hthread)) h1 h2
        (fun _ _ => rfl) (fun _ hne => Function.update_of_ne hne ..) fun _ _ => rfl
  | @finish c k outcome task going =>
    by_cases ht : t = c.thread
    · subst ht
      exact ((h c.thread).work rfl task (by simp)).ended rfl (Function.update_self ..) outcome
    · exact (h t).elsewhere ht rfl rfl rfl (fun _ _ => rfl)
        (fun _ hne => Function.update_of_ne hne ..) fun _ => send_ne
  | forget owner disconnected => exact (h t).forget disconnected

theorem Inv.run {es : List Label} (h : w.Inv) (hrun : Lts.Run Step w es w') : w'.Inv :=
  Lts.Run.invariant Inv (fun _ _ _ h hs => h.step hs) hrun h

theorem inv_start : Inv {} := by
  intro thread
  refine ⟨?_, ?_, ?_, ?_, ?_, ?_, ?_⟩
  · intro owner ho
    cases ho
  · intro owner c f hc
    cases hc
  · intro c p stage hc hp
    cases hp
  · intro c p hc hp
    cases hp
  · intro c k hc hk
    cases hk
  · intro c k hc hk
    cases hk
  · intro c hc hle
    rfl

/-- A call of `complete` by the holder of an entry. -/
theorem moves_complete {s : LifecycleState} (t : String)
    (hheld : (∃ phase, s.sessions.get? thread = some ⟨owner, phase⟩ ∧ phase.Next .closed) ∨
      s.Gone thread owner) : Moves s l (s.complete thread owner) t := by
  obtain ⟨phase, hget, heq⟩ | ⟨-, heq⟩ := s.complete_cases thread owner
  · rw [heq]
    by_cases ht : t = thread
    · subst ht
      obtain ⟨phase, hget, hnext⟩ | hgone := hheld
      · exact .moved owner phase .closed hget get?_put_self hnext nofun
      · exact absurd rfl (hgone.2 _ hget)
    · exact .kept (get?_put_ne ht)
  · rw [heq]
    exact .kept rfl

theorem Step.moves (h : w.Inv) (hs : Step w l w') (t : String) : Moves w.state l w'.state t := by
  cases hs with
  | reserve thread owner result =>
    obtain ⟨hconnected, hnone, rfl, rfl⟩ := reserve_ok result
    by_cases ht : t = thread
    · subst ht
      exact .entered owner _ hnone get?_put_self hconnected (.inl rfl)
    · exact .kept (get?_put_ne ht)
  | publish thread owner inner result =>
    obtain ⟨hconnected, hnone, rfl⟩ := publish_ok result
    by_cases ht : t = thread
    · subst ht
      exact .entered owner _ hnone get?_put_self hconnected (.inr ⟨rfl, none, rfl⟩)
    · exact .kept (get?_put_ne ht)
  | @publishPrepared c p s inner held result =>
    obtain ⟨hconnected, ⟨c', hget⟩, rfl⟩ := publishPrepared_ok result
    by_cases ht : t = p.thread
    · subst ht
      exact .moved p.owner _ .open hget get?_put_self (.inr (.inl rfl)) fun _ => ⟨⟨_, rfl⟩, hconnected⟩
    · exact .kept (get?_put_ne ht)
  | @fail c p error held | @drop c p held =>
    obtain ⟨hthread, -⟩ := (h c.thread).prepared c p _ rfl held
    refine moves_complete t (hthread.symm ▸ (h c.thread).held c p rfl held |>.imp_left ?_)
    rintro ⟨f, hf⟩
    exact ⟨_, hf, .inr (.inr rfl)⟩
  | failed => exact .kept rfl
  | dropped => exact .kept rfl
  | @beginClose action s thread owner result =>
    obtain ⟨-, -, rfl⟩ | ⟨phase, hget, -, rfl⟩ := beginClose_ok result
    · exact .kept rfl
    · by_cases ht : t = thread
      · subst ht
        obtain hsame | hnext := phase.next_markClosing ⟨w.state.serial, t⟩
        · refine .kept (get?_put_self.trans ?_)
          rw [hsame, hget]
        · exact .moved owner phase _ hget get?_put_self hnext
            fun hopen => absurd hopen (phase.markClosing_ne_open _)
      · exact .kept (get?_put_ne ht)
  | beginDisconnect owner =>
    by_cases hmine : ∃ phase, w.state.sessions.get? t = some ⟨owner, phase⟩
    · obtain ⟨phase, hget⟩ := hmine
      have hget' := get?_beginDisconnect.mpr (.inl ⟨phase, hget, rfl⟩)
      obtain hsame | hnext := phase.next_markClosing ⟨w.state.serial, t⟩
      · refine .kept (hget'.trans ?_)
        rw [hsame, hget]
      · exact .moved owner phase _ hget hget' hnext
          fun hopen => absurd hopen (phase.markClosing_ne_open _)
    · exact .kept (get?_beginDisconnect_ne fun phase hget => hmine ⟨phase, hget⟩)
  | @complete c k task running =>
    obtain ⟨hthread, -⟩ := (h c.thread).closing c k rfl task
    refine moves_complete t (hthread.symm ▸ (h c.thread).running c k rfl task running |>.imp_left ?_)
    intro hclosing
    exact ⟨_, hclosing, rfl⟩
  | finish outcome task going => exact .kept rfl
  | forget owner disconnected =>
    cases hget : w.state.sessions.get? t with
    | none =>
      refine .kept ?_
      rw [hget]
      refine Option.eq_none_iff_forall_ne_some.mpr fun e he => ?_
      rw [(get?_forgetOwner.mp he).1] at hget
      cases hget
    | some e =>
      by_cases ho : e.owner = owner
      · refine .forgotten e hget ?_ (ho ▸ disconnected)
        refine Option.eq_none_iff_forall_ne_some.mpr fun e' he' => ?_
        obtain ⟨h1, h2⟩ := get?_forgetOwner.mp he'
        rw [hget] at h1
        cases h1
        exact h2 ho
      · refine .kept ?_
        rw [hget]
        exact get?_forgetOwner.mpr ⟨hget, ho⟩

/-! ## Closes -/

/-- No step but an opening opens a thread. -/
theorem Step.notOpen (h : w.Inv) (hs : Step w l w') (hl : ¬ l.Opens thread)
    (hn : ∀ owner, w.state.sessions.get? thread ≠ some ⟨owner, .open⟩) (owner : String) :
    w'.state.sessions.get? thread ≠ some ⟨owner, .open⟩ := by
  intro ho
  cases hs.moves h thread with
  | kept same => exact hn owner (same.symm.trans ho)
  | entered o phase absent get connected phases =>
    rw [get] at ho
    obtain ⟨-, rfl⟩ := SessionOwner.mk.inj (Option.some.inj ho)
    rcases phases with hphase | ⟨-, hopens⟩
    · cases hphase
    · exact hl hopens
  | moved o phase phase' get get' next opens =>
    rw [get'] at ho
    obtain ⟨-, rfl⟩ := SessionOwner.mk.inj (Option.some.inj ho)
    exact hl (opens rfl).1
  | forgotten e get absent gone =>
    rw [absent] at ho
    cases ho

/-- A caller that is told to run a close has found the session open, and leaves it closing. -/
theorem Marked.told {s s' : LifecycleState} {actions : List CloseAction} (h : Marked s owner actions)
    (hget' : ∀ phase, s.sessions.get? thread = some ⟨owner, phase⟩ →
      s'.sessions.get? thread = some ⟨owner, (phase.markClosing ⟨s.serial, thread⟩).1⟩)
    (ht : thread ∈ (actions.filter (·.first)).map (·.thread)) :
    s.sessions.get? thread = some ⟨owner, .open⟩ ∧
      ∀ o, s'.sessions.get? thread ≠ some ⟨o, .open⟩ := by
  obtain ⟨a, ha, rfl⟩ := List.mem_map.mp ht
  obtain ⟨ha, hfirst⟩ := List.mem_filter.mp ha
  obtain ⟨phase, hget, hmark⟩ := h a ha
  rw [hmark] at hfirst
  obtain ⟨rfl, -⟩ := first_markClosing hfirst
  refine ⟨hget, fun o ho => ?_⟩
  rw [hget' _ hget] at ho
  cases ho

theorem Step.told (hs : Step w l w') (ht : thread ∈ l.told) :
    (∃ owner, w.state.sessions.get? thread = some ⟨owner, .open⟩) ∧
      ∀ o, w'.state.sessions.get? thread ≠ some ⟨o, .open⟩ := by
  cases hs with
  | @beginClose action s thread' owner result =>
    obtain ⟨-, rfl, -⟩ | ⟨phase, hget, rfl, rfl⟩ := beginClose_ok result
    · cases ht
    · have hmarked : Marked w.state owner [⟨thread',
          (phase.markClosing ⟨w.state.serial, thread'⟩).2.1,
          (phase.markClosing ⟨w.state.serial, thread'⟩).2.2⟩] := by
        intro a ha
        rw [List.mem_singleton.mp ha]
        exact ⟨phase, hget, rfl⟩
      obtain ⟨a, ha, heq⟩ := List.mem_map.mp ht
      have hthread : thread = thread' := by
        rw [← heq, List.mem_singleton.mp (List.mem_filter.mp ha).1]
      subst hthread
      refine (hmarked.told (fun phase' hget' => ?_) ht).imp_left fun hopen => ⟨owner, hopen⟩
      rw [hget] at hget'
      obtain ⟨-, rfl⟩ := SessionOwner.mk.inj (Option.some.inj hget')
      exact get?_put_self
  | beginDisconnect owner =>
    have hmarked : Marked w.state owner (w.state.beginDisconnect owner).1 :=
      fun a ha => mem_beginDisconnect.mp ha
    refine (hmarked.told (fun phase hget => ?_) ht).imp_left fun hopen => ⟨owner, hopen⟩
    exact get?_beginDisconnect.mpr (.inl ⟨phase, hget, rfl⟩)
  | _ => cases ht

/-- A thread is named once. -/
theorem Step.nodup_told (hs : Step w l w') : l.told.Nodup := by
  cases hs with
  | @beginClose action s thread owner result =>
    show (([action].filter (·.first)).map (·.thread)).Nodup
    cases hfirst : action.first <;> simp [hfirst]
  | beginDisconnect owner =>
    refine List.Nodup.sublist (List.filter_sublist.map _) ?_
    -- the threads are keys of the map
    have hsub : ((w.state.beginDisconnect owner).1.map (·.thread)).Sublist
        (w.state.sessions.entries.map (·.1)) := by
      unfold LifecycleState.beginDisconnect
      simp only [List.map_filterMap]
      induction w.state.sessions.entries with
      | nil => exact .slnil
      | cons e es ih =>
        rw [List.filterMap_cons, List.map_cons]
        by_cases ho : e.2.owner = owner
        · simp only [ho, if_true, Option.map_some]
          exact ih.cons_cons _
        · simp only [ho, if_false, Option.map_none]
          exact ih.cons _
    exact hsub.nodup w.state.sessions.nodup
  | _ => exact .nil

/-- A thread that is not open is not told of until it is opened. -/
theorem told_of_notOpen {es : List Label} (h : w.Inv) (hrun : Lts.Run Step w es w')
    (hes : ∀ l ∈ es, ¬ l.Opens thread)
    (hn : ∀ owner, w.state.sessions.get? thread ≠ some ⟨owner, .open⟩) :
    thread ∉ es.flatMap Label.told := by
  induction hrun with
  | nil => simp
  | cons hs _ ih =>
    rw [List.flatMap_cons, List.mem_append, not_or]
    refine ⟨fun ht => ?_, ?_⟩
    · obtain ⟨⟨owner, ho⟩, -⟩ := hs.told ht
      exact hn owner ho
    · exact ih (h.step hs) (fun l hl => hes l (List.mem_cons_of_mem _ hl))
        (hs.notOpen h (hes _ List.mem_cons_self) hn)

/-- One caller is told to run the close of an opening. -/
theorem told_once {es : List Label} (h : w.Inv) (hrun : Lts.Run Step w es w')
    (hes : ∀ l ∈ es, ¬ l.Opens thread) : (es.flatMap Label.told).count thread ≤ 1 := by
  induction hrun with
  | nil => simp
  | @cons s t u l es hs hrest ih =>
    rw [List.flatMap_cons, List.count_append]
    have hrestOpens : ∀ l ∈ es, ¬ l.Opens thread := fun l hl => hes l (List.mem_cons_of_mem _ hl)
    by_cases ht : thread ∈ l.told
    · have hnone := told_of_notOpen (h.step hs) hrest hrestOpens (hs.told ht).2
      rw [List.count_eq_zero.mpr hnone]
      exact List.nodup_iff_count_le_one.mp hs.nodup_told thread
    · rw [List.count_eq_zero.mpr ht, Nat.zero_add]
      exact ih (h.step hs) hrestOpens

/-! ## Disconnects -/

theorem Step.disconnected (hs : Step w l w') (h : w.state.disconnected owner = true) :
    w'.state.disconnected owner = true := by
  cases hs with
  | reserve thread o result =>
    obtain ⟨-, -, -, rfl⟩ := reserve_ok result
    exact h
  | publish thread o inner result =>
    obtain ⟨-, -, rfl⟩ := publish_ok result
    exact h
  | publishPrepared inner held result =>
    obtain ⟨-, -, rfl⟩ := publishPrepared_ok result
    exact h
  | beginClose thread o result =>
    obtain ⟨-, -, rfl⟩ | ⟨phase, -, -, rfl⟩ := beginClose_ok result <;> exact h
  | beginDisconnect o =>
    show Function.update w.state.disconnected o true owner = true
    by_cases he : owner = o
    · rw [he, Function.update_self]
    · rw [Function.update_of_ne he]
      exact h
  | fail | drop | complete =>
    exact (congrFun (complete_frame w.state _ _).1 owner).trans h
  | failed | dropped | finish | forget => exact h

theorem disconnected_run {es : List Label} (hrun : Lts.Run Step w es w')
    (h : w.state.disconnected owner = true ∨ ∃ actions, .disconnect owner actions ∈ es) :
    w'.state.disconnected owner = true := by
  induction hrun with
  | nil =>
    obtain h | ⟨_, hmem⟩ := h
    · exact h
    · cases hmem
  | @cons s t u l es hs _ ih =>
    apply ih
    obtain h | ⟨actions, hmem⟩ := h
    · exact .inl (hs.disconnected h)
    · rcases List.mem_cons.mp hmem with rfl | hmem
      · cases hs with
        | beginDisconnect owner => exact .inl (Function.update_self ..)
      · exact .inr ⟨actions, hmem⟩

/-- What an owner that is disconnected is told. -/
theorem refused {s : LifecycleState} (h : s.disconnected owner = true) (thread : String) :
    s.guardOpen thread owner = .error "ConnectionClosed" ∧
      (∀ inner, s.publish thread owner inner = .error (.invalidParams "ConnectionClosed")) ∧
      s.reserve thread owner = .error "ConnectionClosed" := by
  refine ⟨?_, fun inner => ?_, ?_⟩
  · unfold guardOpen
    rw [if_pos h]
  · unfold LifecycleState.publish
    rw [if_pos h]
  · unfold LifecycleState.reserve
    rw [if_pos h]

/-! ## Preparations -/

/-- A close was requested of a preparation, as long as it has its entry. -/
def Cancelled (s : LifecycleState) (c : CloseCompletion) : Prop :=
  c.serial < s.serial ∧ ∀ thread owner f,
    s.sessions.get? thread = some ⟨owner, .preparing c f⟩ → f = true

theorem Step.serial_le (hs : Step w l w') : w.state.serial ≤ w'.state.serial := by
  cases hs with
  | reserve thread o result =>
    obtain ⟨-, -, -, rfl⟩ := reserve_ok result
    exact Nat.le_succ _
  | publish thread o inner result =>
    obtain ⟨-, -, rfl⟩ := publish_ok result
    exact Nat.le_refl _
  | publishPrepared inner held result =>
    obtain ⟨-, -, rfl⟩ := publishPrepared_ok result
    exact Nat.le_refl _
  | beginClose thread o result =>
    obtain ⟨-, -, rfl⟩ | ⟨phase, -, -, rfl⟩ := beginClose_ok result
    · exact Nat.le_refl _
    · exact Nat.le_succ _
  | beginDisconnect o => exact Nat.le_succ _
  | fail | drop | complete => exact Nat.le_of_eq (complete_frame w.state _ _).2.symm
  | failed | dropped | finish | forget => exact Nat.le_refl _

theorem Cancelled.step (hc : Cancelled w.state c) (h : w.Inv) (hs : Step w l w') :
    Cancelled w'.state c := by
  obtain ⟨hlt, hcancelled⟩ := hc
  refine ⟨Nat.lt_of_lt_of_le hlt hs.serial_le, fun thread owner f hget => ?_⟩
  cases hs.moves h thread with
  | kept same => exact hcancelled thread owner f (same.symm.trans hget)
  | entered o phase absent get connected phases =>
    rw [get] at hget
    obtain ⟨-, rfl⟩ := SessionOwner.mk.inj (Option.some.inj hget)
    rcases phases with hphase | ⟨hphase, -⟩
    · -- the channel of a new preparation is new
      cases hphase
      exact absurd hlt (Nat.lt_irrefl _)
    · cases hphase
  | moved o phase phase' get get' next opens =>
    rw [get'] at hget
    obtain ⟨-, rfl⟩ := SessionOwner.mk.inj (Option.some.inj hget)
    cases phase with
    | preparing c' f' =>
      rcases next with hnext | hnext | hnext <;> cases hnext
      rfl
    | «open» =>
      obtain ⟨c', hnext⟩ := next
      cases hnext
    | closing c' => cases next
    | closed => exact next.elim
  | forgotten e get absent gone =>
    rw [absent] at hget
    cases hget

/-- A preparation whose close was requested does not publish. -/
theorem Cancelled.not_opened (hc : Cancelled w.state c) (h : w.Inv)
    (hs : Step w (.opened thread (some c)) w') : False := by
  cases hs with
  | @publishPrepared _ p s inner held result =>
    obtain ⟨hconnected, ⟨c', hget⟩, -⟩ := publishPrepared_ok result
    obtain ⟨hthread, -⟩ := (h c.thread).prepared c p _ rfl held
    rw [hthread] at hget
    obtain ⟨f, hf⟩ | hgone := (h c.thread).held c p rfl held
    · rw [hget] at hf
      cases hf
      have := hc.2 _ _ _ hget
      cases this
    · exact hgone.2 _ hget rfl

theorem Cancelled.run {es : List Label} (hc : Cancelled w.state c) (h : w.Inv)
    (hrun : Lts.Run Step w es w') : ∀ thread, .opened thread (some c) ∉ es := by
  induction hrun with
  | nil => simp
  | cons hs _ ih =>
    intro thread hmem
    rcases List.mem_cons.mp hmem with rfl | hmem
    · exact hc.not_opened h hs
    · exact ih (hc.step h hs) (h.step hs) thread hmem

/-- Whoever waits for a preparation has cancelled it. -/
theorem Step.cancels {f : Bool} (h : w.Inv) (hs : Step w l w')
    (hget : w.state.sessions.get? thread = some ⟨owner, .preparing c f⟩)
    (ha : ⟨thread, false, some c⟩ ∈ l.actions) : Cancelled w'.state c := by
  obtain ⟨hthread, hp⟩ := (h thread).preparing owner c f hget
  have hlt := ((h thread).prepared c _ _ hthread hp).2.2.1
  refine ⟨Nat.lt_of_lt_of_le hlt hs.serial_le, fun t o f' hget' => ?_⟩
  -- the entry of the channel is that of its thread
  obtain ⟨rfl, -⟩ := ((h.step hs) t).preparing o c f' hget'
  subst hthread
  cases hs with
  | @beginClose action s thread' owner' result =>
    obtain ⟨-, rfl, -⟩ | ⟨phase, hphase, rfl, rfl⟩ := beginClose_ok result
    · have ha := List.mem_singleton.mp ha
      cases ha
    · obtain ⟨rfl, -⟩ := CloseAction.mk.inj (List.mem_singleton.mp ha)
      rw [hget] at hphase
      cases hphase
      have hget' := get?_put_self.symm.trans hget'
      cases hget'
      rfl
  | beginDisconnect owner' =>
    obtain ⟨phase, hphase, -⟩ := mem_beginDisconnect.mp ha
    rw [hget] at hphase
    cases hphase
    have hget' := (get?_beginDisconnect.mpr (.inl ⟨_, hget, rfl⟩)).symm.trans hget'
    cases hget'
    rfl
  | _ => cases ha

theorem Step.preparation {p : Preparation} {stage : PreparationStage} (h : w.Inv) (hs : Step w l w')
    (hp : w.preparations c = some (p, stage)) : ∃ stage', w'.preparations c = some (p, stage') := by
  -- a preparation that is moved, this one or another
  have hmove : ∀ {v : Lifecycle} {c' q stage₁ stage₂}, v.preparations = w.preparations →
      w.preparations c' = some (q, stage₁) →
      ∃ stage', (v.prepared c' q stage₂).preparations c = some (p, stage') := by
    intro v c' q stage₁ stage₂ hv hq
    by_cases he : c = c'
    · subst he
      rw [hp] at hq
      cases hq
      exact ⟨_, prepared_self⟩
    · rw [prepared_ne he, hv]
      exact ⟨stage, hp⟩
  cases hs with
  | reserve thread owner result =>
    obtain ⟨-, -, rfl, -⟩ := reserve_ok result
    have hne : c ≠ ⟨w.state.serial, thread⟩ := by
      rintro rfl
      exact absurd ((h thread).prepared _ p stage rfl hp).2.2.1 (Nat.lt_irrefl _)
    rw [prepared_ne hne]
    exact ⟨stage, hp⟩
  | publishPrepared inner held result => exact hmove rfl held
  | fail error held => exact hmove rfl held
  | failed failing => exact hmove rfl failing
  | drop held => exact hmove rfl held
  | dropped dropping => exact hmove rfl dropping
  | _ => exact ⟨stage, hp⟩

theorem preparation_run {es : List Label} {p : Preparation} {stage : PreparationStage} (h : w.Inv)
    (hrun : Lts.Run Step w es w') (hp : w.preparations c = some (p, stage)) :
    ∃ stage', w'.preparations c = some (p, stage') := by
  induction hrun generalizing stage with
  | nil => exact ⟨stage, hp⟩
  | cons hs _ ih =>
    obtain ⟨stage', hp'⟩ := hs.preparation h hp
    exact ih (h.step hs) hp'

/-- The holder of a preparation that is not finished has its result sent by two steps of its own. -/
theorem preparation_ends {p : Preparation} {stage : PreparationStage}
    (hp : w.preparations c = some (p, stage)) (hstage : stage ≠ .finished) :
    ∃ es w', Lts.Run Step w es w' ∧ es.length ≤ 2 ∧ (w'.outcomes c).isSome = true := by
  cases stage with
  | held =>
    refine ⟨_, _, .cons (.drop hp) (.single (.dropped prepared_self)), Nat.le_refl _, ?_⟩
    rw [send_self]
    rfl
  | failing error =>
    refine ⟨_, _, .single (.failed hp), Nat.le_succ _, ?_⟩
    rw [send_self]
    rfl
  | dropping =>
    refine ⟨_, _, .single (.dropped hp), Nat.le_succ _, ?_⟩
    rw [send_self]
    rfl
  | finished => exact absurd rfl hstage

end Lifecycle

open Lifecycle

theorem session_lifecycle_one_way {es : List Label} {w : Lifecycle} (hrun : Lts.Run Step {} es w) :
    -- an entry that stays keeps its owner, and its phase moves forward
    (∀ l w' thread e e', Step w l w' → w.state.sessions.get? thread = some e →
      w'.state.sessions.get? thread = some e' →
      e'.owner = e.owner ∧ (e'.phase = e.phase ∨ e.phase.Next e'.phase)) ∧
    -- one caller runs the close of an opening
    (∀ es₁ es₂ thread, es = es₁ ++ es₂ → (∀ l ∈ es₂, ¬ l.Opens thread) →
      (es₂.flatMap Label.told).count thread ≤ 1) ∧
    -- an owner that is disconnected opens nothing
    (∀ owner actions, .disconnect owner actions ∈ es →
      (∀ thread, w.state.sessions.get? thread ≠ some ⟨owner, .open⟩ ∧
        w.state.guardOpen thread owner = .error "ConnectionClosed" ∧
        (∀ inner, w.state.publish thread owner inner = .error (.invalidParams "ConnectionClosed")) ∧
        w.state.reserve thread owner = .error "ConnectionClosed") ∧
      ∀ (p : Preparation) inner, p.owner = owner →
        p.publish w.state inner = .error (.recoveryRejected "ConnectionClosed")) ∧
    -- a preparation whose close was requested does not publish, and tells who waits when it ends
    ∀ es₁ l es₂ v v' thread owner c f, Lts.Run Step {} es₁ v → Step v l v' → Lts.Run Step v' es₂ w →
      v.state.sessions.get? thread = some ⟨owner, .preparing c f⟩ →
      ⟨thread, false, some c⟩ ∈ l.actions →
      (∀ t, .opened t (some c) ∉ es₂) ∧ ∃ stage,
        w.preparations c = some (⟨thread, owner, c⟩, stage) ∧
        ((w.outcomes c).isSome = true ↔ stage = .finished) ∧
        (stage ≠ .finished → ∃ fs w', Lts.Run Step w fs w' ∧ fs.length ≤ 2 ∧
          (w'.outcomes c).isSome = true) := by
  have hinv : w.Inv := inv_start.run hrun
  refine ⟨?_, ?_, ?_, ?_⟩
  · intro l w' thread e e' hs hget hget'
    cases hs.moves hinv thread with
    | kept same =>
      rw [same, hget] at hget'
      cases hget'
      exact ⟨rfl, .inl rfl⟩
    | entered owner phase absent get connected phases =>
      rw [hget] at absent
      cases absent
    | moved owner phase phase' get get' next opens =>
      rw [hget] at get
      rw [hget'] at get'
      cases get
      cases get'
      exact ⟨rfl, .inr next⟩
    | forgotten e get absent gone =>
      rw [hget'] at absent
      cases absent
  · rintro es₁ es₂ thread rfl hopens
    obtain ⟨v, h1, h2⟩ := hrun.split
    exact told_once (inv_start.run h1) h2 hopens
  · intro owner actions hmem
    have hdisconnected := disconnected_run hrun (.inr ⟨actions, hmem⟩)
    refine ⟨fun thread => ⟨fun hopen => ?_, refused hdisconnected thread⟩, ?_⟩
    · rw [(hinv thread).connected owner hopen] at hdisconnected
      cases hdisconnected
    · rintro p inner rfl
      unfold Preparation.publish
      rw [if_pos hdisconnected]
  · intro es₁ l es₂ v v' thread owner c f h1 hs h2 hget ha
    have hv := inv_start.run h1
    refine ⟨(hs.cancels hv hget ha).run (hv.step hs) h2, ?_⟩
    obtain ⟨hthread, hp⟩ := (hv thread).preparing owner c f hget
    obtain ⟨stage, hstage⟩ := preparation_run hv (.cons hs h2) hp
    exact ⟨stage, hstage, ((hinv thread).prepared c _ stage hthread hstage).2.2.2.2,
      preparation_ends hstage⟩

/-! ## Samples -/

namespace Sample

/-- A recovered session is prepared. -/
def reserved : Lifecycle :=
  ({ state := { ({} : LifecycleState).put "t" "a" (.preparing ⟨0, "t"⟩ false) with serial := 1 } } :
    Lifecycle).prepared ⟨0, "t"⟩ ⟨"t", "a", ⟨0, "t"⟩⟩ .held

/-- Its owner asks for a close, and waits. -/
def awaited : Lifecycle :=
  { reserved with
    state := { reserved.state.put "t" "a" (.preparing ⟨0, "t"⟩ true) with serial := 2 }
    closers := spawn "a" [⟨"t", false, some ⟨0, "t"⟩⟩] reserved.closers }

theorem reserve_step : Step {} .silent reserved :=
  @Step.reserve {} ⟨"t", "a", ⟨0, "t"⟩⟩ _ "t" "a" rfl

theorem await_step : Step reserved (.close ⟨"t", false, some ⟨0, "t"⟩⟩) awaited := .beginClose "t" "a" rfl

end Sample

/-- The preparation of the sample never opens its session, and whoever waits for it is told. -/
theorem session_lifecycle_sample : ∃ es w, Lts.Run Step {} es w ∧
    (w.outcomes ⟨0, "t"⟩).isSome = true := by
  obtain ⟨-, -, -, hwait⟩ :=
    session_lifecycle_one_way (.cons Sample.reserve_step (.single Sample.await_step))
  obtain ⟨-, stage, hp, -, hends⟩ := hwait _ _ [] _ _ "t" "a" ⟨0, "t"⟩ false
    (.single Sample.reserve_step) Sample.await_step (.nil _) rfl List.mem_cons_self
  have hstage : stage ≠ .finished := by
    rintro rfl
    cases hp
  obtain ⟨fs, w', hrun, -, hsent⟩ := hends hstage
  exact ⟨_, w', .cons Sample.reserve_step (.cons Sample.await_step hrun), hsent⟩

end Whale
