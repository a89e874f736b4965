import Whale.Sdk.Proof.ToolRoutes

/-!
# A registration is a transaction

`Kept`: the invariant of the runs in which no registration asks for a session that is being closed, in its request.
It says what the maps hold for a live session, at every stage of the registrations. The results are in
`tool_registration`.
-/

namespace Whale.ToolRegistration

variable {Tool : Type} {name : Tool → String} {shards : Shards}

/-! ## An open session -/

namespace Stage

/-- The task has not named its handler. -/
def before : Stage → Bool
  | spawned | starting | binding | naming => true
  | _ => false

/-- The name is the task's, and not acknowledged. -/
def holds : Stage → Bool
  | requesting | admitting | enrolling | enrolled | sending | sent | rejected | unbound | restoring => true
  | replied o | settled o => o != .ok
  | _ => false

/-- The binding is there, and no reply. -/
def bound : Stage → Bool
  | naming | requesting | admitting | enrolling | enrolled | sending | sent => true
  | _ => false

/-- The registration may have been acknowledged. -/
def acks : Stage → Bool
  | replied .ok | settled .ok | settled .sessionClosed | ended .ok | ended .sessionClosed => true
  | _ => false

/-- The request ended because of the session. -/
def fenced : Stage → Bool
  | replied .sessionClosed | settled .sessionClosed => true
  | _ => false

end Stage

/-- The invariant of the runs in which no request meets a session that is being closed. -/
structure Kept (s : State Tool) : Prop where
  unfenced : ∀ {i : Nat} {r : Registration Tool}, s.registrations[i]? = some r → s.Live r.sid →
    r.stage.fenced = false
  before : ∀ {i : Nat} {r : Registration Tool}, s.registrations[i]? = some r → s.Live r.sid →
    r.stage.before = true → s.tools.get? r.key = s.lastTool r.key
  holds : ∀ {i : Nat} {r : Registration Tool}, s.registrations[i]? = some r → s.Live r.sid →
    r.stage.holds = true → s.tools.get? r.key = some r.tool ∧ r.old = s.lastTool r.key
  acks : ∀ {i : Nat} {r : Registration Tool}, s.registrations[i]? = some r → s.Live r.sid →
    r.stage.running = true → r.stage.acks = true →
      s.tools.get? r.key = some r.tool ∧ s.acknowledged.get? r.key = some (r.tool, r.bindingId)
  bound : ∀ {i : Nat} {r : Registration Tool}, s.registrations[i]? = some r → s.Live r.sid →
    r.stage.bound = true → s.bindings.get? r.bindingKey = some r.tool
  quiet : ∀ {k : Key}, s.Live k.1 → s.Quiet k → s.tools.get? k = s.lastTool k
  ackBound : ∀ {k : Key} {tool : Tool} {bindingId : String}, s.Live k.1 →
    s.acknowledged.get? k = some (tool, bindingId) → s.bindings.get? (k.1, bindingId) = some tool
  ackOwner : ∀ {k : Key} {tool : Tool} {bindingId : String}, s.acknowledged.get? k = some (tool, bindingId) →
    bindingId ∈ s.issued ∧ ∀ r ∈ s.registrations, r.bindingId = bindingId → r.stage.acks = true

section Local

variable {s : State Tool} {sid : String} {a b : Stage}

theorem Local.fenced_stage (h : Local s sid a b) (hl : s.Live sid) (hreleased : (s.sessions sid).released = false)
    (hguard : a.admits = true → (s.sessions sid).phase ≠ .closing) (ha : a.fenced = false) : b.fenced = false := by
  cases h with
  | fenced hst hc hp =>
    have hphase := hl.phase
    have hclosing := hguard hst
    cases hp' : (s.sessions sid).phase with
    | opened => exact absurd hp' hp
    | closing => exact absurd hp' hclosing
    | releasing | closed => rw [hp'] at hphase; cases hphase
  | released hst h => rw [hreleased] at h; cases h
  | torn h => exact absurd (h.symm.trans hl.phase) Bool.noConfusion
  | @settled o h => cases o <;> first | rfl | cases ha
  | replied hst ho => obtain rfl | rfl | rfl := ho <;> rfl
  | _ => rfl

theorem Local.before (h : Local s sid a b) (hb : b.before = true) : a.before = true ∨ a = .locked := by
  cases h with
  | spawned => exact .inr rfl
  | starting | binding => exact .inl rfl
  | _ => cases hb

theorem Local.holds (h : Local s sid a b) (hl : s.Live sid) (hb : b.holds = true) (hf : b.fenced = false) :
    a.holds = true := by
  cases h with
  | disconnected hst h => exact absurd (hl.closed.symm.trans h) Bool.noConfusion
  | fenced | torn | released => cases hf
  | replied hst ho => obtain rfl | rfl := hst <;> rfl
  | settled => exact hb
  | sent | admitting | enrolling | enrolled | sending | rejected | restoring => rfl
  | _ => cases hb

theorem Local.bound (h : Local s sid a b) (hb : b.bound = true) : a.bound = true := by
  cases h with
  | sent | admitting | enrolling | enrolled | sending => rfl
  | _ => cases hb

theorem Local.acks_back (h : Local s sid a b) (hrun : b.running = true) (hb : b.acks = true)
    (hf : b.fenced = false) : a.running = true ∧ a.acks = true := by
  cases h with
  | @settled o => cases o <;> first | exact ⟨rfl, rfl⟩ | cases hf; done | cases hb
  | replied hst ho => obtain rfl | rfl | rfl := ho <;> cases hb
  | torn | fenced => cases hf
  | refused | stopped | late | done | gone | disconnectedAlready | drained => cases hrun
  | _ => cases hb

theorem Local.acks (h : Local s sid a b) (ha : a.acks = true) : b.acks = true := by
  cases h with
  | late | done | gone | torn => rfl
  | @settled o => cases o <;> first | rfl | cases ha
  | refused hst => cases a <;> first | cases hst; done | cases ha
  | stopped hst | released hst | replied hst => obtain rfl | rfl := hst <;> cases ha
  | disconnected hst | fenced hst => cases a <;> simp_all [Stage.admits, Stage.acks]
  | @lost o ho ho' => cases o <;> first | exact absurd rfl ho | exact absurd rfl ho' | cases ha
  | _ => cases ha

/-- How the task of a live session comes to its end. -/
theorem Local.stops (h : Local s sid a b) (hl : s.Live sid) (ha : a.running = true) (hb : b.running = false)
    (hf : a.fenced = false) : a.before = true ∨ a.acks = true := by
  cases h with
  | stopped hst => obtain rfl | rfl := hst <;> exact .inl rfl
  | done | late => exact .inr rfl
  | gone => cases hf
  | kept h =>
    obtain h | h := h
    · exact absurd (h.symm.trans hl.phase) Bool.noConfusion
    · exact absurd (hl.closed.symm.trans h) Bool.noConfusion
  | disconnectedAlready h | drained h => exact absurd (hl.closed.symm.trans h) Bool.noConfusion
  | refused hst => cases a <;> first | cases hst; done | cases ha
  | opened | available | locking => cases ha
  | _ => cases hb

end Local

section Move

variable {s u : State Tool} {r r' : Registration Tool}

theorem Move.acknowledged_ne (h : Move s r r' u) {k : Key} (hk : k ≠ r.key) :
    u.acknowledged.get? k = s.acknowledged.get? k := by
  cases h with
  | acknowledge hstage => exact KeyMap.get?_insert_ne hk
  | _ => rfl

/-- A registration without its task does not touch the names. -/
theorem Move.idle (h : Move s r r' u) (hr : r.stage.running = false) :
    u.tools = s.tools ∧ u.acknowledged = s.acknowledged := by
  cases h with
  | install hstage | acknowledge hstage | restore hstage | forget hstage => rw [hstage] at hr; cases hr
  | _ => exact ⟨rfl, rfl⟩

/-- An acknowledged registration does not touch the bindings. -/
theorem Move.bindings_acks (h : Move s r r' u) (hr : r.stage.acks = true) : u.bindings = s.bindings := by
  cases h with
  | bind hstage => rw [hstage] at hr; cases hr
  | unbind hstage => obtain ⟨hstage, -⟩ | ⟨o, hstage, -⟩ := hstage <;> rw [hstage] at hr <;> cases hr
  | _ => rfl

theorem Move.acks (h : Move s r r' u) (hr : r.stage.acks = true) : r'.stage.acks = true := by
  cases h with
  | stays h => exact h.acks hr
  | acknowledge => rfl
  | unbind hstage => obtain ⟨hstage, -⟩ | ⟨o, hstage, -⟩ := hstage <;> rw [hstage] at hr <;> cases hr
  | lock hstage | newLock hstage | acquire hstage | bind hstage | install hstage | restore hstage | forget hstage
  | disconnect hstage =>
    rw [hstage] at hr
    cases hr

/-- The handler that is put back is the one that was there before. -/
theorem restore_get (hs : s.closed = false) (ht : s.tools.get? r.key = some r.tool) :
    (s.restore r).get? r.key = r.old := by
  unfold State.restore
  rw [ht]
  cases r.old with
  | none => exact KeyMap.get?_erase_self
  | some old =>
    simp only [hs]
    exact KeyMap.get?_insert_self

end Move

theorem Stage.running_of_before {stage : Stage} (h : stage.before = true) : stage.running = true := by
  cases stage <;> first | rfl | cases h

theorem Stage.running_of_holds {stage : Stage} (h : stage.holds = true) : stage.running = true := by
  cases stage <;> first | rfl | cases h

section Kept

variable {s u : State Tool} {i : Nat} {r r' : Registration Tool}

theorem Kept.mover_unfenced (hf : Fenced s) (h : Kept s) (hr : s.registrations[i]? = some r) (hm : Move s r r' u)
    (hguard : r.stage.admits = true → s.closed = false → (s.sessions r.sid).phase ≠ .closing)
    (hl : s.Live r.sid) : r'.stage.fenced = false := by
  have ha := h.unfenced hr hl
  cases hm with
  | stays hloc => exact hloc.fenced_stage hl (hf.fence _ hl) (fun hst => hguard hst hl.closed) ha
  | unbind hstage => obtain ⟨-, rfl⟩ | ⟨o, -, rfl⟩ := hstage <;> rfl
  | _ => rfl

/-- When a task is spawned, no other one has its name. -/
theorem Locked.alone (hk : Locked s) (hr : s.registrations[i]? = some r) (hm : Move s r r' u)
    (hrun : r.stage.running = false) (hrun' : r'.stage.running = true) {q : Registration Tool}
    (hq : q ∈ s.registrations) (hkey : q.key = r.key) : q.stage.running = false := by
  obtain ⟨r₁, hr', hsame, -, hself⟩ := hm.after hr hr
  obtain rfl := hself rfl
  obtain ⟨j, hj⟩ := List.mem_iff_getElem?.mp hq
  by_contra hqrun
  by_cases hji : j = i
  · subst hji
    obtain rfl := Option.some.inj (hr.symm.trans hj)
    exact hqrun hrun
  · obtain ⟨q', hq', -, hne, -⟩ := hm.after hr hj
    obtain rfl := hne hji
    exact hji ((hk.move hr hm).single hq' hr' (by simpa using hqrun) hrun' (by rw [hkey, hsame.key]))

theorem Kept.mover_before (hk : Locked s) (h : Kept s) (hr : s.registrations[i]? = some r) (hm : Move s r r' u)
    (hl : s.Live r.sid) (hb : r'.stage.before = true) : u.tools.get? r.key = u.lastTool r.key := by
  have halone := hk.alone hr hm
  cases hm with
  | stays hloc =>
    obtain ha | ha := hloc.before hb
    · exact h.before hr hl ha
    · exact h.quiet hl fun q hq hkey =>
        halone (by rw [ha]; rfl) (Stage.running_of_before hb) hq hkey
  | bind hstage => exact h.before hr hl (by rw [hstage]; rfl)
  | unbind hstage => obtain ⟨-, rfl⟩ | ⟨o, -, rfl⟩ := hstage <;> cases hb
  | _ => cases hb

theorem Kept.mover_holds (h : Kept s) (hr : s.registrations[i]? = some r) (hm : Move s r r' u)
    (hl : s.Live r.sid) (hf : r'.stage.fenced = false) (hb : r'.stage.holds = true) :
    u.tools.get? r.key = some r.tool ∧ r'.old = u.lastTool r.key := by
  cases hm with
  | stays hloc => exact h.holds hr hl (hloc.holds hl hb hf)
  | install hstage => exact ⟨KeyMap.get?_insert_self, h.before hr hl (by rw [hstage]; rfl)⟩
  | unbind hstage =>
    obtain ⟨hstage, rfl⟩ | ⟨o, -, rfl⟩ := hstage
    · exact h.holds hr hl (by rw [hstage]; rfl)
    · cases hb
  | _ => cases hb

theorem Kept.mover_acks (h : Kept s) (hr : s.registrations[i]? = some r) (hm : Move s r r' u)
    (hl : s.Live r.sid) (hf : r'.stage.fenced = false) (hrun : r'.stage.running = true)
    (hb : r'.stage.acks = true) :
    u.tools.get? r.key = some r.tool ∧ u.acknowledged.get? r.key = some (r.tool, r.bindingId) := by
  cases hm with
  | stays hloc =>
    obtain ⟨hrun, ha⟩ := hloc.acks_back hrun hb hf
    exact h.acks hr hl hrun ha
  | acknowledge hstage => exact ⟨(h.holds hr hl (by rw [hstage]; rfl)).1, KeyMap.get?_insert_self⟩
  | unbind hstage => obtain ⟨-, rfl⟩ | ⟨o, -, rfl⟩ := hstage <;> cases hb
  | _ => cases hb

theorem Kept.mover_bound (h : Kept s) (hr : s.registrations[i]? = some r) (hm : Move s r r' u)
    (hl : s.Live r.sid) (hb : r'.stage.bound = true) : u.bindings.get? r.bindingKey = some r.tool := by
  cases hm with
  | stays hloc => exact h.bound hr hl (hloc.bound hb)
  | bind hstage => exact KeyMap.get?_insert_self
  | install hstage => exact h.bound hr hl (by rw [hstage]; rfl)
  | unbind hstage => obtain ⟨-, rfl⟩ | ⟨o, -, rfl⟩ := hstage <;> cases hb
  | _ => cases hb

/-- When a task of a live session ends, its name has the handler it should have. -/
theorem Kept.mover_ends (h : Kept s) (hr : s.registrations[i]? = some r) (hm : Move s r r' u)
    (hl : s.Live r.sid) (hrun : r.stage.running = true) (hend : r'.stage.running = false) :
    u.tools.get? r.key = u.lastTool r.key := by
  cases hm with
  | stays hloc =>
    obtain ha | ha := hloc.stops hl hrun hend (h.unfenced hr hl)
    · exact h.before hr hl ha
    · obtain ⟨ht, hack⟩ := h.acks hr hl hrun ha
      rw [ht, State.lastTool, hack]
      rfl
  | restore hstage =>
    obtain ⟨ht, hold⟩ := h.holds hr hl (by rw [hstage]; rfl)
    exact (restore_get hl.closed ht).trans hold
  | lock hstage | newLock hstage | acquire hstage => rw [hstage] at hrun; cases hrun
  | unbind hstage => obtain ⟨-, rfl⟩ | ⟨o, -, rfl⟩ := hstage <;> cases hend
  | _ => cases hend

/-- What a name and its last acknowledged registration are, but for the task that moves. -/
theorem Locked.others (hk : Locked s) (hr : s.registrations[i]? = some r) (hm : Move s r r' u) {j : Nat}
    {q : Registration Tool} (hj : j ≠ i) (hq : s.registrations[j]? = some q) (hrun : q.stage.running = true) :
    u.tools.get? q.key = s.tools.get? q.key ∧ u.acknowledged.get? q.key = s.acknowledged.get? q.key := by
  by_cases hkey : q.key = r.key
  · have hidle : r.stage.running = false := by
      by_contra hrun'
      exact hj (hk.single hq hr hrun (by simpa using hrun') hkey)
    obtain ⟨ht, ha⟩ := hm.idle hidle
    rw [ht, ha]
    exact ⟨rfl, rfl⟩
  · exact ⟨hm.tools_ne hkey, hm.acknowledged_ne hkey⟩

theorem Kept.quiet_move (h : Kept s) (hr : s.registrations[i]? = some r) (hm : Move s r r' u)
    {k : Key} (hl : s.Live k.1) (hquiet : (u.put i r').Quiet k) :
    u.tools.get? k = u.lastTool k := by
  obtain ⟨r₁, hr', hsame, -, hself⟩ := hm.after hr hr
  obtain rfl := hself rfl
  have hothers : ∀ q ∈ s.registrations, q.key = k → q ≠ r → q.stage.running = false := by
    intro q hq hkey hne
    obtain ⟨j, hj⟩ := List.mem_iff_getElem?.mp hq
    obtain ⟨q', hq', -, hsame', -⟩ := hm.after hr hj
    have hji : j ≠ i := by
      rintro rfl
      exact hne (Option.some.inj (hj.symm.trans hr))
    obtain rfl := hsame' hji
    exact hquiet q' (List.mem_of_getElem? hq') hkey
  by_cases hkey : k = r.key
  · subst hkey
    cases hrun : r.stage.running with
    | true => exact h.mover_ends hr hm hl hrun (hquiet r₁ (List.mem_of_getElem? hr') hsame.key)
    | false =>
      obtain ⟨ht, ha⟩ := hm.idle hrun
      rw [State.lastTool, ht, ha]
      refine h.quiet hl fun q hq hkey => ?_
      by_cases hne : q = r
      · rw [hne, hrun]
      · exact hothers q hq hkey hne
  · rw [State.lastTool, hm.tools_ne hkey, hm.acknowledged_ne hkey]
    refine h.quiet hl fun q hq hkey' => hothers q hq hkey' ?_
    rintro rfl
    exact hkey hkey'.symm

/-- The acknowledged registration of a name is one that was, or the one that moves. -/
theorem Move.acknowledged_some (hm : Move s r r' u) {k : Key} {v : Tool × String}
    (hk : u.acknowledged.get? k = some v) :
    s.acknowledged.get? k = some v ∨
      k = r.key ∧ v = (r.tool, r.bindingId) ∧ r.stage = .sent ∧ r'.stage = .replied .ok ∧ u.bindings = s.bindings := by
  cases hm with
  | acknowledge hstage =>
    obtain ⟨hk, hv⟩ | ⟨hk, -⟩ := KeyMap.get?_insert.mp hk
    · exact .inr ⟨hk, hv, hstage, rfl, rfl⟩
    · exact .inl hk
  | _ => exact .inl hk

theorem Kept.ackBound_move (h : Kept s) (hr : s.registrations[i]? = some r) (hm : Move s r r' u) {k : Key}
    {tool : Tool} {bindingId : String} (hl : s.Live k.1)
    (hk : u.acknowledged.get? k = some (tool, bindingId)) : u.bindings.get? (k.1, bindingId) = some tool := by
  obtain hk | ⟨rfl, hv, hstage, -, hbindings⟩ := hm.acknowledged_some hk
  · have hold := h.ackBound hl hk
    by_cases hid : bindingId = r.bindingId
    · rw [hm.bindings_acks ((h.ackOwner hk).2 r (List.mem_of_getElem? hr) hid.symm)]
      exact hold
    · rw [hm.bindings_ne fun heq => hid (congrArg Prod.snd heq)]
      exact hold
  · obtain ⟨rfl, rfl⟩ := Prod.mk.inj hv
    rw [hbindings]
    exact h.bound hr hl (by rw [hstage]; rfl)

theorem Kept.ackOwner_move (hi : Issued s) (h : Kept s) (hr : s.registrations[i]? = some r) (hm : Move s r r' u)
    {k : Key} {tool : Tool} {bindingId : String} (hk : u.acknowledged.get? k = some (tool, bindingId)) :
    bindingId ∈ u.issued ∧ ∀ q ∈ (u.put i r').registrations, q.bindingId = bindingId → q.stage.acks = true := by
  rw [hm.issued]
  obtain hk | ⟨rfl, hv, hstage, hstage', -⟩ := hm.acknowledged_some hk
  · obtain ⟨hissued, hown⟩ := h.ackOwner hk
    refine ⟨hissued, fun q hq hid => ?_⟩
    obtain ⟨j, hj⟩ := List.mem_iff_getElem?.mp hq
    obtain ⟨rfl, rfl⟩ | ⟨-, hq⟩ := hm.get hj
    · exact hm.acks (hown r (List.mem_of_getElem? hr) (by rw [← hm.same.bindingId, hid]))
    · exact hown q (List.mem_of_getElem? hq) hid
  · obtain ⟨rfl, rfl⟩ := Prod.mk.inj hv
    refine ⟨hi.issued hr, fun q hq hid => ?_⟩
    obtain ⟨j, hj⟩ := List.mem_iff_getElem?.mp hq
    obtain ⟨rfl, rfl⟩ | ⟨hne, hq⟩ := hm.get hj
    · rw [hstage']
      rfl
    · exact absurd (hi.distinct hq hr hid) hne

theorem Kept.move (hf : Fenced s) (hk : Locked s) (hi : Issued s) (h : Kept s)
    (hr : s.registrations[i]? = some r) (hm : Move s r r' u)
    (hguard : r.stage.admits = true → s.closed = false → (s.sessions r.sid).phase ≠ .closing) :
    Kept (u.put i r') where
  unfenced := by
    intro j q hq hl
    have hl' := hm.live hl
    obtain ⟨rfl, rfl⟩ | ⟨-, hq⟩ := hm.get hq
    · rw [hm.same.sid] at hl'
      exact h.mover_unfenced hf hr hm hguard hl'
    · exact h.unfenced hq hl'
  before := by
    intro j q hq hl hb
    have hl' := hm.live hl
    show u.tools.get? q.key = u.lastTool q.key
    obtain ⟨rfl, rfl⟩ | ⟨hj, hq⟩ := hm.get hq
    · rw [hm.same.sid] at hl'
      rw [hm.same.key]
      exact h.mover_before hk hr hm hl' hb
    · obtain ⟨ht, ha⟩ := hk.others hr hm hj hq (Stage.running_of_before hb)
      rw [State.lastTool, ht, ha]
      exact h.before hq hl' hb
  holds := by
    intro j q hq hl hb
    have hl' := hm.live hl
    show u.tools.get? q.key = some q.tool ∧ q.old = u.lastTool q.key
    obtain ⟨rfl, rfl⟩ | ⟨hj, hq⟩ := hm.get hq
    · rw [hm.same.sid] at hl'
      rw [hm.same.key, hm.same.tool]
      exact h.mover_holds hr hm hl' (h.mover_unfenced hf hr hm hguard hl') hb
    · obtain ⟨ht, ha⟩ := hk.others hr hm hj hq (Stage.running_of_holds hb)
      rw [State.lastTool, ht, ha]
      exact h.holds hq hl' hb
  acks := by
    intro j q hq hl hrun hb
    have hl' := hm.live hl
    show u.tools.get? q.key = some q.tool ∧ u.acknowledged.get? q.key = _
    obtain ⟨rfl, rfl⟩ | ⟨hj, hq⟩ := hm.get hq
    · rw [hm.same.sid] at hl'
      rw [hm.same.key, hm.same.tool, hm.same.bindingId]
      exact h.mover_acks hr hm hl' (h.mover_unfenced hf hr hm hguard hl') hrun hb
    · obtain ⟨ht, ha⟩ := hk.others hr hm hj hq hrun
      rw [ht, ha]
      exact h.acks hq hl' hrun hb
  bound := by
    intro j q hq hl hb
    have hl' := hm.live hl
    show u.bindings.get? q.bindingKey = some q.tool
    obtain ⟨rfl, rfl⟩ | ⟨hj, hq⟩ := hm.get hq
    · rw [hm.same.sid] at hl'
      rw [hm.same.bindingKey, hm.same.tool]
      exact h.mover_bound hr hm hl' hb
    · rw [hm.bindings_ne fun heq => hj (hi.distinct hq hr (congrArg Prod.snd heq))]
      exact h.bound hq hl' hb
  quiet := fun hl hquiet => h.quiet_move hr hm (hm.live hl) hquiet
  ackBound := fun hl ha => h.ackBound_move hr hm (hm.live hl) ha
  ackOwner := fun ha => h.ackOwner_move hi hr hm ha

end Kept

section Change

variable {s t : State Tool}

theorem Change.acknowledged (h : Change shards s t) : t.acknowledged = s.acknowledged := by
  cases h <;> first | rfl | (unfold State.disconnect State.setSession; split <;> rfl)

theorem Kept.change (hf : Fenced s) (h : Kept s) (hc : Change shards s t) : Kept t := by
  have htools : ∀ {k : Key}, t.Live k.1 → t.tools.get? k = s.tools.get? k := hc.handlers hf .name
  have hbindings : ∀ {k : Key}, t.Live k.1 → t.bindings.get? k = s.bindings.get? k := hc.handlers hf .binding
  constructor
  case unfenced =>
    intro i r hr hl
    rw [hc.registrations] at hr
    exact h.unfenced hr (hc.released hf hl).1
  case before =>
    intro i r hr hl hb
    rw [hc.registrations] at hr
    rw [State.lastTool, hc.acknowledged, htools (k := r.key) hl]
    exact h.before hr (hc.released hf hl).1 hb
  case holds =>
    intro i r hr hl hb
    rw [hc.registrations] at hr
    rw [State.lastTool, hc.acknowledged, htools (k := r.key) hl]
    exact h.holds hr (hc.released hf hl).1 hb
  case acks =>
    intro i r hr hl hrun hb
    rw [hc.registrations] at hr
    rw [hc.acknowledged, htools (k := r.key) hl]
    exact h.acks hr (hc.released hf hl).1 hrun hb
  case bound =>
    intro i r hr hl hb
    rw [hc.registrations] at hr
    rw [hbindings (k := r.bindingKey) hl]
    exact h.bound hr (hc.released hf hl).1 hb
  case quiet =>
    intro k hl hquiet
    rw [State.Quiet, hc.registrations] at hquiet
    rw [State.lastTool, hc.acknowledged, htools hl]
    exact h.quiet (hc.released hf hl).1 hquiet
  case ackBound =>
    intro k tool bindingId hl hk
    rw [hc.acknowledged] at hk
    rw [hbindings (k := (k.1, bindingId)) hl]
    exact h.ackBound (hc.released hf hl).1 hk
  case ackOwner =>
    intro k tool bindingId hk
    rw [hc.acknowledged] at hk
    rw [hc.issued, hc.registrations]
    exact h.ackOwner hk

end Change

theorem Kept.step {s t : State Tool} {e : Event} (hf : Fenced s) (hk : Locked s) (hi : Issued s) (h : Kept s)
    (hst : Step name shards s e t) (hguard : ¬ s.Meets e) : Kept t := by
  obtain ⟨i, r, r', u, hr, hm, rfl, he⟩ | ⟨sid, tool, bindingId, hid, rfl⟩ | rfl | hc := hst.cases
  · exact h.move hf hk hi hr hm fun hadmits hc hp => hguard ⟨i, r, he hadmits, hr, hadmits, hc, hp⟩
  · constructor
    case unfenced =>
      intro i r hr hl
      obtain hr | ⟨-, rfl⟩ := get_snoc hr
      · exact h.unfenced hr ⟨hl.closed, hl.phase⟩
      · rfl
    case before =>
      intro i r hr hl hb
      obtain hr | ⟨-, rfl⟩ := get_snoc hr
      · exact h.before hr ⟨hl.closed, hl.phase⟩ hb
      · cases hb
    case holds =>
      intro i r hr hl hb
      obtain hr | ⟨-, rfl⟩ := get_snoc hr
      · exact h.holds hr ⟨hl.closed, hl.phase⟩ hb
      · cases hb
    case acks =>
      intro i r hr hl hrun hb
      obtain hr | ⟨-, rfl⟩ := get_snoc hr
      · exact h.acks hr ⟨hl.closed, hl.phase⟩ hrun hb
      · cases hb
    case bound =>
      intro i r hr hl hb
      obtain hr | ⟨-, rfl⟩ := get_snoc hr
      · exact h.bound hr ⟨hl.closed, hl.phase⟩ hb
      · cases hb
    case quiet =>
      intro k hl hquiet
      exact h.quiet ⟨hl.closed, hl.phase⟩ fun r hr => hquiet r (List.mem_append_left _ hr)
    case ackBound => exact fun hl ha => h.ackBound ⟨hl.closed, hl.phase⟩ ha
    case ackOwner =>
      intro k tool' bindingId' ha
      obtain ⟨hissued, hown⟩ := h.ackOwner ha
      refine ⟨List.mem_cons_of_mem _ hissued, fun r hr hbid => ?_⟩
      obtain hr | hr := List.mem_append.mp hr
      · exact hown r hr hbid
      · obtain rfl := List.mem_singleton.mp hr
        subst hbid
        exact absurd hissued hid
  · exact h
  · exact h.change hf hc

/-! ## Whole runs -/

/-- A state in which tools are being staged; `ids` are the binding ids so far. -/
structure Staging (staged : List (StagedTool Tool)) (s : State Tool) : Prop where
  registrations : s.registrations = []
  shutdown : s.shutdown = .none
  ran : s.ran = []
  sessions : ∀ sid, (s.sessions sid).phase = .opened ∧ (s.sessions sid).close = .idle ∧
    (s.sessions sid).released = false
  tools : ∀ k, s.tools.get? k = s.lastTool k
  acknowledged : ∀ {k : Key} {tool : Tool} {bindingId : String},
    s.acknowledged.get? k = some (tool, bindingId) →
      bindingId ∈ s.issued ∧ s.bindings.get? (k.1, bindingId) = some tool
  bindings : ∀ {sid bindingId : String} {tool : Tool}, s.bindings.get? (sid, bindingId) = some tool →
    bindingId ∈ s.issued ∧ ∃ g ∈ staged, g.sid = sid ∧ g.bindingId = bindingId ∧ g.tool = tool
  issued : ∀ bindingId ∈ s.issued, bindingId ∈ staged.map (·.bindingId)

theorem Staging.stageTool {staged : List (StagedTool Tool)} {s : State Tool} (h : Staging staged s)
    {t : StagedTool Tool} (ht : t.bindingId ∉ s.issued) :
    Staging (staged ++ [t]) (s.stageTool name t) where
  registrations := h.registrations
  shutdown := h.shutdown
  ran := h.ran
  sessions := h.sessions
  tools := by
    intro k
    simp only [State.stageTool, State.lastTool, KeyMap.get?_insert_eq]
    split
    · rfl
    · exact h.tools k
  acknowledged := by
    intro k tool bindingId hk
    obtain ⟨rfl, hv⟩ | ⟨hk, -⟩ := KeyMap.get?_insert.mp hk
    · obtain ⟨rfl, rfl⟩ := Prod.mk.inj hv
      exact ⟨List.mem_cons_self, KeyMap.get?_insert_self⟩
    · obtain ⟨hissued, hb⟩ := h.acknowledged hk
      refine ⟨List.mem_cons_of_mem _ hissued, ?_⟩
      show (s.bindings.insert _ _).get? _ = _
      rw [KeyMap.get?_insert_ne]
      · exact hb
      · intro heq
        rw [show bindingId = t.bindingId from congrArg Prod.snd heq] at hissued
        exact ht hissued
  bindings := by
    intro sid bindingId tool hk
    obtain ⟨hkey, rfl⟩ | ⟨hk, -⟩ := KeyMap.get?_insert.mp hk
    · obtain ⟨rfl, rfl⟩ := Prod.mk.inj hkey
      exact ⟨List.mem_cons_self, t, List.mem_append_right _ (List.mem_singleton_self _), rfl, rfl, rfl⟩
    · obtain ⟨hissued, g, hg, hsame⟩ := h.bindings hk
      exact ⟨List.mem_cons_of_mem _ hissued, g, List.mem_append_left _ hg, hsame⟩
  issued := by
    intro bindingId hid
    rw [List.map_append]
    obtain rfl | hid := List.mem_cons.mp hid
    · exact List.mem_append_right _ (List.mem_singleton_self _)
    · exact List.mem_append_left _ (h.issued _ hid)

theorem Staging.foldl {ts : List (StagedTool Tool)} : ∀ {staged : List (StagedTool Tool)} {s : State Tool},
    Staging staged s → ((staged ++ ts).map (·.bindingId)).Nodup →
      Staging (staged ++ ts) (ts.foldl (·.stageTool name) s) := by
  induction ts with
  | nil =>
    intro staged s h _
    rw [List.append_nil]
    exact h
  | cons t ts ih =>
    intro staged s h hnodup
    rw [List.append_cons] at hnodup ⊢
    refine ih (h.stageTool fun hid => ?_) hnodup
    -- the id of the tool would be there twice
    rw [List.map_append, List.map_append] at hnodup
    have hd := (List.nodup_append.mp (List.nodup_append.mp hnodup).1).2.2
    exact hd _ (h.issued _ hid) _ (List.mem_singleton_self _) rfl

theorem staging_start (known : List String) (packs : String → List String) (staged : Staged Tool) :
    Staging staged.tools (State.start name known packs staged) := by
  have h : Staging [] ({ known, sessions := fun sid => { packNames := packs sid } } : State Tool) := by
    refine ⟨rfl, rfl, rfl, fun sid => ⟨rfl, rfl, rfl⟩, fun k => rfl, fun hk => ?_, fun hk => ?_, fun _ hid => ?_⟩
    · cases hk
    · cases hk
    · cases hid
  exact h.foldl staged.nodup

/-- All invariants of a run. -/
structure Inv (shards : Shards) (staged : Staged Tool) (s : State Tool) : Prop where
  fenced : Fenced s
  locked : Locked s
  issued : Issued s
  routes : Routes shards staged s

theorem Inv.step {staged : Staged Tool} {s t : State Tool} {e : Event} (h : Inv shards staged s)
    (hst : Step name shards s e t) : Inv shards staged t :=
  ⟨h.fenced.step hst, h.locked.step h.fenced hst, h.issued.step hst, h.routes.step h.fenced h.issued hst⟩

section Start

variable {staged : Staged Tool} {s : State Tool}

theorem Staging.get (h : Staging staged.tools s) {i : Nat} {r : Registration Tool} {p : Prop}
    (hr : s.registrations[i]? = some r) : p := by
  rw [h.registrations] at hr
  cases hr

theorem Staging.inv (h : Staging staged.tools s) : Inv shards staged s where
  fenced := by
    refine ⟨fun sid => ?_, fun sid _ => (h.sessions sid).2.2, fun hr => h.get hr⟩
    rw [(h.sessions sid).1, (h.sessions sid).2.1]
    rfl
  locked := ⟨fun hr => h.get hr, fun hr => h.get hr, fun hr => h.get hr⟩
  issued := ⟨fun hr => h.get hr, fun hr => h.get hr⟩
  routes := by
    refine ⟨fun hk => ?_, fun hr => h.get hr, fun {m k} hgone => ?_, fun {m k} hs => ?_, fun {p tool} hp => ?_⟩
    · obtain ⟨hid, hg⟩ := h.bindings hk
      exact ⟨hid, .inl hg⟩
    · rw [(h.sessions k.1).2.1] at hgone
      cases m <;> cases hgone
    · have hc := State.closed_of_swept hs
      rw [State.closed, h.shutdown] at hc
      cases hc
    · rw [h.ran] at hp
      cases hp

theorem Staging.kept (h : Staging staged.tools s) : Kept s := by
  refine ⟨fun hr => h.get hr, fun hr => h.get hr, fun hr => h.get hr, fun hr => h.get hr, fun hr => h.get hr,
    fun {k} _ _ => h.tools k, fun _ hk => (h.acknowledged hk).2, fun hk => ⟨(h.acknowledged hk).1, ?_⟩⟩
  rw [h.registrations]
  intro r hr
  cases hr

end Start

section Inv

variable {staged : Staged Tool} {s : State Tool}

theorem Inv.serial (h : Inv shards staged s) : s.Serial := fun hr hq hsent hsent' hkey =>
  h.locked.single hr hq (by rw [hsent]; rfl) (by rw [hsent']; rfl) hkey

theorem Inv.unbound (h : Inv shards staged s) : s.Unbound := by
  intro r hr hstage
  obtain ⟨i, hi⟩ := List.mem_iff_getElem?.mp hr
  exact h.routes.mayBind hi (by rw [hstage]; rfl)

theorem swept_of_cleared (shards : Shards) (m : Route) (k : Key) (h : s.shutdown.cleared = true) :
    s.swept shards m k = true := by
  cases m <;> unfold State.swept <;> cases hs : s.shutdown <;> rw [hs] at h <;> cases h

theorem Inv.tornDown (h : Inv shards staged s) : s.TornDown := by
  intro sid htorn hidle key
  have hnone : ∀ m, (s.handlers m).get? (sid, key) = none := by
    intro m
    obtain hgone | hcleared := htorn
    · refine h.routes.gone ?_
      cases m
      · exact Close.toolsGone_of_bindingsGone hgone
      · exact hgone
    · by_contra hk
      obtain ⟨i, r, hr, hkey, hleaves⟩ := h.routes.swept (swept_of_cleared shards m _ hcleared) hk
      have hsid : r.sid = sid := by rw [← r.route_sid m, hkey]
      have hrun := hidle r (List.mem_of_getElem? hr) hsid
      exact absurd ((Stage.running_of_leaves hleaves).symm.trans hrun) Bool.noConfusion
  exact ⟨hnone .name, hnone .binding⟩

theorem Kept.settled (h : Kept s) : s.Settled := by
  intro k hopen hquiet
  obtain ⟨hc, hp⟩ := refusal_eq_none.mp hopen
  have hl : s.Live k.1 := ⟨hc, by rw [hp]; rfl⟩
  exact ⟨h.quiet hl hquiet, fun hk => h.ackBound hl hk⟩

end Inv

/-- The registrations of a name are dispatched one at a time, a rejected one leaves no binding, nothing is left of a
session that was released or whose client is closed, and a binding id is only served by the handler it was registered
with. Where moreover no request of a registration meets a session that is being closed, a name of an open session
has the handler that was acknowledged last whenever none of its registrations is under way. -/
theorem tool_registration {known : List String} {packs : String → List String} {staged : Staged Tool}
    {s : State Tool} {es : List Event}
    (h : Lts.Run (Step name shards) (State.start name known packs staged) es s) :
    s.Serial ∧ s.Unbound ∧ s.TornDown ∧ s.Authoritative staged ∧
      (Lts.Run (fun s e t => Step name shards s e t ∧ ¬ s.Meets e) (State.start name known packs staged) es s →
        s.Settled) := by
  have hstart : Staging staged.tools (State.start name known packs staged) := staging_start known packs staged
  have hinv : Inv shards staged s := h.invariant _ (fun _ _ _ hi hst => hi.step hst) hstart.inv
  refine ⟨hinv.serial, hinv.unbound, hinv.tornDown, hinv.routes.ran, fun hguarded => ?_⟩
  have hkept : Inv shards staged s ∧ Kept s :=
    hguarded.invariant (fun s => Inv shards staged s ∧ Kept s)
      (fun _ _ _ hi hst => ⟨hi.1.step hst.1,
        hi.2.step hi.1.fenced hi.1.locked hi.1.issued hst.1 hst.2⟩) ⟨hstart.inv, hstart.kept⟩
  exact hkept.2.settled

/-! ## A registration behind a close -/

/-- One session, with one tool. -/
def stagedLookup : Staged String := ⟨[⟨"session", "old", "old-id"⟩], by decide⟩

def lookupShards : Shards := ⟨1, fun _ => 0, fun _ => 0⟩

def lookupStart : State String := .start (fun _ => "lookup") ["session"] (fun _ => []) stagedLookup

/-- The registration of a new handler for the name, at a stage. -/
def newLookup (stage : Stage) : Registration String :=
  { sid := "session", name := "lookup", tool := "new", bindingId := "new-id", stage }

/-- The same, with the name. -/
def namedLookup (stage : Stage) : Registration String := { newLookup stage with old := some "old" }

/-- The client with the new handler installed. -/
def lookupState (stage : Stage) : State String :=
  { lookupStart with
    tools := lookupStart.tools.insert ("session", "lookup") "new"
    bindings := lookupStart.bindings.insert ("session", "new-id") "new"
    locks := KeyMap.empty.insert ("session", "lookup") 0
    nextLock := 1
    registrations := [namedLookup stage]
    issued := ["new-id", "old-id"] }

theorem lookup_calm {s : State String} {e : Event} (h : ∀ sid, (s.sessions sid).phase = .opened) :
    ¬ s.Meets e := by
  rintro ⟨i, r, -, -, -, -, hphase⟩
  rw [h] at hphase
  cases hphase

theorem lookup_installed : Lts.Run
    (fun s e t => Step (fun _ => "lookup") lookupShards s e t ∧ ¬ s.Meets e) lookupStart
    (.other :: List.replicate 11 (.registration 0)) (lookupState .admitting) := by
  refine .cons ⟨@Step.register _ _ _ lookupStart "session" (by decide) "new" "new-id" (by decide),
    lookup_calm fun _ => rfl⟩ ?_
  refine .cons ⟨.check (r := newLookup .called) rfl (by decide) rfl, lookup_calm fun _ => rfl⟩ ?_
  refine .cons ⟨.check (r := newLookup .opened) rfl (by decide) rfl, lookup_calm fun _ => rfl⟩ ?_
  refine .cons ⟨.check (r := newLookup .available) rfl (by decide) rfl, lookup_calm fun _ => rfl⟩ ?_
  refine .cons ⟨.work (r := newLookup .locking) rfl rfl, lookup_calm fun _ => rfl⟩ ?_
  refine .cons ⟨.acquire (r := newLookup .queued) rfl rfl (by decide), lookup_calm fun _ => rfl⟩ ?_
  refine .cons ⟨.check (r := newLookup .locked) rfl (by decide) rfl, lookup_calm fun _ => rfl⟩ ?_
  refine .cons ⟨.check (r := newLookup .spawned) rfl (by decide) rfl, lookup_calm fun _ => rfl⟩ ?_
  refine .cons ⟨.check (r := newLookup .starting) rfl (by decide) rfl, lookup_calm fun _ => rfl⟩ ?_
  refine .cons ⟨.work (r := newLookup .binding) rfl rfl, lookup_calm fun _ => rfl⟩ ?_
  refine .cons ⟨.work (r := newLookup .naming) rfl rfl, lookup_calm fun _ => rfl⟩ ?_
  refine .cons ⟨.check (r := namedLookup .requesting) rfl (by decide) rfl, lookup_calm fun _ => rfl⟩ ?_
  exact .nil _

/-- The new handler is acknowledged. -/
theorem lookup_acknowledged : Lts.Run
    (fun s e t => Step (fun _ => "lookup") lookupShards s e t ∧ ¬ s.Meets e) (lookupState .admitting)
    (List.replicate 7 (.registration 0))
    { lookupState (.ended .ok) with
      acknowledged := lookupStart.acknowledged.insert ("session", "lookup") ("new", "new-id") } := by
  refine .cons ⟨.check (r := namedLookup .admitting) rfl (by decide) rfl, lookup_calm fun _ => rfl⟩ ?_
  refine .cons ⟨.check (r := namedLookup .enrolling) rfl (by decide) rfl, lookup_calm fun _ => rfl⟩ ?_
  refine .cons ⟨.check (r := namedLookup .enrolled) rfl (by decide) rfl, lookup_calm fun _ => rfl⟩ ?_
  refine .cons ⟨.send (r := namedLookup .sending) rfl rfl, lookup_calm fun _ => rfl⟩ ?_
  refine .cons ⟨.acknowledge (r := namedLookup .sent) rfl rfl rfl, lookup_calm fun _ => rfl⟩ ?_
  refine .cons ⟨.check (r := namedLookup (.replied .ok)) rfl (by decide) rfl, lookup_calm fun _ => rfl⟩ ?_
  refine .cons ⟨.check (r := namedLookup (.settled .ok)) rfl (by decide) rfl, lookup_calm fun _ => rfl⟩ ?_
  exact .nil _

theorem tool_registration_acknowledged :
    ({ lookupState (.ended .ok) with
      acknowledged := lookupStart.acknowledged.insert ("session", "lookup") ("new", "new-id") } :
        State String).Settled :=
  have h := lookup_installed.append lookup_acknowledged
  (tool_registration (h.mono fun h => h.1)).2.2.2.2 h

/-- The session of a state is being closed. -/
def lookupClosing (stage : Stage) (close : Close) : State String :=
  (lookupState stage).setSession "session" { phase := .closing, close }

/-- The client after that close. -/
def lookupReopened : State String :=
  ((lookupClosing (.ended .sessionClosed) .calling).setSession "session"
    { phase := .closing, close := .rejecting }).setSession "session" {}

/-- The request of the registration meets a close, which the daemon then rejects. -/
theorem lookup_overtaken : Lts.Run (Step (fun _ => "lookup") lookupShards) (lookupState .admitting)
    [.other, .registration 0, .registration 0, .other, .other] lookupReopened := by
  refine .cons (t := lookupClosing .admitting .calling) ?_ ?_
  · exact .close (by decide) (by decide) rfl
  refine .cons (t := lookupClosing (.settled .sessionClosed) .calling) ?_ ?_
  · exact .check (r := namedLookup .admitting) rfl (by decide) (by decide)
  refine .cons (t := lookupClosing (.ended .sessionClosed) .calling) ?_ ?_
  · exact .check (r := namedLookup (.settled .sessionClosed)) rfl (by decide) rfl
  refine .cons (t := (lookupClosing (.ended .sessionClosed) .calling).setSession "session"
    { phase := .closing, close := .rejecting }) ?_ ?_
  · exact @Step.closeRejected _ _ _ _ "session" rfl rfl
  exact .cons (@Step.proceed _ _ _ _ lookupReopened "session" rfl (by decide)) (.nil _)

/-- The handler of a registration that was never sent stays under its name. -/
theorem tool_registration_overtaken :
    ¬ ∀ s es, Lts.Run (Step (fun _ => "lookup") lookupShards) lookupStart es s → s.Settled := by
  intro h
  have hrun := (lookup_installed.mono fun h => h.1).append lookup_overtaken
  have hset := (h _ _ hrun ("session", "lookup") (by decide) (by unfold State.Quiet; decide)).1
  exact absurd hset (by decide)

end Whale.ToolRegistration
