import Whale.Sdk.Proof.ToolLocks

/-!
# The handlers of a session

Two invariants of every run. `Issued`: every registration has a binding id of its own. `Routes`: a binding belongs
to the registration with its id, and a handler that is in a map behind the release of its session or behind the
shutdown of the client is about to be removed by its task.
-/

namespace Whale.ToolRegistration

variable {Tool : Type} {name : Tool → String} {shards : Shards}

/-! ## The binding ids -/

/-- The invariant of the binding ids. -/
structure Issued (s : State Tool) : Prop where
  issued : ∀ {i : Nat} {r : Registration Tool}, s.registrations[i]? = some r → r.bindingId ∈ s.issued
  distinct : ∀ {i j : Nat} {r q : Registration Tool}, s.registrations[i]? = some r → s.registrations[j]? = some q →
    r.bindingId = q.bindingId → i = j

/-- A registration has the identity it had. -/
theorem Move.before {s u : State Tool} {i j : Nat} {r r' q : Registration Tool} (h : Move s r r' u)
    (hr : s.registrations[i]? = some r) (hq : (u.put i r').registrations[j]? = some q) :
    ∃ q₀, s.registrations[j]? = some q₀ ∧ q₀.Same q := by
  obtain ⟨rfl, rfl⟩ | ⟨-, hq⟩ := h.get hq
  · exact ⟨r, hr, h.same⟩
  · exact ⟨q, hq, rfl, rfl, rfl, rfl⟩

/-- A registration keeps its identity. -/
theorem Move.after {s u : State Tool} {i j : Nat} {r r' q : Registration Tool} (h : Move s r r' u)
    (hr : s.registrations[i]? = some r) (hq : s.registrations[j]? = some q) :
    ∃ q', (u.put i r').registrations[j]? = some q' ∧ q.Same q' ∧ (j ≠ i → q' = q) ∧ (j = i → q' = r') := by
  simp only [State.put, h.registrations, List.getElem?_set]
  by_cases hij : i = j
  · subst hij
    have hlt := (List.getElem?_eq_some_iff.mp hr).1
    rw [hr, Option.some.injEq] at hq
    subst hq
    exact ⟨r', by simp [hlt], h.same, fun hne => absurd rfl hne, fun _ => rfl⟩
  · exact ⟨q, by simpa [hij] using hq, ⟨rfl, rfl, rfl, rfl⟩, fun _ => rfl, fun hji => absurd hji.symm hij⟩

theorem Issued.step {s t : State Tool} {e : Event} (hs : Issued s) (h : Step name shards s e t) : Issued t := by
  obtain ⟨i, r, r', u, hr, hm, rfl, -⟩ | ⟨sid, tool, bindingId, hid, rfl⟩ | rfl | hc := h.cases
  · refine ⟨fun hq => ?_, fun hq hq' heq => ?_⟩
    · obtain ⟨q₀, hq₀, hsame⟩ := hm.before hr hq
      show _ ∈ u.issued
      rw [hm.issued, hsame.bindingId]
      exact hs.issued hq₀
    · obtain ⟨q₀, hq₀, hsame⟩ := hm.before hr hq
      obtain ⟨q₁, hq₁, hsame'⟩ := hm.before hr hq'
      exact hs.distinct hq₀ hq₁ (by rw [← hsame.bindingId, ← hsame'.bindingId, heq])
  · refine ⟨fun hq => ?_, fun hq hq' heq => ?_⟩
    · obtain hq | ⟨-, rfl⟩ := get_snoc hq
      · exact List.mem_cons_of_mem _ (hs.issued hq)
      · exact List.mem_cons_self
    · obtain hq | ⟨rfl, rfl⟩ := get_snoc hq <;> obtain hq' | ⟨rfl, rfl⟩ := get_snoc hq'
      · exact hs.distinct hq hq' heq
      · exact absurd (by rw [← show _ = bindingId from heq]; exact hs.issued hq) hid
      · exact absurd (by rw [show bindingId = _ from heq]; exact hs.issued hq') hid
      · rfl
  · exact hs
  · refine ⟨fun hq => ?_, fun hq hq' => ?_⟩
    · rw [hc.registrations] at hq
      rw [hc.issued]
      exact hs.issued hq
    · rw [hc.registrations] at hq hq'
      exact hs.distinct hq hq'

/-! ## The handlers -/

/-- The two maps of handlers. -/
inductive Route where
  | name
  | binding

namespace Stage

/-- The binding of the registration may be there. -/
def mayBind : Stage → Bool
  | naming | requesting | admitting | enrolling | enrolled | sending | sent | replied _ | settled _ | rejected | lost _
  | ended .ok | ended .sessionClosed => true
  | _ => false

/-- In a closed client, it is on its way to leave the map. -/
def leaves : Route → Stage → Bool
  | _, requesting | _, lost _ | .name, forgetting _ | .binding, naming => true
  | _, settled o => o != .ok && o != .sessionClosed
  | _, _ => false

theorem running_of_leaves {m : Route} {stage : Stage} (h : stage.leaves m = true) : stage.running = true := by
  cases m <;> cases stage <;> first | rfl | cases h

end Stage

/-- The map is free of the session that a close releases. -/
def Close.gone : Route → Close → Bool
  | .name, c => c.toolsGone
  | .binding, c => c.bindingsGone

theorem Close.tears_of_gone {m : Route} {c : Close} (h : c.gone m = true) : c.tears = true := by
  cases m <;> cases c <;> first | rfl | cases h

theorem Close.toolsGone_of_bindingsGone {c : Close} (h : c.bindingsGone = true) : c.toolsGone = true := by
  cases c <;> first | rfl | cases h

/-- The key of a registration. -/
def Registration.route (r : Registration Tool) : Route → Key
  | .name => r.key
  | .binding => r.bindingKey

theorem Registration.route_sid (r : Registration Tool) (m : Route) : (r.route m).1 = r.sid := by
  cases m <;> rfl

theorem Registration.Same.route {r r' : Registration Tool} (h : r.Same r') (m : Route) : r'.route m = r.route m := by
  cases m
  · exact h.key
  · exact h.bindingKey

namespace State

/-- The map. -/
def handlers (s : State Tool) : Route → KeyMap Key Tool
  | .name => s.tools
  | .binding => s.bindings

/-- The shard of a key is cleared. -/
def swept (shards : Shards) (s : State Tool) : Route → Key → Bool
  | .name, k => match s.shutdown with
    | .none => false
    | .tools n => (shards.tools k).val < n
    | _ => true
  | .binding, k => match s.shutdown with
    | .none | .tools _ => false
    | .bindings n => (shards.bindings k).val < n
    | _ => true

theorem closed_of_swept {s : State Tool} {m : Route} {k : Key} (h : s.swept shards m k = true) :
    s.closed = true := by
  unfold closed
  cases m <;> unfold swept at h <;> cases hs : s.shutdown <;> rw [hs] at h <;> first | cases h; done | rfl

end State

/-- The invariant of the two maps of handlers. -/
structure Routes (shards : Shards) (staged : Staged Tool) (s : State Tool) : Prop where
  owner : ∀ {sid bindingId : String} {tool : Tool}, s.bindings.get? (sid, bindingId) = some tool →
    bindingId ∈ s.issued ∧ Registered staged s sid bindingId tool
  mayBind : ∀ {i : Nat} {r : Registration Tool}, s.registrations[i]? = some r → r.stage.mayBind = false →
    s.bindings.get? r.bindingKey = none
  gone : ∀ {m : Route} {k : Key}, (s.sessions k.1).close.gone m = true → (s.handlers m).get? k = none
  swept : ∀ {m : Route} {k : Key}, s.swept shards m k = true → (s.handlers m).get? k ≠ none →
    ∃ (i : Nat) (r : Registration Tool), s.registrations[i]? = some r ∧ r.route m = k ∧ r.stage.leaves m = true
  ran : s.Authoritative staged

theorem Local.mayBind {s : State Tool} {sid : String} {a b : Stage} (h : Local s sid a b)
    (hb : b.mayBind = false) : a.mayBind = false := by
  cases h with
  | refused ha => cases a <;> first | rfl | cases ha
  | stopped ha => obtain rfl | rfl := ha <;> rfl
  | opened | available | locking | spawned | starting | binding | kept | restoring | disconnectedAlready | drained =>
    rfl
  | _ => cases hb

theorem Local.leaves {s : State Tool} {sid : String} {a b : Stage} (h : Local s sid a b) (hc : s.closed = true)
    {m : Route} (ha : a.leaves m = true) : b.leaves m = true := by
  cases h with
  | lost | disconnected => cases m <;> rfl
  | refused hearly => cases m <;> cases a <;> first | cases hearly; done | cases ha
  | stopped hst => cases m <;> obtain rfl | rfl := hst <;> cases ha
  | released hst | replied hst => cases m <;> obtain rfl | rfl := hst <;> cases ha
  | fenced _ h | admitting h | rejected h => exact absurd (hc.symm.trans h) Bool.noConfusion
  | _ => cases m <;> cases ha

section Move

variable {s u : State Tool} {r r' : Registration Tool}

theorem Move.bindings_ne (h : Move s r r' u) {k : Key} (hk : k ≠ r.bindingKey) :
    u.bindings.get? k = s.bindings.get? k := by
  cases h with
  | bind hstage => exact KeyMap.get?_insert_ne hk
  | unbind hstage => exact KeyMap.get?_erase_ne hk
  | _ => rfl

theorem Move.tools_ne (h : Move s r r' u) {k : Key} (hk : k ≠ r.key) : u.tools.get? k = s.tools.get? k := by
  cases h with
  | install hstage => exact KeyMap.get?_insert_ne hk
  | restore hstage =>
    show (s.restore r).get? k = _
    unfold State.restore
    split
    · split
      · exact KeyMap.get?_erase_ne hk
      · exact KeyMap.get?_insert_ne hk
    · exact KeyMap.get?_erase_ne hk
    · split
      · rfl
      · exact KeyMap.get?_insert_ne hk
    · rfl
  | forget hstage => exact KeyMap.get?_erase_ne hk
  | _ => rfl

theorem Move.mayBind (h : Move s r r' u) (hr : r'.stage.mayBind = false)
    (hs : r.stage.mayBind = false → s.bindings.get? r.bindingKey = none) : u.bindings.get? r.bindingKey = none := by
  cases h with
  | stays h => exact hs (h.mayBind hr)
  | lock hstage | newLock hstage | acquire hstage | restore hstage | forget hstage | disconnect hstage =>
    apply hs
    rw [hstage]
    rfl
  | unbind => exact KeyMap.get?_erase_self
  | bind | install | acknowledge => cases hr

/-- A binding is only made by its registration. -/
theorem Move.bindings_some (h : Move s r r' u) {k : Key} {tool : Tool} (hk : u.bindings.get? k = some tool) :
    s.bindings.get? k = some tool ∨ k = r.bindingKey ∧ tool = r.tool := by
  cases h with
  | bind hstage =>
    obtain hnew | ⟨hk, -⟩ := KeyMap.get?_insert.mp hk
    · exact .inr hnew
    · exact .inl hk
  | unbind hstage => exact .inl (KeyMap.get?_erase.mp hk).1
  | _ => exact .inl hk

/-- In a closed client, no handler is put back. -/
theorem restore_some {k : Key} {tool : Tool} (hk : (s.restore r).get? k = some tool) :
    s.tools.get? k = some tool ∨ k = r.key ∧ s.closed = false := by
  unfold State.restore at hk
  split at hk
  · split at hk
    · exact .inl (KeyMap.get?_erase.mp hk).1
    · next hc =>
      obtain ⟨hk, -⟩ | ⟨hk, -⟩ := KeyMap.get?_insert.mp hk
      · exact .inr ⟨hk, by simpa using hc⟩
      · exact .inl hk
  · exact .inl (KeyMap.get?_erase.mp hk).1
  · split at hk
    · exact .inl hk
    · next hc =>
      obtain ⟨hk, -⟩ | ⟨hk, -⟩ := KeyMap.get?_insert.mp hk
      · exact .inr ⟨hk, by simpa using hc⟩
      · exact .inl hk
  · exact .inl hk

/-- A handler only enters a map under the lock of the phase, and in a closed client only for a registration that will
take it out. -/
theorem Move.handlers_some (h : Move s r r' u) {m : Route} {k : Key} {tool : Tool}
    (hk : (u.handlers m).get? k = some tool) : (s.handlers m).get? k = some tool ∨
      k = r.route m ∧ r.stage.holdsPhase = true ∧ (s.closed = true → r'.stage.leaves m = true) := by
  cases h with
  | install hstage =>
    cases m with
    | binding => exact .inl hk
    | name =>
      obtain ⟨hk, -⟩ | ⟨hk, -⟩ := KeyMap.get?_insert.mp hk
      · exact .inr ⟨hk, by rw [hstage]; rfl, fun _ => rfl⟩
      · exact .inl hk
  | bind hstage =>
    cases m with
    | name => exact .inl hk
    | binding =>
      obtain ⟨hk, -⟩ | ⟨hk, -⟩ := KeyMap.get?_insert.mp hk
      · exact .inr ⟨hk, by rw [hstage]; rfl, fun _ => rfl⟩
      · exact .inl hk
  | restore hstage =>
    cases m with
    | binding => exact .inl hk
    | name =>
      obtain hk | ⟨hk, hc⟩ := restore_some hk
      · exact .inl hk
      · exact .inr ⟨hk, by rw [hstage]; rfl, fun h => absurd (hc.symm.trans h) Bool.noConfusion⟩
  | forget hstage =>
    cases m with
    | name => exact .inl (KeyMap.get?_erase.mp hk).1
    | binding => exact .inl hk
  | unbind hstage =>
    cases m with
    | name => exact .inl hk
    | binding => exact .inl (KeyMap.get?_erase.mp hk).1
  | _ => cases m <;> exact .inl hk

theorem Move.leaves (h : Move s r r' u) (hc : s.closed = true) {m : Route} (hr : r.stage.leaves m = true) :
    r'.stage.leaves m = true ∨ (u.handlers m).get? (r.route m) = none := by
  cases h with
  | stays h => exact .inl (h.leaves hc hr)
  | forget hstage =>
    cases m with
    | name => exact .inr KeyMap.get?_erase_self
    | binding => rw [hstage] at hr; cases hr
  | unbind hstage =>
    cases m with
    | binding => exact .inr KeyMap.get?_erase_self
    | name =>
      obtain ⟨hstage, -⟩ | ⟨o, -, rfl⟩ := hstage
      · rw [hstage] at hr
        cases hr
      · exact .inl rfl
  | install => cases m <;> exact .inl rfl
  | lock hstage | newLock hstage | acquire hstage | bind hstage | acknowledge hstage | restore hstage
  | disconnect hstage =>
    rw [hstage] at hr
    cases m <;> cases hr

theorem Move.swept (h : Move s r r' u) {m : Route} {k : Key} (hk : u.swept shards m k = true) :
    s.swept shards m k = true := by
  cases h with
  | disconnect => cases m <;> simp [State.swept] at hk
  | _ => cases m <;> exact hk

theorem Move.ran (h : Move s r r' u) : u.ran = s.ran := by
  cases h <;> rfl

end Move

section Change

variable {s t : State Tool}

theorem Change.handlers_some (h : Change shards s t) {m : Route} {k : Key} {tool : Tool}
    (hk : (t.handlers m).get? k = some tool) : (s.handlers m).get? k = some tool := by
  cases h with
  | retainTools | clearTools =>
    cases m with
    | name => exact (KeyMap.get?_filter.mp hk).1
    | binding => exact hk
  | retainBindings | clearBindings =>
    cases m with
    | name => exact hk
    | binding => exact (KeyMap.get?_filter.mp hk).1
  | failed =>
    unfold State.disconnect State.setSession at hk
    split at hk <;> cases m <;> exact hk
  | _ => cases m <;> exact hk

/-- A map is free of a session from its `retain` on. -/
theorem Change.gone (h : Change shards s t) {m : Route} {k : Key} (ht : (t.sessions k.1).close.gone m = true) :
    (s.sessions k.1).close.gone m = true ∨ (t.handlers m).get? k = none := by
  cases h with
  | @retainTools sid hclose =>
    simp only [setSession_sessions] at ht
    split at ht
    · next hsid =>
      cases m with
      | binding => cases ht
      | name =>
        right
        show (s.tools.filter _).get? k = none
        rw [KeyMap.get?_filter_eq]
        cases s.tools.get? k <;> simp [hsid]
    · exact .inl ht
  | @retainBindings sid hclose =>
    simp only [setSession_sessions] at ht
    split at ht
    · next hsid =>
      cases m with
      | name => exact .inl (by rw [hsid, hclose]; rfl)
      | binding =>
        right
        show (s.bindings.filter _).get? k = none
        rw [KeyMap.get?_filter_eq]
        cases s.bindings.get? k <;> simp [hsid]
    · exact .inl ht
  | @failed sid hclose =>
    have hs : s.disconnect.sessions k.1 = s.sessions k.1 := by unfold State.disconnect; split <;> rfl
    simp only [setSession_sessions, hs] at ht
    split at ht
    · cases m <;> cases ht
    · exact .inl ht
  | @retainLocks sid hclose | @finish sid hclose =>
    left
    simp only [setSession_sessions] at ht
    split at ht
    · next hsid =>
      rw [hsid, hclose]
      cases m <;> rfl
    · exact ht
  | @drainFence sid | @drainPhase sid =>
    left
    simp only [setSession_sessions] at ht
    split at ht
    · next hsid =>
      rw [hsid]
      exact ht
    · exact ht
  | @close sid | @accept sid | @reject sid | @reopen sid | @fail sid | @fence sid | @wait sid =>
    left
    simp only [setSession_sessions] at ht
    split at ht
    · cases m <;> cases ht
    · exact ht
  | _ => exact .inl ht

/-- A key leaves its map with its shard. -/
theorem Change.swept (h : Change shards s t) {m : Route} {k : Key} (ht : t.swept shards m k = true) :
    s.swept shards m k = true ∨ (t.handlers m).get? k = none := by
  cases h with
  | disconnect => cases m <;> simp [State.swept] at ht
  | failed hclose =>
    left
    unfold State.disconnect at ht
    split at ht
    · cases m <;> exact ht
    · cases m <;> simp [State.swept, State.setSession] at ht
  | @clearTools n hs =>
    cases m with
    | binding => simp [State.swept] at ht
    | name =>
      by_cases hk : (shards.tools k).val = n
      · right
        show (s.tools.filter _).get? k = none
        rw [KeyMap.get?_filter_eq]
        cases s.tools.get? k <;> simp [hk]
      · left
        simp only [State.swept, decide_eq_true_eq] at ht
        simp only [State.swept, hs, decide_eq_true_eq]
        omega
  | @clearBindings n hs =>
    cases m with
    | name => exact .inl (by simp only [State.swept, hs])
    | binding =>
      by_cases hk : (shards.bindings k).val = n
      · right
        show (s.bindings.filter _).get? k = none
        rw [KeyMap.get?_filter_eq]
        cases s.bindings.get? k <;> simp [hk]
      · left
        simp only [State.swept, decide_eq_true_eq] at ht
        simp only [State.swept, hs, decide_eq_true_eq]
        omega
  | @toolsCleared n hs hn =>
    cases m with
    | binding => simp [State.swept] at ht
    | name =>
      left
      have hlt := (shards.tools k).isLt
      simp only [State.swept, hs, decide_eq_true_eq]
      omega
  | @bindingsCleared n hs hn =>
    left
    cases m with
    | name => simp only [State.swept, hs]
    | binding =>
      have hlt := (shards.bindings k).isLt
      simp only [State.swept, hs, decide_eq_true_eq]
      omega
  | clearLocks hs | drainFence hs | drainPhase hs | drained hs =>
    left
    cases m <;> simp only [State.swept, hs]
  | _ => cases m <;> exact .inl ht

/-- The maps of a live session only change with its registrations. -/
theorem Change.handlers (hf : Fenced s) (h : Change shards s t) (m : Route) {k : Key} (hl : t.Live k.1) :
    (t.handlers m).get? k = (s.handlers m).get? k := by
  have hl' := (h.released hf hl).1
  have hne : ∀ {sid : String}, (s.sessions sid).close.tears = true → k.1 ≠ sid := by
    rintro sid htears rfl
    exact absurd ((Close.fits_tears (hf.fits k.1) htears).symm.trans hl'.phase) Bool.noConfusion
  cases h with
  | @retainTools sid hclose =>
    have hne := hne (by rw [hclose]; rfl)
    cases m with
    | binding => rfl
    | name =>
      show (s.tools.filter _).get? k = s.tools.get? k
      rw [KeyMap.get?_filter_eq]
      cases s.tools.get? k <;> simp [hne]
  | @retainBindings sid hclose =>
    have hne := hne (by rw [hclose]; rfl)
    cases m with
    | name => rfl
    | binding =>
      show (s.bindings.filter _).get? k = s.bindings.get? k
      rw [KeyMap.get?_filter_eq]
      cases s.bindings.get? k <;> simp [hne]
  | clearTools | clearBindings => exact absurd hl.closed Bool.noConfusion
  | failed =>
    unfold State.disconnect State.setSession
    split <;> cases m <;> rfl
  | _ => cases m <;> rfl

theorem Change.ran (h : Change shards s t) {p : ToolExecuteHostParams} {tool : Tool} (ht : (p, tool) ∈ t.ran) :
    (p, tool) ∈ s.ran ∨ s.handler p = some tool := by
  cases h with
  | invoke h =>
    obtain ht | ht := List.mem_append.mp ht
    · exact .inl ht
    · obtain ⟨rfl, rfl⟩ := Prod.mk.inj (List.mem_singleton.mp ht)
      exact .inr h
  | failed =>
    left
    unfold State.disconnect State.setSession at ht
    split at ht <;> exact ht
  | _ => exact .inl ht

end Change

/-- What is registered stays registered. -/
theorem Registered.mono {staged : Staged Tool} {s t : State Tool} {sid bindingId : String} {tool : Tool}
    (h : Registered staged s sid bindingId tool)
    (ht : ∀ {j : Nat} {q : Registration Tool}, s.registrations[j]? = some q →
      ∃ q' ∈ t.registrations, q.Same q') : Registered staged t sid bindingId tool := by
  obtain hg | ⟨r, hr, hsid, hid, htool⟩ := h
  · exact .inl hg
  · obtain ⟨j, hj⟩ := List.mem_iff_getElem?.mp hr
    obtain ⟨q', hq', hsame⟩ := ht hj
    exact .inr ⟨q', hq', hsame.sid.trans hsid, hsame.bindingId.trans hid, hsame.tool.trans htool⟩

theorem Routes.move {staged : Staged Tool} {s u : State Tool} (hf : Fenced s) (hi : Issued s)
    (h : Routes shards staged s) {i : Nat} {r r' : Registration Tool} (hr : s.registrations[i]? = some r)
    (hm : Move s r r' u) : Routes shards staged (u.put i r') := by
  have hmono : ∀ {sid bindingId : String} {tool : Tool}, Registered staged s sid bindingId tool →
      Registered staged (u.put i r') sid bindingId tool := fun hreg => hreg.mono fun hq => by
    obtain ⟨q', hq', hsame, -⟩ := hm.after hr hq
    exact ⟨q', List.mem_of_getElem? hq', hsame⟩
  obtain ⟨r₁, hr₁, -, -, hself⟩ := hm.after hr hr
  obtain rfl := hself rfl
  have hput : ∀ m, (u.put i r₁).handlers m = u.handlers m := fun m => by cases m <;> rfl
  constructor
  case owner =>
    intro sid bindingId tool hk
    show bindingId ∈ u.issued ∧ _
    rw [hm.issued]
    obtain hk | ⟨hkey, rfl⟩ := hm.bindings_some hk
    · exact ⟨(h.owner hk).1, hmono (h.owner hk).2⟩
    · obtain ⟨rfl, rfl⟩ := Prod.mk.inj hkey
      exact ⟨hi.issued hr, .inr ⟨r₁, List.mem_of_getElem? hr₁, hm.same.sid, hm.same.bindingId, hm.same.tool⟩⟩
  case mayBind =>
    intro j q hq hstage
    show u.bindings.get? q.bindingKey = none
    obtain ⟨rfl, rfl⟩ | ⟨hj, hq⟩ := hm.get hq
    · rw [hm.same.bindingKey]
      exact hm.mayBind hstage (h.mayBind hr)
    · rw [hm.bindings_ne]
      · exact h.mayBind hq hstage
      · exact fun heq => hj (hi.distinct hq hr (congrArg Prod.snd heq))
  case gone =>
    intro m k hgone
    have hgone : (s.sessions k.1).close.gone m = true := by
      rw [← hm.sessions]
      exact hgone
    rw [hput]
    cases hk : (u.handlers m).get? k with
    | none => rfl
    | some tool =>
      obtain hk | ⟨rfl, hp, -⟩ := hm.handlers_some hk
      · rw [h.gone hgone] at hk
        cases hk
      · -- the session of the registration is live
        rw [r.route_sid] at hgone
        have hdead := Close.fits_tears (hf.fits r.sid) (Close.tears_of_gone hgone)
        exact absurd (hdead.symm.trans (hf.held hr hp)) Bool.noConfusion
  case swept =>
    intro m k hswept hk
    rw [hput] at hk
    have hswept : s.swept shards m k = true := hm.swept (by cases m <;> exact hswept)
    have hc := State.closed_of_swept hswept
    obtain ⟨tool, htool⟩ := Option.ne_none_iff_exists'.mp hk
    obtain hold | ⟨rfl, -, hleaves⟩ := hm.handlers_some htool
    · obtain ⟨j, q, hq, rfl, hleaves⟩ := h.swept hswept (by rw [hold]; exact Option.some_ne_none _)
      obtain ⟨q', hq', hsame, hne, heq⟩ := hm.after hr hq
      by_cases hj : j = i
      · subst hj
        obtain rfl := Option.some.inj (hr.symm.trans hq)
        obtain rfl := heq rfl
        obtain hleaves | hnone := hm.leaves hc hleaves
        · exact ⟨j, q', hq', hsame.route m, hleaves⟩
        · exact absurd hnone hk
      · exact ⟨j, q', hq', hsame.route m, by rw [hne hj]; exact hleaves⟩
    · exact ⟨i, r₁, hr₁, hm.same.route m, hleaves hc⟩
  case ran =>
    intro p tool hp bindingId hb
    obtain ⟨sid, hsid, hreg⟩ := h.ran (by rw [← hm.ran]; exact hp) hb
    exact ⟨sid, hsid, hmono hreg⟩

theorem Routes.change {staged : Staged Tool} {s t : State Tool} (h : Routes shards staged s)
    (hc : Change shards s t) : Routes shards staged t := by
  have hmono : ∀ {sid bindingId : String} {tool : Tool}, Registered staged s sid bindingId tool →
      Registered staged t sid bindingId tool := by
    unfold Registered
    rw [hc.registrations]
    exact id
  have hnone : ∀ {m : Route} {k : Key}, (s.handlers m).get? k = none → (t.handlers m).get? k = none := by
    intro m k hk
    cases hk' : (t.handlers m).get? k with
    | none => rfl
    | some tool => exact absurd ((hc.handlers_some hk').symm.trans hk) (Option.some_ne_none _)
  constructor
  case owner =>
    intro sid bindingId tool hk
    rw [hc.issued]
    obtain ⟨hid, hreg⟩ := h.owner (hc.handlers_some (m := .binding) hk)
    exact ⟨hid, hmono hreg⟩
  case mayBind =>
    intro i r hr hstage
    rw [hc.registrations] at hr
    exact hnone (m := .binding) (h.mayBind hr hstage)
  case gone =>
    intro m k hgone
    obtain hgone | hk := hc.gone hgone
    · exact hnone (h.gone hgone)
    · exact hk
  case swept =>
    intro m k hswept hk
    rw [hc.registrations]
    obtain hswept | hk' := hc.swept hswept
    · exact h.swept hswept fun hk' => hk (hnone hk')
    · exact absurd hk' hk
  case ran =>
    intro p tool hp bindingId hb
    obtain hp | hp := hc.ran hp
    · obtain ⟨sid, hsid, hreg⟩ := h.ran hp hb
      exact ⟨sid, hsid, hmono hreg⟩
    · -- an invocation with a binding id never falls back to a name
      unfold State.handler at hp
      rw [hb] at hp
      cases hsid : p.thread with
      | none =>
        rw [hsid] at hp
        cases hp
      | some sid =>
        rw [hsid] at hp
        exact ⟨sid, rfl, hmono (h.owner hp).2⟩

theorem Routes.step {staged : Staged Tool} {s t : State Tool} {e : Event} (hf : Fenced s) (hi : Issued s)
    (h : Routes shards staged s) (hst : Step name shards s e t) : Routes shards staged t := by
  obtain ⟨i, r, r', u, hr, hm, rfl, -⟩ | ⟨sid, tool, bindingId, hid, rfl⟩ | rfl | hc := hst.cases
  · exact h.move hf hi hr hm
  · have hmono : ∀ {sid' bindingId' : String} {tool' : Tool}, Registered staged s sid' bindingId' tool' →
        Registered staged { s with
          registrations := s.registrations ++ [{ sid, name := name tool, tool, bindingId }],
          issued := bindingId :: s.issued } sid' bindingId' tool' := fun hreg => hreg.mono fun {j q} hq =>
      ⟨q, List.mem_append_left _ (List.mem_of_getElem? hq), rfl, rfl, rfl, rfl⟩
    constructor
    case owner =>
      intro sid' bindingId' tool' hk
      exact ⟨List.mem_cons_of_mem _ (h.owner hk).1, hmono (h.owner hk).2⟩
    case mayBind =>
      intro i r hr hstage
      obtain hr | ⟨-, rfl⟩ := get_snoc hr
      · exact h.mayBind hr hstage
      · -- the binding id is new
        show s.bindings.get? (sid, bindingId) = none
        cases hk : s.bindings.get? (sid, bindingId) with
        | none => rfl
        | some tool' => exact absurd (h.owner hk).1 hid
    case gone =>
      intro m k hgone
      have hnone := h.gone (m := m) hgone
      cases m <;> exact hnone
    case swept =>
      intro m k hswept hk
      obtain ⟨i, r, hr, hkey, hleaves⟩ := h.swept (m := m) (k := k) (by cases m <;> exact hswept)
        (by cases m <;> exact hk)
      refine ⟨i, r, ?_, hkey, hleaves⟩
      show (s.registrations ++ _)[i]? = some r
      rw [List.getElem?_append_left (List.getElem?_eq_some_iff.mp hr).1]
      exact hr
    case ran =>
      intro p tool' hp bindingId' hb
      obtain ⟨sid', hsid, hreg⟩ := h.ran hp hb
      exact ⟨sid', hsid, hmono hreg⟩
  · exact h
  · exact h.change hc

end Whale.ToolRegistration
