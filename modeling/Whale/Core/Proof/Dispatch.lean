import Whale.Core.Proof.Calls

/-!
# Tool dispatch is gated and ordered

`Batch.Inv` is what the calls of a batch share: each is where its checks allow (`CallState.Ok`), the
barrier is held by shared guards or by one exclusive guard alone, the progress has one record for each
recorded execution and `completed` one entry for each call that completed. From it and from the rank of
a batch follows `tool_dispatch_gated`.
-/

namespace Whale

open Check

namespace Batch

/-! ## Lists around one call -/

theorem filterMap_middle {α β : Type} (f : α → Option β) (before after : List α) (a : α) :
    (before ++ a :: after).filterMap f =
      before.filterMap f ++ ((f a).toList ++ after.filterMap f) := by
  rw [List.filterMap_append, List.filterMap_cons]
  cases f a <;> rfl

theorem perm_insert {α : Type} (before after xs ys : List α) :
    (before ++ ((xs ++ ys) ++ after)).Perm ((before ++ (xs ++ after)) ++ ys) := by
  rw [List.append_assoc, List.append_assoc, List.append_assoc]
  exact ((List.perm_append_comm).append_left xs).append_left before

/-- The results of the completed calls, with their indices from `index` on. -/
def doneFrom : Nat → List CallState → List (Nat × CanonicalItem)
  | _, [] => []
  | index, s :: ss => s.phase.result?.toList.map (index, ·) ++ doneFrom (index + 1) ss

theorem doneFrom_append (xs ys : List CallState) (index : Nat) :
    doneFrom index (xs ++ ys) = doneFrom index xs ++ doneFrom (index + xs.length) ys := by
  induction xs generalizing index with
  | nil => simp [doneFrom]
  | cons x xs ih =>
    rw [List.cons_append, doneFrom, doneFrom, ih, List.append_assoc, List.length_cons,
      Nat.add_right_comm, Nat.add_assoc]

theorem le_of_mem_doneFrom {ss : List CallState} {index : Nat} {x : Nat × CanonicalItem}
    (h : x ∈ doneFrom index ss) : index ≤ x.1 := by
  induction ss generalizing index with
  | nil => simp [doneFrom] at h
  | cons s ss ih =>
    rcases List.mem_append.1 h with h | h
    · obtain ⟨r, -, rfl⟩ := List.mem_map.1 h
      exact le_rfl
    · exact Nat.le_of_succ_le (ih h)

theorem doneFrom_sorted (ss : List CallState) (index : Nat) :
    (doneFrom index ss).Pairwise fun x y => x.1 < y.1 := by
  induction ss generalizing index with
  | nil => exact .nil
  | cons s ss ih =>
    refine List.pairwise_append.2 ⟨?_, ih _, fun x hx y hy => ?_⟩
    · cases s.phase.result? <;> simp
    · obtain ⟨r, -, rfl⟩ := List.mem_map.1 hx
      exact le_of_mem_doneFrom hy

/-- One entry for each index. -/
theorem doneFrom_inj {ss : List CallState} {index : Nat} {x y : Nat × CanonicalItem}
    (hx : x ∈ doneFrom index ss) (hy : y ∈ doneFrom index ss) (he : x.1 = y.1) : x = y := by
  induction ss generalizing index with
  | nil => simp [doneFrom] at hx
  | cons s ss ih =>
    rcases List.mem_append.1 hx with hx | hx <;> rcases List.mem_append.1 hy with hy | hy
    · obtain ⟨r, hr, rfl⟩ := List.mem_map.1 hx
      obtain ⟨r', hr', rfl⟩ := List.mem_map.1 hy
      rw [Option.mem_toList] at hr hr'
      rw [Option.mem_unique hr hr']
    · obtain ⟨r, -, rfl⟩ := List.mem_map.1 hx
      have := le_of_mem_doneFrom hy
      simp only at he
      omega
    · obtain ⟨r, -, rfl⟩ := List.mem_map.1 hy
      have := le_of_mem_doneFrom hx
      simp only at he
      omega
    · exact ih hx hy

/-- The results of a batch are those of its calls in call order. -/
theorem results_eq {b : Batch} (h : b.completed.Perm (doneFrom 0 b.calls)) :
    b.results = (doneFrom 0 b.calls).map (·.2) := by
  have hperm := (List.mergeSort_perm b.completed fun x y => decide (x.1 ≤ y.1)).trans h
  have hsorted : (b.completed.mergeSort fun x y => decide (x.1 ≤ y.1)).Pairwise
      fun x y => decide (x.1 ≤ y.1) = true :=
    List.pairwise_mergeSort (fun a b c => by simpa using Nat.le_trans)
      (fun a b => by simpa using Nat.le_total a.1 b.1) _
  have hdone : (doneFrom 0 b.calls).Pairwise fun x y => decide (x.1 ≤ y.1) = true :=
    (doneFrom_sorted b.calls 0).imp fun hlt => by simpa using Nat.le_of_lt hlt
  unfold results
  rw [List.Perm.eq_of_pairwise (fun x y hx hy hxy hyx => ?_) hsorted hdone hperm]
  exact doneFrom_inj (hperm.subset hx) hy
    (le_antisymm (by simpa using hxy) (by simpa using hyx))

/-! ## The invariant -/

/-- Shared guards, or one exclusive guard and nothing else; a writer outside holds the barrier
alone. -/
def Barrier (b : Batch) : Prop :=
  ((∀ g ∈ b.guards, g = true) ∧ (b.writer = true → b.guards = [] ∧ b.readers = 0)) ∨
  (b.guards = [false] ∧ b.readers = 0 ∧ b.writer = false)

theorem guards_middle {b : Batch} {before after : List CallState} {s : CallState}
    (h : b.calls = before ++ s :: after) :
    b.guards = before.filterMap (·.phase.guard) ++
      (s.phase.guard.toList ++ after.filterMap (·.phase.guard)) := by
  rw [guards, h, filterMap_middle]

theorem free_shared {b : Batch} (h : b.free true = true) :
    b.writer = false ∧ ∀ g ∈ b.guards, g = true := by
  simpa [free, List.all_eq_true] using h

theorem free_exclusive {b : Batch} (h : b.free false = true) :
    b.writer = false ∧ b.readers = 0 ∧ b.guards = [] := by
  simpa [free, and_assoc] using h

/-- A change of one call's guard keeps the barrier. -/
theorem Barrier.change {b b' : Batch} {before after : List CallState} {s s' : CallState}
    (h : b.Barrier) (hb : b.calls = before ++ s :: after) (hb' : b'.calls = before ++ s' :: after)
    (hr : b'.readers = b.readers) (hw : b'.writer = b.writer)
    (hg : GuardChange b.free s.phase.guard s'.phase.guard) : b'.Barrier := by
  have hguards := guards_middle hb
  have hguards' := guards_middle hb'
  unfold Barrier at h ⊢
  rw [hr, hw]
  generalize hgs : s.phase.guard = g at hg hguards
  generalize hgs' : s'.phase.guard = g' at hg hguards'
  cases hg with
  | keep => rwa [hguards', ← hguards]
  | release =>
    rw [hguards'] at *
    rw [hguards] at h
    rcases h with ⟨hall, houtside⟩ | ⟨hone, hzero, hnone⟩
    · refine .inl ⟨fun x hx => hall x ?_, fun hw => ?_⟩
      · simp only [List.mem_append] at hx ⊢
        tauto
      · obtain ⟨hnil, hzero⟩ := houtside hw
        simp only [List.append_eq_nil_iff] at hnil ⊢
        simp [hnil, hzero]
    · -- the only guard is the exclusive one
      cases g with
      | none => exact .inr ⟨hone, hzero, hnone⟩
      | some x =>
        refine .inl ⟨fun y hy => ?_, fun hw => by rw [hnone] at hw; cases hw⟩
        have hlen := congrArg List.length hone
        simp only [List.length_append, Option.toList_some, List.length_cons, List.length_nil] at hlen
        have hbefore := List.length_eq_zero_iff.1 (by omega :
          (before.filterMap fun t => t.phase.guard).length = 0)
        have hafter := List.length_eq_zero_iff.1 (by omega :
          (after.filterMap fun t => t.phase.guard).length = 0)
        rw [hbefore, hafter] at hy
        simp at hy
  | @take shared granted =>
    cases shared with
    | true =>
      obtain ⟨hw', hall⟩ := free_shared granted
      rw [hguards] at hall
      refine .inl ⟨fun x hx => ?_, fun hw => by rw [hw'] at hw; cases hw⟩
      rw [hguards'] at hx
      simp only [List.mem_append, Option.toList_some, List.mem_singleton, Option.toList_none,
        List.not_mem_nil, false_or] at hx hall
      rcases hx with hx | rfl | hx
      · exact hall x (.inl hx)
      · rfl
      · exact hall x (.inr hx)
    | false =>
      obtain ⟨hw', hzero, hnil⟩ := free_exclusive granted
      rw [hguards] at hnil
      simp only [List.append_eq_nil_iff, Option.toList_none] at hnil
      refine .inr ⟨?_, hzero, hw'⟩
      rw [hguards', hnil.1, hnil.2.2]
      rfl

section
variable [ToolJson]

/-- What the calls of a batch over `items` share. -/
structure Inv (c : Coordinator) (items : List CanonicalItem) (b : Batch) : Prop where
  calls : ∀ s ∈ b.calls, CallState.Ok c s
  items : b.calls.map (·.item) = items
  barrier : b.Barrier
  progress : b.progress.Perm (b.calls.filterMap (·.execution))
  completed : b.completed.Perm (doneFrom 0 b.calls)

theorem start_inv (c : Coordinator) (items : List CanonicalItem) : Inv c items (start items) where
  calls := fun s hs => by
    obtain ⟨item, -, rfl⟩ := List.mem_map.1 hs
    exact ⟨rfl, rfl, rfl⟩
  items := by simp [start, Function.comp_def]
  barrier := by
    have hnone : (start items).guards = [] := by
      simp [guards, start, CallPhase.guard]
    exact .inl ⟨by simp [hnone], fun h => (nomatch h)⟩
  progress := by simp [start]
  completed := by
    have hnone : ∀ (is : List CanonicalItem) (index : Nat),
        doneFrom index (is.map fun item => { item }) = [] := by
      intro is
      induction is with
      | nil => intro index; rfl
      | cons i is ih => intro index; simp [doneFrom, CallPhase.result?, ih]
    simp [start, hnone]

theorem Inv.step {c : Coordinator} {items : List CanonicalItem} {b b' : Batch} {e : CallEffect}
    (h : Inv c items b) (hstep : Step c b e b') : Inv c items b' := by
  cases hstep with
  | @call before after s s' _ which segment =>
    have hs := h.calls s (by simp [which])
    obtain ⟨hok, hitem⟩ := segment.ok hs
    refine ⟨fun t ht => ?_, ?_, ?_, ?_, ?_⟩
    · simp only [List.mem_append, List.mem_cons] at ht
      rcases ht with ht | rfl | ht
      · exact h.calls t (by simp [which, ht])
      · exact hok
      · exact h.calls t (by simp [which, ht])
    · rw [← h.items, which]
      simp [hitem]
    · exact h.barrier.change which rfl rfl rfl segment.guard
    · have hp := h.progress
      rw [which, filterMap_middle] at hp
      rw [filterMap_middle, segment.execution hs]
      exact (hp.append_right _).trans (perm_insert _ _ _ _).symm
    · obtain ⟨hnone, hfin⟩ := segment.finished
      have hp := h.completed
      rw [which, doneFrom_append, doneFrom, hnone] at hp
      rw [doneFrom_append, doneFrom, hfin, Nat.zero_add]
      simp only [Option.toList_none, List.map_nil, List.nil_append, Nat.zero_add] at hp
      refine (hp.append_right _).trans ?_
      simpa using (List.perm_append_comm.append_left (doneFrom 0 before))
  | cancel => exact ⟨h.calls, h.items, h.barrier, h.progress, h.completed⟩
  | readOutside guard =>
    obtain ⟨hw, hall⟩ := free_shared guard
    exact ⟨h.calls, h.items, .inl ⟨hall, fun hw' => by rw [hw] at hw'; cases hw'⟩, h.progress,
      h.completed⟩
  | writeOutside guard =>
    obtain ⟨-, hzero, hnil⟩ := free_exclusive guard
    have hnil' : ({ b with writer := true } : Batch).guards = [] := hnil
    exact ⟨h.calls, h.items, .inl ⟨by simp [hnil'], fun _ => ⟨hnil', hzero⟩⟩, h.progress,
      h.completed⟩
  | releaseRead =>
    refine ⟨h.calls, h.items, ?_, h.progress, h.completed⟩
    rcases h.barrier with ⟨hall, hout⟩ | ⟨hone, hzero, hnone⟩
    · refine .inl ⟨hall, fun hw => ⟨(hout hw).1, ?_⟩⟩
      show b.readers - 1 = 0
      rw [(hout hw).2]
    · refine .inr ⟨hone, ?_, hnone⟩
      show b.readers - 1 = 0
      rw [hzero]
  | releaseWrite =>
    refine ⟨h.calls, h.items, ?_, h.progress, h.completed⟩
    rcases h.barrier with ⟨hall, hout⟩ | ⟨hone, hzero, hnone⟩
    · exact .inl ⟨hall, fun hw => (nomatch hw)⟩
    · exact .inr ⟨hone, hzero, rfl⟩

omit [ToolJson] in
/-- The segments the calls have taken, at least. -/
def rank (b : Batch) : Nat := (b.calls.map (·.phase.rank)).sum

omit [ToolJson] in
theorem complete_iff {b : Batch} : b.complete = true ↔ ∀ s ∈ b.calls, s.phase.result?.isSome := by
  unfold complete
  rw [List.all_eq_true]
  refine forall_congr' fun s => imp_congr_right fun _ => ?_
  cases s.phase <;> simp [CallPhase.result?]

/-- A call that has not completed can go on, if it is not waiting for the barrier. -/
theorem Inv.enabled {c : Coordinator} {items : List CanonicalItem} {b : Batch} (h : Inv c items b)
    {s : CallState} (hs : s ∈ b.calls) (hopen : s.phase.result? = none)
    (hfree : ∀ inv, s.phase = .queued inv → b.free inv.handler.supportsParallel = true) :
    ∃ e s', CallStep c b.cancelled b.free s e s' := by
  have hok := h.calls s hs
  unfold CallState.Ok at hok
  cases hp : s.phase with
  | waiting => exact ⟨_, _, .prepare "" hp⟩
  | approving inv => exact ⟨_, _, .answer "" (.ok .accept) hp⟩
  | queued inv =>
    cases ht : b.cancelled with
    | true => exact ⟨_, _, .acquireCancelled "" hp (hfree inv hp) rfl⟩
    | false =>
      cases hj : c.journalled with
      | true => exact ⟨_, _, .acquireJournalled hp (hfree inv hp) rfl hj⟩
      | false => exact ⟨_, _, .acquire hp (hfree inv hp) rfl hj⟩
  | intending inv => exact ⟨_, _, .intent none hp⟩
  | announcing inv =>
    cases ht : b.cancelled with
    | true => exact ⟨_, _, .announcedCancelled "" hp rfl⟩
    | false => exact ⟨_, _, .dispatch hp rfl⟩
  | executing inv => exact ⟨_, _, .execute "" (.error "") hp⟩
  | settled result =>
    cases hj : c.journalled with
    | false => exact ⟨_, _, .finish hp hj⟩
    | true =>
      rw [hp] at hok
      obtain ⟨⟨callId, hr, -⟩, -⟩ := hok
      cases result with
      | toolResult id callId output isError =>
        exact ⟨_, _, @CallStep.outcome _ _ _ _ _ id id callId output isError hp hj⟩
      | _ => cases hr
  | done result => rw [hp] at hopen; cases hopen

/-- The results of a completed batch answer its calls in order. -/
theorem Inv.results {c : Coordinator} {items : List CanonicalItem} {b : Batch} (h : Inv c items b)
    (hcalls : ∀ i ∈ items, i.callId?.isSome) (hdone : b.complete = true) :
    b.results.map (·.resultId?) = items.map (·.callId?) := by
  have hall : ∀ (ss : List CallState) (index : Nat), (∀ s ∈ ss, CallState.Ok c s) →
      (∀ s ∈ ss, s.phase.result?.isSome) → (∀ s ∈ ss, s.item.callId?.isSome) →
      ((doneFrom index ss).map (·.2)).map (·.resultId?) = ss.map (·.item.callId?) := by
    intro ss
    induction ss with
    | nil => intro _ _ _ _; rfl
    | cons s ss ih =>
      intro index hok hres hcall
      obtain ⟨r, hr⟩ := Option.isSome_iff_exists.1 (hres s (by simp))
      have hs := hok s (by simp)
      obtain ⟨id, hid⟩ := Option.isSome_iff_exists.1 (hcall s (by simp))
      have hanswers : r.resultId? = some id := by
        unfold CallState.Ok at hs
        cases hp : s.phase with
        | done r' =>
          rw [hp] at hs hr
          cases hr
          obtain ⟨⟨callId, hcall, heq⟩, -⟩ := hs
          rw [hcall, heq id hid]
        | _ => rw [hp] at hr; cases hr
      simp only [doneFrom, hr, Option.toList_some, List.map_cons, List.map_nil,
        List.singleton_append, hid, hanswers]
      rw [ih (index + 1) (fun t ht => hok t (by simp [ht])) (fun t ht => hres t (by simp [ht]))
        (fun t ht => hcall t (by simp [ht]))]
  rw [results_eq h.completed, hall b.calls 0 h.calls (complete_iff.1 hdone)]
  · rw [← h.items, List.map_map]
    rfl
  · intro s hs
    exact hcalls s.item (by rw [← h.items]; exact List.mem_map_of_mem hs)

end

end Batch

open Batch

section
variable [ToolJson]

/-- How a handler came to be called: its tool is known, the arguments parse, the compiled schema
accepts both the original and the final ones, and where an approval is required it accepted the
original arguments or replaced them by the final ones. -/
structure Dispatched (c : Coordinator) (s : CallState) (inv : Invocation) : Prop where
  once : s.dispatched = [inv.arguments]
  admitted : Admitted c s.item inv
  schema : Accepts inv.handler inv.arguments
  approval : inv.handler.requireApproval = true →
    (s.answer = some (.ok .accept) ∧ inv.arguments = inv.original) ∨
    s.answer = some (.ok (.modifyArguments inv.arguments))
  recorded : s.execution = some inv.record

theorem Gated.dispatched {c : Coordinator} {s : CallState} {inv : Invocation} (h : Gated c s inv)
    (hd : s.dispatched = [inv.arguments]) (he : s.execution = some inv.record) :
    Dispatched c s inv where
  once := hd
  admitted := h.admitted
  schema := h.arguments
  approval := fun hr => by
    rcases h.approved with ⟨hno, -⟩ | hyes
    · rw [hno] at hr
      cases hr
    · exact hyes
  recorded := he

theorem CallState.Ok.dispatched {c : Coordinator} {s : CallState} (h : CallState.Ok c s) :
    s.dispatched = [] ∨ ∃ inv, Dispatched c s inv := by
  have hended : Ended c s → s.dispatched = [] ∨ ∃ inv, Dispatched c s inv := fun h => by
    cases h with
    | refused he hd => exact .inl hd
    | recorded hg he hd => exact .inl hd
    | executed hg he hd => exact .inr ⟨_, hg.dispatched hd he⟩
  unfold CallState.Ok at h
  cases hp : s.phase with
  | waiting => rw [hp] at h; exact .inl h.2.2
  | approving inv => rw [hp] at h; exact .inl h.2.2.2
  | queued inv => rw [hp] at h; exact .inl h.2.2
  | intending inv => rw [hp] at h; exact .inl h.2.2
  | announcing inv => rw [hp] at h; exact .inl h.2.2
  | executing inv => rw [hp] at h; exact .inr ⟨inv, h.1.dispatched h.2.2 h.2.1⟩
  | settled result => rw [hp] at h; exact hended h.2
  | done result => rw [hp] at h; exact hended h.2

end

namespace Sample

/-- JSON text and the schema of an object, on the sample's own inputs. -/
@[reducible] def toolJson : ToolJson where
  parse s := if s = "\x7b\x7d" then .ok (.object []) else .error "not a sample input"
  build schema :=
    if schema = .object [("type", .string "object")] then
      .ok fun v => if v.isObject then .ok () else .error "not of type object"
    else .error "not a sample input"

/-- A registry with one tool, which runs alone. -/
def coordinator : Coordinator where
  registry name := if name = "tool" then
    some { parameters := .object [("type", .string "object")], supportsParallel := false } else none
  sessionRegistry := none
  events := false
  journalled := false

def call : CanonicalItem := .toolCall "item" "call" none "tool" none "\x7b\x7d"

def invocation : Invocation :=
  ⟨"call", { parameters := .object [("type", .string "object")], supportsParallel := false },
    .object [], .object []⟩

def recorded : Batch where
  calls := [{ item := call, phase := .announcing invocation, execution := some invocation.record }]
  progress := [invocation.record]

def executed : Batch where
  calls := [{ item := call, phase := .executing invocation, execution := some invocation.record,
              dispatched := [.object []] }]
  progress := [invocation.record]

end Sample

end Whale
