import Mathlib.Data.List.Induction
import Whale.Daemon.Retirement

/-!
# Retirement selects the right runs

`RunTable.Inv`: a run that is being started is live under its identity and no other task has it, and a delivery
that the registry knows is that of the live run, behind its terminal event. The removal of a failed start then
takes its own run, which has no delivery (`Inv.step`).

`mem_candidates_iff`: a candidate is a live run with a known delivery, whose time is over or that has enough newer
ones of its session. The loop of `candidates` sorts the deliveries out by session (`SortedOut`), and of a sorted
list `take` leaves those with enough greater ones (`mem_take_sub_iff`).
-/

namespace Whale.Retirement

/-! ## Sorted lists -/

/-- The first elements of a sorted list are those with enough greater ones. -/
theorem mem_take_sub_iff {α β : Type} [LinearOrder β] {f : α → β} {l : List α}
    (h : l.Pairwise fun a b => f a < f b) {n : Nat} {x : α} :
    x ∈ l.take (l.length - n) ↔ x ∈ l ∧ n ≤ l.countP fun y => decide (f x < f y) := by
  constructor
  · intro hx
    have hmem := List.mem_of_mem_take hx
    refine ⟨hmem, ?_⟩
    -- all that is not taken is greater
    have hsplit := List.take_append_drop (l.length - n) l
    have hgreater : ∀ y ∈ l.drop (l.length - n), f x < f y := fun y hy => by
      rw [← hsplit] at h
      exact (List.pairwise_append.mp h).2.2 x hx y hy
    have hdrop : (l.drop (l.length - n)).countP (fun y => decide (f x < f y)) = l.length - (l.length - n) := by
      rw [List.countP_eq_length.mpr fun y hy => decide_eq_true (hgreater y hy), List.length_drop]
    have hlt : 0 < l.length - n := by
      rcases Nat.eq_zero_or_pos (l.length - n) with hzero | hpos
      · rw [hzero, List.take_zero] at hx
        cases hx
      · exact hpos
    rw [← hsplit, List.countP_append, hdrop]
    omega
  · rintro ⟨hx, hn⟩
    obtain ⟨l₁, l₂, rfl⟩ := List.append_of_mem hx
    obtain ⟨-, hright, hleft⟩ := List.pairwise_append.mp h
    have hnone : l₁.countP (fun y => decide (f x < f y)) = 0 := List.countP_eq_zero.mpr fun y hy => by
      simpa using (hleft y hy x List.mem_cons_self).le
    rw [List.countP_append, hnone, List.countP_cons_of_neg (by simp), Nat.zero_add] at hn
    have hle := hn.trans List.countP_le_length
    refine List.mem_take_iff_getElem.mpr ⟨l₁.length, ?_, ?_⟩
    · simp
      omega
    · simp

theorem deliveryRank_inj {a b : RunKey × Nat} (h : deliveryRank a = deliveryRank b) : a = b := by
  have h : (a.2, toLex a.1) = (b.2, toLex b.1) := h
  obtain ⟨hat, hkey⟩ := Prod.mk.inj h
  exact Prod.ext hkey hat

/-- The keys beyond the maximum are those with enough newer ones. -/
theorem mem_excess_iff {maximum : Nat} {records : List (RunKey × Nat)} (h : (records.map (·.1)).Nodup)
    {key : RunKey} : key ∈ excess maximum records ↔ ∃ deliveredAt, (key, deliveredAt) ∈ records ∧
      maximum ≤ records.countP fun y => decide (deliveryRank (key, deliveredAt) < deliveryRank y) := by
  have hperm := List.mergeSort_perm records fun a b => decide (deliveryRank a ≤ deliveryRank b)
  have hle := @List.pairwise_mergeSort _ (fun a b => decide (deliveryRank a ≤ deliveryRank b))
    (fun _ _ _ h h' => decide_eq_true ((of_decide_eq_true h).trans (of_decide_eq_true h')))
    (fun a b => by simpa using le_total (deliveryRank a) (deliveryRank b)) records
  have hne : (records.mergeSort fun a b => decide (deliveryRank a ≤ deliveryRank b)).Nodup :=
    hperm.nodup_iff.mpr (List.Nodup.of_map _ h)
  have hlt := (hle.and hne).imp fun {a b} h =>
    lt_of_le_of_ne (of_decide_eq_true h.1) fun he => h.2 (deliveryRank_inj he)
  unfold excess
  simp only [List.mem_map, mem_take_sub_iff hlt, hperm.mem_iff, hperm.countP_eq]
  constructor
  · rintro ⟨⟨key, deliveredAt⟩, hmem, rfl⟩
    exact ⟨deliveredAt, hmem⟩
  · rintro ⟨deliveredAt, hmem⟩
    exact ⟨_, hmem, rfl⟩

theorem nodup_excess {maximum : Nat} {records : List (RunKey × Nat)} (h : (records.map (·.1)).Nodup) :
    (excess maximum records).Nodup := by
  have hperm := List.mergeSort_perm records fun a b => decide (deliveryRank a ≤ deliveryRank b)
  exact ((List.take_sublist _ _).map _).nodup ((hperm.map _).nodup_iff.mpr h)

/-! ## Candidates -/

namespace RunRegistry

variable {r : RunRegistry} {policy : RunRetentionPolicy} {now : Nat}

/-- A known delivery of a live run. -/
def known (r : RunRegistry) (e : RunKey × Nat) : Bool := (r.live.get? e.1).isSome

/-- The known deliveries in a session whose time is not over. -/
def others (r : RunRegistry) (policy : RunRetentionPolicy) (now : Nat) (thread : String)
    (es : List (RunKey × Nat)) : List (RunKey × Nat) :=
  es.filter fun e => r.known e && !policy.aged now e.2 && e.1.1 == thread

/-- What the loop of `candidates` has after the deliveries `es`. -/
structure SortedOut (r : RunRegistry) (policy : RunRetentionPolicy) (now : Nat) (es : List (RunKey × Nat))
    (s : List RunKey × KeyMap String (List (RunKey × Nat))) : Prop where
  aged : s.1 = (es.filter fun e => r.known e && policy.aged now e.2).map (·.1)
  sessions : ∀ thread records, s.2.get? thread = some records ↔
    records = r.others policy now thread es ∧ records ≠ []

theorem SortedOut.step {es : List (RunKey × Nat)} {s : List RunKey × KeyMap String (List (RunKey × Nat))}
    (h : r.SortedOut policy now es s) (e : RunKey × Nat) :
    r.SortedOut policy now (es ++ [e]) (r.sortOut policy now s e) := by
  unfold sortOut
  split
  · rename_i hunknown
    have hunknown : r.known e = false := by simpa [known] using hunknown
    exact ⟨by rw [h.aged, List.filter_append]; simp [hunknown], fun thread records => by
      rw [h.sessions, others, others, List.filter_append]; simp [hunknown]⟩
  · rename_i hknown
    have hknown : r.known e = true := by simpa [known, Option.isSome_iff_ne_none] using hknown
    split
    · rename_i haged
      refine ⟨by rw [h.aged, List.filter_append]; simp [hknown, haged], fun thread records => ?_⟩
      rw [h.sessions, others, others, List.filter_append]
      simp [haged]
    · rename_i hyoung
      have hyoung : policy.aged now e.2 = false := by simpa using hyoung
      refine ⟨by rw [h.aged, List.filter_append]; simp [hyoung], fun thread records => ?_⟩
      have hold : (s.2.get? e.1.1).getD [] = r.others policy now e.1.1 es := by
        cases hget : s.2.get? e.1.1 with
        | some old => exact ((h.sessions _ _).mp hget).1
        | none =>
          by_contra hne
          rw [(h.sessions _ _).mpr ⟨rfl, Ne.symm hne⟩] at hget
          cases hget
      rw [KeyMap.get?_insert, hold, h.sessions]
      unfold others
      rw [List.filter_append]
      by_cases hthread : thread = e.1.1
      · subst hthread
        simp only [List.filter_cons, hknown, hyoung, Bool.not_false, Bool.and_self, beq_self_eq_true, if_true,
          List.filter_nil, true_and, ne_eq, not_true_eq_false, and_false, or_false]
        refine ⟨fun h => ⟨h, ?_⟩, And.left⟩
        rw [h]
        exact List.append_ne_nil_of_right_ne_nil _ (List.cons_ne_nil _ _)
      · simp [hthread, Ne.symm hthread]

theorem foldl_sortOut (r : RunRegistry) (policy : RunRetentionPolicy) (now : Nat) (es : List (RunKey × Nat)) :
    r.SortedOut policy now es (es.foldl (r.sortOut policy now) ([], .empty)) := by
  induction es using List.reverseRecOn with
  | nil => exact ⟨rfl, fun thread records => by simp [others]⟩
  | append_singleton es e ih =>
    rw [List.foldl_append]
    exact ih.step e

/-- The deliveries have every key once. -/
theorem nodup_others (r : RunRegistry) (policy : RunRetentionPolicy) (now : Nat) (thread : String) :
    ((r.others policy now thread r.delivered.entries).map (·.1)).Nodup :=
  (List.filter_sublist.map _).nodup r.delivered.nodup

/-- The deliveries of a registry, sorted out. -/
def sortedOut (r : RunRegistry) (policy : RunRetentionPolicy) (now : Nat) :
    List RunKey × KeyMap String (List (RunKey × Nat)) :=
  r.delivered.entries.foldl (r.sortOut policy now) ([], .empty)

theorem mem_aged_iff {key : RunKey} {run : RunRef} (hlive : r.live.get? key = some run) :
    key ∈ (r.sortedOut policy now).1 ↔
      ∃ deliveredAt, r.delivered.get? key = some deliveredAt ∧ policy.aged now deliveredAt = true := by
  have hknown : ∀ deliveredAt, r.known (key, deliveredAt) = true := fun _ => by
    rw [known, hlive]
    rfl
  rw [sortedOut, (foldl_sortOut r policy now _).aged, List.mem_map]
  constructor
  · rintro ⟨⟨key, deliveredAt⟩, hmem, rfl⟩
    obtain ⟨hmem, hold⟩ := List.mem_filter.mp hmem
    exact ⟨deliveredAt, KeyMap.get?_eq_some_iff.mpr hmem, (Bool.and_eq_true_iff.mp hold).2⟩
  · rintro ⟨deliveredAt, hget, hold⟩
    exact ⟨(key, deliveredAt), List.mem_filter.mpr ⟨KeyMap.get?_eq_some_iff.mp hget, by
      rw [hknown, hold]
      rfl⟩, rfl⟩

/-- The number of newer deliveries in the session of one. -/
def newer (r : RunRegistry) (policy : RunRetentionPolicy) (now : Nat) (e : RunKey × Nat) : Nat :=
  (r.others policy now e.1.1 r.delivered.entries).countP fun y => decide (deliveryRank e < deliveryRank y)

theorem mem_beyond_iff {key : RunKey} {run : RunRef} (hlive : r.live.get? key = some run) {maximum : Nat} :
    key ∈ List.flatMap (fun s => excess maximum s.2) (r.sortedOut policy now).2.entries ↔
      ∃ deliveredAt, r.delivered.get? key = some deliveredAt ∧ policy.aged now deliveredAt = false ∧
        maximum ≤ r.newer policy now (key, deliveredAt) := by
  have hknown : ∀ deliveredAt, r.known (key, deliveredAt) = true := fun _ => by
    rw [known, hlive]
    rfl
  have hsessions := (foldl_sortOut r policy now r.delivered.entries).sessions
  rw [List.mem_flatMap]
  constructor
  · rintro ⟨⟨thread, records⟩, hmem, hkey⟩
    obtain ⟨rfl, -⟩ := (hsessions _ _).mp (KeyMap.get?_eq_some_iff.mpr hmem)
    obtain ⟨deliveredAt, hother, hnewer⟩ := (mem_excess_iff (nodup_others r policy now thread)).mp hkey
    obtain ⟨hdelivered, hyoung⟩ := List.mem_filter.mp hother
    simp only [Bool.and_eq_true, Bool.not_eq_true', beq_iff_eq] at hyoung
    obtain ⟨⟨-, hyoung⟩, rfl⟩ := hyoung
    exact ⟨deliveredAt, KeyMap.get?_eq_some_iff.mpr hdelivered, hyoung, hnewer⟩
  · rintro ⟨deliveredAt, hget, hyoung, hnewer⟩
    have hother : (key, deliveredAt) ∈ r.others policy now key.1 r.delivered.entries :=
      List.mem_filter.mpr ⟨KeyMap.get?_eq_some_iff.mp hget, by simp [hknown, hyoung]⟩
    exact ⟨(key.1, _), KeyMap.get?_eq_some_iff.mp ((hsessions _ _).mpr ⟨rfl, List.ne_nil_of_mem hother⟩),
      (mem_excess_iff (nodup_others r policy now key.1)).mpr ⟨deliveredAt, hother, hnewer⟩⟩

/-- The keys `candidates` retires. -/
def selected (r : RunRegistry) (policy : RunRetentionPolicy) (now : Nat) : List RunKey :=
  match policy.maxTerminalRunsPerSession with
  | some maximum => (r.sortedOut policy now).1 ++
      List.flatMap (fun s => excess maximum s.2) (r.sortedOut policy now).2.entries
  | none => (r.sortedOut policy now).1

theorem candidates_eq (r : RunRegistry) (policy : RunRetentionPolicy) (now : Nat) :
    r.candidates policy now = (r.selected policy now).filterMap fun key =>
      (r.live.get? key).map fun run => ⟨key, run⟩ := rfl

/-- A live run with a known delivery is selected when its time is over, and otherwise when its session has at
least the maximum of newer ones. -/
theorem mem_candidates_iff {c : RetirementCandidate} : c ∈ r.candidates policy now ↔
    r.live.get? c.key = some c.run ∧ ∃ deliveredAt, r.delivered.get? c.key = some deliveredAt ∧
      (policy.aged now deliveredAt = true ∨ policy.aged now deliveredAt = false ∧ ∃ maximum,
        policy.maxTerminalRunsPerSession = some maximum ∧ maximum ≤ r.newer policy now (c.key, deliveredAt)) := by
  have hmem : c ∈ r.candidates policy now ↔ r.live.get? c.key = some c.run ∧ c.key ∈ r.selected policy now := by
    rw [candidates_eq, List.mem_filterMap]
    constructor
    · rintro ⟨key, hkey, hc⟩
      obtain ⟨run, hrun, rfl⟩ := Option.map_eq_some_iff.mp hc
      exact ⟨hrun, hkey⟩
    · rintro ⟨hrun, hkey⟩
      exact ⟨c.key, hkey, by rw [hrun]; rfl⟩
  rw [hmem]
  refine and_congr_right fun hlive => ?_
  unfold selected
  cases policy.maxTerminalRunsPerSession with
  | none =>
    dsimp only
    rw [mem_aged_iff hlive]
    constructor
    · rintro ⟨deliveredAt, hget, hold⟩
      exact ⟨deliveredAt, hget, .inl hold⟩
    · rintro ⟨deliveredAt, hget, hold | ⟨-, _, hnone, -⟩⟩
      · exact ⟨deliveredAt, hget, hold⟩
      · cases hnone
  | some maximum =>
    dsimp only
    rw [List.mem_append, mem_aged_iff hlive, mem_beyond_iff hlive]
    constructor
    · rintro (⟨deliveredAt, hget, hold⟩ | ⟨deliveredAt, hget, hyoung, hnewer⟩)
      · exact ⟨deliveredAt, hget, .inl hold⟩
      · exact ⟨deliveredAt, hget, .inr ⟨hyoung, maximum, rfl, hnewer⟩⟩
    · rintro ⟨deliveredAt, hget, hold | ⟨hyoung, _, hmax, hnewer⟩⟩
      · exact .inl ⟨deliveredAt, hget, hold⟩
      · cases hmax
        exact .inr ⟨deliveredAt, hget, hyoung, hnewer⟩

/-- No run is selected twice. -/
theorem nodup_selected (r : RunRegistry) (policy : RunRetentionPolicy) (now : Nat) :
    (r.selected policy now).Nodup := by
  obtain ⟨haged, hsessions⟩ := foldl_sortOut r policy now r.delivered.entries
  have hfirst : (r.sortedOut policy now).1.Nodup := by
    rw [sortedOut, haged]
    exact (List.filter_sublist.map _).nodup r.delivered.nodup
  have hrecords : ∀ s ∈ (r.sortedOut policy now).2.entries, s.2 = r.others policy now s.1 r.delivered.entries :=
    fun s hs => ((hsessions _ _).mp (KeyMap.get?_eq_some_iff.mpr hs)).1
  have hkey : ∀ s ∈ (r.sortedOut policy now).2.entries, ∀ maximum, ∀ key ∈ excess maximum s.2,
      key.1 = s.1 ∧ ∃ deliveredAt, r.delivered.get? key = some deliveredAt ∧
        policy.aged now deliveredAt = false := fun s hs maximum key hkey => by
    rw [hrecords s hs, mem_excess_iff (nodup_others r policy now s.1)] at hkey
    obtain ⟨deliveredAt, hother, -⟩ := hkey
    obtain ⟨hdelivered, hyoung⟩ := List.mem_filter.mp hother
    simp only [Bool.and_eq_true, Bool.not_eq_true', beq_iff_eq] at hyoung
    exact ⟨hyoung.2, deliveredAt, KeyMap.get?_eq_some_iff.mpr hdelivered, hyoung.1.2⟩
  unfold selected
  cases policy.maxTerminalRunsPerSession with
  | none => exact hfirst
  | some maximum =>
    refine List.nodup_append.mpr ⟨hfirst, List.nodup_flatMap.mpr ⟨fun s hs => ?_, ?_⟩, ?_⟩
    · rw [hrecords s hs]
      exact nodup_excess (nodup_others r policy now s.1)
    · -- two sessions have no key in common
      have hdistinct := List.pairwise_map.mp (r.sortedOut policy now).2.nodup
      refine hdistinct.imp_of_mem fun {s t} hs ht hne => ?_
      intro key hks hkt
      exact hne ((hkey s hs maximum key hks).1.symm.trans (hkey t ht maximum key hkt).1)
    · rintro key hfirst _ hbeyond rfl
      obtain ⟨s, hs, hin⟩ := List.mem_flatMap.mp hbeyond
      obtain ⟨-, deliveredAt, hget, hyoung⟩ := hkey s hs maximum key hin
      rw [sortedOut, haged, List.mem_map] at hfirst
      obtain ⟨⟨key, deliveredAt'⟩, hmem, rfl⟩ := hfirst
      obtain ⟨hmem, hold⟩ := List.mem_filter.mp hmem
      rw [KeyMap.get?_eq_some_iff.mpr hmem] at hget
      cases hget
      rw [(Bool.and_eq_true_iff.mp hold).2] at hyoung
      cases hyoung

theorem nodup_candidates (r : RunRegistry) (policy : RunRetentionPolicy) (now : Nat) :
    ((r.candidates policy now).map (·.key)).Nodup := by
  have hsub : ((r.candidates policy now).map (·.key)).Sublist (r.selected policy now) := by
    rw [candidates_eq, List.map_filterMap]
    have hkeep : (r.selected policy now).filterMap (fun key =>
        ((r.live.get? key).map fun run => (⟨key, run⟩ : RetirementCandidate)).map (·.key)) =
        (r.selected policy now).filter fun key => (r.live.get? key).isSome := by
      rw [← List.filterMap_eq_filter]
      refine List.filterMap_congr fun key _ => ?_
      cases h : r.live.get? key with
      | none => simp [Option.guard, h]
      | some run => simp [Option.guard, h]
    rw [hkeep]
    exact List.filter_sublist
  exact hsub.nodup (nodup_selected r policy now)

/-- A stale candidate is left alone. -/
theorem retire_stale {c : RetirementCandidate} (h : r.live.get? c.key ≠ some c.run) :
    r.retire c = (false, r) := by
  unfold retire
  rw [if_neg (by simpa using h)]

end RunRegistry

/-! ## Runs of the table -/

namespace RunTable

/-- The registry knows the runs that are being started, and of the others only deliveries of their own. -/
structure Inv (s : RunTable) : Prop where
  key : ∀ key run, s.registry.live.get? key = some run → run.key = key
  starting : ∀ run ∈ s.starting, s.registry.live.get? run.key = some run
  startingOnce : s.starting.Nodup
  fresh : ∀ run, (∃ key, s.registry.live.get? key = some run) ∨ run ∈ s.running ∨
    (∃ deliveredAt, (run, deliveredAt) ∈ s.ended) → run.address < s.nextAddress
  startingAlone : ∀ run ∈ s.starting, run ∉ s.running ∧ ∀ deliveredAt, (run, deliveredAt) ∉ s.ended
  runningOnce : s.running.Nodup
  runningAlone : ∀ run ∈ s.running, ∀ deliveredAt, (run, deliveredAt) ∉ s.ended
  delivered : ∀ key deliveredAt, s.registry.delivered.get? key = some deliveredAt →
    ∃ run, s.registry.live.get? key = some run ∧ (run, deliveredAt) ∈ s.ended
  swept : ∀ c ∈ s.swept, c.run.key = c.key ∧ ∃ deliveredAt, (c.run, deliveredAt) ∈ s.ended

theorem inv_new : Inv {} where
  key := nofun
  starting := nofun
  startingOnce := .nil
  fresh := by
    rintro run (⟨key, hkey⟩ | hrun | ⟨_, hended⟩)
    · cases hkey
    · cases hrun
    · cases hended
  startingAlone := nofun
  runningOnce := .nil
  runningAlone := nofun
  delivered := nofun
  swept := nofun

variable {s s' : RunTable}

/-- A run with a known delivery is not being started. -/
theorem Inv.not_starting (h : s.Inv) {key : RunKey} {deliveredAt : Nat} {run : RunRef}
    (hdelivered : s.registry.delivered.get? key = some deliveredAt)
    (hlive : s.registry.live.get? key = some run) : run ∉ s.starting := fun hstarting => by
  obtain ⟨run', hlive', hended⟩ := h.delivered key deliveredAt hdelivered
  rw [hlive] at hlive'
  cases hlive'
  exact (h.startingAlone run hstarting).2 _ hended

theorem Inv.step (h : s.Inv) (hs : Step s s') : s'.Inv := by
  cases hs with
  | @insert run address unexpired free =>
    -- no run so far has its address
    have hnew : ∀ other : RunRef, other.address < s.nextAddress → other ≠ run := by
      rintro other hlt rfl
      omega
    have hlive : ∀ key other, s.registry.live.get? key = some other → key ≠ run.key := by
      rintro key other hget rfl
      rw [free] at hget
      cases hget
    refine ⟨fun key other hget => ?_, fun other hother => ?_, ?_, fun other hother => ?_, fun other hother => ?_,
      h.runningOnce, h.runningAlone, fun key deliveredAt hdelivered => ?_, h.swept⟩
    · rcases KeyMap.get?_insert.mp hget with ⟨rfl, rfl⟩ | ⟨hget, -⟩
      · rfl
      · exact h.key key other hget
    · rcases List.mem_cons.mp hother with rfl | hother
      · exact KeyMap.get?_insert_self
      · have hget := h.starting other hother
        exact KeyMap.get?_insert.mpr (.inr ⟨hget, hlive _ _ hget⟩)
    · exact List.nodup_cons.mpr ⟨fun hin => hlive _ _ (h.starting run hin) rfl, h.startingOnce⟩
    · rcases hother with ⟨key, hget⟩ | hrest
      · rcases KeyMap.get?_insert.mp hget with ⟨-, rfl⟩ | ⟨hget, -⟩
        · exact address ▸ Nat.lt_succ_self _
        · exact Nat.lt_succ_of_lt (h.fresh other (.inl ⟨key, hget⟩))
      · exact Nat.lt_succ_of_lt (h.fresh other (.inr hrest))
    · rcases List.mem_cons.mp hother with rfl | hother
      · exact ⟨fun hin => hnew _ (h.fresh _ (.inr (.inl hin))) rfl,
          fun deliveredAt hin => hnew _ (h.fresh _ (.inr (.inr ⟨deliveredAt, hin⟩))) rfl⟩
      · exact h.startingAlone other hother
    · obtain ⟨other, hget, hended⟩ := h.delivered key deliveredAt hdelivered
      exact ⟨other, KeyMap.get?_insert.mpr (.inr ⟨hget, hlive key other hget⟩), hended⟩
  | @started run starting =>
    obtain ⟨hnot, hquiet⟩ := h.startingAlone run starting
    refine ⟨h.key, fun other hother => h.starting other (List.mem_of_mem_erase hother), h.startingOnce.erase run,
      fun other hother => ?_, fun other hother => ?_, List.nodup_cons.mpr ⟨hnot, h.runningOnce⟩,
      fun other hother => ?_, h.delivered, h.swept⟩
    · rcases hother with hlive | hrunning | hended
      · exact h.fresh other (.inl hlive)
      · rcases List.mem_cons.mp hrunning with rfl | hrunning
        · exact h.fresh _ (.inl ⟨_, h.starting _ starting⟩)
        · exact h.fresh other (.inr (.inl hrunning))
      · exact h.fresh other (.inr (.inr hended))
    · obtain ⟨hne, hother⟩ := (List.Nodup.mem_erase_iff h.startingOnce).mp hother
      obtain ⟨hnot', hquiet'⟩ := h.startingAlone other hother
      exact ⟨fun hin => (List.mem_cons.mp hin).elim hne hnot', hquiet'⟩
    · rcases List.mem_cons.mp hother with rfl | hother
      · exact hquiet
      · exact h.runningAlone other hother
  | @fail run starting =>
    -- what is removed is the run itself, and no delivery is known of it
    have hown := h.starting run starting
    refine ⟨fun key other hget => h.key key other (KeyMap.get?_erase.mp hget).1, fun other hother => ?_,
      h.startingOnce.erase run, fun other hother => ?_, fun other hother =>
        h.startingAlone other (List.mem_of_mem_erase hother), h.runningOnce, h.runningAlone,
      fun key deliveredAt hdelivered => ?_, h.swept⟩
    · obtain ⟨hne, hother⟩ := (List.Nodup.mem_erase_iff h.startingOnce).mp hother
      have hget := h.starting other hother
      refine KeyMap.get?_erase.mpr ⟨hget, fun hsame => hne ?_⟩
      rw [hsame, hown] at hget
      exact (Option.some.inj hget).symm
    · rcases hother with ⟨key, hget⟩ | hrest
      · exact h.fresh other (.inl ⟨key, (KeyMap.get?_erase.mp hget).1⟩)
      · exact h.fresh other (.inr hrest)
    · obtain ⟨other, hget, hended⟩ := h.delivered key deliveredAt hdelivered
      refine ⟨other, KeyMap.get?_erase.mpr ⟨hget, ?_⟩, hended⟩
      rintro rfl
      exact h.not_starting hdelivered hown starting
  | @deliver run running =>
    have hstarting : ∀ other ∈ s.starting, ∀ deliveredAt, (other, deliveredAt) ∉ (run, s.now) :: s.ended := by
      rintro other hother deliveredAt hin
      rcases List.mem_cons.mp hin with he | hin
      · cases he
        exact (h.startingAlone _ hother).1 running
      · exact (h.startingAlone other hother).2 _ hin
    have hlive : (s.registry.deliver run s.now).live = s.registry.live := by
      unfold RunRegistry.deliver
      split
      · split <;> rfl
      · rfl
    refine ⟨hlive ▸ h.key, hlive ▸ h.starting, h.startingOnce, fun other hother => ?_,
      fun other hother => ⟨fun hin => (h.startingAlone other hother).1 (List.mem_of_mem_erase hin),
        hstarting other hother⟩, h.runningOnce.erase run, fun other hother deliveredAt hin => ?_,
      fun key deliveredAt hdelivered => ?_, fun c hc => ?_⟩
    · rw [hlive] at hother
      rcases hother with hget | hrunning | ⟨deliveredAt, hended⟩
      · exact h.fresh other (.inl hget)
      · exact h.fresh other (.inr (.inl (List.mem_of_mem_erase hrunning)))
      · rcases List.mem_cons.mp hended with he | hended
        · cases he
          exact h.fresh run (.inr (.inl running))
        · exact h.fresh other (.inr (.inr ⟨deliveredAt, hended⟩))
    · obtain ⟨hne, hother⟩ := (List.Nodup.mem_erase_iff h.runningOnce).mp hother
      rcases List.mem_cons.mp hin with he | hin
      · cases he
        exact hne rfl
      · exact h.runningAlone other hother _ hin
    · rw [hlive]
      have hold : s.registry.delivered.get? key = some deliveredAt → ∃ other,
          s.registry.live.get? key = some other ∧ (other, deliveredAt) ∈ (run, s.now) :: s.ended := fun hdelivered => by
        obtain ⟨other, hget, hended⟩ := h.delivered key deliveredAt hdelivered
        exact ⟨other, hget, List.mem_cons_of_mem _ hended⟩
      unfold RunRegistry.deliver at hdelivered
      split at hdelivered
      · rename_i hsame
        split at hdelivered
        · exact hold hdelivered
        · rcases KeyMap.get?_insert.mp hdelivered with ⟨rfl, rfl⟩ | ⟨hdelivered, -⟩
          · exact ⟨run, by simpa using hsame, List.mem_cons_self⟩
          · exact hold hdelivered
      · exact hold hdelivered
    · obtain ⟨hkey, deliveredAt, hended⟩ := h.swept c hc
      exact ⟨hkey, deliveredAt, List.mem_cons_of_mem _ hended⟩
  | @drop run running =>
    refine ⟨h.key, h.starting, h.startingOnce, fun other hother => ?_, fun other hother =>
      ⟨fun hin => (h.startingAlone other hother).1 (List.mem_of_mem_erase hin), (h.startingAlone other hother).2⟩,
      h.runningOnce.erase run, fun other hother => h.runningAlone other (List.mem_of_mem_erase hother),
      h.delivered, h.swept⟩
    rcases hother with hget | hrunning | hended
    · exact h.fresh other (.inl hget)
    · exact h.fresh other (.inr (.inl (List.mem_of_mem_erase hrunning)))
    · exact h.fresh other (.inr (.inr hended))
  | @removeSession thread owner settled =>
    refine ⟨fun key other hget => h.key key other (KeyMap.get?_filter.mp hget).1, fun other hother => ?_,
      h.startingOnce, fun other hother => ?_, h.startingAlone, h.runningOnce, h.runningAlone,
      fun key deliveredAt hdelivered => ?_, h.swept⟩
    · refine KeyMap.get?_filter.mpr ⟨h.starting other hother, ?_⟩
      have hsettled := settled other hother
      simp only [Bool.or_eq_true, bne_iff_ne]
      by_cases hthread : other.threadId = thread
      · exact .inr fun howner => hsettled ⟨hthread, howner⟩
      · exact .inl hthread
    · rcases hother with ⟨key, hget⟩ | hrest
      · exact h.fresh other (.inl ⟨key, (KeyMap.get?_filter.mp hget).1⟩)
      · exact h.fresh other (.inr hrest)
    · obtain ⟨hdelivered, hkept⟩ := KeyMap.get?_filter.mp hdelivered
      obtain ⟨other, hget, hended⟩ := h.delivered key deliveredAt hdelivered
      obtain ⟨other', hother'⟩ := Option.isSome_iff_exists.mp hkept
      refine ⟨other, ?_, hended⟩
      have hsame := (KeyMap.get?_filter.mp hother').1
      rw [hget] at hsame
      cases hsame
      exact hother'
  | sweep policy =>
    refine ⟨h.key, h.starting, h.startingOnce, h.fresh, h.startingAlone, h.runningOnce, h.runningAlone, h.delivered,
      fun c hc => ?_⟩
    rcases List.mem_append.mp hc with hc | hc
    · obtain ⟨hlive, deliveredAt, hdelivered, -⟩ := RunRegistry.mem_candidates_iff.mp hc
      obtain ⟨run, hget, hended⟩ := h.delivered _ _ hdelivered
      rw [hlive] at hget
      cases hget
      exact ⟨h.key _ _ hlive, deliveredAt, hended⟩
    · exact h.swept c hc
  | @retire c swept =>
    by_cases hcurrent : s.registry.live.get? c.key = some c.run
    · have hretire : (s.registry.retire c).2 = {
          live := s.registry.live.erase c.key
          expired := s.registry.expired.insert c.key c.run.owner
          delivered := s.registry.delivered.erase c.key } := by
        unfold RunRegistry.retire
        rw [if_pos (by simpa using hcurrent)]
      obtain ⟨-, deliveredAt, hended⟩ := h.swept c swept
      refine ⟨fun key other hget => ?_, fun other hother => ?_, h.startingOnce, fun other hother => ?_,
        h.startingAlone, h.runningOnce, h.runningAlone, fun key at_ hdelivered => ?_, h.swept⟩
      · rw [hretire] at hget
        exact h.key key other (KeyMap.get?_erase.mp hget).1
      · rw [hretire]
        have hget := h.starting other hother
        refine KeyMap.get?_erase.mpr ⟨hget, fun hsame => ?_⟩
        rw [hsame, hcurrent] at hget
        cases hget
        exact (h.startingAlone _ hother).2 _ hended
      · rw [hretire] at hother
        rcases hother with ⟨key, hget⟩ | hrest
        · exact h.fresh other (.inl ⟨key, (KeyMap.get?_erase.mp hget).1⟩)
        · exact h.fresh other (.inr hrest)
      · rw [hretire] at hdelivered ⊢
        obtain ⟨hdelivered, hne⟩ := KeyMap.get?_erase.mp hdelivered
        obtain ⟨other, hget, hended⟩ := h.delivered key at_ hdelivered
        exact ⟨other, KeyMap.get?_erase.mpr ⟨hget, hne⟩, hended⟩
    · rw [RunRegistry.retire_stale hcurrent]
      exact ⟨h.key, h.starting, h.startingOnce, h.fresh, h.startingAlone, h.runningOnce, h.runningAlone, h.delivered,
        h.swept⟩
  | tick elapsed =>
    exact ⟨h.key, h.starting, h.startingOnce, h.fresh, h.startingAlone, h.runningOnce, h.runningAlone, h.delivered,
      h.swept⟩

end RunTable

/-- **Retirement selects the right runs.** In every reachable registry a known delivery is that of the live run
under its key, whose terminal event was delivered then. `candidates` has no key twice and selects the live runs
with a known delivery whose time is over, and of the others of a session all but the newest. A stale candidate
changes nothing. -/
theorem run_retirement {labels : List Unit} {s : RunTable}
    (run : Lts.Run (fun s (_ : Unit) s' => RunTable.Step s s') {} labels s) :
    (∀ key deliveredAt, s.registry.delivered.get? key = some deliveredAt → ∃ run,
      s.registry.live.get? key = some run ∧ run.key = key ∧ (run, deliveredAt) ∈ s.ended) ∧
    (∀ policy now, ((s.registry.candidates policy now).map (·.key)).Nodup ∧
      ∀ c, c ∈ s.registry.candidates policy now ↔ s.registry.live.get? c.key = some c.run ∧
        ∃ deliveredAt, s.registry.delivered.get? c.key = some deliveredAt ∧
          (policy.aged now deliveredAt = true ∨ policy.aged now deliveredAt = false ∧ ∃ maximum,
            policy.maxTerminalRunsPerSession = some maximum ∧
            maximum ≤ s.registry.newer policy now (c.key, deliveredAt))) ∧
    ∀ c, s.registry.live.get? c.key ≠ some c.run → s.registry.retire c = (false, s.registry) := by
  have hinv := run.invariant RunTable.Inv (fun _ _ _ h hs => h.step hs) RunTable.inv_new
  refine ⟨fun key deliveredAt hdelivered => ?_, fun policy now =>
    ⟨RunRegistry.nodup_candidates _ _ _, fun c => RunRegistry.mem_candidates_iff⟩,
    fun c hc => RunRegistry.retire_stale hc⟩
  obtain ⟨run, hlive, hended⟩ := hinv.delivered key deliveredAt hdelivered
  exact ⟨run, hlive, hinv.key key run hlive, hended⟩

namespace Sample

/-- Two runs of a session, one after the other. -/
def first : RunRef := ⟨0, "owner", "thread", "first"⟩

def second : RunRef := ⟨1, "owner", "thread", "second"⟩

/-- Both are delivered, the second one later. -/
def bothDelivered : RunTable where
  registry := {
    live := (KeyMap.empty.insert first.key first).insert second.key second
    delivered := (KeyMap.empty.insert first.key 0).insert second.key 5 }
  nextAddress := 2
  ended := [(second, 5), (first, 0)]
  now := 5

/-- The table behind the two starts. -/
def bothStarted : RunTable where
  registry := { live := (KeyMap.empty.insert first.key first).insert second.key second }
  nextAddress := 2
  running := [second, first]

theorem bothStarted_run : Lts.Run (fun s (_ : Unit) s' => RunTable.Step s s') {} (List.replicate 4 ())
    bothStarted :=
  .cons (@RunTable.Step.insert _ first rfl rfl rfl) <|
  .cons (@RunTable.Step.started _ first (.head _)) <|
  .cons (@RunTable.Step.insert _ second rfl rfl rfl) <|
  .single (@RunTable.Step.started _ second (.head _))

theorem bothDelivered_run : Lts.Run (fun s (_ : Unit) s' => RunTable.Step s s') {} (List.replicate 7 ())
    bothDelivered :=
  bothStarted_run.append <|
  .cons (@RunTable.Step.deliver _ first (.tail _ (.head _))) <| .cons (.tick 5) <|
  .single (@RunTable.Step.deliver _ second (.head _))

end Sample

/-- Of two delivered runs of a session that keeps one, the older is the candidate. -/
theorem run_retirement_older : ⟨Sample.first.key, Sample.first⟩ ∈
    Sample.bothDelivered.registry.candidates { maxTerminalRunsPerSession := some 1 } 5 := by
  obtain ⟨-, hcandidates, -⟩ := run_retirement Sample.bothDelivered_run
  exact ((hcandidates _ _).2 _).mpr ⟨by decide, 0, by decide, .inr ⟨rfl, 1, rfl, by decide⟩⟩

end Whale.Retirement
