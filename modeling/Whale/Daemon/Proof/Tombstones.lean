import Mathlib.Data.List.Nodup
import Whale.Daemon.Catalog
import Whale.Lib.Greedy
import Whale.Lib.Run

/-!
# Which tombstones go

Of the closed sessions of an owner, the unprotected ones whose time is over go, and then the shortest prefix of
the other unprotected ones after which the bounds hold (`Prunes`). `tombstones` computes that
(`tombstones_prunes`): the loop's counters are the count and the bytes of what is retained at every turn
(`Pressure.Exact`), so it is a greedy scan.
-/

namespace Whale

open Check

namespace ClosedSession

/-- The bounds hold. -/
def Within (limits : ManagementLimits) (cs : List ClosedSession) : Prop :=
  cs.length ≤ limits.maxClosedTombstones ∧ (cs.map (·.bytes)).sum ≤ limits.maxClosedTombstoneBytes

instance (limits : ManagementLimits) (cs : List ClosedSession) : Decidable (Within limits cs) :=
  inferInstanceAs (Decidable (_ ∧ _))

/-- The unprotected sessions whose time is over, and the other unprotected ones. -/
def overdue (limits : ManagementLimits) (now : Nat) (protectedRecord : Option Nat) (closed : List ClosedSession) :
    List ClosedSession :=
  closed.filter fun c => !c.exempt protectedRecord && c.aged limits now

def young (limits : ManagementLimits) (now : Nat) (protectedRecord : Option Nat)
    (closed : List ClosedSession) : List ClosedSession :=
  closed.filter fun c => !c.exempt protectedRecord && !c.aged limits now

/-- What is retained when some sessions are removed. -/
def without (closed removed : List ClosedSession) : List ClosedSession :=
  closed.filter fun c => decide (c ∉ removed)

/-- What a pruning removes: the sessions whose time is over, and the shortest prefix of the others after which
the bounds hold or no unprotected session is left. -/
structure Prunes (limits : ManagementLimits) (now : Nat) (protectedRecord : Option Nat)
    (closed removed : List ClosedSession) (k : Nat) : Prop where
  removed_eq : removed =
    overdue limits now protectedRecord closed ++ (young limits now protectedRecord closed).take k
  le : k ≤ (young limits now protectedRecord closed).length
  enough : Within limits (without closed removed) ∨ k = (young limits now protectedRecord closed).length
  least : ∀ m, m < k → ¬ Within limits (without closed
    (overdue limits now protectedRecord closed ++ (young limits now protectedRecord closed).take m))

/-- Ordinals tell the sessions of a catalog apart. -/
def Numbered (closed : List ClosedSession) : Prop := (closed.map (·.ordinal)).Nodup

variable {limits : ManagementLimits} {now : Nat} {protectedRecord : Option Nat} {closed : List ClosedSession}

theorem foldl_bytes {cs : List ClosedSession} {total : Nat} (h : total + (cs.map (·.bytes)).sum ≤ u64Max) :
    cs.foldl (fun total c => saturatingAdd total c.bytes) total = total + (cs.map (·.bytes)).sum := by
  induction cs generalizing total with
  | nil => rfl
  | cons c cs ih =>
    rw [List.map_cons, List.sum_cons] at h
    have hadd : saturatingAdd total c.bytes = total + c.bytes := Nat.min_eq_left (by omega)
    rw [List.foldl_cons, hadd, ih (by omega), List.map_cons, List.sum_cons]
    omega

/-- Sizes that add up within the machine word are added exactly. -/
theorem totalBytes_eq {cs : List ClosedSession} (h : (cs.map (·.bytes)).sum ≤ u64Max) :
    totalBytes cs = (cs.map (·.bytes)).sum := by
  rw [totalBytes, foldl_bytes (by omega), Nat.zero_add]

theorem Numbered.eq_of_ordinal (h : Numbered closed) {a b : ClosedSession} (ha : a ∈ closed) (hb : b ∈ closed)
    (heq : a.ordinal = b.ordinal) : a = b :=
  List.inj_on_of_nodup_map h ha hb heq

theorem Numbered.nodup (h : Numbered closed) : closed.Nodup := List.Nodup.of_map _ h

/-- A session is among some of the catalog as soon as its ordinal is. -/
theorem Numbered.ordinal_mem (h : Numbered closed) {c : ClosedSession} (hc : c ∈ closed)
    {some : List ClosedSession} (hsub : some ⊆ closed) : c.ordinal ∈ some.map (·.ordinal) ↔ c ∈ some := by
  refine ⟨fun hm => ?_, List.mem_map_of_mem⟩
  obtain ⟨d, hd, heq⟩ := List.mem_map.1 hm
  rwa [← h.eq_of_ordinal (hsub hd) hc heq]

/-- The sessions are those removed and those retained. -/
theorem Numbered.perm_without (h : Numbered closed) {removed : List ClosedSession}
    (hsub : removed.Sublist closed) : closed.Perm (removed ++ without closed removed) := by
  have hremoved : (closed.filter fun c => decide (c ∈ removed)).Perm removed := by
    refine (List.perm_ext_iff_of_nodup (h.nodup.filter _) (hsub.nodup h.nodup)).2 fun c => ?_
    rw [List.mem_filter, decide_eq_true_eq, and_iff_right_iff_imp]
    exact fun hc => hsub.subset hc
  have hsplit := List.filter_append_perm (fun c => decide (c ∈ removed)) closed
  have hrest : (closed.filter fun c => !decide (c ∈ removed)) = without closed removed :=
    List.filter_congr fun c _ => by simp
  rw [hrest] at hsplit
  exact hsplit.symm.trans (hremoved.append_right _)

/-- Removing another session: the retained ones are it and the ones still retained. -/
theorem Numbered.without_cons (h : Numbered closed) {removed : List ClosedSession} {c : ClosedSession}
    (hc : c ∈ closed) (hnew : c ∉ removed) :
    (without closed removed).Perm (c :: without closed (removed ++ [c])) := by
  have herase : without closed (removed ++ [c]) = (without closed removed).erase c := by
    have hnodup : (without closed removed).Nodup := h.nodup.filter _
    rw [List.Nodup.erase_eq_filter hnodup, without, without, List.filter_filter]
    refine List.filter_congr fun d _ => ?_
    rw [Bool.eq_iff_iff]
    simp [not_or, and_comm]
  rw [herase]
  exact List.perm_cons_erase (List.mem_filter.2 ⟨hc, by simpa using hnew⟩)

end ClosedSession

open ClosedSession

namespace Pressure

variable {limits : ManagementLimits} {now : Nat} {protectedRecord : Option Nat} {closed : List ClosedSession}

/-- The loop has removed these sessions, and its counters are the count and the bytes of the others. -/
structure Exact (closed removed : List ClosedSession) (p : Pressure) : Prop where
  remove : p.remove = removed.map (·.ordinal)
  count : p.retainedCount = (without closed removed).length
  bytes : p.retainedBytes = ((without closed removed).map (·.bytes)).sum

/-- The loop stops exactly when the bounds hold. -/
theorem Exact.within {removed : List ClosedSession} {p : Pressure} (h : Exact closed removed p) :
    (p.retainedCount ≤ limits.maxClosedTombstones ∧ p.retainedBytes ≤ limits.maxClosedTombstoneBytes) ↔
      Within limits (without closed removed) := by
  rw [h.count, h.bytes, Within]
  omega

/-- Removing another session does not underflow and keeps the counters exact. -/
theorem Exact.take {removed : List ClosedSession} {p : Pressure} (h : Exact closed removed p)
    (hn : ClosedSession.Numbered closed) {c : ClosedSession} (hc : c ∈ closed) (hnew : c ∉ removed) :
    1 ≤ p.retainedCount ∧ c.bytes ≤ p.retainedBytes ∧
      Exact closed (removed ++ [c]) ⟨p.remove ++ [c.ordinal], p.retainedCount - 1, p.retainedBytes - c.bytes⟩ := by
  have hperm := hn.without_cons hc hnew
  have hlen := hperm.length_eq
  have hsum := (hperm.map fun c : ClosedSession => c.bytes).sum_nat
  rw [List.length_cons] at hlen
  rw [List.map_cons, List.sum_cons] at hsum
  have hcount := h.count
  have hbytes := h.bytes
  refine ⟨by omega, by omega, ?_, ?_, ?_⟩
  · simp [h.remove]
  · show p.retainedCount - 1 = _
    omega
  · show p.retainedBytes - c.bytes = _
    omega

/-- Before the loop. -/
theorem start_exact (hn : ClosedSession.Numbered closed) (hbytes : (closed.map (·.bytes)).sum ≤ u64Max)
    {removed : List ClosedSession} (hsub : removed.Sublist closed) :
    Exact closed removed (start closed (removed.map (·.ordinal))) := by
  have hkept : closed.filter (fun c => !(removed.map (·.ordinal)).contains c.ordinal) =
      without closed removed := by
    refine List.filter_congr fun c hc => ?_
    have hmem := hn.ordinal_mem hc hsub.subset
    rw [Bool.eq_iff_iff]
    simp only [Bool.not_eq_true', ← Bool.not_eq_true, List.contains_iff_mem, decide_eq_true_eq]
    exact not_congr hmem
  refine ⟨rfl, ?_, ?_⟩
  · show ((closed.length - (removed.map (·.ordinal)).length : Nat) : Int) = _
    have hcount := (hn.perm_without hsub).length_eq
    rw [List.length_append] at hcount
    rw [List.length_map]
    omega
  · show totalBytes _ = _
    rw [hkept]
    have hsum := ((hn.perm_without hsub).map fun c : ClosedSession => c.bytes).sum_nat
    rw [List.map_append, List.sum_append] at hsum
    exact totalBytes_eq (by omega)

/-- The loop is a scan that takes an unprotected session while the bounds do not hold. -/
theorem Exact.relieve (hn : ClosedSession.Numbered closed) :
    ∀ {cs done : List ClosedSession} {p : Pressure},
      Exact closed (overdue limits now protectedRecord closed ++ done) p → done ⊆ closed →
      (∀ c ∈ cs, c ∈ closed ∧ c ∉ done) → ClosedSession.Numbered cs →
      Exact closed (overdue limits now protectedRecord closed ++ Greedy.scan (fun _ => false)
          (fun done => !decide (Within limits (without closed (overdue limits now protectedRecord closed ++ done))))
          done (young limits now protectedRecord cs))
        (relieve limits protectedRecord cs p)
  | [], done, p, h, _, _, _ => h
  | c :: cs, done, p, h, hdone, hcs, hnum => by
    obtain ⟨hclosed, hnew⟩ := hcs c List.mem_cons_self
    obtain ⟨hfirst, hrest⟩ := List.nodup_cons.1 hnum
    have hcs' : ∀ d ∈ cs, d ∈ closed ∧ d ∉ done := fun d hd => hcs d (List.mem_cons_of_mem _ hd)
    have hsub : overdue limits now protectedRecord closed ++ done ⊆ closed :=
      List.append_subset.2 ⟨List.filter_sublist.subset, hdone⟩
    have hmem : p.remove.contains c.ordinal = (!c.exempt protectedRecord && c.aged limits now) := by
      rw [h.remove, Bool.eq_iff_iff, List.contains_iff_mem, hn.ordinal_mem hclosed hsub, List.mem_append, overdue,
        List.mem_filter]
      simp [hclosed, hnew]
    unfold Pressure.relieve
    by_cases hwithin : Within limits (without closed (overdue limits now protectedRecord closed ++ done))
    · rw [if_pos (h.within.2 hwithin), Greedy.scan_stop (by simpa using hwithin) fun _ _ => rfl]
      exact h
    · rw [if_neg fun hp => hwithin (h.within.1 hp), hmem]
      by_cases hkeep : (!c.exempt protectedRecord && !c.aged limits now) = true
      · -- the session is unprotected and its time is not over: it goes
        have hskip : (!c.exempt protectedRecord && c.aged limits now || c.exempt protectedRecord) = false := by
          simp only [Bool.and_eq_true, Bool.not_eq_true'] at hkeep
          rw [hkeep.1, hkeep.2]
          rfl
        have hfresh : c ∉ overdue limits now protectedRecord closed ++ done := by
          simp only [List.mem_append, not_or, overdue, List.mem_filter, not_and]
          refine ⟨fun _ haged => ?_, hnew⟩
          rw [haged] at hskip
          cases hskip
        obtain ⟨-, -, htaken⟩ := h.take hn hclosed hfresh
        rw [List.append_assoc] at htaken
        have hscan : young limits now protectedRecord (c :: cs) =
            c :: young limits now protectedRecord cs := List.filter_cons_of_pos hkeep
        rw [if_neg (by rw [hskip]; decide), hscan, Greedy.scan, if_pos (by simpa using hwithin)]
        refine Exact.relieve hn htaken (List.append_subset.2 ⟨hdone, by simpa using hclosed⟩) (fun d hd => ?_) hrest
        refine ⟨(hcs' d hd).1, fun hin => ?_⟩
        rcases List.mem_append.1 hin with hin | hin
        · exact (hcs' d hd).2 hin
        · rw [List.mem_singleton.1 hin] at hd
          exact hfirst (List.mem_map_of_mem hd)
      · have hskip : (!c.exempt protectedRecord && c.aged limits now || c.exempt protectedRecord) = true := by
          cases hexempt : c.exempt protectedRecord <;> cases haged : c.aged limits now <;> simp_all
        have hscan : young limits now protectedRecord (c :: cs) = young limits now protectedRecord cs :=
          List.filter_cons_of_neg hkeep
        rw [if_pos hskip, hscan]
        exact Exact.relieve hn h hdone hcs' hrest

/-- Whatever the counters say, the loop adds unprotected sessions it has not removed yet, each once. -/
theorem relieve_remove : ∀ {cs : List ClosedSession} {p : Pressure}, ClosedSession.Numbered cs →
    ∃ more : List ClosedSession, (relieve limits protectedRecord cs p).remove = p.remove ++ more.map (·.ordinal) ∧
      more.Sublist cs ∧ ∀ c ∈ more, c.ordinal ∉ p.remove ∧ c.exempt protectedRecord = false
  | [], p, _ => ⟨[], by simp [Pressure.relieve], .slnil, by simp⟩
  | c :: cs, p, hn => by
    obtain ⟨hfirst, hrest⟩ := List.nodup_cons.1 hn
    unfold Pressure.relieve
    split
    · exact ⟨[], by simp, List.nil_sublist _, by simp⟩
    · split
      · obtain ⟨more, hremove, hsub, hmore⟩ := @relieve_remove cs p hrest
        exact ⟨more, hremove, hsub.cons _, hmore⟩
      · rename_i hskip
        simp only [Bool.or_eq_true, not_or, List.contains_iff_mem, Bool.not_eq_true] at hskip
        obtain ⟨more, hremove, hsub, hmore⟩ := @relieve_remove cs
          ⟨p.remove ++ [c.ordinal], p.retainedCount - 1, p.retainedBytes - c.bytes⟩ hrest
        refine ⟨c :: more, by rw [hremove]; simp, hsub.cons_cons c, fun d hd => ?_⟩
        rcases List.mem_cons.1 hd with rfl | hd
        · exact hskip
        · obtain ⟨hnew, hexempt⟩ := hmore d hd
          exact ⟨fun hin => hnew (List.mem_append_left _ hin), hexempt⟩

end Pressure

/-- Whatever their sizes, `tombstones` names unprotected sessions, each once. -/
theorem tombstones_sub (limits : ManagementLimits) (now : Nat) (protectedRecord : Option Nat)
    {closed : List ClosedSession} (hn : ClosedSession.Numbered closed) :
    ∃ removed : List ClosedSession, tombstones limits now protectedRecord closed = removed.map (·.ordinal) ∧
      removed ⊆ closed ∧ (removed.map (·.ordinal)).Nodup ∧ ∀ c ∈ removed, c.exempt protectedRecord = false := by
  obtain ⟨more, hremove, hsub, hmore⟩ : ∃ more : List ClosedSession,
      (Pressure.relieve limits protectedRecord closed
        (.start closed (expired limits now protectedRecord closed))).remove = _ ++ more.map (·.ordinal) ∧ _ :=
    Pressure.relieve_remove hn
  have hover : (overdue limits now protectedRecord closed).Sublist closed := List.filter_sublist
  refine ⟨overdue limits now protectedRecord closed ++ more, ?_, ?_, ?_, fun c hc => ?_⟩
  · rw [tombstones, hremove, List.map_append]
    rfl
  · exact List.append_subset.2 ⟨hover.subset, hsub.subset⟩
  · rw [List.map_append]
    refine List.nodup_append.2 ⟨(hover.map _).nodup hn, (hsub.map _).nodup hn, fun a ha b hb heq => ?_⟩
    obtain ⟨c, hc, rfl⟩ := List.mem_map.1 hb
    exact (hmore c hc).1 (heq ▸ ha)
  · rcases List.mem_append.1 hc with hc | hc
    · have := (List.mem_filter.1 hc).2
      simp only [Bool.and_eq_true, Bool.not_eq_true'] at this
      exact this.1
    · exact (hmore c hc).2

/-- The counters are exact at every turn of the loop. -/
theorem Pressure.relieve_exact (limits : ManagementLimits) (now : Nat) (protectedRecord : Option Nat)
    {visited rest : List ClosedSession} (hn : ClosedSession.Numbered (visited ++ rest))
    (hbytes : ((visited ++ rest).map (·.bytes)).sum ≤ u64Max) :
    ∃ removed, Pressure.Exact (visited ++ rest) removed (relieve limits protectedRecord visited
      (.start (visited ++ rest) (expired limits now protectedRecord (visited ++ rest)))) := by
  have hover : (overdue limits now protectedRecord (visited ++ rest)).Sublist (visited ++ rest) :=
    List.filter_sublist
  have hstart : Pressure.Exact (visited ++ rest) (overdue limits now protectedRecord (visited ++ rest) ++ [])
      (.start (visited ++ rest) (expired limits now protectedRecord (visited ++ rest))) := by
    rw [List.append_nil]
    exact Pressure.start_exact hn hbytes hover
  have hvisited : ClosedSession.Numbered visited := by
    refine List.Nodup.sublist ?_ hn
    exact (List.sublist_append_left visited rest).map _
  exact ⟨_, Exact.relieve hn hstart (by simp) (fun c hc => ⟨List.mem_append_left _ hc, by simp⟩) hvisited⟩

/-- What `tombstones` removes. -/
theorem tombstones_prunes (limits : ManagementLimits) (now : Nat) (protectedRecord : Option Nat)
    {closed : List ClosedSession} (hn : ClosedSession.Numbered closed)
    (hbytes : (closed.map (·.bytes)).sum ≤ u64Max) :
    ∃ removed k, Prunes limits now protectedRecord closed removed k ∧
      tombstones limits now protectedRecord closed = removed.map (·.ordinal) := by
  have hover : (overdue limits now protectedRecord closed).Sublist closed := List.filter_sublist
  have hstart : Pressure.Exact closed (overdue limits now protectedRecord closed ++ [])
      (.start closed (expired limits now protectedRecord closed)) := by
    rw [List.append_nil]
    exact Pressure.start_exact hn hbytes hover
  have hloop := Pressure.Exact.relieve hn hstart (by simp) (fun c hc => ⟨hc, by simp⟩) hn
  obtain ⟨k, hleast, hscan⟩ := @Greedy.scan_least _ (fun _ => false)
    (fun done => !decide (Within limits (without closed (overdue limits now protectedRecord closed ++ done))))
    (young limits now protectedRecord closed) (List.pairwise_of_forall fun _ _ h => h)
  rw [hscan] at hloop
  refine ⟨_, k, ⟨rfl, hleast.le, ?_, fun m hm hwithin => ?_⟩, hloop.remove⟩
  · rcases hleast.enough.short with hshort | hall
    · exact .inl (by simpa using hshort)
    · exact .inr (Nat.le_antisymm hleast.le hall)
  · exact hleast.least m hm ⟨fun _ _ => rfl, .inl (by simpa using hwithin)⟩

/-- Nothing is left to remove. -/
theorem ClosedSession.Prunes.again {limits : ManagementLimits} {now : Nat} {protectedRecord : Option Nat}
    {closed removed : List ClosedSession} {k : Nat} (h : Prunes limits now protectedRecord closed removed k)
    (hn : ClosedSession.Numbered closed) (hbytes : (closed.map (·.bytes)).sum ≤ u64Max) :
    tombstones limits now protectedRecord (without closed removed) = [] := by
  have hsub : (without closed removed).Sublist closed := List.filter_sublist
  have hleft : ClosedSession.Numbered (without closed removed) := (hsub.map _).nodup hn
  have hsize : ((without closed removed).map (·.bytes)).sum ≤ u64Max := by
    have hsplit := ((hn.perm_without hsub).map fun c : ClosedSession => c.bytes).sum_nat
    rw [List.map_append, List.sum_append] at hsplit
    omega
  obtain ⟨removed', k', h', htombs⟩ := tombstones_prunes limits now protectedRecord hleft hsize
  have hover : overdue limits now protectedRecord (without closed removed) = [] := by
    refine List.filter_eq_nil_iff.2 fun c hc hgo => ?_
    obtain ⟨hc, hstays⟩ := List.mem_filter.1 hc
    refine of_decide_eq_true hstays ?_
    rw [h.removed_eq]
    exact List.mem_append_left _ (List.mem_filter.2 ⟨hc, hgo⟩)
  have hnone : without (without closed removed) [] = without closed removed :=
    List.filter_eq_self.2 fun _ _ => by simp
  have hyoung : (young limits now protectedRecord (without closed removed)).take k' = [] := by
    rcases h.enough with hwithin | hall
    · -- the bounds hold already
      have hk : k' = 0 := by
        by_contra hne
        refine h'.least 0 (by omega) ?_
        rw [hover, List.take_zero, List.append_nil, hnone]
        exact hwithin
      rw [hk, List.take_zero]
    · -- every unprotected session is gone
      have hempty : young limits now protectedRecord (without closed removed) = [] := by
        refine List.filter_eq_nil_iff.2 fun c hc hgo => ?_
        obtain ⟨hc, hstays⟩ := List.mem_filter.1 hc
        refine of_decide_eq_true hstays ?_
        rw [h.removed_eq, hall, List.take_length]
        exact List.mem_append_right _ (List.mem_filter.2 ⟨hc, hgo⟩)
      rw [hempty, List.take_nil]
  rw [htombs, h'.removed_eq, hover, hyoung]
  rfl

end Whale
