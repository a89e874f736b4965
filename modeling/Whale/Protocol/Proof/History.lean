import Whale.Protocol.Proof.Reducer
import Mathlib.Data.List.DropRight

/-!
# Windows are tails

A history window is the tail of a list that it does not hold in full: `SessionHistoryWindow.tail h k`.
The reducer asks the window whether an item is known. Where the answer does not depend on how much of
the history the window holds (`SessionSnapshot.Fresh`), an event does the same to every tail of one
history (`SessionSnapshot.applyPayload_tail`).
-/

namespace Whale

open Check

/-- The ids of a list of items. -/
def ids (items : List CanonicalItem) : List String := items.map (·.id)

@[simp] theorem ids_append (xs ys : List CanonicalItem) : ids (xs ++ ys) = ids xs ++ ids ys :=
  List.map_append

theorem any_id_iff {items : List CanonicalItem} {id : String} :
    items.any (·.id == id) = true ↔ id ∈ ids items := by
  simp [ids]

theorem mem_ids_appendCanonicalOnce {items : List CanonicalItem} {item : CanonicalItem} {id : String} :
    id ∈ ids (appendCanonicalOnce items item) ↔ id ∈ ids items ∨ id = item.id := by
  unfold appendCanonicalOnce
  split
  · rename_i hin
    constructor
    · exact .inl
    · rintro (h | rfl)
      · exact h
      · exact any_id_iff.mp hin
  · rw [ids_append, List.mem_append]
    simp [ids]

theorem rtake_eq_drop {α : Type} (h : List α) (k : Nat) :
    h.rtake k = h.drop (h.length - min k h.length) := by
  rw [List.rtake]
  congr 1
  omega

/-- A tail of a longer list, of which a shorter tail is taken again. -/
theorem rtake_rtake_append {α : Type} (h l : List α) {k m : Nat} (hk : k ≤ m) :
    (h.rtake m ++ l).rtake k = (h ++ l).rtake k := by
  simp only [List.rtake_eq_reverse_take_reverse, List.reverse_append, List.reverse_reverse,
    List.take_append, List.take_take]
  congr 3
  omega

namespace SessionHistoryWindow

/-- The window of this capacity over a history. -/
def tail (h : List CanonicalItem) (k : Nat) : SessionHistoryWindow where
  items := h.rtake k
  startIndex := h.length - k
  totalItems := h.length
  capacity := k

variable {h : List CanonicalItem} {k m : Nat}

theorem fromHistory_ok {w : SessionHistoryWindow} (hw : fromHistory h k = .ok w) : w = tail h k := by
  obtain ⟨_, -, hw⟩ := bind_ok hw
  obtain ⟨_, -, hw⟩ := bind_ok hw
  have hstart : h.length - min h.length k = h.length - k := by omega
  simp only [hstart] at hw
  cases hw
  rfl

theorem length_rtake (h : List CanonicalItem) (k : Nat) : (h.rtake k).length = min k h.length := by
  rw [List.rtake, List.length_drop]
  omega

theorem mem_of_holds_tail {id : String} (hid : (tail h k).holds id = true) : id ∈ ids h := by
  obtain ⟨i, hi, he⟩ := List.any_eq_true.mp hid
  exact List.mem_map.mpr ⟨i, List.mem_of_mem_drop hi, by simpa using he⟩

/-- A tail after an item that is appended or known. -/
theorem appendUnlessKnown_tail {item : CanonicalItem} {known : Bool}
    (hf : known = true ∨ item.id ∉ ids h) :
    (tail h k).appendUnlessKnown item known =
      if known then .ok (tail h k)
      else validateIdentity item.id "history item_id" >>= fun _ =>
        orElse (checkedSucc h.length) "Canonical history item count is exhausted" >>= fun _ =>
          .ok (tail (h ++ [item]) k) := by
  unfold appendUnlessKnown
  cases known with
  | true => rfl
  | false =>
    have hnew : (tail h k).holds item.id = false := by
      rw [Bool.eq_false_iff]
      intro hid
      rcases hf with hf | hf
      · cases hf
      · exact hf (mem_of_holds_tail hid)
    simp only [hnew, Bool.or_self, Bool.false_eq_true, if_false]
    refine bind_congr fun _ => ?_
    show orElse (checkedSucc h.length) _ >>= _ = _
    unfold checkedSucc
    split
    · have hpush : (h.rtake k ++ [item]).drop ((h.rtake k ++ [item]).length - k) =
          (h ++ [item]).rtake k := rtake_rtake_append h [item] (Nat.le_refl k)
      have hlen : (h ++ [item]).length = h.length + 1 := by simp
      have hsmall : ¬ h.length + 1 < ((h ++ [item]).rtake k).length := by
        rw [length_rtake, hlen]
        omega
      have hstart : h.length + 1 - ((h ++ [item]).rtake k).length = (h ++ [item]).length - k := by
        rw [length_rtake, hlen]
        omega
      simp only [orElse_some, ok_bind]
      show refuse (decide (h.length + 1 < ((h.rtake k ++ [item]).drop _).length)) _ >>= _ = _
      rw [show (tail h k).items = h.rtake k from rfl, show (tail h k).capacity = k from rfl, hpush,
        decide_eq_false hsmall, refuse_false, ok_bind, hstart]
      unfold tail
      rw [hlen]
    · rfl

/-- The tails after a successful append, at every capacity. -/
theorem appendUnlessKnown_tail_ok {item : CanonicalItem} {known : Bool} {w : SessionHistoryWindow}
    (hf : known = true ∨ item.id ∉ ids h) (hw : (tail h m).appendUnlessKnown item known = .ok w) :
    w = tail (h ++ if known then [] else [item]) m ∧
      ∀ k, (tail h k).appendUnlessKnown item known =
        .ok (tail (h ++ if known then [] else [item]) k) := by
  rw [appendUnlessKnown_tail hf] at hw
  cases known with
  | true =>
    simp only [if_true, List.append_nil] at hw ⊢
    cases hw
    refine ⟨rfl, fun k => ?_⟩
    rw [appendUnlessKnown_tail hf, if_pos rfl]
  | false =>
    simp only [Bool.false_eq_true, if_false] at hw ⊢
    obtain ⟨u, hid, hw⟩ := bind_ok hw
    obtain ⟨n, hn, hw⟩ := bind_ok hw
    cases hw
    refine ⟨rfl, fun k => ?_⟩
    rw [appendUnlessKnown_tail hf, if_neg (by simp), hid, ok_bind, hn, ok_bind]

/-- A shorter tail of a valid window is valid. -/
theorem validate_tail (hv : (tail h m).validate = .ok ()) (hpos : 0 < k) (hk : k ≤ m) :
    (tail h k).validate = .ok () := by
  unfold validate at hv ⊢
  obtain ⟨_, hcap, hv⟩ := bind_ok hv
  obtain ⟨hsize, hv⟩ := refuse_bind_ok hv
  have hm : m ≤ maxSessionHistoryLimit := by
    have := (Bool.or_eq_false_iff.mp (refuse_ok hcap)).2
    exact Nat.le_of_not_lt (of_decide_eq_false this)
  have hlen : h.length ≤ u64Max := by
    simp only [Bool.or_eq_false_iff, bne_eq_false_iff_eq] at hsize
    have hadd := hsize.2
    simp only [tail, UsageMetrics.checkedAdd64, length_rtake] at hadd
    split at hadd
    · omega
    · cases hadd
  have hcap' : validateHistoryCapacity (tail h k).capacity = .ok () := by
    unfold validateHistoryCapacity
    rw [refuse_ok_iff, Bool.or_eq_false_iff]
    exact ⟨beq_eq_false_iff_ne.mpr (Nat.ne_of_gt hpos), decide_eq_false (Nat.not_lt.mpr (hk.trans hm))⟩
  have hadd' : UsageMetrics.checkedAdd64 (h.length - k) (min h.length k) = some h.length := by
    unfold UsageMetrics.checkedAdd64
    rw [if_pos (by omega)]
    congr 1
    omega
  have hsize' : ((tail h k).items.length != min (tail h k).totalItems (tail h k).capacity ||
      UsageMetrics.checkedAdd64 (tail h k).startIndex (tail h k).items.length !=
        some (tail h k).totalItems) = false := by
    simp only [tail, length_rtake]
    rw [Nat.min_comm k, hadd', bne_self_eq_false, bne_self_eq_false, Bool.or_self]
  rw [hcap', ok_bind, hsize', refuse_false, ok_bind]
  have hsub : (tail h k).items.Sublist (tail h m).items := by
    have := rtake_rtake_append h [] hk
    rw [List.append_nil, List.append_nil] at this
    show (h.rtake k).Sublist (h.rtake m)
    rw [← this]
    exact List.drop_sublist _ _
  rw [distinct_ok_iff] at hv ⊢
  exact ⟨fun a ha => hv.1 a (hsub.subset ha), (hsub.map _).nodup hv.2.1, by simp⟩

end SessionHistoryWindow

namespace SessionSnapshot

open SessionHistoryWindow

/-- The items that a list of known ones does not have. -/
def unlisted (known items : List CanonicalItem) : List CanonicalItem :=
  items.filter fun item => !known.any (·.id == item.id)

/-- The tails after the items of a finished run, at every capacity. The items already in the history
are listed, so each other one is appended. -/
theorem appendItems_tail {known : List CanonicalItem} {m : Nat} :
    ∀ {items h : List CanonicalItem} {w : SessionHistoryWindow},
      (∀ item ∈ items, item.id ∈ ids h → item.id ∈ ids known) → (ids items).Nodup →
      appendItems known (tail h m) items = .ok w →
      w = tail (h ++ unlisted known items) m ∧
        ∀ k, appendItems known (tail h k) items = .ok (tail (h ++ unlisted known items) k)
  | [], h, w, _, _, hw => by
    cases hw
    simp [unlisted, appendItems]
  | item :: items, h, w, hknown, hnodup, hw => by
    have hfresh : known.any (·.id == item.id) = true ∨ item.id ∉ ids h := by
      by_cases hin : item.id ∈ ids h
      · exact .inl (any_id_iff.mpr (hknown item List.mem_cons_self hin))
      · exact .inr hin
    obtain ⟨w', hw', hw⟩ := bind_ok hw
    obtain ⟨rfl, hall⟩ := appendUnlessKnown_tail_ok hfresh hw'
    have hnodup' : item.id ∉ ids items ∧ (ids items).Nodup := List.nodup_cons.mp hnodup
    have hnext : ∀ i ∈ items,
        i.id ∈ ids (h ++ if known.any (·.id == item.id) then [] else [item]) → i.id ∈ ids known := by
      intro i hi hin
      rw [ids_append, List.mem_append] at hin
      rcases hin with hin | hin
      · exact hknown i (List.mem_cons_of_mem _ hi) hin
      · -- the item just appended is not offered again
        exfalso
        split at hin
        · cases hin
        · have heq : i.id = item.id := by simpa [ids] using hin
          exact hnodup'.1 (heq ▸ List.mem_map_of_mem hi)
    obtain ⟨hw, htails⟩ := appendItems_tail hnext hnodup'.2 hw
    have hlist : h ++ unlisted known (item :: items) =
        (h ++ if known.any (·.id == item.id) then [] else [item]) ++ unlisted known items := by
      rw [List.append_assoc]
      congr 1
      unfold unlisted
      by_cases hk : known.any (·.id == item.id) = true
      · rw [if_pos hk, List.filter_cons_of_neg (by simp [hk]), List.nil_append]
      · rw [if_neg hk, List.filter_cons_of_pos (by simp [hk]), List.singleton_append]
    rw [hlist]
    refine ⟨hw, fun k => ?_⟩
    unfold appendItems
    rw [hall k, ok_bind]
    exact htails k

/-- The items of a finished run of which some are in the history. Those are listed or in the window, the
others are new. -/
theorem appendItems_resume {known : List CanonicalItem} {m : Nat} {h rest : List CanonicalItem}
    {w : SessionHistoryWindow} :
    ∀ {done : List CanonicalItem},
      (∀ item ∈ done, item.id ∈ ids known ∨ (tail h m).holds item.id = true) →
      (∀ item ∈ rest, item.id ∉ ids h ∧ item.id ∉ ids known) → (ids rest).Nodup →
      appendItems known (tail h m) (done ++ rest) = .ok w → w = tail (h ++ rest) m
  | [], _, hrest, hnodup, hw => by
    have hnews : unlisted known rest = rest := by
      unfold unlisted
      rw [List.filter_eq_self]
      intro item hi
      have := (hrest item hi).2
      rw [← any_id_iff] at this
      simpa using this
    have := (appendItems_tail (fun item hi hin => absurd hin (hrest item hi).1) hnodup hw).1
    rwa [hnews] at this
  | item :: done, hdone, hrest, hnodup, hw => by
    obtain ⟨w', hw', hw⟩ := bind_ok hw
    have hsame : w' = tail h m := by
      unfold appendUnlessKnown at hw'
      have hknown : (known.any (·.id == item.id) || (tail h m).holds item.id) = true := by
        rw [Bool.or_eq_true, any_id_iff]
        exact hdone item List.mem_cons_self
      rw [if_pos hknown] at hw'
      cases hw'
      rfl
    rw [hsame] at hw
    exact appendItems_resume (fun i hi => hdone i (List.mem_cons_of_mem _ hi)) hrest hnodup hw

/-- The items of the active run. -/
def listed (s : SessionSnapshot) : List CanonicalItem :=
  (s.activeRun.map (·.snapshot.items)).getD []

/-- What an event adds to the history. -/
def news (s : SessionSnapshot) : SessionEventPayload → List CanonicalItem
  | .runEvent ⟨_, _, _, .stream (.itemCompleted _ item)⟩ => unlisted s.listed [item]
  | .runEvent ⟨_, _, _, .finished snapshot⟩ => unlisted s.listed snapshot.items
  | .runEvent ⟨_, _, _, .stream _⟩ | .runChanged _ => []

/-- What an event offers to the history is new to it or listed by the active run. -/
def Fresh (s : SessionSnapshot) (h : List CanonicalItem) : SessionEventPayload → Prop
  | .runEvent ⟨_, _, _, .stream (.itemStarted _ itemId _ _)⟩ => itemId ∉ ids h
  | .runEvent ⟨_, _, _, .stream (.itemCompleted _ item)⟩ => item.id ∈ ids h → item.id ∈ ids s.listed
  | .runEvent ⟨_, _, _, .finished snapshot⟩ =>
    (∀ item ∈ snapshot.items, item.id ∈ ids h → item.id ∈ ids s.listed) ∧ (ids snapshot.items).Nodup
  | .runEvent ⟨_, _, _, .stream _⟩ | .runChanged _ => True

/-- The snapshot with another history window. -/
def withHistory (s : SessionSnapshot) (history : SessionHistoryWindow) : SessionSnapshot :=
  { s with history }

variable {s n : SessionSnapshot} {h : List CanonicalItem} {m : Nat}

/-- A stream event at every tail of the history. -/
theorem applyToRun_tail {run : SessionRunView} {event : RunEvent} {stream : AgentStreamEvent}
    (hs : s.history = tail h m) (hev : event.payload = .stream stream)
    (hlist : s.listed = run.snapshot.items) (hf : s.Fresh h (.runEvent event))
    (hn : s.applyToRun run stream = .ok n) :
    n.history = tail (h ++ s.news (.runEvent event)) m ∧
      ∀ k, (s.withHistory (tail h k)).applyToRun run stream =
        .ok (n.withHistory (tail (h ++ s.news (.runEvent event)) k)) := by
  obtain ⟨threadId, turnId, seq, payload⟩ := event
  simp only at hev
  subst hev
  cases stream with
  | toolProgress | turnCompleted | turnFailed | toolExecutionStarted | approvalRequested =>
    cases hn
    simp only [news, List.append_nil]
    exact ⟨hs, fun k => rfl⟩
  | turnStarted turn thread =>
    obtain ⟨hthread, hn⟩ := refuse_bind_ok hn
    cases hn
    simp only [news, List.append_nil]
    refine ⟨hs, fun k => ?_⟩
    unfold applyToRun
    exact refuse_bind_ok_iff.mpr ⟨hthread, rfl⟩
  | textDelta turn itemId delta | reasoningDelta turn itemId delta
  | reasoningSignature turn itemId signature | toolCallDelta turn itemId callId delta =>
    obtain ⟨drafted, hd, hn⟩ := bind_ok hn
    cases hn
    simp only [news, List.append_nil]
    refine ⟨hs, fun k => ?_⟩
    simp only [applyToRun]
    rw [hd]
    rfl
  | itemStarted turn itemId itemType phase =>
    -- the item is in no tail of the history
    have hnew : ∀ k, (tail h k).holds itemId = false := by
      intro k
      rw [Bool.eq_false_iff]
      exact fun hid => hf (mem_of_holds_tail hid)
    simp only [applyToRun, hs, hnew, Bool.not_false, Bool.true_and] at hn
    simp only [news, List.append_nil, applyToRun, withHistory, hnew, Bool.not_false, Bool.true_and]
    by_cases hdraft : (!run.inProgressItems.any (·.itemId == itemId)) = true
    · rw [if_pos hdraft] at hn
      cases hn
      exact ⟨rfl, fun k => if_pos hdraft⟩
    · rw [if_neg hdraft] at hn
      cases hn
      exact ⟨rfl, fun k => if_neg hdraft⟩
  | itemCompleted turn item =>
    obtain ⟨w, hw, hn⟩ := bind_ok hn
    cases hn
    rw [hs] at hw
    have hfresh : run.snapshot.items.any (·.id == item.id) = true ∨ item.id ∉ ids h := by
      by_cases hin : item.id ∈ ids h
      · exact .inl (any_id_iff.mpr (hlist ▸ hf hin))
      · exact .inr hin
    obtain ⟨hw, hall⟩ := appendUnlessKnown_tail_ok hfresh hw
    have hnews : s.news (.runEvent ⟨threadId, turnId, seq, .stream (.itemCompleted turn item)⟩) =
        if run.snapshot.items.any (·.id == item.id) then [] else [item] := by
      simp only [news, unlisted, hlist]
      by_cases hk : run.snapshot.items.any (·.id == item.id) = true
      · rw [if_pos hk, List.filter_cons_of_neg (by simp [hk]), List.filter_nil]
      · rw [if_neg hk, List.filter_cons_of_pos (by simp [hk]), List.filter_nil]
    rw [hnews]
    refine ⟨hw, fun k => ?_⟩
    simp only [applyToRun]
    rw [show (s.withHistory (tail h k)).history = tail h k from rfl, hall k]
    rfl

/-- A payload at every tail of the history. -/
theorem applyPayload_tail {e : SessionEventEnvelope} (hs : s.history = tail h m)
    (hf : s.Fresh h e.payload) (hn : s.applyPayload e = .ok n) :
    n.history = tail (h ++ s.news e.payload) m ∧
      ∀ k, (s.withHistory (tail h k)).applyPayload e =
        .ok (n.withHistory (tail (h ++ s.news e.payload) k)) := by
  unfold applyPayload at hn ⊢
  cases hp : e.payload with
  | runChanged run =>
    rw [hp] at hn
    cases hn
    simp only [news, List.append_nil]
    exact ⟨hs, fun k => rfl⟩
  | runEvent event =>
    rw [hp] at hn hf
    simp only at hn ⊢
    cases hev : event.payload with
    | stream stream =>
      rw [hev] at hn
      simp only at hn ⊢
      unfold applyStreamEvent at hn ⊢
      obtain ⟨run, hrun, hn⟩ := orElse_bind_ok hn
      obtain ⟨h1, hn⟩ := refuse_bind_ok hn
      obtain ⟨h2, hn⟩ := refuse_bind_ok hn
      have hlist : s.listed = (run.touched event.seq e.occurredAtMs).snapshot.items := by
        unfold listed
        rw [hrun]
        rfl
      obtain ⟨hhist, hall⟩ := applyToRun_tail hs hev hlist hf hn
      refine ⟨hhist, fun k => ?_⟩
      rw [show (s.withHistory (tail h k)).activeRun = some run from hrun, orElse_some, ok_bind, h1, h2]
      exact hall k
    | finished snapshot =>
      rw [hev] at hn
      simp only at hn ⊢
      unfold applyFinished at hn ⊢
      obtain ⟨h1, hn⟩ := refuse_bind_ok hn
      obtain ⟨active, hact, hn⟩ := orElse_bind_ok hn
      obtain ⟨h2, hn⟩ := refuse_bind_ok hn
      obtain ⟨w, hw, hn⟩ := bind_ok hn
      cases hn
      obtain ⟨threadId, turnId, seq, payload⟩ := event
      simp only at hev
      subst hev
      have hlist : s.listed = active.snapshot.items := by
        unfold listed
        rw [hact]
        rfl
      rw [hs] at hw
      obtain ⟨hw, hall⟩ := appendItems_tail (hlist ▸ hf.1) hf.2 hw
      simp only [news, hlist]
      refine ⟨hw, fun k => ?_⟩
      refine refuse_bind_ok_iff.mpr ⟨h1, ?_⟩
      rw [show (s.withHistory (tail h k)).activeRun = some active from hact, orElse_some, ok_bind, h2,
        show (s.withHistory (tail h k)).history = tail h k from rfl, hall k]
      rfl

/-- The summary, the cursor and the runs of a valid snapshot are valid beside another valid window. -/
theorem validate_withHistory (hv : s.validate = .ok ()) {w : SessionHistoryWindow}
    (hw : w.validate = .ok ()) : (s.withHistory w).validate = .ok () := by
  rw [validate_iff] at hv ⊢
  exact { hv with history := hw }

/-- An event that is applied is applied at every shorter tail of the history. -/
theorem Applied.tail {e : SessionEventEnvelope} {s' : SessionSnapshot} (ha : s.Applied e s')
    (hs : s.history = tail h m) (hf : s.Fresh h e.payload) :
    s'.history = SessionHistoryWindow.tail (h ++ s.news e.payload) m ∧
      ∀ k, 0 < k → k ≤ m → (s.withHistory (SessionHistoryWindow.tail h k)).Applied e
        (s'.withHistory (SessionHistoryWindow.tail (h ++ s.news e.payload) k)) := by
  obtain ⟨n, hn, rfl⟩ := ha.payload
  obtain ⟨hhist, hall⟩ := applyPayload_tail hs hf hn
  have hsrc := (validate_iff.mp ha.source).history
  have htgt := (validate_iff.mp ha.target).history
  rw [hs] at hsrc
  rw [show (n.advance e).history = n.history from rfl, hhist] at htgt
  refine ⟨hhist, fun k hpos hk => ?_⟩
  exact {
    source := validate_withHistory ha.source (validate_tail hsrc hpos hk)
    event := ha.event
    cursor := ha.cursor
    bound := ha.bound
    payload := ⟨_, hall k, rfl⟩
    target := validate_withHistory ha.target (validate_tail htgt hpos hk) }

end SessionSnapshot

/-! ## V2 -/

namespace SessionSnapshotV2

open SessionHistoryWindow

/-- What an event adds to the history. -/
def news (s : SessionSnapshotV2) (payload : SessionEventPayloadV2) : List CanonicalItem :=
  (payload.run?.map s.legacy.news).getD []

/-- What an event offers to the history is new to it or listed by the active run. -/
def Fresh (s : SessionSnapshotV2) (h : List CanonicalItem) (payload : SessionEventPayloadV2) : Prop :=
  ∀ p, payload.run? = some p → s.legacy.Fresh h p

/-- The snapshot with another history window. -/
def withHistory (s : SessionSnapshotV2) (history : SessionHistoryWindow) : SessionSnapshotV2 :=
  { s with history }

section
variable [External] {s s' : SessionSnapshotV2} {e : SessionEventEnvelopeV2} {h : List CanonicalItem}
  {m : Nat}

theorem validate_withHistory (hv : s.validate = .ok ()) {w : SessionHistoryWindow}
    (hw : w.validate = .ok ()) : (s.withHistory w).validate = .ok () := by
  rw [validate_iff] at hv ⊢
  exact { hv with history := hw }

omit [External] in
/-- A V1 payload at every shorter tail. -/
theorem applyV1Payload_tail {payload : SessionEventPayload}
    (hc : e.cursor = { s.cursor with seq := s.cursor.seq + 1 }) (hs : s.history = tail h m)
    (hf : s.legacy.Fresh h payload) (hn : s.applyV1Payload e payload = .ok s') :
    s'.history = tail (h ++ s.legacy.news payload) m ∧
      ∀ k, 0 < k → k ≤ m → (s.withHistory (tail h k)).applyV1Payload e payload =
        .ok (s'.withHistory (tail (h ++ s.legacy.news payload) k)) := by
  obtain ⟨next, ha, rfl⟩ := applyV1Payload_ok hc hn
  obtain ⟨hhist, hall⟩ := SessionSnapshot.Applied.tail ha (h := h) (m := m) hs hf
  refine ⟨hhist, fun k hpos hk => ?_⟩
  have happly := SessionSnapshot.apply_of_applied (hall k hpos hk)
  unfold applyV1Payload
  rw [show (s.withHistory (tail h k)).legacy = s.legacy.withHistory (tail h k) from rfl, happly]
  rfl

/-- A payload at every shorter tail. -/
theorem applyPayload_tail (hc : e.cursor = { s.cursor with seq := s.cursor.seq + 1 })
    (hs : s.history = tail h m) (hf : s.Fresh h e.payload) (hn : s.applyPayload e = .ok s') :
    s'.history = tail (h ++ s.news e.payload) m ∧
      ∀ k, 0 < k → k ≤ m → (s.withHistory (tail h k)).applyPayload e =
        .ok (s'.withHistory (tail (h ++ s.news e.payload) k)) := by
  unfold applyPayload at hn ⊢
  unfold news
  cases hp : e.payload with
  | runChanged run =>
    rw [hp] at hn hf
    obtain ⟨u, hcl, hn⟩ := bind_ok hn
    obtain ⟨hhist, hall⟩ := applyV1Payload_tail hc hs (hf _ rfl) hn
    refine ⟨hhist, fun k hpos hk => ?_⟩
    simp only
    rw [show (s.withHistory (tail h k)).checkClosingRun run = s.checkClosingRun run from rfl, hcl,
      ok_bind]
    exact hall k hpos hk
  | runEvent event =>
    rw [hp] at hn hf
    exact applyV1Payload_tail hc hs (hf _ rfl) hn
  | metadataChanged metadata =>
    rw [hp] at hn
    obtain ⟨hopen, hn⟩ := refuse_bind_ok hn
    obtain ⟨u, hmeta, hn⟩ := bind_ok hn
    cases hn
    refine ⟨by simpa [SessionEventPayloadV2.run?] using hs, fun k hpos hk => ?_⟩
    simp only
    refine refuse_bind_ok_iff.mpr ⟨hopen, ?_⟩
    rw [hmeta]
    simp only [ok_bind, SessionEventPayloadV2.run?, Option.map_none, Option.getD_none, List.append_nil]
    rfl
  | lifecycleChanged lifecycle =>
    rw [hp] at hn
    simp only [SessionEventPayloadV2.run?, Option.map_none, Option.getD_none, List.append_nil]
    have hsame : ∀ w, (s.withHistory w).applyLifecycle lifecycle =
        (s.applyLifecycle lifecycle).map (·.withHistory w) := by
      intro w
      unfold applyLifecycle
      simp only [withHistory]
      split
      · rfl
      · simp only [except_map_bind]
        rfl
      · rfl
    simp only at hn
    refine ⟨?_, fun k _ _ => by rw [hsame, hn]; rfl⟩
    have hw := hsame s.history
    have hself : s.withHistory s.history = s := rfl
    rw [hself, hn] at hw
    rw [← hs]
    exact congrArg (fun r => (r.toOption.map (·.history)).getD s.history) hw

/-- An event that is applied is applied at every shorter tail of the history. -/
theorem Applied.tail (ha : s.Applied e s') (hs : s.history = tail h m) (hf : s.Fresh h e.payload) :
    s'.history = SessionHistoryWindow.tail (h ++ s.news e.payload) m ∧
      ∀ k, 0 < k → k ≤ m → (s.withHistory (SessionHistoryWindow.tail h k)).Applied e
        (s'.withHistory (SessionHistoryWindow.tail (h ++ s.news e.payload) k)) := by
  obtain ⟨n, hn, rfl⟩ := ha.payload
  obtain ⟨hhist, hall⟩ := applyPayload_tail ha.cursor hs hf hn
  have hsrc := (validate_iff.mp ha.source).history
  have htgt := (validate_iff.mp ha.target).history
  rw [hs] at hsrc
  rw [show (n.advance e).history = n.history from rfl, hhist] at htgt
  refine ⟨hhist, fun k hpos hk => ?_⟩
  exact {
    source := validate_withHistory ha.source (validate_tail hsrc hpos hk)
    event := ha.event
    running := ha.running
    cursor := ha.cursor
    bound := ha.bound
    payload := ⟨_, hall k hpos hk, rfl⟩
    target := validate_withHistory ha.target (validate_tail htgt hpos hk) }

end

end SessionSnapshotV2

end Whale
