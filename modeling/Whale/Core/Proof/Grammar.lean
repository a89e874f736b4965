import Whale.Core.Proof.Context

/-!
# The grammar of tool histories

A history is accepted when it is a sequence of blocks: single messages, and batches of calls with a
permutation of their results, whose call ids are named and distinct. The scan is followed forwards: what
it accepts from a state with pending calls is the rest of a batch, then blocks (`Scan.parsed`).
-/

namespace Whale

open Check

/-- The ids of the calls among some items. -/
def callIds (items : List CanonicalItem) : List String := items.filterMap (·.callId?)

/-- A block of a history: one item that is no part of a batch, or a batch, calls and then a permutation of
their results. -/
inductive Block : List CanonicalItem → Prop
  | single {i : CanonicalItem} (other : Scan.other i) : Block [i]
  | batch {calls results : List CanonicalItem} (nonempty : calls ≠ [])
      (calling : ∀ c ∈ calls, c.callId?.isSome)
      (answered : (results.map (·.resultId?)).Perm (calls.map (·.callId?))) : Block (calls ++ results)

/-- A concatenation of blocks. -/
def Blocks (items : List CanonicalItem) : Prop :=
  ∃ blocks : List (List CanonicalItem), (∀ b ∈ blocks, Block b) ∧ blocks.flatten = items

/-- A history of the grammar. -/
structure ToolHistory (items : List CanonicalItem) : Prop where
  blocks : Blocks items
  named : ∀ id ∈ callIds items, id ≠ ""
  distinct : (callIds items).Nodup

theorem Blocks.nil : Blocks [] := ⟨[], List.forall_mem_nil _, rfl⟩

theorem Blocks.cons {b items : List CanonicalItem} (hb : Block b) (h : Blocks items) :
    Blocks (b ++ items) := by
  obtain ⟨blocks, hblocks, rfl⟩ := h
  exact ⟨b :: blocks, List.forall_mem_cons.2 ⟨hb, hblocks⟩, rfl⟩

theorem callIds_append (xs ys : List CanonicalItem) : callIds (xs ++ ys) = callIds xs ++ callIds ys :=
  List.filterMap_append

/-- Items are calls, results or neither. -/
theorem item_cases (i : CanonicalItem) :
    (∃ id callId space name arguments raw, i = .toolCall id callId space name arguments raw) ∨
    (∃ id callId output isError, i = .toolResult id callId output isError) ∨ Scan.other i := by
  cases i with
  | toolCall id callId space name arguments raw => exact .inl ⟨_, _, _, _, _, _, rfl⟩
  | toolResult id callId output isError => exact .inr (.inl ⟨_, _, _, _, rfl⟩)
  | _ => exact .inr (.inr ⟨rfl, rfl⟩)

theorem callIds_other {i : CanonicalItem} (h : Scan.other i) : callIds [i] = [] := by
  simp [callIds, h.1]

theorem map_eq_filterMap {α β : Type} {f : α → Option β} : ∀ {l : List α},
    (∀ a ∈ l, (f a).isSome) → l.map f = (l.filterMap f).map some
  | [], _ => rfl
  | a :: l, h => by
    obtain ⟨ha, hl⟩ := List.forall_mem_cons.1 h
    obtain ⟨b, hb⟩ := Option.isSome_iff_exists.1 ha
    rw [List.map_cons, List.filterMap_cons, map_eq_filterMap hl, hb]
    rfl

theorem perm_of_map_some {α : Type} {xs ys : List α} (h : (xs.map some).Perm (ys.map some)) :
    xs.Perm ys := by
  simpa [List.filterMap_map] using h.filterMap id

/-- Answers name calls and are no calls. -/
theorem callIds_results {results : List CanonicalItem} (h : ∀ r ∈ results, r.resultId?.isSome) :
    callIds results = [] := by
  refine List.filterMap_eq_nil_iff.2 fun r hr => ?_
  have hr := h r hr
  cases r with
  | toolResult => rfl
  | _ => cases hr

namespace Scan

/-! ## What the grammar has is accepted -/

/-- New calls are accepted and pending. -/
theorem items_calls {calls : List CanonicalItem} : ∀ {s : Scan} (index : Nat),
    (∀ c ∈ calls, c.callId?.isSome) → (∀ id ∈ callIds calls, id ≠ "" ∧ id ∉ s.seen) →
    (callIds calls).Nodup → (s.pending ≠ [] → s.resultsStarted = false) →
    ∃ s', s.items index calls = .ok s' ∧ s'.pending.Perm (s.pending ++ callIds calls) := by
  induction calls with
  | nil =>
    intro s index _ _ _ _
    exact ⟨s, rfl, by simp [callIds]⟩
  | cons c calls ih =>
    intro s index hcalls hids hnodup hbatch
    obtain ⟨hc, hrest⟩ := List.forall_mem_cons.1 hcalls
    rcases item_cases c with ⟨id, callId, space, name, arguments, raw, rfl⟩ | ⟨_, _, _, _, rfl⟩ | ho
    · have hcons : callIds (.toolCall id callId space name arguments raw :: calls) =
          callId :: callIds calls := rfl
      rw [hcons] at hids hnodup
      rw [hcons]
      obtain ⟨hnew, hnodup⟩ := List.nodup_cons.1 hnodup
      obtain ⟨hne, hseen⟩ := hids callId List.mem_cons_self
      have hnext : ∀ i ∈ callIds calls, i ≠ "" ∧ i ∉ callId :: s.seen := fun i hi => by
        obtain ⟨hi', hold⟩ := hids i (List.mem_cons_of_mem _ hi)
        exact ⟨hi', List.not_mem_cons_of_ne_of_not_mem (fun he => hnew (he ▸ hi)) hold⟩
      obtain ⟨s', hs', hperm⟩ := @ih ⟨callId :: s.seen, s.pending.orderedInsert (· ≤ ·) callId, false⟩
        (index + 1) hrest hnext hnodup fun _ => rfl
      refine ⟨s', ?_, hperm.trans ?_⟩
      · rw [items, item_call index hne hseen hbatch, ok_bind, hs']
      · exact ((List.perm_orderedInsert _ callId s.pending).append_right _).trans List.perm_middle.symm
    · cases hc
    · rw [ho.1] at hc
      cases hc

/-- A block with new call ids is accepted and leaves nothing pending. -/
theorem items_block {b : List CanonicalItem} (hb : Block b) {s : Scan} (hp : s.pending = [])
    (hids : ∀ id ∈ callIds b, id ≠ "" ∧ id ∉ s.seen) (hnodup : (callIds b).Nodup) (index : Nat) :
    ∃ s', s.items index b = .ok s' ∧ s'.pending = [] := by
  cases hb with
  | single other =>
    refine ⟨{ s with resultsStarted := false }, ?_, hp⟩
    rw [items, item_other index other, if_pos hp]
    rfl
  | @batch calls results nonempty calling answered =>
    rw [map_eq_filterMap calling] at answered
    have hresults : ∀ r ∈ results, r.resultId?.isSome := fun r hr => by
      have hm := answered.subset (List.mem_map_of_mem (f := (·.resultId?)) hr)
      obtain ⟨id, -, hid⟩ := List.mem_map.1 hm
      exact hid ▸ rfl
    rw [callIds_append, callIds_results hresults, List.append_nil] at hids hnodup
    obtain ⟨s₁, hs₁, hperm⟩ := items_calls index calling hids hnodup fun h => absurd hp h
    rw [hp, List.nil_append] at hperm
    -- the results are those of the pending calls, in their own order
    have hresult := map_eq_filterMap hresults
    rw [hresult] at answered
    obtain ⟨s', hs', hp'⟩ := items_results (index + calls.length) hresult
      ((perm_of_map_some answered).trans hperm.symm)
    exact ⟨s', by rw [items_append, hs₁, ok_bind, hs'], hp'⟩

/-- So is a sequence of blocks. -/
theorem items_blocks : ∀ {blocks : List (List CanonicalItem)} {s : Scan} (index : Nat),
    (∀ b ∈ blocks, Block b) → s.pending = [] →
    (∀ id ∈ callIds blocks.flatten, id ≠ "" ∧ id ∉ s.seen) → (callIds blocks.flatten).Nodup →
    ∃ s', s.items index blocks.flatten = .ok s' ∧ s'.pending = []
  | [], s, _, _, hp, _, _ => ⟨s, rfl, hp⟩
  | b :: blocks, s, index, hblocks, hp, hids, hnodup => by
    obtain ⟨hb, hrest⟩ := List.forall_mem_cons.1 hblocks
    rw [List.flatten_cons, callIds_append] at hids hnodup
    obtain ⟨hnodupb, hnodupRest, hdisjoint⟩ := List.nodup_append.1 hnodup
    obtain ⟨s₁, hs₁, hp₁⟩ := items_block hb hp
      (fun id hid => hids id (List.mem_append_left _ hid)) hnodupb index
    have hnew : ∀ id ∈ callIds blocks.flatten, id ≠ "" ∧ id ∉ s₁.seen := fun id hid => by
      obtain ⟨hne, hold⟩ := hids id (List.mem_append_right _ hid)
      refine ⟨hne, fun hm => ?_⟩
      rcases seen_subset hs₁ id hm with hm | hm
      · exact hold hm
      · exact hdisjoint id hm id hid rfl
    obtain ⟨s', hs', hp'⟩ := items_blocks (index + b.length) hrest hp₁ hnew hnodupRest
    exact ⟨s', by rw [List.flatten_cons, items_append, hs₁, ok_bind, hs'], hp'⟩

/-! ## What is accepted is of the grammar -/

/-- What the scan still expects in a state: the rest of a batch, then blocks. -/
structure Parsed (s : Scan) (items : List CanonicalItem) : Prop where
  /-- Between the batches. -/
  blocks : s.pending = [] → Blocks items
  /-- Within one. -/
  batch : s.pending ≠ [] → ∃ calls results rest, items = calls ++ (results ++ rest) ∧
    (∀ c ∈ calls, c.callId?.isSome) ∧ (s.resultsStarted = true → calls = []) ∧
    (results.map (·.resultId?)).Perm ((s.pending ++ callIds calls).map some) ∧ Blocks rest

theorem parsed : ∀ {xs : List CanonicalItem} {s s' : Scan} {index : Nat},
    s.items index xs = .ok s' → s'.pending = [] → Parsed s xs
  | [], s, s', index, h, hp => by
    cases h
    exact ⟨fun _ => .nil, fun hne => absurd hp hne⟩
  | x :: xs, s, s', index, h, hp => by
    obtain ⟨s₁, hx, h⟩ := bind_ok h
    have ih := parsed h hp
    rcases item_cases x with ⟨id, callId, space, name, arguments, raw, rfl⟩ |
      ⟨id, callId, output, isError, rfl⟩ | ho
    · -- a call: it joins the calls of the batch
      obtain ⟨-, hx⟩ := refuse_bind_ok hx
      obtain ⟨-, hx⟩ := refuse_bind_ok hx
      obtain ⟨hbatch, hx⟩ := refuse_bind_ok hx
      cases hx
      have hinsert := List.perm_orderedInsert (· ≤ ·) callId s.pending
      have hpending : s.pending.orderedInsert (· ≤ ·) callId ≠ [] := fun hnil => by
        rw [hnil] at hinsert
        exact absurd hinsert.symm List.not_perm_cons_nil
      obtain ⟨calls, results, rest, rfl, hcalls, -, hperm, hrest⟩ := ih.batch hpending
      have hjoined : (results.map (·.resultId?)).Perm
          ((s.pending ++ callIds (.toolCall id callId space name arguments raw :: calls)).map some) := by
        refine hperm.trans (List.Perm.map _ ?_)
        exact (hinsert.append_right _).trans List.perm_middle.symm
      have hcalling : ∀ c ∈ .toolCall id callId space name arguments raw :: calls,
          c.callId?.isSome := List.forall_mem_cons.2 ⟨rfl, hcalls⟩
      refine ⟨fun hnil => ?_, fun hne => ?_⟩
      · rw [hnil, List.nil_append] at hjoined
        have hids : _ = (callIds _).map some := map_eq_filterMap hcalling
        rw [← hids] at hjoined
        have hblock := Blocks.cons (.batch (List.cons_ne_nil _ _) hcalling hjoined) hrest
        rwa [List.append_assoc] at hblock
      · refine ⟨_ :: calls, results, rest, rfl, hcalling, fun hstarted => ?_, hjoined, hrest⟩
        rw [hstarted, Bool.true_and, Bool.not_eq_false', List.isEmpty_iff] at hbatch
        exact absurd hbatch hne
    · -- a result: of a pending call
      obtain ⟨hmem, hx⟩ := refuse_bind_ok hx
      cases hx
      have hmem : callId ∈ s.pending := by simpa using hmem
      have herase := List.perm_cons_erase hmem
      refine ⟨fun hnil => absurd (hnil ▸ hmem) List.not_mem_nil, fun _ => ?_⟩
      by_cases hlast : s.pending.erase callId = []
      · -- the last one of the batch
        refine ⟨[], [.toolResult id callId output isError], xs, rfl, List.forall_mem_nil _,
          fun _ => rfl, ?_, ih.blocks hlast⟩
        rw [hlast] at herase
        rw [callIds, List.filterMap_nil, List.append_nil]
        exact (herase.map some).symm
      · obtain ⟨calls, results, rest, rfl, -, hstarted, hperm, hrest⟩ := ih.batch hlast
        obtain rfl : calls = [] := hstarted (by simpa using hlast)
        refine ⟨[], .toolResult id callId output isError :: results, rest, rfl,
          List.forall_mem_nil _, fun _ => rfl, ?_, hrest⟩
        rw [callIds, List.filterMap_nil, List.append_nil] at hperm ⊢
        exact (hperm.cons (some callId)).trans (herase.map some).symm
    · rw [item_other index ho] at hx
      split at hx
      · rename_i hnil
        cases hx
        refine ⟨fun _ => ?_, fun hne => absurd hnil hne⟩
        exact Blocks.cons (.single ho) (ih.blocks hnil)
      · cases hx

/-- The call ids of what is accepted are named, new and distinct. -/
theorem items_callIds : ∀ {xs : List CanonicalItem} {s s' : Scan} {index : Nat},
    s.items index xs = .ok s' →
    (∀ id ∈ callIds xs, id ≠ "" ∧ id ∉ s.seen) ∧ (callIds xs).Nodup
  | [], _, _, _, _ => ⟨List.forall_mem_nil _, .nil⟩
  | x :: xs, s, s', index, h => by
    obtain ⟨s₁, hx, h⟩ := bind_ok h
    obtain ⟨hids, hnodup⟩ := items_callIds h
    rcases item_cases x with ⟨id, callId, space, name, arguments, raw, rfl⟩ |
      ⟨id, callId, output, isError, rfl⟩ | ho
    · obtain ⟨hname, hx⟩ := refuse_bind_ok hx
      obtain ⟨hseen, hx⟩ := refuse_bind_ok hx
      obtain ⟨-, hx⟩ := refuse_bind_ok hx
      cases hx
      have hcons : callIds (.toolCall id callId space name arguments raw :: xs) = callId :: callIds xs := rfl
      rw [hcons]
      refine ⟨List.forall_mem_cons.2 ⟨⟨by simpa using hname, by simpa using hseen⟩, fun i hi => ?_⟩, ?_⟩
      · exact ⟨(hids i hi).1, fun hm => (hids i hi).2 (List.mem_cons_of_mem _ hm)⟩
      · exact List.nodup_cons.2 ⟨fun hm => (hids callId hm).2 List.mem_cons_self, hnodup⟩
    · obtain ⟨-, hx⟩ := refuse_bind_ok hx
      cases hx
      exact ⟨hids, hnodup⟩
    · have hcons : callIds (x :: xs) = callIds xs := by
        rw [callIds, List.filterMap_cons, ho.1]
        rfl
      rw [item_other index ho] at hx
      split at hx
      · cases hx
        rw [hcons]
        exact ⟨hids, hnodup⟩
      · cases hx

/-- What is accepted where nothing is pending is of the grammar, whatever came before. -/
theorem toolHistory {xs : List CanonicalItem} {s s' : Scan} {index : Nat}
    (h : s.items index xs = .ok s') (hs : s.pending = []) (hp : s'.pending = []) : ToolHistory xs := by
  obtain ⟨hids, hnodup⟩ := items_callIds h
  exact ⟨(parsed h hp).blocks hs, fun id hid => (hids id hid).1, hnodup⟩

end Scan

/-- The checker accepts exactly the grammar. -/
theorem validateItems_ok_iff_toolHistory {items : List CanonicalItem} :
    validateItems items = .ok () ↔ ToolHistory items := by
  rw [validateItems_ok_iff]
  refine ⟨fun ⟨s, hs, hp⟩ => Scan.toolHistory hs rfl hp, fun h => ?_⟩
  obtain ⟨blocks, hblocks, rfl⟩ := h.blocks
  exact Scan.items_blocks 0 hblocks rfl (fun id hid => ⟨h.named id hid, List.not_mem_nil⟩) h.distinct

/-! ## Recent turns -/

/-- The number of user messages. -/
def userTurns (items : List CanonicalItem) : Nat := items.countP (·.isUser)

theorem userStarts_cons (i : CanonicalItem) (is : List CanonicalItem) :
    userStarts (i :: is) = (if i.isUser then [0] else []) ++ (userStarts is).map (· + 1) := by
  have hhead : ((i :: is)[0]?).any CanonicalItem.isUser = i.isUser := rfl
  have htail : (fun k => ((i :: is)[k]?).any CanonicalItem.isUser) ∘ Nat.succ =
      fun k => (is[k]?).any CanonicalItem.isUser := rfl
  unfold userStarts
  rw [List.length_cons, List.range_succ_eq_map, List.filter_cons, List.filter_map, hhead, htail]
  cases i.isUser <;> rfl

theorem userStarts_length : ∀ items : List CanonicalItem, (userStarts items).length = userTurns items
  | [] => rfl
  | i :: is => by
    rw [userStarts_cons, List.length_append, List.length_map, userStarts_length is, userTurns,
      userTurns, List.countP_cons]
    cases i.isUser <;> simp [Nat.add_comm]

/-- At the index of a user message the history splits, and the later starts are in the second part. -/
theorem userStarts_split : ∀ {items : List CanonicalItem} {j start : Nat},
    (userStarts items)[j]? = some start →
    ∃ before i after, items = before ++ i :: after ∧ before.length = start ∧ i.isUser = true ∧
      userTurns (i :: after) + j = userTurns items
  | [], j, start, h => by cases h
  | i :: is, j, start, h => by
    have hrest : ∀ {k : Nat}, ((userStarts is).map (· + 1))[k]? = some start →
        ∃ before x after, i :: is = before ++ x :: after ∧ before.length = start ∧ x.isUser = true ∧
          userTurns (x :: after) + k = userTurns is := by
      intro k hk
      rw [List.getElem?_map] at hk
      obtain ⟨start', hstart, rfl⟩ := Option.map_eq_some_iff.1 hk
      obtain ⟨before, x, after, rfl, hlen, hx, hturns⟩ := userStarts_split hstart
      exact ⟨i :: before, x, after, rfl, by rw [List.length_cons, hlen], hx, hturns⟩
    rw [userStarts_cons] at h
    cases hi : i.isUser with
    | false =>
      rw [hi] at h
      obtain ⟨before, x, after, he, hlen, hx, hturns⟩ := hrest h
      refine ⟨before, x, after, he, hlen, hx, hturns.trans ?_⟩
      simp [userTurns, hi]
    | true =>
      rw [hi] at h
      have hcons : userTurns (i :: is) = userTurns is + 1 := by simp [userTurns, hi]
      cases j with
      | zero =>
        cases h
        exact ⟨[], i, is, rfl, rfl, hi, rfl⟩
      | succ k =>
        obtain ⟨before, x, after, he, hlen, hx, hturns⟩ := hrest (k := k) (by simpa using h)
        exact ⟨before, x, after, he, hlen, hx, by rw [hcons, ← hturns, Nat.add_assoc]⟩

/-- A history is of the grammar from each of its user messages on. -/
theorem toolHistory_suffix {before after : List CanonicalItem} {i : CanonicalItem}
    (hi : i.isUser = true) (h : validateItems (before ++ i :: after) = .ok ()) :
    validateItems (i :: after) = .ok () := by
  obtain ⟨s', hs', hp'⟩ := validateItems_ok_iff.1 h
  rw [Scan.items_append] at hs'
  obtain ⟨s, -, hs⟩ := bind_ok hs'
  have hother : Scan.other i := by
    cases i with
    | userMessage => exact ⟨rfl, rfl⟩
    | _ => cases hi
  have hp : s.pending = [] := by
    obtain ⟨s₁, hx, -⟩ := bind_ok hs
    rw [Scan.item_other _ hother] at hx
    split at hx
    · assumption
    · cases hx
  exact validateItems_ok_iff_toolHistory.2 (Scan.toolHistory hs hp hp')

/-- `RecentTurnsContext` on an accepted history. -/
theorem recentTurns_ok {maxTurns : Nat} {history : List CanonicalItem} (hmax : 0 < maxTurns)
    (h : validateItems history = .ok ()) (systemPrompt : Option String) :
    (userTurns history ≤ maxTurns →
      recentTurns maxTurns systemPrompt history = .ok ⟨systemPrompt, history⟩) ∧
    (maxTurns < userTurns history → ∃ before i after, history = before ++ i :: after ∧
      i.isUser = true ∧ userTurns (i :: after) = maxTurns ∧
      validateItems (i :: after) = .ok () ∧
      recentTurns maxTurns systemPrompt history = .ok ⟨systemPrompt, i :: after⟩) := by
  have hlength := userStarts_length history
  have hbuild : ∀ start suffix, (if (userStarts history).length > maxTurns then
      (userStarts history)[(userStarts history).length - maxTurns]?.getD 0 else 0) = start →
      history.drop start = suffix → validateItems suffix = .ok () →
      recentTurns maxTurns systemPrompt history = .ok ⟨systemPrompt, suffix⟩ := by
    rintro start suffix hstart hdrop hvalid
    rw [recentTurns, h, ok_bind]
    dsimp only
    rw [hstart, hdrop, validateModelContext, hvalid]
    rfl
  refine ⟨fun hle => ?_, fun hlt => ?_⟩
  · exact hbuild 0 history (if_neg (by omega)) rfl h
  · have hin : (userStarts history).length - maxTurns < (userStarts history).length := by omega
    have hget := List.getElem?_eq_getElem hin
    obtain ⟨before, i, after, hsplit, hlen, hi, hturns⟩ := userStarts_split hget
    rw [hsplit] at h
    have hvalid := toolHistory_suffix hi h
    refine ⟨before, i, after, hsplit, hi, by omega, hvalid, hbuild before.length _ ?_ ?_ hvalid⟩
    · rw [if_pos (by omega), hget, Option.getD_some, hlen]
    · rw [hsplit, List.drop_left]

/-- **The checker is the grammar.** A list of items is accepted if and only if it is a concatenation of
single messages and answered batches, with named and distinct call ids. Of an accepted history the recent
turns are the whole, or the part from the `maxTurns`-th user message from the end on, which is
accepted. -/
theorem context_grammar :
    (∀ items, validateItems items = .ok () ↔ ToolHistory items) ∧
    ∀ (maxTurns : Nat) (systemPrompt : Option String) (history : List CanonicalItem), 0 < maxTurns →
      validateItems history = .ok () →
      (userTurns history ≤ maxTurns →
        recentTurns maxTurns systemPrompt history = .ok ⟨systemPrompt, history⟩) ∧
      (maxTurns < userTurns history → ∃ before i after, history = before ++ i :: after ∧
        i.isUser = true ∧ userTurns (i :: after) = maxTurns ∧
        validateItems (i :: after) = .ok () ∧
        recentTurns maxTurns systemPrompt history = .ok ⟨systemPrompt, i :: after⟩) :=
  ⟨fun _ => validateItems_ok_iff_toolHistory,
    fun _ systemPrompt _ hmax h => recentTurns_ok hmax h systemPrompt⟩

namespace Sample

/-- Two turns, the second with an answered batch of two calls. -/
def turns : List CanonicalItem :=
  [.userMessage "first" [], .assistantMessage "reply" [] .finalAnswer, .userMessage "second" [],
   .toolCall "item-1" "call-1" none "tool" none "", .toolCall "item-2" "call-2" none "tool" none "",
   .toolResult "result-2" "call-2" (.text "") false, .toolResult "result-1" "call-1" (.text "") false]

end Sample

/-- The history is of the grammar, and its last turn is the recent one. -/
theorem context_grammar_sample : ToolHistory Sample.turns ∧
    ∃ before i after, Sample.turns = before ++ i :: after ∧ userTurns (i :: after) = 1 ∧
      recentTurns 1 none Sample.turns = .ok ⟨none, i :: after⟩ := by
  obtain ⟨hgrammar, hrecent⟩ := context_grammar
  have hvalid : validateItems Sample.turns = .ok () := by decide +kernel
  obtain ⟨before, i, after, hsplit, -, hturns, -, hbuilt⟩ :=
    (hrecent 1 none Sample.turns (by decide) hvalid).2 (by decide)
  exact ⟨(hgrammar _).1 hvalid, before, i, after, hsplit, hturns, hbuilt⟩

end Whale
