import Mathlib.Data.List.Chain
import Mathlib.Data.List.ModifyLast
import Whale.Adapters.AnthropicRequest
import Whale.Adapters.ChatRequest
import Whale.Core.Proof.Grammar

/-!
# The grammar of serialized conversations

A history of the grammar (`ToolHistory`) is serialized into messages in which every batch of calls keeps
together and is followed by its results.
-/

namespace Whale

open Check

/-! ## Runs of calls -/

/-- The items are calls, and those around them are not. -/
structure MaximalRun (before run after : List CanonicalItem) : Prop where
  nonempty : run ≠ []
  calling : ∀ i ∈ run, i.callId?.isSome
  left : ∀ i, before.getLast? = some i → i.callId? = none
  right : ∀ i, after.head? = some i → i.callId? = none

/-- The results that answer a batch are not empty. -/
theorem results_ne_nil {calls results : List CanonicalItem} (hne : calls ≠ [])
    (h : (results.map (·.resultId?)).Perm (calls.map (·.callId?))) : results ≠ [] := by
  rintro rfl
  exact hne (List.map_eq_nil_iff.mp (List.nil_perm.mp h))

/-- A result is no call. -/
theorem callId_of_answer {calls results : List CanonicalItem} (hcalls : ∀ c ∈ calls, c.callId?.isSome)
    (h : (results.map (·.resultId?)).Perm (calls.map (·.callId?))) :
    ∀ r ∈ results, r.resultId?.isSome ∧ r.callId? = none := by
  intro r hr
  have hm : r.resultId? ∈ calls.map (·.callId?) := h.mem_iff.mp (List.mem_map_of_mem hr)
  obtain ⟨c, hc, heq⟩ := List.mem_map.mp hm
  have hsome : r.resultId?.isSome := heq ▸ hcalls c hc
  refine ⟨hsome, ?_⟩
  cases r <;> first | rfl | cases hsome

/-- A call and what is no call differ. -/
theorem MaximalRun.head {before run after : List CanonicalItem} (h : MaximalRun before run after) :
    ∃ c tail, run = c :: tail ∧ c.callId?.isSome := by
  obtain ⟨c, tail, rfl⟩ := List.exists_cons_of_ne_nil h.nonempty
  exact ⟨c, tail, rfl, h.calling c List.mem_cons_self⟩

/-- A run stays maximal without the first items. -/
theorem MaximalRun.drop {front before run after : List CanonicalItem}
    (h : MaximalRun (front ++ before) run after) : MaximalRun before run after where
  nonempty := h.nonempty
  calling := h.calling
  left i hi := h.left i (by rw [List.getLast?_append, hi]; rfl)
  right := h.right

/-- And with more items, the last of which is no call, in front. -/
theorem MaximalRun.push {front before run after : List CanonicalItem} (h : MaximalRun before run after)
    (hfront : ∀ i, front.getLast? = some i → i.callId? = none) :
    MaximalRun (front ++ before) run after where
  nonempty := h.nonempty
  calling := h.calling
  left i hi := by
    rw [List.getLast?_append] at hi
    cases hb : before.getLast? with
    | some j =>
      rw [hb] at hi
      exact h.left i (hb.trans hi)
    | none =>
      rw [hb] at hi
      exact hfront i hi
  right := h.right

/-- No block ends with a call. -/
theorem Block.last {b : List CanonicalItem} (h : Block b) :
    ∀ i, b.getLast? = some i → i.callId? = none := by
  intro i hi
  cases h with
  | single other =>
    cases hi
    exact other.1
  | @batch calls results nonempty calling answered =>
    have hresults := callId_of_answer calling answered
    cases hr : results.getLast? with
    | none => exact absurd (List.getLast?_eq_none_iff.1 hr) (results_ne_nil nonempty answered)
    | some r =>
      rw [List.getLast?_append, hr] at hi
      cases hi
      exact (hresults _ (List.mem_of_getLast? hr)).2

/-- A maximal run of calls at the front of a batch is its calls. -/
theorem MaximalRun.eq_calls {run after calls rest : List CanonicalItem} (h : MaximalRun [] run after)
    (hcalls : ∀ c ∈ calls, c.callId?.isSome) (hrest : ∀ i, rest.head? = some i → i.callId? = none)
    (heq : calls ++ rest = run ++ after) : calls = run ∧ rest = after := by
  rcases List.append_eq_append_iff.1 heq with ⟨more, rfl, rfl⟩ | ⟨more, rfl, rfl⟩
  · cases more with
    | nil => exact ⟨(List.append_nil _).symm, rfl⟩
    | cons i more =>
      have hi := h.calling i (List.mem_append_right _ List.mem_cons_self)
      rw [hrest i rfl] at hi
      cases hi
  · cases more with
    | nil => exact ⟨List.append_nil _, rfl⟩
    | cons i more =>
      have hi := hcalls i (List.mem_append_right _ List.mem_cons_self)
      rw [h.right i rfl] at hi
      cases hi

/-- A maximal run behind a batch or within it: behind, or its calls. -/
theorem MaximalRun.batch {before run after calls results items : List CanonicalItem}
    (h : MaximalRun before run after) (hcalls : ∀ c ∈ calls, c.callId?.isSome)
    (hresults : ∀ r ∈ results, r.callId? = none) (hsome : results ≠ [])
    (heq : calls ++ (results ++ items) = before ++ (run ++ after)) :
    (∃ before', MaximalRun before' run after ∧ before = (calls ++ results) ++ before' ∧
      items = before' ++ (run ++ after)) ∨
    (before = [] ∧ run = calls ∧ after = results ++ items) := by
  obtain ⟨c, tail, hrun, hc⟩ := h.head
  rcases List.append_eq_append_iff.1 heq with ⟨front, rfl, hfront⟩ | ⟨front, hfront, hafter⟩
  · -- the calls are before the run, and so are the results
    rcases List.append_eq_append_iff.1 hfront with ⟨before', rfl, rfl⟩ | ⟨front', rfl, hitems⟩
    · rw [← List.append_assoc] at h
      exact .inl ⟨before', h.drop, (List.append_assoc _ _ _).symm, rfl⟩
    · cases front' with
      | nil =>
        rw [List.append_nil]
        have hnil : MaximalRun ((calls ++ front) ++ []) run after := by rwa [List.append_nil]
        exact .inl ⟨[], hnil.drop, (List.append_nil _).symm, hitems.symm⟩
      | cons r front' =>
        rw [hrun] at hitems
        obtain rfl : c = r := (List.cons.inj hitems).1
        rw [hresults c (List.mem_append_right _ List.mem_cons_self)] at hc
        cases hc
  · -- the run starts among the calls, so with the first of them
    cases hb : before.getLast? with
    | some i =>
      have hi := h.left i hb
      have hcall := hcalls i (hfront ▸ List.mem_append_left _ (List.mem_of_getLast? hb))
      rw [hi] at hcall
      cases hcall
    | none =>
      obtain rfl := List.getLast?_eq_none_iff.1 hb
      rw [List.nil_append] at heq
      have hrest : ∀ i, (results ++ items).head? = some i → i.callId? = none := fun i hi => by
        obtain ⟨r, results, rfl⟩ := List.exists_cons_of_ne_nil hsome
        cases hi
        exact hresults _ List.mem_cons_self
      obtain ⟨rfl, rfl⟩ := h.eq_calls hcalls hrest heq
      exact .inr ⟨rfl, rfl, rfl⟩

/-- A maximal run of calls is a batch of the grammar: its results follow, and what is before and behind them
is of the grammar. -/
theorem Blocks.run {run after : List CanonicalItem} :
    ∀ {blocks : List (List CanonicalItem)} {before : List CanonicalItem}, MaximalRun before run after →
      (∀ b ∈ blocks, Block b) → blocks.flatten = before ++ (run ++ after) →
      ∃ results rest, after = results ++ rest ∧ (results.map (·.resultId?)).Perm (run.map (·.callId?)) ∧
        Blocks rest
  | [], before, hrun, _, heq => by
    have hnil := List.append_eq_nil_iff.1 (List.append_eq_nil_iff.1 heq.symm).2
    exact absurd hnil.1 hrun.nonempty
  | b :: blocks, before, hrun, hblocks, heq => by
    obtain ⟨hb, hrest⟩ := List.forall_mem_cons.1 hblocks
    rw [List.flatten_cons] at heq
    cases hb with
    | @single i other =>
      cases before with
      | nil =>
        obtain ⟨c, tail, rfl, hc⟩ := hrun.head
        obtain rfl : i = c := (List.cons.inj heq).1
        rw [other.1] at hc
        cases hc
      | cons j before =>
        exact Blocks.run (@MaximalRun.drop [j] _ _ _ hrun) hrest (List.cons.inj heq).2
    | @batch calls results nonempty calling answered =>
      rw [List.append_assoc] at heq
      have hresults := callId_of_answer calling answered
      rcases hrun.batch calling (fun r hr => (hresults r hr).2) (results_ne_nil nonempty answered) heq
        with ⟨before', hrun', -, heq'⟩ | ⟨rfl, rfl, rfl⟩
      · exact Blocks.run hrun' hrest heq'
      · exact ⟨results, blocks.flatten, rfl, answered, blocks, hrest, rfl⟩

namespace Chat

/-- The message is one of a tool with this call id. -/
def Message.answers : Message → Option String
  | .tool callId _ => some callId
  | _ => none

/-- A message as messages of single items. -/
def Message.split : Message → List Message
  | .toolCalls calls => calls.map fun call => .toolCalls [call]
  | message => [message]

section
variable [JsonText]

/-- The message of an item alone. -/
def itemMessage : CanonicalItem → Message
  | .userMessage _ content => .user (userContent content)
  | .assistantMessage _ content _ => .assistant (joinedText content)
  | .reasoning _ thinking _ _ => .reasoning thinking
  | .toolCall _ callId _ name arguments rawArguments =>
    .toolCalls [toolCall callId name arguments rawArguments]
  | .toolResult _ callId output _ => .tool callId (toolContent output)

/-- The calls of an assistant message, in the grammar of the provider. -/
structure Answered (history : List CanonicalItem) (calls : List Value) (back : List Message) : Prop where
  /-- They are a maximal run of calls of the history. -/
  run : ∃ before run after, history = before ++ (run ++ after) ∧ MaximalRun before run after ∧
    calls.map (fun call => Message.toolCalls [call]) = run.map itemMessage
  distinct : (calls.map (·.strAt "id")).Nodup
  named : ∀ call ∈ calls, (call.strAt "id").isSome
  /-- One tool message for each of them follows, and no other. -/
  answered : ∃ tools rest, back = tools ++ rest ∧
    (tools.map (·.answers)).Perm (calls.map (·.strAt "id")) ∧ ∀ m, rest.head? = some m → m.answers = none

/-- The element of `tool_calls` of a call. -/
def callValue : CanonicalItem → Option Value
  | .toolCall _ callId _ name arguments rawArguments => some (toolCall callId name arguments rawArguments)
  | _ => none

/-- The messages of a block: one with its calls, and those of its other items. -/
def blockMessages (b : List CanonicalItem) : List Message :=
  (if b.filterMap callValue = [] then [] else [.toolCalls (b.filterMap callValue)]) ++
    (b.filter (·.callId?.isNone)).map itemMessage

/-- The calls are a batch of the items, and what is behind are its results and the messages of the blocks
behind it. -/
def Batched (items : List CanonicalItem) (calls : List Value) (back : List Message) : Prop :=
  ∃ (before run results : List CanonicalItem) (later : List (List CanonicalItem)),
    items = before ++ (run ++ (results ++ later.flatten)) ∧
    MaximalRun before run (results ++ later.flatten) ∧ calls = run.filterMap callValue ∧
    (results.map (·.resultId?)).Perm (run.map (·.callId?)) ∧ (∀ b ∈ later, Block b) ∧
    back = results.map itemMessage ++ later.flatMap blockMessages

theorem Batched.push {b items : List CanonicalItem} {calls : List Value} {back : List Message}
    (hb : Block b) (h : Batched items calls back) : Batched (b ++ items) calls back := by
  obtain ⟨before, run, results, later, rfl, hrun, hsame⟩ := h
  exact ⟨b ++ before, run, results, later, (List.append_assoc _ _ _).symm, hrun.push hb.last, hsame⟩

end

end Chat

/-! ## Anthropic -/

namespace Anthropic

section
variable [ToolJson] [JsonText]

/-- The blocks of an item. -/
def blocksOf (i : CanonicalItem) : List Value := (itemBlocks i).2

omit [ToolJson] [JsonText] in
theorem pushOrMerge_same (front : List Message) (role : Role) (content blocks : List Value) :
    pushOrMergeMessage (front ++ [⟨role, content⟩]) role blocks = front ++ [⟨role, content ++ blocks⟩] := by
  simp [pushOrMergeMessage]

omit [ToolJson] [JsonText] in
theorem pushOrMerge_new {messages : List Message} {role : Role} (blocks : List Value)
    (h : ∀ m, messages.getLast? = some m → m.role ≠ role) :
    pushOrMergeMessage messages role blocks = messages ++ [⟨role, blocks⟩] := by
  unfold pushOrMergeMessage
  cases hlast : messages.getLast? with
  | none => rw [List.getLast?_eq_none_iff.1 hlast]; rfl
  | some m => simp [h m hlast]

/-- An item without blocks is skipped. -/
theorem pushItem_empty {i : CanonicalItem} (h : blocksOf i = []) (messages : List Message) :
    pushItem messages i = messages := by
  have hempty : (itemBlocks i).2.isEmpty = true := List.isEmpty_iff.2 h
  exact if_pos hempty

theorem pushItem_some {i : CanonicalItem} (h : blocksOf i ≠ []) (messages : List Message) :
    pushItem messages i = pushOrMergeMessage messages (itemBlocks i).1 (blocksOf i) := by
  have hsome : ¬ (itemBlocks i).2.isEmpty = true := fun hempty => h (List.isEmpty_iff.1 hempty)
  exact if_neg hsome

/-- The blocks of an item join the last message, or are a new one. -/
theorem pushItem_cases {i : CanonicalItem} (h : blocksOf i ≠ []) (messages : List Message) :
    (∃ front content, messages = front ++ [⟨(itemBlocks i).1, content⟩] ∧
      pushItem messages i = front ++ [⟨(itemBlocks i).1, content ++ blocksOf i⟩]) ∨
    ((∀ m, messages.getLast? = some m → m.role ≠ (itemBlocks i).1) ∧
      pushItem messages i = messages ++ [⟨(itemBlocks i).1, blocksOf i⟩]) := by
  rw [pushItem_some h]
  by_cases hlast : ∃ m, messages.getLast? = some m ∧ m.role = (itemBlocks i).1
  · obtain ⟨⟨role, content⟩, hm, rfl⟩ := hlast
    obtain ⟨front, rfl⟩ := List.getLast?_eq_some_iff.1 hm
    exact .inl ⟨front, content, rfl, pushOrMerge_same ..⟩
  · have hnew : ∀ m, messages.getLast? = some m → m.role ≠ (itemBlocks i).1 :=
      fun m hm hrole => hlast ⟨m, hm, hrole⟩
    exact .inr ⟨hnew, pushOrMerge_new _ hnew⟩

/-- Messages with different roles in turn, with content. -/
structure Alternating (messages : List Message) : Prop where
  alternate : messages.IsChain fun m m' => m.role ≠ m'.role
  nonempty : ∀ m ∈ messages, m.content ≠ []

theorem Alternating.pushItem {messages : List Message} (h : Alternating messages) (i : CanonicalItem) :
    Alternating (pushItem messages i) := by
  by_cases hi : blocksOf i = []
  · rwa [pushItem_empty hi]
  · rcases pushItem_cases hi messages with ⟨front, content, rfl, hpush⟩ | ⟨hnew, hpush⟩
    · rw [hpush]
      obtain ⟨hfront, -, hjoint⟩ := List.isChain_append.1 h.alternate
      refine ⟨List.isChain_append.2 ⟨hfront, .singleton _, fun m hm m' hm' => ?_⟩, fun m hm => ?_⟩
      · cases hm'
        exact hjoint m hm ⟨_, content⟩ rfl
      · rcases List.mem_append.1 hm with hm | hm
        · exact h.nonempty m (List.mem_append_left _ hm)
        · cases List.mem_singleton.1 hm
          exact List.append_ne_nil_of_right_ne_nil _ hi
    · rw [hpush]
      refine ⟨List.isChain_append.2 ⟨h.alternate, .singleton _, fun m hm m' hm' => ?_⟩, fun m hm => ?_⟩
      · cases hm'
        exact hnew m hm
      · rcases List.mem_append.1 hm with hm | hm
        · exact h.nonempty m hm
        · cases List.mem_singleton.1 hm
          exact hi

theorem Alternating.foldl {items : List CanonicalItem} : ∀ {messages : List Message},
    Alternating messages → Alternating (items.foldl Anthropic.pushItem messages) := by
  induction items with
  | nil => exact fun h => h
  | cons i items ih => exact fun h => ih (h.pushItem i)

end

end Anthropic

namespace Sample

end Sample

end Whale
