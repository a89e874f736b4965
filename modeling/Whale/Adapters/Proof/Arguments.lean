import Whale.Adapters.AnthropicRequest
import Whale.Adapters.ChatRequest
import Whale.Adapters.Proof.Responses
import Whale.Adapters.Proof.Streamed
import Whale.Adapters.ResponsesRequest

/-!
# The arguments of a tool call

A tool call is read by the three serializers, for the model, and by the coordinator, for the tool. For the
calls that the parsers emit (`Emitted`) they read the same value exactly when the raw arguments are not
empty.
-/

namespace Whale

open Streaming Check

section
variable [ToolJson]

/-- The arguments of a tool call are its raw arguments, parsed. -/
def CanonicalItem.Parsed : CanonicalItem → Prop
  | toolCall _ _ _ _ arguments rawArguments => arguments = parsedArguments rawArguments
  | _ => True

/-- The items that an event completes have their arguments parsed. -/
def CompletesParsed (e : AgentStreamEvent) : Prop := ∀ item, e.completed = some item → item.Parsed

theorem parses_of_none {e : AgentStreamEvent} (h : e.completed = none) : CompletesParsed e := by
  intro item hi
  exact absurd (h.symm.trans hi) nofun

/-! ## What the parsers emit -/

theorem Chat.parses_complete {ids : StreamIds} (s : Chat.State) :
    ∀ e ∈ (s.complete ids).1, CompletesParsed e := by
  unfold Chat.State.complete
  intro e he
  rw [List.mem_append, List.mem_append] at he
  rcases he with (he | he) | he
  · unfold Chat.State.closeReasoning at he
    split at he
    · rw [List.mem_singleton.mp he]
      intro item hi
      cases hi
      trivial
    · cases he
  · obtain ⟨id, -, rfl⟩ := List.mem_map.mp he
    intro item hi
    cases hi
    trivial
  · obtain ⟨f, -, rfl⟩ := List.mem_map.mp he
    intro item hi
    cases hi
    rfl

theorem Chat.parses_fragment {e : AgentStreamEvent} (h : Chat.isFragment e = true) : CompletesParsed e := by
  cases e with
  | itemCompleted turnId item =>
    intro item' hi
    cases hi
    cases item <;> trivial
  | _ => exact parses_of_none rfl

theorem Chat.parses {ids : StreamIds} (inputs : List Sse) :
    ∀ e ∈ (Chat.parseStream ids inputs).1, CompletesParsed e := by
  have hfinish : ∀ s : Chat.State, ∀ e ∈ (s.finish ids).1, CompletesParsed e := by
    intro s e he
    unfold Chat.State.finish at he
    split at he
    · rw [List.mem_singleton.mp he]
      exact parses_of_none rfl
    · cases he
  have hfeed : ∀ (s : Chat.State) (i : Sse), ∀ e ∈ (s.feed ids i).1, CompletesParsed e := by
    intro s i e he
    rcases @Chat.feed_cases ids _ s i with ⟨chunk, -, hfeed⟩ | ⟨-, ⟨_, -, -, hfeed⟩ | ⟨_, -, -, hfeed⟩ |
      ⟨_, hfeed⟩⟩
    · rw [hfeed] at he
      rcases Chat.chunk_events s chunk e he with he | ⟨s', he⟩ | ⟨code, message, rfl⟩
      · exact Chat.parses_fragment he
      · exact Chat.parses_complete s' e he
      · exact parses_of_none rfl
    · rw [hfeed] at he
      cases he
    · rw [hfeed] at he
      have hdone := hfinish s
      unfold Chat.State.done at he
      cases hf : s.finish ids with
      | mk out r =>
        rw [hf] at he hdone
        cases r <;> exact hdone e he
    · rw [hfeed] at he
      cases he
  have hrun : ∀ e ∈ ((Chat.parser ids).run {} inputs).1, CompletesParsed e :=
    StreamParser.run_forall hfeed hfinish inputs _
  intro e he
  rcases List.mem_cons.mp he with rfl | he
  · exact parses_of_none rfl
  · exact hrun e he

theorem Anthropic.parses_item {s : Anthropic.State} {item : CanonicalItem} (h : s.item = some item) :
    item.Parsed := by
  unfold Anthropic.State.item at h
  split at h <;> cases h
  · trivial
  · trivial
  · rfl

/-- Only the stop of a block completes an item. -/
theorem Anthropic.parses_event {ids : StreamIds} (s : Anthropic.State) (parsed : Value) :
    ∀ e ∈ (s.event ids parsed).1, CompletesParsed e := by
  intro e he
  unfold Anthropic.State.event at he
  cases hevent : Anthropic.eventOf parsed with
  | messageStart | other =>
    rw [hevent] at he
    cases he
  | error =>
    rw [hevent] at he
    rw [List.mem_singleton.mp he]
    exact parses_of_none rfl
  | messageDelta =>
    rw [hevent] at he
    dsimp only at he
    unfold Anthropic.State.messageDelta at he
    split at he
    · split at he
      · cases he
      · rw [List.mem_singleton.mp he]
        exact parses_of_none rfl
    · cases he
  | messageStop =>
    rw [hevent] at he
    dsimp only at he
    unfold Anthropic.State.messageStop at he
    split at he
    · cases he
    · rw [List.mem_singleton.mp he]
      exact parses_of_none rfl
  | blockStart =>
    rw [hevent] at he
    dsimp only at he
    unfold Anthropic.State.start at he
    split at he
    · cases he
    · split at he
      · cases he
      · obtain ⟨a, -, rfl⟩ := List.mem_map.mp he
        exact parses_of_none rfl
  | blockDelta =>
    rw [hevent] at he
    dsimp only at he
    unfold Anthropic.State.delta at he
    split at he
    · cases he
    all_goals
      rw [List.mem_singleton.mp he]
      exact parses_of_none rfl
  | blockStop =>
    rw [hevent] at he
    obtain ⟨item, hitem, rfl⟩ := List.mem_map.mp he
    intro item' hi
    cases hi
    exact Anthropic.parses_item (Option.mem_toList.mp hitem)

theorem Anthropic.parses {ids : StreamIds} (inputs : List Sse) :
    ∀ e ∈ (Anthropic.parseStream ids inputs).1, CompletesParsed e := by
  have hfeed : ∀ (s : Anthropic.State) (i : Sse), ∀ e ∈ (s.feed ids i).1, CompletesParsed e := by
    intro s i e he
    unfold Anthropic.State.feed at he
    split at he
    · cases he
    · cases he
    · exact Anthropic.parses_event s _ e he
  have hrun : ∀ e ∈ ((Anthropic.parser ids).run { itemId := ids.item 0 } inputs).1, CompletesParsed e :=
    StreamParser.run_forall hfeed (fun _ e he => absurd (show e ∈ [] from he) List.not_mem_nil) inputs _
  intro e he
  rcases List.mem_cons.mp he with rfl | he
  · exact parses_of_none rfl
  · exact hrun e he

namespace Responses

theorem parsed_of_canonical {value : Value} {item : CanonicalItem} (h : canonical value = .ok item) :
    item.Parsed := by
  unfold canonical at h
  obtain ⟨id, -, h⟩ := bind_ok h
  obtain ⟨type, -, h⟩ := bind_ok h
  split at h
  · obtain ⟨role, -, h⟩ := bind_ok h
    obtain ⟨-, h⟩ := refuse_bind_ok h
    obtain ⟨parts, -, h⟩ := orElse_bind_ok h
    obtain ⟨content, -, h⟩ := bind_ok h
    obtain ⟨ph, -, h⟩ := bind_ok h
    cases h
    trivial
  · obtain ⟨raw, -, h⟩ := bind_ok h
    obtain ⟨callId, -, h⟩ := bind_ok h
    obtain ⟨name, -, h⟩ := bind_ok h
    cases h
    rfl
  · obtain ⟨-, h⟩ := refuse_bind_ok h
    obtain ⟨summary, -, h⟩ := orElse_bind_ok h
    obtain ⟨thinking, -, h⟩ := bind_ok h
    cases h
    trivial
  · cases h

variable {s s' : ResponseState} {index : Nat} {value : Value} {turnId : String} {ids : StreamIds}

omit [ToolJson] in
theorem completed_start {ev : Option AgentStreamEvent} (h : s.start index value turnId = .ok (ev, s')) :
    ∀ e ∈ ev.toList, e.completed = none := by
  rcases start_cases h with ⟨rfl, -, -⟩ | ⟨id, type, phase, -, -, -, -, rfl, -⟩
  · nofun
  · intro e he
    rw [List.mem_singleton.mp he]
    rfl

theorem parses_finish {out : List AgentStreamEvent} (h : s.finish index value turnId = .ok (out, s')) :
    ∀ e ∈ out, CompletesParsed e := by
  unfold ResponseState.finish at h
  obtain ⟨⟨ev, s1⟩, hs, h⟩ := bind_ok h
  have hstart : ∀ e ∈ ev.toList, CompletesParsed e := fun e he => parses_of_none (completed_start hs e he)
  obtain ⟨item, hitem, h⟩ := bind_ok h
  split at h
  · obtain ⟨completed, -, h⟩ := bind_ok h
    obtain ⟨-, h⟩ := refuse_bind_ok h
    cases h
    exact hstart
  · cases h
    intro e he
    rcases List.mem_append.mp he with he | he
    · exact hstart e he
    · rw [List.mem_singleton.mp he]
      intro item' hi
      cases hi
      exact parsed_of_canonical hitem

theorem parses_finishAll : ∀ (values : List Value) (index : Nat) (s : ResponseState),
    ∀ e ∈ (s.finishAll turnId index values).1, CompletesParsed e
  | [], _, _ => nofun
  | value :: values, index, s => by
    intro e he
    unfold ResponseState.finishAll at he
    cases hf : s.finish index value turnId with
    | error err =>
      rw [hf] at he
      cases he
    | ok r =>
      rw [hf] at he
      rcases List.mem_append.mp he with he | he
      · exact parses_finish hf e he
      · exact parses_finishAll values (index + 1) r.2 e he

omit [ToolJson] in
theorem delta_completed {kind : DeltaKind} {e : AgentStreamEvent} (h : s.delta ids kind value = .ok e) :
    e.completed = none := by
  unfold ResponseState.delta at h
  obtain ⟨it, -, h⟩ := bind_ok h
  obtain ⟨itemId, -, h⟩ := bind_ok h
  obtain ⟨d, -, h⟩ := bind_ok h
  obtain ⟨type, -, h⟩ := bind_ok h
  cases kind with
  | text =>
    obtain ⟨-, h⟩ := refuse_bind_ok h
    cases h
    rfl
  | reasoning =>
    obtain ⟨-, h⟩ := refuse_bind_ok h
    cases h
    rfl
  | arguments =>
    obtain ⟨-, h⟩ := refuse_bind_ok h
    obtain ⟨callId, -, h⟩ := bind_ok h
    cases h
    rfl

theorem parses_complete (s : ResponseState) (response : Value) :
    ∀ e ∈ (s.complete ids response).1, CompletesParsed e := by
  unfold ResponseState.complete
  cases ResponseState.outputOf response with
  | error err => nofun
  | ok output =>
    have hall := @parses_finishAll _ ids.turnId output 0 s
    dsimp only
    cases hr : s.finishAll ids.turnId 0 output with
    | mk out r =>
      rw [hr] at hall
      cases r with
      | error err => exact hall
      | ok s' =>
        dsimp only
        split
        · exact hall
        · intro e he
          rcases List.mem_append.mp he with he | he
          · exact hall e he
          · rw [List.mem_singleton.mp he]
            exact parses_of_none rfl

theorem parses_emitted {r : Except AdapterError (List AgentStreamEvent × ResponseState)}
    (h : ∀ out s', r = .ok (out, s') → ∀ e ∈ out, CompletesParsed e) :
    ∀ e ∈ (ResponseState.emitted r).1, CompletesParsed e := by
  cases r with
  | error err => nofun
  | ok p => exact h p.1 p.2 rfl

theorem parses_event (s : ResponseState) (type : String) (value : Value) :
    ∀ e ∈ (s.event ids type value).1, CompletesParsed e := by
  unfold ResponseState.event
  cases eventOf type with
  | progress | annotationAdded | other => nofun
  | error | failed | incomplete =>
    intro e he
    rw [List.mem_singleton.mp he]
    exact parses_of_none rfl
  | itemAdded =>
    refine parses_emitted fun out s' hr => ?_
    obtain ⟨index, -, hr⟩ := bind_ok hr
    obtain ⟨⟨ev, s1⟩, hs, hr⟩ := bind_ok hr
    cases hr
    exact fun e he => parses_of_none (completed_start hs e he)
  | itemDone =>
    refine parses_emitted fun out s' hr => ?_
    obtain ⟨index, -, hr⟩ := bind_ok hr
    exact parses_finish hr
  | delta kind =>
    refine parses_emitted fun out s' hr => ?_
    obtain ⟨d, hd, hr⟩ := bind_ok hr
    cases hr
    intro e he
    rw [List.mem_singleton.mp he]
    exact parses_of_none (delta_completed hd)
  | part =>
    refine parses_emitted fun out s' hr => ?_
    obtain ⟨it, -, hr⟩ := bind_ok hr
    cases hr
    nofun
  | completed => exact parses_complete s _

theorem parses (inputs : List Sse) : ∀ e ∈ (parseStream ids inputs).1, CompletesParsed e := by
  have hfeed : ∀ (s : ResponseState) (i : Sse), ∀ e ∈ (s.feed ids i).1, CompletesParsed e := by
    intro s i e he
    unfold ResponseState.feed at he
    split at he
    · cases he
    · split at he
      · cases he
      · split at he
        · cases he
        · split at he
          · cases he
          · exact parses_event s _ _ e he
  have hrun : ∀ e ∈ ((parser ids).run {} inputs).1, CompletesParsed e :=
    StreamParser.run_forall hfeed (fun _ e he => absurd (show e ∈ [] from he) List.not_mem_nil) inputs _
  intro e he
  rcases List.mem_cons.mp he with rfl | he
  · exact parses_of_none rfl
  · exact hrun e he

end Responses

/-! ## One call, four readings -/

/-- An item that one of the parsers emits. -/
def Emitted (item : CanonicalItem) : Prop :=
  ∃ (ids : StreamIds) (turnId : String) (inputs : List Sse),
    .itemCompleted turnId item ∈ (Chat.parseStream ids inputs).1 ∨
    .itemCompleted turnId item ∈ (Anthropic.parseStream ids inputs).1 ∨
    .itemCompleted turnId item ∈ (Responses.parseStream ids inputs).1

theorem Emitted.parsed {item : CanonicalItem} (h : Emitted item) : item.Parsed := by
  obtain ⟨ids, turnId, inputs, h | h | h⟩ := h
  · exact Chat.parses inputs _ h item rfl
  · exact Anthropic.parses inputs _ h item rfl
  · exact Responses.parses inputs _ h item rfl

variable [JsonText]

/-- A value is what the three serializers replay of a call and what the coordinator executes it with. -/
structure SeenAs (arguments : Option Value) (rawArguments : String) (v : Value) : Prop where
  chat : ToolJson.parse (Chat.callArguments arguments rawArguments) = .ok v
  anthropic : Anthropic.inputOf arguments rawArguments = v
  responses : ToolJson.parse (Responses.callArguments arguments rawArguments) = .ok v
  executed : toolArguments arguments rawArguments = .ok v

omit [JsonText] in
/-- A call that is admitted is validated, and shown for approval, with the executed value. -/
theorem admitCall_original {c : Coordinator} {callId name rawArguments : String} {arguments : Option Value}
    {inv : Invocation} (h : c.admitCall callId name arguments rawArguments = .ok inv) :
    toolArguments arguments rawArguments = .ok inv.original ∧ inv.arguments = inv.original ∧
      validateArguments inv.handler "Invalid tool arguments: " inv.original = .ok () := by
  unfold Coordinator.admitCall at h
  obtain ⟨handler, -, h⟩ := orElse_bind_ok h
  obtain ⟨original, horiginal, h⟩ := bind_ok h
  obtain ⟨u, hvalid, h⟩ := bind_ok h
  cases h
  exact ⟨horiginal, rfl, hvalid⟩

/-- A call with raw arguments that are JSON is read as their value everywhere. -/
theorem seenAs_of_parsed {rawArguments : String} {v : Value} (hraw : rawArguments ≠ "")
    (hv : ToolJson.parse rawArguments = .ok v) :
    SeenAs (parsedArguments rawArguments) rawArguments v := by
  have hparsed : parsedArguments rawArguments = some v := by
    unfold parsedArguments
    rw [hv]
    rfl
  rw [hparsed]
  refine ⟨?_, rfl, ?_, rfl⟩
  · rw [Chat.callArguments, if_pos hraw, hv]
  · rw [Responses.callArguments, if_neg hraw, hv]

/-- A call without arguments is replayed as an empty object and refused. -/
theorem replayed_of_empty {e : String} (hempty : ToolJson.parse "" = .error e)
    (hobject : ToolJson.parse "\x7b\x7d" = .ok (.object [])) :
    ToolJson.parse (Chat.callArguments (parsedArguments "") "") = .ok (.object []) ∧
    Anthropic.inputOf (parsedArguments "") "" = .object [] ∧
    ToolJson.parse (Responses.callArguments (parsedArguments "") "") = .ok (.object []) ∧
    toolArguments (parsedArguments "") "" = .error ("Failed to parse tool arguments: " ++ e) := by
  have hparsed : parsedArguments "" = none := by
    unfold parsedArguments
    rw [hempty]
    rfl
  rw [hparsed]
  refine ⟨hobject, ?_, hobject, ?_⟩
  · unfold Anthropic.inputOf
    rw [hempty]
  · unfold toolArguments
    rw [hempty]

/-- The model and the tool see the same arguments of an emitted call exactly when its raw arguments are not
empty, and what is admitted is validated and shown for approval with them. -/
theorem arguments_agree_iff {e : String} (hempty : ToolJson.parse "" = .error e)
    (hobject : ToolJson.parse "\x7b\x7d" = .ok (.object [])) {id callId name rawArguments : String}
    {namesp : Option String} {arguments : Option Value}
    (hemitted : Emitted (.toolCall id callId namesp name arguments rawArguments))
    (hraw : rawArguments = "" ∨ ∃ v, ToolJson.parse rawArguments = .ok v) :
    ((∃ v, SeenAs arguments rawArguments v) ↔ rawArguments ≠ "") ∧
    ∀ (c : Coordinator) (inv : Invocation), c.admitCall callId name arguments rawArguments = .ok inv →
      SeenAs arguments rawArguments inv.original ∧ inv.arguments = inv.original ∧
      validateArguments inv.handler "Invalid tool arguments: " inv.original = .ok () := by
  have hparsed : arguments = parsedArguments rawArguments := hemitted.parsed
  subst hparsed
  by_cases hne : rawArguments = ""
  · subst hne
    obtain ⟨-, -, -, hrefused⟩ := replayed_of_empty hempty hobject
    refine ⟨iff_of_false (fun ⟨v, h⟩ => ?_) (fun h => h rfl), fun c inv hadmit => ?_⟩
    · exact absurd (hrefused.symm.trans h.executed) nofun
    · exact absurd (hrefused.symm.trans (admitCall_original hadmit).1) nofun
  · obtain ⟨v, hv⟩ := hraw.resolve_left hne
    have hseen := seenAs_of_parsed hne hv
    refine ⟨iff_of_true ⟨v, hseen⟩ hne, fun c inv hadmit => ?_⟩
    obtain ⟨horiginal, harguments, hvalid⟩ := admitCall_original hadmit
    obtain rfl : v = inv.original := Except.ok.inj (hseen.executed.symm.trans horiginal)
    exact ⟨hseen, harguments, hvalid⟩

end

namespace Sample

/-- A chunk with a tool call, and its arguments if any. -/
def calling (arguments : Option String) : String × Value :=
  ("\x7b\"choices\":[\x7b\"delta\":\x7b\"tool_calls\":[\x7b\"index\":0,\"id\":\"call\",\"function\":" ++
      "\x7b\"name\":\"tool\"" ++ (arguments.map (",\"arguments\":\"" ++ · ++ "\"")).getD "" ++
      "\x7d\x7d]\x7d,\"finish_reason\":\"tool_calls\"\x7d]\x7d",
    .object [("choices", .array [.object [
      ("delta", .object [("tool_calls", .array [.object [
        ("function", .object ((arguments.map fun a => ("arguments", Value.string a)).toList ++
          [("name", .string "tool")])),
        ("id", .string "call"), ("index", .number (.int 0))]])]),
      ("finish_reason", .string "tool_calls")]])])

/-- The JSON of the sample's calls. -/
@[reducible] def callJson : ToolJson where
  parse s :=
    match [calling none, calling (some "\x7b\x7d"), ("\x7b\x7d", .object [])].lookup s with
    | some v => .ok v
    | none => .error (if s = "" then "EOF while parsing a value at line 1 column 0" else "not a sample input")
  build _ := .ok fun _ => .ok ()

/-- The text of the sample's only object. -/
@[reducible] def objectText : JsonText where
  print v := if v = .object [] then "\x7b\x7d" else "not a sample input"

end Sample

/-- A call with an empty object as its arguments. -/
theorem arguments_agree_sample :
    ∃ v, @SeenAs Sample.callJson Sample.objectText (some (.object [])) "\x7b\x7d" v := by
  have hemitted : @Emitted Sample.callJson
      (.toolCall "i" "call" none "tool" (some (.object [])) "\x7b\x7d") :=
    ⟨Sample.streamIds, "turn", [.ok (Sample.calling (some "\x7b\x7d")).1], .inl (by decide +kernel)⟩
  exact (@arguments_agree_iff Sample.callJson Sample.objectText _ (by rfl) (by rfl) "i" "call" "tool"
    "\x7b\x7d" none (some (.object [])) hemitted (.inr ⟨.object [], by rfl⟩)).1.mpr (by decide)

/-- A call whose stream carries no arguments is replayed with an empty object and refused as unparseable. -/
theorem empty_arguments_refused :
    @Emitted Sample.callJson (.toolCall "i" "call" none "tool" none "") ∧
    @ToolJson.parse Sample.callJson (@Chat.callArguments Sample.objectText none "") = .ok (.object []) ∧
    @Anthropic.inputOf Sample.callJson none "" = .object [] ∧
    @ToolJson.parse Sample.callJson (@Responses.callArguments Sample.objectText none "") = .ok (.object []) ∧
    @Coordinator.admitCall Sample.callJson
        ⟨fun _ => some { parameters := .object [] }, none, false, false⟩ "call" "tool" none "" =
      .error "Failed to parse tool arguments: EOF while parsing a value at line 1 column 0" ∧
    ¬ ∃ v, @SeenAs Sample.callJson Sample.objectText none "" v := by
  have hemitted : @Emitted Sample.callJson (.toolCall "i" "call" none "tool" none "") :=
    ⟨Sample.streamIds, "turn", [.ok (Sample.calling none).1], .inl (by decide +kernel)⟩
  refine ⟨hemitted, by rfl, by rfl, by rfl, by rfl, ?_⟩
  rintro ⟨v, h⟩
  have hexecuted := @SeenAs.executed Sample.callJson Sample.objectText _ _ _ h
  cases hexecuted

end Whale
