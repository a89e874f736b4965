import Whale.Adapters.Proof.Anthropic
import Whale.Adapters.Proof.Chat

/-!
# Streamed deltas and completed items

What a parser has read before it reports a turn as completed, and when the deltas of its stream add up to
the items that it completes.
-/

namespace Whale

open Streaming

/-! ## Chat Completions -/

namespace Chat

variable [ToolJson] {ids : StreamIds} {s s' : State} {out : List AgentStreamEvent}

/-- The finish reason of an input. -/
def reasonOf (input : Sse) : Option String :=
  ((chunkOf input).bind choiceOf).bind (·.strAt "finish_reason")

/-- The provider breaks off: an input that is no JSON, an error, or an unsupported finish reason. -/
inductive Troubled : Sse → Prop
  | transport (e : String) : Troubled (.error e)
  | garbled (data : String) (blank : trim data ≠ "") (unfinished : trim data ≠ "[DONE]")
      (json : chunkOf (.ok data) = none) : Troubled (.ok data)
  | error (input : Sse) (chunk err : Value) (json : chunkOf input = some chunk)
      (reported : chunk.get "error" = some err) : Troubled input
  | reason (input : Sse) (reason : String) (reported : reasonOf input = some reason)
      (unsupported : supportedReason reason = false) : Troubled input

/-- The start, a delta or the completion of a reasoning: no other item and no end of the turn. -/
def isFragment : AgentStreamEvent → Bool
  | .itemStarted .. | .textDelta .. | .reasoningDelta .. | .toolCallDelta .. => true
  | .itemCompleted _ (.reasoning ..) => true
  | _ => false

/-- The fragments of a choice finish nothing. -/
def Calm (s : State) (p : List AgentStreamEvent × State) : Prop :=
  (∀ x ∈ p.1, isFragment x = true) ∧ p.2.finished = s.finished

omit [ToolJson] in
theorem isTurnCompleted_of_fragment {x : AgentStreamEvent} (h : isFragment x = true) :
    x.isTurnCompleted = false := by
  cases x <;> first | rfl | cases h

omit [ToolJson] in
theorem Calm.trans {p q : List AgentStreamEvent × State} (hp : Calm s p) (hq : Calm p.2 q) :
    Calm s (p.1 ++ q.1, q.2) :=
  ⟨fun x hx => (List.mem_append.mp hx).elim (hp.1 x) (hq.1 x), hq.2.trans hp.2⟩

omit [ToolJson] in
theorem calm_closeReasoning (s : State) : Calm s (s.closeReasoning ids) := by
  unfold State.closeReasoning
  split
  · exact ⟨by simp [isFragment], rfl⟩
  · exact ⟨nofun, rfl⟩

omit [ToolJson] in
/-- A delta, and the start of its item before it. -/
theorem calm_started {started delta : AgentStreamEvent} {c : Prop} [Decidable c]
    (hstarted : isFragment started = true) (hdelta : isFragment delta = true) :
    ∀ x ∈ (if c then [started] else []) ++ [delta], isFragment x = true := by
  intro x hx
  rcases List.mem_append.mp hx with hx | hx
  · split at hx
    · rwa [List.mem_singleton.mp hx]
    · cases hx
  · rwa [List.mem_singleton.mp hx]

omit [ToolJson] in
theorem calm_reason (s : State) (r : String) : Calm s (s.reason ids r) := by
  unfold State.reason
  split
  · exact ⟨nofun, rfl⟩
  · exact ⟨calm_started rfl rfl, rfl⟩

omit [ToolJson] in
theorem calm_speak (s : State) (content : String) : Calm s (s.speak ids content) :=
  ⟨calm_started rfl rfl, rfl⟩

omit [ToolJson] in
theorem calm_say (s : State) (content : String) : Calm s (s.say ids content) := by
  unfold State.say
  split
  · exact ⟨nofun, rfl⟩
  · exact (calm_closeReasoning s).trans (calm_speak _ content)

omit [ToolJson] in
theorem calm_call (s : State) (tc : Value) : Calm s (s.call ids tc) := by
  unfold State.call
  dsimp only
  split
  · exact ⟨nofun, rfl⟩
  · split
    · exact ⟨nofun, rfl⟩
    · exact ⟨by simp [isFragment], rfl⟩

omit [ToolJson] in
theorem calm_calls : ∀ (tcs : List Value) (s : State), Calm s (s.calls ids tcs)
  | [], _ => ⟨nofun, rfl⟩
  | tc :: tcs, s => (calm_call s tc).trans (calm_calls tcs _)

omit [ToolJson] in
theorem calm_fragments (s : State) (choice : Value) : Calm s (s.fragments ids choice) := by
  unfold State.fragments
  split
  · exact ((calm_reason s _).trans (calm_say _ _)).trans (calm_calls _ _)
  · exact ⟨nofun, rfl⟩

/-- What a chunk emits: fragments, the items that its finish reason completes, and no more than a failed
turn. -/
theorem chunk_events (s : State) (chunk : Value) : ∀ x ∈ (s.chunk ids chunk).1,
    isFragment x = true ∨ (∃ s' : State, x ∈ (s'.complete ids).1) ∨ ∃ code message,
      x = .turnFailed ids.turnId ids.threadId code message := by
  unfold State.chunk
  split
  · intro x hx
    exact .inr (.inr ⟨_, _, List.mem_singleton.mp hx⟩)
  · split
    · nofun
    · rename_i choice _
      unfold State.choose
      split
      · nofun
      · obtain ⟨hcalm, -⟩ := @calm_fragments ids (s.metered chunk) choice
        unfold State.conclude
        split
        · exact fun x hx => .inl (hcalm x hx)
        · split
          · exact fun x hx => (List.mem_append.mp hx).imp (hcalm x) fun hx => .inl ⟨_, hx⟩
          · exact fun x hx => (List.mem_append.mp hx).imp (hcalm x) fun hx =>
              .inr ⟨_, _, List.mem_singleton.mp hx⟩

/-- No chunk reports the turn as completed. -/
theorem chunk_quiet (s : State) (chunk : Value) :
    ∀ x ∈ (s.chunk ids chunk).1, x.isTurnCompleted = false := by
  intro x hx
  rcases chunk_events s chunk x hx with hx | ⟨s', hx⟩ | ⟨code, message, rfl⟩
  · exact isTurnCompleted_of_fragment hx
  · obtain ⟨items, hout, -⟩ := @complete_items ids _ s'
    rw [hout] at hx
    obtain ⟨item, -, rfl⟩ := List.mem_map.mp hx
    rfl
  · rfl

/-- What a choice says that the parser goes on from. -/
theorem choose_go {choice : Value} (h : s.choose ids choice = (out, .go s')) :
    (∀ reason, choice.strAt "finish_reason" = some reason → supportedReason reason = true) ∧
    (s'.finished = true → ∃ reason, choice.strAt "finish_reason" = some reason) := by
  unfold State.choose at h
  split at h
  · cases h
  · rename_i hopen
    obtain ⟨-, hfinished⟩ := @calm_fragments ids s choice
    unfold State.conclude at h
    cases hreason : choice.strAt "finish_reason" with
    | none =>
      rw [hreason] at h
      cases h
      exact ⟨nofun, fun hf => absurd (hfinished.symm.trans hf) hopen⟩
    | some reason =>
      rw [hreason] at h
      dsimp only at h
      split at h
      · rename_i hsupported
        refine ⟨fun r hr => ?_, fun _ => ⟨reason, rfl⟩⟩
        cases hr
        exact hsupported
      · cases h

theorem chunk_go {chunk : Value} (h : s.chunk ids chunk = (out, .go s')) :
    chunk.get "error" = none ∧
    (∀ reason, (choiceOf chunk).bind (·.strAt "finish_reason") = some reason →
      supportedReason reason = true) ∧
    (s'.finished = true → s.finished = true ∨
      ∃ reason, (choiceOf chunk).bind (·.strAt "finish_reason") = some reason) := by
  unfold State.chunk at h
  cases herr : chunk.get "error" with
  | some err =>
    rw [herr] at h
    cases h
  | none =>
    rw [herr] at h
    dsimp only at h
    cases hchoice : choiceOf chunk with
    | none =>
      rw [hchoice] at h
      cases h
      exact ⟨rfl, nofun, .inl⟩
    | some choice =>
      rw [hchoice] at h
      obtain ⟨hsupported, hfinished⟩ := choose_go h
      exact ⟨rfl, hsupported, fun hf => .inr (hfinished hf)⟩

/-- What an input is that the parser goes on from. -/
theorem feed_go {input : Sse} (h : s.feed ids input = (out, .go s')) :
    ¬ Troubled input ∧ (s'.finished = true → s.finished = true ∨
      ∃ reason, reasonOf input = some reason ∧ supportedReason reason = true) := by
  rcases @feed_cases ids _ s input with ⟨chunk, hchunk, hfeed⟩ | ⟨hchunk, hfeed⟩
  · have hreason : reasonOf input = (choiceOf chunk).bind (·.strAt "finish_reason") := by
      simp [reasonOf, hchunk]
    rw [hfeed] at h
    obtain ⟨herr, hsupported, hfinished⟩ := chunk_go h
    rw [← hreason] at hsupported hfinished
    refine ⟨fun ht => ?_, fun hf => (hfinished hf).imp_right fun ⟨r, hr⟩ => ⟨r, hr, hsupported r hr⟩⟩
    cases ht with
    | transport e => cases hchunk
    | garbled _ _ _ hjson => exact absurd (hchunk.symm.trans hjson) nofun
    | error _ chunk' err hjson hrep =>
      cases hchunk.symm.trans hjson
      exact absurd (herr.symm.trans hrep) nofun
    | reason _ reason hrep hnot => exact absurd ((hsupported reason hrep).symm.trans hnot) nofun
  · rcases hfeed with ⟨data, rfl, hblank, hfeed⟩ | ⟨data, rfl, hdone, hfeed⟩ | ⟨e, hfeed⟩
    · rw [hfeed] at h
      cases h
      refine ⟨fun ht => ?_, .inl⟩
      cases ht with
      | garbled _ hb => exact hb hblank
      | error _ chunk _ hjson => exact absurd (hchunk.symm.trans hjson) nofun
      | reason _ r hr => simp [reasonOf, hchunk] at hr
    · rw [hfeed] at h
      unfold State.done at h
      split at h <;> cases h
    · rw [hfeed] at h
      cases h

omit [ToolJson] in
theorem finish_completed {x : AgentStreamEvent} (hx : x ∈ (s.finish ids).1) : s.finished = true := by
  unfold State.finish at hx
  split at hx
  · assumption
  · cases hx

/-- Only `[DONE]` reports the turn as completed, when it is finished. -/
theorem feed_completed {input : Sse} {x : AgentStreamEvent} (hx : x ∈ (s.feed ids input).1)
    (h : x.isTurnCompleted = true) :
    s.finished = true ∧ (s.feed ids input).2 = .stop ∧ ∃ data, input = .ok data ∧ trim data = "[DONE]" := by
  rcases @feed_cases ids _ s input with ⟨chunk, -, hfeed⟩ | ⟨-, hfeed⟩
  · rw [hfeed] at hx
    exact absurd ((chunk_quiet s chunk x hx).symm.trans h) nofun
  · rcases hfeed with ⟨data, -, -, hfeed⟩ | ⟨data, rfl, hdone, hfeed⟩ | ⟨e, hfeed⟩
    · rw [hfeed] at hx
      cases hx
    · rw [hfeed] at hx ⊢
      unfold State.done State.finish at hx ⊢
      cases hf : s.finished with
      | false =>
        rw [hf] at hx
        cases hx
      | true => exact ⟨rfl, rfl, data, rfl, hdone⟩
    · rw [hfeed] at hx
      cases hx

/-- What was read of a chat completion that is reported as completed: all of it or all before `[DONE]`,
without trouble and with a finish reason. -/
structure WellEnded (inputs read rest : List Sse) : Prop where
  inputs_eq : inputs = read ++ rest
  ended : rest = [] ∨ ∃ data more, rest = .ok data :: more ∧ trim data = "[DONE]"
  untroubled : ∀ input ∈ read, ¬ Troubled input
  finished : ∃ input ∈ read, ∃ reason, reasonOf input = some reason ∧ supportedReason reason = true

/-- The inputs read so far. -/
structure Read (read : List Sse) (es : List AgentStreamEvent) (s : State) : Prop where
  quiet : ∀ x ∈ es, x.isTurnCompleted = false
  untroubled : ∀ input ∈ read, ¬ Troubled input
  finished : s.finished = true → ∃ input ∈ read, ∃ reason, reasonOf input = some reason ∧
    supportedReason reason = true

theorem Read.feed {read : List Sse} {es : List AgentStreamEvent} {input : Sse} (h : Read read es s)
    (hfeed : s.feed ids input = (out, .go s')) : Read (read ++ [input]) (es ++ out) s' := by
  obtain ⟨hsound, hfinished⟩ := feed_go hfeed
  refine ⟨fun x hx => ?_, fun input' hi => ?_, fun hf => ?_⟩
  · rcases List.mem_append.mp hx with hx | hx
    · exact h.quiet x hx
    · rw [← Bool.not_eq_true]
      intro hc
      have hstop := (@feed_completed _ ids s input x (by rw [hfeed]; exact hx) hc).2.1
      rw [hfeed] at hstop
      cases hstop
  · rcases List.mem_append.mp hi with hi | hi
    · exact h.untroubled input' hi
    · rwa [List.mem_singleton.mp hi]
  · rcases hfinished hf with hf | hf
    · obtain ⟨input', hi, hr⟩ := h.finished hf
      exact ⟨input', List.mem_append_left _ hi, hr⟩
    · exact ⟨input, by simp, hf⟩

/-- `TurnCompleted` is reported at a good end only. -/
theorem wellEnded_of_turnCompleted {inputs : List Sse}
    (h : ∃ x ∈ (parseStream ids inputs).1, x.isTurnCompleted = true) :
    ∃ read rest, WellEnded inputs read rest := by
  have hends : (parser ids).Ends Read inputs ((parser ids).run {} inputs) :=
    StreamParser.run_cases Read (fun _ _ _ _ _ _ h hfeed => h.feed hfeed)
      ⟨nofun, nofun, fun hf => by cases hf⟩ inputs
  have hcompleted : ∃ x ∈ ((parser ids).run {} inputs).1, x.isTurnCompleted = true := by
    obtain ⟨x, hx, hc⟩ := h
    rcases List.mem_cons.mp hx with rfl | hx
    · cases hc
    · exact ⟨x, hx, hc⟩
  generalize (parser ids).run {} inputs = result at hends hcompleted
  obtain ⟨x, hx, hc⟩ := hcompleted
  cases hends with
  | finished es s hread =>
    rcases List.mem_append.mp hx with hx | hx
    · exact absurd ((hread.quiet x hx).symm.trans hc) nofun
    · exact ⟨inputs, [], (List.append_nil _).symm, .inl rfl, hread.untroubled,
        hread.finished (finish_completed hx)⟩
  | stopped read rest i es last s heq hread hfeed =>
    have hfeed : s.feed ids i = (last, .stop) := hfeed
    rcases List.mem_append.mp hx with hx | hx
    · exact absurd ((hread.quiet x hx).symm.trans hc) nofun
    · obtain ⟨hf, -, data, rfl, hdone⟩ := @feed_completed _ ids s i x (by rw [hfeed]; exact hx) hc
      exact ⟨read, _, heq, .inr ⟨data, rest, rfl, hdone⟩, hread.untroubled, hread.finished hf⟩
  | failed read rest i es last s e heq hread hfeed =>
    have hfeed : s.feed ids i = (last, .fail e) := hfeed
    rcases List.mem_append.mp hx with hx | hx
    · exact absurd ((hread.quiet x hx).symm.trans hc) nofun
    · have hstop := (@feed_completed _ ids s i x (by rw [hfeed]; exact hx) hc).2.1
      rw [hfeed] at hstop
      cases hstop

end Chat

/-! ## Anthropic -/

namespace Anthropic

variable [ToolJson] {ids : StreamIds} {s s' : State} {out : List AgentStreamEvent}

/-- The provider breaks off: an input that is no JSON, an error, or an unsupported stop reason. -/
inductive Troubled : Sse → Prop
  | unreadable (input : Sse) (e : AdapterError) (read : readSse input = .error e) : Troubled input
  | error (input : Sse) (parsed : Value) (read : readSse input = .ok (some parsed))
      (event : eventOf parsed = .error) : Troubled input
  | reason (input : Sse) (parsed : Value) (reason : String) (read : readSse input = .ok (some parsed))
      (event : eventOf parsed = .messageDelta)
      (reported : ((parsed.index "delta").index "stop_reason").asStr = some reason)
      (unsupported : supportedReason reason = false) : Troubled input

/-- What was read of a message that is reported as completed: all before its `message_stop`, without
trouble. -/
structure WellEnded (inputs read rest : List Sse) (last : Sse) : Prop where
  inputs_eq : inputs = read ++ last :: rest
  ended : ∃ parsed, readSse last = .ok (some parsed) ∧ eventOf parsed = .messageStop
  untroubled : ∀ input ∈ read, ¬ Troubled input

/-- An event that the parser goes on from. -/
theorem event_go {parsed : Value} (h : s.event ids parsed = (out, .go s')) :
    eventOf parsed ≠ .error ∧ (eventOf parsed = .messageDelta → ∀ reason,
      ((parsed.index "delta").index "stop_reason").asStr = some reason → supportedReason reason = true) := by
  unfold State.event at h
  cases hevent : eventOf parsed with
  | error =>
    rw [hevent] at h
    cases h
  | messageDelta =>
    rw [hevent] at h
    refine ⟨nofun, fun _ reason hreason => ?_⟩
    dsimp only at h
    unfold State.messageDelta at h
    rw [hreason] at h
    dsimp only at h
    split at h
    · assumption
    · cases h
  | messageStart | blockStart | blockDelta | blockStop | messageStop | other => exact ⟨nofun, nofun⟩

theorem feed_go {input : Sse} (h : s.feed ids input = (out, .go s')) : ¬ Troubled input := by
  unfold State.feed at h
  intro ht
  cases ht with
  | unreadable e hread =>
    rw [hread] at h
    cases h
  | error parsed hread hevent =>
    rw [hread] at h
    exact (event_go h).1 hevent
  | reason parsed reason hread hevent hreported hnot =>
    rw [hread] at h
    exact absurd (((event_go h).2 hevent reason hreported).symm.trans hnot) nofun

/-- Only `message_stop` reports the turn as completed. -/
theorem event_completed {parsed : Value} {x : AgentStreamEvent} (hx : x ∈ (s.event ids parsed).1)
    (h : x.isTurnCompleted = true) :
    eventOf parsed = .messageStop ∧ (s.event ids parsed).2 = .stop := by
  unfold State.event at hx ⊢
  cases hevent : eventOf parsed with
  | messageStop =>
    rw [hevent] at hx
    dsimp only at hx ⊢
    unfold State.messageStop at hx ⊢
    split at hx
    · cases hx
    · rename_i hclosed
      rw [if_neg hclosed]
      exact ⟨rfl, rfl⟩
  | messageStart | other =>
    rw [hevent] at hx
    cases hx
  | error =>
    rw [hevent] at hx
    rw [List.mem_singleton.mp hx] at h
    cases h
  | messageDelta =>
    rw [hevent] at hx
    dsimp only at hx
    unfold State.messageDelta at hx
    split at hx
    · split at hx
      · cases hx
      · rw [List.mem_singleton.mp hx] at h
        cases h
    · cases hx
  | blockStart =>
    rw [hevent] at hx
    dsimp only at hx
    unfold State.start at hx
    split at hx
    · cases hx
    · split at hx
      · cases hx
      · obtain ⟨a, -, rfl⟩ := List.mem_map.mp hx
        cases h
  | blockDelta =>
    rw [hevent] at hx
    dsimp only at hx
    unfold State.delta at hx
    split at hx
    · cases hx
    all_goals
      rw [List.mem_singleton.mp hx] at h
      cases h
  | blockStop =>
    rw [hevent] at hx
    obtain ⟨item, -, rfl⟩ := List.mem_map.mp hx
    cases h

theorem feed_completed {input : Sse} {x : AgentStreamEvent} (hx : x ∈ (s.feed ids input).1)
    (h : x.isTurnCompleted = true) :
    (s.feed ids input).2 = .stop ∧
      ∃ parsed, readSse input = .ok (some parsed) ∧ eventOf parsed = .messageStop := by
  unfold State.feed at hx ⊢
  cases hread : readSse input with
  | error e =>
    rw [hread] at hx
    cases hx
  | ok parsed =>
    rw [hread] at hx
    cases parsed with
    | none => cases hx
    | some parsed =>
      obtain ⟨hevent, hstop⟩ := event_completed hx h
      exact ⟨hstop, parsed, rfl, hevent⟩

/-- The inputs read so far. -/
structure Read (read : List Sse) (es : List AgentStreamEvent) (_ : State) : Prop where
  quiet : ∀ x ∈ es, x.isTurnCompleted = false
  untroubled : ∀ input ∈ read, ¬ Troubled input

theorem Read.feed {read : List Sse} {es : List AgentStreamEvent} {input : Sse} (h : Read read es s)
    (hfeed : s.feed ids input = (out, .go s')) : Read (read ++ [input]) (es ++ out) s' := by
  refine ⟨fun x hx => ?_, fun input' hi => ?_⟩
  · rcases List.mem_append.mp hx with hx | hx
    · exact h.quiet x hx
    · rw [← Bool.not_eq_true]
      intro hc
      have hstop := (@feed_completed _ ids s input x (by rw [hfeed]; exact hx) hc).1
      rw [hfeed] at hstop
      cases hstop
  · rcases List.mem_append.mp hi with hi | hi
    · exact h.untroubled input' hi
    · rw [List.mem_singleton.mp hi]
      exact feed_go hfeed

/-- `TurnCompleted` is reported at a good end only. -/
theorem wellEnded_of_turnCompleted {inputs : List Sse}
    (h : ∃ x ∈ (parseStream ids inputs).1, x.isTurnCompleted = true) :
    ∃ read rest last, WellEnded inputs read rest last := by
  have hends : (parser ids).Ends Read inputs ((parser ids).run { itemId := ids.item 0 } inputs) :=
    StreamParser.run_cases Read (fun _ _ _ _ _ _ h hfeed => h.feed hfeed) ⟨nofun, nofun⟩ inputs
  have hcompleted : ∃ x ∈ ((parser ids).run { itemId := ids.item 0 } inputs).1,
      x.isTurnCompleted = true := by
    obtain ⟨x, hx, hc⟩ := h
    rcases List.mem_cons.mp hx with rfl | hx
    · cases hc
    · exact ⟨x, hx, hc⟩
  generalize (parser ids).run { itemId := ids.item 0 } inputs = result at hends hcompleted
  obtain ⟨x, hx, hc⟩ := hcompleted
  cases hends with
  | finished es s hread =>
    rcases List.mem_append.mp hx with hx | hx
    · exact absurd ((hread.quiet x hx).symm.trans hc) nofun
    · cases hx
  | stopped read rest i es last s heq hread hfeed =>
    have hfeed : s.feed ids i = (last, .stop) := hfeed
    rcases List.mem_append.mp hx with hx | hx
    · exact absurd ((hread.quiet x hx).symm.trans hc) nofun
    · obtain ⟨-, hended⟩ := @feed_completed _ ids s i x (by rw [hfeed]; exact hx) hc
      exact ⟨read, rest, i, heq, hended, hread.untroubled⟩
  | failed read rest i es last s e heq hread hfeed =>
    have hfeed : s.feed ids i = (last, .fail e) := hfeed
    rcases List.mem_append.mp hx with hx | hx
    · exact absurd ((hread.quiet x hx).symm.trans hc) nofun
    · have hstop := (@feed_completed _ ids s i x (by rw [hfeed]; exact hx) hc).1
      rw [hfeed] at hstop
      cases hstop

end Anthropic

/-! ## Both parsers -/

section
variable [ToolJson] {ids : StreamIds}

/-- The deltas of a chat completion add up, and it is reported as completed at a good end only. -/
def Chat.Streamed (ids : StreamIds) (inputs : List Sse) : Prop :=
  DeltasAddUp (Chat.parseStream ids inputs).1 ∧
  ((∃ x ∈ (Chat.parseStream ids inputs).1, x.isTurnCompleted = true) →
    ∃ read rest, Chat.WellEnded inputs read rest)

/-- The same for a message. -/
def Anthropic.Streamed (ids : StreamIds) (inputs : List Sse) : Prop :=
  DeltasAddUp (Anthropic.parseStream ids inputs).1 ∧
  ((∃ x ∈ (Anthropic.parseStream ids inputs).1, x.isTurnCompleted = true) →
    ∃ read rest last, Anthropic.WellEnded inputs read rest last)

/-- The streams of a chat completion without reasoning that comes back and of a tidy message, and of no
others, are what their completed items and their end say. -/
theorem streamed_iff (hinj : Function.Injective ids.item) (inputs : List Sse) :
    (Chat.Streamed ids inputs ↔ Chat.Continuous ids inputs) ∧
    (Anthropic.Streamed ids inputs ↔ Anthropic.Tidy ids inputs) := by
  constructor
  · rw [← Chat.deltasAddUp_iff_continuous hinj]
    exact ⟨And.left, fun h => ⟨h, Chat.wellEnded_of_turnCompleted⟩⟩
  · rw [← Anthropic.deltasAddUp_iff_tidy hinj]
    exact ⟨And.left, fun h => ⟨h, Anthropic.wellEnded_of_turnCompleted⟩⟩

end

namespace Sample

/-- The ids of a stream in the order in which they are drawn. -/
def streamIds : StreamIds where
  turnId := "turn"
  threadId := "thread"
  item n := String.ofList (List.replicate (n + 1) 'i')

theorem streamIds_injective : Function.Injective streamIds.item := by
  intro a b h
  have h : List.replicate (a + 1) 'i' = List.replicate (b + 1) 'i' := String.ofList_injective h
  simpa using congrArg List.length h

/-- A chunk with a fragment of its choice. -/
def fragment (field text : String) : String × Value :=
  ("\x7b\"choices\":[\x7b\"delta\":\x7b\"" ++ field ++ "\":\"" ++ text ++ "\"\x7d\x7d]\x7d",
    .object [("choices", .array [.object [("delta", .object [(field, .string text)])]])])

/-- The last chunk of a choice. -/
def finishing : String × Value :=
  ("\x7b\"choices\":[\x7b\"finish_reason\":\"stop\"\x7d]\x7d",
    .object [("choices", .array [.object [("finish_reason", .string "stop")]])])

/-- A text block of a message starts. -/
def blockStart : String × Value :=
  ("\x7b\"content_block\":\x7b\"type\":\"text\"\x7d,\"type\":\"content_block_start\"\x7d",
    .object [("content_block", .object [("type", .string "text")]),
      ("type", .string "content_block_start")])

/-- An event of a message that has a type only. -/
def bare (type : String) : String × Value :=
  ("\x7b\"type\":\"" ++ type ++ "\"\x7d", .object [("type", .string type)])

/-- The JSON of the sample's streams. -/
def wireJson : List (String × Value) :=
  [fragment "reasoning_content" "Hm", fragment "content" "Yes.", fragment "reasoning_content" "So",
    finishing, blockStart, bare "content_block_stop", bare "message_stop"]

@[reducible] def wire : ToolJson where
  parse s := match wireJson.lookup s with
    | some v => .ok v
    | none => .error "not a sample input"
  build _ := .error "not a sample input"

/-- Reasoning, text and the finish reason. -/
def plainAnswer : List Sse :=
  [fragment "reasoning_content" "Hm", fragment "content" "Yes.", finishing].map fun c => .ok c.1

/-- Reasoning that comes back after the text. -/
def reasonedTwice : List Sse :=
  [fragment "reasoning_content" "Hm", fragment "content" "Yes.", fragment "reasoning_content" "So",
    finishing].map fun c => .ok c.1

/-- A block that is stopped twice. -/
def stoppedTwice : List Sse :=
  [blockStart, bare "content_block_stop", bare "content_block_stop",
    bare "message_stop"].map fun c => .ok c.1

end Sample

theorem Sample.plainAnswer_continuous :
    @Chat.Continuous Sample.wire Sample.streamIds Sample.plainAnswer := by
  refine ⟨?_, ?_, ?_, trivial⟩
  · rintro ⟨_, _, _, -, -, -, -, -, -, -, hbuf⟩
    exact hbuf rfl
  · rintro ⟨_, _, _, -, -, -, -, -, -, hid, -⟩
    cases hid
  · rintro ⟨chunk, choice, d, hchunk, -, hchoice, -, hd, -⟩
    obtain rfl : Sample.finishing.2 = chunk := Option.some.inj hchunk
    obtain rfl : Value.object [("finish_reason", .string "stop")] = choice := Option.some.inj hchoice
    cases hd

theorem streamed_sample :
    @Chat.Streamed Sample.wire Sample.streamIds Sample.plainAnswer ∧
    (@Anthropic.Streamed Sample.wire Sample.streamIds Sample.plainAnswer ↔
      @Anthropic.Tidy Sample.wire Sample.streamIds Sample.plainAnswer) :=
  have h := @streamed_iff Sample.wire Sample.streamIds Sample.streamIds_injective Sample.plainAnswer
  ⟨h.1.mpr Sample.plainAnswer_continuous, h.2⟩

/-- Reasoning that comes back is streamed for an item that is not started and completed with the text of
the earlier reasoning; a block that is stopped twice is completed twice. -/
theorem streamed_not_added_up :
    (@Chat.parseStream Sample.streamIds Sample.wire Sample.reasonedTwice).1 =
      [.turnStarted "turn" "thread", .itemStarted "turn" "i" "reasoning" (some .commentary),
        .reasoningDelta "turn" "i" "Hm", .itemCompleted "turn" (.reasoning "i" "Hm" none none),
        .itemStarted "turn" "ii" "assistant_message" (some .finalAnswer), .textDelta "turn" "ii" "Yes.",
        .reasoningDelta "turn" "iii" "So", .itemCompleted "turn" (.reasoning "iii" "HmSo" none none),
        .itemCompleted "turn" (.assistantMessage "ii" [.text "Yes."] .finalAnswer),
        .turnCompleted "turn" "thread" {}] ∧
    ¬ @Chat.Streamed Sample.wire Sample.streamIds Sample.reasonedTwice ∧
    ¬ @Anthropic.Streamed Sample.wire Sample.streamIds Sample.stoppedTwice := by
  refine ⟨by rfl, fun h => ?_, fun h => ?_⟩
  · let es := (@Chat.parseStream Sample.streamIds Sample.wire Sample.reasonedTwice).1
    have hstarted := (h.1.startedFirst (es.take 6) (.reasoningDelta "turn" "iii" "So") (es.drop 7) (by rfl)).2
      "iii" rfl (by decide)
    exact absurd hstarted (by decide)
  · have hnodup := h.1.completedOnce
    have hids : completedIds (@Anthropic.parseStream Sample.streamIds Sample.wire Sample.stoppedTwice).1 =
        ["ii", "ii"] := by rfl
    rw [hids] at hnodup
    exact absurd hnodup (by decide)

end Whale
