import Whale.Core.Coordinator

/-!
# The turn engine

`whale-core/src/engine.rs`. `Turn.Step` takes a turn from one await point of `run_inner` to the next.
What the engine awaits is an argument of the step: the context policy's answer, the provider's events,
the receipts of its journal. A turn may be dropped in every state; `Turn.left` is the history that
`run_turn_with_context` and its guard leave then.
-/

namespace Whale

open Check

/-- `RunTurnResult` of the engine. -/
structure TurnResult where
  turnId : String
  stepsTaken : Nat
  totalUsage : UsageMetrics
  generatedItems : List CanonicalItem
  deriving DecidableEq, Repr

/-- What a turn is run with. -/
structure Engine where
  context : RunContextInfo
  inputs : List CanonicalItem
  maxSteps : Nat
  coordinator : Coordinator
  /-- `provider.capabilities` and the capability checks of `validate_model_request`. -/
  admitsRequest : ModelRequest → Except ModelError Unit
  /-- The capability check of one item the provider completes. -/
  admitsItem : CanonicalItem → Except ModelError Unit
  /-- The `step_id` drawn for each step. -/
  stepId : Nat → String

/-- The model step under way: `step_completed_items`, `active_text_deltas` and `step_usage`. -/
structure StepRun where
  stepId : String
  state : ModelStepState
  completed : List CanonicalItem := []
  texts : List (String × String × MessagePhase) := []
  usage : UsageMetrics := {}

/-- The await points of `run_inner`. -/
inductive TurnPhase where
  | starting
  /-- Appending the inputs. -/
  | input (rest : List CanonicalItem)
  /-- The top of the step loop. -/
  | boundary (step : Nat)
  | requested (step : Nat) (request : ModelRequest)
  | streaming (step : Nat) (run : StepRun)
  /-- Assembling messages from deltas, when no item was completed. -/
  | assembling (step : Nat) (run : StepRun) (rest : List (String × String × MessagePhase))
  | finishing (step : Nat) (run : StepRun)
  | calling (step : Nat) (batch : Batch)
  | committing (step : Nat) (results : List CanonicalItem)
  /-- Appending the results. -/
  | answering (step : Nat) (rest : List CanonicalItem)
  | ended (result : Except CoreError TurnResult)

structure Turn where
  session : ThreadSession
  phase : TurnPhase := .starting
  generated : List CanonicalItem := []
  usage : UsageMetrics := {}
  /-- The executions of `RunProgress`. -/
  executions : List ToolExecutionRecord := []

/-- What a step of the turn does outside it: an event of the provider that was accepted, a successful
commit with the item of its receipt, a call of a handler. -/
structure TurnEffect where
  event : Option ModelEvent := none
  commit : Option (RunMutation × Option CanonicalItem) := none
  dispatched : Option (String × Value) := none

/-- A tool call. -/
def CanonicalItem.isCall (item : CanonicalItem) : Bool := item.callId?.isSome

namespace StepRun

/-- `HashMap::insert`. -/
def insertText (s : StepRun) (id text : String) (phase : MessagePhase) : StepRun :=
  { s with texts := (id, text, phase) :: s.texts.filter (·.1 != id) }

/-- The text deltas after an event. -/
def track (s : StepRun) : ModelEvent → StepRun
  | .itemStarted id itemType phase =>
    if itemType == "assistant_message" then s.insertText id "" (phase.getD .finalAnswer) else s
  | .textDelta id delta =>
    match s.texts.lookup id with
    | some (text, phase) => s.insertText id (text ++ delta) phase
    | none => s.insertText id delta .finalAnswer
  | _ => s

/-- The entries the fallback makes messages of. -/
def fallback (s : StepRun) : List (String × String × MessagePhase) :=
  s.texts.filter fun t => !t.2.1.isEmpty

/-- The tool calls of the step. -/
def calls (s : StepRun) : List CanonicalItem := s.completed.filter (·.isCall)

end StepRun

/-- The message the fallback assembles. -/
def assembled (t : String × String × MessagePhase) : CanonicalItem :=
  .assistantMessage t.1 [.text t.2.1] t.2.2

namespace Engine

section
variable [External] [RequestSerde]

omit [External] [RequestSerde] in
/-- The request of a step over the projected context. -/
def modelRequest (g : Engine) (session : ThreadSession) (step : Nat) (context : ModelContext) :
    ModelRequest where
  context := g.context
  stepIndex := step
  stepId := g.stepId step
  modelContext := context
  tools := session.toolDefinitions
  options := session.samplingOptions

/-- The top of the step loop: from the history check to the request that may be sent. -/
def request (g : Engine) (session : ThreadSession) (step : Nat)
    (built : Except String ModelContext) : Except CoreError ModelRequest := do
  session.checkHistoryLimit
  match built with
  | .error e => .error (.internal ("Context policy failed: " ++ e))
  | .ok context =>
    match validateModelContext context with
    | .error e => .error (.internal ("Invalid model context: " ++ e))
    | .ok () =>
      let request := g.modelRequest session step context
      match g.admitsRequest request with
      | .error e => .error (.model e)
      | .ok () => do
        session.checkModelRequestLimit request
        .ok request

end

/-- The result of a turn that completes. -/
def result (g : Engine) (t : Turn) (step : Nat) : TurnResult :=
  ⟨g.context.turnId, step + 1, t.usage, t.generated⟩

end Engine

namespace Turn

def fail (t : Turn) (e : CoreError) : Turn := { t with phase := .ended (.error e) }

/-- `append_item` and `turn_generated_items.push`. -/
def append (t : Turn) (item : CanonicalItem) : Turn :=
  { t with session := t.session.appendItem item, generated := t.generated ++ [item] }

/-- The commit of an operation, when there is a journal. -/
def committed (g : Engine) (op : RunMutation) (receipt : Option CanonicalItem) :
    Option (RunMutation × Option CanonicalItem) :=
  if g.coordinator.journalled then some (op, receipt) else none

/-- `run_inner` after the commit of `ModelStepFinished`. -/
def afterStep [External] (g : Engine) (t : Turn) (step : Nat) (run : StepRun) : Turn :=
  match t.session.checkHistoryLimit with
  | .error e => t.fail e
  | .ok () =>
    if run.calls.isEmpty then { t with phase := .ended (.ok (g.result t step)) }
    else { t with phase := .calling step (.start run.calls) }

/-- One step of a turn. -/
inductive Step [External] [RequestSerde] [ToolJson] (g : Engine) : Turn → TurnEffect → Turn → Prop
  | noSteps {t : Turn} (phase : t.phase = .starting) (steps : g.maxSteps = 0) :
      Step g t {} (t.fail (.maxStepsExceeded 0))
  | unaccepted {t : Turn} {e : CoreError} (phase : t.phase = .starting) (steps : g.maxSteps ≠ 0)
      (refused : t.session.acceptTurn g.inputs = .error e) : Step g t {} (t.fail e)
  | accepted {t : Turn} {session : ThreadSession} (phase : t.phase = .starting)
      (steps : g.maxSteps ≠ 0) (accepted : t.session.acceptTurn g.inputs = .ok session) :
      Step g t {} { t with session, phase := .input g.inputs }
  | input {t : Turn} {item : CanonicalItem} {rest : List CanonicalItem}
      (phase : t.phase = .input (item :: rest)) :
      Step g t {} { t.append item with phase := .input rest }
  | inputs {t : Turn} (phase : t.phase = .input []) : Step g t {} { t with phase := .boundary 0 }
  | unrequested {t : Turn} {step : Nat} {e : CoreError} (built : Except String ModelContext)
      (phase : t.phase = .boundary step) (refused : g.request t.session step built = .error e) :
      Step g t {} (t.fail e)
  | request {t : Turn} {step : Nat} {request : ModelRequest} (built : Except String ModelContext)
      (phase : t.phase = .boundary step) (made : g.request t.session step built = .ok request) :
      Step g t {} { t with phase := .requested step request }
  | unserialized {t : Turn} {step : Nat} {request : ModelRequest} {e : String}
      (phase : t.phase = .requested step request) (journal : g.coordinator.journalled = true)
      (refused : RequestSerde.value request = .error e) : Step g t {} (t.fail (.json e))
  | stream {t : Turn} {step : Nat} {request : ModelRequest} {value : Value}
      (receipt : Option CanonicalItem) (phase : t.phase = .requested step request)
      (serialized : g.coordinator.journalled = true → RequestSerde.value request = .ok value) :
      Step g t { commit := committed g (.modelInput request.stepId step value) receipt }
        { t with
          phase := .streaming step { stepId := request.stepId, state := .new t.session.history } }
  | streamFailed {t : Turn} {step : Nat} {run : StepRun} (e : ModelError)
      (phase : t.phase = .streaming step run) : Step g t {} (t.fail (.model e))
  | unobserved {t : Turn} {step : Nat} {run : StepRun} {event : ModelEvent} {e : ModelError}
      (phase : t.phase = .streaming step run) (refused : run.state.observe event = .error e) :
      Step g t {} (t.fail (.model e))
  | unsupported {t : Turn} {step : Nat} {run : StepRun} {state : ModelStepState}
      {item : CanonicalItem} {e : ModelError} (phase : t.phase = .streaming step run)
      (observed : run.state.observe (.itemCompleted item) = .ok state)
      (refused : g.admitsItem item = .error e) : Step g t {} (t.fail (.model e))
  | item {t : Turn} {step : Nat} {run : StepRun} {state : ModelStepState} {item : CanonicalItem}
      (receipt : Option CanonicalItem) (phase : t.phase = .streaming step run)
      (observed : run.state.observe (.itemCompleted item) = .ok state)
      (admitted : g.admitsItem item = .ok ()) :
      Step g t { event := some (.itemCompleted item)
                 commit := committed g (.modelItem run.stepId item) receipt }
        { t.append item with
          phase := .streaming step { run with state, completed := run.completed ++ [item] } }
  | overflow {t : Turn} {step : Nat} {run : StepRun} {state : ModelStepState} {usage : UsageMetrics}
      {e : ModelError} (phase : t.phase = .streaming step run)
      (observed : run.state.observe (.stepFinished usage) = .ok state)
      (refused : checkedTurnUsage t.usage usage = .error e) : Step g t {} (t.fail (.model e))
  | usage {t : Turn} {step : Nat} {run : StepRun} {state : ModelStepState}
      {usage total : UsageMetrics} (phase : t.phase = .streaming step run)
      (observed : run.state.observe (.stepFinished usage) = .ok state)
      (sum : checkedTurnUsage t.usage usage = .ok total) :
      Step g t { event := some (.stepFinished usage) }
        { t with usage := total, phase := .streaming step { run with state, usage } }
  | delta {t : Turn} {step : Nat} {run : StepRun} {state : ModelStepState} {event : ModelEvent}
      (phase : t.phase = .streaming step run) (observed : run.state.observe event = .ok state)
      (unrecorded : ∀ item, event ≠ .itemCompleted item)
      (unfinished : ∀ usage, event ≠ .stepFinished usage) :
      Step g t { event := some event }
        { t with phase := .streaming step { run.track event with state } }
  | channelClosed {t : Turn} {step : Nat} {run : StepRun} (phase : t.phase = .streaming step run) :
      Step g t {} (t.fail .eventChannelClosed)
  | unexpectedEof {t : Turn} {step : Nat} {run : StepRun} (phase : t.phase = .streaming step run)
      (unfinished : run.state.finished = false) :
      Step g t {} (t.fail (.model (.stream "Unexpected EOF before model StepFinished")))
  | eof {t : Turn} {step : Nat} {run : StepRun} (phase : t.phase = .streaming step run)
      (finished : run.state.finished = true) (items : run.completed ≠ []) :
      Step g t {} { t with phase := .finishing step run }
  | assemble {t : Turn} {step : Nat} {run : StepRun} {rest : List (String × String × MessagePhase)}
      (phase : t.phase = .streaming step run) (finished : run.state.finished = true)
      (items : run.completed = []) (order : rest.Perm run.fallback) :
      Step g t {} { t with phase := .assembling step run rest }
  | message {t : Turn} {step : Nat} {run : StepRun} {text : String × String × MessagePhase}
      {rest : List (String × String × MessagePhase)} (receipt : Option CanonicalItem)
      (phase : t.phase = .assembling step run (text :: rest)) :
      Step g t { commit := committed g (.modelItem run.stepId (assembled text)) receipt }
        { t.append (assembled text) with
          phase := .assembling step { run with completed := run.completed ++ [assembled text] }
            rest }
  | messages {t : Turn} {step : Nat} {run : StepRun} (phase : t.phase = .assembling step run []) :
      Step g t {} { t with phase := .finishing step run }
  | finish {t : Turn} {step : Nat} {run : StepRun} (receipt : Option CanonicalItem)
      (phase : t.phase = .finishing step run) :
      Step g t { commit := committed g (.modelStepFinished run.stepId run.usage) receipt }
        (t.afterStep g step run)
  | call {t : Turn} {step : Nat} {batch batch' : Batch} {e : CallEffect}
      (phase : t.phase = .calling step batch) (segment : Batch.Step g.coordinator batch e batch') :
      Step g t { commit := e.commit, dispatched := e.dispatched }
        { t with phase := .calling step batch', executions := t.executions ++ e.recorded.toList }
  | called {t : Turn} {step : Nat} {batch : Batch} (phase : t.phase = .calling step batch)
      (complete : batch.complete = true) :
      Step g t {} { t with phase := .committing step batch.results }
  | batch {t : Turn} {step : Nat} {results : List CanonicalItem} (receipt : Option CanonicalItem)
      (phase : t.phase = .committing step results) :
      Step g t { commit := committed g (.toolBatch (results.filterMap (·.resultId?))) receipt }
        { t with phase := .answering step results }
  | result {t : Turn} {step : Nat} {item : CanonicalItem} {rest : List CanonicalItem}
      (phase : t.phase = .answering step (item :: rest)) :
      Step g t {} { t.append item with phase := .answering step rest }
  | results {t : Turn} {step : Nat} (phase : t.phase = .answering step [])
      (more : step + 1 < g.maxSteps) : Step g t {} { t with phase := .boundary (step + 1) }
  | exhausted {t : Turn} {step : Nat} (phase : t.phase = .answering step [])
      (last : g.maxSteps ≤ step + 1) : Step g t {} (t.fail (.maxStepsExceeded g.maxSteps))
  | refused {t t' : Turn} {e : StoreError} {op : RunMutation} {receipt : Option CanonicalItem}
      {effect : TurnEffect} (attempt : Step g t effect t') (commit : effect.commit = some (op, receipt)) :
      Step g t {} (t.fail (.store e))
  | cancelled {t : Turn} (running : ∀ result, t.phase ≠ .ended result) :
      Step g t {} (t.fail (.internal "Run cancelled"))

/-- The turn as it is started over a session. -/
def start (session : ThreadSession) : Turn := { session }

/-- `close_unanswered_tool_calls` on the session. -/
def close (ids : Nat → String) (historyStart : Nat) (history : List CanonicalItem) :
    List CanonicalItem :=
  history ++ closeUnansweredToolCalls ids history historyStart

/-- The history left when `run_turn_with_context` returns in this state, or is dropped in it. After an
error the calls are closed before it returns, and once more by the guard. -/
def left (g : Engine) (ids ids' : Nat → String) (historyStart : Nat) (t : Turn) :
    List CanonicalItem :=
  match t.phase with
  | .ended (.ok _) => t.session.history
  | .ended (.error _) =>
    if g.coordinator.journalled then t.session.history
    else close ids' historyStart (close ids historyStart t.session.history)
  | _ =>
    if g.coordinator.journalled then t.session.history
    else close ids historyStart t.session.history

end Turn

end Whale
