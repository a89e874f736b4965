import Whale.Daemon.Interactions
import Whale.Daemon.Lifecycle

/-!
# Typed approvals

`turn.approval` and `approval.resolve` of `whale-daemon/src/server.rs`. A handler makes the parameters of
an Interaction response out of its own and hands them to `resolve_interaction_response`, or answers
before that. The registry of the runs and the records of the sessions are given with what the handlers
read of them; `decisions` of a run, which nothing reads, is left out.
-/

namespace Whale

open Check

inductive RunApprovalDecision where
  | approve
  | reject
  | modifyArguments
  deriving DecidableEq, Repr

/-- `RunApprovalParams`. -/
structure RunApprovalParams where
  threadId : String
  turnId : String
  requestId : String
  decision : RunApprovalDecision
  arguments : Option Value := none
  feedback : Option String := none
  deriving DecidableEq, Repr

/-- `ApprovalDecision` of the protocol. -/
inductive ApprovalResolveParams.Decision where
  | approve
  | reject
  deriving DecidableEq, Repr

/-- `ApprovalResolveParams`. -/
structure ApprovalResolveParams where
  requestId : String
  decision : ApprovalResolveParams.Decision
  feedback : Option String := none
  deriving DecidableEq, Repr

/-- `ApprovalResolveResult`. -/
structure ApprovalResolveResult where
  resolved : Bool
  requestId : String
  deriving DecidableEq, Repr

/-! ## What the handlers look up -/

/-- `RunRecord`. -/
structure RunRecord where
  owner : String
  snapshot : RunSnapshot

/-- `RunRegistry`; the keys are a thread and a turn. -/
structure RunRegistry where
  live : KeyMap (String × String) RunRecord
  expired : KeyMap (String × String) String

namespace RunRegistry

/-- `expired`. -/
def isExpired (runs : RunRegistry) (key : String × String) (owner : String) : Bool :=
  runs.expired.get? key == some owner

/-- `expired_error`. -/
def expiredError : JSONRPCError := ⟨-32030, "RunExpired"⟩

/-- `find_run`. -/
def find (runs : RunRegistry) (threadId turnId connection : String) : Except JSONRPCError RunRecord := do
  refuse (runs.isExpired (threadId, turnId) connection) expiredError
  match (runs.live.get? (threadId, turnId)).filter (·.owner == connection) with
  | some run => .ok run
  | none => .error (.invalidParams "RunNotFound")

end RunRegistry

/-- A session of the `InteractionRegistry`. -/
structure OwnedRecord where
  threadId : String
  owner : String
  record : InteractionRecord

/-- `find_request`: the thread and the turn of a request, over the sessions in any order. -/
def findRequest (sessions : List OwnedRecord) (owner requestId : String) : Option (String × String) :=
  sessions.findSome? fun s =>
    if s.owner == owner then
      (s.record.entries.entries.find? (·.1.2 == requestId)).map fun e => (s.threadId, e.1.1)
    else none

/-! ## The handlers -/

namespace RunApprovalParams

/-- The response of an approval; the arguments of a modification may be missing. -/
def response (p : RunApprovalParams) : Option Value :=
  match p.decision with
  | .approve => some (.object [("decision", .string "approve")])
  | .reject => some (.object (("decision", .string "reject") ::
      (p.feedback.map fun feedback => ("feedback", .string feedback)).toList))
  | .modifyArguments => p.arguments.map fun arguments =>
      .object [("arguments", arguments), ("decision", .string "modify_arguments")]

/-- What `resolve_interaction_response` is called with. -/
def submission (p : RunApprovalParams) (response : Value) : ResponseSubmission :=
  ⟨⟨p.turnId, p.requestId, response⟩, .owned false⟩

end RunApprovalParams

/-- How far a handler gets by itself. -/
inductive ApprovalHandling where
  | replied (reply : Except JSONRPCError ApprovalResolveResult)
  /-- The `expect` on `RespondInteractionParams::new`. -/
  | panicked
  /-- `resolve_interaction_response` is called, and decides the reply. -/
  | submitted (params : RunApprovalParams) (submission : ResponseSubmission)

/-- The reply to the result of `resolve_interaction_response`. -/
def RunApprovalParams.reply (p : RunApprovalParams) :
    Except InteractionFailure Unit → Except JSONRPCError ApprovalResolveResult
  | .ok () => .ok ⟨true, p.requestId⟩
  | .error e => .error (
    if e.code = -32051 then .invalidParams "ApprovalConflict"
    else if e.code = -32050 then .invalidParams "ApprovalNotFound"
    else ⟨e.code, e.message⟩)

section
variable [External]

/-- `handle_run_approval`. -/
def handleRunApproval (runs : RunRegistry) (connection : String) (p : RunApprovalParams) :
    ApprovalHandling :=
  match runs.find p.threadId p.turnId connection with
  | .error e => .replied (.error e)
  | .ok _ =>
    match p.response with
    | none => .replied (.error (.invalidParams "Modified arguments required"))
    | some response =>
      match (p.submission response).params.validate p.threadId with
      | .error _ => .panicked
      | .ok () => .submitted p (p.submission response)

/-- The parameters that `approval.resolve` is converted to. -/
def ApprovalResolveParams.converted (p : ApprovalResolveParams) (threadId turnId : String) :
    RunApprovalParams where
  threadId
  turnId
  requestId := p.requestId
  decision := match p.decision with
    | .approve => .approve
    | .reject => .reject
  feedback := p.feedback

/-- The run that `approval.resolve` names: of a request in the registry, or of a snapshot that lists it. -/
def ApprovalResolveParams.target (p : ApprovalResolveParams) (sessions : List OwnedRecord)
    (runs : RunRegistry) (connection : String) : Option (String × String) :=
  (findRequest sessions connection p.requestId).orElse fun _ =>
    (runs.live.entries.find? fun e =>
      e.2.snapshot.pendingApprovals.any (·.requestId == p.requestId)).map fun e =>
        (e.2.snapshot.threadId, e.2.snapshot.turnId)

/-- `handle_approval_resolve`. -/
def handleApprovalResolve (sessions : List OwnedRecord) (runs : RunRegistry) (connection : String)
    (p : ApprovalResolveParams) : ApprovalHandling :=
  match p.target sessions runs connection with
  | some (threadId, turnId) => handleRunApproval runs connection (p.converted threadId turnId)
  | none => .replied (.ok ⟨false, p.requestId⟩)

end

end Whale
