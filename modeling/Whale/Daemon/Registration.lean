import Whale.Adapters.Wire
import Whale.Store.Writers
import Mathlib.Logic.Function.Basic

/-!
# Durable tool configuration

`configuration` of `whale-daemon/src/recovery.rs`, which turns the parameters of a session into the configuration
its record stores, and the durable half of `handle_register_tools` of `server.rs`, which edits the stored
configuration in place. The parameters of a session that neither looks into (limits, provider, options and the
like) are kept as the JSON they serialize to.

`Registrar` is a record with the registrations under way: a registration holds the lock of its session from the
record it reads to the replacement it asks the journal for, and any other call may write in between.
-/

namespace Whale

open Check

/-! ## Parameters -/

/-- `RegisterToolDefinition`. -/
structure RegisterToolDefinition where
  bindingId : Option String := none
  name : String
  description : String
  parameters : Value
  supportsParallel : Bool := true
  requireApproval : Bool := false
  isHostTool : Bool := false
  deriving DecidableEq

/-- A member that is skipped when there is no value. -/
def member (key : String) : Option Value → JsonMap
  | some v => [(key, v)]
  | none => []

namespace RegisterToolDefinition

/-- `serde_json::to_value`. -/
def toValue (d : RegisterToolDefinition) : Value :=
  .object (member "binding_id" (d.bindingId.map .string) ++
    [("description", .string d.description), ("is_host_tool", .bool d.isHostTool),
     ("name", .string d.name), ("parameters", d.parameters),
     ("require_approval", .bool d.requireApproval), ("supports_parallel", .bool d.supportsParallel)])

/-- The definition without the identity its host binds it by. -/
def unbound (d : RegisterToolDefinition) : RegisterToolDefinition := { d with bindingId := none }

end RegisterToolDefinition

/-- `StartThreadParams`. -/
structure StartThreadParams where
  limits : Option Value := none
  providerRef : Option String := none
  agentName : Option String := none
  contextPolicy : Option Value := none
  providerConfig : Option Value := none
  options : Option Value := none
  sessionId : Option String := none
  provider : Option String := none
  model : String
  systemPrompt : Option String := none
  tools : List RegisterToolDefinition := []
  metadata : JsonMap := []

/-- `serde_json::to_value`. -/
def StartThreadParams.toMap (p : StartThreadParams) : JsonMap :=
  member "agent_name" (p.agentName.map .string) ++ member "context_policy" p.contextPolicy ++
  member "limits" p.limits ++
  member "metadata" (if p.metadata.isEmpty then none else some (.object p.metadata)) ++
  [("model", .string p.model)] ++ member "options" p.options ++
  member "provider" (p.provider.map .string) ++ member "provider_config" p.providerConfig ++
  member "provider_ref" (p.providerRef.map .string) ++ member "session_id" (p.sessionId.map .string) ++
  member "system_prompt" (p.systemPrompt.map .string) ++
  member "tools" (if p.tools.isEmpty then none else some (.array (p.tools.map (·.toValue))))

/-- `serde_json::to_value`. -/
def SessionRunDefaults.toValue (d : SessionRunDefaults) : Value :=
  .object ([("max_steps", .number (.int d.maxSteps))] ++
    member "timeout_ms" (d.timeoutMs.map fun t => .number (.int t)))

/-! ## The tools of a configuration -/

/-- `tool["name"].as_str()`. -/
def toolName (tool : Value) : Option String := (tool.index "name").asStr

/-- `tool.as_object_mut().unwrap().remove("binding_id")`; a tool is an object. -/
def withoutBinding : Value → Value
  | .object tool => .object (JsonMap.remove tool "binding_id")
  | tool => tool

/-- The order of two names: `Option<&str>`. -/
def nameLe : Option String → Option String → Bool
  | none, _ => true
  | some _, none => false
  | some a, some b => decide (a ≤ b)

/-- `tools.sort_by(|a, b| a["name"].as_str().cmp(&b["name"].as_str()))`, which is stable. -/
def sortTools (tools : List Value) : List Value :=
  tools.mergeSort fun a b => nameLe (toolName a) (toolName b)

/-- The loop of `configuration` over the tools; `names` were met before. -/
def stripTools : List String → List Value → Except String (List Value)
  | _, [] => .ok []
  | names, tool :: tools => do
    let tool := withoutBinding tool
    let name ← orElse (toolName tool) "Missing tool name"
    refuse (blank name || decide (name ∈ names)) "Tool names must be nonempty and unique"
    let tools ← stripTools (name :: names) tools
    .ok (tool :: tools)

/-- The tools of a serialized session, canonical. -/
def canonicalTools (session : JsonMap) : Except String JsonMap :=
  match session.get "tools" with
  | some (.array tools) => (stripTools [] tools).map fun tools => session.insert "tools" (.array (sortTools tools))
  | _ => .ok session

/-- `entry("tools").or_insert_with(|| json!([]))`. -/
def orInsertTools (session : JsonMap) : JsonMap :=
  if session.containsKey "tools" then session else session.insert "tools" (.array [])

/-- `configuration`. -/
def configuration [External] (session : StartThreadParams) (defaults : SessionRunDefaults)
    (interactionsEnabled : Bool) : Except String Value := do
  let members := JsonMap.remove (JsonMap.remove session.toMap "session_id") "metadata"
  let members ← canonicalTools (orInsertTools members)
  let value : Value := .object
    [("metadata", .object session.metadata), ("run_defaults", defaults.toValue),
     ("runtime_features", .object [("interactions_enabled", .bool interactionsEnabled)]),
     ("session", .object members), ("version", .number (.int 3))]
  match PersistedConfiguration.parseAndMigrate value with
  | .ok (c, _) => .ok c.intoValue
  | .error e => .error e.toText

/-! ## Registration -/

/-- The loop of `handle_register_tools` that checks the definitions; `names` were met before. -/
def checkDefinitions [ToolJson] : List String → List RegisterToolDefinition → Except String Unit
  | _, [] => .ok ()
  | names, d :: ds => do
    refuse (blank d.name || decide (d.name ∈ names)) "Tool names must be nonempty and unique"
    refuse (d.bindingId.any blank) "Tool binding_id must be nonempty when provided"
    let _ ← compileToolSchema d.parameters
    checkDefinitions (d.name :: names) ds

/-- The loop body of `handle_register_tools` over the stored definitions. -/
def registerDefinition (definitions : List Value) (d : RegisterToolDefinition) : List Value :=
  let definition := withoutBinding d.toValue
  definitions.filter (fun old => old.index "name" != definition.index "name") ++ [definition]

/-- The configuration `handle_register_tools` asks for in place of a stored one; none for one without a session
or without an array of tools ("Invalid durable configuration"). -/
def registerTools (tools : List RegisterToolDefinition) (stored : Value) : Option Value :=
  match stored with
  | .object root =>
    match JsonMap.get root "session" with
    | some (.object session) =>
      match JsonMap.get session "tools" with
      | some (.array definitions) =>
        let definitions := sortTools (tools.foldl registerDefinition definitions)
        some (.object (JsonMap.insert root "session"
          (.object (JsonMap.insert session "tools" (.array definitions)))))
      | _ => none
    | _ => none
  | _ => none

/-- A record, and what the registration that holds an attachment's session lock has read. -/
structure Registrar where
  record : SessionRecord
  reading : Lease → Option Value

/-- The replacement of the configuration, which only `handle_register_tools` asks for. -/
def Writer.replaces : Writer → Bool
  | .journal _ _ (.replace _) => true
  | _ => false

/-- The steps; the label of an accepted registration is its tools. -/
inductive Registrar.Step [External] [ToolJson] :
    Registrar → Option (List RegisterToolDefinition) → Registrar → Prop
  /-- Any other call that writes the record. -/
  | write {s : Registrar} {c : Committed} {r' : SessionRecord} (kept : Keep s.record c r')
      (other : c.1.replaces = false) : Step s none { s with record := r' }
  /-- `journal.record()`. -/
  | read {s : Registrar} {lease : Lease} (target : lease.id = s.record.recoveryId)
      (holds : lease.holds s.record = true) (free : s.reading lease = none) :
      Step s none { s with reading := Function.update s.reading lease (some s.record.configuration) }
  /-- `journal.replace_configuration(record.configuration)` of the edited configuration. -/
  | register {s : Registrar} {lease : Lease} {inp : Inputs} {tools : List RegisterToolDefinition}
      {stored edited : Value} {response : Option Response} {r' : SessionRecord}
      (checked : checkDefinitions [] tools = .ok ()) (read : s.reading lease = some stored)
      (edit : registerTools tools stored = some edited)
      (kept : Keep s.record (.journal lease inp (.replace edited), response) r') :
      Step s (some tools) { record := r', reading := Function.update s.reading lease none }
  /-- The registration ends otherwise: refused, or dropped with its request. -/
  | abandon {s : Registrar} {lease : Lease} :
      Step s none { s with reading := Function.update s.reading lease none }

/-- The definitions of the tools that were registered, one after another. -/
def registered (labels : List (Option (List RegisterToolDefinition))) : List RegisterToolDefinition :=
  labels.flatMap (·.getD [])

/-- `tools` are all the definitions of a persistent session, those it was created with and those registered
since; `r` is what its record has become. -/
inductive Registered [External] [ToolJson] (defaults : SessionRunDefaults) (interactionsEnabled : Bool)
    (params : StartThreadParams) : List RegisterToolDefinition → SessionRecord → Prop
  | created {key : RecoveryKey} {value : Value} {owner thread : String} {now : Nat} {r : SessionRecord}
      {labels : List (Option (List RegisterToolDefinition))} {s : Registrar}
      (configured : configuration params defaults interactionsEnabled = .ok value)
      (new : newRecord key value owner thread now = .ok r) (stored : validateCreate r = .ok ())
      (run : Lts.Run Registrar.Step ⟨r, fun _ => none⟩ labels s) :
      Registered defaults interactionsEnabled params (params.tools ++ registered labels) s.record

end Whale
