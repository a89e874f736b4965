import Whale.Store.State

/-!
# Persisted session configuration

`whale-store/src/configuration.rs` and the configuration helpers of `runtime.rs`. A configuration
with a `version` member is parsed and normalised to version 3; one without is opaque.
-/

namespace Whale

open Check

/-- `SessionRunDefaults`. -/
structure SessionRunDefaults where
  maxSteps : Nat := 10
  timeoutMs : Option Nat := none

/-- `PersistedSessionConfigurationV2`. -/
structure PersistedConfiguration where
  session : JsonMap
  runDefaults : Value
  metadata : JsonMap
  interactionsEnabled : Bool
  deriving DecidableEq

/-- `validate_session_identity`. -/
def validateSessionIdentity (session : JsonMap) : Except StoreError Unit := do
  refuse (JsonMap.containsKey session "session_id")
    (.invalid "Persisted Session attachment identity cannot contain session_id")
  match JsonMap.get session "tools" with
  | none => .ok ()
  | some (.array tools) =>
    forAll (fun tool =>
      match tool with
      | .object tool =>
        refuse (JsonMap.containsKey tool "binding_id")
          (.invalid "Persisted Session tools cannot contain host binding_id")
      | _ => .error (.invalid "Persisted Session tools must contain objects")) tools
  | some _ => .error (.invalid "Persisted Session tools must be an array")

section
variable [External]

/-- `validate_session_metadata_replacement`. -/
def validateMetadataReplacement (metadata : JsonMap) : Except StoreError Unit := do
  refuse (metadata.length > maxSessionMetadataKeys)
    (.invalid "Session metadata exceeds 256 top-level keys")
  match External.valueBytes (.object metadata) with
  | .error e => .error (.invalid e)
  | .ok bytes => do
    refuse (bytes > maxSessionMetadataBytes)
      (.invalid "Session metadata exceeds 65536 serialized bytes")
    let depth := ((metadata.map fun f => valueDepth f.2 1).max?).getD 1
    refuse (depth > maxSessionMetadataDepth) (.invalid "Session metadata exceeds nesting depth 16")

/-- Deserialization of `SessionRunDefaults`, by member name or by position. -/
def SessionRunDefaults.fromValue (v : Value) : Except String SessionRunDefaults :=
  let build (steps timeout : Option Value) : Except String SessionRunDefaults :=
    match (match steps with | none => some 10 | some s => s.asU64), optionU64 timeout with
    | some s, some t => .ok ⟨s, t⟩
    | _, _ => .error (External.deserializeError v)
  match v with
  | .object m =>
    if m.all fun e => e.1 ∈ ["max_steps", "timeout_ms"] then
      build (JsonMap.get m "max_steps") (JsonMap.get m "timeout_ms")
    else .error (External.deserializeError v)
  | .array vs =>
    if vs.length ≤ 2 then build vs[0]? vs[1]? else .error (External.deserializeError v)
  | _ => .error (External.deserializeError v)

/-- `validate_run_defaults`. -/
def validateRunDefaults (value : Value) : Except StoreError Unit :=
  match SessionRunDefaults.fromValue value with
  | .error e => .error (.invalid ("Invalid persisted Session run_defaults: " ++ e))
  | .ok defaults =>
    refuse (defaults.maxSteps == 0 || defaults.timeoutMs == some 0)
      (.invalid "Run defaults must be positive")

end

/-- `take_metadata` with `default_empty`: the metadata, and the session without it. -/
def takeMetadata (session : JsonMap) : Except StoreError (JsonMap × JsonMap) :=
  match JsonMap.get session "metadata" with
  | some (.object metadata) => .ok (metadata, JsonMap.remove session "metadata")
  | some _ => .error (.invalid "Persisted Session metadata must be an object")
  | none => .ok ([], JsonMap.remove session "metadata")

/-- A member that has to be an object. -/
def objectMember (root : JsonMap) (key : String) (e : StoreError) : Except StoreError JsonMap :=
  match JsonMap.get root key with
  | some (.object m) => .ok m
  | _ => .error e

namespace PersistedConfiguration

section
variable [External]

/-- The session and the run defaults of a version-1 configuration. -/
def v1Members (root : JsonMap) : Except StoreError (JsonMap × Value) :=
  match JsonMap.get root "session" with
  | some (.object session) => do
    let root := JsonMap.remove root "session"
    let runDefaults := (JsonMap.get root "run_defaults").getD (.object [])
    refuse (!(JsonMap.remove root "run_defaults").isEmpty)
      (.invalid "Persisted Session configuration V1 has unknown top-level fields")
    .ok (session, runDefaults)
  | some _ => .error (.invalid "Persisted Session configuration session must be an object")
  | none =>
    -- the compact shape of early callers: the remaining members are the session
    .ok (JsonMap.remove root "run_defaults", (JsonMap.get root "run_defaults").getD (.object []))

/-- `migrate_v1`. -/
def migrateV1 (root : JsonMap) : Except StoreError PersistedConfiguration := do
  let (session, runDefaults) ← v1Members root
  let (metadata, session) ← takeMetadata session
  validateRunDefaults runDefaults
  validateSessionIdentity session
  .ok ⟨session, runDefaults, metadata, false⟩

/-- The members `parse_v2` and `parse_v3` share; `v` names the version in the errors. -/
def sharedMembers (v : String) (root : JsonMap) :
    Except StoreError (JsonMap × Value × JsonMap × JsonMap) := do
  let session ← objectMember root "session"
    (.invalid ("Persisted Session configuration " ++ v ++ " requires an object session"))
  let root := JsonMap.remove root "session"
  let runDefaults ← orElse (JsonMap.get root "run_defaults")
    (.invalid ("Persisted Session configuration " ++ v ++ " requires run_defaults"))
  let root := JsonMap.remove root "run_defaults"
  let metadata ← objectMember root "metadata"
    (.invalid ("Persisted Session configuration " ++ v ++ " requires object metadata"))
  .ok (session, runDefaults, metadata, JsonMap.remove root "metadata")

/-- The checks `parse_v2` and `parse_v3` end with. -/
def checkMembers (v : String) (session : JsonMap) (runDefaults : Value) (root : JsonMap) :
    Except StoreError Unit := do
  refuse (!root.isEmpty)
    (.invalid ("Persisted Session configuration " ++ v ++ " has unknown top-level fields"))
  validateRunDefaults runDefaults
  validateSessionIdentity session
  refuse (JsonMap.containsKey session "metadata")
    (.invalid ("Persisted Session configuration " ++ v ++ " metadata must be top-level"))

/-- `parse_v2`. -/
def parseV2 (root : JsonMap) : Except StoreError PersistedConfiguration := do
  let (session, runDefaults, metadata, root) ← sharedMembers "V2" root
  checkMembers "V2" session runDefaults root
  .ok ⟨session, runDefaults, metadata, false⟩

/-- `parse_v3`. -/
def parseV3 (root : JsonMap) : Except StoreError PersistedConfiguration := do
  let (session, runDefaults, metadata, root) ← sharedMembers "V3" root
  let features ← objectMember root "runtime_features"
    (.invalid "Persisted Session configuration V3 requires object runtime_features")
  let enabled ← orElse ((JsonMap.get features "interactions_enabled").bind (·.asBool))
    (.invalid "Persisted Session configuration V3 requires boolean runtime_features.interactions_enabled")
  refuse (!(JsonMap.remove features "interactions_enabled").isEmpty)
    (.invalid "Persisted Session configuration V3 has unknown runtime_features")
  checkMembers "V3" session runDefaults (JsonMap.remove root "runtime_features")
  .ok ⟨session, runDefaults, metadata, enabled⟩

/-- `parse_and_migrate`: the configuration, and whether it was of an older version. -/
def parseAndMigrate (value : Value) : Except StoreError (PersistedConfiguration × Bool) :=
  match value with
  | .object root => do
    let version ← orElse ((JsonMap.get root "version").bind (·.asU64))
      (.invalid "Persisted Session configuration requires an integer version")
    let root := JsonMap.remove root "version"
    match version with
    | 1 => (migrateV1 root).map (·, true)
    | 2 => (parseV2 root).map (·, true)
    | 3 => (parseV3 root).map (·, false)
    | other => .error (.invalid
        ("Unsupported persisted Session configuration version " ++ toString other))
  | _ => .error (.invalid "Persisted Session configuration must be an object")

/-- `attachment_identity`. -/
def attachmentIdentity (c : PersistedConfiguration) : JsonMap × Value := (c.session, c.runDefaults)

/-- `into_value`. -/
def intoValue (c : PersistedConfiguration) : Value :=
  .object
    [("metadata", .object c.metadata), ("run_defaults", c.runDefaults),
     ("runtime_features", .object [("interactions_enabled", .bool c.interactionsEnabled)]),
     ("session", .object c.session), ("version", .number (.int 3))]

/-- `replace_metadata`. -/
def replaceMetadata (c : PersistedConfiguration) (metadata : JsonMap) :
    Except StoreError PersistedConfiguration := do
  validateMetadataReplacement metadata
  .ok { c with metadata }

end

end PersistedConfiguration

/-! ## Configuration helpers of the runtime -/

section
variable [External]

/-- `parse_versioned_configuration`. -/
def parseVersionedConfiguration (configuration : Value) :
    Except StoreError (Option (PersistedConfiguration × Bool)) :=
  match configuration.get "version" with
  | none => .ok none
  | some _ => (PersistedConfiguration.parseAndMigrate configuration).map some

/-- `normalize_new_configuration`. -/
def normalizeNewConfiguration (configuration : Value) : Except StoreError Value := do
  match ← parseVersionedConfiguration configuration with
  | some (c, _) => .ok c.intoValue
  | none => .ok configuration

/-- `normalize_configuration_replacement`. -/
def normalizeConfigurationReplacement (current replacement : Value) : Except StoreError Value := do
  let replacement ← normalizeNewConfiguration replacement
  match ← parseVersionedConfiguration current, ← parseVersionedConfiguration replacement with
  | some (c, _), some (c', _) =>
    refuse (c.metadata != c'.metadata)
      (.invalid "Use replace_metadata to change persisted Session metadata")
    .ok replacement
  | some _, none =>
    .error (.invalid "Versioned persisted Session configuration cannot become unversioned")
  | _, _ => .ok replacement

end

end Whale
