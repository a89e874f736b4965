import Mathlib.Data.List.MinMax
import Whale.Lib.Check
import Whale.Protocol.Json

/-!
# Connection bootstrap

`whale-protocol/src/initialization.rs`: what a client offers and requires, and what a daemon answers. Both sides
check the answer with `InitializeResult.validateFor`.
-/

namespace Whale

open Check

def protocolVersion : Nat := 1

def supportedProtocolVersions : List Nat := [protocolVersion]

def protocolCapabilities : List String :=
  ["runs.v1", "scoped_tools.v1", "tool_context.v1", "context_policy.v1", "session_close.v1", "provider_config.v1",
    "model_providers.v1", "sampling_options.v1"]

/-- `core::fmt::Debug`, of the types that an error prints with it. -/
class DebugText where
  names : List String → String

/-- `PeerInfo`. -/
structure PeerInfo where
  name : String
  version : String
  deriving DecidableEq, Repr

/-- `InitializeParams`. -/
structure InitializeParams where
  client : PeerInfo
  protocolVersions : List Nat
  requiredCapabilities : List String
  deriving DecidableEq, Repr

/-- `InitializeResult`. -/
structure InitializeResult where
  server : PeerInfo
  protocolVersion : Nat
  capabilities : List String
  deriving DecidableEq, Repr

/-- `validate_name`. -/
def validateName (value label : String) : Except String Unit :=
  refuse (value == "" || trim value != value) s!"{label} must be nonempty without surrounding whitespace"

/-- `validate_capabilities`, after the names in `seen`. -/
def validateCapabilities : List String → List String → Except String Unit
  | _, [] => .ok ()
  | seen, capability :: capabilities => do
    validateName capability "Capability name"
    refuse (decide (capability ∈ seen)) s!"Duplicate capability: {capability}"
    validateCapabilities (capability :: seen) capabilities

/-- `PeerInfo::validate`. -/
def PeerInfo.validate (p : PeerInfo) : Except String Unit := do
  validateName p.name "Peer name"
  validateName p.version "Peer package version"

namespace InitializeParams

/-- `InitializeParams::sdk`. -/
def sdk (name version : String) : InitializeParams where
  client := ⟨name, version⟩
  protocolVersions := supportedProtocolVersions
  requiredCapabilities := protocolCapabilities

/-- The loop over the offered versions, after those in `seen`. -/
def validateVersions (seen versions : List Nat) : Except String Unit :=
  distinct (fun version => refuse (version == 0) "Protocol versions must be positive and unique") id
    "Protocol versions must be positive and unique" seen versions

/-- `InitializeParams::validate`. -/
def validate (p : InitializeParams) : Except String Unit := do
  p.client.validate
  refuse p.protocolVersions.isEmpty "At least one supported protocol version is required"
  validateVersions [] p.protocolVersions
  validateCapabilities [] p.requiredCapabilities

end InitializeParams

namespace InitializeResult

variable [DebugText]

/-- `InitializeResult::validate_for`. -/
def validateFor (r : InitializeResult) (params : InitializeParams) : Except String Unit := do
  params.validate
  r.server.validate
  refuse (r.protocolVersion == 0 || !params.protocolVersions.contains r.protocolVersion)
    s!"Daemon selected unoffered protocol version {r.protocolVersion}"
  validateCapabilities [] r.capabilities
  let missing := params.requiredCapabilities.filter fun required => !r.capabilities.contains required
  refuse (!missing.isEmpty) s!"Daemon is missing required capabilities: {DebugText.names missing}"

/-- `InitializeResult::negotiate`. -/
def negotiate (params : InitializeParams) (server : PeerInfo) : Except String InitializeResult := do
  params.validate
  server.validate
  let protocolVersion ← orElse (params.protocolVersions.filter supportedProtocolVersions.contains).max?
    "No compatible protocol version; daemon supports [1]"
  let result : InitializeResult := ⟨server, protocolVersion, protocolCapabilities⟩
  result.validateFor params
  .ok result

end InitializeResult

end Whale
