import OpenTulpa.Library.Text

/-! The parts of capability manifests and activations that the revision store and the
lifecycle service read. -/

namespace OpenTulpa.Capabilities.Models

open Library Text

inductive SecretSource where
  | tenantHandle
  | host
  | issued
  deriving DecidableEq

structure SecretRequirement where
  name : String
  scopes : List String
  source : SecretSource := .tenantHandle
  required : Bool := true
  deriving DecidableEq

inductive TrustClass where
  | owner
  | background
  | external
  deriving DecidableEq

structure AgentInterfaceBinding where
  agentSpecId : String
  runKind : String
  trustClass : TrustClass
  deriving DecidableEq

structure WorkerSpec where
  name : String
  agentBinding : Option AgentInterfaceBinding := none
  secrets : List SecretRequirement := []
  deriving DecidableEq

structure CapabilityManifest where
  name : String
  version : String
  revision : Nat
  configSchema : JsonObject := []
  workers : List WorkerSpec := []
  secrets : List SecretRequirement := []
  seed : Bool := false
  deriving DecidableEq

structure CapabilitySecretBinding where
  handleId : String
  revision : Nat
  scopes : List String
  deriving DecidableEq

structure AgentSpecRef where
  tenantId : String
  specId : String
  revision : Nat
  deriving DecidableEq

structure AgentRunBinding where
  agentSpec : AgentSpecRef
  runKind : String
  trustClass : TrustClass
  deriving DecidableEq

abbrev SecretBindings := List (String × CapabilitySecretBinding)

/-- A namespace and a capability name. -/
abbrev CapabilityKey := String × String

structure CapabilityActivation where
  namespaceName : String
  capabilityName : String
  revision : Nat
  manifestDigest : String
  generation : Nat
  activatedAt : Nat
  config : JsonObject
  secretHandles : JsonObject
  secretBindings : SecretBindings
  agentBinding : Option AgentRunBinding
  deriving DecidableEq

def CapabilityActivation.key (activation : CapabilityActivation) : CapabilityKey :=
  (activation.namespaceName, activation.capabilityName)

inductive CapabilityActivationState where
  | active
  | deactivating
  | inactive
  deriving DecidableEq

end OpenTulpa.Capabilities.Models
