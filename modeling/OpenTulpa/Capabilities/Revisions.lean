import OpenTulpa.Capabilities.Models
import OpenTulpa.Library.Outcome
import OpenTulpa.Library.Rows
import OpenTulpa.Library.Run

/-! The capability revision store: an append-only archive of manifests and one activation row
for each capability, moved by compare and swap on its generation. Operations are transactions;
one that raises leaves the store as it was. -/

namespace OpenTulpa.Capabilities.Revisions

open Library Text Outcome Models

structure RevisionRow where
  namespaceName : String
  manifest : CapabilityManifest
  manifestDigest : String
  createdAt : Nat
  deriving DecidableEq

def RevisionRow.key (row : RevisionRow) : CapabilityKey := (row.namespaceName, row.manifest.name)

structure ActivationRow where
  activation : CapabilityActivation
  lifecycleState : CapabilityActivationState
  deriving DecidableEq

def ActivationRow.key (row : ActivationRow) : CapabilityKey := row.activation.key

def ActivationRow.generation (row : ActivationRow) : Nat := row.activation.generation

structure CapabilityTestResult where
  key : CapabilityKey
  revision : Nat
  manifestDigest : String
  passed : Bool
  deriving DecidableEq

structure CapabilityRevisionStore where
  revisions : List RevisionRow
  activations : List ActivationRow
  testResults : List CapabilityTestResult
  deriving DecidableEq

def CapabilityRevisionStore.empty : CapabilityRevisionStore := ⟨[], [], []⟩

inductive RevisionError where
  | namespaceInvalid
  | latestChanged (expected found : Option Nat)
  | wrongRevision (expected got : Nat)
  | alreadyExists
  | foreignAgentBinding
  | missingRevision (capabilityName : String) (revision : Nat)
  | corruptDigest
  | deactivationInProgress
  | generationChanged (expected found : Option Nat)
  | changedConcurrently
  | notActive (capabilityName : String)
  | noLifecycleRecord (capabilityName : String)
  | notDeactivating
  deriving DecidableEq

def showOptional : Option Nat → String
  | none => "None"
  | some n => toString n

def RevisionError.message : RevisionError → String
  | .namespaceInvalid => "capability namespace must contain 1 to 200 characters"
  | .latestChanged expected found =>
      "expected latest revision " ++ showOptional expected ++ ", found " ++ showOptional found
  | .wrongRevision expected got =>
      "new manifest must be revision " ++ toString expected ++ ", got " ++ toString got
  | .alreadyExists => "capability revision already exists"
  | .foreignAgentBinding => "capability agent binding belongs to a different tenant"
  | .missingRevision name revision =>
      "capability '" ++ name ++ "' revision " ++ toString revision ++ " does not exist"
  | .corruptDigest => "stored capability manifest digest does not match"
  | .deactivationInProgress => "capability deactivation is in progress"
  | .generationChanged expected found =>
      "expected activation generation " ++ showOptional expected ++ ", found " ++ showOptional found
  | .changedConcurrently => "capability activation changed concurrently"
  | .notActive name => "capability '" ++ name ++ "' is not active"
  | .noLifecycleRecord name => "capability '" ++ name ++ "' has no lifecycle record"
  | .notDeactivating => "capability generation is not in a deactivation transition"

/-- `_namespace` -/
def safeNamespace (value : String) : Except RevisionError String :=
  let safe := strip value
  if safe.isEmpty || 200 < safe.length then .error .namespaceInvalid else .ok safe

def CapabilityRevisionStore.revisionsOf (store : CapabilityRevisionStore) (key : CapabilityKey) :
    List RevisionRow :=
  store.revisions.filter fun row => row.key == key

def CapabilityRevisionStore.activation (store : CapabilityRevisionStore) (key : CapabilityKey) :
    Option ActivationRow :=
  store.activations.find? fun row => row.key == key

/-- `SELECT MAX(revision)` -/
def CapabilityRevisionStore.latestRevision (store : CapabilityRevisionStore) (key : CapabilityKey) :
    Option Nat :=
  ((store.revisionsOf key).map fun row => row.manifest.revision).max?

/-- The activation of a capability whose row is in the given lifecycle state. -/
def CapabilityRevisionStore.inState (store : CapabilityRevisionStore) (state : CapabilityActivationState)
    (namespaceName capabilityName : String) : Except RevisionError (Option CapabilityActivation) := do
  let safe ← safeNamespace namespaceName
  return ((store.activation (safe, capabilityName)).filter fun row => row.lifecycleState == state).map
    ActivationRow.activation

def CapabilityRevisionStore.active (store : CapabilityRevisionStore) (namespaceName capabilityName : String) :
    Except RevisionError (Option CapabilityActivation) :=
  store.inState .active namespaceName capabilityName

def CapabilityRevisionStore.deactivating (store : CapabilityRevisionStore)
    (namespaceName capabilityName : String) : Except RevisionError (Option CapabilityActivation) :=
  store.inState .deactivating namespaceName capabilityName

def CapabilityRevisionStore.inactive (store : CapabilityRevisionStore) (namespaceName capabilityName : String) :
    Except RevisionError (Option CapabilityActivation) :=
  store.inState .inactive namespaceName capabilityName

def nextGeneration (store : CapabilityRevisionStore) (namespaceName capabilityName : String) :
    Except RevisionError Nat := do
  let safe ← safeNamespace namespaceName
  match store.activation (safe, capabilityName) with
  | none => .ok 1
  | some row =>
    if row.lifecycleState = .deactivating then .error .deactivationInProgress
    else .ok (row.generation + 1)

section Digest

variable (contentDigest : CapabilityManifest → String)

def append (store : CapabilityRevisionStore) (namespaceName : String) (manifest : CapabilityManifest)
    (expectedLatestRevision : Option Nat) (now : Nat) :
    Except RevisionError (CapabilityRevisionStore × CapabilityManifest) := do
  let safe ← safeNamespace namespaceName
  let current := store.latestRevision (safe, manifest.name)
  if current ≠ expectedLatestRevision then .error (.latestChanged expectedLatestRevision current)
  else
    let expectedNew := current.elim 1 (· + 1)
    if manifest.revision ≠ expectedNew then .error (.wrongRevision expectedNew manifest.revision)
    else if store.revisions.any fun row =>
        row.key == (safe, manifest.name) && row.manifest.revision == manifest.revision then
      .error .alreadyExists
    else
      let row : RevisionRow := ⟨safe, manifest, contentDigest manifest, now⟩
      .ok ({ store with revisions := store.revisions ++ [row] }, manifest)

/-- `get`, with the digest check of `_manifest_from_row`. -/
def getManifest (store : CapabilityRevisionStore) (key : CapabilityKey) (revision : Nat) :
    Except RevisionError (Option CapabilityManifest) :=
  match store.revisions.find? fun row => row.key == key && row.manifest.revision == revision with
  | none => .ok none
  | some row =>
    if contentDigest row.manifest ≠ row.manifestDigest then .error .corruptDigest
    else .ok (some row.manifest)

end Digest

/-- `UPDATE capability_activations SET ... WHERE ... AND generation = ? AND lifecycle_state = ?`,
which has to change exactly one row. -/
def CapabilityRevisionStore.swap (store : CapabilityRevisionStore) (key : CapabilityKey) (generation : Nat)
    (state : CapabilityActivationState) (change : ActivationRow → ActivationRow) :
    Except RevisionError CapabilityRevisionStore :=
  let chosen := fun row : ActivationRow =>
    row.key == key && (row.generation == generation && row.lifecycleState == state)
  if store.activations.countP chosen ≠ 1 then .error .changedConcurrently
  else .ok { store with activations := Rows.update chosen change store.activations }

structure ActivateRequest where
  namespaceName : String
  capabilityName : String
  revision : Nat
  expectedGeneration : Option Nat
  config : JsonObject := []
  secretHandles : JsonObject := []
  secretBindings : SecretBindings := []
  agentBinding : Option AgentRunBinding := none
  deriving DecidableEq

/-- The comparison behind the idempotent shortcut. -/
def ActivateRequest.repeats (request : ActivateRequest) (current : CapabilityActivation) : Bool :=
  current.revision == request.revision && current.config == request.config &&
    current.secretHandles == request.secretHandles && current.secretBindings == request.secretBindings &&
    current.agentBinding == request.agentBinding

def ActivateRequest.activation (request : ActivateRequest) (safe digest : String) (generation now : Nat) :
    CapabilityActivation where
  namespaceName := safe
  capabilityName := request.capabilityName
  revision := request.revision
  manifestDigest := digest
  generation := generation
  activatedAt := now
  config := request.config
  secretHandles := request.secretHandles
  secretBindings := request.secretBindings
  agentBinding := request.agentBinding

def activeGeneration (row : Option ActivationRow) : Option Nat :=
  (row.filter fun row => row.lifecycleState == .active).map ActivationRow.generation

/-- The part of `activate` after the manifest has been read. -/
def CapabilityRevisionStore.moveTo (store : CapabilityRevisionStore) (request : ActivateRequest)
    (safe digest : String) (now : Nat) :
    Except RevisionError (CapabilityRevisionStore × CapabilityActivation) :=
  let key := (safe, request.capabilityName)
  match store.activation key with
  | none =>
    if request.expectedGeneration ≠ none then .error (.generationChanged request.expectedGeneration none)
    else
      let activated := request.activation safe digest 1 now
      .ok ({ store with activations := store.activations ++ [⟨activated, .active⟩] }, activated)
  | some row =>
    if row.lifecycleState = .deactivating then .error .deactivationInProgress
    else if activeGeneration (some row) ≠ request.expectedGeneration then
      .error (.generationChanged request.expectedGeneration (activeGeneration (some row)))
    else if row.lifecycleState = .active ∧ request.repeats row.activation then .ok (store, row.activation)
    else do
      let activated := request.activation safe digest (row.generation + 1) now
      let stored ← store.swap key row.generation row.lifecycleState fun _ => ⟨activated, .active⟩
      return (stored, activated)

def activate (contentDigest : CapabilityManifest → String) (store : CapabilityRevisionStore)
    (request : ActivateRequest) (now : Nat) :
    Except RevisionError (CapabilityRevisionStore × CapabilityActivation) := do
  let safe ← safeNamespace request.namespaceName
  if request.agentBinding.any fun binding => binding.agentSpec.tenantId != safe then
    .error .foreignAgentBinding
  else
    match ← getManifest contentDigest store (safe, request.capabilityName) request.revision with
    | none => .error (.missingRevision request.capabilityName request.revision)
    | some manifest => store.moveTo request safe (contentDigest manifest) now

def inLifecycle (state : CapabilityActivationState) (row : ActivationRow) : ActivationRow :=
  { row with lifecycleState := state }

def beginDeactivation (store : CapabilityRevisionStore) (namespaceName capabilityName : String)
    (expectedGeneration : Nat) : Except RevisionError (CapabilityRevisionStore × CapabilityActivation) := do
  let safe ← safeNamespace namespaceName
  match store.activation (safe, capabilityName) with
  | none => .error (.notActive capabilityName)
  | some row =>
    if row.generation ≠ expectedGeneration then
      .error (.generationChanged (some expectedGeneration) (some row.generation))
    else if row.lifecycleState = .deactivating then .ok (store, row.activation)
    else if row.lifecycleState ≠ .active then .error (.notActive capabilityName)
    else do
      let stored ← store.swap (safe, capabilityName) expectedGeneration .active (inLifecycle .deactivating)
      return (stored, row.activation)

/-- `_change_deactivation_state` -/
def changeDeactivationState (store : CapabilityRevisionStore) (namespaceName capabilityName : String)
    (expectedGeneration : Nat) (target : CapabilityActivationState) :
    Except RevisionError (CapabilityRevisionStore × CapabilityActivation) := do
  let safe ← safeNamespace namespaceName
  match store.activation (safe, capabilityName) with
  | none => .error (.noLifecycleRecord capabilityName)
  | some row =>
    if row.generation ≠ expectedGeneration then
      .error (.generationChanged (some expectedGeneration) (some row.generation))
    else if row.lifecycleState = target then .ok (store, row.activation)
    else if row.lifecycleState ≠ .deactivating then .error .notDeactivating
    else do
      let stored ← store.swap (safe, capabilityName) expectedGeneration .deactivating (inLifecycle target)
      return (stored, row.activation)

def cancelDeactivation (store : CapabilityRevisionStore) (namespaceName capabilityName : String)
    (expectedGeneration : Nat) : Except RevisionError (CapabilityRevisionStore × CapabilityActivation) :=
  changeDeactivationState store namespaceName capabilityName expectedGeneration .active

def deactivate (store : CapabilityRevisionStore) (namespaceName capabilityName : String)
    (expectedGeneration : Nat) : Except RevisionError (CapabilityRevisionStore × CapabilityActivation) :=
  changeDeactivationState store namespaceName capabilityName expectedGeneration .inactive

end OpenTulpa.Capabilities.Revisions
