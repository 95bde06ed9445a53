import OpenTulpa.Capabilities.Revisions
import OpenTulpa.Library.Action
import OpenTulpa.Library.Dict

/-! The capability lifecycle service over the revision store and the worker manager. The store
is transactional; the workers are not, so an operation that raises keeps what it already did to
them. What the host, the secret resolver and the worker host answer during one operation is an
argument of that operation. -/

namespace OpenTulpa.Capabilities.Service

open Library Text Outcome Models Revisions

structure CapabilityWorkerSet where
  instanceId : String
  tenantId : String
  capabilityName : String
  capabilityRevision : Nat
  manifestDigest : String
  deriving DecidableEq

def CapabilityWorkerSet.key (set : CapabilityWorkerSet) : CapabilityKey := (set.tenantId, set.capabilityName)

/-- The worker sets held by `CapabilityWorkerManager`, keyed by instance. -/
abbrev CapabilityWorkerManager := List CapabilityWorkerSet

def CapabilityWorkerManager.running (workers : CapabilityWorkerManager) (instanceId : String) : Bool :=
  workers.any fun set => set.instanceId == instanceId

def CapabilityWorkerManager.stop (workers : CapabilityWorkerManager) (instanceId : String) :
    CapabilityWorkerManager :=
  workers.filter fun set => set.instanceId != instanceId

def CapabilityWorkerManager.fence (workers : CapabilityWorkerManager) (key : CapabilityKey) :
    CapabilityWorkerManager :=
  workers.filter fun set => set.key != key

/-- The instances of one capability. -/
def CapabilityWorkerManager.held (workers : CapabilityWorkerManager) (key : CapabilityKey) : List String :=
  (workers.filter fun set => set.key == key).map CapabilityWorkerSet.instanceId

structure Control where
  store : CapabilityRevisionStore
  workers : CapabilityWorkerManager
  deriving DecidableEq

inductive ControlError where
  | revision (error : RevisionError)
  | identityRequired (label : String)
  | blocked (capabilityName : String)
  | seedNotBundled
  | testRequired
  | invalidConfig
  | invalidSecretName
  | invalidSecretHandle
  | unknownHandles (names : List String)
  | missingHandles (names : List String)
  | incompleteBindings
  | invalidBindings
  | inconsistentAgentBinding
  | unexpectedAgentBinding
  | missingAgentBinding
  | mismatchedAgentBinding
  | refreshAndPreserve
  | noAgentInterface
  | nothingToPreserve
  | previousFenced
  | instanceIdRequired
  | alreadyRunning
  | portFailed
  | noEarlierRevision (capabilityName : String)
  | pendingReconciliation
  deriving DecidableEq

def ControlError.message : ControlError → String
  | .revision error => error.message
  | .identityRequired label => label ++ " is required"
  | .blocked name => "capability '" ++ name ++ "' is disabled by the host composition"
  | .seedNotBundled => "the capability seed revision is not bundled with the current release"
  | .testRequired => "the exact capability revision must pass isolated tests before activation"
  | .invalidConfig => "capability config is invalid"
  | .invalidSecretName => "capability secret environment names are invalid"
  | .invalidSecretHandle => "capability secret handle identifiers are invalid"
  | .unknownHandles names => "unknown capability secret handles: " ++ ", ".intercalate names
  | .missingHandles names => "missing capability secret handles: " ++ ", ".intercalate names
  | .incompleteBindings => "the capability secret resolver returned incomplete bindings"
  | .invalidBindings => "the capability secret resolver returned invalid bindings"
  | .inconsistentAgentBinding => "interface workers do not declare one consistent agent binding"
  | .unexpectedAgentBinding => "capability without Agent API access has an agent binding"
  | .missingAgentBinding => "interface generation is missing its durable agent binding"
  | .mismatchedAgentBinding => "interface generation agent binding does not match its reviewed manifest"
  | .refreshAndPreserve => "agent binding cannot be refreshed and preserved together"
  | .noAgentInterface => "capability does not declare an Agent API interface binding"
  | .nothingToPreserve => "there is no prior generation binding to preserve"
  | .previousFenced => "the previous interface generation lacked a durable agent binding and " ++
      "was fenced; activate again against the inactive generation"
  | .instanceIdRequired => "capability instance_id is required"
  | .alreadyRunning => "capability instance is already running"
  | .portFailed => "capability workers failed to start"
  | .noEarlierRevision name => "capability '" ++ name ++ "' has no earlier revision"
  | .pendingReconciliation => "capability deactivation is pending restart reconciliation"

/-- The composition of the host: what is bundled and blocked, the configuration it imposes and
the digests it computes. -/
structure Host where
  bundled : List CapabilityManifest
  blockedCapabilities : List String
  configDefaults : String → CapabilityManifest → JsonObject
  validConfig : CapabilityManifest → JsonObject → Bool
  contentDigest : CapabilityManifest → String
  bodyDigest : CapabilityManifest → String
  tenantHash : String → String
  nameHash : String → String

/-- What the ports answer during one operation. `starts` says whether the secret resolver, the
worker host and the tool host bring up the workers of a manifest. -/
structure Answers where
  bind : String → CapabilityManifest → JsonObject → Option SecretBindings
  bindAgentRun : String → CapabilityManifest → Option AgentRunBinding
  starts : CapabilityManifest → JsonObject → Bool
  now : Nat

abbrev Act := Action Control ControlError

def ofStore {α : Type} (query : CapabilityRevisionStore → Except RevisionError α) (control : Control) :
    Except ControlError α :=
  (query control.store).mapError .revision

/-- A transaction of the revision store. -/
def transact {α : Type} (operation : CapabilityRevisionStore → Except RevisionError (CapabilityRevisionStore × α)) :
    Act α := fun control =>
  match operation control.store with
  | .ok (stored, value) => (.ok value, { control with store := stored })
  | .error error => (.error (.revision error), control)

def identity (value label : String) : Except ControlError Unit :=
  if (strip value).isEmpty then .error (.identityRequired label) else .ok ()

def secretRequirements (manifest : CapabilityManifest) : List (String × SecretRequirement) :=
  (manifest.secrets ++ manifest.workers.flatMap WorkerSpec.secrets).foldl
    (fun requirements requirement =>
      match Dict.get requirements requirement.name with
      | none => Dict.insert requirement.name requirement requirements
      | some existing =>
        if requirement.required && !existing.required then
          Dict.insert requirement.name requirement requirements
        else requirements) []

def WorkerSpec.isInterface (worker : WorkerSpec) : Bool :=
  worker.secrets.any fun secret => secret.name == "OPENTULPA_AGENT_API_TOKEN" && secret.source == .issued

def declaredAgentBinding (manifest : CapabilityManifest) : Except ControlError (Option AgentInterfaceBinding) :=
  match ((manifest.workers.filter WorkerSpec.isInterface).map WorkerSpec.agentBinding).dedup with
  | [] => .ok none
  | [some binding] => .ok (some binding)
  | _ => .error .inconsistentAgentBinding

def validateAgentBinding (tenantId : String) (manifest : CapabilityManifest)
    (agentBinding : Option AgentRunBinding) : Except ControlError Unit := do
  match ← declaredAgentBinding manifest, agentBinding with
  | none, none => .ok ()
  | none, some _ => .error .unexpectedAgentBinding
  | some _, none => .error .missingAgentBinding
  | some declared, some binding =>
    if binding.agentSpec.tenantId ≠ tenantId ∨ binding.agentSpec.specId ≠ declared.agentSpecId ∨
        binding.runKind ≠ declared.runKind ∨ binding.trustClass ≠ declared.trustClass then
      .error .mismatchedAgentBinding
    else .ok ()

def isUpper (c : Char) : Bool := 'A' ≤ c && c ≤ 'Z'

def isLower (c : Char) : Bool := 'a' ≤ c && c ≤ 'z'

def isDigit (c : Char) : Bool := '0' ≤ c && c ≤ '9'

/-- `[A-Z][A-Z0-9_]{0,127}` -/
def isSecretName (text : String) : Bool :=
  match text.toList with
  | first :: rest => isUpper first && rest.length ≤ 127 && rest.all fun c => isUpper c || isDigit c || c == '_'
  | [] => false

/-- `[a-z][a-z0-9_-]{0,127}` -/
def isSecretHandle (text : String) : Bool :=
  match text.toList with
  | first :: rest =>
    isLower first && rest.length ≤ 127 && rest.all fun c => isLower c || isDigit c || c == '_' || c == '-'
  | [] => false

def secretHandleBindings (value : JsonObject) : Except ControlError JsonObject :=
  value.foldlM (fun bindings entry =>
    let name := strip entry.1
    let handle := strip entry.2
    if !isSecretName name then .error .invalidSecretName
    else if !isSecretHandle handle then .error .invalidSecretHandle
    else .ok (Dict.insert name handle bindings)) []

/-- The checks on the handles against what the manifest requires of the tenant. -/
def checkHandles (manifest : CapabilityManifest) (handles : JsonObject) : Except ControlError Unit :=
  let tenant := (secretRequirements manifest).filter fun entry => entry.2.source == .tenantHandle
  let unknown := (Dict.keys handles).filter fun name => !(Dict.keys tenant).contains name
  let missing := (Dict.keys (tenant.filter fun entry => entry.2.required)).filter fun name =>
    !(Dict.keys handles).contains name
  if unknown ≠ [] then .error (.unknownHandles unknown)
  else if missing ≠ [] then .error (.missingHandles missing)
  else .ok ()

def bindSecretHandles (answers : Answers) (tenantId : String) (manifest : CapabilityManifest)
    (handles : JsonObject) : Except ControlError SecretBindings :=
  if handles = [] then .ok []
  else
    match answers.bind tenantId manifest handles with
    | none => .error .portFailed
    | some raw =>
      let bindings := Dict.update [] raw
      if Dict.keys bindings ≠ Dict.keys handles then .error .incompleteBindings
      else if bindings.all fun entry =>
          Dict.get handles entry.1 == some entry.2.handleId &&
            (Dict.get (secretRequirements manifest) entry.1).any fun requirement =>
              requirement.source == .tenantHandle && entry.2.scopes == requirement.scopes then
        .ok bindings
      else .error .invalidBindings

def bindAgentRun (answers : Answers) (tenantId : String) (manifest : CapabilityManifest) :
    Except ControlError (Option AgentRunBinding) := do
  match ← declaredAgentBinding manifest with
  | none => return none
  | some _ =>
    let raw := answers.bindAgentRun tenantId manifest
    validateAgentBinding tenantId manifest raw
    return raw

section Service

variable (host : Host)

def nextInstanceId (tenantId capabilityName : String) (generation : Nat) : String :=
  "cap_" ++ host.tenantHash tenantId ++ "_" ++ String.ofList (capabilityName.toList.take 20) ++ "_" ++
    host.nameHash capabilityName ++ "_g" ++ toString generation

def instanceIdOf (activation : CapabilityActivation) : String :=
  nextInstanceId host activation.namespaceName activation.capabilityName activation.generation

def requireManifest (tenantId capabilityName : String) (revision : Nat) (control : Control) :
    Except ControlError CapabilityManifest := do
  let safe ← (safeNamespace tenantId).mapError .revision
  match ← ofStore (fun store => getManifest host.contentDigest store (safe, capabilityName) revision) control with
  | none => .error (.revision (.missingRevision capabilityName revision))
  | some manifest => .ok manifest

def stopInstance (instanceId : String) : Act Unit :=
  Action.modify fun control => { control with workers := control.workers.stop instanceId }

/-- `CapabilityWorkerManager.start`, once the ports have brought up the workers. -/
def managerStart (tenantId instanceId : String) (manifest : CapabilityManifest) : Act Unit := do
  let safeInstanceId := strip instanceId
  if safeInstanceId.isEmpty then Action.raise .instanceIdRequired
  else
    let control ← Action.read
    if control.workers.running safeInstanceId then Action.raise .alreadyRunning
    else
      let safeTenant := if (strip tenantId).isEmpty then "default" else strip tenantId
      Action.modify fun control => { control with
        workers := control.workers ++
          [⟨safeInstanceId, safeTenant, manifest.name, manifest.revision, host.contentDigest manifest⟩] }

/-- `_start_workers`; whatever was started is stopped again when it raises. -/
def startWorkers (answers : Answers) (tenantId instanceId : String) (manifest : CapabilityManifest)
    (config : JsonObject) (agentBinding : Option AgentRunBinding) : Act Unit := do
  Action.lift fun _ => validateAgentBinding tenantId manifest agentBinding
  let runtimeConfig := Dict.update config (host.configDefaults tenantId manifest)
  if !host.validConfig manifest runtimeConfig then Action.raise .invalidConfig
  else
    Action.handle
      (if answers.starts manifest runtimeConfig then managerStart host tenantId instanceId manifest
        else Action.raise .portFailed)
      fun error => do
        stopInstance instanceId
        Action.raise error

def restorePreviousGeneration (answers : Answers) (active : CapabilityActivation) (manifest : CapabilityManifest) :
    Act Unit :=
  startWorkers host answers active.namespaceName (instanceIdOf host active) manifest active.config
    active.agentBinding

def quiesceGeneration (activation : CapabilityActivation) : Act Unit := do
  stopInstance (instanceIdOf host activation)
  Action.modify fun control => { control with
    workers := control.workers.fence (strip activation.namespaceName, strip activation.capabilityName) }

def finishDeactivationLocked (transition : CapabilityActivation) : Act CapabilityActivation := do
  quiesceGeneration host transition
  transact fun store => deactivate store transition.namespaceName transition.capabilityName transition.generation

def disableActiveLocked (active : CapabilityActivation) : Act Unit := do
  let transition ← transact fun store =>
    beginDeactivation store active.namespaceName active.capabilityName active.generation
  let _ ← finishDeactivationLocked host transition

structure ActivateCall where
  tenantId : String
  actorId : String
  capabilityName : String
  revision : Nat
  expectedGeneration : Option Nat
  config : JsonObject := []
  secretHandles : JsonObject := []
  refreshAgentBinding : Bool := false
  preserveAgentBinding : Bool := false
  deriving DecidableEq

def isCurrentSeed (manifest : CapabilityManifest) : Bool :=
  host.bundled.any fun current => current.name == manifest.name && host.bodyDigest current == host.bodyDigest manifest

/-- What the checks at the head of `_activate_locked` come to. -/
structure Checked where
  manifest : CapabilityManifest
  config : JsonObject
  handles : JsonObject
  bindings : SecretBindings
  current : Option CapabilityActivation
  deriving DecidableEq

def ActivateCall.mergedConfig (call : ActivateCall) (manifest : CapabilityManifest) : JsonObject :=
  Dict.update (Dict.update [] (host.configDefaults call.tenantId manifest)) call.config

def attested (call : ActivateCall) (manifest : CapabilityManifest) (store : CapabilityRevisionStore) : Bool :=
  store.testResults.any fun result =>
    result.key == (strip call.tenantId, call.capabilityName) && result.revision == call.revision &&
      result.passed && result.manifestDigest == host.contentDigest manifest

/-- `_activate_locked` up to the point where it looks at the current generation's binding. -/
def checkActivation (answers : Answers) (call : ActivateCall) (control : Control) : Except ControlError Checked := do
  identity call.actorId "actor_id"
  if host.blockedCapabilities.contains (lower (strip call.capabilityName)) then
    .error (.blocked call.capabilityName)
  else
    let manifest ← requireManifest host call.tenantId call.capabilityName call.revision control
    if manifest.seed && !isCurrentSeed host manifest then .error .seedNotBundled
    else if !attested host call manifest control.store then .error .testRequired
    else
      let config := call.mergedConfig host manifest
      if !host.validConfig manifest config then .error .invalidConfig
      else
        let handles ← secretHandleBindings call.secretHandles
        checkHandles manifest handles
        let bindings ← bindSecretHandles answers call.tenantId manifest handles
        let current ← ofStore (fun store => store.active call.tenantId call.capabilityName) control
        let leaving ← ofStore (fun store => store.deactivating call.tenantId call.capabilityName) control
        if leaving.isSome then .error (.revision .deactivationInProgress)
        else if current.map CapabilityActivation.generation ≠ call.expectedGeneration then
          .error (.revision (.generationChanged call.expectedGeneration
            (current.map CapabilityActivation.generation)))
        else if call.refreshAgentBinding && call.preserveAgentBinding then .error .refreshAndPreserve
        else
          let declared ← declaredAgentBinding manifest
          if call.refreshAgentBinding && declared.isNone then .error .noAgentInterface
          else return ⟨manifest, config, handles, bindings, current⟩

/-- A current generation whose agent binding does not fit its manifest is fenced. -/
def fenceInvalidCurrent (current : CapabilityActivation) (manifest : CapabilityManifest) : Act Unit :=
  Action.handle (Action.lift fun _ => validateAgentBinding current.namespaceName manifest current.agentBinding)
    fun _ => do
      disableActiveLocked host current
      Action.raise .previousFenced

def Checked.unchanged (checked : Checked) (call : ActivateCall) (current : CapabilityActivation) : Bool :=
  current.revision == call.revision && current.config == checked.config &&
    current.secretHandles == checked.handles && current.secretBindings == checked.bindings

def agentBindingFor (answers : Answers) (call : ActivateCall) (checked : Checked) :
    Except ControlError (Option AgentRunBinding) := do
  let binding ←
    if call.preserveAgentBinding then
      match checked.current with
      | none => .error .nothingToPreserve
      | some current => .ok current.agentBinding
    else bindAgentRun answers call.tenantId checked.manifest
  validateAgentBinding call.tenantId checked.manifest binding
  return binding

def Checked.request (checked : Checked) (call : ActivateCall) (agentBinding : Option AgentRunBinding) :
    ActivateRequest where
  namespaceName := call.tenantId
  capabilityName := call.capabilityName
  revision := call.revision
  expectedGeneration := call.expectedGeneration
  config := checked.config
  secretHandles := checked.handles
  secretBindings := checked.bindings
  agentBinding := agentBinding

/-- Puts the workers of the current generation back before the failure is raised. -/
def restoreCurrent (answers : Answers) (call : ActivateCall) (current : Option CapabilityActivation) : Act Unit :=
  match current with
  | none => pure ()
  | some active => do
    let manifest ← Action.lift (requireManifest host call.tenantId active.capabilityName active.revision)
    restorePreviousGeneration host answers active manifest

/-- `_activate_locked` from the prediction of the next generation on. -/
def switchGeneration (answers : Answers) (call : ActivateCall) (checked : Checked)
    (agentBinding : Option AgentRunBinding) : Act CapabilityActivation := do
  let generation ← Action.lift (ofStore fun store => nextGeneration store call.tenantId call.capabilityName)
  let instanceId := nextInstanceId host call.tenantId call.capabilityName generation
  match checked.current with
  | none => pure ()
  | some current => stopInstance (instanceIdOf host current)
  if checked.manifest.workers ≠ [] then
    Action.handle
      (startWorkers host answers call.tenantId instanceId checked.manifest checked.config agentBinding)
      fun error => do
        restoreCurrent host answers call checked.current
        Action.raise error
  else pure ()
  Action.handle
    (transact fun store => activate host.contentDigest store (checked.request call agentBinding) answers.now)
    fun error => do
      if checked.manifest.workers ≠ [] then stopInstance instanceId else pure ()
      restoreCurrent host answers call checked.current
      Action.raise error

def activateLocked (answers : Answers) (call : ActivateCall) : Act CapabilityActivation := do
  let checked ← Action.lift (checkActivation host answers call)
  match checked.current with
  | none => pure ()
  | some current => do
    let manifest ← Action.lift (requireManifest host call.tenantId current.capabilityName current.revision)
    fenceInvalidCurrent host current manifest
  match checked.current.filter fun current => checked.unchanged call current && !call.refreshAgentBinding with
  | some current => return current
  | none => do
    let agentBinding ← Action.lift fun _ => agentBindingFor answers call checked
    switchGeneration host answers call checked agentBinding

def activateCapability (answers : Answers) (call : ActivateCall) : Act CapabilityActivation :=
  activateLocked host answers { call with preserveAgentBinding := false }

structure RollbackCall where
  tenantId : String
  actorId : String
  capabilityName : String
  expectedGeneration : Nat
  config : Option JsonObject := none
  secretHandles : Option JsonObject := none
  deriving DecidableEq

/-- The latest stored revision before the given one. -/
def earlierRevision (store : CapabilityRevisionStore) (key : CapabilityKey) (revision : Nat) : Option Nat :=
  (((store.revisionsOf key).map fun row => row.manifest.revision).filter fun number => number < revision).max?

/-- The activation of the earlier revision that a rollback comes to. -/
def RollbackCall.activation (call : RollbackCall) (active : CapabilityActivation) (target : Nat) : ActivateCall where
  tenantId := call.tenantId
  actorId := call.actorId
  capabilityName := call.capabilityName
  revision := target
  expectedGeneration := some call.expectedGeneration
  config := call.config.getD active.config
  secretHandles := call.secretHandles.getD active.secretHandles
  preserveAgentBinding := true

def rollback (answers : Answers) (call : RollbackCall) : Act CapabilityActivation := do
  let current ← Action.lift (ofStore fun store => store.active call.tenantId call.capabilityName)
  match current with
  | none => Action.raise (.revision (.notActive call.capabilityName))
  | some active =>
    if active.generation ≠ call.expectedGeneration then
      Action.raise (.revision (.generationChanged (some call.expectedGeneration) (some active.generation)))
    else do
      let control ← Action.read
      match earlierRevision control.store (strip call.tenantId, call.capabilityName) active.revision with
      | none => Action.raise (.noEarlierRevision call.capabilityName)
      | some target =>
        activateLocked host answers (call.activation active target)

structure DeactivateCall where
  tenantId : String
  actorId : String
  capabilityName : String
  expectedGeneration : Nat
  deriving DecidableEq

/-- `_restore_deactivation_locked` -/
def restoreDeactivationLocked (answers : Answers) (transition : CapabilityActivation) : Act Unit := do
  let manifest ← Action.lift
    (requireManifest host transition.namespaceName transition.capabilityName transition.revision)
  quiesceGeneration host transition
  if manifest.workers ≠ [] then
    startWorkers host answers transition.namespaceName (instanceIdOf host transition) manifest transition.config
      transition.agentBinding
  else pure ()
  Action.handle
    (do
      let _ ← transact fun store =>
        cancelDeactivation store transition.namespaceName transition.capabilityName transition.generation)
    fun error => do
      quiesceGeneration host transition
      Action.raise error

def deactivateCapability (answers : Answers) (call : DeactivateCall) : Act CapabilityActivation := do
  Action.lift fun _ => identity call.actorId "actor_id"
  let active ← Action.lift (ofStore fun store => store.active call.tenantId call.capabilityName)
  let leaving ← Action.lift (ofStore fun store => store.deactivating call.tenantId call.capabilityName)
  match active.or leaving with
  | none => do
    let completed ← Action.lift (ofStore fun store => store.inactive call.tenantId call.capabilityName)
    match completed with
    | none => Action.raise (.revision (.notActive call.capabilityName))
    | some tombstone =>
      if tombstone.generation = call.expectedGeneration then return tombstone
      else
        Action.raise
          (.revision (.generationChanged (some call.expectedGeneration) (some tombstone.generation)))
  | some current =>
    if current.generation ≠ call.expectedGeneration then
      Action.raise (.revision (.generationChanged (some call.expectedGeneration) (some current.generation)))
    else do
      let transition ←
        match leaving with
        | some transition => pure transition
        | none => transact fun store =>
            beginDeactivation store call.tenantId call.capabilityName call.expectedGeneration
      Action.handle (finishDeactivationLocked host transition) fun error => do
        Action.handle (restoreDeactivationLocked host answers transition)
          fun _ => Action.raise .pendingReconciliation
        Action.raise error

def listActive (store : CapabilityRevisionStore) (safe : String) : List CapabilityActivation :=
  ((store.activations.filter fun row =>
    row.activation.namespaceName == safe && row.lifecycleState == .active).map ActivationRow.activation).mergeSort
      fun first second => first.capabilityName ≤ second.capabilityName

structure RefreshCall where
  tenantId : String
  actorId : String
  secretId : String
  deriving DecidableEq

/-- Whether a generation is looked at by `refresh_secret_bindings`. -/
def RefreshCall.concerns (call : RefreshCall) (active : CapabilityActivation) : Bool :=
  !host.blockedCapabilities.contains active.capabilityName &&
    (active.secretHandles.map Prod.snd).contains call.secretId

/-- The activation of the same revision with the new bindings. -/
def RefreshCall.activation (call : RefreshCall) (active : CapabilityActivation) : ActivateCall where
  tenantId := call.tenantId
  actorId := call.actorId
  capabilityName := active.capabilityName
  revision := active.revision
  expectedGeneration := some active.generation
  config := active.config
  secretHandles := active.secretHandles
  preserveAgentBinding := true

/-- When the refresh raised: the generation that is there instead, or the stale one disabled. -/
def answerFailedRefresh (call : RefreshCall) (active : CapabilityActivation) : Act (Option CapabilityActivation) := do
  let current ← Action.lift (ofStore fun store => store.active call.tenantId active.capabilityName)
  match current.filter fun current => current.generation != active.generation with
  | some moved => return some moved
  | none => do
    disableActiveLocked host active
    return none

/-- One round of the loop in `refresh_secret_bindings`. The resolver is asked for the bindings
once to compare them and once more by the activation. -/
def refreshOne (asked answers : Answers) (call : RefreshCall) (active : CapabilityActivation) :
    Act (Option CapabilityActivation) :=
  if !call.concerns host active then pure none
  else do
    let safe ← Action.lift fun _ => (safeNamespace call.tenantId).mapError .revision
    let found ← Action.lift (ofStore fun store =>
      getManifest host.contentDigest store (safe, active.capabilityName) active.revision)
    match found with
    | none => return none
    | some manifest =>
      Action.handle
        (do
          let bindings ← Action.lift fun _ => bindSecretHandles asked call.tenantId manifest active.secretHandles
          if bindings = active.secretBindings then return none
          else do
            let activated ← activateLocked host answers (call.activation active)
            return some activated)
        fun _ => answerFailedRefresh host call active

def refreshAll (asked answers : String → Answers) (call : RefreshCall) :
    List CapabilityActivation → Act (List CapabilityActivation)
  | [] => pure []
  | active :: rest => do
    let first ← refreshOne host (asked active.capabilityName) (answers active.capabilityName) call active
    let others ← refreshAll asked answers call rest
    return first.toList ++ others

def refreshSecretBindings (asked answers : String → Answers) (call : RefreshCall) :
    Act (List CapabilityActivation) := do
  let safe ← Action.lift fun _ => (safeNamespace call.tenantId).mapError .revision
  let control ← Action.read
  refreshAll host asked answers call (listActive control.store safe)

end Service

end OpenTulpa.Capabilities.Service
