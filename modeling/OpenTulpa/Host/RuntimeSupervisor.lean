import OpenTulpa.Library.Action
import OpenTulpa.Library.Text

/-! The runtime supervisor: one child process, the control files that own it, and the
operations that start, replace and stop it. What the operating system, the health probes and
concurrent callers do during one operation is a plan handed to it; a cancellation is an outcome
of the step it is delivered at. -/

namespace OpenTulpa.Host.RuntimeSupervisor

open Library

structure RuntimeLiveSourceSpec where
  sourceCommit : String
  runtimeEnvironmentId : Option String := none
  runtimePythonInterpreter : Option String := none
  runtimeDependencyLockHash : Option String := none
  runtimePyprojectSha256 : Option String := none
  runtimeInstallProfile : Option String := none
  deriving DecidableEq

inductive ConfigStatus where
  | staged
  | active
  | inactive
  | failed
  deriving DecidableEq

structure HostConfig where
  revision : Nat
  status : ConfigStatus
  apiKey : String
  baseUrl : String
  model : String
  telegramBotToken : Option String
  telegramUserId : Option Nat
  internalRuntimeToken : String
  telegramPairingCode : Option String
  createdAt : Nat
  error : Option String
  deriving DecidableEq

inductive RuntimeStatus where
  | stopped
  | starting
  | ready
  | probation
  | draining
  | rollingBack
  | fencing
  | restarting
  | stopping
  | failed
  | recoveryRequired
  deriving DecidableEq

structure Child where
  config : HostConfig
  liveSource : RuntimeLiveSourceSpec
  launchNonce : Nat
  requestedStop : Bool := false
  deriving DecidableEq

/-- The locals of a watcher between the exit of its child and its return. -/
structure Restart where
  version : Nat
  config : HostConfig
  target : RuntimeLiveSourceSpec
  deriving DecidableEq

/-- The watcher task: it waits for the exit of a child, and then for its turn to restart it. -/
inductive Watcher where
  | waiting (launchNonce : Nat)
  | restarting (restart : Restart)
  deriving DecidableEq

/-- One created process, with the earlier ones not yet proven terminated at that moment. -/
structure Launch where
  launchNonce : Nat
  unproven : List Nat
  deriving DecidableEq

/-- `failing` are the watchers that raised and have not yet reported it. `unproven` and
`launches` only record what happened. -/
structure Supervisor where
  child : Option Child
  status : RuntimeStatus
  error : Option String
  selectedLiveSource : Option RuntimeLiveSourceSpec
  selectionVersion : Nat
  desiredRunning : Bool
  desiredConfig : Option HostConfig
  desiredTarget : Option RuntimeLiveSourceSpec
  unexpectedRestarts : Nat
  ownershipChecked : Bool
  control : Option Nat
  intent : Option Nat
  watcher : Option Watcher
  failing : List Nat
  nextNonce : Nat
  unproven : List Nat
  launches : List Launch
  deriving DecidableEq

structure Settings where
  strictRuntimeReadiness : Bool
  probation : Bool
  maxUnexpectedRestarts : Nat
  recovery : Bool
  safeError : String → String

inductive RuntimeError where
  | cancelled
  | exitedBeforeReady (message : String)
  | containmentPreflight (message : String)
  | exception (message : String)
  deriving DecidableEq

def RuntimeError.message : RuntimeError → String
  | .cancelled => ""
  | .exitedBeforeReady message => message
  | .containmentPreflight message => message
  | .exception message => message

/-- An awaited step. -/
inductive Step where
  | returns
  | raises (message : String)
  | cancelled
  deriving DecidableEq

/-- A step on a control file: it takes effect, or raises without effect, or takes effect and
raises when the directory cannot be synced. -/
inductive FileStep where
  | done
  | undone (message : String)
  | unsynced (message : String)
  deriving DecidableEq

/-- `_stop_child`: whether the descendants could be enumerated, how the termination of the
process group ends, and how the control files are cleared after it. -/
structure StopPlan where
  enumerated : Bool
  terminated : Step
  clearRecord : FileStep
  clearIntent : FileStep
  deriving DecidableEq

inductive Readiness where
  | ready
  | exited (message : String)
  | raises (message : String)
  | cancelled
  deriving DecidableEq

/-- One attempt to launch, step by step. `cleanup` is the stop of the child when a step after
its creation does not succeed. -/
structure AttemptPlan where
  port : Bool
  interpreter : Bool
  checkout : Step
  writeIntent : FileStep
  create : Step
  discardIntent : FileStep
  identified : Bool
  writeRecord : FileStep
  removeIntent : FileStep
  readiness : Readiness
  cleanup : StopPlan
  deriving DecidableEq

structure SpawnPlan where
  first : AttemptPlan
  second : AttemptPlan
  deriving DecidableEq

/-- What reaches the caller of a shielded restoration before it is done. -/
inductive Interruption where
  | none
  | cancel
  | stop
  deriving DecidableEq

structure RestorePlan where
  spawn : SpawnPlan
  interruption : Interruption
  deriving DecidableEq

abbrev Act := Action Supervisor RuntimeError

def setStatus (status : RuntimeStatus) : Act Unit := Action.modify fun s => { s with status := status }

def setFailure (status : RuntimeStatus) (error : String) : Act Unit :=
  Action.modify fun s => { s with status := status, error := some error }

def setDesiredRunning (running : Bool) : Act Unit := Action.modify fun s => { s with desiredRunning := running }

def setChild (child : Option Child) : Act Unit := Action.modify fun s => { s with child := child }

/-- `_adopt_child`; the watcher of the new child becomes the watcher task. -/
def adoptChild (child : Child) : Act Unit :=
  Action.modify fun s => { s with child := some child, watcher := some (.waiting child.launchNonce) }

def selectTarget (target : RuntimeLiveSourceSpec) : Act Unit :=
  Action.modify fun s => { s with selectedLiveSource := some target }

def beginSelection (config : HostConfig) (target : RuntimeLiveSourceSpec) : Act Unit :=
  Action.modify fun s => { s with
    selectionVersion := s.selectionVersion + 1
    desiredRunning := true
    desiredConfig := some config
    desiredTarget := some target
    unexpectedRestarts := 0 }

/-- The removal of a control file: nothing to do without one, and the file of another launch
stays. -/
def clearFile (step : FileStep) (launchNonce : Nat) : Option Nat → Except RuntimeError Unit × Option Nat
  | none => (.ok (), none)
  | some holder =>
    match step with
    | .undone message => (.error (.exception message), some holder)
    | .done => (.ok (), if holder = launchNonce then none else some holder)
    | .unsynced message =>
      if holder = launchNonce then (.error (.exception message), none) else (.ok (), some holder)

def removeOwnershipRecord (step : FileStep) (launchNonce : Nat) : Act Unit := fun s =>
  ((clearFile step launchNonce s.control).1, { s with control := (clearFile step launchNonce s.control).2 })

def removeLaunchIntent (step : FileStep) (launchNonce : Nat) : Act Unit := fun s =>
  ((clearFile step launchNonce s.intent).1, { s with intent := (clearFile step launchNonce s.intent).2 })

/-- A process exists from here on. -/
def recordLaunch (launchNonce : Nat) : Act Unit :=
  Action.modify fun s => { s with
    launches := s.launches ++ [⟨launchNonce, s.unproven⟩]
    unproven := s.unproven ++ [launchNonce] }

/-- `_terminate_child_process_group` returned normally. -/
def recordProof (launchNonce : Nat) : Act Unit :=
  Action.modify fun s => { s with unproven := s.unproven.filter (· != launchNonce) }

/-- `child.requested_stop = True`, seen through `self._child` when it is this child. -/
def requestStop (launchNonce : Nat) : Act Unit :=
  Action.modify fun s => { s with
    child := s.child.map fun child =>
      if child.launchNonce = launchNonce then { child with requestedStop := true } else child }

/-- The watcher of a child that is being stopped is cancelled. -/
def cancelWatcher (launchNonce : Nat) : Act Unit :=
  Action.modify fun s => { s with
    watcher := if s.watcher = some (.waiting launchNonce) then none else s.watcher }

/-- The status becomes that of a failure, unless it asks for recovery. -/
def failUnlessRecovery (error : String) : Act Unit :=
  Action.modify fun s => { s with
    status := if s.status = .recoveryRequired then .recoveryRequired else .failed
    error := if s.status = .recoveryRequired then s.error else some error }

/-- `if self._child is child: self._child = None` -/
def releaseChild (launchNonce : Nat) : Act Unit :=
  Action.modify fun s => { s with child := s.child.filter fun child => child.launchNonce != launchNonce }

section Supervisor

variable (settings : Settings)

def stopChild (plan : StopPlan) (child : Child) : Act Unit :=
  if !plan.enumerated then do
    setFailure .recoveryRequired "runtime stop containment preflight failed"
    Action.raise (.containmentPreflight "runtime stop containment preflight failed")
  else do
    requestStop child.launchNonce
    cancelWatcher child.launchNonce
    match plan.terminated with
    | .cancelled => Action.raise .cancelled
    | .raises message => do
      setFailure .recoveryRequired (settings.safeError message)
      Action.modify fun s => { s with child := s.child.or (some { child with requestedStop := true }) }
      Action.raise (.exception message)
    | .returns => do
      recordProof child.launchNonce
      removeOwnershipRecord plan.clearRecord child.launchNonce
      removeLaunchIntent plan.clearIntent child.launchNonce

/-- The handler of an exception in `_spawn_live_source_attempt` once there is no process to stop. -/
def failLaunch {α : Type} (error : RuntimeError) : Act α := do
  setFailure .failed (settings.safeError error.message)
  Action.raise error

/-- The handler of an exception after the process was created. -/
def failCreated (plan : StopPlan) (child : Child) (error : RuntimeError) : Act Child := do
  Action.handle (stopChild settings plan child) fun
    | .cancelled => Action.raise .cancelled
    | cleanupError => do
      setFailure .recoveryRequired (settings.safeError cleanupError.message)
      Action.raise (.exception (settings.safeError cleanupError.message))
  failLaunch settings error

def writeOwnershipRecord (step : FileStep) (launchNonce : Nat) : Act Unit :=
  match step with
  | .undone message => Action.raise (.exception message)
  | .done => Action.modify fun s => { s with control := some launchNonce }
  | .unsynced message => do
    Action.modify fun s => { s with control := some launchNonce }
    Action.raise (.exception message)

/-- The record of the process, and the wait for its readiness. -/
def recordAndWait (plan : AttemptPlan) (child : Child) : Act Unit :=
  if !plan.identified then Action.raise (.exception "runtime process identity is unavailable")
  else do
    writeOwnershipRecord plan.writeRecord child.launchNonce
    removeLaunchIntent plan.removeIntent child.launchNonce
    match plan.readiness with
    | .ready => pure ()
    | .exited message => Action.raise (.exitedBeforeReady message)
    | .raises message => Action.raise (.exception message)
    | .cancelled => Action.raise .cancelled

/-- From the captured process to the ready child. -/
def awaitReady (plan : AttemptPlan) (child : Child) : Act Child := do
  let waited ← Action.attempt (recordAndWait plan child)
  match waited with
  | .ok _ => do
    setStatus .ready
    return child
  | .error .cancelled => do
    -- the cleanup runs shielded
    stopChild settings plan.cleanup child
    Action.raise .cancelled
  | .error error => failCreated settings plan.cleanup child error

def spawnLiveSourceAttempt (plan : AttemptPlan) (config : HostConfig) (liveSource : RuntimeLiveSourceSpec) :
    Act Child := do
  if !plan.port then Action.raise (.exception "no free port")
  else
    let s ← Action.read
    let launchNonce := s.nextNonce
    Action.modify fun s => { s with status := .starting, error := none, nextNonce := launchNonce + 1 }
    if !plan.interpreter then Action.raise (.exception "live source runtime interpreter is unavailable")
    else
      match plan.checkout with
      | .cancelled => Action.raise .cancelled
      | .raises message => failLaunch settings (.exception message)
      | .returns =>
        match plan.writeIntent with
        | .undone message => failLaunch settings (.exception message)
        | .unsynced message => do
          Action.modify fun s => { s with intent := some launchNonce }
          failLaunch settings (.exception message)
        | .done => do
          Action.modify fun s => { s with intent := some launchNonce }
          match plan.create with
          | .cancelled => do
            -- the process may exist although its identity was never captured
            recordLaunch launchNonce
            setFailure .recoveryRequired "runtime spawn was cancelled before child identity was captured"
            Action.raise .cancelled
          | .raises message => do
            removeLaunchIntent plan.discardIntent launchNonce
            failLaunch settings (.exception message)
          | .returns => do
            recordLaunch launchNonce
            awaitReady settings plan ⟨config, liveSource, launchNonce, false⟩

def spawnLiveSource (plan : SpawnPlan) (config : HostConfig) (liveSource : RuntimeLiveSourceSpec) : Act Child :=
  if settings.strictRuntimeReadiness then
    Action.handle (spawnLiveSourceAttempt settings plan.first config liveSource) fun
      | .exitedBeforeReady _ => spawnLiveSourceAttempt settings plan.second config liveSource
      | error => Action.raise error
  else spawnLiveSourceAttempt settings plan.first config liveSource

def spawnTarget (plan : SpawnPlan) (config : HostConfig) (target : RuntimeLiveSourceSpec) : Act Child :=
  spawnLiveSource settings plan config target

/-- A stop that arrives during the restoration cancels it; if it still comes up it is adopted. -/
def awaitRestoration (plan : RestorePlan) (config : HostConfig) (target : RuntimeLiveSourceSpec) : Act Child := do
  let restored ← spawnTarget settings plan.spawn config target
  match plan.interruption with
  | .stop => do
    adoptChild restored
    Action.raise .cancelled
  | _ => return restored

def awaitFailureRestoration (plan : RestorePlan) (config : HostConfig) (target : RuntimeLiveSourceSpec) :
    Act (Child × Bool) := do
  let restored ← awaitRestoration settings plan config target
  return (restored, plan.interruption == .cancel)

/-- `stopRequested` is what `_stop_requested` reads when the cancellation is handled. -/
def restoreAfterCancellation (stopRequested : Bool) (plan : RestorePlan) (config : Option HostConfig)
    (target : Option RuntimeLiveSourceSpec) : Act Unit := do
  let s ← Action.read
  match config, target, stopRequested || s.status == .recoveryRequired with
  | some config, some target, false => do
    selectTarget target
    beginSelection config target
    setStatus .rollingBack
    Action.handle
      (do
        let restored ← awaitRestoration settings plan config target
        adoptChild restored)
      fun
      | .cancelled => do
        setDesiredRunning false
        Action.modify fun s => { s with
          status := if s.child.isNone ∧ s.status ≠ .recoveryRequired then .stopped else s.status }
      | _ => do
        setDesiredRunning false
        failUnlessRecovery "cancelled activation could not restore the previous runtime"
  | _, _, _ => do
    setDesiredRunning false
    Action.modify fun s => { s with
      status :=
        if s.status = .recoveryRequired then .recoveryRequired
        else if stopRequested then .stopped
        else .failed }

def drainChildForReplacement (plan : StopPlan) (child : Child) : Act Unit := do
  let s ← Action.read
  setStatus .draining
  Action.handle (stopChild settings plan child) fun
    | .containmentPreflight message => do
      Action.modify fun after => { after with status := s.status, error := s.error }
      Action.raise (.containmentPreflight message)
    | error => Action.raise error

/-- What happens to the replacement of a child: the drain of the current one, the launch of the
candidate, its probation, and the restoration of the previous runtime on the way out. -/
structure SwitchPlan where
  drain : StopPlan
  spawn : SpawnPlan
  probation : Step
  probationCleanup : StopPlan
  stopRequested : Bool
  restore : RestorePlan
  deriving DecidableEq

def rollbackFailedProbation (plan : SwitchPlan) (child : Child) (previousConfig : Option HostConfig)
    (previousTarget : Option RuntimeLiveSourceSpec) : Act Unit := do
  Action.handle (stopChild settings plan.probationCleanup child) fun _ => do
    setDesiredRunning false
    Action.raise (.exception "runtime candidate failed probation and containment could not be proven")
  releaseChild child.launchNonce
  match previousConfig, previousTarget with
  | some config, some target => do
    selectTarget target
    beginSelection config target
    setStatus .rollingBack
    let restored ← Action.handle (spawnTarget settings plan.restore.spawn config target) fun _ => do
      setDesiredRunning false
      failUnlessRecovery "runtime candidate failed probation and exact rollback failed"
      let s ← Action.read
      Action.raise (.exception (s.error.getD ""))
    adoptChild restored
  | _, _ => do
    setDesiredRunning false
    setFailure .failed "runtime candidate failed probation"
    Action.raise (.exception "runtime candidate failed probation")

def adoptReplacementCandidate (plan : SwitchPlan) (child : Child) (previousConfig : Option HostConfig)
    (previousTarget : Option RuntimeLiveSourceSpec) : Act Unit := do
  adoptChild child
  if !settings.probation then pure ()
  else do
    setStatus .probation
    match plan.probation with
    | .returns => setStatus .ready
    | .cancelled => do
      stopChild settings plan.probationCleanup child
      releaseChild child.launchNonce
      restoreAfterCancellation settings plan.stopRequested plan.restore previousConfig previousTarget
      Action.raise .cancelled
    | .raises _ => do
      rollbackFailedProbation settings plan child previousConfig previousTarget
      Action.raise (.exception
        "runtime candidate failed probation; the exact previous runtime was restored")

/-- The `except Exception` branch that the replacements share: the previous runtime is launched
again, and the failure is raised. The status is overwritten when that fails too. -/
def restoreAfterFailure (plan : SwitchPlan) (message : String) (config : HostConfig)
    (target : RuntimeLiveSourceSpec) (error : RuntimeError) : Act Unit := do
  selectTarget target
  beginSelection config target
  setStatus .rollingBack
  let (restored, cancelled) ← Action.handle (awaitFailureRestoration settings plan.restore config target) fun
    | .cancelled => Action.raise .cancelled
    | _ => do
      setDesiredRunning false
      setFailure .failed message
      Action.raise (.exception message)
  adoptChild restored
  if cancelled then Action.raise .cancelled else Action.raise error

def requireLaunchSafe (s : Supervisor) : Except RuntimeError Unit :=
  if s.status = .recoveryRequired then
    .error (.exception "runtime recovery is required before another child can be launched")
  else .ok ()

def selectedTarget (s : Supervisor) : Except RuntimeError RuntimeLiveSourceSpec :=
  match s.selectedLiveSource with
  | some source => .ok source
  | none => .error (.exception "no runtime live source is selected")

def currentTarget (s : Supervisor) : Except RuntimeError RuntimeLiveSourceSpec :=
  match s.child, s.desiredTarget with
  | some child, _ => .ok child.liveSource
  | none, some target => .ok target
  | none, none => selectedTarget s

def currentConfig (s : Supervisor) : Except RuntimeError HostConfig :=
  match s.child, s.desiredConfig with
  | some child, _ => .ok child.config
  | none, some config => .ok config
  | none, none => .error (.exception "runtime is not configured")

def awaitStep (step : Step) : Act Unit :=
  match step with
  | .returns => pure ()
  | .raises message => Action.raise (.exception message)
  | .cancelled => Action.raise .cancelled

inductive Fencing where
  | unavailable (message : String)
  | ambiguous (message : String)
  | cancelled
  | fenced
  deriving DecidableEq

structure OwnershipPlan where
  ownerLock : Bool
  readable : Bool
  fencing : Fencing
  clearRecord : FileStep
  clearIntent : FileStep
  deriving DecidableEq

/-- A child recorded by an earlier controller is fenced once, before the first launch. -/
def ensureOrphanFenced (plan : OwnershipPlan) : Act Unit := do
  let s ← Action.read
  if s.ownershipChecked then pure ()
  else if !plan.readable then do
    setStatus .recoveryRequired
    Action.raise (.exception "runtime ownership record is invalid")
  else
    match s.intent, s.control with
    | none, none => Action.modify fun s => { s with ownershipChecked := true }
    | some _, none => do
      setStatus .recoveryRequired
      Action.raise (.exception "an incomplete runtime launch intent requires manual recovery")
    | intent, some record =>
      if intent.any (· != record) then do
        setStatus .recoveryRequired
        Action.raise (.exception "runtime launch intent and ownership record disagree")
      else
        match plan.fencing with
        | .unavailable message => Action.raise (.exception message)
        | .cancelled => Action.raise .cancelled
        | .ambiguous message => do
          setStatus .recoveryRequired
          Action.raise (.exception message)
        | .fenced => do
          removeOwnershipRecord plan.clearRecord record
          removeLaunchIntent plan.clearIntent record
          Action.modify fun s => { s with ownershipChecked := true }

def ensureControllerOwnership (plan : OwnershipPlan) : Act Unit :=
  if !plan.ownerLock then Action.raise (.exception "another runtime controller owns this child slot")
  else ensureOrphanFenced plan

/-- The head that the launching operations share. -/
def prepareLaunch (plan : OwnershipPlan) : Act Unit := do
  ensureControllerOwnership plan
  Action.lift requireLaunchSafe

def replaceConfigLocked (plan : SwitchPlan) (config : HostConfig) (rollback : Option HostConfig)
    (target : RuntimeLiveSourceSpec) (probation : Bool) : Act Unit := do
  let s ← Action.read
  let previousConfig := (s.child.map Child.config).or s.desiredConfig
  let previousTarget := (s.child.map Child.liveSource).or s.desiredTarget
  if rollback.isSome && rollback != previousConfig then
    Action.raise (.exception "rollback configuration does not match the captured previous configuration")
  else
    match s.child with
    | none => pure ()
    | some previous => do
      drainChildForReplacement settings plan.drain previous
      setChild none
    beginSelection config target
    let launched ← Action.attempt (spawnTarget settings plan.spawn config target)
    match launched with
    | .error .cancelled => do
      restoreAfterCancellation settings plan.stopRequested plan.restore previousConfig previousTarget
      Action.raise .cancelled
    | .error error => do
      let s ← Action.read
      match previousConfig, previousTarget, s.status == .recoveryRequired with
      | some previousConfig, some previousTarget, false =>
        restoreAfterFailure settings plan "candidate and rollback runtimes failed to start" previousConfig
          previousTarget error
      | _, _, _ => do
        setDesiredRunning false
        Action.raise error
    | .ok candidate =>
      if probation then adoptReplacementCandidate settings plan candidate previousConfig previousTarget
      else adoptChild candidate

def replaceTargetLocked (plan : SwitchPlan) (preflight : Step) (config : HostConfig)
    (candidate previous : RuntimeLiveSourceSpec) : Act Unit := do
  awaitStep preflight
  let s ← Action.read
  let previousConfig := (s.child.map Child.config).getD config
  match s.child with
  | none => pure ()
  | some oldChild => do
    drainChildForReplacement settings plan.drain oldChild
    setChild none
  selectTarget candidate
  beginSelection config candidate
  let launched ← Action.attempt (spawnTarget settings plan.spawn config candidate)
  match launched with
  | .error .cancelled => do
    restoreAfterCancellation settings plan.stopRequested plan.restore (some previousConfig) (some previous)
    Action.raise .cancelled
  | .error error => do
    let s ← Action.read
    if s.status = .recoveryRequired then do
      setDesiredRunning false
      Action.raise error
    else
      restoreAfterFailure settings plan "candidate and exact rollback target failed to start" previousConfig
        previous error
  | .ok child => adoptReplacementCandidate settings plan child (some previousConfig) (some previous)

structure ReplacePlan where
  ownership : OwnershipPlan
  preflight : Step
  switch : SwitchPlan
  deriving DecidableEq

def replace (plan : ReplacePlan) (config : HostConfig) (rollback : Option HostConfig) : Act Unit := do
  prepareLaunch plan.ownership
  let target ← Action.lift currentTarget
  awaitStep plan.preflight
  replaceConfigLocked settings plan.switch config rollback target true

def replaceLiveSource (plan : ReplacePlan) (liveSource : RuntimeLiveSourceSpec)
    (rollback : Option RuntimeLiveSourceSpec) : Act Unit := do
  prepareLaunch plan.ownership
  let config ← Action.lift currentConfig
  let previousTarget ← Action.lift currentTarget
  if rollback.any (· != previousTarget) then
    Action.raise (.exception "rollback source commit does not match the captured previous target")
  else replaceTargetLocked settings plan.switch plan.preflight config liveSource previousTarget

def restartCurrent (plan : ReplacePlan) : Act Unit := do
  prepareLaunch plan.ownership
  let config ← Action.lift currentConfig
  let target ← Action.lift currentTarget
  awaitStep plan.preflight
  replaceConfigLocked settings plan.switch config (some config) target false

end Supervisor

end OpenTulpa.Host.RuntimeSupervisor
