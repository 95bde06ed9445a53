import OpenTulpa.Host.RuntimeSupervisor

/-! The lifecycle of the supervisor over time: starting with the recovery of a failed source,
the update of the environment, stopping, and the watcher that restarts a child after an
unexpected exit. The lock serialises them; the watcher takes it anew for each of its rounds. -/

namespace OpenTulpa.Host.Lifecycle

open Library RuntimeSupervisor

/-- What the recovery source answers, the preflight of its candidate included. -/
inductive RecoveryAnswer where
  | nothing
  | candidate (liveSource : RuntimeLiveSourceSpec)
  | cancelled
  deriving DecidableEq

/-- The reconciliation of the journal, the cancellations that arrive meanwhile, and the stop of
the child when it fails. -/
structure FinishPlan where
  reconcile : Step
  cancelled : Bool
  cleanup : StopPlan
  deriving DecidableEq

section Lifecycle

variable (settings : Settings)

def recoveryTarget (answer : RecoveryAnswer) (failed : RuntimeLiveSourceSpec) :
    Act (Option RuntimeLiveSourceSpec) := do
  let s ← Action.read
  if !settings.recovery || s.status == .recoveryRequired then return none
  else
    match answer with
    | .nothing => return none
    | .cancelled => Action.raise .cancelled
    | .candidate liveSource =>
      if liveSource.sourceCommit = failed.sourceCommit then return none else return some liveSource

/-- The `except BaseException` branch of `_finish_recovery`. -/
def abandonRecovery (plan : StopPlan) (failed : RuntimeLiveSourceSpec) (child : Child) (error : RuntimeError) :
    Act Unit := do
  setDesiredRunning false
  Action.handle (stopChild settings plan child) fun _ => do
    setFailure .recoveryRequired "runtime recovery journal and child containment disagree"
    Action.raise (.exception "runtime recovery journal and child containment disagree")
  selectTarget failed
  Action.modify fun s => { s with desiredTarget := some failed }
  match error with
  | .cancelled => Action.raise .cancelled
  | _ => do
    setFailure .failed "runtime recovery journal reconciliation failed"
    Action.raise (.exception "runtime recovery journal reconciliation failed")

def finishRecovery (plan : FinishPlan) (failed selected : RuntimeLiveSourceSpec) (child : Child) : Act Unit := do
  match plan.reconcile with
  | .cancelled => abandonRecovery settings plan.cleanup failed child .cancelled
  | .raises message => abandonRecovery settings plan.cleanup failed child (.exception message)
  | .returns => do
    selectTarget selected
    adoptChild child
    if plan.cancelled then Action.raise .cancelled else pure ()

structure StartPlan where
  ownership : OwnershipPlan
  preflight : Step
  preflightRecovery : RecoveryAnswer
  drain : StopPlan
  spawn : SpawnPlan
  stopRequested : Bool
  restore : RestorePlan
  recovery : RecoveryAnswer
  fallback : SpawnPlan
  finish : FinishPlan
  deriving DecidableEq

/-- The target to launch and the one it stands in for, if the selected one fails its preflight. -/
def startTarget (plan : StartPlan) (target : RuntimeLiveSourceSpec) :
    Act (RuntimeLiveSourceSpec × Option RuntimeLiveSourceSpec) := do
  let checked ← Action.attempt (awaitStep plan.preflight)
  match checked with
  | .ok _ => return (target, none)
  | .error .cancelled => Action.raise .cancelled
  | .error error => do
    let fallback ← recoveryTarget settings plan.preflightRecovery target
    match fallback with
    | some fallback => return (fallback, some target)
    | none => do
      Action.modify fun s =>
        { s with
          error := some (settings.safeError error.message)
          status := if s.child.isNone then .failed else s.status }
      Action.raise error

/-- The launch of `start` after an exception: the recorded previous source, unless the launch
already was that. -/
def startFallback (plan : StartPlan) (config : HostConfig) (target : RuntimeLiveSourceSpec)
    (recoveredFrom : Option RuntimeLiveSourceSpec) (error : RuntimeError) : Act Unit :=
  match recoveredFrom with
  | some _ => do
    setDesiredRunning false
    Action.raise error
  | none => do
    let fallback ← recoveryTarget settings plan.recovery target
    match fallback with
    | none => do
      setDesiredRunning false
      Action.raise error
    | some fallback => do
      beginSelection config fallback
      let child ← Action.handle (spawnTarget settings plan.fallback config fallback) fun
        | .cancelled => Action.raise .cancelled
        | error => do
          setDesiredRunning false
          Action.raise error
      finishRecovery settings plan.finish target fallback child

def start (plan : StartPlan) (config : HostConfig) : Act Unit := do
  prepareLaunch plan.ownership
  let selected ← Action.lift selectedTarget
  let s ← Action.read
  let (target, recoveredFrom) ← startTarget settings plan selected
  match s.child with
  | none => pure ()
  | some previous => do
    drainChildForReplacement settings plan.drain previous
    setChild none
  beginSelection config target
  let launched ← Action.attempt (spawnTarget settings plan.spawn config target)
  match launched with
  | .error .cancelled => do
    restoreAfterCancellation settings plan.stopRequested plan.restore (s.child.map Child.config)
      (s.child.map Child.liveSource)
    Action.raise .cancelled
  | .error error => startFallback settings plan config target recoveredFrom error
  | .ok child =>
    match recoveredFrom with
    | some failed => finishRecovery settings plan.finish failed target child
    | none => adoptChild child

structure EnvironmentPlan where
  ownership : OwnershipPlan
  apply : Step
  preflight : Step
  switch : SwitchPlan
  deriving DecidableEq

/-- The drain and the launch that `replace_current_environment` guards together. -/
def relaunch (plan : SwitchPlan) (previous : Option Child) (config : HostConfig)
    (target : RuntimeLiveSourceSpec) : Act Child := do
  match previous with
  | none => pure ()
  | some previous => do
    drainChildForReplacement settings plan.drain previous
    setChild none
  beginSelection config target
  spawnTarget settings plan.spawn config target

def replaceCurrentEnvironment (plan : EnvironmentPlan) : Act Unit := do
  prepareLaunch plan.ownership
  let config ← Action.lift currentConfig
  let target ← Action.lift currentTarget
  let s ← Action.read
  let previousConfig := (s.child.map Child.config).or s.desiredConfig
  let previousTarget := (s.child.map Child.liveSource).or s.desiredTarget
  awaitStep plan.apply
  awaitStep plan.preflight
  let launched ← Action.attempt (relaunch settings plan.switch s.child config target)
  match launched with
  | .error .cancelled => do
    restoreAfterCancellation settings plan.switch.stopRequested plan.switch.restore previousConfig previousTarget
    Action.raise .cancelled
  | .error (.containmentPreflight message) => Action.raise (.containmentPreflight message)
  | .error error => do
    let s ← Action.read
    match previousConfig, previousTarget, s.status == .recoveryRequired with
    | some previousConfig, some previousTarget, false =>
      restoreAfterFailure settings plan.switch "environment update and rollback runtime failed to start"
        previousConfig previousTarget error
    | _, _, _ => do
      setDesiredRunning false
      Action.raise error
  | .ok candidate => adoptChild candidate

/-- The end of a lifecycle task that `stop` cancelled and that raised something else, and the
stop of the child. -/
structure HaltPlan where
  taskFailure : Option String
  stop : StopPlan
  deriving DecidableEq

def stop (plan : HaltPlan) : Act Unit := do
  Action.modify fun s => { s with watcher := none }
  match plan.taskFailure with
  | some message => do
    setFailure .recoveryRequired (settings.safeError message)
    Action.raise (.exception (settings.safeError message))
  | none => do
    Action.modify fun s => { s with selectionVersion := s.selectionVersion + 1, desiredRunning := false }
    let s ← Action.read
    match s.child with
    | none =>
      if s.control.isSome || s.intent.isSome then do
        let error := s.error.getD "runtime ownership remains unresolved"
        setFailure .recoveryRequired error
        Action.raise (.exception error)
      else setStatus .stopped
    | some child => do
      setStatus .stopping
      stopChild settings plan.stop child
      setChild none
    Action.modify fun s => { s with
      status := .stopped
      error := none
      desiredConfig := none
      desiredTarget := none
      unexpectedRestarts := 0 }

def setLiveSource (liveSource : RuntimeLiveSourceSpec) : Act Unit := do
  let s ← Action.read
  if s.child.isSome || s.desiredRunning || s.watcher.isSome ||
      !(s.status == .stopped || s.status == .failed) then
    Action.raise (.exception "cannot change live source while runtime is running")
  else
    Action.modify fun s => { s with
      selectedLiveSource := some liveSource
      desiredConfig := none
      desiredTarget := none
      unexpectedRestarts := 0 }

structure ExitPlan where
  code : Int
  terminated : Step
  clearRecord : FileStep
  clearIntent : FileStep
  deriving DecidableEq

def endWatcher : Act Unit := Action.modify fun s => { s with watcher := none }

/-- `_watch_child_exit` up to the release of the lock, for the child it waited for. -/
def watchChildExit (plan : ExitPlan) : Act Unit := do
  let s ← Action.read
  match s.watcher, s.child with
  | some (.waiting launchNonce), some child => do
    endWatcher
    if child.requestedStop || child.launchNonce != launchNonce then pure ()
    else do
      setStatus .fencing
      match plan.terminated with
      | .cancelled => Action.raise .cancelled
      | .raises _ => do
        setFailure .recoveryRequired "runtime descendants could not be fenced after leader exit"
        setDesiredRunning false
      | .returns => do
        recordProof launchNonce
        Action.handle
          (do
            removeOwnershipRecord plan.clearRecord launchNonce
            removeLaunchIntent plan.clearIntent launchNonce)
          fun error => do
            Action.modify fun s => { s with failing := s.failing ++ [launchNonce] }
            Action.raise error
        Action.modify fun s => { s with
          error := some ("runtime exited unexpectedly with code " ++ toString plan.code)
          child := none
          status := if s.desiredRunning then .restarting else .failed
          watcher :=
            if s.desiredRunning then some (.restarting ⟨s.selectionVersion, child.config, child.liveSource⟩)
            else none }
  | some (.waiting _), none => endWatcher
  | _, _ => pure ()

/-- The last handler of the watcher, once it has the lock again. -/
def reportWatcherFailure (launchNonce : Nat) : Act Unit := do
  let s ← Action.read
  if s.failing.contains launchNonce then do
    Action.modify fun s => { s with failing := s.failing.erase launchNonce }
    if s.child.any fun child => child.launchNonce == launchNonce then do
      setDesiredRunning false
      setFailure .recoveryRequired "runtime exit watcher could not prove containment"
    else pure ()
  else pure ()

structure WakePlan where
  spawn : SpawnPlan
  recovery : RecoveryAnswer
  finish : FinishPlan
  deriving DecidableEq

/-- One iteration of the restart loop. -/
def restartOnce (plan : WakePlan) (restart : Restart) (attempt : Nat) : Act Unit := do
  Action.modify fun s => { s with unexpectedRestarts := attempt, status := .restarting }
  let launched ← Action.attempt (spawnTarget settings plan.spawn restart.config restart.target)
  match launched with
  | .ok replacement => adoptChild replacement
  | .error .cancelled => do
    endWatcher
    Action.raise .cancelled
  | .error _ => do
    let s ← Action.read
    if s.status = .recoveryRequired then do
      setDesiredRunning false
      endWatcher
    else if settings.maxUnexpectedRestarts ≤ attempt then pure ()
    else setStatus .restarting

/-- The launch of the recorded previous source once the restarts are exhausted. -/
def restartFallback (plan : WakePlan) (restart : Restart) : Act Unit := do
  let fallback ← recoveryTarget settings plan.recovery restart.target
  match fallback with
  | none => do
    setDesiredRunning false
    setFailure .failed "runtime exhausted its unexpected-exit restart budget"
  | some fallback => do
    beginSelection restart.config fallback
    Action.handle
      (do
        let replacement ← spawnTarget settings plan.spawn restart.config fallback
        finishRecovery settings plan.finish restart.target fallback replacement)
      fun
      | .cancelled => Action.raise .cancelled
      | _ => do
        setDesiredRunning false
        failUnlessRecovery "runtime fallback source failed operational checks"

/-- The watcher wakes from its delay and takes the lock. -/
def wakeWatcher (plan : WakePlan) : Act Unit := do
  let s ← Action.read
  match s.watcher with
  | some (.restarting restart) =>
    if s.selectionVersion ≠ restart.version ∨ s.desiredRunning = false ∨ s.child.isSome then endWatcher
    else if s.unexpectedRestarts < settings.maxUnexpectedRestarts then
      restartOnce settings plan restart (s.unexpectedRestarts + 1)
    else do
      endWatcher
      restartFallback settings plan restart
  | _ => pure ()

end Lifecycle

end OpenTulpa.Host.Lifecycle
