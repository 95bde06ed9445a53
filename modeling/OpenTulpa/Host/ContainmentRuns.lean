import OpenTulpa.Host.ContainedOperations

/-! Containment over whole runs of the supervisor: its operations and the rounds of its watcher
in any order, each with any plan. -/

namespace OpenTulpa.Host.ContainmentRuns

open Library RuntimeSupervisor Launching Lifecycle Containment ContainedOperations

/-- What the supervisor does between two releases of its lock. -/
inductive Op where
  | setLiveSource (liveSource : RuntimeLiveSourceSpec)
  | start (plan : StartPlan) (config : HostConfig)
  | replace (plan : ReplacePlan) (config : HostConfig) (rollback : Option HostConfig)
  | replaceLiveSource (plan : ReplacePlan) (liveSource : RuntimeLiveSourceSpec)
      (rollback : Option RuntimeLiveSourceSpec)
  | restartCurrent (plan : ReplacePlan)
  | replaceCurrentEnvironment (plan : EnvironmentPlan)
  | stop (plan : HaltPlan)
  | watchChildExit (plan : ExitPlan)
  | wakeWatcher (plan : WakePlan)
  | reportWatcherFailure (launchNonce : Nat)
  deriving DecidableEq

section Runs

variable (settings : Settings)

def Op.action : Op → Act Unit
  | .setLiveSource liveSource => Lifecycle.setLiveSource liveSource
  | .start plan config => Lifecycle.start settings plan config
  | .replace plan config rollback => RuntimeSupervisor.replace settings plan config rollback
  | .replaceLiveSource plan liveSource rollback => RuntimeSupervisor.replaceLiveSource settings plan liveSource rollback
  | .restartCurrent plan => RuntimeSupervisor.restartCurrent settings plan
  | .replaceCurrentEnvironment plan => Lifecycle.replaceCurrentEnvironment settings plan
  | .stop plan => Lifecycle.stop settings plan
  | .watchChildExit plan => Lifecycle.watchChildExit plan
  | .wakeWatcher plan => Lifecycle.wakeWatcher settings plan
  | .reportWatcherFailure launchNonce => Lifecycle.reportWatcherFailure launchNonce

def step (s : Supervisor) (op : Op) : Supervisor := ((op.action settings).run s).2

/-- The operation reaches none of the handlers that give up a process without recovery. -/
def Op.Safe (s : Supervisor) : Op → Prop
  | .setLiveSource _ => True
  | .start plan _ => StartSafe settings plan
  | .replace plan _ _ => SwitchSafe settings plan.switch
  | .replaceLiveSource plan _ _ => SwitchSafe settings plan.switch
  | .restartCurrent plan => SwitchSafe settings plan.switch
  | .replaceCurrentEnvironment plan => EnvironmentSafe settings plan.switch s.child
  | .stop _ => True
  | .watchChildExit _ => True
  | .wakeWatcher plan => Unabandoned settings plan.spawn
  | .reportWatcherFailure _ => True

/-- A supervisor before its first operation, over the control files that an earlier one left. -/
def initial (selected : Option RuntimeLiveSourceSpec) (control intent : Option Nat) (nextNonce : Nat) : Supervisor where
  child := none
  status := .stopped
  error := none
  selectedLiveSource := selected
  selectionVersion := 0
  desiredRunning := false
  desiredConfig := none
  desiredTarget := none
  unexpectedRestarts := 0
  ownershipChecked := false
  control := control
  intent := intent
  watcher := none
  failing := []
  nextNonce := nextNonce
  unproven := []
  launches := []

theorem initial_contained (selected : Option RuntimeLiveSourceSpec) (control intent : Option Nat) (nextNonce : Nat) :
    Contained (initial selected control intent nextNonce) :=
  .of_idle rfl (fun _ member => by cases member) (fun waits => by cases waits) fun _ waits => by cases waits

theorem step_contained {s : Supervisor} {op : Op} (contained : Contained s) (safe : op.Safe settings s) :
    Contained (step settings s op) := by
  cases op with
  | setLiveSource liveSource => exact setLiveSource_contained contained
  | start plan config => exact start_contained contained safe
  | replace plan config rollback => exact replace_contained contained safe
  | replaceLiveSource plan liveSource rollback => exact replaceLiveSource_contained contained safe
  | restartCurrent plan => exact restartCurrent_contained contained safe
  | replaceCurrentEnvironment plan => exact replaceCurrentEnvironment_contained contained safe
  | stop plan => exact stop_contained contained
  | watchChildExit plan => exact watchChildExit_contained contained
  | wakeWatcher plan => exact wakeWatcher_contained contained safe
  | reportWatcherFailure launchNonce => exact reportWatcherFailure_contained contained

/-- In a run of safe operations no process is created while an earlier one may still run. -/
theorem launches_after_proof (selected : Option RuntimeLiveSourceSpec) (control intent : Option Nat)
    (nextNonce : Nat) (ops : List Op)
    (safe : Run.Guarded (step settings) (fun s op => op.Safe settings s) (initial selected control intent nextNonce) ops) :
    Clean (Run.exec (step settings) (initial selected control intent nextNonce) ops).launches :=
  (safe.invariant (fun _ _ contained safe => step_contained settings contained safe)
    (initial_contained selected control intent nextNonce)).clean

end Runs

section Samples

def sampleSettings : Settings where
  strictRuntimeReadiness := false
  probation := true
  maxUnexpectedRestarts := 3
  recovery := false
  safeError := id

def sampleConfig : HostConfig where
  revision := 1
  status := .active
  apiKey := "key"
  baseUrl := "https://api"
  model := "model"
  telegramBotToken := none
  telegramUserId := none
  internalRuntimeToken := "token"
  telegramPairingCode := none
  createdAt := 0
  error := none

def sampleStop : StopPlan := ⟨true, .returns, .done, .done⟩

def readyAttempt : AttemptPlan := ⟨true, true, .returns, .done, .returns, .done, true, .done, .done, .ready, sampleStop⟩

/-- The process cannot be created. -/
def uncreatedAttempt : AttemptPlan := { readyAttempt with create := .raises "no process" }

/-- The process never becomes ready, and its descendants cannot be enumerated. -/
def lostAttempt : AttemptPlan :=
  { readyAttempt with readiness := .raises "not ready", cleanup := { sampleStop with enumerated := false } }

def sampleOwnership : OwnershipPlan := ⟨true, true, .fenced, .done, .done⟩

def sampleFinish : FinishPlan := ⟨.returns, false, sampleStop⟩

def sampleStart : StartPlan where
  ownership := sampleOwnership
  preflight := .returns
  preflightRecovery := .nothing
  drain := sampleStop
  spawn := ⟨readyAttempt, readyAttempt⟩
  stopRequested := false
  restore := ⟨⟨readyAttempt, readyAttempt⟩, .none⟩
  recovery := .nothing
  fallback := ⟨readyAttempt, readyAttempt⟩
  finish := sampleFinish

/-- A replacement whose candidate cannot be created, with the attempt to restore. -/
def failingSwitch (restored : AttemptPlan) : ReplacePlan where
  ownership := sampleOwnership
  preflight := .returns
  switch :=
    { drain := sampleStop
      spawn := ⟨uncreatedAttempt, uncreatedAttempt⟩
      probation := .returns
      probationCleanup := sampleStop
      stopRequested := false
      restore := ⟨⟨restored, restored⟩, .none⟩ }

/-- A start, a failed replacement, and another start. -/
def sampleRun (restored : AttemptPlan) : List Op :=
  [.start sampleStart sampleConfig, .replaceLiveSource (failingSwitch restored) ⟨"b", none, none, none, none, none⟩ none,
    .start sampleStart sampleConfig]

def sampleInitial : Supervisor := initial (some ⟨"a", none, none, none, none, none⟩) none none 0

theorem sampleStart_safe : StartSafe sampleSettings sampleStart where
  candidate := .of_terminated (by decide) (by decide)
  restoration := fun _ => .of_terminated (by decide) (by decide)
  fallback := fun _ => .of_terminated (by decide) (by decide)

theorem failingSwitch_safe : SwitchSafe sampleSettings (failingSwitch readyAttempt).switch where
  candidate := .of_terminated (by decide) (by decide)
  restoration := fun _ => .of_terminated (by decide) (by decide)
  found := by
    rintro attempt _ _ _ restored (⟨_, _, rfl⟩ | ⟨_, rfl⟩) ⟨_, _, blind⟩
    · exact absurd blind (by decide)
    · exact absurd blind (by decide)

theorem launches_after_proof_sample :
    Run.Guarded (step sampleSettings) (fun s op => op.Safe sampleSettings s) sampleInitial (sampleRun readyAttempt) ∧
      Clean (Run.exec (step sampleSettings) sampleInitial (sampleRun readyAttempt)).launches :=
  ⟨⟨sampleStart_safe, failingSwitch_safe, sampleStart_safe, trivial⟩,
    launches_after_proof sampleSettings (some ⟨"a", none, none, none, none, none⟩) none none 0
      (sampleRun readyAttempt) ⟨sampleStart_safe, failingSwitch_safe, sampleStart_safe, trivial⟩⟩

/-- The restored child is lost, the status is overwritten, and the next start launches beside it. -/
theorem lost_restoration_is_overtaken :
    ¬ Clean (Run.exec (step sampleSettings) sampleInitial (sampleRun lostAttempt)).launches := by
  unfold Clean
  decide +kernel

end Samples

end OpenTulpa.Host.ContainmentRuns
