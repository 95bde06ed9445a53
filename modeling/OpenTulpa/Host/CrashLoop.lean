import OpenTulpa.Host.Journal
import OpenTulpa.Host.Launching
import OpenTulpa.Host.Lifecycle
import OpenTulpa.Library.Run

/-! The watchers of a supervisor whose recovery source is the activation journal, while nobody
else uses either. A child that exits is launched again until the restarts are used up, then the
previous release is, and completing that recovery leaves the journal without another one. -/

namespace OpenTulpa.Host.CrashLoop

open Library RuntimeSupervisor Launching Lifecycle Journal

/-- `spawns` counts the calls of `_spawn_target`. -/
structure Controller where
  supervisor : Supervisor
  journal : ActivationJournal
  spawns : Nat

abbrev HostAct := Action Controller RuntimeError

def onSupervisor {α : Type} (action : Act α) : HostAct α :=
  Action.zoom Controller.supervisor (fun supervisor host => { host with supervisor := supervisor }) action

def countSpawn : HostAct Unit := Action.modify fun host => { host with spawns := host.spawns + 1 }

/-- Where the journal raises while a recovery is completed. -/
inductive ReconcileFault where
  | failedRelease
  | selectedRelease
  | completing
  | completed
  deriving DecidableEq

/-- One round of a watcher. `read` says that the candidate could be read, `prepared` is the
environment prepared for it. -/
structure WakeUp where
  spawn : SpawnPlan
  read : Bool
  prepared : Option RuntimeLiveSourceSpec
  preflight : Bool
  fault : Option ReconcileFault
  cleanup : StopPlan
  now : Nat
  deriving DecidableEq

/-- `_recovery_source`, and the preflight of what it answers. -/
def recoverySource (journal : ActivationJournal) (plan : WakeUp) (failed : RuntimeLiveSourceSpec) : RecoveryAnswer :=
  if !plan.read then .nothing
  else
    match recoveryCandidate journal failed.sourceCommit false, plan.prepared with
    | .ok (some candidate), some spec =>
      if plan.preflight then .candidate { spec with sourceCommit := candidate.sourceCommit } else .nothing
    | _, _ => .nothing

/-- `_complete_recovery`; the releases it creates stay when a later part of it raises. -/
def completeSourceRecovery (journal : ActivationJournal) (plan : WakeUp) (failed selected : RuntimeLiveSourceSpec) :
    Step × ActivationJournal :=
  if plan.fault = some .failedRelease then (.raises "database is locked", journal)
  else
    match releaseForCommit journal failed.sourceCommit plan.now with
    | .error error => (.raises error.message, journal)
    | .ok (known, failedRelease) =>
      if plan.fault = some .selectedRelease then (.raises "database is locked", known)
      else
        match releaseForCommit known selected.sourceCommit plan.now with
        | .error error => (.raises error.message, known)
        | .ok (both, selectedRelease) =>
          if plan.fault = some .completing then (.raises "database is locked", both)
          else
            match completeRecovery both failedRelease.id selectedRelease.id false plan.now with
            | .error error => (.raises error.message, both)
            | .ok recovered =>
              if plan.fault = some .completed then (.raises "database is locked", recovered)
              else (.returns, recovered)

def reconcile (plan : WakeUp) (failed selected : RuntimeLiveSourceSpec) : HostAct Step := fun host =>
  (.ok (completeSourceRecovery host.journal plan failed selected).1,
    { host with journal := (completeSourceRecovery host.journal plan failed selected).2 })

@[simp] theorem run_reconcile (plan : WakeUp) (failed selected : RuntimeLiveSourceSpec) (host : Controller) :
    (reconcile plan failed selected).run host =
      (.ok (completeSourceRecovery host.journal plan failed selected).1,
        { host with journal := (completeSourceRecovery host.journal plan failed selected).2 }) := rfl

section Watch

variable (settings : Settings)

/-- The rest of the watcher's round when the restarts are used up. -/
def fallBack (plan : WakeUp) (restart : Restart) : HostAct Unit := do
  let host ← Action.read
  let fallback ← onSupervisor
    (recoveryTarget settings (recoverySource host.journal plan restart.target) restart.target)
  match fallback with
  | none => onSupervisor do
    setDesiredRunning false
    setFailure .failed "runtime exhausted its unexpected-exit restart budget"
  | some fallback => do
    onSupervisor (beginSelection restart.config fallback)
    Action.handle
      (do
        countSpawn
        let replacement ← onSupervisor (spawnTarget settings plan.spawn restart.config fallback)
        let reconciled ← reconcile plan restart.target fallback
        onSupervisor
          (finishRecovery settings ⟨reconciled, false, plan.cleanup⟩ restart.target fallback replacement))
      fun
      | .cancelled => Action.raise .cancelled
      | _ => onSupervisor do
        setDesiredRunning false
        failUnlessRecovery "runtime fallback source failed operational checks"

def wake (plan : WakeUp) : HostAct Unit := do
  let host ← Action.read
  match host.supervisor.watcher with
  | some (.restarting restart) =>
    if host.supervisor.selectionVersion ≠ restart.version ∨ host.supervisor.desiredRunning = false ∨
        host.supervisor.child.isSome then onSupervisor endWatcher
    else if host.supervisor.unexpectedRestarts < settings.maxUnexpectedRestarts then do
      countSpawn
      onSupervisor (restartOnce settings ⟨plan.spawn, .nothing, ⟨.returns, false, plan.cleanup⟩⟩ restart
        (host.supervisor.unexpectedRestarts + 1))
    else do
      onSupervisor endWatcher
      fallBack settings plan restart
  | _ => pure ()

inductive Op where
  | watchChildExit (plan : ExitPlan)
  | wake (plan : WakeUp)
  | reportWatcherFailure (launchNonce : Nat)
  deriving DecidableEq

def Op.action : Op → HostAct Unit
  | .watchChildExit plan => onSupervisor (Lifecycle.watchChildExit plan)
  | .wake plan => CrashLoop.wake settings plan
  | .reportWatcherFailure launchNonce => onSupervisor (Lifecycle.reportWatcherFailure launchNonce)

def step (host : Controller) (op : Op) : Controller := ((op.action settings).run host).2

/-- The round of the supervisor's own watcher that a round here is. -/
def WakeUp.lifecycle (plan : WakeUp) (host : Controller) : WakePlan :=
  match host.supervisor.watcher with
  | some (.restarting restart) =>
    let answer := recoverySource host.journal plan restart.target
    let selected := match answer with
      | .candidate liveSource => liveSource
      | _ => restart.target
    ⟨plan.spawn, answer,
      ⟨(completeSourceRecovery host.journal plan restart.target selected).1, false, plan.cleanup⟩⟩
  | _ => ⟨plan.spawn, .nothing, ⟨.returns, false, plan.cleanup⟩⟩

/-- The fallback, once the recovery source has answered. -/
theorem fallBack_simulates (plan : WakeUp) (restart : Restart) (host : Controller) (answer : RecoveryAnswer)
    (selected : RuntimeLiveSourceSpec) (answered : recoverySource host.journal plan restart.target = answer)
    (known : ∀ liveSource, answer = .candidate liveSource → selected = liveSource) :
    ((fallBack settings plan restart).run host).2.supervisor =
      ((restartFallback settings ⟨plan.spawn, answer,
        ⟨(completeSourceRecovery host.journal plan restart.target selected).1, false, plan.cleanup⟩⟩ restart).run
          host.supervisor).2 := by
  unfold fallBack restartFallback recoveryTarget onSupervisor
  simp only [Action.run_bind, Action.run_read, Action.run_zoom, answered]
  by_cases idle : (!settings.recovery || host.supervisor.status == .recoveryRequired) = true
  · simp only [idle, if_true]
    rfl
  · simp only [idle, Bool.false_eq_true, if_false]
    cases answer with
    | nothing => rfl
    | cancelled => rfl
    | candidate liveSource =>
      obtain rfl := known liveSource rfl
      by_cases same : selected.sourceCommit = restart.target.sourceCommit
      · simp only [same, if_true]
        rfl
      · simp only [same, if_false, Action.run_pure, Action.run_bind, Action.run_handle, Action.run_zoom]
        simp only [countSpawn, beginSelection, Action.run_modify]
        generalize Action.run (spawnTarget settings plan.spawn restart.config selected) _ = launched
        obtain ⟨outcome, after⟩ := launched
        cases outcome with
        | error error => cases error <;> rfl
        | ok child =>
          simp only [run_reconcile]
          generalize Action.run (finishRecovery settings _ restart.target selected child) after = finished
          obtain ⟨outcome, final⟩ := finished
          cases outcome with
          | error error => cases error <;> rfl
          | ok value => rfl

/-- A round here is a round of the supervisor's watcher, with what the journal answers in its plan. -/
theorem wake_simulates (plan : WakeUp) (host : Controller) :
    ((wake settings plan).run host).2.supervisor =
      ((wakeWatcher settings (plan.lifecycle host)).run host.supervisor).2 := by
  unfold wake wakeWatcher
  simp only [Action.run_bind, Action.run_read]
  cases waits : host.supervisor.watcher with
  | none => rfl
  | some task =>
    cases task with
    | waiting launchNonce => rfl
    | restarting restart =>
      simp only
      split
      · rfl
      · split
        · simp only [WakeUp.lifecycle, waits]
          rfl
        · simp only [WakeUp.lifecycle, waits]
          refine fallBack_simulates settings plan restart
            { host with supervisor := { host.supervisor with watcher := none } } _ _ rfl ?_
          intro liveSource answered
          simp only [answered]

end Watch

/-- The journal has a release to fall back to. -/
def offers (journal : ActivationJournal) : Bool := (journal.state.bind SourceState.previousReleaseId).isSome

section Journal

variable {journal : ActivationJournal} {plan : WakeUp} {failed selected : RuntimeLiveSourceSpec}

theorem releaseForCommit_offers {known : ActivationJournal} {commit : String} {now : Nat} {release : Release}
    (done : releaseForCommit journal commit now = .ok (known, release)) : offers known = offers journal := by
  unfold releaseForCommit at done
  split at done
  · cases done
  simp only at done
  split at done
  · cases done
  · split at done
    · cases done
      split <;> rfl
    · cases done

theorem completeRecovery_offers {recovered : ActivationJournal} {failedId selectedId : String} {pending : Bool}
    {now : Nat} (done : completeRecovery journal failedId selectedId pending now = .ok recovered) :
    offers recovered = false := by
  unfold completeRecovery at done
  split at done
  · cases done
  rename_i state present
  repeat' split at done
  all_goals cases done
  simp [offers, ActivationJournal.recovered]

/-- A recovery that is completed leaves nothing to fall back to. -/
theorem completeSourceRecovery_offers :
    ((completeSourceRecovery journal plan failed selected).1 = .returns →
      offers (completeSourceRecovery journal plan failed selected).2 = false) ∧
    (offers (completeSourceRecovery journal plan failed selected).2 = true → offers journal = true) := by
  unfold completeSourceRecovery
  split
  · exact ⟨(fun done => by cases done), fun still => still⟩
  split
  · exact ⟨(fun done => by cases done), fun still => still⟩
  rename_i known failedRelease first
  split
  · exact ⟨(fun done => by cases done), fun still => releaseForCommit_offers first ▸ still⟩
  split
  · exact ⟨(fun done => by cases done), fun still => releaseForCommit_offers first ▸ still⟩
  rename_i both selectedRelease second
  have same : offers both = offers journal := (releaseForCommit_offers second).trans (releaseForCommit_offers first)
  split
  · exact ⟨(fun done => by cases done), fun still => same ▸ still⟩
  split
  · exact ⟨(fun done => by cases done), fun still => same ▸ still⟩
  rename_i recovered completed
  have spent := completeRecovery_offers completed
  split
  · exact ⟨fun _ => spent, fun still => by rw [spent] at still; cases still⟩
  · exact ⟨fun _ => spent, fun still => by rw [spent] at still; cases still⟩

theorem completeSourceRecovery_undisturbed : (completeSourceRecovery journal plan failed selected).1 ≠ .cancelled := by
  unfold completeSourceRecovery
  intro cancelled
  repeat' split at cancelled
  all_goals cases cancelled

theorem recoverySource_undisturbed : recoverySource journal plan failed ≠ .cancelled := by
  unfold recoverySource
  intro cancelled
  repeat' split at cancelled
  all_goals cases cancelled

theorem recoverySource_offers {source : RuntimeLiveSourceSpec}
    (answered : recoverySource journal plan failed = .candidate source) : offers journal = true := by
  unfold recoverySource at answered
  split at answered
  · cases answered
  split at answered
  · rename_i candidate spec found _
    unfold recoveryCandidate at found
    split at found
    · cases found
    split at found
    · cases found
    rename_i state present
    split at found
    · cases found
    split at found
    · cases found
    rename_i previous kept
    simp [offers, present, kept]
  · cases answered

end Journal

section Supervisor

variable {settings : Settings} {s : Supervisor}

theorem spawnTarget_framed (plan : SpawnPlan) (config : HostConfig) (target : RuntimeLiveSourceSpec) :
    Action.Ends (spawnTarget settings plan config target) s fun _ after => Framed s after :=
  (spawnTarget_launched s).mono fun _ _ launched => launched.1

theorem restartOnce_restarts (plan : WakePlan) (restart : Restart) (attempt : Nat) :
    Action.Ends (restartOnce settings plan restart attempt) s fun _ after => after.unexpectedRestarts = attempt := by
  unfold restartOnce
  apply Action.ends_bind_modify
  apply Action.ends_bind_attempt
  refine (spawnTarget_framed plan.spawn restart.config restart.target).mono ?_
  rintro outcome after framed
  have restarts : after.unexpectedRestarts = attempt := framed.restarts
  cases outcome with
  | ok child => exact restarts
  | error error =>
    cases error with
    | cancelled => exact restarts
    | exitedBeforeReady message | containmentPreflight message | exception message =>
      apply Action.ends_bind_read
      split
      · exact restarts
      · split
        · exact restarts
        · exact restarts

theorem abandonRecovery_stops (stop : StopPlan) (failed : RuntimeLiveSourceSpec) (child : Child) (error : RuntimeError) :
    Action.Ends (abandonRecovery settings stop failed child error) s fun _ after => after.desiredRunning = false := by
  unfold abandonRecovery
  apply Action.ends_bind_modify
  apply Action.ends_bind
  apply Action.ends_handle
  refine (stopChild_spec settings stop child _).mono ?_
  rintro outcome after ⟨framed, _, _⟩
  have halted : after.desiredRunning = false := framed.running
  cases outcome with
  | error error => exact halted
  | ok value =>
    apply Action.ends_bind_modify
    apply Action.ends_bind_modify
    split
    · exact Action.ends_raise halted
    · exact Action.ends_bind_modify (Action.ends_raise halted)

theorem finishRecovery_restarts (plan : FinishPlan) (failed selected : RuntimeLiveSourceSpec) (child : Child) :
    Action.Ends (finishRecovery settings plan failed selected child) s fun _ after =>
      after.desiredRunning = false ∨ (plan.reconcile = .returns ∧ after.unexpectedRestarts = s.unexpectedRestarts) := by
  unfold finishRecovery
  cases plan.reconcile with
  | cancelled => exact (abandonRecovery_stops ..).mono fun _ _ halted => Or.inl halted
  | raises message => exact (abandonRecovery_stops ..).mono fun _ _ halted => Or.inl halted
  | returns =>
    apply Action.ends_bind_modify
    apply Action.ends_bind_modify
    split
    · exact Action.ends_raise (Or.inr ⟨rfl, rfl⟩)
    · exact Action.ends_pure (Or.inr ⟨rfl, rfl⟩)

/-- The exit of a child gives no new restarts. -/
theorem watchChildExit_restarts (plan : ExitPlan) :
    Action.Ends (watchChildExit plan) s fun _ after =>
      after.unexpectedRestarts = s.unexpectedRestarts ∧
        (after.watcher.isSome → after.desiredRunning = true → s.watcher.isSome ∧ s.desiredRunning = true) := by
  unfold watchChildExit
  apply Action.ends_bind_read
  split
  · rename_i launchNonce child waits held
    have watched : s.watcher.isSome := by
      rw [waits]
      rfl
    apply Action.ends_bind_modify
    split
    · exact Action.ends_pure ⟨rfl, fun gone => by cases gone⟩
    · apply Action.ends_bind_modify
      cases plan.terminated with
      | cancelled => exact Action.ends_raise ⟨rfl, fun gone => by cases gone⟩
      | raises message => exact ⟨rfl, fun gone => by cases gone⟩
      | returns =>
        apply Action.ends_bind_modify
        apply Action.ends_bind
        apply Action.ends_handle
        apply Action.ends_bind
        unfold removeOwnershipRecord Action.Ends Action.run
        cases (clearFile plan.clearRecord launchNonce s.control).1 with
        | error error => exact ⟨rfl, fun gone => by cases gone⟩
        | ok value =>
          unfold removeLaunchIntent
          cases (clearFile plan.clearIntent launchNonce s.intent).1 with
          | error error => exact ⟨rfl, fun gone => by cases gone⟩
          | ok value => exact ⟨rfl, fun _ wanted => ⟨watched, wanted⟩⟩
  · exact ⟨rfl, fun gone => by cases gone⟩
  · exact ⟨rfl, fun watched wanted => ⟨watched, wanted⟩⟩

theorem reportWatcherFailure_restarts (launchNonce : Nat) :
    Action.Ends (reportWatcherFailure launchNonce) s fun _ after =>
      after.unexpectedRestarts = s.unexpectedRestarts ∧ after.watcher = s.watcher ∧
        (after.desiredRunning = true → s.desiredRunning = true) := by
  unfold reportWatcherFailure
  apply Action.ends_bind_read
  split
  · apply Action.ends_bind_modify
    split
    · exact ⟨rfl, rfl, fun wanted => by cases wanted⟩
    · exact ⟨rfl, rfl, fun wanted => wanted⟩
  · exact ⟨rfl, rfl, fun wanted => wanted⟩

end Supervisor

section Allowance

variable (settings : Settings)

/-- The launches that the watchers may still make. -/
def allowance (host : Controller) : Nat :=
  if host.supervisor.watcher.isSome && host.supervisor.desiredRunning then
    (settings.maxUnexpectedRestarts - host.supervisor.unexpectedRestarts) +
      if offers host.journal then settings.maxUnexpectedRestarts + 1 else 0
  else 0

variable {settings} {host : Controller}

theorem allowance_unwatched (gone : host.supervisor.watcher = none) : allowance settings host = 0 := by
  simp [allowance, gone]

theorem allowance_unwanted (halted : host.supervisor.desiredRunning = false) : allowance settings host = 0 := by
  simp [allowance, halted]

theorem allowance_spent (spent : offers host.journal = false) : allowance settings host ≤ settings.maxUnexpectedRestarts := by
  unfold allowance
  split
  · simp [spent]
  · exact Nat.zero_le _

theorem allowance_restarted : allowance settings host ≤
    (settings.maxUnexpectedRestarts - host.supervisor.unexpectedRestarts) +
      if offers host.journal then settings.maxUnexpectedRestarts + 1 else 0 := by
  unfold allowance
  split
  · exact le_refl _
  · exact Nat.zero_le _

theorem allowance_le {after : Controller} (journal : after.journal = host.journal)
    (restarts : after.supervisor.unexpectedRestarts = host.supervisor.unexpectedRestarts)
    (live : after.supervisor.watcher.isSome → after.supervisor.desiredRunning = true →
      host.supervisor.watcher.isSome ∧ host.supervisor.desiredRunning = true) :
    allowance settings after ≤ allowance settings host := by
  unfold allowance
  split
  · rename_i both
    simp only [Bool.and_eq_true] at both
    obtain ⟨watched, wanted⟩ := live both.1 both.2
    simp [watched, wanted, journal, restarts]
  · exact Nat.zero_le _

/-- The fallback costs one launch, and gives back the restarts but not another fallback. -/
theorem fallBack_within (plan : WakeUp) (restart : Restart) (gone : host.supervisor.watcher = none) :
    Action.Ends (fallBack settings plan restart) host fun _ after =>
      after.spawns + allowance settings after ≤
        host.spawns + if offers host.journal then settings.maxUnexpectedRestarts + 1 else 0 := by
  unfold fallBack
  apply Action.ends_bind_read
  apply Action.ends_bind
  apply Action.ends_zoom
  unfold recoveryTarget
  apply Action.ends_bind_read
  have idle : ∀ {after : Controller}, after.spawns = host.spawns → allowance settings after = 0 →
      after.spawns + allowance settings after ≤
        host.spawns + if offers host.journal then settings.maxUnexpectedRestarts + 1 else 0 := by
    intro after same none
    omega
  have exhausted : Action.Ends (onSupervisor do
      setDesiredRunning false
      setFailure .failed "runtime exhausted its unexpected-exit restart budget") host fun _ after =>
      after.spawns + allowance settings after ≤
        host.spawns + if offers host.journal then settings.maxUnexpectedRestarts + 1 else 0 :=
    idle rfl (allowance_unwanted rfl)
  split
  · exact exhausted
  cases answered : recoverySource host.journal plan restart.target with
  | nothing => exact exhausted
  | cancelled => exact idle rfl (allowance_unwatched gone)
  | candidate fallback =>
    simp only
    split
    · exact exhausted
    · have offered := recoverySource_offers answered
      simp only [offered, if_true]
      apply Action.ends_pure
      apply Action.ends_bind
      apply Action.ends_zoom
      apply Action.ends_modify
      apply Action.ends_handle
      apply Action.ends_bind_modify
      apply Action.ends_bind
      apply Action.ends_zoom
      refine (spawnTarget_framed plan.spawn restart.config fallback).mono ?_
      rintro outcome after framed
      have unwatched : after.watcher = none := framed.unwatched gone
      have paid : ∀ {final : Controller}, final.spawns = host.spawns + 1 → allowance settings final = 0 →
          final.spawns + allowance settings final ≤ host.spawns + (settings.maxUnexpectedRestarts + 1) := by
        intro final counted none
        omega
      cases outcome with
      | error error =>
        cases error with
        | cancelled => exact paid rfl (allowance_unwatched unwatched)
        | exitedBeforeReady message | containmentPreflight message | exception message =>
          exact paid rfl (allowance_unwanted rfl)
      | ok child =>
        apply Action.ends_bind
        apply Action.ends_of_run (run_reconcile plan restart.target fallback _)
        apply Action.ends_zoom
        refine (finishRecovery_restarts _ restart.target fallback child).mono ?_
        rintro outcome final ended
        have within : host.spawns + 1 + allowance settings ⟨final,
              (completeSourceRecovery host.journal plan restart.target fallback).2, host.spawns + 1⟩ ≤
            host.spawns + (settings.maxUnexpectedRestarts + 1) := by
          rcases ended with halted | ⟨completed, _⟩
          · rw [allowance_unwanted halted]
            omega
          · have few : allowance settings ⟨final,
                (completeSourceRecovery host.journal plan restart.target fallback).2, host.spawns + 1⟩ ≤
                settings.maxUnexpectedRestarts := allowance_spent (completeSourceRecovery_offers.1 completed)
            omega
        cases outcome with
        | ok value => exact within
        | error error =>
          cases error with
          | cancelled => exact within
          | exitedBeforeReady message | containmentPreflight message | exception message =>
            exact paid rfl (allowance_unwanted rfl)

theorem wake_within (plan : WakeUp) : Action.Ends (wake settings plan) host fun _ after =>
    after.spawns + allowance settings after ≤ host.spawns + allowance settings host := by
  unfold wake
  apply Action.ends_bind_read
  split
  · rename_i restart waits
    split
    · have unwatched : allowance settings ⟨{ host.supervisor with watcher := none }, host.journal, host.spawns⟩ = 0 :=
        allowance_unwatched rfl
      exact Nat.add_le_add_left (unwatched ▸ Nat.zero_le _) _
    rename_i current
    simp only [not_or, Bool.not_eq_false] at current
    have whole : allowance settings host =
        (settings.maxUnexpectedRestarts - host.supervisor.unexpectedRestarts) +
          if offers host.journal then settings.maxUnexpectedRestarts + 1 else 0 := by
      simp [allowance, waits, current.2.1]
    split
    · rename_i more
      apply Action.ends_bind_modify
      apply Action.ends_zoom
      refine (restartOnce_restarts _ restart _).mono ?_
      intro outcome after restarts
      have less := @allowance_restarted settings ⟨after, host.journal, host.spawns + 1⟩
      simp only at less ⊢
      omega
    · rename_i used
      apply Action.ends_bind
      apply Action.ends_zoom
      apply Action.ends_modify
      refine (fallBack_within plan restart rfl).mono ?_
      intro outcome after within
      simp only at within
      omega
  · exact le_refl _

/-- No step gives the watchers more launches than they had. -/
theorem step_within (op : Op) :
    (step settings host op).spawns + allowance settings (step settings host op) ≤
      host.spawns + allowance settings host := by
  cases op with
  | watchChildExit plan =>
    obtain ⟨restarts, live⟩ := watchChildExit_restarts (s := host.supervisor) plan
    exact Nat.add_le_add_left
      (@allowance_le settings host (step settings host (.watchChildExit plan)) rfl restarts live) _
  | wake plan => exact wake_within plan
  | reportWatcherFailure launchNonce =>
    obtain ⟨restarts, watched, wanted⟩ := reportWatcherFailure_restarts (s := host.supervisor) launchNonce
    exact Nat.add_le_add_left
      (@allowance_le settings host (step settings host (.reportWatcherFailure launchNonce)) rfl restarts
        fun kept running => ⟨watched ▸ kept, wanted running⟩) _

theorem exec_within (ops : List Op) :
    (Run.exec (step settings) host ops).spawns ≤ host.spawns + allowance settings host := by
  induction ops generalizing host with
  | nil => exact Nat.le_add_right _ _
  | cons op ops ih => exact le_trans ih (step_within op)

end Allowance

/-- No step of the attempt is cancelled. Only an operator call cancels a watcher. -/
def Undisturbed (plan : AttemptPlan) : Prop :=
  plan.checkout ≠ .cancelled ∧ plan.create ≠ .cancelled ∧ plan.readiness ≠ .cancelled ∧
    plan.cleanup.terminated ≠ .cancelled

instance (plan : AttemptPlan) : Decidable (Undisturbed plan) := inferInstanceAs (Decidable (_ ∧ _ ∧ _ ∧ _))

def Op.Undisturbed : Op → Prop
  | .watchChildExit plan => plan.terminated ≠ .cancelled
  | .wake plan =>
    CrashLoop.Undisturbed plan.spawn.first ∧ CrashLoop.Undisturbed plan.spawn.second ∧
      plan.cleanup.terminated ≠ .cancelled
  | .reportWatcherFailure _ => True

/-- The crash loop is over. `Solo` says that it began with no process but that of the child. -/
structure Ended (Solo : Prop) (s : Supervisor) : Prop where
  unwatched : s.watcher = none
  quiet : s.failing = []
  closed : (s.status = .failed ∧ s.child = none ∧ (Solo → s.unproven = [])) ∨ s.status = .recoveryRequired

/-- The phases of the crash loop. -/
inductive Phase (Solo : Prop) (s : Supervisor) : Prop where
  | running (child : Child) (held : s.child = some child) (kept : child.requestedStop = false)
      (waits : s.watcher = some (.waiting child.launchNonce)) (quiet : s.failing = [])
      (alone : Solo → s.unproven = [child.launchNonce])
  | restarting (restart : Restart) (waits : s.watcher = some (.restarting restart)) (vacant : s.child = none)
      (current : s.selectionVersion = restart.version) (wanted : s.desiredRunning = true) (quiet : s.failing = [])
      (idle : Solo → s.unproven = [])
  | reporting (child : Child) (held : s.child = some child) (unwatched : s.watcher = none)
      (reports : s.failing = [child.launchNonce])
  | ended (ended : Ended Solo s)

section Phases

variable {settings : Settings} {Solo : Prop} {s : Supervisor}

/-- How a launch that nobody cancels ends, when nothing runs before it. -/
def Settled (Solo : Prop) (s : Supervisor) : Except RuntimeError Child → Supervisor → Prop
  | .ok child, after =>
    Framed s after ∧ child.requestedStop = false ∧ after.child = none ∧ (Solo → after.unproven = [child.launchNonce])
  | .error error, after =>
    Framed s after ∧ error ≠ .cancelled ∧
      (after.status = .recoveryRequired ∨ (after.child = none ∧ (Solo → after.unproven = [])))

theorem spawnTarget_settled (Solo : Prop) {plan : SpawnPlan} {config : HostConfig} {target : RuntimeLiveSourceSpec}
    (first : Undisturbed plan.first) (second : Undisturbed plan.second) (vacant : s.child = none)
    (idle : Solo → s.unproven = []) : Action.Ends (spawnTarget settings plan config target) s (Settled Solo s) := by
  refine (spawnTarget_launched s).mono ?_
  rintro outcome after ⟨framed, _, attempt, decides, launched⟩
  have undisturbed : Undisturbed attempt := by
    rcases decides with ⟨_, _, rfl⟩ | ⟨_, rfl⟩
    · exact second
    · exact first
  obtain ⟨checkout, create, readiness, cleanup⟩ := undisturbed
  cases launched with
  | ready up own target quiet none status unproven => exact ⟨framed, quiet, none vacant, fun solo => unproven (idle solo)⟩
  | halted halts =>
    rcases halts with ⟨_, _, cancelled⟩ | ⟨_, cancelled, _⟩
    · exact absurd cancelled checkout
    · exact absurd cancelled readiness
  | unresolved halts exits uncaptured => exact absurd uncaptured.2.2.2.2 create
  | abandoned halts abandons => exact absurd abandons.2.2.2 cleanup
  | failed raised unready halts exits none unproven => 
    exact ⟨framed, raised, Or.inr ⟨none vacant, fun solo => unproven (idle solo)⟩⟩
  | kept child halts exits leaves own target some status => exact ⟨framed, (fun same => by cases same), Or.inl status⟩
  | lost raised halts exits retry loses none status => exact ⟨framed, raised, Or.inl status⟩

theorem restartOnce_phase {plan : WakePlan} {restart : Restart} {attempt : Nat}
    (first : Undisturbed plan.spawn.first) (second : Undisturbed plan.spawn.second)
    (waits : s.watcher = some (.restarting restart)) (vacant : s.child = none)
    (current : s.selectionVersion = restart.version) (wanted : s.desiredRunning = true) (quiet : s.failing = [])
    (idle : Solo → s.unproven = []) :
    Action.Ends (restartOnce settings plan restart attempt) s fun _ after => Phase Solo after := by
  unfold restartOnce
  apply Action.ends_bind_modify
  apply Action.ends_bind_attempt
  refine (spawnTarget_settled Solo first second ?_ ?_).mono ?_
  · exact vacant
  · exact idle
  rintro outcome after settled
  cases outcome with
  | ok child =>
    obtain ⟨framed, kept, _, alone⟩ := settled
    exact .running child rfl kept rfl (framed.failing.trans quiet) alone
  | error error =>
    obtain ⟨framed, raised, left⟩ := settled
    have waiting : after.watcher = some (.restarting restart) := by
      rcases framed.watcher with same | ⟨_, launchNonce, other⟩
      · exact same.trans waits
      · rw [show s.watcher = _ from other] at waits
        cases waits
    have again : ∀ {final : Supervisor}, final.watcher = after.watcher → final.child = after.child →
        final.selectionVersion = after.selectionVersion → final.desiredRunning = after.desiredRunning →
        final.failing = after.failing → final.unproven = after.unproven → after.status ≠ .recoveryRequired →
        Phase Solo final := by
      intro final watcher child version running failing unproven status
      rcases left with required | ⟨none, empty⟩
      · exact absurd required status
      · exact .restarting restart (watcher.trans waiting) (child.trans none)
          (version.trans (framed.version.trans current)) (running.trans (framed.running.trans wanted))
          (failing.trans (framed.failing.trans quiet)) (fun solo => unproven.trans (empty solo))
    cases error with
    | cancelled => exact absurd rfl raised
    | exitedBeforeReady message | containmentPreflight message | exception message =>
      apply Action.ends_bind_read
      split
      · rename_i required
        exact .ended ⟨rfl, framed.failing.trans quiet, Or.inr required⟩
      · rename_i status
        split
        · exact again rfl rfl rfl rfl rfl rfl status
        · exact again rfl rfl rfl rfl rfl rfl status

theorem failUnlessRecovery_ended (message : String) (unwatched : s.watcher = none) (quiet : s.failing = [])
    (left : s.status = .recoveryRequired ∨ (s.child = none ∧ (Solo → s.unproven = []))) :
    Action.Ends (failUnlessRecovery message) s fun _ after => Ended Solo after := by
  unfold failUnlessRecovery
  apply Action.ends_modify
  split
  · exact ⟨unwatched, quiet, Or.inr rfl⟩
  · rename_i status
    rcases left with required | ⟨vacant, idle⟩
    · exact absurd required status
    · exact ⟨unwatched, quiet, Or.inl ⟨rfl, vacant, idle⟩⟩

theorem abandonRecovery_ended {stop : StopPlan} {failed : RuntimeLiveSourceSpec} {child : Child} {message : String}
    (unwatched : s.watcher = none) (quiet : s.failing = []) (vacant : s.child = none)
    (alone : Solo → s.unproven = [child.launchNonce]) :
    Action.Ends (abandonRecovery settings stop failed child (.exception message)) s fun outcome after =>
      (∃ message, outcome = .error (.exception message)) ∧ Ended Solo after := by
  unfold abandonRecovery
  apply Action.ends_bind_modify
  apply Action.ends_bind
  apply Action.ends_handle
  refine (stopChild_spec settings stop child _).mono ?_
  rintro outcome after ⟨framed, _, stopped⟩
  have unwatched' : after.watcher = none := framed.unwatched unwatched
  have quiet' : after.failing = [] := framed.failing.trans quiet
  cases outcome with
  | error error => exact ⟨⟨_, rfl⟩, unwatched', quiet', Or.inr rfl⟩
  | ok value =>
    cases stopped with
    | stopped seen terminated status same unproven =>
      have vacant' : after.child = none := by
        rw [same]
        exact congrArg (Option.map _) vacant
      have idle : Solo → after.unproven = [] := by
        intro solo
        rw [unproven]
        simp [alone solo]
      exact ⟨⟨_, rfl⟩, unwatched', quiet', Or.inl ⟨rfl, vacant', idle⟩⟩

theorem finishRecovery_ended {plan : FinishPlan} {failed selected : RuntimeLiveSourceSpec} {child : Child}
    (reconciles : plan.reconcile ≠ .cancelled) (calm : plan.cancelled = false) (unwatched : s.watcher = none)
    (quiet : s.failing = []) (vacant : s.child = none) (kept : child.requestedStop = false)
    (alone : Solo → s.unproven = [child.launchNonce]) :
    Action.Ends (finishRecovery settings plan failed selected child) s fun outcome after =>
      ((∃ message, outcome = .error (.exception message)) ∧ Ended Solo after) ∨
        (outcome = .ok () ∧ Phase Solo after) := by
  unfold finishRecovery
  cases reconciled : plan.reconcile with
  | cancelled => exact absurd reconciled reconciles
  | raises message =>
    exact (abandonRecovery_ended unwatched quiet vacant alone).mono fun _ _ ended => Or.inl ended
  | returns =>
    apply Action.ends_bind_modify
    apply Action.ends_bind_modify
    simp only [calm]
    exact Or.inr ⟨rfl, .running child rfl kept rfl quiet alone⟩

/-- The exit of the running child ends its watcher's wait. -/
theorem watchChildExit_phase {plan : ExitPlan} {child : Child} (undisturbed : plan.terminated ≠ .cancelled)
    (held : s.child = some child) (kept : child.requestedStop = false)
    (waits : s.watcher = some (.waiting child.launchNonce)) (quiet : s.failing = [])
    (alone : Solo → s.unproven = [child.launchNonce]) :
    Action.Ends (watchChildExit plan) s fun _ after =>
      Phase Solo after ∧ ∀ launchNonce, after.watcher ≠ some (.waiting launchNonce) := by
  unfold watchChildExit
  apply Action.ends_bind_read
  simp only [waits, held]
  apply Action.ends_bind_modify
  simp only [kept, Bool.false_or, bne_self_eq_false, Bool.false_eq_true, if_false]
  apply Action.ends_bind_modify
  cases terminated : plan.terminated with
  | cancelled => exact absurd terminated undisturbed
  | raises message => exact ⟨.ended ⟨rfl, quiet, Or.inr rfl⟩, fun launchNonce other => by cases other⟩
  | returns =>
    have idle : Solo → s.unproven.filter (· != child.launchNonce) = [] := fun solo => by simp [alone solo]
    have reporting : s.failing ++ [child.launchNonce] = [child.launchNonce] := by rw [quiet]; rfl
    apply Action.ends_bind_modify
    apply Action.ends_bind
    apply Action.ends_handle
    apply Action.ends_bind
    unfold removeOwnershipRecord Action.Ends Action.run
    cases (clearFile plan.clearRecord child.launchNonce s.control).1 with
    | error error => exact ⟨.reporting child held rfl reporting, fun launchNonce other => by cases other⟩
    | ok value =>
      unfold removeLaunchIntent
      cases (clearFile plan.clearIntent child.launchNonce s.intent).1 with
      | error error => exact ⟨.reporting child held rfl reporting, fun launchNonce other => by cases other⟩
      | ok value =>
        cases s.desiredRunning with
        | true =>
          exact ⟨.restarting ⟨s.selectionVersion, child.config, child.liveSource⟩ rfl rfl rfl rfl quiet idle,
            fun launchNonce other => by cases other⟩
        | false => exact ⟨.ended ⟨rfl, quiet, Or.inl ⟨rfl, rfl, idle⟩⟩, fun launchNonce other => by cases other⟩

theorem reportWatcherFailure_ended {child : Child} (held : s.child = some child) (unwatched : s.watcher = none)
    (reports : s.failing = [child.launchNonce]) :
    Action.Ends (reportWatcherFailure child.launchNonce) s fun _ after => Ended Solo after := by
  unfold reportWatcherFailure
  apply Action.ends_bind_read
  simp only [reports, List.contains_cons, beq_self_eq_true, Bool.true_or, if_true]
  apply Action.ends_bind_modify
  simp only [held, Option.any_some, beq_self_eq_true, if_true]
  have quiet : s.failing.erase child.launchNonce = [] := by rw [reports, List.erase_cons_head]
  exact ⟨unwatched, quiet, Or.inr rfl⟩

theorem fallBack_phase {plan : WakeUp} {restart : Restart} {host : Controller}
    (first : Undisturbed plan.spawn.first) (second : Undisturbed plan.spawn.second)
    (unwatched : host.supervisor.watcher = none) (vacant : host.supervisor.child = none)
    (quiet : host.supervisor.failing = []) (idle : Solo → host.supervisor.unproven = []) :
    Action.Ends (fallBack settings plan restart) host fun _ after =>
      Phase Solo after.supervisor ∧ (after.spawns = host.spawns + 1 ∨ Ended Solo after.supervisor) := by
  have exhausted : Action.Ends (onSupervisor do
      setDesiredRunning false
      setFailure .failed "runtime exhausted its unexpected-exit restart budget") host fun _ after =>
      Phase Solo after.supervisor ∧ (after.spawns = host.spawns + 1 ∨ Ended Solo after.supervisor) := by
    have ended : Ended Solo { host.supervisor with
        desiredRunning := false
        status := .failed
        error := some "runtime exhausted its unexpected-exit restart budget" } :=
      ⟨unwatched, quiet, Or.inl ⟨rfl, vacant, idle⟩⟩
    exact ⟨.ended ended, Or.inr ended⟩
  unfold fallBack
  apply Action.ends_bind_read
  apply Action.ends_bind
  apply Action.ends_zoom
  unfold recoveryTarget
  apply Action.ends_bind_read
  split
  · exact exhausted
  cases answered : recoverySource host.journal plan restart.target with
  | nothing => exact exhausted
  | cancelled => exact absurd answered recoverySource_undisturbed
  | candidate fallback =>
    simp only
    split
    · exact exhausted
    · apply Action.ends_pure
      apply Action.ends_bind
      apply Action.ends_zoom
      apply Action.ends_modify
      apply Action.ends_handle
      apply Action.ends_bind_modify
      apply Action.ends_bind
      apply Action.ends_zoom
      refine (spawnTarget_settled Solo first second ?_ ?_).mono ?_
      · exact vacant
      · exact idle
      rintro outcome after settled
      cases outcome with
      | error error =>
        obtain ⟨framed, raised, left⟩ := settled
        have ended : Action.Ends (do
            setDesiredRunning false
            failUnlessRecovery "runtime fallback source failed operational checks") after fun _ after => Ended Solo after :=
          Action.ends_bind_modify
            (failUnlessRecovery_ended _ (framed.unwatched unwatched) (framed.failing.trans quiet) left)
        cases error with
        | cancelled => exact absurd rfl raised
        | exitedBeforeReady message | containmentPreflight message | exception message =>
          exact ⟨.ended ended, Or.inr ended⟩
      | ok child =>
        obtain ⟨framed, kept, vacant', alone⟩ := settled
        apply Action.ends_bind
        apply Action.ends_of_run (run_reconcile plan restart.target fallback _)
        apply Action.ends_zoom
        refine (finishRecovery_ended completeSourceRecovery_undisturbed rfl (framed.unwatched unwatched)
          (framed.failing.trans quiet) vacant' kept alone).mono ?_
        rintro outcome final (⟨⟨message, rfl⟩, ended⟩ | ⟨rfl, phase⟩)
        · have still : Action.Ends (do
              setDesiredRunning false
              failUnlessRecovery "runtime fallback source failed operational checks") final fun _ after => Ended Solo after :=
            Action.ends_bind_modify (failUnlessRecovery_ended _ ended.unwatched ended.quiet
              (ended.closed.symm.imp_right And.right))
          exact ⟨.ended still, Or.inr still⟩
        · exact ⟨phase, Or.inl rfl⟩

theorem wake_phase {plan : WakeUp} {restart : Restart} {host : Controller}
    (first : Undisturbed plan.spawn.first) (second : Undisturbed plan.spawn.second)
    (waits : host.supervisor.watcher = some (.restarting restart)) (vacant : host.supervisor.child = none)
    (current : host.supervisor.selectionVersion = restart.version) (wanted : host.supervisor.desiredRunning = true)
    (quiet : host.supervisor.failing = []) (idle : Solo → host.supervisor.unproven = []) :
    Action.Ends (wake settings plan) host fun _ after =>
      Phase Solo after.supervisor ∧ (after.spawns = host.spawns + 1 ∨ Ended Solo after.supervisor) := by
  unfold wake
  apply Action.ends_bind_read
  simp only [waits, current, wanted, vacant, ne_eq, not_true, Bool.true_eq_false, Option.isSome_none,
    Bool.false_eq_true, or_self, if_false]
  split
  · apply Action.ends_bind_modify
    apply Action.ends_zoom
    refine (restartOnce_phase ?_ ?_ waits vacant current wanted quiet idle).mono ?_
    · exact first
    · exact second
    · exact fun outcome after phase => ⟨phase, Or.inl rfl⟩
  · apply Action.ends_bind
    apply Action.ends_zoom
    apply Action.ends_modify
    exact fallBack_phase first second rfl vacant quiet idle

/-- The watchers that a step can move on. -/
def Effective (host : Controller) : Op → Prop
  | .watchChildExit _ => ∃ launchNonce, host.supervisor.watcher = some (.waiting launchNonce)
  | .wake _ => ∃ restart, host.supervisor.watcher = some (.restarting restart)
  | .reportWatcherFailure launchNonce => launchNonce ∈ host.supervisor.failing

/-- What the watchers have left to do. -/
def rank (settings : Settings) (host : Controller) : Nat :=
  2 * allowance settings host + host.supervisor.failing.length +
    match host.supervisor.watcher with
    | some (.waiting _) => 2
    | some (.restarting _) => 1
    | none => 0

theorem step_idle {host : Controller} {op : Op} (idle : ¬ Effective host op) : step settings host op = host := by
  cases op with
  | watchChildExit plan =>
    show { host with supervisor := ((watchChildExit plan).run host.supervisor).2 } = host
    have same : ((watchChildExit plan).run host.supervisor).2 = host.supervisor := by
      unfold watchChildExit
      simp only [Action.run_bind, Action.run_read]
      split
      · rename_i launchNonce child waits held
        exact absurd ⟨launchNonce, waits⟩ idle
      · rename_i launchNonce waits held
        exact absurd ⟨launchNonce, waits⟩ idle
      · rfl
    rw [same]
  | wake plan =>
    show ((wake settings plan).run host).2 = host
    unfold wake
    simp only [Action.run_bind, Action.run_read]
    split
    · rename_i restart waits
      exact absurd ⟨restart, waits⟩ idle
    · rfl
  | reportWatcherFailure launchNonce =>
    show { host with supervisor := ((reportWatcherFailure launchNonce).run host.supervisor).2 } = host
    have same : ((reportWatcherFailure launchNonce).run host.supervisor).2 = host.supervisor := by
      unfold reportWatcherFailure
      simp only [Action.run_bind, Action.run_read]
      split
      · rename_i reports
        exact absurd (List.contains_iff_mem.mp reports) idle
      · rfl
    rw [same]

theorem rank_ended {host : Controller} (ended : Ended Solo host.supervisor) : rank settings host = 0 := by
  simp [rank, allowance_unwatched ended.unwatched, ended.unwatched, ended.quiet]

theorem rank_le {host : Controller} (phase : Phase Solo host.supervisor) :
    rank settings host ≤ 2 * allowance settings host + 2 := by
  unfold rank
  cases phase with
  | running child held kept waits quiet alone => simp [waits, quiet]
  | restarting restart waits vacant current wanted quiet idle => simp [waits, quiet]
  | reporting child held unwatched reports => simp [unwatched, reports]
  | ended ended => simp [ended.unwatched, ended.quiet]

theorem rank_exited {host : Controller} (phase : Phase Solo host.supervisor)
    (left : ∀ launchNonce, host.supervisor.watcher ≠ some (.waiting launchNonce)) :
    rank settings host ≤ 2 * allowance settings host + 1 := by
  unfold rank
  cases phase with
  | running child held kept waits => exact absurd waits (left child.launchNonce)
  | restarting restart waits vacant current wanted quiet idle => simp [waits, quiet]
  | reporting child held unwatched reports => simp [unwatched, reports]
  | ended ended => simp [ended.unwatched, ended.quiet]

theorem exit_effective {host : Controller} {plan : ExitPlan} {launchNonce : Nat}
    (undisturbed : plan.terminated ≠ .cancelled) (phase : Phase Solo host.supervisor)
    (waiting : host.supervisor.watcher = some (.waiting launchNonce)) :
    Phase Solo (step settings host (.watchChildExit plan)).supervisor ∧
      rank settings (step settings host (.watchChildExit plan)) < rank settings host := by
  cases phase with
  | running child held kept waits quiet alone =>
    obtain ⟨later, left⟩ := watchChildExit_phase undisturbed held kept waits quiet alone
    refine ⟨later, ?_⟩
    have before : rank settings host = 2 * allowance settings host + 2 := by simp [rank, waits, quiet]
    have after : rank settings (step settings host (.watchChildExit plan)) ≤ _ := rank_exited later left
    have within : host.spawns + _ ≤ _ := @step_within settings host (.watchChildExit plan)
    omega
  | restarting restart waits =>
    rw [waits] at waiting
    cases waiting
  | reporting child held unwatched =>
    rw [unwatched] at waiting
    cases waiting
  | ended ended =>
    rw [ended.unwatched] at waiting
    cases waiting

theorem wake_effective {host : Controller} {plan : WakeUp} {restart : Restart}
    (undisturbed : (Op.wake plan).Undisturbed) (phase : Phase Solo host.supervisor)
    (restarting : host.supervisor.watcher = some (.restarting restart)) :
    Phase Solo (step settings host (.wake plan)).supervisor ∧
      rank settings (step settings host (.wake plan)) < rank settings host := by
  cases phase with
  | running child held kept waits =>
    rw [waits] at restarting
    cases restarting
  | restarting restart waits vacant current wanted quiet idle =>
    obtain ⟨later, spent⟩ : _ ∧ ((step settings host (.wake plan)).spawns = host.spawns + 1 ∨
        Ended Solo (step settings host (.wake plan)).supervisor) :=
      wake_phase undisturbed.1 undisturbed.2.1 waits vacant current wanted quiet idle
    refine ⟨later, ?_⟩
    have before : rank settings host = 2 * allowance settings host + 1 := by simp [rank, waits, quiet]
    rcases spent with counted | ended
    · have after : rank settings (step settings host (.wake plan)) ≤ _ := rank_le later
      have within := @step_within settings host (.wake plan)
      omega
    · rw [rank_ended ended]
      omega
  | reporting child held unwatched =>
    rw [unwatched] at restarting
    cases restarting
  | ended ended =>
    rw [ended.unwatched] at restarting
    cases restarting

theorem report_effective {host : Controller} {launchNonce : Nat} (phase : Phase Solo host.supervisor)
    (reporting : launchNonce ∈ host.supervisor.failing) :
    Phase Solo (step settings host (.reportWatcherFailure launchNonce)).supervisor ∧
      rank settings (step settings host (.reportWatcherFailure launchNonce)) < rank settings host := by
  cases phase with
  | running child held kept waits quiet =>
    rw [quiet] at reporting
    cases reporting
  | restarting restart waits vacant current wanted quiet =>
    rw [quiet] at reporting
    cases reporting
  | reporting child held unwatched reports =>
    rw [reports, List.mem_singleton] at reporting
    subst reporting
    have ended : Ended Solo (step settings host (.reportWatcherFailure child.launchNonce)).supervisor :=
      reportWatcherFailure_ended held unwatched reports
    refine ⟨.ended ended, ?_⟩
    rw [rank_ended ended]
    simp [rank, reports]
  | ended ended =>
    rw [ended.quiet] at reporting
    cases reporting

/-- Every step of the loop that does something uses up some of what is left to do. -/
theorem step_effective {host : Controller} {op : Op} (undisturbed : op.Undisturbed) (phase : Phase Solo host.supervisor)
    (effective : Effective host op) :
    Phase Solo (step settings host op).supervisor ∧ rank settings (step settings host op) < rank settings host := by
  cases op with
  | watchChildExit plan =>
    obtain ⟨launchNonce, waiting⟩ := effective
    exact exit_effective undisturbed phase waiting
  | wake plan =>
    obtain ⟨restart, restarting⟩ := effective
    exact wake_effective undisturbed phase restarting
  | reportWatcherFailure launchNonce => exact report_effective phase effective

theorem step_phase {host : Controller} {op : Op} (phase : Phase Solo host.supervisor) (undisturbed : op.Undisturbed) :
    Phase Solo (step settings host op).supervisor := by
  by_cases effective : Effective host op
  · exact (step_effective undisturbed phase effective).1
  · rw [step_idle effective]
    exact phase

theorem exec_phase {host : Controller} {ops : List Op} (phase : Phase Solo host.supervisor)
    (undisturbed : ∀ op ∈ ops, op.Undisturbed) : Phase Solo (Run.exec (step settings) host ops).supervisor := by
  induction ops generalizing host with
  | nil => exact phase
  | cons op ops ih =>
    exact ih (step_phase phase (undisturbed op (List.mem_cons_self ..)))
      fun later inside => undisturbed later (List.mem_cons_of_mem _ inside)

theorem length_le_rank {host : Controller} {ops : List Op} (phase : Phase Solo host.supervisor)
    (undisturbed : ∀ op ∈ ops, op.Undisturbed) (effective : Run.Guarded (step settings) Effective host ops) :
    ops.length ≤ rank settings host := by
  induction ops generalizing host with
  | nil => exact Nat.zero_le _
  | cons op ops ih =>
    obtain ⟨later, less⟩ : Phase Solo (step settings host op).supervisor ∧ _ :=
      step_effective (undisturbed op (List.mem_cons_self ..)) phase effective.1
    have rest := ih later (fun later inside => undisturbed later (List.mem_cons_of_mem _ inside)) effective.2
    simp only [List.length_cons]
    omega

theorem allowance_all (host : Controller) : allowance settings host ≤ 2 * settings.maxUnexpectedRestarts + 1 := by
  unfold allowance
  split
  · split <;> omega
  · omega

theorem phase_over {host : Controller} (phase : Phase Solo host.supervisor)
    (unwatched : host.supervisor.watcher = none) (quiet : host.supervisor.failing = []) :
    Ended Solo host.supervisor := by
  cases phase with
  | running child held kept waits =>
    rw [waits] at unwatched
    cases unwatched
  | restarting restart waits =>
    rw [waits] at unwatched
    cases unwatched
  | reporting child held none reports =>
    rw [reports] at quiet
    cases quiet
  | ended ended => exact ended

/-- Once a recovery was completed the journal answers no other. -/
theorem completed_answers_nothing {journal : ActivationJournal} {plan later : WakeUp}
    {failed selected other : RuntimeLiveSourceSpec}
    (completed : (completeSourceRecovery journal plan failed selected).1 = .returns) :
    recoverySource (completeSourceRecovery journal plan failed selected).2 later other = .nothing := by
  have spent := completeSourceRecovery_offers.1 completed
  cases answered : recoverySource (completeSourceRecovery journal plan failed selected).2 later other with
  | nothing => rfl
  | cancelled => exact absurd answered recoverySource_undisturbed
  | candidate source =>
    rw [recoverySource_offers answered] at spent
    cases spent

/-- The crash loop terminates: however the children exit and the launches end, the watchers launch
at most `2 * m + 1` times and take at most `4 * m + 4` steps, and when none is left the runtime
is failed with nothing running, or asks for recovery. -/
theorem crash_loop_terminates (settings : Settings) (host : Controller) (fresh : host.spawns = 0)
    (phase : Phase Solo host.supervisor) (ops : List Op) (undisturbed : ∀ op ∈ ops, op.Undisturbed) :
    (Run.exec (step settings) host ops).spawns ≤ 2 * settings.maxUnexpectedRestarts + 1 ∧
    Phase Solo (Run.exec (step settings) host ops).supervisor ∧
    ((Run.exec (step settings) host ops).supervisor.watcher = none →
      (Run.exec (step settings) host ops).supervisor.failing = [] →
      Ended Solo (Run.exec (step settings) host ops).supervisor) ∧
    (Run.Guarded (step settings) Effective host ops → ops.length ≤ 4 * settings.maxUnexpectedRestarts + 4) ∧
    (∀ plan failed selected, (completeSourceRecovery host.journal plan failed selected).1 = .returns →
      ∀ later other, recoverySource (completeSourceRecovery host.journal plan failed selected).2 later other = .nothing) := by
  have limit := @allowance_all settings host
  refine ⟨?_, exec_phase phase undisturbed, ?_, ?_, fun plan failed selected completed later other =>
    completed_answers_nothing completed⟩
  · have within := @exec_within settings host ops
    omega
  · exact phase_over (exec_phase phase undisturbed)
  · intro effective
    have steps := length_le_rank phase undisturbed effective
    have ranked : rank settings host ≤ _ := rank_le phase
    omega

end Phases

section Samples

/-- One restart for each selection. -/
def sampleSettings : Settings where
  strictRuntimeReadiness := false
  probation := false
  maxUnexpectedRestarts := 1
  recovery := true
  safeError := id

def sampleConfig : HostConfig where
  revision := 1
  status := .active
  apiKey := "key"
  baseUrl := "url"
  model := "model"
  telegramBotToken := none
  telegramUserId := none
  internalRuntimeToken := "token"
  telegramPairingCode := none
  createdAt := 0
  error := none

def brokenCommit : String := "bbbbbbbbbbbbbbbbbbbbbbbbbbbbbbbbbbbbbbbb"

def previousCommit : String := "aaaaaaaaaaaaaaaaaaaaaaaaaaaaaaaaaaaaaaaa"

def sampleChild : Child := ⟨sampleConfig, ⟨brokenCommit, none, none, none, none, none⟩, 1, false⟩

def sampleHost : Controller where
  supervisor := ⟨some sampleChild, .ready, none, some sampleChild.liveSource, 1, true, some sampleConfig,
    some sampleChild.liveSource, 0, true, some 1, none, some (.waiting 1), [], 2, [1], [⟨1, []⟩]⟩
  journal := ⟨[⟨releaseId previousCommit, previousCommit, 0⟩, ⟨releaseId brokenCommit, brokenCommit, 0⟩],
    some ⟨releaseId brokenCommit, some (releaseId previousCommit), releaseId brokenCommit, 0⟩, []⟩
  spawns := 0

def sampleAttempt : AttemptPlan :=
  ⟨true, true, .returns, .done, .returns, .done, true, .done, .done, .ready, ⟨true, .returns, .done, .done⟩⟩

/-- A child exits, and its watcher wakes. -/
def crash : List Op :=
  [.watchChildExit ⟨1, .returns, .done, .done⟩,
    .wake ⟨⟨sampleAttempt, sampleAttempt⟩, true, some ⟨previousCommit, none, none, none, none, none⟩, true, none,
      ⟨true, .returns, .done, .done⟩, 7⟩]

/-- Both releases are broken: the active one is launched again once, then the previous one twice. -/
def sampleCrashes : List Op := crash ++ crash ++ crash ++ crash

theorem sampleHost_phase : Phase True sampleHost.supervisor :=
  .running sampleChild rfl rfl rfl rfl fun _ => rfl

theorem sampleCrashes_undisturbed : ∀ op ∈ sampleCrashes, op.Undisturbed := by
  intro op inside
  simp only [sampleCrashes, crash, List.mem_append, List.mem_cons, List.not_mem_nil, or_false, or_assoc] at inside
  rcases inside with rfl | rfl | rfl | rfl | rfl | rfl | rfl | rfl
  all_goals simp [Op.Undisturbed, CrashLoop.Undisturbed, sampleAttempt]

theorem crash_loop_terminates_sample :
    (Run.exec (step sampleSettings) sampleHost sampleCrashes).spawns = 3 ∧
      Ended True (Run.exec (step sampleSettings) sampleHost sampleCrashes).supervisor := by
  have loop := crash_loop_terminates sampleSettings sampleHost rfl sampleHost_phase sampleCrashes
    sampleCrashes_undisturbed
  exact ⟨by decide +kernel, loop.2.2.1 (by decide +kernel) (by decide +kernel)⟩

end Samples

end OpenTulpa.Host.CrashLoop
