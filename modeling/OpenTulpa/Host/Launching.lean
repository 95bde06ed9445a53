import OpenTulpa.Host.RuntimeSupervisor

/-! How the stop of a child and the launch of one can end. A launch that fails after its
process was created stops it again; the process is lost when even its descendants could not be
enumerated, and abandoned when the stop itself is cancelled. -/

namespace OpenTulpa.Host.Launching

open Library RuntimeSupervisor

/-- The fields that launching and stopping a child leave alone. -/
def frame (s : Supervisor) :
    Option RuntimeLiveSourceSpec × Nat × Bool × Option HostConfig × Option RuntimeLiveSourceSpec × Bool × Nat ×
      List Nat :=
  (s.selectedLiveSource, s.selectionVersion, s.desiredRunning, s.desiredConfig, s.desiredTarget, s.ownershipChecked,
    s.unexpectedRestarts, s.failing)

structure Framed (s after : Supervisor) : Prop where
  same : frame after = frame s
  watcher : after.watcher = s.watcher ∨ (after.watcher = none ∧ ∃ launchNonce, s.watcher = some (.waiting launchNonce))

section Framed

variable {s after : Supervisor}

theorem Framed.refl (s : Supervisor) : Framed s s := ⟨rfl, Or.inl rfl⟩

theorem Framed.trans {middle : Supervisor} (first : Framed s middle) (second : Framed middle after) :
    Framed s after where
  same := second.same.trans first.same
  watcher := by
    rcases second.watcher with same | ⟨gone, waited⟩
    · rw [same]
      exact first.watcher
    · rcases first.watcher with same | ⟨_, waits⟩
      · exact Or.inr ⟨gone, same ▸ waited⟩
      · exact Or.inr ⟨gone, waits⟩

/-- Changing anything else keeps the frame. -/
theorem Framed.update {changed : Supervisor} (framed : Framed s after) (same : frame changed = frame after)
    (watcher : changed.watcher = after.watcher) : Framed s changed :=
  framed.trans ⟨same, Or.inl watcher⟩

theorem Framed.selected (framed : Framed s after) : after.selectedLiveSource = s.selectedLiveSource :=
  congrArg Prod.fst framed.same

theorem Framed.version (framed : Framed s after) : after.selectionVersion = s.selectionVersion :=
  congrArg (fun fields => fields.2.1) framed.same

theorem Framed.running (framed : Framed s after) : after.desiredRunning = s.desiredRunning :=
  congrArg (fun fields => fields.2.2.1) framed.same

theorem Framed.config (framed : Framed s after) : after.desiredConfig = s.desiredConfig :=
  congrArg (fun fields => fields.2.2.2.1) framed.same

theorem Framed.target (framed : Framed s after) : after.desiredTarget = s.desiredTarget :=
  congrArg (fun fields => fields.2.2.2.2.1) framed.same

theorem Framed.checked (framed : Framed s after) : after.ownershipChecked = s.ownershipChecked :=
  congrArg (fun fields => fields.2.2.2.2.2.1) framed.same

theorem Framed.restarts (framed : Framed s after) : after.unexpectedRestarts = s.unexpectedRestarts :=
  congrArg (fun fields => fields.2.2.2.2.2.2.1) framed.same

theorem Framed.failing (framed : Framed s after) : after.failing = s.failing :=
  congrArg (fun fields => fields.2.2.2.2.2.2.2) framed.same

theorem Framed.unwatched (framed : Framed s after) (gone : s.watcher = none) : after.watcher = none := by
  rcases framed.watcher with same | ⟨none, _⟩
  · exact same.trans gone
  · exact none

end Framed

/-- The child as `self._child` shows it once its stop is requested. -/
def requested (launchNonce : Nat) (child : Child) : Child :=
  if child.launchNonce = launchNonce then { child with requestedStop := true } else child

@[simp] theorem requested_config (launchNonce : Nat) (child : Child) :
    (requested launchNonce child).config = child.config := by
  unfold requested
  split <;> rfl

@[simp] theorem requested_liveSource (launchNonce : Nat) (child : Child) :
    (requested launchNonce child).liveSource = child.liveSource := by
  unfold requested
  split <;> rfl

@[simp] theorem requested_launchNonce (launchNonce : Nat) (child : Child) :
    (requested launchNonce child).launchNonce = child.launchNonce := by
  unfold requested
  split <;> rfl

theorem clearFile_file (step : FileStep) (launchNonce : Nat) (file : Option Nat) :
    (clearFile step launchNonce file).2 = file ∨ file = some launchNonce := by
  unfold clearFile
  split
  · exact Or.inl rfl
  · rename_i holder
    by_cases own : holder = launchNonce
    · exact Or.inr (by rw [own])
    · left
      cases step <;> simp [own]

/-- How `_stop_child` ends. -/
inductive Stopped (plan : StopPlan) (child : Child) (s : Supervisor) :
    Except RuntimeError Unit → Supervisor → Prop where
  /-- nothing was signalled -/
  | unenumerated {after : Supervisor} (blind : plan.enumerated = false)
      (status : after.status = .recoveryRequired) (same : after.child = s.child)
      (unproven : after.unproven = s.unproven) (control : after.control = s.control)
      (intent : after.intent = s.intent) :
      Stopped plan child s (.error (.containmentPreflight "runtime stop containment preflight failed")) after
  | interrupted {after : Supervisor} (seen : plan.enumerated = true) (cut : plan.terminated = .cancelled)
      (status : after.status = s.status) (same : after.child = s.child.map (requested child.launchNonce))
      (unproven : after.unproven = s.unproven) (control : after.control = s.control)
      (intent : after.intent = s.intent) :
      Stopped plan child s (.error .cancelled) after
  | unterminated {after : Supervisor} (message : String) (seen : plan.enumerated = true)
      (failed : plan.terminated = .raises message) (status : after.status = .recoveryRequired)
      (same : after.child = (s.child.map (requested child.launchNonce)).or
        (some { child with requestedStop := true }))
      (unproven : after.unproven = s.unproven) (control : after.control = s.control)
      (intent : after.intent = s.intent) :
      Stopped plan child s (.error (.exception message)) after
  | uncleared {after : Supervisor} (message : String) (seen : plan.enumerated = true)
      (terminated : plan.terminated = .returns) (status : after.status = s.status)
      (same : after.child = s.child.map (requested child.launchNonce))
      (unproven : after.unproven = s.unproven.filter (· != child.launchNonce))
      (stuck : (clearFile plan.clearRecord child.launchNonce s.control).1 ≠ .ok () ∨
        (clearFile plan.clearIntent child.launchNonce s.intent).1 ≠ .ok ()) :
      Stopped plan child s (.error (.exception message)) after
  | stopped {after : Supervisor} (seen : plan.enumerated = true) (terminated : plan.terminated = .returns)
      (status : after.status = s.status) (same : after.child = s.child.map (requested child.launchNonce))
      (unproven : after.unproven = s.unproven.filter (· != child.launchNonce))
      (record : (clearFile plan.clearRecord child.launchNonce s.control).1 = .ok ())
      (intent : (clearFile plan.clearIntent child.launchNonce s.intent).1 = .ok ()) :
      Stopped plan child s (.ok ()) after

/-- After a stop that went through, the supervisor can drop the child. -/
theorem Stopped.released {stop : StopPlan} {child : Child} {s after : Supervisor} (held : s.child = some child)
    (ended : Stopped stop child s (.ok ()) after) :
    after.child.filter (fun now => now.launchNonce != child.launchNonce) = none := by
  cases ended with
  | stopped seen terminated status same =>
    rw [same, held]
    simp [Option.filter]

theorem clearFile_error {step : FileStep} {launchNonce : Nat} {file : Option Nat} {error : RuntimeError}
    (raised : (clearFile step launchNonce file).1 = .error error) : ∃ message, error = .exception message := by
  unfold clearFile at raised
  split at raised
  · cases raised
  · split at raised
    · cases raised
      exact ⟨_, rfl⟩
    · cases raised
    · split at raised
      · cases raised
        exact ⟨_, rfl⟩
      · cases raised

theorem stopChild_spec (settings : Settings) (plan : StopPlan) (child : Child) (s : Supervisor) :
    Action.Ends (stopChild settings plan child) s fun outcome after =>
      Framed s after ∧ after.launches = s.launches ∧ Stopped plan child s outcome after := by
  unfold stopChild
  cases seen : plan.enumerated with
  | false => exact ⟨⟨rfl, Or.inl rfl⟩, rfl, .unenumerated seen rfl rfl rfl rfl rfl⟩
  | true =>
    simp only [Bool.not_true, Bool.false_eq_true, if_false]
    apply Action.ends_bind_modify
    apply Action.ends_bind_modify
    have framed : Framed s { s with
        child := s.child.map (requested child.launchNonce)
        watcher := if s.watcher = some (.waiting child.launchNonce) then none else s.watcher } :=
      ⟨rfl, by
        simp only
        split
        · rename_i waits
          exact Or.inr ⟨rfl, _, waits⟩
        · exact Or.inl rfl⟩
    cases ended : plan.terminated with
    | cancelled => exact ⟨framed.update rfl rfl, rfl, .interrupted seen ended rfl rfl rfl rfl rfl⟩
    | raises message =>
      exact ⟨framed.update rfl rfl, rfl, .unterminated message seen ended rfl rfl rfl rfl rfl⟩
    | returns =>
      apply Action.ends_bind_modify
      apply Action.ends_bind
      unfold removeOwnershipRecord Action.Ends Action.run
      cases record : (clearFile plan.clearRecord child.launchNonce s.control).1 with
      | error error =>
        obtain ⟨message, rfl⟩ := clearFile_error record
        exact ⟨framed.update rfl rfl, rfl, .uncleared message seen ended rfl rfl rfl (Or.inl (by simp [record]))⟩
      | ok value =>
        unfold removeLaunchIntent
        cases intent : (clearFile plan.clearIntent child.launchNonce s.intent).1 with
        | error error =>
          obtain ⟨message, rfl⟩ := clearFile_error intent
          exact ⟨framed.update rfl rfl, rfl, .uncleared message seen ended rfl rfl rfl (Or.inr (by simp [intent]))⟩
        | ok value => exact ⟨framed.update rfl rfl, rfl, .stopped seen ended rfl rfl rfl record intent⟩

/-- The stop of a child that owns the ownership record goes through. -/
def Contains (plan : StopPlan) : Prop :=
  plan.enumerated = true ∧ plan.terminated = .returns ∧ plan.clearRecord = .done

/-- The process exists and its identity was captured by the caller. -/
def Created (plan : AttemptPlan) : Prop :=
  plan.port = true ∧ plan.interpreter = true ∧ plan.checkout = .returns ∧ plan.writeIntent = .done ∧
    plan.create = .returns

/-- The process is recorded, and its readiness is awaited. -/
def Recorded (plan : AttemptPlan) : Prop :=
  Created plan ∧ plan.identified = true ∧ plan.writeRecord = .done ∧ plan.removeIntent = .done

def Readies (plan : AttemptPlan) : Prop := Recorded plan ∧ plan.readiness = .ready

/-- The attempt ends by its cancellation, with nothing of it left. -/
def Halts (plan : AttemptPlan) : Prop :=
  (plan.port = true ∧ plan.interpreter = true ∧ plan.checkout = .cancelled) ∨
    (Recorded plan ∧ plan.readiness = .cancelled ∧ Contains plan.cleanup)

/-- The child exits before it is ready and is cleaned up, so that the launch may be tried again. -/
def Exits (plan : AttemptPlan) : Prop :=
  Recorded plan ∧ (∃ message, plan.readiness = .exited message) ∧ Contains plan.cleanup

/-- The child fails and cannot be stopped, because its descendants cannot be enumerated. -/
def Loses (plan : AttemptPlan) : Prop := Created plan ∧ ¬ Readies plan ∧ plan.cleanup.enumerated = false

/-- The child fails and the termination of its process group is cancelled. -/
def Abandons (plan : AttemptPlan) : Prop :=
  Created plan ∧ ¬ Readies plan ∧ plan.cleanup.enumerated = true ∧ plan.cleanup.terminated = .cancelled

/-- The attempt is cancelled while the process is being created. -/
def Uncaptured (plan : AttemptPlan) : Prop :=
  plan.port = true ∧ plan.interpreter = true ∧ plan.checkout = .returns ∧ plan.writeIntent = .done ∧
    plan.create = .cancelled

/-- The process may still run when the attempt is over. -/
def Leaves (plan : AttemptPlan) : Prop :=
  Uncaptured plan ∨
    (Created plan ∧ ¬ Readies plan ∧ ¬ (plan.cleanup.enumerated = true ∧ plan.cleanup.terminated = .returns))

theorem Loses.leaves {plan : AttemptPlan} (loses : Loses plan) : Leaves plan :=
  Or.inr ⟨loses.1, loses.2.1, fun seen => by simp [loses.2.2] at seen⟩

theorem Abandons.leaves {plan : AttemptPlan} (abandons : Abandons plan) : Leaves plan :=
  Or.inr ⟨abandons.1, abandons.2.1, fun seen => by simp [abandons.2.2.2] at seen⟩

theorem Leaves.unready {plan : AttemptPlan} (leaves : Leaves plan) : ¬ Readies plan := by
  rcases leaves with ⟨_, _, _, _, cancelled⟩ | ⟨_, unready, _⟩
  · rintro ⟨recorded, _⟩
    rw [recorded.1.2.2.2.2] at cancelled
    cases cancelled
  · exact unready

theorem Halts.unready {plan : AttemptPlan} (halts : Halts plan) : ¬ Readies plan := by
  rintro ⟨recorded, ready⟩
  rcases halts with ⟨_, _, cancelled⟩ | ⟨_, cancelled, _⟩
  · rw [recorded.1.2.2.1] at cancelled
    cases cancelled
  · rw [ready] at cancelled
    cases cancelled

/-- How a launch ends. `Vacant` says that there was no child before it, and `Idle` that nothing
was left unproven. -/
inductive Launched (plan : AttemptPlan) (config : HostConfig) (source : RuntimeLiveSourceSpec)
    (Vacant Idle : Prop) : Except RuntimeError Child → Supervisor → Prop where
  | ready {child : Child} {after : Supervisor} (up : Readies plan) (own : child.config = config)
      (target : child.liveSource = source) (quiet : child.requestedStop = false) (none : Vacant → after.child = none) (status : after.status = .ready)
      (unproven : Idle → after.unproven = [child.launchNonce]) (control : after.control = some child.launchNonce)
      (intent : after.intent = Option.none) : Launched plan config source Vacant Idle (.ok child) after
  | halted {after : Supervisor} (halts : Halts plan) (none : Vacant → after.child = none)
      (status : after.status = .starting) (unproven : Idle → after.unproven = []) :
      Launched plan config source Vacant Idle (.error .cancelled) after
  | unresolved {after : Supervisor} (halts : ¬ Halts plan) (exits : ¬ Exits plan) (uncaptured : Uncaptured plan)
      (none : Vacant → after.child = none) (status : after.status = .recoveryRequired)
      (unproven : Idle → ∃ n, after.unproven = [n] ∧ (after.control = some n ∨ after.intent = some n)) :
      Launched plan config source Vacant Idle (.error .cancelled) after
  | abandoned {after : Supervisor} (halts : ¬ Halts plan) (abandons : Abandons plan)
      (none : Vacant → after.child = none) : Launched plan config source Vacant Idle (.error .cancelled) after
  | failed {error : RuntimeError} {after : Supervisor} (raised : error ≠ .cancelled) (unready : ¬ Readies plan)
      (halts : ¬ Halts plan) (exits : (∃ message, error = .exitedBeforeReady message) ↔ Exits plan)
      (none : Vacant → after.child = none) (unproven : Idle → after.unproven = []) :
      Launched plan config source Vacant Idle (.error error) after
  | kept {message : String} (child : Child) {after : Supervisor} (halts : ¬ Halts plan) (exits : ¬ Exits plan)
      (leaves : Leaves plan) (own : child.config = config) (target : child.liveSource = source)
      (some : Vacant → after.child = some child) (status : after.status = .recoveryRequired)
      (unproven : Idle → after.unproven = [child.launchNonce]) :
      Launched plan config source Vacant Idle (.error (.exception message)) after
  | lost {error : RuntimeError} {after : Supervisor} (raised : error ≠ .cancelled) (halts : ¬ Halts plan)
      (exits : ¬ Exits plan) (retry : ∀ message, error ≠ .exitedBeforeReady message) (loses : Loses plan)
      (none : Vacant → after.child = none) (status : after.status = .recoveryRequired)
      (unproven : Idle → ∃ n, after.unproven = [n] ∧ (after.control = some n ∨ after.intent = some n)) :
      Launched plan config source Vacant Idle (.error error) after

theorem clearFile_own {step : FileStep} {launchNonce : Nat}
    (done : (clearFile step launchNonce (some launchNonce)).1 = .ok ()) : step = .done := by
  cases step <;> simp [clearFile] at done ⊢

section Attempt

variable {settings : Settings} {plan : AttemptPlan} {config : HostConfig} {source : RuntimeLiveSourceSpec}

/-- The handler after a failure of a created child. -/
theorem failCreated_launched {launchNonce : Nat} {error : RuntimeError} {s : Supervisor} (created : Created plan)
    (raised : error ≠ .cancelled) (unready : ¬ Readies plan) (halts : ¬ Halts plan)
    (exits : ∀ message, error = .exitedBeforeReady message →
      Recorded plan ∧ plan.readiness = .exited message ∧ s.control = some launchNonce)
    (retries : Exits plan → (∃ message, error = .exitedBeforeReady message) ∧ s.control = some launchNonce ∧
      s.intent = none)
    (files : s.control = some launchNonce ∨ s.intent = some launchNonce) :
    Action.Ends (failCreated settings plan.cleanup ⟨config, source, launchNonce, false⟩ error) s
      fun outcome after => Framed s after ∧ after.launches = s.launches ∧
        Launched plan config source (s.child = none) (s.unproven = [launchNonce]) outcome after := by
  unfold failCreated
  apply Action.ends_bind
  apply Action.ends_handle
  refine (stopChild_spec settings plan.cleanup ⟨config, source, launchNonce, false⟩ s).mono ?_
  rintro outcome after ⟨framed, launches, ended⟩
  cases ended with
  | unenumerated blind status same unproven control intent =>
    simp only
    refine Action.ends_bind_modify (Action.ends_raise ⟨framed.update rfl rfl, launches,
      .lost (by simp) halts ?_ (by simp) ⟨created, unready, blind⟩ same.trans rfl fun idle =>
        ⟨launchNonce, unproven.trans idle, ?_⟩⟩)
    · rintro ⟨_, _, seen, _⟩
      rw [blind] at seen
      cases seen
    · rcases files with owned | intended
      · exact Or.inl (control.trans owned)
      · exact Or.inr (intent.trans intended)
  | interrupted seen cut status same unproven control intent =>
    refine ⟨framed, launches, .abandoned halts ⟨created, unready, seen, cut⟩ fun none => ?_⟩
    rw [none] at same
    exact same
  | unterminated message seen failed status same unproven control intent =>
    simp only
    refine Action.ends_bind_modify (Action.ends_raise ⟨framed.update rfl rfl, launches,
      .kept ⟨config, source, launchNonce, true⟩ halts ?_ (Or.inr ⟨created, unready, by simp [failed]⟩) rfl rfl
        (fun none => ?_) rfl fun idle => unproven.trans idle⟩)
    · rintro ⟨_, _, _, returned, _⟩
      rw [failed] at returned
      cases returned
    · rw [none] at same
      exact same
  | uncleared message seen terminated status same unproven stuck =>
    simp only
    refine Action.ends_bind_modify (Action.ends_raise ⟨framed.update rfl rfl, launches,
      .failed (by simp) unready halts ⟨by simp, fun contained => ?_⟩ (fun none => by rw [none] at same; exact same) fun idle => ?_⟩)
    · obtain ⟨_, owned, unintended⟩ := retries contained
      obtain ⟨_, _, _, _, cleared⟩ := contained
      rw [owned, unintended, cleared] at stuck
      simp [clearFile] at stuck
    · rw [idle] at unproven
      simpa using unproven
  | stopped seen terminated status same unproven record intent =>
    unfold failLaunch
    refine Action.ends_bind_modify (Action.ends_raise ⟨framed.update rfl rfl, launches,
      .failed raised unready halts ⟨?_, fun contained => (retries contained).1⟩ (fun none => by rw [none] at same; exact same)
        fun idle => ?_⟩)
    · rintro ⟨message, rfl⟩
      obtain ⟨recorded, exited, owned⟩ := exits message rfl
      rw [owned] at record
      exact ⟨recorded, ⟨message, exited⟩, seen, terminated, clearFile_own record⟩
    · rw [idle] at unproven
      simpa using unproven

theorem run_removeLaunchIntent {step : FileStep} {launchNonce : Nat} {s : Supervisor}
    {outcome : Except RuntimeError Unit} {left : Option Nat}
    (cleared : clearFile step launchNonce s.intent = (outcome, left)) :
    (removeLaunchIntent step launchNonce).run s = (outcome, { s with intent := left }) := by
  simp only [removeLaunchIntent, Action.run, cleared]

/-- How far a created process gets before its readiness is known. -/
inductive Waited (plan : AttemptPlan) (launchNonce : Nat) : Except RuntimeError Unit → Supervisor → Prop where
  | unrecorded {error : RuntimeError} {after : Supervisor} (message : String) (raised : error = .exception message)
      (early : ¬ Recorded plan) (files : after.control = some launchNonce ∨ after.intent = some launchNonce) :
      Waited plan launchNonce (.error error) after
  | recorded {outcome : Except RuntimeError Unit} {after : Supervisor} (recorded : Recorded plan)
      (control : after.control = some launchNonce) (intent : after.intent = none)
      (waited : outcome = match plan.readiness with
        | .ready => .ok ()
        | .exited message => .error (.exitedBeforeReady message)
        | .raises message => .error (.exception message)
        | .cancelled => .error .cancelled) : Waited plan launchNonce outcome after

theorem recordAndWait_waited {child : Child} {s : Supervisor} (created : Created plan)
    (intent : s.intent = some child.launchNonce) :
    Action.Ends (recordAndWait plan child) s fun outcome after =>
      Framed s after ∧ after.launches = s.launches ∧ after.unproven = s.unproven ∧ after.child = s.child ∧
        after.status = s.status ∧ Waited plan child.launchNonce outcome after := by
  unfold recordAndWait
  cases known : plan.identified with
  | false =>
    refine Action.ends_raise ⟨.refl s, rfl, rfl, rfl, rfl, .unrecorded _ rfl ?_ (Or.inr intent)⟩
    rintro ⟨_, identified, _⟩
    rw [known] at identified
    cases identified
  | true =>
    simp only [Bool.not_true, Bool.false_eq_true, if_false]
    apply Action.ends_bind
    unfold writeOwnershipRecord
    cases written : plan.writeRecord with
    | undone message =>
      refine Action.ends_raise ⟨.refl s, rfl, rfl, rfl, rfl, .unrecorded message rfl ?_ (Or.inr intent)⟩
      rintro ⟨_, _, record, _⟩
      rw [written] at record
      cases record
    | unsynced message =>
      refine ⟨(Framed.refl s).update rfl rfl, rfl, rfl, rfl, rfl, .unrecorded message rfl ?_ (Or.inl rfl)⟩
      rintro ⟨_, _, record, _⟩
      rw [written] at record
      cases record
    | done =>
      apply Action.ends_modify
      apply Action.ends_bind
      have moved : Framed s { s with control := some child.launchNonce, intent := none } := ⟨rfl, Or.inl rfl⟩
      cases removed : plan.removeIntent with
      | undone message =>
        have cleared : clearFile (.undone message) child.launchNonce s.intent =
            (.error (.exception message), some child.launchNonce) := by rw [intent]; rfl
        refine Action.ends_of_run (run_removeLaunchIntent cleared) ⟨moved.update rfl rfl, rfl, rfl, rfl, rfl,
          .unrecorded message rfl ?_ (Or.inl rfl)⟩
        rintro ⟨_, _, _, gone⟩
        rw [removed] at gone
        cases gone
      | unsynced message =>
        have cleared : clearFile (.unsynced message) child.launchNonce s.intent =
            (.error (.exception message), none) := by rw [intent]; simp [clearFile]
        refine Action.ends_of_run (run_removeLaunchIntent cleared) ⟨moved, rfl, rfl, rfl, rfl,
          .unrecorded message rfl ?_ (Or.inl rfl)⟩
        rintro ⟨_, _, _, gone⟩
        rw [removed] at gone
        cases gone
      | done =>
        have cleared : clearFile .done child.launchNonce s.intent = (.ok (), none) := by
          rw [intent]
          simp [clearFile]
        have recorded : Recorded plan := ⟨created, known, written, removed⟩
        refine Action.ends_of_run (run_removeLaunchIntent cleared) ?_
        cases waited : plan.readiness with
        | ready => exact Action.ends_pure ⟨moved, rfl, rfl, rfl, rfl, .recorded recorded rfl rfl (by rw [waited])⟩
        | exited message =>
          exact Action.ends_raise ⟨moved, rfl, rfl, rfl, rfl, .recorded recorded rfl rfl (by rw [waited])⟩
        | raises message =>
          exact Action.ends_raise ⟨moved, rfl, rfl, rfl, rfl, .recorded recorded rfl rfl (by rw [waited])⟩
        | cancelled =>
          exact Action.ends_raise ⟨moved, rfl, rfl, rfl, rfl, .recorded recorded rfl rfl (by rw [waited])⟩

/-- The same launch, told from an earlier state. -/
theorem Launched.earlier {Vacant Idle WasVacant WasIdle : Prop} {outcome : Except RuntimeError Child}
    {after : Supervisor} (launched : Launched plan config source Vacant Idle outcome after)
    (vacant : WasVacant → Vacant) (idle : WasIdle → Idle) :
    Launched plan config source WasVacant WasIdle outcome after := by
  cases launched with
  | ready up own target quiet none status unproven control intent =>
    exact .ready up own target quiet (none ∘ vacant) status (unproven ∘ idle) control intent
  | halted halts none status unproven => exact .halted halts (none ∘ vacant) status (unproven ∘ idle)
  | unresolved halts exits uncaptured none status unproven =>
    exact .unresolved halts exits uncaptured (none ∘ vacant) status (unproven ∘ idle)
  | abandoned halts abandons none => exact .abandoned halts abandons (none ∘ vacant)
  | failed raised unready halts exits none unproven =>
    exact .failed raised unready halts exits (none ∘ vacant) (unproven ∘ idle)
  | kept child halts exits leaves own target some status unproven =>
    exact .kept child halts exits leaves own target (some ∘ vacant) status (unproven ∘ idle)
  | lost raised halts exits retry loses none status unproven =>
    exact .lost raised halts exits retry loses (none ∘ vacant) status (unproven ∘ idle)

/-- The shielded cleanup of a launch that was cancelled while its readiness was awaited. -/
theorem cancelledCleanup_launched {launchNonce : Nat} {s : Supervisor} (recorded : Recorded plan)
    (waited : plan.readiness = .cancelled) (status : s.status = .starting)
    (control : s.control = some launchNonce) (intent : s.intent = .none) :
    Action.Ends (do
      stopChild settings plan.cleanup ⟨config, source, launchNonce, false⟩
      Action.raise .cancelled : Act Child) s fun outcome after =>
      Framed s after ∧ after.launches = s.launches ∧
        Launched plan config source (s.child = none) (s.unproven = [launchNonce]) outcome after := by
  have unready : ¬ Readies plan := by
    rintro ⟨_, ready⟩
    rw [waited] at ready
    cases ready
  have exits : ¬ Exits plan := by
    rintro ⟨_, ⟨_, exited⟩, _⟩
    rw [waited] at exited
    cases exited
  have halting : Halts plan → Contains plan.cleanup := by
    rintro (⟨_, _, early⟩ | ⟨_, _, contained⟩)
    · rw [recorded.1.2.2.1] at early
      cases early
    · exact contained
  apply Action.ends_bind
  refine (stopChild_spec settings plan.cleanup ⟨config, source, launchNonce, false⟩ s).mono ?_
  rintro outcome after ⟨framed, launches, ended⟩
  cases ended with
  | unenumerated blind failed same unproven owned intended =>
    refine ⟨framed, launches, .lost (by simp) ?_ exits (by simp) ⟨recorded.1, unready, blind⟩ same.trans
      failed fun idle => ⟨launchNonce, unproven.trans idle, Or.inl (owned.trans control)⟩⟩
    intro halts
    have seen := (halting halts).1
    rw [blind] at seen
    cases seen
  | interrupted seen cut still same unproven owned intended =>
    refine ⟨framed, launches, .abandoned ?_ ⟨recorded.1, unready, seen, cut⟩ (fun none => by rw [none] at same; exact same)⟩
    intro halts
    have returned := (halting halts).2.1
    rw [cut] at returned
    cases returned
  | unterminated message seen failed recovery same unproven owned intended =>
    refine ⟨framed, launches, .kept ⟨config, source, launchNonce, true⟩ ?_ exits
      (Or.inr ⟨recorded.1, unready, by simp [failed]⟩) rfl rfl (fun none => by rw [none] at same; exact same) recovery fun idle => unproven.trans idle⟩
    intro halts
    have returned := (halting halts).2.1
    rw [failed] at returned
    cases returned
  | uncleared message seen terminated still same unproven stuck =>
    refine ⟨framed, launches, .failed (by simp) unready ?_ ⟨by simp, fun contained => absurd contained exits⟩
      (fun none => by rw [none] at same; exact same) fun idle => by rw [idle] at unproven; simpa using unproven⟩
    intro halts
    rw [control, intent, (halting halts).2.2] at stuck
    simp [clearFile] at stuck
  | stopped seen terminated still same unproven record cleared =>
    rw [control] at record
    refine Action.ends_raise ⟨framed, launches, .halted (Or.inr ⟨recorded, waited, seen, terminated,
      clearFile_own record⟩) (fun none => by rw [none] at same; exact same) (still.trans status) fun idle => ?_⟩
    rw [idle] at unproven
    simpa using unproven

/-- From the created process on. -/
theorem awaitReady_launched {launchNonce : Nat} {s : Supervisor} (created : Created plan)
    (status : s.status = .starting) (intent : s.intent = some launchNonce) :
    Action.Ends (awaitReady settings plan ⟨config, source, launchNonce, false⟩) s fun outcome after =>
      Framed s after ∧ after.launches = s.launches ∧
        Launched plan config source (s.child = none) (s.unproven = [launchNonce]) outcome after := by
  have early : ¬ (plan.port = true ∧ plan.interpreter = true ∧ plan.checkout = .cancelled) := by
    rintro ⟨_, _, cancelled⟩
    rw [created.2.2.1] at cancelled
    cases cancelled
  unfold awaitReady
  apply Action.ends_bind_attempt
  refine (recordAndWait_waited created intent).mono ?_
  rintro outcome waiting ⟨framed, launches, unproven, same, still, waited⟩
  rw [status] at still
  rw [← unproven, ← same]
  -- what the cleanup does is told from the state in which it starts
  have onward : ∀ {action : Act Child}, Action.Ends action waiting (fun outcome after =>
      Framed waiting after ∧ after.launches = waiting.launches ∧
        Launched plan config source (waiting.child = none) (waiting.unproven = [launchNonce]) outcome after) →
      Action.Ends action waiting fun outcome after =>
        Framed s after ∧ after.launches = s.launches ∧
          Launched plan config source (waiting.child = none) (waiting.unproven = [launchNonce]) outcome after := fun ends =>
    ends.mono fun _ _ ⟨later, kept, launched⟩ => ⟨framed.trans later, kept.trans launches, launched⟩
  cases waited with
  | unrecorded message raised unrecorded files =>
    subst raised
    refine onward (failCreated_launched created (by simp) (fun ready => unrecorded ready.1) ?_ (by simp)
      (fun exits => absurd exits.1 unrecorded) files)
    rintro (cancelled | ⟨recorded, _⟩)
    · exact early cancelled
    · exact unrecorded recorded
  | recorded recorded control cleared waited =>
    cases readiness : plan.readiness with
    | ready =>
      rw [readiness] at waited
      subst waited
      exact ⟨framed.update rfl rfl, launches, .ready ⟨recorded, readiness⟩ rfl rfl rfl (fun none => none) rfl (fun idle => idle)
        control cleared⟩
    | exited message =>
      rw [readiness] at waited
      subst waited
      refine onward (failCreated_launched created (by simp) ?_ ?_ ?_ ?_ (Or.inl control))
      · rintro ⟨_, ready⟩
        rw [readiness] at ready
        cases ready
      · rintro (cancelled | ⟨_, cancelled, _⟩)
        · exact early cancelled
        · rw [readiness] at cancelled
          cases cancelled
      · rintro _ ⟨rfl⟩
        exact ⟨recorded, readiness, control⟩
      · exact fun _ => ⟨⟨message, rfl⟩, control, cleared⟩
    | raises message =>
      rw [readiness] at waited
      subst waited
      refine onward (failCreated_launched created (by simp) ?_ ?_ (by simp) ?_ (Or.inl control))
      · rintro ⟨_, ready⟩
        rw [readiness] at ready
        cases ready
      · rintro (cancelled | ⟨_, cancelled, _⟩)
        · exact early cancelled
        · rw [readiness] at cancelled
          cases cancelled
      · rintro ⟨_, ⟨_, exited⟩, _⟩
        rw [readiness] at exited
        cases exited
    | cancelled =>
      rw [readiness] at waited
      subst waited
      exact onward (cancelledCleanup_launched recorded readiness still control cleared)

/-- A launch that ends before the process is created. -/
theorem failed_early {error : RuntimeError} {after : Supervisor} {Vacant Idle : Prop} (message : String)
    (raised : error = .exception message) (uncreated : ¬ Created plan)
    (running : ¬ (plan.port = true ∧ plan.interpreter = true ∧ plan.checkout = .cancelled))
    (none : Vacant → after.child = none) (unproven : Idle → after.unproven = []) :
    Launched plan config source Vacant Idle (.error error) after := by
  subst raised
  refine .failed (by simp) (fun ready => uncreated ready.1.1) ?_
    ⟨by simp, fun exits => absurd exits.1.1 uncreated⟩ none unproven
  rintro (cancelled | ⟨recorded, _⟩)
  · exact running cancelled
  · exact uncreated recorded.1

/-- Every launch so far found nothing unproven. -/
def Clean (launches : List Launch) : Prop := ∀ launch ∈ launches, launch.unproven = []

theorem Clean.concat {launches : List Launch} {launchNonce : Nat} (clean : Clean launches) :
    Clean (launches ++ [⟨launchNonce, []⟩]) := by
  intro launch member
  rcases List.mem_append.mp member with old | new
  · exact clean launch old
  · rw [List.mem_singleton.mp new]

theorem spawnLiveSourceAttempt_launched (s : Supervisor) :
    Action.Ends (spawnLiveSourceAttempt settings plan config source) s fun outcome after =>
      Framed s after ∧ (s.unproven = [] → Clean s.launches → Clean after.launches) ∧
        Launched plan config source (s.child = none) (s.unproven = []) outcome after := by
  unfold spawnLiveSourceAttempt
  cases port : plan.port with
  | false =>
    exact Action.ends_raise ⟨.refl s, fun _ clean => clean, failed_early _ rfl (fun created => by
      simpa [port] using created.1) (fun running => by simpa [port] using running.1) (fun none => none) fun idle => idle⟩
  | true =>
    simp only [Bool.not_true, Bool.false_eq_true, if_false]
    apply Action.ends_bind_read
    apply Action.ends_bind_modify
    have begun : Framed s { s with status := .starting, error := .none, nextNonce := s.nextNonce + 1 } :=
      ⟨rfl, Or.inl rfl⟩
    cases found : plan.interpreter with
    | false =>
      exact Action.ends_raise ⟨begun, fun _ clean => clean, failed_early _ rfl (fun created => by
        simpa [found] using created.2.1) (fun running => by simpa [found] using running.2.1) (fun none => none) fun idle => idle⟩
    | true =>
      simp only [Bool.not_true, Bool.false_eq_true, if_false]
      cases checkout : plan.checkout with
      | cancelled =>
        exact Action.ends_raise ⟨begun, fun _ clean => clean,
          .halted (Or.inl ⟨port, found, checkout⟩) (fun none => none) rfl fun idle => idle⟩
      | raises message =>
        exact ⟨begun.update rfl rfl, fun _ clean => clean, failed_early message rfl (fun created => by
          simpa [checkout] using created.2.2.1) (fun running => by simpa [checkout] using running.2.2) (fun none => none)
          fun idle => idle⟩
      | returns =>
        have running : ¬ (plan.port = true ∧ plan.interpreter = true ∧ plan.checkout = .cancelled) := by
          simp [checkout]
        cases written : plan.writeIntent with
        | undone message =>
          exact ⟨begun.update rfl rfl, fun _ clean => clean, failed_early message rfl (fun created => by
            simpa [written] using created.2.2.2.1) running (fun none => none) fun idle => idle⟩
        | unsynced message =>
          exact ⟨begun.update rfl rfl, fun _ clean => clean, failed_early message rfl (fun created => by
            simpa [written] using created.2.2.2.1) running (fun none => none) fun idle => idle⟩
        | done =>
          apply Action.ends_bind_modify
          cases made : plan.create with
          | cancelled =>
            refine ⟨begun.update rfl rfl, fun idle clean => ?_, .unresolved ?_ ?_
              ⟨port, found, checkout, written, made⟩ (fun none => none) rfl fun idle =>
              ⟨s.nextNonce, ?_, Or.inr rfl⟩⟩
            · change Clean (s.launches ++ [⟨s.nextNonce, s.unproven⟩])
              rw [idle]
              exact clean.concat
            · rintro (cancelled | ⟨recorded, _⟩)
              · exact running cancelled
              · simpa [made] using recorded.1.2.2.2.2
            · rintro ⟨recorded, _⟩
              simpa [made] using recorded.1.2.2.2.2
            · change s.unproven ++ [s.nextNonce] = _
              rw [idle]
              rfl
          | raises message =>
            have uncreated : ¬ Created plan := fun created => by simpa [made] using created.2.2.2.2
            apply Action.ends_bind
            unfold removeLaunchIntent Action.Ends Action.run
            cases cleared : (clearFile plan.discardIntent s.nextNonce (some s.nextNonce)).1 with
            | error error =>
              obtain ⟨stuck, rfl⟩ := clearFile_error cleared
              exact ⟨begun.update rfl rfl, fun _ clean => clean, failed_early stuck rfl uncreated running (fun none => none)
                fun idle => idle⟩
            | ok value =>
              exact ⟨begun.update rfl rfl, fun _ clean => clean, failed_early message rfl uncreated running (fun none => none)
                fun idle => idle⟩
          | returns =>
            apply Action.ends_bind_modify
            refine Action.Ends.mono (awaitReady_launched ⟨port, found, checkout, written, made⟩ ?_ ?_) ?_
            · rfl
            · rfl
            rintro outcome after ⟨framed, launches, launched⟩
            refine ⟨⟨framed.same, framed.watcher⟩, fun idle clean => ?_, launched.earlier (fun none => none) fun idle => ?_⟩
            · rw [launches]
              change Clean (s.launches ++ [⟨s.nextNonce, s.unproven⟩])
              rw [idle]
              exact clean.concat
            · change s.unproven ++ [s.nextNonce] = _
              rw [idle]
              rfl

end Attempt

/-- The attempt that decides how a launch ends. -/
def Decides (settings : Settings) (plan : SpawnPlan) (attempt : AttemptPlan) : Prop :=
  (settings.strictRuntimeReadiness = true ∧ Exits plan.first ∧ attempt = plan.second) ∨
    (¬ (settings.strictRuntimeReadiness = true ∧ Exits plan.first) ∧ attempt = plan.first)

theorem Decides.unique {settings : Settings} {plan : SpawnPlan} {one other : AttemptPlan}
    (first : Decides settings plan one) (second : Decides settings plan other) : one = other := by
  rcases first with ⟨strict, exits, rfl⟩ | ⟨stays, rfl⟩ <;> rcases second with ⟨again, retried, rfl⟩ | ⟨never, rfl⟩
  · rfl
  · exact absurd ⟨strict, exits⟩ never
  · exact absurd ⟨again, retried⟩ stays
  · rfl

/-- A child that exits early is launched once more; its process is proven gone by then. -/
theorem spawnTarget_launched {settings : Settings} {plan : SpawnPlan} {config : HostConfig}
    {source : RuntimeLiveSourceSpec} (s : Supervisor) :
    Action.Ends (spawnTarget settings plan config source) s fun outcome after =>
      Framed s after ∧ (s.unproven = [] → Clean s.launches → Clean after.launches) ∧
        ∃ attempt, Decides settings plan attempt ∧
          Launched attempt config source (s.child = none) (s.unproven = []) outcome after := by
  unfold spawnTarget spawnLiveSource
  cases strict : settings.strictRuntimeReadiness with
  | false =>
    refine (spawnLiveSourceAttempt_launched s).mono ?_
    rintro outcome after ⟨framed, clean, launched⟩
    exact ⟨framed, clean, plan.first, Or.inr ⟨by simp [strict], rfl⟩, launched⟩
  | true =>
    simp only [if_true]
    apply Action.ends_handle
    refine (spawnLiveSourceAttempt_launched s).mono ?_
    rintro outcome after ⟨framed, clean, launched⟩
    have stays : ¬ Exits plan.first → Decides settings plan plan.first := fun exits =>
      Or.inr ⟨fun both => exits both.2, rfl⟩
    cases launched with
    | ready up own target quiet none status unproven control intent =>
      refine ⟨framed, clean, plan.first, stays ?_, .ready up own target quiet none status unproven control intent⟩
      rintro ⟨_, ⟨_, exited⟩, _⟩
      rw [up.2] at exited
      cases exited
    | halted halts none status unproven =>
      refine ⟨framed, clean, plan.first, stays ?_, .halted halts none status unproven⟩
      rintro ⟨recorded, ⟨_, exited⟩, _⟩
      rcases halts with ⟨_, _, cancelled⟩ | ⟨_, cancelled, _⟩
      · rw [recorded.1.2.2.1] at cancelled
        cases cancelled
      · rw [cancelled] at exited
        cases exited
    | unresolved halts exits uncaptured none status unproven =>
      exact ⟨framed, clean, plan.first, stays exits, .unresolved halts exits uncaptured none status unproven⟩
    | abandoned halts abandons none =>
      refine ⟨framed, clean, plan.first, stays ?_, .abandoned halts abandons none⟩
      rintro ⟨_, _, _, returned, _⟩
      rw [abandons.2.2.2] at returned
      cases returned
    | @failed error _ raised unready halts exits none unproven =>
      cases error with
      | cancelled => exact absurd rfl raised
      | exitedBeforeReady message =>
        refine (spawnLiveSourceAttempt_launched after).mono ?_
        rintro outcome final ⟨later, still, launched⟩
        exact ⟨framed.trans later, fun idle launches => still (unproven idle) (clean idle launches), plan.second,
          Or.inl ⟨strict, exits.mp ⟨message, rfl⟩, rfl⟩, launched.earlier none unproven⟩
      | containmentPreflight message =>
        refine Action.ends_raise ⟨framed, clean, plan.first, stays fun contained => ?_,
          .failed raised unready halts exits none unproven⟩
        obtain ⟨_, other⟩ := exits.mpr contained
        cases other
      | exception message =>
        refine Action.ends_raise ⟨framed, clean, plan.first, stays fun contained => ?_,
          .failed raised unready halts exits none unproven⟩
        obtain ⟨_, other⟩ := exits.mpr contained
        cases other
    | kept child halts exits leaves own target some status unproven =>
      exact ⟨framed, clean, plan.first, stays exits, .kept child halts exits leaves own target some status unproven⟩
    | @lost error _ raised halts exits retry loses none status unproven =>
      cases error with
      | cancelled => exact absurd rfl raised
      | exitedBeforeReady message => exact absurd rfl (retry message)
      | containmentPreflight message =>
        exact Action.ends_raise ⟨framed, clean, plan.first, stays exits,
          .lost raised halts exits retry loses none status unproven⟩
      | exception message =>
        exact Action.ends_raise ⟨framed, clean, plan.first, stays exits,
          .lost raised halts exits retry loses none status unproven⟩

end OpenTulpa.Host.Launching
