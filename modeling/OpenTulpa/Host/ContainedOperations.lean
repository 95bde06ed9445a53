import OpenTulpa.Host.Containment

/-! Every operation of the supervisor keeps containment, under a condition on what happens to the
launches and stops it makes. -/

namespace OpenTulpa.Host.ContainedOperations

open Library RuntimeSupervisor Launching Lifecycle Containment

section Operations

variable {settings : Settings} {s : Supervisor}

/-- What the launching operations find after their common head. -/
structure Prepared (s : Supervisor) : Prop where
  contained : Contained s
  safe : s.status ≠ .recoveryRequired
  checked : s.ownershipChecked = true

theorem Prepared.launchable (prepared : Prepared s) (vacant : s.child = none) : Launchable s := by
  refine ⟨?_, prepared.contained.clean, prepared.checked⟩
  cases prepared.contained.holding with
  | idle empty => exact empty
  | owned child held => rw [vacant] at held; cases held
  | lost launchNonce gone single status => exact absurd status prepared.safe

theorem Prepared.found (prepared : Prepared s) : s.child.isSome ∨ s.unproven = [] := by
  cases vacant : s.child with
  | none => exact Or.inr (prepared.launchable vacant).idle
  | some child => exact Or.inl rfl

theorem removeOwnershipRecord_kept (step : FileStep) (launchNonce : Nat) :
    Action.Ends (removeOwnershipRecord step launchNonce) s fun _ after => ∃ file, after = { s with control := file } :=
  ⟨_, rfl⟩

theorem removeLaunchIntent_kept (step : FileStep) (launchNonce : Nat) :
    Action.Ends (removeLaunchIntent step launchNonce) s fun _ after => ∃ file, after = { s with intent := file } :=
  ⟨_, rfl⟩

/-- The fencing of an orphan happens only while the supervisor has launched nothing. -/
theorem ensureOrphanFenced_contained {plan : OwnershipPlan} (contained : Contained s) :
    Action.Ends (ensureOrphanFenced plan) s fun outcome after =>
      Contained after ∧ after.child = s.child ∧ (outcome = .ok () → after.ownershipChecked = true) := by
  unfold ensureOrphanFenced
  apply Action.ends_bind_read
  cases checked : s.ownershipChecked with
  | true => exact Action.ends_pure ⟨contained, rfl, fun _ => checked⟩
  | false =>
    have untouched : ¬ (s.unproven ≠ [] ∨ s.watcher.isSome) := fun launched => by
      rw [contained.checked launched] at checked
      cases checked
    simp only [not_or, not_not] at untouched
    obtain ⟨empty, unwatched⟩ := untouched
    have none : s.watcher = none := by simpa using unwatched
    have anyway : ∀ {after : Supervisor}, after.unproven = s.unproven → after.launches = s.launches →
        after.watcher = s.watcher → Contained after := by
      intro after unproven launches watcher
      refine .of_idle (unproven.trans empty) (by rw [launches]; exact contained.clean) ?_ ?_
      · rw [watcher, none]
        simp
      · rw [watcher, none]
        simp
    cases plan.readable with
    | false => exact ⟨anyway rfl rfl rfl, rfl, fun done => by cases done⟩
    | true =>
      simp only [Bool.not_true, Bool.false_eq_true, if_false]
      split
      · exact Action.ends_modify ⟨anyway rfl rfl rfl, rfl, fun _ => rfl⟩
      · exact Action.ends_bind_modify (Action.ends_raise ⟨anyway rfl rfl rfl, rfl, fun done => by cases done⟩)
      · rename_i record _
        split
        · exact Action.ends_bind_modify (Action.ends_raise ⟨anyway rfl rfl rfl, rfl, fun done => by cases done⟩)
        · cases plan.fencing with
          | unavailable message => exact Action.ends_raise ⟨contained, rfl, fun done => by cases done⟩
          | cancelled => exact Action.ends_raise ⟨contained, rfl, fun done => by cases done⟩
          | ambiguous message =>
            exact Action.ends_bind_modify (Action.ends_raise ⟨anyway rfl rfl rfl, rfl, fun done => by cases done⟩)
          | fenced =>
            apply Action.ends_bind
            refine (removeOwnershipRecord_kept plan.clearRecord record).mono ?_
            rintro outcome _ ⟨control, rfl⟩
            cases outcome with
            | error error => exact ⟨anyway rfl rfl rfl, rfl, fun done => by cases done⟩
            | ok value =>
              apply Action.ends_bind
              refine (removeLaunchIntent_kept plan.clearIntent record).mono ?_
              rintro outcome _ ⟨intent, rfl⟩
              cases outcome with
              | error error => exact ⟨anyway rfl rfl rfl, rfl, fun done => by cases done⟩
              | ok value => exact Action.ends_modify ⟨anyway rfl rfl rfl, rfl, fun _ => rfl⟩

theorem prepareLaunch_ends {α : Type} {plan : OwnershipPlan} {next : Unit → Act α}
    {Post : Except RuntimeError α → Supervisor → Prop} (contained : Contained s)
    (refused : ∀ error after, Contained after → Post (.error error) after)
    (goes : ∀ after, Prepared after → after.child = s.child → Action.Ends (next ()) after Post) :
    Action.Ends (prepareLaunch plan >>= next) s Post := by
  unfold prepareLaunch ensureControllerOwnership
  apply Action.ends_bind
  apply Action.ends_bind
  cases plan.ownerLock with
  | false => exact Action.ends_raise (refused _ _ contained)
  | true =>
    refine (ensureOrphanFenced_contained contained).mono ?_
    rintro outcome after ⟨left, same, checked⟩
    cases outcome with
    | error error => exact refused _ _ left
    | ok value =>
      apply Action.ends_lift
      by_cases fenced : after.status = .recoveryRequired
      · simp only [requireLaunchSafe, if_pos fenced]
        exact refused _ _ left
      · simp only [requireLaunchSafe, if_neg fenced]
        exact goes after ⟨left, fenced, checked rfl⟩ same

/-- The slot is empty before a launch: there was no child, or it was drained. -/
theorem vacate_ends {α : Type} {stop : StopPlan} {next : Act α}
    {Post : Except RuntimeError α → Supervisor → Prop} (prepared : Prepared s)
    (refused : ∀ error after, Contained after → Post (.error error) after)
    (goes : ∀ after, Contained after → Launchable after → after.child = none → Action.Ends next after Post) :
    Action.Ends (match s.child with
      | none => next
      | some previous => do
        drainChildForReplacement settings stop previous
        setChild none
        next) s Post := by
  cases held : s.child with
  | none => exact goes s prepared.contained (prepared.launchable held) held
  | some previous =>
    apply Action.ends_bind
    refine (drainChildForReplacement_contained prepared.contained held).mono ?_
    rintro outcome after ⟨framed, left, drained⟩
    cases drained with
    | drained idle =>
      apply Action.ends_bind_modify
      exact goes _ (left.drop idle none) ⟨idle, left.clean, framed.checked.trans prepared.checked⟩ rfl
    | refused message => exact refused _ _ left
    | interrupted seen cut => exact refused _ _ left
    | unterminated message status => exact refused _ _ left
    | stuck message seen returned files idle => exact refused _ _ left

end Operations

/-- The restoration of the previous runtime is launched. -/
def Restores (settings : Settings) (plan : SwitchPlan) : Prop :=
  Fails settings plan.spawn ∨ settings.probation = true ∧ plan.probation ≠ .returns

/-- No stop that the launches of a replacement make is cancelled, and where the candidate fails,
the child of the restoration is not lost. -/
structure SwitchSafe (settings : Settings) (plan : SwitchPlan) : Prop where
  candidate : Unabandoned settings plan.spawn
  restoration : Restores settings plan → Unabandoned settings plan.restore.spawn
  found : ∀ attempt, Decides settings plan.spawn attempt → ¬ Readies attempt → ¬ Halts attempt →
    ∀ restored, Decides settings plan.restore.spawn restored → ¬ Loses restored

section Replacements

variable {settings : Settings} {s : Supervisor} {plan : SwitchPlan}

/-- A failed launch into an empty slot: a restoration may follow unless recovery is asked for. -/
structure Lapsed (settings : Settings) (plan : SpawnPlan) (error : RuntimeError) (after : Supervisor) : Prop where
  contained : Contained after
  onward : after.status ≠ .recoveryRequired → Launchable after ∧ after.child = none
  failed : Fails settings plan
  fails : error ≠ .cancelled → after.status ≠ .recoveryRequired →
    ∃ attempt, Decides settings plan attempt ∧ ¬ Readies attempt ∧ ¬ Halts attempt

theorem spawnTarget_vacant {plan : SpawnPlan} {config : HostConfig} {target : RuntimeLiveSourceSpec}
    (launchable : Launchable s) (vacant : s.child = none) (superseded : Superseded s)
    (unabandoned : Unabandoned settings plan) :
    Action.Ends (spawnTarget settings plan config target) s fun outcome after =>
      match outcome with
      | .ok child => Carried child after ∧ after.child = none ∧ Superseded after
      | .error error => Lapsed settings plan error after := by
  refine (spawnTarget_contained launchable (Or.inl vacant) unabandoned).mono ?_
  rintro outcome after ⟨framed, launched⟩
  cases outcome with
  | ok child => exact ⟨launched.1, launched.2 vacant, superseded.framed framed⟩
  | error error =>
    exact ⟨launched.contained (superseded.framed framed),
      fun calm => ⟨⟨launched.calm calm, launched.clean, launched.checked⟩, launched.vacant vacant calm⟩,
      launched.failed, launched.fails⟩

/-- After a restoration the cancellation is raised again. -/
theorem restoreAfterCancellation_raised {spawn : SpawnPlan} {error : RuntimeError} {stopRequested : Bool}
    {restore : RestorePlan} {config : Option HostConfig} {target : Option RuntimeLiveSourceSpec}
    (lapsed : Lapsed settings spawn error s) (unabandoned : Unabandoned settings restore.spawn) :
    Action.Ends (do
      restoreAfterCancellation settings stopRequested restore config target
      Action.raise .cancelled : Act Unit) s fun _ after => Contained after := by
  apply Action.ends_bind
  refine (restoreAfterCancellation_contained lapsed.contained (fun _ calm => lapsed.onward calm) fun _ =>
    unabandoned).mono ?_
  rintro outcome after restored
  cases outcome with
  | ok value => exact Action.ends_raise restored
  | error error => exact restored

theorem setDesiredRunning_raised {error : RuntimeError} (contained : Contained s) :
    Action.Ends (do
      setDesiredRunning false
      Action.raise error : Act Unit) s fun _ after => Contained after :=
  Action.ends_bind_modify (Action.ends_raise
    (contained.touch rfl (Or.inl rfl) (Nat.le_refl _) (Or.inr rfl) fun recovery => recovery))

theorem replaceConfigLocked_contained {config : HostConfig} {rollback : Option HostConfig}
    {target : RuntimeLiveSourceSpec} {probation : Bool} (prepared : Prepared s) (safe : SwitchSafe settings plan) :
    Action.Ends (replaceConfigLocked settings plan config rollback target probation) s fun _ after =>
      Contained after := by
  unfold replaceConfigLocked
  apply Action.ends_bind_read
  simp only
  split
  · exact Action.ends_raise prepared.contained
  · apply vacate_ends prepared
    · exact fun _ _ left => left
    · intro empty contained launchable vacant
      apply Action.ends_bind_modify
      apply Action.ends_bind_attempt
      refine Action.Ends.mono (spawnTarget_vacant ?_ ?_ ?_ safe.candidate) ?_
      · exact ⟨launchable.idle, launchable.clean, launchable.checked⟩
      · exact vacant
      · exact fun restart waits => Nat.lt_succ_of_le (contained.versions restart waits)
      rintro outcome after launched
      cases outcome with
      | ok candidate =>
        cases probation with
        | true => exact adoptReplacementCandidate_contained launched.1 fun tried failed =>
          safe.restoration (Or.inr ⟨tried, failed⟩)
        | false => exact launched.1.adopt
      | error error =>
        cases error with
        | cancelled => exact restoreAfterCancellation_raised launched (safe.restoration (Or.inl launched.failed))
        | exitedBeforeReady message | containmentPreflight message | exception message =>
          apply Action.ends_bind_read
          split
          · rename_i calm
            simp only [beq_eq_false_iff_ne] at calm
            obtain ⟨launchable, gone⟩ := launched.onward calm
            obtain ⟨attempt, decides, unready, halts⟩ := launched.fails (by simp) calm
            exact restoreAfterFailure_contained launchable launched.contained (Or.inl gone)
              (safe.restoration (Or.inl launched.failed))
              (safe.found attempt decides unready halts)
          · exact setDesiredRunning_raised launched.contained

theorem awaitStep_ends {α : Type} {step : Step} {next : Unit → Act α}
    {Post : Except RuntimeError α → Supervisor → Prop} (refused : ∀ error, Post (.error error) s)
    (goes : Action.Ends (next ()) s Post) : Action.Ends (awaitStep step >>= next) s Post := by
  cases step with
  | returns => exact goes
  | raises message => exact refused _
  | cancelled => exact refused _

theorem replaceTargetLocked_contained {preflight : Step} {config : HostConfig}
    {candidate previous : RuntimeLiveSourceSpec} (prepared : Prepared s) (safe : SwitchSafe settings plan) :
    Action.Ends (replaceTargetLocked settings plan preflight config candidate previous) s fun _ after =>
      Contained after := by
  unfold replaceTargetLocked
  apply awaitStep_ends
  · exact fun _ => prepared.contained
  apply Action.ends_bind_read
  simp only
  apply vacate_ends prepared
  · exact fun _ _ left => left
  · intro empty contained launchable vacant
    apply Action.ends_bind_modify
    apply Action.ends_bind_modify
    apply Action.ends_bind_attempt
    refine Action.Ends.mono (spawnTarget_vacant ?_ ?_ ?_ safe.candidate) ?_
    · exact ⟨launchable.idle, launchable.clean, launchable.checked⟩
    · exact vacant
    · exact fun restart waits => Nat.lt_succ_of_le (contained.versions restart waits)
    rintro outcome after launched
    cases outcome with
    | ok child => exact adoptReplacementCandidate_contained launched.1 fun tried failed =>
          safe.restoration (Or.inr ⟨tried, failed⟩)
    | error error =>
      cases error with
      | cancelled => exact restoreAfterCancellation_raised launched (safe.restoration (Or.inl launched.failed))
      | exitedBeforeReady message | containmentPreflight message | exception message =>
        apply Action.ends_bind_read
        split
        · exact setDesiredRunning_raised launched.contained
        · rename_i calm
          obtain ⟨launchable, gone⟩ := launched.onward calm
          obtain ⟨attempt, decides, unready, halts⟩ := launched.fails (by simp) calm
          exact restoreAfterFailure_contained launchable launched.contained (Or.inl gone)
              (safe.restoration (Or.inl launched.failed))
            (safe.found attempt decides unready halts)

theorem replace_contained {plan : ReplacePlan} {config : HostConfig} {rollback : Option HostConfig}
    (contained : Contained s) (safe : SwitchSafe settings plan.switch) :
    Action.Ends (replace settings plan config rollback) s fun _ after => Contained after := by
  unfold replace
  apply prepareLaunch_ends contained
  · exact fun _ _ left => left
  intro after prepared _
  apply Action.ends_bind_lift
  · exact fun _ _ => prepared.contained
  intro target _
  apply awaitStep_ends
  · exact fun _ => prepared.contained
  exact replaceConfigLocked_contained prepared safe

theorem replaceLiveSource_contained {plan : ReplacePlan} {liveSource : RuntimeLiveSourceSpec}
    {rollback : Option RuntimeLiveSourceSpec} (contained : Contained s) (safe : SwitchSafe settings plan.switch) :
    Action.Ends (replaceLiveSource settings plan liveSource rollback) s fun _ after => Contained after := by
  unfold replaceLiveSource
  apply prepareLaunch_ends contained
  · exact fun _ _ left => left
  intro after prepared _
  apply Action.ends_bind_lift
  · exact fun _ _ => prepared.contained
  intro config _
  apply Action.ends_bind_lift
  · exact fun _ _ => prepared.contained
  intro previous _
  split
  · exact Action.ends_raise prepared.contained
  · exact replaceTargetLocked_contained prepared safe

theorem restartCurrent_contained {plan : ReplacePlan} (contained : Contained s)
    (safe : SwitchSafe settings plan.switch) :
    Action.Ends (restartCurrent settings plan) s fun _ after => Contained after := by
  unfold restartCurrent
  apply prepareLaunch_ends contained
  · exact fun _ _ left => left
  intro after prepared _
  apply Action.ends_bind_lift
  · exact fun _ _ => prepared.contained
  intro config _
  apply Action.ends_bind_lift
  · exact fun _ _ => prepared.contained
  intro target _
  apply awaitStep_ends
  · exact fun _ => prepared.contained
  exact replaceConfigLocked_contained prepared safe

/-- The recovered child is stopped again when the journal does not follow; whatever becomes of
that, it is the child or lost under a status that asks for recovery. -/
theorem abandonRecovery_contained {stop : StopPlan} {failed : RuntimeLiveSourceSpec} {child : Child}
    {error : RuntimeError} (carried : Carried child s) (vacant : s.child = none) (superseded : Superseded s) :
    Action.Ends (abandonRecovery settings stop failed child error) s fun _ after => Contained after := by
  unfold abandonRecovery
  apply Action.ends_bind_modify
  apply Action.ends_bind
  apply Action.ends_handle
  refine (stopChild_spec settings stop child _).mono ?_
  rintro outcome after ⟨framed, launches, ended⟩
  have clean : Clean after.launches := by
    rw [launches]
    exact carried.clean
  have checked : after.ownershipChecked = true := framed.checked.trans carried.checked
  have later : Superseded after := Superseded.framed (s := { s with desiredRunning := false }) superseded framed
  have versions : ∀ restart, after.watcher = some (.restarting restart) →
      restart.version ≤ after.selectionVersion := fun restart waits => Nat.le_of_lt (later restart waits)
  have lost : ∀ {error}, after.child = none → after.unproven = s.unproven → after.control = s.control →
      Contained { after with status := .recoveryRequired, error := error } := by
    intro error gone left control
    exact ⟨.lost child.launchNonce gone (left.trans carried.unproven) rfl (Or.inl (control.trans carried.control)),
      clean, fun _ => checked, versions, fun _ _ => Or.inl later⟩
  have idle : ∀ {final : Supervisor}, final.unproven = [] → final.launches = after.launches →
      final.watcher = after.watcher → final.selectionVersion = after.selectionVersion →
      final.ownershipChecked = after.ownershipChecked → Contained final := by
    intro final empty same watcher version owned
    refine .of_idle empty (by rw [same]; exact clean) (fun _ => owned.trans checked) ?_
    rw [watcher, version]
    exact versions
  have proven : s.unproven.filter (· != child.launchNonce) = [] := by
    rw [carried.unproven]
    simp
  cases ended with
  | unenumerated blind status same left control intent =>
    exact Action.ends_bind_modify (Action.ends_raise (lost (same.trans vacant) left control))
  | interrupted seen cut status same left control intent =>
    refine Action.ends_bind_modify (Action.ends_raise (lost ?_ left control))
    rw [vacant] at same
    exact same
  | unterminated message seen raised status same left control intent =>
    refine Action.ends_bind_modify (Action.ends_raise ?_)
    rw [vacant] at same
    exact ⟨.owned _ same (left.trans carried.unproven), clean, fun _ => checked, versions,
      fun _ _ => Or.inl later⟩
  | uncleared message seen terminated status same left stuck =>
    exact Action.ends_bind_modify (Action.ends_raise (idle (left.trans proven) rfl rfl rfl rfl))
  | stopped seen terminated status same left record intent =>
    apply Action.ends_bind_modify
    apply Action.ends_bind_modify
    split
    · exact Action.ends_raise (idle (left.trans proven) rfl rfl rfl rfl)
    · exact Action.ends_bind_modify (Action.ends_raise (idle (left.trans proven) rfl rfl rfl rfl))

theorem finishRecovery_contained {plan : FinishPlan} {failed selected : RuntimeLiveSourceSpec} {child : Child}
    (carried : Carried child s) (vacant : s.child = none) (superseded : Superseded s) :
    Action.Ends (finishRecovery settings plan failed selected child) s fun _ after => Contained after := by
  unfold finishRecovery
  cases plan.reconcile with
  | cancelled => exact abandonRecovery_contained carried vacant superseded
  | raises message => exact abandonRecovery_contained carried vacant superseded
  | returns =>
    have selecting : Carried child { s with selectedLiveSource := some selected } :=
      ⟨carried.unproven, carried.control, carried.clean, carried.checked⟩
    apply Action.ends_bind_modify
    apply Action.ends_bind_modify
    split
    · exact Action.ends_raise selecting.adopt
    · exact Action.ends_pure selecting.adopt

/-- A recovery source never changes the supervisor, and offers nothing under recovery. -/
theorem recoveryTarget_ends {α : Type} {answer : RecoveryAnswer} {failed : RuntimeLiveSourceSpec}
    {next : Option RuntimeLiveSourceSpec → Act α} {Post : Except RuntimeError α → Supervisor → Prop}
    (refused : ∀ error, Post (.error error) s) (nothing : Action.Ends (next none) s Post)
    (goes : ∀ source, s.status ≠ .recoveryRequired → Action.Ends (next (some source)) s Post) :
    Action.Ends (recoveryTarget settings answer failed >>= next) s Post := by
  unfold recoveryTarget
  apply Action.ends_bind
  apply Action.ends_bind_read
  split
  · exact nothing
  · rename_i calm
    simp only [Bool.or_eq_true, beq_iff_eq, not_or] at calm
    cases answer with
    | nothing => exact nothing
    | cancelled => exact refused _
    | candidate source =>
      simp only
      split
      · exact nothing
      · exact goes source calm.2

end Replacements

section Starting

variable {settings : Settings} {s : Supervisor} {plan : StartPlan}

structure StartSafe (settings : Settings) (plan : StartPlan) : Prop where
  candidate : Unabandoned settings plan.spawn
  restoration : Fails settings plan.spawn → Unabandoned settings plan.restore.spawn
  fallback : Fails settings plan.spawn → Unabandoned settings plan.fallback

theorem startTarget_ends {α : Type} {target : RuntimeLiveSourceSpec}
    {next : RuntimeLiveSourceSpec × Option RuntimeLiveSourceSpec → Act α}
    {Post : Except RuntimeError α → Supervisor → Prop} (prepared : Prepared s)
    (refused : ∀ error after, Contained after → Post (.error error) after)
    (goes : ∀ choice, Action.Ends (next choice) s Post) :
    Action.Ends (startTarget settings plan target >>= next) s Post := by
  unfold startTarget
  apply Action.ends_bind
  apply Action.ends_bind_attempt
  cases plan.preflight with
  | returns => exact goes _
  | cancelled => exact refused _ _ prepared.contained
  | raises message =>
    apply Action.ends_raise
    apply recoveryTarget_ends
    · exact fun error => refused error s prepared.contained
    · refine Action.ends_bind_modify (Action.ends_raise (refused _ _ ?_))
      exact prepared.contained.settle prepared.found rfl (Or.inl rfl) (Nat.le_refl _)
    · exact fun source _ => goes _

theorem startFallback_contained {config : HostConfig} {target : RuntimeLiveSourceSpec}
    {recoveredFrom : Option RuntimeLiveSourceSpec} {error : RuntimeError}
    (lapsed : Lapsed settings plan.spawn error s) (safe : StartSafe settings plan) :
    Action.Ends (startFallback settings plan config target recoveredFrom error) s fun _ after =>
      Contained after := by
  unfold startFallback
  cases recoveredFrom with
  | some failed => exact setDesiredRunning_raised lapsed.contained
  | none =>
    apply recoveryTarget_ends
    · exact fun _ => lapsed.contained
    · exact setDesiredRunning_raised lapsed.contained
    intro fallback calm
    obtain ⟨launchable, vacant⟩ := lapsed.onward calm
    apply Action.ends_bind_modify
    apply Action.ends_bind
    apply Action.ends_handle
    refine Action.Ends.mono (spawnTarget_vacant ?_ ?_ ?_ (safe.fallback lapsed.failed)) ?_
    · exact ⟨launchable.idle, launchable.clean, launchable.checked⟩
    · exact vacant
    · exact fun restart waits => Nat.lt_succ_of_le (lapsed.contained.versions restart waits)
    rintro outcome after launched
    cases outcome with
    | ok child => exact finishRecovery_contained launched.1 launched.2.1 launched.2.2
    | error error =>
      cases error with
      | cancelled => exact Action.ends_raise launched.contained
      | exitedBeforeReady message | containmentPreflight message | exception message =>
        exact Action.ends_bind_modify (Action.ends_raise
          (launched.contained.touch rfl (Or.inl rfl) (Nat.le_refl _) (Or.inr rfl) fun recovery => recovery))

theorem start_contained {config : HostConfig} (contained : Contained s) (safe : StartSafe settings plan) :
    Action.Ends (start settings plan config) s fun _ after => Contained after := by
  unfold start
  apply prepareLaunch_ends contained
  · exact fun _ _ left => left
  intro ready prepared _
  apply Action.ends_bind_lift
  · exact fun _ _ => prepared.contained
  intro selected _
  apply Action.ends_bind_read
  apply startTarget_ends prepared
  · exact fun _ _ left => left
  rintro ⟨target, recoveredFrom⟩
  simp only
  apply vacate_ends prepared
  · exact fun _ _ left => left
  intro empty left launchable vacant
  apply Action.ends_bind_modify
  apply Action.ends_bind_attempt
  refine Action.Ends.mono (spawnTarget_vacant ?_ ?_ ?_ safe.candidate) ?_
  · exact ⟨launchable.idle, launchable.clean, launchable.checked⟩
  · exact vacant
  · exact fun restart waits => Nat.lt_succ_of_le (left.versions restart waits)
  rintro outcome after launched
  cases outcome with
  | ok child =>
    cases recoveredFrom with
    | some failed => exact finishRecovery_contained launched.1 launched.2.1 launched.2.2
    | none => exact launched.1.adopt
  | error error =>
    cases error with
    | cancelled => exact restoreAfterCancellation_raised launched (safe.restoration launched.failed)
    | exitedBeforeReady message | containmentPreflight message | exception message =>
      exact startFallback_contained launched safe

end Starting

section Environment

variable {settings : Settings} {s : Supervisor} {plan : SwitchPlan}

/-- The drain ended the child but a control file of it stayed. -/
def Stuck (plan : StopPlan) : Prop :=
  plan.enumerated = true ∧ plan.terminated = .returns ∧ ¬ (plan.clearRecord = .done ∧ plan.clearIntent = .done)

/-- The update of the environment also restores after its own drain failed: that drain must not
be cut short without a stop, and when it is stuck the restoration must leave nothing behind. -/
structure EnvironmentSafe (settings : Settings) (plan : SwitchPlan) (child : Option Child) : Prop where
  switch : SwitchSafe settings plan
  drain : child.isSome → plan.drain.enumerated = true → plan.drain.terminated = .cancelled →
    plan.stopRequested = true
  stuck : child.isSome → Stuck plan.drain →
    ∀ attempt, Decides settings plan.restore.spawn attempt → ¬ Leaves attempt

/-- How the guarded part of the environment update fails. -/
inductive Relaunched (settings : Settings) (plan : SwitchPlan) (before : Option Child) :
    Except RuntimeError Child → Supervisor → Prop where
  | launched {child : Child} {after : Supervisor} (carried : Carried child after) :
      Relaunched settings plan before (.ok child) after
  | lapsed {error : RuntimeError} {after : Supervisor} (lapsed : Lapsed settings plan.spawn error after) :
      Relaunched settings plan before (.error error) after
  | refused {message : String} {after : Supervisor} (contained : Contained after) :
      Relaunched settings plan before (.error (.containmentPreflight message)) after
  | interrupted {after : Supervisor} (held : before.isSome) (seen : plan.drain.enumerated = true)
      (cut : plan.drain.terminated = .cancelled) (contained : Contained after) :
      Relaunched settings plan before (.error .cancelled) after
  | unterminated {message : String} {after : Supervisor} (status : after.status = .recoveryRequired)
      (contained : Contained after) : Relaunched settings plan before (.error (.exception message)) after
  | stuck {message : String} {after : Supervisor} (held : before.isSome) (stuck : Stuck plan.drain)
      (idle : after.unproven = []) (checked : after.ownershipChecked = true) (contained : Contained after) :
      Relaunched settings plan before (.error (.exception message)) after

theorem relaunch_relaunched {config : HostConfig} {target : RuntimeLiveSourceSpec} (prepared : Prepared s)
    (unabandoned : Unabandoned settings plan.spawn) :
    Action.Ends (relaunch settings plan s.child config target) s
      (Relaunched settings plan s.child) := by
  have onward : ∀ {empty : Supervisor} {before : Option Child}, Contained empty → Launchable empty →
      empty.child = none →
      Action.Ends (do
        beginSelection config target
        spawnTarget settings plan.spawn config target : Act Child) empty (Relaunched settings plan before) := by
    intro empty before contained launchable vacant
    apply Action.ends_bind_modify
    refine Action.Ends.mono (spawnTarget_vacant ?_ ?_ ?_ unabandoned) ?_
    · exact ⟨launchable.idle, launchable.clean, launchable.checked⟩
    · exact vacant
    · exact fun restart waits => Nat.lt_succ_of_le (contained.versions restart waits)
    rintro outcome after launched
    cases outcome with
    | ok child => exact .launched launched.1
    | error error => exact .lapsed launched
  unfold relaunch
  cases held : s.child with
  | none => exact onward prepared.contained (prepared.launchable held) held
  | some previous =>
    apply Action.ends_bind
    refine (drainChildForReplacement_contained prepared.contained held).mono ?_
    rintro outcome after ⟨framed, left, drained⟩
    have checked := framed.checked.trans prepared.checked
    cases drained with
    | drained idle =>
      apply Action.ends_bind_modify
      exact onward (left.drop idle none) ⟨idle, left.clean, checked⟩ rfl
    | refused message => exact .refused left
    | interrupted seen cut => exact .interrupted rfl seen cut left
    | unterminated message status => exact .unterminated status left
    | stuck message seen returned files idle => exact .stuck rfl ⟨seen, returned, files⟩ idle checked left

theorem replaceCurrentEnvironment_contained {plan : EnvironmentPlan} (contained : Contained s)
    (safe : EnvironmentSafe settings plan.switch s.child) :
    Action.Ends (replaceCurrentEnvironment settings plan) s fun _ after => Contained after := by
  unfold replaceCurrentEnvironment
  apply prepareLaunch_ends contained
  · exact fun _ _ left => left
  intro ready prepared same
  rw [← same] at safe
  apply Action.ends_bind_lift
  · exact fun _ _ => prepared.contained
  intro config _
  apply Action.ends_bind_lift
  · exact fun _ _ => prepared.contained
  intro target _
  apply Action.ends_bind_read
  apply awaitStep_ends
  · exact fun _ => prepared.contained
  apply awaitStep_ends
  · exact fun _ => prepared.contained
  apply Action.ends_bind_attempt
  refine (relaunch_relaunched prepared safe.switch.candidate).mono ?_
  rintro outcome after relaunched
  cases relaunched with
  | launched carried => exact carried.adopt
  | refused left => exact Action.ends_raise left
  | interrupted held seen cut left =>
    apply Action.ends_bind
    have stopping := safe.drain held seen cut
    refine Action.Ends.mono (restoreAfterCancellation_contained left ?_ ?_) ?_
    · rw [stopping]
      exact fun quiet => by cases quiet
    · rw [stopping]
      exact fun quiet => by cases quiet
    rintro outcome final restored
    cases outcome with
    | ok value => exact Action.ends_raise restored
    | error error => exact restored
  | unterminated status left =>
    apply Action.ends_bind_read
    split
    · rename_i calm
      simp [status] at calm
    · exact setDesiredRunning_raised left
  | stuck held stuck idle checked left =>
    apply Action.ends_bind_read
    split
    · exact restoreAfterFailure_contained ⟨idle, left.clean, checked⟩ left (Or.inr (safe.stuck held stuck))
        (fun attempt decides abandons => safe.stuck held stuck attempt decides abandons.leaves)
        fun attempt decides loses => safe.stuck held stuck attempt decides loses.leaves
    · exact setDesiredRunning_raised left
  | @lapsed error _ lapsed =>
    cases error with
    | cancelled =>
      exact restoreAfterCancellation_raised lapsed (safe.switch.restoration (Or.inl lapsed.failed))
    | containmentPreflight message => exact Action.ends_raise lapsed.contained
    | exitedBeforeReady message | exception message =>
      apply Action.ends_bind_read
      split
      · rename_i calm
        simp only [beq_eq_false_iff_ne] at calm
        obtain ⟨launchable, gone⟩ := lapsed.onward calm
        obtain ⟨attempt, decides, unready, halts⟩ := lapsed.fails (by simp) calm
        exact restoreAfterFailure_contained launchable lapsed.contained (Or.inl gone)
          (safe.switch.restoration (Or.inl lapsed.failed))
          (safe.switch.found attempt decides unready halts)
      · exact setDesiredRunning_raised lapsed.contained

end Environment

section Stopping

variable {settings : Settings} {s : Supervisor}

theorem stop_contained {plan : HaltPlan} (contained : Contained s) :
    Action.Ends (stop settings plan) s fun _ after => Contained after := by
  unfold stop
  apply Action.ends_bind_modify
  have unwatched : Contained { s with watcher := none } :=
    contained.touch rfl (Or.inr rfl) (Nat.le_refl _) (Or.inl rfl) fun recovery => recovery
  cases plan.taskFailure with
  | some message =>
    exact Action.ends_bind_modify (Action.ends_raise
      (unwatched.touch rfl (Or.inl rfl) (Nat.le_refl _) (Or.inl rfl) fun _ => rfl))
  | none =>
    apply Action.ends_bind_modify
    have halted : Contained { s with
        watcher := none, selectionVersion := s.selectionVersion + 1, desiredRunning := false } :=
      unwatched.touch rfl (Or.inl rfl) (Nat.le_succ _) (Or.inr rfl) fun recovery => recovery
    apply Action.ends_bind_read
    simp only
    split
    · rename_i held
      split
      · exact Action.ends_bind_modify (Action.ends_raise
          (halted.touch rfl (Or.inl rfl) (Nat.le_refl _) (Or.inl rfl) fun _ => rfl))
      · rename_i files
        simp only [Bool.or_eq_true, not_or, Bool.not_eq_true, Option.isSome_eq_false_iff, Option.isNone_iff_eq_none]
          at files
        apply Action.ends_bind_modify
        apply Action.ends_modify
        exact halted.settle (Or.inr (halted.idle_of_unowned held files.1 files.2)) rfl (Or.inl rfl) (Nat.le_refl _)
    · rename_i child held
      apply Action.ends_bind_modify
      apply Action.ends_bind
      have stopping : Contained { s with
          watcher := none, selectionVersion := s.selectionVersion + 1, desiredRunning := false,
          status := .stopping } :=
        halted.settle (Or.inl (by rw [held]; rfl)) rfl (Or.inl rfl) (Nat.le_refl _)
      refine (stopChild_contained stopping held).mono ?_
      rintro outcome after ⟨framed, left, ended, idle⟩
      cases ended with
      | stopped seen terminated =>
        have empty := idle seen terminated
        apply Action.ends_bind_modify
        apply Action.ends_modify
        exact (left.drop empty none).settle (Or.inr empty) rfl (Or.inl rfl) (Nat.le_refl _)
      | unenumerated blind => exact left
      | interrupted seen cut => exact left
      | unterminated message seen failed => exact left
      | uncleared message seen terminated => exact left

theorem setLiveSource_contained {liveSource : RuntimeLiveSourceSpec} (contained : Contained s) :
    Action.Ends (setLiveSource liveSource) s fun _ after => Contained after := by
  unfold setLiveSource
  apply Action.ends_bind_read
  split
  · exact Action.ends_raise contained
  · exact Action.ends_modify
      (contained.touch rfl (Or.inl rfl) (Nat.le_refl _) (Or.inl rfl) fun recovery => recovery)

end Stopping

section Watching

variable {settings : Settings} {s : Supervisor}

theorem endWatcher_contained (contained : Contained s) :
    Action.Ends endWatcher s fun _ after => Contained after :=
  Action.ends_modify (contained.touch rfl (Or.inr rfl) (Nat.le_refl _) (Or.inl rfl) fun recovery => recovery)

theorem watchChildExit_contained {plan : ExitPlan} (contained : Contained s) :
    Action.Ends (watchChildExit plan) s fun _ after => Contained after := by
  unfold watchChildExit
  apply Action.ends_bind_read
  split
  · rename_i launchNonce child waits held
    have checked : s.ownershipChecked = true := contained.checked (Or.inr (by rw [waits]; rfl))
    have unwatched : Contained { s with watcher := none } :=
      contained.touch rfl (Or.inr rfl) (Nat.le_refl _) (Or.inl rfl) fun recovery => recovery
    have present : s.child.isSome := by
      rw [held]
      rfl
    apply Action.ends_bind_modify
    split
    · exact Action.ends_pure unwatched
    · rename_i mine
      simp only [Bool.or_eq_true, bne_iff_ne, not_or, not_not] at mine
      apply Action.ends_bind_modify
      have fencing : Contained { s with watcher := none, status := .fencing } :=
        unwatched.settle (Or.inl present) rfl (Or.inl rfl) (Nat.le_refl _)
      cases plan.terminated with
      | cancelled => exact Action.ends_raise fencing
      | raises message =>
        apply Action.ends_bind_modify
        apply Action.ends_modify
        exact fencing.settle (Or.inl present) rfl (Or.inl rfl) (Nat.le_refl _)
      | returns =>
        have proven : s.unproven.filter (· != launchNonce) = [] := by
          rw [← mine.2]
          rcases contained.unproven_of_held held with empty | single
          · rw [empty]
            rfl
          · rw [single]
            simp
        have idle : ∀ {after : Supervisor}, after.unproven = s.unproven.filter (· != launchNonce) →
            after.launches = s.launches → after.watcher = none → Contained after := by
          intro after empty launches gone
          refine .of_idle (empty.trans proven) (by rw [launches]; exact contained.clean) ?_ ?_
          · rw [gone]
            simp
          · rw [gone]
            simp
        apply Action.ends_bind_modify
        apply Action.ends_bind
        apply Action.ends_handle
        apply Action.ends_bind
        refine (removeOwnershipRecord_kept plan.clearRecord launchNonce).mono ?_
        rintro outcome _ ⟨control, rfl⟩
        cases outcome with
        | error error => exact Action.ends_bind_modify (Action.ends_raise (idle rfl rfl rfl))
        | ok value =>
          refine (removeLaunchIntent_kept plan.clearIntent launchNonce).mono ?_
          rintro outcome _ ⟨intent, rfl⟩
          cases outcome with
          | error error => exact Action.ends_bind_modify (Action.ends_raise (idle rfl rfl rfl))
          | ok value =>
            refine Action.ends_modify (.of_idle proven contained.clean (fun _ => checked) ?_)
            intro restart waiting
            simp only at waiting
            split at waiting
            · cases waiting
              exact Nat.le_refl _
            · cases waiting
  · exact endWatcher_contained contained
  · exact Action.ends_pure contained

theorem reportWatcherFailure_contained {launchNonce : Nat} (contained : Contained s) :
    Action.Ends (reportWatcherFailure launchNonce) s fun _ after => Contained after := by
  unfold reportWatcherFailure
  apply Action.ends_bind_read
  split
  · apply Action.ends_bind_modify
    have erased : Contained { s with failing := s.failing.erase launchNonce } :=
      contained.touch rfl (Or.inl rfl) (Nat.le_refl _) (Or.inl rfl) fun recovery => recovery
    split
    · apply Action.ends_bind_modify
      exact Action.ends_modify (erased.touch rfl (Or.inl rfl) (Nat.le_refl _) (Or.inr rfl) fun _ => rfl)
    · exact Action.ends_pure erased
  · exact Action.ends_pure contained

theorem restartOnce_contained {plan : WakePlan} {restart : Restart} {attempt : Nat} (contained : Contained s)
    (launchable : Launchable s) (vacant : s.child = none) (unabandoned : Unabandoned settings plan.spawn) :
    Action.Ends (restartOnce settings plan restart attempt) s fun _ after => Contained after := by
  unfold restartOnce
  apply Action.ends_bind_modify
  apply Action.ends_bind_attempt
  refine Action.Ends.mono (spawnTarget_contained ?_ ?_ unabandoned) ?_
  · exact ⟨launchable.idle, launchable.clean, launchable.checked⟩
  · exact Or.inl vacant
  rintro outcome after ⟨framed, launched⟩
  cases outcome with
  | ok child => exact launched.1.adopt
  | error error =>
    have calm : after.status ≠ .recoveryRequired → ∀ {status}, Contained { after with status := status } := by
      intro calm status
      refine .of_idle (launched.calm calm) launched.clean (fun _ => launched.checked) ?_
      intro restart waits
      have version := framed.version
      rcases framed.watcher with same | ⟨gone, _⟩
      · exact Nat.le_trans (contained.versions restart (same.symm.trans waits)) (Nat.le_of_eq version.symm)
      · cases gone.symm.trans waits
    cases error with
    | cancelled => exact Action.ends_bind_modify (Action.ends_raise (launched.unwatched rfl rfl rfl))
    | exitedBeforeReady message | containmentPreflight message | exception message =>
      apply Action.ends_bind_read
      split
      · apply Action.ends_bind_modify
        exact Action.ends_modify (launched.unwatched rfl rfl rfl)
      · rename_i quiet
        split
        · exact Action.ends_pure (calm quiet)
        · exact Action.ends_modify (calm quiet)

/-- What `restartFallback` does when the launch of the fallback raises. -/
def fallbackRaised : RuntimeError → Act Unit
  | .cancelled => Action.raise .cancelled
  | _ => do
    setDesiredRunning false
    failUnlessRecovery "runtime fallback source failed operational checks"

theorem restartFallback_contained {plan : WakePlan} {restart : Restart} (contained : Contained s)
    (launchable : Launchable s) (vacant : s.child = none) (unabandoned : Unabandoned settings plan.spawn) :
    Action.Ends (restartFallback settings plan restart) s fun _ after => Contained after := by
  unfold restartFallback
  apply recoveryTarget_ends
  · exact fun _ => contained
  · apply Action.ends_bind_modify
    exact Action.ends_modify (contained.settle (Or.inr launchable.idle) rfl (Or.inl rfl) (Nat.le_refl _))
  intro fallback _
  apply Action.ends_bind_modify
  apply Action.ends_handle
  apply Action.ends_bind
  have failing : ∀ {error : RuntimeError} {after : Supervisor}, Contained after →
      Action.Ends (fallbackRaised error) after fun _ final => Contained final := by
    intro error after left
    unfold fallbackRaised
    split
    · exact Action.ends_raise left
    · apply Action.ends_bind_modify
      exact Action.ends_modify (left.touch rfl (Or.inl rfl) (Nat.le_refl _) (Or.inr rfl) fun recovery => if_pos recovery)
  refine Action.Ends.mono (spawnTarget_vacant ?_ ?_ ?_ unabandoned) ?_
  · exact ⟨launchable.idle, launchable.clean, launchable.checked⟩
  · exact vacant
  · exact fun restart waits => Nat.lt_succ_of_le (contained.versions restart waits)
  rintro outcome after launched
  cases outcome with
  | error error => exact failing launched.contained
  | ok child =>
    refine (finishRecovery_contained launched.1 launched.2.1 launched.2.2).mono ?_
    rintro outcome final left
    cases outcome with
    | ok value => exact left
    | error error => exact failing left

/-- A watcher that is still current finds nothing unproven. -/
theorem wakeWatcher_contained {plan : WakePlan} (contained : Contained s)
    (unabandoned : Unabandoned settings plan.spawn) :
    Action.Ends (wakeWatcher settings plan) s fun _ after => Contained after := by
  unfold wakeWatcher
  apply Action.ends_bind_read
  split
  · rename_i restart waits
    split
    · exact endWatcher_contained contained
    · rename_i current
      simp only [not_or, not_not, Bool.not_eq_true, Option.isSome_eq_false_iff, Option.isNone_iff_eq_none] at current
      obtain ⟨version, running, vacant⟩ := current
      have launchable : Launchable s := by
        refine ⟨?_, contained.clean, contained.checked (Or.inr (by rw [waits]; rfl))⟩
        by_contra left
        rcases contained.stale vacant left with superseded | stopped
        · have earlier := superseded restart waits
          omega
        · rw [stopped] at running
          simp at running
      split
      · exact restartOnce_contained contained launchable vacant unabandoned
      · apply Action.ends_bind_modify
        refine restartFallback_contained ?_ ?_ ?_ unabandoned
        · exact contained.touch rfl (Or.inr rfl) (Nat.le_refl _) (Or.inl rfl) fun recovery => recovery
        · exact ⟨launchable.idle, launchable.clean, launchable.checked⟩
        · exact vacant
  · exact Action.ends_pure contained

end Watching

end OpenTulpa.Host.ContainedOperations
