import OpenTulpa.Host.Launching
import OpenTulpa.Host.Lifecycle
import OpenTulpa.Library.Run

/-! No process is created while an earlier one is not proven terminated. At every moment at most
one process is unproven, and it is the child, or it is lost and then the status asks for recovery
and a control file still names it. -/

namespace OpenTulpa.Host.Containment

open Library RuntimeSupervisor Launching Lifecycle

/-- Where the one process that may still run is known. -/
inductive Holding (s : Supervisor) : Prop where
  | idle (unproven : s.unproven = [])
  | owned (child : Child) (held : s.child = some child) (unproven : s.unproven = [child.launchNonce])
  | lost (launchNonce : Nat) (gone : s.child = none) (unproven : s.unproven = [launchNonce])
      (status : s.status = .recoveryRequired) (file : s.control = some launchNonce ∨ s.intent = some launchNonce)

/-- A watcher in its restart loop belongs to an earlier selection. -/
def Superseded (s : Supervisor) : Prop :=
  ∀ restart, s.watcher = some (.restarting restart) → restart.version < s.selectionVersion

structure Contained (s : Supervisor) : Prop where
  holding : Holding s
  clean : Clean s.launches
  checked : s.unproven ≠ [] ∨ s.watcher.isSome → s.ownershipChecked = true
  versions : ∀ restart, s.watcher = some (.restarting restart) → restart.version ≤ s.selectionVersion
  stale : s.child = none → s.unproven ≠ [] → Superseded s ∨ s.desiredRunning = false

/-- A new process may be created. -/
structure Launchable (s : Supervisor) : Prop where
  idle : s.unproven = []
  clean : Clean s.launches
  checked : s.ownershipChecked = true

/-- A ready child that nobody has adopted yet. -/
structure Carried (child : Child) (s : Supervisor) : Prop where
  unproven : s.unproven = [child.launchNonce]
  control : s.control = some child.launchNonce
  clean : Clean s.launches
  checked : s.ownershipChecked = true

/-- The fields that say where the processes are. -/
def core (s : Supervisor) :
    Option Child × List Nat × List Launch × Option Nat × Option Nat × Bool :=
  (s.child, s.unproven, s.launches, s.control, s.intent, s.ownershipChecked)

section Contained

variable {s after : Supervisor}

/-- The processes are where they were, and recovery is still asked for. -/
theorem Contained.touch (contained : Contained s) (same : core after = core s)
    (watcher : after.watcher = s.watcher ∨ after.watcher = none) (version : s.selectionVersion ≤ after.selectionVersion)
    (running : after.desiredRunning = s.desiredRunning ∨ after.desiredRunning = false)
    (status : s.status = .recoveryRequired → after.status = .recoveryRequired) : Contained after := by
  simp only [core, Prod.mk.injEq] at same
  obtain ⟨child, unproven, launches, control, intent, checked⟩ := same
  have superseded : Superseded s → Superseded after := by
    intro before restart waits
    rcases watcher with kept | gone
    · rw [kept] at waits
      exact Nat.lt_of_lt_of_le (before restart waits) version
    · rw [gone] at waits
      cases waits
  refine ⟨?_, by rw [launches]; exact contained.clean, ?_, ?_, ?_⟩
  · cases contained.holding with
    | idle empty => exact .idle (unproven.trans empty)
    | owned owner held single => exact .owned owner (child.trans held) (unproven.trans single)
    | lost launchNonce gone single recovery file =>
      exact .lost launchNonce (child.trans gone) (unproven.trans single) (status recovery)
        (by rw [control, intent]; exact file)
  · rw [unproven, checked]
    rcases watcher with kept | gone
    · rw [kept]
      exact contained.checked
    · rintro (left | waits)
      · exact contained.checked (Or.inl left)
      · rw [gone] at waits
        cases waits
  · intro restart waits
    rcases watcher with kept | gone
    · rw [kept] at waits
      exact Nat.le_trans (contained.versions restart waits) version
    · rw [gone] at waits
      cases waits
  · intro gone left
    rw [child] at gone
    rw [unproven] at left
    rcases contained.stale gone left with before | stopped
    · exact Or.inl (superseded before)
    · rcases running with kept | off
      · exact Or.inr (kept.trans stopped)
      · exact Or.inr off

/-- A status that does not ask for recovery may replace one, as long as nothing is lost. -/
theorem Contained.settle (contained : Contained s) (found : s.child.isSome ∨ s.unproven = [])
    (same : core after = core s) (watcher : after.watcher = s.watcher ∨ after.watcher = none)
    (version : s.selectionVersion ≤ after.selectionVersion) : Contained after := by
  simp only [core, Prod.mk.injEq] at same
  obtain ⟨child, unproven, launches, control, intent, checked⟩ := same
  refine ⟨?_, by rw [launches]; exact contained.clean, ?_, ?_, ?_⟩
  · cases contained.holding with
    | idle empty => exact .idle (unproven.trans empty)
    | owned owner held single => exact .owned owner (child.trans held) (unproven.trans single)
    | lost launchNonce gone single recovery file =>
      rcases found with present | empty
      · rw [gone] at present
        cases present
      · rw [empty] at single
        cases single
  · rw [unproven, checked]
    rcases watcher with kept | gone
    · rw [kept]
      exact contained.checked
    · rintro (left | waits)
      · exact contained.checked (Or.inl left)
      · rw [gone] at waits
        cases waits
  · intro restart waits
    rcases watcher with kept | gone
    · rw [kept] at waits
      exact Nat.le_trans (contained.versions restart waits) version
    · rw [gone] at waits
      cases waits
  · intro gone left
    rw [child] at gone
    rw [unproven] at left
    rcases found with present | empty
    · rw [gone] at present
      cases present
    · exact absurd empty left

theorem Contained.of_idle (idle : s.unproven = []) (clean : Clean s.launches)
    (checked : s.watcher.isSome → s.ownershipChecked = true)
    (versions : ∀ restart, s.watcher = some (.restarting restart) → restart.version ≤ s.selectionVersion) :
    Contained s :=
  ⟨.idle idle, clean, fun either => either.elim (fun left => absurd idle left) checked, versions,
    fun _ left => absurd idle left⟩

theorem Superseded.framed (superseded : Superseded s) (framed : Framed s after) : Superseded after := by
  intro restart waits
  rw [framed.version]
  rcases framed.watcher with kept | ⟨gone, _⟩
  · rw [kept] at waits
    exact superseded restart waits
  · rw [gone] at waits
    cases waits

/-- Stopping keeps the rest of the invariant when it proves processes or leaves them where they are. -/
theorem Contained.framed (contained : Contained s) (framed : Framed s after) (launches : after.launches = s.launches)
    (unproven : after.unproven = s.unproven ∨ after.unproven = []) (holding : Holding after)
    (settled : after.child = none → after.unproven = []) : Contained after := by
  refine ⟨holding, by rw [launches]; exact contained.clean, ?_, ?_, fun gone left => absurd (settled gone) left⟩
  · rw [framed.checked]
    rintro (left | waits)
    · refine contained.checked (Or.inl ?_)
      rcases unproven with same | empty
      · rw [← same]
        exact left
      · exact absurd empty left
    · rcases framed.watcher with same | ⟨gone, _⟩
      · exact contained.checked (Or.inr (by rw [← same]; exact waits))
      · rw [gone] at waits
        cases waits
  · intro restart waits
    rw [framed.version]
    rcases framed.watcher with same | ⟨gone, _⟩
    · exact contained.versions restart (by rw [← same]; exact waits)
    · rw [gone] at waits
      cases waits

theorem Contained.unproven_of_held {child : Child} (contained : Contained s) (held : s.child = some child) :
    s.unproven = [] ∨ s.unproven = [child.launchNonce] := by
  cases contained.holding with
  | idle empty => exact Or.inl empty
  | owned owner other single =>
    obtain rfl : child = owner := Option.some.inj (held.symm.trans other)
    exact Or.inr single
  | lost launchNonce gone =>
    rw [held] at gone
    cases gone

/-- Without a child and without control files nothing is left over. -/
theorem Contained.idle_of_unowned (contained : Contained s) (vacant : s.child = none) (control : s.control = none)
    (intent : s.intent = none) : s.unproven = [] := by
  cases contained.holding with
  | idle empty => exact empty
  | owned child held => rw [vacant] at held; cases held
  | lost launchNonce gone single status file =>
    rcases file with owned | intended
    · rw [control] at owned
      cases owned
    · rw [intent] at intended
      cases intended

theorem Holding.moved (holding : Holding s) (same : core after = core s)
    (status : after.status = s.status) : Holding after := by
  simp only [core, Prod.mk.injEq] at same
  obtain ⟨child, unproven, _, control, intent, _⟩ := same
  cases holding with
  | idle empty => exact .idle (unproven.trans empty)
  | owned owner held single => exact .owned owner (child.trans held) (unproven.trans single)
  | lost launchNonce gone single recovery file =>
    exact .lost launchNonce (child.trans gone) (unproven.trans single) (status.trans recovery)
      (by rw [control, intent]; exact file)

theorem Carried.adopt {child : Child} (carried : Carried child s) :
    Contained { s with child := some child, watcher := some (.waiting child.launchNonce) } where
  holding := .owned child rfl carried.unproven
  clean := carried.clean
  checked := fun _ => carried.checked
  versions := by
    intro restart waits
    cases waits
  stale := by
    intro gone
    cases gone

end Contained

/-- No stop that the launch makes is cancelled. -/
def Unabandoned (settings : Settings) (plan : SpawnPlan) : Prop :=
  ∀ attempt, Decides settings plan attempt → ¬ Abandons attempt

theorem Unabandoned.of_terminated {settings : Settings} {plan : SpawnPlan}
    (first : plan.first.cleanup.terminated ≠ .cancelled) (second : plan.second.cleanup.terminated ≠ .cancelled) :
    Unabandoned settings plan := by
  rintro attempt (⟨_, _, rfl⟩ | ⟨_, rfl⟩) ⟨_, _, _, cut⟩
  · exact second cut
  · exact first cut

/-- The launch does not end with a ready child. -/
def Fails (settings : Settings) (plan : SpawnPlan) : Prop :=
  ∃ attempt, Decides settings plan attempt ∧ ¬ Readies attempt

/-- The launch finds no child, or leaves no process behind when it fails. -/
def Room (settings : Settings) (plan : SpawnPlan) (s : Supervisor) : Prop :=
  s.child = none ∨ ∀ attempt, Decides settings plan attempt → ¬ Leaves attempt

section Launch

variable {settings : Settings} {plan : SpawnPlan} {config : HostConfig} {target : RuntimeLiveSourceSpec}
  {s : Supervisor}

/-- What a launch from `s` leaves behind when it raises. -/
structure Raised (settings : Settings) (plan : SpawnPlan) (s : Supervisor) (error : RuntimeError)
    (after : Supervisor) : Prop where
  holding : Holding after
  clean : Clean after.launches
  checked : after.ownershipChecked = true
  calm : after.status ≠ .recoveryRequired → after.unproven = []
  vacant : s.child = none → after.status ≠ .recoveryRequired → after.child = none
  found : error ≠ .cancelled → (∀ attempt, Decides settings plan attempt → ¬ Loses attempt) →
    after.child.isSome ∨ after.unproven = []
  failed : Fails settings plan
  fails : error ≠ .cancelled → after.status ≠ .recoveryRequired →
    ∃ attempt, Decides settings plan attempt ∧ ¬ Readies attempt ∧ ¬ Halts attempt

theorem Raised.contained {error : RuntimeError} {after : Supervisor} (raised : Raised settings plan s error after)
    (superseded : Superseded after) : Contained after :=
  ⟨raised.holding, raised.clean, fun _ => raised.checked,
    fun restart waits => Nat.le_of_lt (superseded restart waits), fun _ _ => Or.inl superseded⟩

/-- The watcher that launched the process gives up. -/
theorem Raised.unwatched {plan : SpawnPlan} {error : RuntimeError} {before after final : Supervisor}
    (raised : Raised settings plan before error after) (same : core final = core after)
    (status : final.status = after.status) (gone : final.watcher = none) : Contained final := by
  have holding := raised.holding.moved same status
  simp only [core, Prod.mk.injEq] at same
  obtain ⟨_, _, launches, _, _, checked⟩ := same
  have superseded : Superseded final := by
    intro restart waits
    rw [gone] at waits
    cases waits
  exact ⟨holding, by rw [launches]; exact raised.clean, fun _ => checked.trans raised.checked,
    fun restart waits => Nat.le_of_lt (superseded restart waits), fun _ _ => Or.inl superseded⟩

theorem spawnTarget_contained (launchable : Launchable s) (room : Room settings plan s)
    (unabandoned : Unabandoned settings plan) :
    Action.Ends (spawnTarget settings plan config target) s fun outcome after =>
      Framed s after ∧
        match outcome with
        | .ok child => Carried child after ∧ (s.child = none → after.child = none)
        | .error error => Raised settings plan s error after := by
  refine (spawnTarget_launched s).mono ?_
  rintro outcome after ⟨framed, clean, attempt, decides, launched⟩
  have launches := clean launchable.idle launchable.clean
  have checked : after.ownershipChecked = true := framed.checked.trans launchable.checked
  have vacant : Leaves attempt → s.child = none := fun leaves =>
    room.resolve_right fun settled => settled attempt decides leaves
  refine ⟨framed, ?_⟩
  cases launched with
  | ready up own target quiet none status unproven control intent =>
    exact ⟨⟨unproven launchable.idle, control, launches, checked⟩, none⟩
  | halted halts none status unproven =>
    have idle := unproven launchable.idle
    exact ⟨.idle idle, launches, checked, fun _ => idle, fun gone _ => none gone, fun _ _ => Or.inr idle,
      ⟨attempt, decides, halts.unready⟩, fun raised => absurd rfl raised⟩
  | unresolved halts exits uncaptured none status unproven =>
    obtain ⟨launchNonce, single, file⟩ := unproven launchable.idle
    have leaves : Leaves attempt := Or.inl uncaptured
    exact ⟨.lost launchNonce (none (vacant leaves)) single status file, launches, checked,
      fun calm => absurd status calm, fun gone _ => none gone, fun raised => absurd rfl raised,
      ⟨attempt, decides, leaves.unready⟩, fun raised => absurd rfl raised⟩
  | abandoned halts abandons none => exact absurd abandons (unabandoned attempt decides)
  | failed raised unready halts exits none unproven =>
    have idle := unproven launchable.idle
    exact ⟨.idle idle, launches, checked, fun _ => idle, fun gone _ => none gone, fun _ _ => Or.inr idle,
      ⟨attempt, decides, unready⟩, fun _ _ => ⟨attempt, decides, unready, halts⟩⟩
  | kept child halts exits leaves own target some status unproven =>
    have held := some (vacant leaves)
    exact ⟨.owned child held (unproven launchable.idle), launches, checked, fun calm => absurd status calm,
      fun _ calm => absurd status calm, fun _ _ => Or.inl (by rw [held]; rfl),
      ⟨attempt, decides, leaves.unready⟩, fun _ calm => absurd status calm⟩
  | lost raised halts exits retry loses none status unproven =>
    obtain ⟨launchNonce, single, file⟩ := unproven launchable.idle
    exact ⟨.lost launchNonce (none (vacant loses.leaves)) single status file, launches, checked,
      fun calm => absurd status calm, fun gone _ => none gone,
      fun _ found => absurd loses (found attempt decides), ⟨attempt, decides, loses.leaves.unready⟩,
      fun _ calm => absurd status calm⟩

/-- A shielded restoration ends with the restored child to adopt, or contained. -/
theorem awaitRestoration_contained {restore : RestorePlan} (launchable : Launchable s)
    (superseded : Superseded s) (room : Room settings restore.spawn s)
    (unabandoned : Unabandoned settings restore.spawn) :
    Action.Ends (awaitRestoration settings restore config target) s fun outcome after =>
      match outcome with
      | .ok child => Carried child after
      | .error error => Contained after ∧ (error ≠ .cancelled → Raised settings restore.spawn s error after) := by
  unfold awaitRestoration
  apply Action.ends_bind
  refine (spawnTarget_contained launchable room unabandoned).mono ?_
  rintro outcome after ⟨framed, ended⟩
  cases outcome with
  | error error => exact ⟨ended.contained (superseded.framed framed), fun _ => ended⟩
  | ok child =>
    obtain ⟨carried, _⟩ := ended
    cases restore.interruption with
    | none => exact Action.ends_pure carried
    | cancel => exact Action.ends_pure carried
    | stop => exact ⟨carried.adopt, fun raised => absurd rfl raised⟩

theorem restoreAfterCancellation_contained {stopRequested : Bool} {restore : RestorePlan}
    {config : Option HostConfig} {target : Option RuntimeLiveSourceSpec} (contained : Contained s)
    (launch : stopRequested = false → s.status ≠ .recoveryRequired → Launchable s ∧ s.child = none)
    (unabandoned : stopRequested = false → Unabandoned settings restore.spawn) :
    Action.Ends (restoreAfterCancellation settings stopRequested restore config target) s fun _ after =>
      Contained after := by
  unfold restoreAfterCancellation
  apply Action.ends_bind_read
  split
  · rename_i config target quiet
    simp only [Bool.or_eq_false_iff, beq_eq_false_iff_ne] at quiet
    obtain ⟨launchable, vacant⟩ := launch quiet.1 quiet.2
    apply Action.ends_bind_modify
    apply Action.ends_bind_modify
    apply Action.ends_bind_modify
    apply Action.ends_handle
    apply Action.ends_bind
    refine Action.Ends.mono (awaitRestoration_contained ?_ ?_ ?_ (unabandoned quiet.1)) ?_
    · exact ⟨launchable.idle, launchable.clean, launchable.checked⟩
    · exact fun restart waits => Nat.lt_succ_of_le (contained.versions restart waits)
    · exact Or.inl vacant
    rintro outcome after ended
    cases outcome with
    | ok child => exact ended.adopt
    | error error =>
      obtain ⟨left, _⟩ := ended
      cases error with
      | cancelled =>
        refine Action.ends_bind_modify (left.touch rfl (Or.inl rfl) (Nat.le_refl _) (Or.inr rfl) fun recovery => ?_)
        refine (if_neg ?_).trans recovery
        exact fun calm => calm.2 recovery
      | exitedBeforeReady message | containmentPreflight message | exception message =>
        exact Action.ends_bind_modify (left.touch rfl (Or.inl rfl) (Nat.le_refl _) (Or.inr rfl) fun recovery =>
          if_pos recovery)
  · exact contained.touch rfl (Or.inl rfl) (Nat.le_refl _) (Or.inr rfl) fun recovery => if_pos recovery

/-- The previous runtime is launched again after a failure, and its own failure loses nothing. -/
theorem restoreAfterFailure_contained {plan : SwitchPlan} {message : String} {error : RuntimeError}
    (launchable : Launchable s) (contained : Contained s) (room : Room settings plan.restore.spawn s)
    (unabandoned : Unabandoned settings plan.restore.spawn)
    (found : ∀ attempt, Decides settings plan.restore.spawn attempt → ¬ Loses attempt) :
    Action.Ends (restoreAfterFailure settings plan message config target error) s fun _ after => Contained after := by
  unfold restoreAfterFailure
  apply Action.ends_bind_modify
  apply Action.ends_bind_modify
  apply Action.ends_bind_modify
  apply Action.ends_bind
  apply Action.ends_handle
  unfold awaitFailureRestoration
  apply Action.ends_bind
  refine Action.Ends.mono (awaitRestoration_contained ?_ ?_ room unabandoned) ?_
  · exact ⟨launchable.idle, launchable.clean, launchable.checked⟩
  · exact fun restart waits => Nat.lt_succ_of_le (contained.versions restart waits)
  rintro outcome after ended
  cases outcome with
  | ok child =>
    apply Action.ends_pure
    apply Action.ends_bind_modify
    split
    · exact Action.ends_raise ended.adopt
    · exact Action.ends_raise ended.adopt
  | error error =>
    obtain ⟨left, raised⟩ := ended
    cases error with
    | cancelled => exact Action.ends_raise left
    | exitedBeforeReady message | containmentPreflight message | exception message =>
      exact Action.ends_bind_modify (Action.ends_bind_modify (Action.ends_raise
        (left.settle ((raised (by simp)).found (by simp) found) rfl (Or.inl rfl) (Nat.le_refl _))))

/-- The stop of the child that the supervisor holds. -/
theorem stopChild_contained {stop : StopPlan} {child : Child} (contained : Contained s)
    (held : s.child = some child) :
    Action.Ends (stopChild settings stop child) s fun outcome after =>
      Framed s after ∧ Contained after ∧ Stopped stop child s outcome after ∧
        (stop.enumerated = true → stop.terminated = .returns → after.unproven = []) := by
  refine (stopChild_spec settings stop child s).mono ?_
  rintro outcome after ⟨framed, launches, ended⟩
  have unproven := contained.unproven_of_held held
  have proven : s.unproven.filter (· != child.launchNonce) = [] := by
    rcases unproven with empty | single
    · rw [empty]
      rfl
    · rw [single]
      simp
  have owned : ∀ {now : Child}, after.child = some now → now.launchNonce = child.launchNonce →
      after.unproven = s.unproven → Contained after := by
    intro now kept same left
    refine contained.framed framed launches (Or.inl left) ?_ fun gone => by rw [kept] at gone; cases gone
    rcases unproven with empty | single
    · exact .idle (left.trans empty)
    · exact .owned now kept (by rw [left, single, same])
  have idle : after.unproven = [] → Contained after := fun empty =>
    contained.framed framed launches (Or.inr empty) (.idle empty) fun _ => empty
  refine ⟨framed, ?_, ended, ?_⟩
  · cases ended with
    | unenumerated blind status same left => exact owned (same.trans held) rfl left
    | interrupted seen cut status same left =>
      rw [held] at same
      exact owned same (requested_launchNonce _ _) left
    | unterminated message seen failed status same left =>
      rw [held] at same
      exact owned same (requested_launchNonce _ _) left
    | uncleared message seen terminated status same left => exact idle (left.trans proven)
    | stopped seen terminated status same left => exact idle (left.trans proven)
  · intro seen returned
    cases ended with
    | unenumerated blind => rw [blind] at seen; cases seen
    | interrupted _ cut => rw [cut] at returned; cases returned
    | unterminated message _ failed => rw [failed] at returned; cases returned
    | uncleared message _ terminated status same left => exact left.trans proven
    | stopped _ terminated status same left => exact left.trans proven

theorem clearFile_done (launchNonce : Nat) (file : Option Nat) :
    (clearFile .done launchNonce file).1 = .ok () := by
  cases file <;> rfl

/-- How the drain of the held child ends. -/
inductive Drained (plan : StopPlan) : Except RuntimeError Unit → Supervisor → Prop where
  | refused {after : Supervisor} (message : String) : Drained plan (.error (.containmentPreflight message)) after
  | interrupted {after : Supervisor} (seen : plan.enumerated = true) (cut : plan.terminated = .cancelled) :
      Drained plan (.error .cancelled) after
  | unterminated {after : Supervisor} (message : String) (status : after.status = .recoveryRequired) :
      Drained plan (.error (.exception message)) after
  | stuck {after : Supervisor} (message : String) (seen : plan.enumerated = true)
      (returned : plan.terminated = .returns) (files : ¬ (plan.clearRecord = .done ∧ plan.clearIntent = .done))
      (idle : after.unproven = []) : Drained plan (.error (.exception message)) after
  | drained {after : Supervisor} (idle : after.unproven = []) : Drained plan (.ok ()) after

theorem drainChildForReplacement_contained {stop : StopPlan} {child : Child} (contained : Contained s)
    (held : s.child = some child) :
    Action.Ends (drainChildForReplacement settings stop child) s fun outcome after =>
      Framed s after ∧ Contained after ∧ Drained stop outcome after := by
  have present : s.child.isSome := by
    rw [held]
    rfl
  unfold drainChildForReplacement
  apply Action.ends_bind_read
  apply Action.ends_bind_modify
  apply Action.ends_handle
  refine Action.Ends.mono (stopChild_contained ?_ held) ?_
  · exact contained.settle (Or.inl present) rfl (Or.inl rfl) (Nat.le_refl _)
  rintro outcome after ⟨framed, left, ended, idle⟩
  have same : Framed s after := ⟨framed.same, framed.watcher⟩
  cases ended with
  | unenumerated blind status kept =>
    refine Action.ends_bind_modify (Action.ends_raise ⟨same.update rfl rfl, ?_, .refused _⟩)
    exact left.settle (Or.inl (by rw [kept]; exact present)) rfl (Or.inl rfl) (Nat.le_refl _)
  | interrupted seen cut => exact Action.ends_raise ⟨same, left, .interrupted seen cut⟩
  | unterminated message seen failed status => exact Action.ends_raise ⟨same, left, .unterminated message status⟩
  | uncleared message seen terminated status kept unproven stuck =>
    refine Action.ends_raise ⟨same, left, .stuck message seen terminated ?_ (idle seen terminated)⟩
    rintro ⟨record, intent⟩
    rw [record, intent, clearFile_done, clearFile_done] at stuck
    simp at stuck
  | stopped seen terminated => exact ⟨same, left, .drained (idle seen terminated)⟩

end Launch

section Switch

variable {settings : Settings} {plan : SwitchPlan} {config : HostConfig} {target : RuntimeLiveSourceSpec}
  {s : Supervisor}

/-- With nothing unproven the child may be dropped. -/
theorem Contained.drop (contained : Contained s) (idle : s.unproven = []) (child : Option Child) :
    Contained { s with child := child } :=
  .of_idle idle contained.clean (fun waits => contained.checked (Or.inr waits)) contained.versions

theorem rollbackFailedProbation_contained {child : Child} {previousConfig : Option HostConfig}
    {previousTarget : Option RuntimeLiveSourceSpec} (contained : Contained s) (held : s.child = some child)
    (checked : s.ownershipChecked = true) (unabandoned : Unabandoned settings plan.restore.spawn) :
    Action.Ends (rollbackFailedProbation settings plan child previousConfig previousTarget) s fun _ after =>
      Contained after := by
  unfold rollbackFailedProbation
  apply Action.ends_bind
  apply Action.ends_handle
  refine (stopChild_contained contained held).mono ?_
  rintro outcome after ⟨framed, left, ended, idle⟩
  cases outcome with
  | error error =>
    exact Action.ends_bind_modify (Action.ends_raise
      (left.touch rfl (Or.inl rfl) (Nat.le_refl _) (Or.inr rfl) fun recovery => recovery))
  | ok value =>
    have vacant := ended.released held
    have empty : after.unproven = [] := by
      cases ended with
      | stopped seen terminated => exact idle seen terminated
    have dropped := left.drop empty (after.child.filter fun now => now.launchNonce != child.launchNonce)
    apply Action.ends_bind_modify
    split
    · rename_i config target
      apply Action.ends_bind_modify
      apply Action.ends_bind_modify
      apply Action.ends_bind_modify
      apply Action.ends_bind
      apply Action.ends_handle
      refine Action.Ends.mono (spawnTarget_contained ?_ ?_ unabandoned) ?_
      · exact ⟨empty, left.clean, framed.checked.trans checked⟩
      · exact Or.inl vacant
      rintro outcome final ⟨later, launched⟩
      cases outcome with
      | ok restored => exact launched.1.adopt
      | error error =>
        have superseded : Superseded final := by
          refine Superseded.framed ?_ later
          exact fun restart waits => Nat.lt_succ_of_le (left.versions restart waits)
        exact (launched.contained superseded).touch rfl (Or.inl rfl) (Nat.le_refl _) (Or.inr rfl) fun recovery =>
          if_pos recovery
    · exact dropped.settle (Or.inr empty) rfl (Or.inl rfl) (Nat.le_refl _)

theorem adoptReplacementCandidate_contained {child : Child} {previousConfig : Option HostConfig}
    {previousTarget : Option RuntimeLiveSourceSpec} (carried : Carried child s)
    (unabandoned : settings.probation = true → plan.probation ≠ .returns →
      Unabandoned settings plan.restore.spawn) :
    Action.Ends (adoptReplacementCandidate settings plan child previousConfig previousTarget) s fun _ after =>
      Contained after := by
  unfold adoptReplacementCandidate
  apply Action.ends_bind_modify
  have adopted := carried.adopt
  cases tried : settings.probation with
  | false => exact Action.ends_pure adopted
  | true =>
    apply Action.ends_bind_modify
    have trial : Contained { s with
        child := some child, watcher := some (.waiting child.launchNonce), status := .probation } :=
      adopted.settle (Or.inl rfl) rfl (Or.inl rfl) (Nat.le_refl _)
    cases probation : plan.probation with
    | returns => exact trial.settle (Or.inl rfl) rfl (Or.inl rfl) (Nat.le_refl _)
    | cancelled =>
      apply Action.ends_bind
      refine (stopChild_contained trial rfl).mono ?_
      rintro outcome after ⟨framed, left, ended, idle⟩
      cases outcome with
      | error error => exact left
      | ok value =>
        have empty : after.unproven = [] := by
          cases ended with
          | stopped seen terminated => exact idle seen terminated
        apply Action.ends_bind_modify
        apply Action.ends_bind
        refine Action.Ends.mono (restoreAfterCancellation_contained ?_ (fun _ _ => ⟨?_, ?_⟩)
          fun _ => unabandoned tried (by simp [probation])) ?_
        · exact left.drop empty _
        · exact ⟨empty, left.clean, framed.checked.trans carried.checked⟩
        · exact ended.released rfl
        rintro outcome final contained
        cases outcome with
        | ok value => exact Action.ends_raise contained
        | error error => exact contained
    | raises message =>
      apply Action.ends_bind
      refine (rollbackFailedProbation_contained trial rfl carried.checked
        (unabandoned tried (by simp [probation]))).mono ?_
      rintro outcome after contained
      cases outcome with
      | ok value => exact Action.ends_raise contained
      | error error => exact contained

end Switch

end OpenTulpa.Host.Containment
