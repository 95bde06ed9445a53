import OpenTulpa.Capabilities.Bystanders
import OpenTulpa.Library.Run

/-! Sequences of lifecycle operations on one capability. After every operation that returns an
activation, the row of the store is that activation and the workers held are its own. The one
activation this fails for asks for a fresh agent binding and gets the one already there: the
store repeats the active generation while the workers run under the next one. -/

namespace OpenTulpa.Capabilities.ServingRuns

open Library Text Outcome Models Revisions Generations Service Serving Bystanders

section Operations

variable {host : Host} {key : CapabilityKey}

theorem rollback_agrees {answers : Answers} {call : RollbackCall} {control : Control} (succeed : Succeed answers)
    (matched : Matched host key control) (trimmed : strip key.1 = key.1)
    (addressed : (call.tenantId, call.capabilityName) = key) :
    Action.Ends (rollback host answers call) control (Agrees host key) := by
  unfold rollback
  apply Action.ends_bind_lift
  · exact fun error _ => ⟨matched, fun _ ok => by cases ok⟩
  intro current _
  cases current with
  | none => exact Action.ends_raise ⟨matched, fun _ ok => by cases ok⟩
  | some active =>
    simp only
    split
    · exact Action.ends_raise ⟨matched, fun _ ok => by cases ok⟩
    apply Action.ends_bind_read
    split
    · exact Action.ends_raise ⟨matched, fun _ ok => by cases ok⟩
    · rename_i target _
      refine activateLocked_agrees succeed matched trimmed addressed ?_
      rintro ⟨refreshes, _⟩
      cases refreshes

/-- A deactivation that could not finish is undone, or stays pending without workers. -/
theorem restoreDeactivationLocked_matched {answers : Answers} {transition : CapabilityActivation}
    {control : Control} (trimmed : strip key.1 = key.1) (matched : Matched host key control)
    (present : control.store.activation key = some ⟨transition, .deactivating⟩) :
    Action.Ends (restoreDeactivationLocked host answers transition) control fun _ after =>
      Matched host key after := by
  have named := activation_key present
  have space : transition.namespaceName = key.1 := congrArg Prod.fst named
  have label : transition.capabilityName = key.2 := congrArg Prod.snd named
  have serving := matched.serves
  rw [present] at serving
  unfold restoreDeactivationLocked
  apply Action.ends_bind_lift
  · exact fun error _ => matched
  intro manifest found
  obtain ⟨name, filled, row, member, rowKey, rowManifest⟩ := requireManifest_ok found
  have staffed : manifest.workers ≠ [] := by
    rw [← rowManifest]
    refine matched.workers row member ?_
    rw [rowKey, space, trimmed, label]
  apply Action.ends_bind
  refine (quiesceGeneration_held serving).mono ?_
  rintro outcome quiet ⟨rfl, same, empty⟩
  simp only [staffed, ne_eq, not_false_eq_true, if_true]
  apply Action.ends_bind
  refine (startWorkers_cases answers _ _ manifest transition.config transition.agentBinding quiet).mono ?_
  rintro outcome started ⟨kept, ⟨error, rfl, workers⟩ | ⟨rfl, _, workers⟩⟩
  · refine matched.of_same (kept.trans same) ?_
    rw [kept, same, present]
    rcases workers with all | fewer
    · exact Or.inl (all ▸ empty)
    · exact Or.inl (fewer ▸ held_filter _ empty)
  have own : CapabilityWorkerSet.key ⟨strip (instanceIdOf host transition),
      if (strip transition.namespaceName).isEmpty then "default" else strip transition.namespaceName,
      manifest.name, manifest.revision, host.contentDigest manifest⟩ = key := by
    rw [space, trimmed] at filled
    simp only [CapabilityWorkerSet.key, space, trimmed, filled, Bool.false_eq_true, if_false, name, label]
  have running : started.workers.held key = [instanceIdOf host transition] := by
    rw [workers, held_append _ own empty]
    simp [instanceIdOf]
  apply Action.ends_handle
  apply Action.ends_bind
  apply ends_transact
  · intro stored cancelled done
    obtain ⟨keeps, ⟨state, before⟩, here⟩ := changeDeactivationState_ok done
    rw [space, trimmed, label] at before here
    rw [kept, same] at keeps
    rw [kept, same, present] at before
    obtain ⟨rfl, rfl⟩ : transition = cancelled ∧ .deactivating = state := by simpa using before
    refine Action.ends_pure (matched.of_keeps keeps ?_ (matched.configured.of_rows keeps.revisions ?_))
    · change Served host (stored.activation key) (started.workers.held key)
      rw [here]
      exact running
    · intro row active _
      obtain rfl := Option.some.inj (here.symm.trans active)
      exact ⟨.deactivating, present, by simp⟩
  · intro error _
    apply Action.ends_bind
    refine (quiesceGeneration_held (Or.inr running)).mono ?_
    rintro outcome after ⟨rfl, again, none⟩
    have unchanged : after.store = control.store := again.trans (kept.trans same)
    refine Action.ends_raise (matched.of_same unchanged ?_)
    rw [unchanged, present]
    exact Or.inl none

/-- The transition is finished, or undone, or left pending. -/
theorem finishOrRestore_matched {answers : Answers} {transition : CapabilityActivation} {control : Control}
    (trimmed : strip key.1 = key.1) (matched : Matched host key control)
    (present : control.store.activation key = some ⟨transition, .deactivating⟩) :
    Action.Ends
      (Action.handle (finishDeactivationLocked host transition) fun error => do
        Action.handle (restoreDeactivationLocked host answers transition)
          fun _ => Action.raise .pendingReconciliation
        Action.raise error) control fun outcome after =>
      Matched host key after ∧
        ∀ removed, outcome = .ok removed → after.store.activation key = some ⟨removed, .inactive⟩ := by
  apply Action.ends_handle
  refine (finishDeactivationLocked_matched (activation_key present) trimmed matched present).mono ?_
  rintro outcome after ⟨ended, _, removes, fails⟩
  cases outcome with
  | ok removed => exact ⟨ended, removes⟩
  | error error =>
    apply Action.ends_bind
    apply Action.ends_handle
    refine (restoreDeactivationLocked_matched trimmed ended (by rw [fails error rfl, present])).mono ?_
    intro restored final matched
    cases restored with
    | ok value => exact Action.ends_raise ⟨matched, fun _ ok => by cases ok⟩
    | error again => exact Action.ends_raise ⟨matched, fun _ ok => by cases ok⟩

theorem deactivateCapability_matched {answers : Answers} {call : DeactivateCall} {control : Control}
    (matched : Matched host key control) (addressed : (strip call.tenantId, call.capabilityName) = key) :
    Action.Ends (deactivateCapability host answers call) control fun outcome after =>
      Matched host key after ∧
        ∀ removed, outcome = .ok removed → after.store.activation key = some ⟨removed, .inactive⟩ := by
  have trimmed : strip key.1 = key.1 := by
    rw [← addressed]
    exact strip_strip _
  have raised : ∀ {error : ControlError}, ∀ removed : CapabilityActivation, Except.error error = .ok removed →
      control.store.activation key = some ⟨removed, .inactive⟩ := fun _ ok => by cases ok
  unfold deactivateCapability
  apply Action.ends_bind_lift
  · exact fun _ _ => ⟨matched, raised⟩
  intro _ _
  apply Action.ends_bind_lift
  · exact fun _ _ => ⟨matched, raised⟩
  intro active activeFound
  apply Action.ends_bind_lift
  · exact fun _ _ => ⟨matched, raised⟩
  intro leaving leavingFound
  cases current : active.or leaving with
  | none =>
    apply Action.ends_bind_lift
    · exact fun _ _ => ⟨matched, raised⟩
    intro completed completedFound
    cases completed with
    | none => exact Action.ends_raise ⟨matched, raised⟩
    | some tombstone =>
      simp only
      split
      · refine Action.ends_pure ⟨matched, fun removed ok => ?_⟩
        cases ok
        have found := inState_row (ofStore_ok completedFound)
        rw [addressed] at found
        exact found
      · exact Action.ends_raise ⟨matched, raised⟩
  | some serving =>
    simp only
    split
    · exact Action.ends_raise ⟨matched, raised⟩
    cases leaving with
    | some transition =>
      have found := inState_row (ofStore_ok leavingFound)
      rw [addressed] at found
      apply Action.ends_bind_pure
      exact finishOrRestore_matched trimmed matched found
    | none =>
      apply Action.ends_bind
      apply ends_transact
      · intro stored transition done
        obtain ⟨begun, here⟩ := beginDeactivation_matched addressed matched done
        exact finishOrRestore_matched trimmed begun here
      · exact fun _ _ => ⟨matched, raised⟩

theorem answerFailedRefresh_agrees {call : RefreshCall} {active : CapabilityActivation} {control : Control}
    (matched : Matched host key control) (trimmed : strip key.1 = key.1) (tenant : call.tenantId = key.1)
    (named : active.key = key) :
    Action.Ends (answerFailedRefresh host call active) control fun outcome after =>
      Matched host key after ∧
        ∀ moved, outcome = .ok (some moved) → after.store.activation key = some ⟨moved, .active⟩ := by
  have label : active.capabilityName = key.2 := congrArg Prod.snd named
  unfold answerFailedRefresh
  apply Action.ends_bind_lift
  · exact fun _ _ => ⟨matched, fun _ ok => by cases ok⟩
  intro current read
  split
  · rename_i moved kept
    refine Action.ends_pure ⟨matched, fun _ ok => ?_⟩
    cases ok
    rw [(Option.filter_eq_some_iff.mp kept).1] at read
    have row := inState_row (ofStore_ok read)
    rw [tenant, trimmed, label] at row
    exact row
  · apply Action.ends_bind
    refine (disableActiveLocked_matched named trimmed matched).mono ?_
    intro outcome final ended
    cases outcome with
    | ok value => exact Action.ends_pure ⟨ended, fun _ ok => by cases ok⟩
    | error error => exact ⟨ended, fun _ ok => by cases ok⟩

theorem refreshOne_agrees {asked answers : Answers} {call : RefreshCall} {active : CapabilityActivation}
    {control : Control} (succeed : Succeed answers) (matched : Matched host key control)
    (trimmed : strip key.1 = key.1) (tenant : call.tenantId = key.1) (named : active.key = key) :
    Action.Ends (refreshOne host asked answers call active) control fun outcome after =>
      Matched host key after ∧
        ∀ moved, outcome = .ok (some moved) → after.store.activation key = some ⟨moved, .active⟩ := by
  have label : active.capabilityName = key.2 := congrArg Prod.snd named
  have addressed : (call.tenantId, active.capabilityName) = key := Prod.ext tenant label
  have nothing : ∀ moved : CapabilityActivation, (Except.ok none : Except ControlError _) = .ok (some moved) →
      control.store.activation key = some ⟨moved, .active⟩ := fun _ ok => by cases ok
  have raised : ∀ {error : ControlError}, ∀ moved : CapabilityActivation, Except.error error = .ok (some moved) →
      control.store.activation key = some ⟨moved, .active⟩ := fun _ ok => by cases ok
  unfold refreshOne
  split
  · exact Action.ends_pure ⟨matched, nothing⟩
  apply Action.ends_bind_lift
  · exact fun _ _ => ⟨matched, raised⟩
  intro safe _
  apply Action.ends_bind_lift
  · exact fun _ _ => ⟨matched, raised⟩
  intro found _
  cases found with
  | none => exact Action.ends_pure ⟨matched, nothing⟩
  | some manifest =>
    apply Action.ends_handle
    apply Action.ends_bind_lift
    · exact fun _ _ => answerFailedRefresh_agrees matched trimmed tenant named
    intro bindings _
    split
    · exact Action.ends_pure ⟨matched, nothing⟩
    · apply Action.ends_bind
      have moves : ¬ RefreshesInPlace host answers (call.activation active) control := by
        rintro ⟨refreshes, _⟩
        cases refreshes
      refine (activateLocked_agrees succeed matched trimmed addressed moves).mono ?_
      rintro outcome after ⟨ended, agrees⟩
      cases outcome with
      | ok activated =>
        refine Action.ends_pure ⟨ended, fun moved ok => ?_⟩
        cases ok
        exact agrees activated rfl
      | error error => exact answerFailedRefresh_agrees ended trimmed tenant named

theorem own_of_matched {control : Control} (matched : Matched host key control) : Own host key control := by
  intro instanceId running
  have serving := matched.serves
  cases present : control.store.activation key with
  | none =>
    rw [present] at serving
    simp [show control.workers.held key = [] from serving] at running
  | some row =>
    have named := activation_key present
    have space : row.activation.namespaceName = key.1 := congrArg Prod.fst named
    have label : row.activation.capabilityName = key.2 := congrArg Prod.snd named
    have listed : control.workers.held key = [] ∨ control.workers.held key = [instanceIdOf host row.activation] := by
      rw [present] at serving
      obtain ⟨activation, state⟩ := row
      cases state with
      | active => exact Or.inr serving
      | deactivating => exact serving
      | inactive => exact Or.inl serving
    rcases listed with empty | single
    · simp [empty] at running
    · rw [single, List.mem_singleton, instanceIdOf, space, label] at running
      exact ⟨_, running⟩

theorem matched_of_untouched {control after : Control} (matched : Matched host key control)
    (untouched : Untouched key control after) : Matched host key after where
  distinct := untouched.distinct matched.distinct
  workers := by
    rw [untouched.revisions]
    exact matched.workers
  serves := by
    rw [untouched.row, untouched.held]
    exact matched.serves
  configured := matched.configured.of_rows untouched.revisions fun row present alive =>
    ⟨row.lifecycleState, by rw [← untouched.row, present], alive⟩

/-- A round leaves this capability matched, moves its row only when it is its own round, and
returns its activation only then. -/
theorem refreshOne_round {asked answers : Answers} {call : RefreshCall} {active : CapabilityActivation}
    {control : Control} (succeed : active.capabilityName = key.2 → Succeed answers)
    (matched : Matched host key control) (trimmed : strip key.1 = key.1) (tenant : call.tenantId = key.1)
    (space : active.namespaceName = key.1)
    (other : call.concerns host active = true → active.capabilityName ≠ key.2 →
      Apart host key active.capabilityName) :
    Action.Ends (refreshOne host asked answers call active) control fun outcome after =>
      Matched host key after ∧
        (∀ moved, outcome = .ok (some moved) → moved.key = key →
          active.capabilityName = key.2 ∧ after.store.activation key = some ⟨moved, .active⟩) ∧
        (active.capabilityName ≠ key.2 → after.store.activation key = control.store.activation key) := by
  by_cases own : active.capabilityName = key.2
  · refine (refreshOne_agrees (succeed own) matched trimmed tenant (Prod.ext space own)).mono ?_
    rintro outcome after ⟨ended, agrees⟩
    exact ⟨ended, fun moved done _ => ⟨own, agrees moved done⟩, fun foreign => absurd own foreign⟩
  · have untouched : Untouched key control ((refreshOne host asked answers call active).run control).2 := by
      by_cases concerned : call.concerns host active = true
      · exact respects_refreshOne (other concerned own) trimmed asked answers call tenant
          (Prod.ext space rfl) control (own_of_matched matched)
      · simp only [refreshOne, concerned, Bool.not_false, if_true, Action.run_pure]
        exact ⟨rfl, id, rfl, rfl⟩
    refine ⟨matched_of_untouched matched untouched, fun moved done named => ?_, fun _ => untouched.row⟩
    have title := yields_refreshOne asked answers call active control (some moved) done moved rfl
    rw [named] at title
    exact absurd (congrArg Prod.snd title).symm own

/-- One after another the capabilities that use the secret are moved; the row of this one is
what its own round made of it. -/
theorem refreshAll_agrees {asked answers : String → Answers} {call : RefreshCall}
    (succeed : Succeed (answers key.2)) (trimmed : strip key.1 = key.1) (tenant : call.tenantId = key.1)
    {actives : List CapabilityActivation} {control : Control} (matched : Matched host key control)
    (spaces : ∀ active ∈ actives, active.namespaceName = key.1)
    (distinct : (actives.map CapabilityActivation.capabilityName).Nodup)
    (others : ∀ active ∈ actives, call.concerns host active = true → active.capabilityName ≠ key.2 →
      Apart host key active.capabilityName) :
    Action.Ends (refreshAll host asked answers call actives) control fun outcome after =>
      Matched host key after ∧
        (∀ returned, outcome = .ok returned → ∀ activated ∈ returned, activated.key = key →
          after.store.activation key = some ⟨activated, .active⟩) ∧
        (key.2 ∉ actives.map CapabilityActivation.capabilityName →
          after.store.activation key = control.store.activation key) := by
  induction actives generalizing control with
  | nil =>
    refine Action.ends_pure ⟨matched, fun returned ok activated member => ?_, fun _ => rfl⟩
    cases ok
    simp at member
  | cons active rest ih =>
    rw [List.map_cons, List.nodup_cons] at distinct
    have onward := fun (control : Control) (matched : Matched host key control) =>
      ih matched (fun active member => spaces active (List.mem_cons_of_mem _ member)) distinct.2
        fun active member => others active (List.mem_cons_of_mem _ member)
    apply Action.ends_bind
    refine (refreshOne_round (fun own => own ▸ succeed) matched trimmed tenant (spaces active (by simp))
      (others active (by simp))).mono ?_
    rintro outcome middle ⟨kept, moves, stays⟩
    have absent : key.2 ∉ (active :: rest).map CapabilityActivation.capabilityName →
        active.capabilityName ≠ key.2 ∧ key.2 ∉ rest.map CapabilityActivation.capabilityName := by
      intro missing
      rw [List.map_cons, List.mem_cons, not_or] at missing
      exact ⟨Ne.symm missing.1, missing.2⟩
    cases outcome with
    | error error => exact ⟨kept, fun _ ok => by (cases ok), fun missing => stays (absent missing).1⟩
    | ok first =>
      apply Action.ends_bind
      refine (onward middle kept).mono ?_
      rintro outcome final ⟨ended, agrees, same⟩
      have unmoved : key.2 ∉ (active :: rest).map CapabilityActivation.capabilityName →
          final.store.activation key = control.store.activation key := fun missing =>
        (same (absent missing).2).trans (stays (absent missing).1)
      cases outcome with
      | error error => exact ⟨ended, fun _ ok => by (cases ok), unmoved⟩
      | ok returned =>
        refine Action.ends_pure ⟨ended, ?_, unmoved⟩
        rintro _ ⟨rfl⟩ activated member named
        rcases List.mem_append.mp member with head | tail
        · obtain ⟨own, row⟩ := moves activated (by rw [Option.mem_toList.mp head]) named
          rw [same (own ▸ distinct.1), row]
        · exact agrees returned rfl activated tail named

theorem mem_listActive {store : CapabilityRevisionStore} {safe : String} {active : CapabilityActivation}
    (listed : active ∈ listActive store safe) : active.namespaceName = safe := by
  simp only [listActive, List.mem_mergeSort, List.mem_map, List.mem_filter, Bool.and_eq_true, beq_iff_eq] at listed
  obtain ⟨row, ⟨_, space, _⟩, rfl⟩ := listed
  exact space

theorem listActive_distinct {store : CapabilityRevisionStore} {safe : String}
    (distinct : (store.activations.map ActivationRow.key).Nodup) :
    ((listActive store safe).map CapabilityActivation.capabilityName).Nodup := by
  have sorted : (listActive store safe).Perm ((store.activations.filter fun row =>
      row.activation.namespaceName == safe && row.lifecycleState == .active).map ActivationRow.activation) :=
    List.mergeSort_perm _ _
  rw [(sorted.map _).nodup_iff, List.map_map]
  apply List.Nodup.of_map (fun name => (safe, name))
  rw [List.map_map]
  have keyed : (store.activations.filter fun row =>
      row.activation.namespaceName == safe && row.lifecycleState == .active).map
        ((fun name => (safe, name)) ∘ CapabilityActivation.capabilityName ∘ ActivationRow.activation) =
      (store.activations.filter fun row =>
        row.activation.namespaceName == safe && row.lifecycleState == .active).map ActivationRow.key := by
    apply List.map_congr_left
    intro row kept
    have space := (Bool.and_eq_true _ _ ▸ (List.mem_filter.mp kept).2).1
    exact Prod.ext (eq_of_beq space).symm rfl
  rw [keyed]
  exact distinct.sublist (List.filter_sublist.map _)

end Operations

inductive Op where
  | activate (answers : Answers) (call : ActivateCall)
  | rollback (answers : Answers) (call : RollbackCall)
  | deactivate (answers : Answers) (call : DeactivateCall)
  | refreshSecretBindings (asked answers : String → Answers) (call : RefreshCall)

/-- An operation, with the activations it returns. -/
def Op.action (host : Host) : Op → Act (List CapabilityActivation)
  | .activate answers call => do
    let activated ← activateCapability host answers call
    return [activated]
  | .rollback answers call => do
    let activated ← Service.rollback host answers call
    return [activated]
  | .deactivate answers call => do
    let removed ← deactivateCapability host answers call
    return [removed]
  | .refreshSecretBindings asked answers call => Service.refreshSecretBindings host asked answers call

def step (host : Host) (control : Control) (op : Op) : Control := ((op.action host).run control).2

/-- The operation is one on this capability, and the ports do what they are asked. -/
def On (key : CapabilityKey) : Op → Prop
  | .activate answers call => Succeed answers ∧ (strip call.tenantId, call.capabilityName) = key
  | .rollback answers call => Succeed answers ∧ (strip call.tenantId, call.capabilityName) = key
  | .deactivate answers call => Succeed answers ∧ (strip call.tenantId, call.capabilityName) = key
  | .refreshSecretBindings _ answers call => (∀ name, Succeed (answers name)) ∧ strip call.tenantId = key.1

/-- The tenant is written without surrounding space, an activation does not refresh the agent
binding into what it is, and the other capabilities that use a refreshed secret have instance
names of their own. -/
def Avoids (host : Host) (key : CapabilityKey) (control : Control) : Op → Prop
  | .activate answers call => strip call.tenantId = call.tenantId ∧
      ¬ RefreshesInPlace host answers { call with preserveAgentBinding := false } control
  | .rollback _ call => strip call.tenantId = call.tenantId
  | .deactivate _ _ => True
  | .refreshSecretBindings _ _ call => strip call.tenantId = call.tenantId ∧
      ∀ active ∈ listActive control.store key.1, call.concerns host active = true →
        active.capabilityName ≠ key.2 → Apart host key active.capabilityName

/-- The row is the activation, and exactly its workers are held. -/
def Runs (host : Host) (key : CapabilityKey) (activated : CapabilityActivation) (after : Control) : Prop :=
  after.store.activation key = some ⟨activated, .active⟩ ∧ after.workers.held key = [instanceIdOf host activated]

/-- What the returned activations say about the state left behind. -/
def Reports (host : Host) (key : CapabilityKey) (op : Op) (returned : List CapabilityActivation)
    (after : Control) : Prop :=
  match op with
  | .activate _ _ | .rollback _ _ => ∀ activated ∈ returned, Runs host key activated after
  | .deactivate _ _ => ∀ removed ∈ returned,
      after.store.activation key = some ⟨removed, .inactive⟩ ∧ after.workers.held key = []
  | .refreshSecretBindings _ _ _ => ∀ activated ∈ returned, activated.key = key → Runs host key activated after

section Steps

variable {host : Host} {key : CapabilityKey}

theorem runs_of_matched {control : Control} {activated : CapabilityActivation} (matched : Matched host key control)
    (row : control.store.activation key = some ⟨activated, .active⟩) : Runs host key activated control := by
  have serving := matched.serves
  rw [row] at serving
  exact ⟨row, serving⟩

/-- The outcome of an activation or a rollback, once its result is put in a list. -/
theorem agrees_single {action : Act CapabilityActivation} {control : Control}
    (agrees : Action.Ends action control (Agrees host key)) :
    Action.Ends (do
      let activated ← action
      return [activated] : Act (List CapabilityActivation)) control fun outcome after =>
      Matched host key after ∧ ∀ returned, outcome = .ok returned →
        ∀ activated ∈ returned, Runs host key activated after := by
  apply Action.ends_bind
  refine agrees.mono ?_
  rintro outcome after ⟨ended, row⟩
  cases outcome with
  | error error => exact ⟨ended, fun _ ok => by cases ok⟩
  | ok activated =>
    refine Action.ends_pure ⟨ended, ?_⟩
    rintro _ ⟨rfl⟩ _ member
    rw [List.mem_singleton.mp member]
    exact runs_of_matched ended (row activated rfl)

theorem action_reports {control : Control} {op : Op} (matched : Matched host key control) (on : On key op)
    (avoids : Avoids host key control op) :
    Action.Ends (op.action host) control fun outcome after =>
      Matched host key after ∧ ∀ returned, outcome = .ok returned → Reports host key op returned after := by
  cases op with
  | activate answers call =>
    obtain ⟨succeed, named⟩ := on
    obtain ⟨tidy, moves⟩ := avoids
    have trimmed : strip key.1 = key.1 := by rw [← named]; exact strip_strip _
    rw [tidy] at named
    simp only [Op.action, activateCapability]
    exact agrees_single (activateLocked_agrees succeed matched trimmed named moves)
  | rollback answers call =>
    obtain ⟨succeed, named⟩ := on
    have trimmed : strip key.1 = key.1 := by rw [← named]; exact strip_strip _
    rw [show strip call.tenantId = call.tenantId from avoids] at named
    simp only [Op.action]
    exact agrees_single (rollback_agrees succeed matched trimmed named)
  | deactivate answers call =>
    simp only [Op.action]
    apply Action.ends_bind
    refine (deactivateCapability_matched matched on.2).mono ?_
    rintro outcome after ⟨ended, gone⟩
    cases outcome with
    | error error => exact ⟨ended, fun _ ok => by cases ok⟩
    | ok removed =>
      refine Action.ends_pure ⟨ended, ?_⟩
      rintro _ ⟨rfl⟩ _ member
      rw [List.mem_singleton.mp member]
      have serving := ended.serves
      rw [gone removed rfl] at serving
      exact ⟨gone removed rfl, serving⟩
  | refreshSecretBindings asked answers call =>
    obtain ⟨succeed, space⟩ := on
    obtain ⟨tidy, others⟩ := avoids
    have trimmed : strip key.1 = key.1 := by rw [← space]; exact strip_strip _
    have tenant : call.tenantId = key.1 := tidy.symm.trans space
    simp only [Op.action, Service.refreshSecretBindings]
    apply Action.ends_bind_lift
    · exact fun _ _ => ⟨matched, fun _ ok => by cases ok⟩
    intro safe named
    obtain rfl : safe = key.1 := by
      cases checked : safeNamespace call.tenantId with
      | error error => simp [checked, Except.mapError] at named
      | ok value =>
        simp only [checked, Except.mapError, Except.ok.injEq] at named
        rw [← named, ← safeNamespace_eq checked, space]
    apply Action.ends_bind_read
    refine (refreshAll_agrees (succeed key.2) trimmed tenant matched (fun _ listed => mem_listActive listed)
      (listActive_distinct matched.distinct) others).mono ?_
    rintro outcome after ⟨ended, agrees, _⟩
    exact ⟨ended, fun returned done activated member named =>
      runs_of_matched ended (agrees returned done activated member named)⟩

end Steps

def sampleManifest : CapabilityManifest where
  name := "telegram"
  version := "1.0.0"
  revision := 1
  workers := [⟨"interface", some ⟨"owner-agent", "interactive", .owner⟩,
    [⟨"OPENTULPA_AGENT_API_TOKEN", [], .issued, true⟩]⟩]

/-- The hashes are those of the tenant `owner` and the capability `telegram`. -/
def sampleHost : Host where
  bundled := []
  blockedCapabilities := []
  configDefaults := fun _ _ => []
  validConfig := fun _ _ => true
  contentDigest := fun manifest => manifest.name ++ "@" ++ toString manifest.revision
  bodyDigest := fun manifest => manifest.name ++ "@" ++ manifest.version
  tenantHash := fun _ => "4c1029697ee35871"
  nameHash := fun _ => "3f404629"

def sampleAnswers : Answers where
  bind := fun _ _ _ => some []
  bindAgentRun := fun _ _ => some ⟨⟨"owner", "owner-agent", 1⟩, "interactive", .owner⟩
  starts := fun _ _ => true
  now := 100

def sampleKey : CapabilityKey := ("owner", "telegram")

/-- One tested revision, nothing active. -/
def sampleStart : Control where
  store := ⟨[⟨"owner", sampleManifest, "telegram@1", 1⟩], [], [⟨sampleKey, 1, "telegram@1", true⟩]⟩
  workers := []

def sampleCall : ActivateCall where
  tenantId := "owner"
  actorId := "owner"
  capabilityName := "telegram"
  revision := 1
  expectedGeneration := none

def sampleActivation : CapabilityActivation where
  namespaceName := "owner"
  capabilityName := "telegram"
  revision := 1
  manifestDigest := "telegram@1"
  generation := 1
  activatedAt := 100
  config := []
  secretHandles := []
  secretBindings := []
  agentBinding := some ⟨⟨"owner", "owner-agent", 1⟩, "interactive", .owner⟩

def sampleRun : List Op :=
  [.activate sampleAnswers sampleCall, .deactivate sampleAnswers ⟨"owner", "owner", "telegram", 1⟩]

theorem sampleStart_matched : Matched sampleHost sampleKey sampleStart where
  distinct := by decide
  workers := by decide
  serves := by rfl
  configured := by
    intro row manifest present
    cases present

/-- The state after the first activation. -/
def servingStart : Control where
  store := { sampleStart.store with activations := [⟨sampleActivation, .active⟩] }
  workers := [⟨"cap_4c1029697ee35871_telegram_3f404629_g1", "owner", "telegram", 1, "telegram@1"⟩]

def refreshAgain : Op :=
  .activate sampleAnswers { sampleCall with expectedGeneration := some 1, refreshAgentBinding := true }

end OpenTulpa.Capabilities.ServingRuns
