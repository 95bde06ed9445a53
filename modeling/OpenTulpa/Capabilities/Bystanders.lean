import OpenTulpa.Capabilities.Serving

/-! Refreshing a secret moves every capability of the tenant that uses it, one after another.
Moving one capability leaves the rows and the workers of another alone, as long as the instance
names of the two differ. -/

namespace OpenTulpa.Capabilities.Bystanders

open Library Text Outcome Models Revisions Generations Service Serving

/-- The workers held for the capability carry its own instance names. -/
def Own (host : Host) (key : CapabilityKey) (control : Control) : Prop :=
  ∀ instanceId ∈ control.workers.held key, ∃ generation, instanceId = nextInstanceId host key.1 key.2 generation

/-- The rows of the store that belong to the capability and its workers are as before. -/
structure Untouched (key : CapabilityKey) (control after : Control) : Prop where
  revisions : after.store.revisions = control.store.revisions
  distinct : (control.store.activations.map ActivationRow.key).Nodup →
    (after.store.activations.map ActivationRow.key).Nodup
  row : after.store.activation key = control.store.activation key
  held : after.workers.held key = control.workers.held key

def Spares (host : Host) (key : CapabilityKey) (control after : Control) : Prop :=
  Own host key control → Untouched key control after

theorem Untouched.own {host : Host} {key : CapabilityKey} {control after : Control}
    (untouched : Untouched key control after) (own : Own host key control) : Own host key after := by
  unfold Own
  rw [untouched.held]
  exact own

instance (host : Host) (key : CapabilityKey) : Std.Refl (Spares host key) where
  refl _ := fun _ => ⟨rfl, id, rfl, rfl⟩

instance (host : Host) (key : CapabilityKey) : IsTrans Control (Spares host key) where
  trans _ _ _ first second := fun own =>
    have before := first own
    have after := second (before.own own)
    ⟨after.revisions.trans before.revisions, after.distinct ∘ before.distinct, after.row.trans before.row,
      after.held.trans before.held⟩

/-- Another capability of the same tenant, whose instance names cannot be taken for this one's. -/
structure Apart (host : Host) (key : CapabilityKey) (name : String) : Prop where
  named : name ≠ key.2
  trimmed : strip name ≠ key.2
  instances : ∀ generation other, nextInstanceId host key.1 name generation ≠ nextInstanceId host key.1 key.2 other

theorem held_of_filter {workers : CapabilityWorkerManager} {key : CapabilityKey} {keep : CapabilityWorkerSet → Bool}
    (kept : ∀ set ∈ workers, set.key = key → keep set = true) :
    CapabilityWorkerManager.held (workers.filter keep) key = workers.held key := by
  simp only [CapabilityWorkerManager.held, List.filter_filter]
  congr 1
  apply List.filter_congr
  intro set member
  by_cases own : set.key = key
  · simp [own, kept set member own]
  · simp [own]

section Act

variable {host : Host} {key : CapabilityKey} {name : String}

theorem respects_transact {α : Type}
    {operation : CapabilityRevisionStore → Except RevisionError (CapabilityRevisionStore × α)}
    {other : CapabilityKey} (different : key ≠ other)
    (keeps : ∀ store stored value, operation store = .ok (stored, value) → Keeps other store stored) :
    Action.Respects (Spares host key) (transact operation) := by
  intro control _
  simp only [Action.run, transact]
  cases done : operation control.store with
  | ok pair =>
    have moved := keeps _ pair.1 pair.2 done
    exact ⟨moved.revisions, moved.distinct, moved.elsewhere key different, rfl⟩
  | error error => exact ⟨rfl, id, rfl, rfl⟩

theorem respects_stopInstance (apart : Apart host key name) (generation : Nat) :
    Action.Respects (Spares host key) (stopInstance (nextInstanceId host key.1 name generation)) := by
  intro control own
  refine ⟨rfl, id, rfl, held_of_filter ?_⟩
  intro set member named
  have listed : set.instanceId ∈ control.workers.held key :=
    List.mem_map_of_mem (List.mem_filter.mpr ⟨member, by simp [named]⟩)
  obtain ⟨other, equal⟩ := own _ listed
  rw [equal, bne_iff_ne]
  exact (apart.instances generation other).symm

theorem respects_startWorkers (apart : Apart host key name) (answers : Answers) (generation : Nat)
    {manifest : CapabilityManifest} (named : manifest.name = name) (config : JsonObject)
    (agentBinding : Option AgentRunBinding) :
    Action.Respects (Spares host key) (startWorkers host answers key.1 (nextInstanceId host key.1 name generation)
      manifest config agentBinding) := by
  intro control own
  have ends : Action.Ends (startWorkers host answers key.1 (nextInstanceId host key.1 name generation) manifest config
      agentBinding) control _ := startWorkers_cases answers key.1 _ manifest config agentBinding control
  obtain ⟨same, ⟨_, _, workers⟩ | ⟨_, _, workers⟩⟩ := ends
  · refine ⟨congrArg _ same, by rw [same]; exact id, by rw [same], ?_⟩
    rcases workers with all | fewer
    · rw [all]
    · rw [fewer]
      exact (respects_stopInstance apart generation control own).held
  · refine ⟨congrArg _ same, by rw [same]; exact id, by rw [same], ?_⟩
    rw [workers]
    have foreign : ∀ space, ((space, manifest.name) == key) = false := by
      intro space
      rw [beq_eq_false_iff_ne]
      intro equal
      exact apart.named (named ▸ congrArg Prod.snd equal)
    simp [CapabilityWorkerManager.held, CapabilityWorkerSet.key, foreign]

theorem transact_ok {α : Type}
    {operation : CapabilityRevisionStore → Except RevisionError (CapabilityRevisionStore × α)} {control : Control}
    {value : α} (done : ((transact operation).run control).1 = .ok value) :
    ∃ stored, operation control.store = .ok (stored, value) := by
  simp only [Action.run, transact] at done
  cases result : operation control.store with
  | error error => simp [result] at done
  | ok pair =>
    simp only [result, Except.ok.injEq] at done
    exact ⟨pair.1, by rw [← done]⟩

theorem respects_disableActiveLocked (apart : Apart host key name) (trimmed : strip key.1 = key.1)
    {active : CapabilityActivation} (named : active.key = (key.1, name)) :
    Action.Respects (Spares host key) (disableActiveLocked host active) := by
  have space : active.namespaceName = key.1 := congrArg Prod.fst named
  have label : active.capabilityName = name := congrArg Prod.snd named
  have different : ∀ space, key ≠ (space, name) := fun space equal => apart.named (congrArg Prod.snd equal).symm
  unfold disableActiveLocked
  rw [space, label]
  apply Action.respects_bind
  · exact respects_transact (different _) fun _ _ _ done => (beginDeactivation_ok done).1
  intro control transition begun
  obtain ⟨stored, done⟩ := transact_ok begun
  obtain ⟨_, _, here⟩ := beginDeactivation_ok done
  rw [trimmed] at here
  have own := activation_key here
  have place : transition.namespaceName = key.1 := congrArg Prod.fst own
  have title : transition.capabilityName = name := congrArg Prod.snd own
  apply Action.respects_bind
  · unfold finishDeactivationLocked quiesceGeneration
    rw [instanceIdOf, place, title]
    apply Action.respects_bind
    · apply Action.respects_bind (respects_stopInstance apart _)
      intro _ _ _
      apply Action.respects_modify
      intro _ _
      refine ⟨rfl, id, rfl, held_of_filter ?_⟩
      intro set _ mine
      rw [mine, bne_iff_ne]
      exact fun equal => apart.trimmed (congrArg Prod.snd equal).symm
    · intro _ _ _
      exact respects_transact (different _) fun _ _ _ done => (changeDeactivationState_ok done).1
  · exact fun _ _ _ => Action.respects_pure _

theorem respects_restoreCurrent (apart : Apart host key name) (answers : Answers) (call : ActivateCall)
    {current : Option CapabilityActivation}
    (named : ∀ active, current = some active → active.key = (key.1, name)) :
    Action.Respects (Spares host key) (restoreCurrent host answers call current) := by
  cases current with
  | none => exact Action.respects_pure _
  | some active =>
    have space : active.namespaceName = key.1 := congrArg Prod.fst (named active rfl)
    have label : active.capabilityName = name := congrArg Prod.snd (named active rfl)
    unfold restoreCurrent
    apply Action.respects_bind_lift
    intro control manifest found
    obtain ⟨title, _⟩ := requireManifest_ok found
    unfold restorePreviousGeneration
    rw [instanceIdOf, space, label]
    exact respects_startWorkers apart answers _ (title.trans label) _ _

theorem respects_switchGeneration (apart : Apart host key name) (answers : Answers) (call : ActivateCall)
    {checked : Checked} (agentBinding : Option AgentRunBinding)
    (addressed : (call.tenantId, call.capabilityName) = (key.1, name)) (titled : checked.manifest.name = name)
    (named : ∀ active, checked.current = some active → active.key = (key.1, name)) :
    Action.Respects (Spares host key) (switchGeneration host answers call checked agentBinding) := by
  have tenant : call.tenantId = key.1 := congrArg Prod.fst addressed
  have label : call.capabilityName = name := congrArg Prod.snd addressed
  have restores := respects_restoreCurrent apart answers call named
  have different : key ≠ (strip call.tenantId, call.capabilityName) := fun equal =>
    apart.named (label ▸ (congrArg Prod.snd equal).symm)
  unfold switchGeneration
  rw [tenant, label]
  apply Action.respects_bind_lift
  intro _ generation _
  have raises : ∀ {α : Type} error, Action.Respects (Spares host key) (do
      restoreCurrent host answers call checked.current
      Action.raise error : Act α) :=
    fun error => Action.respects_bind restores fun _ _ _ => Action.respects_raise error
  have commits : ∀ handler : ControlError → Act CapabilityActivation,
      (∀ error, Action.Respects (Spares host key) (handler error)) →
      Action.Respects (Spares host key)
        (Action.handle
          (transact fun store => activate host.contentDigest store (checked.request call agentBinding) answers.now)
          handler) := fun _ handles =>
    Action.respects_handle (respects_transact different fun _ _ _ done => (activate_ok done).1) handles
  have starts := Action.respects_handle
    (respects_startWorkers apart answers generation titled checked.config agentBinding) raises
  have stops : ∀ active, checked.current = some active →
      Action.Respects (Spares host key) (stopInstance (instanceIdOf host active)) := by
    intro active current
    have space : active.namespaceName = key.1 := congrArg Prod.fst (named active current)
    have title : active.capabilityName = name := congrArg Prod.snd (named active current)
    rw [instanceIdOf, space, title]
    exact respects_stopInstance apart _
  have stopsNext := respects_stopInstance apart generation
  simp only
  by_cases staffed : checked.manifest.workers = []
  · simp only [staffed, ne_eq, not_true_eq_false, if_false]
    cases current : checked.current with
    | none => exact commits _ (current ▸ raises)
    | some active =>
      exact Action.respects_bind (stops active current) fun _ _ _ => commits _ (current ▸ raises)
  · simp only [staffed, ne_eq, not_false_eq_true, if_true]
    have onward : Action.Respects (Spares host key) (do
        Action.handle
          (startWorkers host answers key.1 (nextInstanceId host key.1 name generation) checked.manifest
            checked.config agentBinding)
          fun error => do
            restoreCurrent host answers call checked.current
            Action.raise error
        Action.handle
          (transact fun store => activate host.contentDigest store (checked.request call agentBinding) answers.now)
          fun error => do
            stopInstance (nextInstanceId host key.1 name generation)
            restoreCurrent host answers call checked.current
            Action.raise error) :=
      Action.respects_bind starts fun _ _ _ =>
        commits _ fun error => Action.respects_bind stopsNext fun _ _ _ => raises error
    cases current : checked.current with
    | none =>
      rw [current] at onward
      exact onward
    | some active =>
      rw [current] at onward
      exact Action.respects_bind (stops active current) fun _ _ _ => onward

theorem respects_activateLocked (apart : Apart host key name) (trimmed : strip key.1 = key.1) (answers : Answers)
    (call : ActivateCall) (addressed : (call.tenantId, call.capabilityName) = (key.1, name)) :
    Action.Respects (Spares host key) (activateLocked host answers call) := by
  have tenant : call.tenantId = key.1 := congrArg Prod.fst addressed
  have label : call.capabilityName = name := congrArg Prod.snd addressed
  unfold activateLocked
  apply Action.respects_bind_lift
  intro control checked done
  have stored := (checkActivation_ok done).manifest
  have active := (checkActivation_ok done).active
  have titled : checked.manifest.name = name := (requireManifest_ok stored).1.trans label
  have named : ∀ active, checked.current = some active → active.key = (key.1, name) := by
    intro found current
    rw [current] at active
    have own := activation_key (inState_row active)
    rw [tenant, trimmed, label] at own
    exact own
  have onward : Action.Respects (Spares host key) (keepOrSwitch host answers call checked) := by
    unfold keepOrSwitch
    split
    · exact Action.respects_pure _
    · apply Action.respects_bind_lift
      intro _ agentBinding _
      exact respects_switchGeneration apart answers call agentBinding addressed titled named
  unfold keepOrSwitch at onward
  cases current : checked.current with
  | none =>
    rw [current] at onward
    exact onward
  | some active =>
    rw [current] at onward
    apply Action.respects_bind_lift
    intro _ manifest _
    have fences : Action.Respects (Spares host key) (fenceInvalidCurrent host active manifest) := by
      apply Action.respects_handle
      · exact Action.respects_lift _
      · exact fun _ => Action.respects_bind (respects_disableActiveLocked apart trimmed (named active current))
          fun _ _ _ => Action.respects_raise _
    exact Action.respects_bind fences fun _ _ _ => onward

theorem respects_refreshOne (apart : Apart host key name) (trimmed : strip key.1 = key.1) (asked answers : Answers)
    (call : RefreshCall) (tenant : call.tenantId = key.1) {active : CapabilityActivation}
    (named : active.key = (key.1, name)) :
    Action.Respects (Spares host key) (refreshOne host asked answers call active) := by
  have label : active.capabilityName = name := congrArg Prod.snd named
  unfold refreshOne
  split
  · exact Action.respects_pure _
  apply Action.respects_bind_lift
  intro _ safe _
  apply Action.respects_bind_lift
  intro _ found _
  cases found with
  | none => exact Action.respects_pure _
  | some manifest =>
    apply Action.respects_handle
    · apply Action.respects_bind_lift
      intro _ bindings _
      split
      · exact Action.respects_pure _
      · have addressed : (call.tenantId, active.capabilityName) = (key.1, name) := by rw [tenant, label]
        apply Action.respects_bind
        · exact respects_activateLocked apart trimmed answers (call.activation active) addressed
        · exact fun _ _ _ => Action.respects_pure _
    · intro error
      unfold answerFailedRefresh
      apply Action.respects_bind_lift
      intro _ current _
      split
      · exact Action.respects_pure _
      · exact Action.respects_bind (respects_disableActiveLocked apart trimmed named) fun _ _ _ =>
          Action.respects_pure _

theorem yields_switchGeneration (answers : Answers) (call : ActivateCall) (checked : Checked)
    (agentBinding : Option AgentRunBinding) :
    Action.Yields (fun activated => activated.key = (strip call.tenantId, call.capabilityName))
      (switchGeneration host answers call checked agentBinding) := by
  have commits : ∀ handler : ControlError → Act CapabilityActivation,
      (∀ error, Action.Yields (fun activated => activated.key = (strip call.tenantId, call.capabilityName))
        (handler error)) →
      Action.Yields (fun activated => activated.key = (strip call.tenantId, call.capabilityName))
        (Action.handle
          (transact fun store => activate host.contentDigest store (checked.request call agentBinding) answers.now)
          handler) := by
    intro handler raises
    refine Action.yields_handle ?_ raises
    intro control activated done
    obtain ⟨stored, done⟩ := transact_ok done
    obtain ⟨_, ⟨_, present, _⟩ | ⟨_, named, _⟩⟩ := activate_ok done
    · exact activation_key present
    · exact named
  have raises : ∀ error, Action.Yields (fun activated => activated.key = (strip call.tenantId, call.capabilityName))
      (do
        restoreCurrent host answers call checked.current
        Action.raise error : Act CapabilityActivation) :=
    fun error => Action.yields_bind fun _ _ _ => Action.yields_raise error
  unfold switchGeneration
  apply Action.yields_bind
  intro _ generation _
  simp only
  by_cases staffed : checked.manifest.workers = []
  · simp only [staffed, ne_eq, not_true_eq_false, if_false]
    cases current : checked.current with
    | none => exact commits _ (current ▸ raises)
    | some active => exact Action.yields_bind fun _ _ _ => commits _ (current ▸ raises)
  · simp only [staffed, ne_eq, not_false_eq_true, if_true]
    have onward : Action.Yields (fun activated => activated.key = (strip call.tenantId, call.capabilityName)) (do
        Action.handle
          (startWorkers host answers call.tenantId
            (nextInstanceId host call.tenantId call.capabilityName generation) checked.manifest checked.config
            agentBinding)
          fun error => do
            restoreCurrent host answers call checked.current
            Action.raise error
        Action.handle
          (transact fun store => activate host.contentDigest store (checked.request call agentBinding) answers.now)
          fun error => do
            stopInstance (nextInstanceId host call.tenantId call.capabilityName generation)
            restoreCurrent host answers call checked.current
            Action.raise error) :=
      Action.yields_bind fun _ _ _ => commits _ fun error => Action.yields_bind fun _ _ _ => raises error
    cases current : checked.current with
    | none =>
      rw [current] at onward
      exact onward
    | some active =>
      rw [current] at onward
      exact Action.yields_bind fun _ _ _ => onward

theorem yields_activateLocked (answers : Answers) (call : ActivateCall) :
    Action.Yields (fun activated => activated.key = (strip call.tenantId, call.capabilityName))
      (activateLocked host answers call) := by
  unfold activateLocked
  apply Action.yields_bind
  intro control checked done
  have active := (checkActivation_ok done).active
  have onward : Action.Yields (fun activated => activated.key = (strip call.tenantId, call.capabilityName))
      (keepOrSwitch host answers call checked) := by
    unfold keepOrSwitch
    split
    · rename_i current kept
      rw [(Option.filter_eq_some_iff.mp kept).1] at active
      exact Action.yields_pure (activation_key (inState_row active))
    · exact Action.yields_bind fun _ agentBinding _ => yields_switchGeneration answers call checked agentBinding
  unfold keepOrSwitch at onward
  cases current : checked.current with
  | none =>
    rw [current] at onward
    exact onward
  | some active =>
    rw [current] at onward
    exact Action.yields_bind fun _ _ _ => Action.yields_bind fun _ _ _ => onward

theorem yields_refreshOne (asked answers : Answers) (call : RefreshCall) (active : CapabilityActivation) :
    Action.Yields (fun moved => ∀ activated ∈ moved, activated.key = (strip call.tenantId, active.capabilityName))
      (refreshOne host asked answers call active) := by
  have nothing : Action.Yields (fun moved : Option CapabilityActivation => ∀ activated ∈ moved,
      activated.key = (strip call.tenantId, active.capabilityName)) (pure none : Act (Option CapabilityActivation)) :=
    Action.yields_pure (by simp)
  unfold refreshOne
  split
  · exact nothing
  apply Action.yields_bind
  intro _ safe _
  apply Action.yields_bind
  intro _ found _
  cases found with
  | none => exact nothing
  | some manifest =>
    apply Action.yields_handle
    · apply Action.yields_bind
      intro _ bindings _
      split
      · exact nothing
      · apply Action.yields_bind
        intro control activated done
        have own : activated.key = (strip call.tenantId, active.capabilityName) :=
          yields_activateLocked answers (call.activation active) control activated done
        exact Action.yields_pure (by simpa using own)
    · intro error
      unfold answerFailedRefresh
      apply Action.yields_bind
      intro control current done
      split
      · rename_i moved kept
        simp only [Action.run_lift] at done
        have found := ofStore_ok done
        rw [(Option.filter_eq_some_iff.mp kept).1] at found
        have row : control.store.activation (strip call.tenantId, active.capabilityName) = some ⟨moved, .active⟩ :=
          inState_row found
        have own := activation_key row
        exact Action.yields_pure (by simpa using own)
      · exact Action.yields_bind fun _ _ _ => nothing

end Act

end OpenTulpa.Capabilities.Bystanders
