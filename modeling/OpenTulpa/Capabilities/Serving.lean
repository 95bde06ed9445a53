import OpenTulpa.Capabilities.Generations
import OpenTulpa.Capabilities.Service

/-! The active generation of a capability is the one whose workers run. The instance is named
after a generation predicted before the workers start, and the store decides afterwards which
generation it commits; the two agree over every run that never refreshes an agent binding into
what it already is. -/

namespace OpenTulpa.Capabilities.Serving

open Library Text Outcome Models Revisions Generations Service

section Workers

variable {workers : CapabilityWorkerManager} {key : CapabilityKey} {instanceId : String}

theorem held_filter (keep : CapabilityWorkerSet → Bool) (none : workers.held key = []) :
    CapabilityWorkerManager.held (workers.filter keep) key = [] := by
  simp only [CapabilityWorkerManager.held, List.map_eq_nil_iff, List.filter_eq_nil_iff] at none ⊢
  exact fun set member => none set (List.mem_of_mem_filter member)

theorem held_stop_of_single (single : workers.held key = [instanceId]) : (workers.stop instanceId).held key = [] := by
  simp only [CapabilityWorkerManager.held, CapabilityWorkerManager.stop, List.map_eq_nil_iff,
    List.filter_eq_nil_iff]
  intro set member own
  obtain ⟨stored, different⟩ := List.mem_filter.mp member
  have named : set.instanceId ∈ workers.held key :=
    List.mem_map_of_mem (List.mem_filter.mpr ⟨stored, own⟩)
  rw [single, List.mem_singleton] at named
  simp [named] at different

theorem held_append (set : CapabilityWorkerSet) (own : set.key = key) (none : workers.held key = []) :
    CapabilityWorkerManager.held (workers ++ [set]) key = [set.instanceId] := by
  simp only [CapabilityWorkerManager.held, List.map_eq_nil_iff] at none
  simp [CapabilityWorkerManager.held, none, own]

theorem running_stop : (workers.stop instanceId).running instanceId = false := by
  simp [CapabilityWorkerManager.running, CapabilityWorkerManager.stop]

theorem running_filter {keep : CapabilityWorkerSet → Bool} (idle : workers.running instanceId = false) :
    CapabilityWorkerManager.running (workers.filter keep) instanceId = false := by
  simp only [CapabilityWorkerManager.running, List.any_eq_false] at idle ⊢
  exact fun set member => idle set (List.mem_of_mem_filter member)

end Workers

theorem nextInstanceId_toList (host : Host) (tenantId capabilityName : String) (generation : Nat) :
    ∃ middle, (nextInstanceId host tenantId capabilityName generation).toList =
      'c' :: middle ++ Nat.toDigits 10 generation := by
  refine ⟨['a', 'p', '_'] ++ (host.tenantHash tenantId).toList ++ "_".toList ++
    capabilityName.toList.take 20 ++ "_".toList ++ (host.nameHash capabilityName).toList ++ "_g".toList, ?_⟩
  have front : "cap_".toList = ['c', 'a', 'p', '_'] := by decide
  simp [nextInstanceId, String.toList_append, front]

@[simp] theorem strip_nextInstanceId (host : Host) (tenantId capabilityName : String) (generation : Nat) :
    strip (nextInstanceId host tenantId capabilityName generation) =
      nextInstanceId host tenantId capabilityName generation := by
  obtain ⟨middle, shape⟩ := nextInstanceId_toList host tenantId capabilityName generation
  have nonempty : (nextInstanceId host tenantId capabilityName generation).toList ≠ [] := by
    rw [shape]
    simp
  apply strip_of_ends nonempty
  · simp only [shape, List.cons_append, List.head_cons]
    decide
  · have last : (nextInstanceId host tenantId capabilityName generation).toList.getLast nonempty ∈
        Nat.toDigits 10 generation := by
      simp only [shape]
      rw [List.getLast_append_of_ne_nil _ Nat.toDigits_ne_nil]
      exact List.getLast_mem _
    exact isSpace_of_isDigit (Nat.isDigit_of_mem_toDigits (by decide) (by decide) last)

theorem nextInstanceId_nonempty (host : Host) (tenantId capabilityName : String) (generation : Nat) :
    (nextInstanceId host tenantId capabilityName generation).isEmpty = false := by
  obtain ⟨middle, shape⟩ := nextInstanceId_toList host tenantId capabilityName generation
  by_contra empty
  rw [Bool.not_eq_false, String.isEmpty_iff] at empty
  simp [empty] at shape

/-- The instances that may run for an activation row. -/
def Served (host : Host) : Option ActivationRow → List String → Prop
  | none, held => held = []
  | some ⟨activation, .active⟩, held => held = [instanceIdOf host activation]
  | some ⟨activation, .deactivating⟩, held => held = [] ∨ held = [instanceIdOf host activation]
  | some ⟨_, .inactive⟩, held => held = []

/-- The configuration of a generation that is not gone fits its manifest under the host's defaults. -/
def Configured (host : Host) (key : CapabilityKey) (control : Control) : Prop :=
  ∀ row manifest, control.store.activation key = some row → row.lifecycleState ≠ .inactive →
    requireManifest host key.1 key.2 row.activation.revision control = .ok manifest →
    host.validConfig manifest
      (Dict.update row.activation.config (host.configDefaults row.activation.namespaceName manifest)) = true

/-- The primary key holds, every revision of the capability has workers, and the instances held
for it are those of the generation its row names. -/
structure Matched (host : Host) (key : CapabilityKey) (control : Control) : Prop where
  distinct : (control.store.activations.map ActivationRow.key).Nodup
  workers : ∀ row ∈ control.store.revisions, row.key = key → row.manifest.workers ≠ []
  serves : Served host (control.store.activation key) (control.workers.held key)
  configured : Configured host key control

theorem ends_transact {α : Type}
    {operation : CapabilityRevisionStore → Except RevisionError (CapabilityRevisionStore × α)} {control : Control}
    {Post : Except ControlError α → Control → Prop}
    (commits : ∀ stored value, operation control.store = .ok (stored, value) →
      Post (.ok value) { control with store := stored })
    (raises : ∀ error, operation control.store = .error error → Post (.error (.revision error)) control) :
    Action.Ends (transact operation) control Post := by
  unfold Action.Ends Action.run transact
  cases done : operation control.store with
  | ok pair => exact commits pair.1 pair.2 done
  | error error => exact raises error done

/-- A store operation keeps the archive, the primary key of the activation rows, and every row
but one. -/
structure Keeps (key : CapabilityKey) (store stored : CapabilityRevisionStore) : Prop where
  revisions : stored.revisions = store.revisions
  distinct : (store.activations.map ActivationRow.key).Nodup → (stored.activations.map ActivationRow.key).Nodup
  elsewhere : ∀ other, other ≠ key → stored.activation other = store.activation other

theorem Keeps.refl (key : CapabilityKey) (store : CapabilityRevisionStore) : Keeps key store store :=
  ⟨rfl, id, fun _ _ => rfl⟩

theorem swap_keeps {store stored : CapabilityRevisionStore} {key : CapabilityKey} {row : ActivationRow}
    {change : ActivationRow → ActivationRow} (present : store.activation key = some row)
    (same : ∀ other, other.key = key → (change other).key = key)
    (done : store.swap key row.generation row.lifecycleState change = .ok stored) :
    Keeps key store stored ∧ stored.activation key = some (change row) := by
  obtain ⟨revisions, here, elsewhere⟩ := swap_activation present same done
  refine ⟨⟨revisions, fun distinct => ?_, elsewhere⟩, here⟩
  simp only [CapabilityRevisionStore.swap] at done
  split at done
  · cases done
  · cases done
    rw [Rows.map_update ActivationRow.key]
    · exact distinct
    · intro row chosen
      simp only [Bool.and_eq_true, beq_iff_eq] at chosen
      rw [same row chosen.1, chosen.1]

section Store

variable {store stored : CapabilityRevisionStore} {namespaceName name : String} {expected : Nat}
  {activation : CapabilityActivation}

theorem beginDeactivation_ok
    (done : beginDeactivation store namespaceName name expected = .ok (stored, activation)) :
    Keeps (strip namespaceName, name) store stored ∧
      (∃ state, store.activation (strip namespaceName, name) = some ⟨activation, state⟩ ∧ state ≠ .inactive) ∧
      stored.activation (strip namespaceName, name) = some ⟨activation, .deactivating⟩ := by
  simp only [beginDeactivation] at done
  obtain ⟨safe, named, done⟩ := bind_eq_ok done
  rw [safeNamespace_eq named]
  cases present : store.activation (safe, name) with
  | none => simp [present] at done
  | some current =>
    simp only [present] at done
    split at done
    · cases done
    rename_i generation
    split at done
    · rename_i deactivating
      cases done
      obtain ⟨row, state⟩ := current
      cases deactivating
      exact ⟨.refl _ store, ⟨.deactivating, rfl, by simp⟩, present⟩
    split at done
    · cases done
    rename_i active
    obtain ⟨swapped, swap, last⟩ := bind_eq_ok done
    cases last
    rw [← not_not.mp generation, ← not_not.mp active] at swap
    have kept : ∀ other : ActivationRow, other.key = (safe, name) →
        (inLifecycle .deactivating other).key = (safe, name) := fun _ named => named
    obtain ⟨keeps, here⟩ := swap_keeps present kept swap
    exact ⟨keeps, ⟨current.lifecycleState, rfl, by rw [not_not.mp active]; simp⟩, here⟩

theorem changeDeactivationState_ok {target : CapabilityActivationState}
    (done : changeDeactivationState store namespaceName name expected target = .ok (stored, activation)) :
    Keeps (strip namespaceName, name) store stored ∧
      (∃ state, store.activation (strip namespaceName, name) = some ⟨activation, state⟩) ∧
      stored.activation (strip namespaceName, name) = some ⟨activation, target⟩ := by
  simp only [changeDeactivationState] at done
  obtain ⟨safe, named, done⟩ := bind_eq_ok done
  rw [safeNamespace_eq named]
  cases present : store.activation (safe, name) with
  | none => simp [present] at done
  | some current =>
    simp only [present] at done
    split at done
    · cases done
    rename_i generation
    split at done
    · rename_i reached
      cases done
      obtain ⟨row, state⟩ := current
      cases reached
      exact ⟨.refl _ store, ⟨_, rfl⟩, present⟩
    split at done
    · cases done
    rename_i deactivating
    obtain ⟨swapped, swap, last⟩ := bind_eq_ok done
    cases last
    rw [← not_not.mp generation, ← not_not.mp deactivating] at swap
    have kept : ∀ other : ActivationRow, other.key = (safe, name) →
        (inLifecycle target other).key = (safe, name) := fun _ named => named
    obtain ⟨keeps, here⟩ := swap_keeps present kept swap
    exact ⟨keeps, ⟨current.lifecycleState, rfl⟩, here⟩

/-- The store repeats the active generation, or commits the one after the last. -/
theorem activate_ok {contentDigest : CapabilityManifest → String} {request : ActivateRequest} {now : Nat}
    (done : activate contentDigest store request now = .ok (stored, activation)) :
    Keeps (strip request.namespaceName, request.capabilityName) store stored ∧
      ((stored = store ∧ store.activation (strip request.namespaceName, request.capabilityName) =
          some ⟨activation, .active⟩ ∧ request.repeats activation = true) ∨
        (stored.activation (strip request.namespaceName, request.capabilityName) = some ⟨activation, .active⟩ ∧
          activation.key = (strip request.namespaceName, request.capabilityName) ∧
          activation.revision = request.revision ∧ activation.config = request.config ∧
          nextGeneration store request.namespaceName request.capabilityName = .ok activation.generation)) := by
  simp only [activate] at done
  obtain ⟨safe, name, done⟩ := bind_eq_ok done
  split at done
  · cases done
  obtain ⟨found, _, done⟩ := bind_eq_ok done
  cases found with
  | none => cases done
  | some manifest =>
    have trimmed := safeNamespace_eq name
    simp only [trimmed]
    simp only [CapabilityRevisionStore.moveTo] at done
    cases present : store.activation (safe, request.capabilityName) with
    | none =>
      simp only [present] at done
      split at done
      · cases done
      · cases done
        refine ⟨⟨rfl, fun distinct => ?_, fun other different => ?_⟩, Or.inr ⟨?_, rfl, rfl, rfl, ?_⟩⟩
        · simp only [List.map_append, List.map_cons, List.map_nil]
          refine List.nodup_append.mpr ⟨distinct, by simp, ?_⟩
          intro first known second last equal
          obtain ⟨row, member, rfl⟩ := List.mem_map.mp known
          have taken : row.key = (safe, request.capabilityName) := equal.trans (List.mem_singleton.mp last)
          have free := List.find?_eq_none.mp present row member
          simp [taken] at free
        · have named : ((safe, request.capabilityName) == other) = false := by simpa using Ne.symm different
          simp only [CapabilityRevisionStore.activation, List.find?_append]
          have fresh : ActivationRow.key ⟨request.activation safe (contentDigest manifest) 1 now, .active⟩ =
            (safe, request.capabilityName) := rfl
          simp [fresh, named]
        · have absent : store.activations.find? (fun row => row.key == (safe, request.capabilityName)) = none := present
          have named : ActivationRow.key ⟨request.activation safe (contentDigest manifest) 1 now, .active⟩ =
            (safe, request.capabilityName) := rfl
          rw [CapabilityRevisionStore.activation, List.find?_append, absent]
          simp [named]
        · simp [nextGeneration, name, present, ActivateRequest.activation]
    | some row =>
      simp only [present] at done
      split at done
      · cases done
      rename_i settled
      split at done
      · cases done
      split at done
      · rename_i repeats
        cases done
        obtain ⟨current, state⟩ := row
        obtain ⟨active, same⟩ := repeats
        cases active
        exact ⟨.refl _ store, Or.inl ⟨rfl, rfl, same⟩⟩
      · obtain ⟨swapped, swap, last⟩ := bind_eq_ok done
        cases last
        have kept : ∀ other : ActivationRow, other.key = (safe, request.capabilityName) →
            ActivationRow.key ⟨request.activation safe (contentDigest manifest) (row.generation + 1) now, .active⟩ =
              (safe, request.capabilityName) := fun _ _ => rfl
        obtain ⟨keeps, here⟩ := swap_keeps present kept swap
        refine ⟨keeps, Or.inr ⟨here, rfl, rfl, rfl, ?_⟩⟩
        simp [nextGeneration, name, present, settled, ActivateRequest.activation]

end Store

section Act

variable {host : Host} {key : CapabilityKey}

theorem requireManifest_ok {tenantId name : String} {revision : Nat} {control : Control}
    {manifest : CapabilityManifest} (done : requireManifest host tenantId name revision control = .ok manifest) :
    manifest.name = name ∧ (strip tenantId).isEmpty = false ∧
      ∃ row ∈ control.store.revisions, row.key = (strip tenantId, name) ∧ row.manifest = manifest := by
  simp only [requireManifest] at done
  obtain ⟨safe, named, done⟩ := bind_eq_ok done
  obtain ⟨found, got, done⟩ := bind_eq_ok done
  cases found with
  | none => cases done
  | some stored =>
    cases done
    have trimmed : safeNamespace tenantId = .ok safe := by
      cases checked : safeNamespace tenantId with
      | error error => simp [checked, Except.mapError] at named
      | ok value => simpa [checked, Except.mapError] using named
    have filled : (strip tenantId).isEmpty = false := by
      simp only [safeNamespace] at trimmed
      split at trimmed
      · cases trimmed
      · rename_i fits
        simp only [Bool.or_eq_true, not_or, Bool.not_eq_true] at fits
        exact fits.1
    rw [safeNamespace_eq trimmed]
    simp only [ofStore, getManifest] at got
    split at got
    · simp [Except.mapError] at got
    · rename_i row present
      split at got
      · simp [Except.mapError] at got
      · simp only [Except.mapError, Except.ok.injEq, Option.some.injEq] at got
        have chosen := List.find?_some present
        simp only [Bool.and_eq_true, beq_iff_eq] at chosen
        have same : row.manifest.name = name := congrArg Prod.snd chosen.1
        rw [safeNamespace_eq trimmed] at filled
        exact ⟨got ▸ same, filled, row, List.mem_of_find?_eq_some present, chosen.1, got⟩

/-- Starting workers adds one set, or raises and adds nothing. -/
theorem startWorkers_cases (answers : Answers) (tenantId instanceId : String) (manifest : CapabilityManifest)
    (config : JsonObject) (agentBinding : Option AgentRunBinding) (control : Control) :
    Action.Ends (startWorkers host answers tenantId instanceId manifest config agentBinding) control
      fun outcome after => after.store = control.store ∧
        ((∃ error, outcome = .error error ∧
          (after.workers = control.workers ∨ after.workers = control.workers.stop instanceId)) ∨
        (outcome = .ok () ∧
          host.validConfig manifest (Dict.update config (host.configDefaults tenantId manifest)) = true ∧
          after.workers = control.workers ++
            [⟨strip instanceId, if (strip tenantId).isEmpty then "default" else strip tenantId, manifest.name,
              manifest.revision, host.contentDigest manifest⟩])) := by
  unfold startWorkers
  apply Action.ends_bind_lift
  · intro error _
    exact ⟨rfl, Or.inl ⟨error, rfl, Or.inl rfl⟩⟩
  · intro _ _
    simp only
    split
    · exact Action.ends_raise ⟨rfl, Or.inl ⟨_, rfl, Or.inl rfl⟩⟩
    · rename_i valid
      apply Action.ends_handle
      split
      · simp only [managerStart]
        split
        · exact Action.ends_raise ⟨rfl, Or.inl ⟨_, rfl, Or.inr rfl⟩⟩
        · apply Action.ends_bind_read
          split
          · exact Action.ends_raise ⟨rfl, Or.inl ⟨_, rfl, Or.inr rfl⟩⟩
          · exact Action.ends_modify ⟨rfl, Or.inr ⟨trivial, by simpa using valid, rfl⟩⟩
      · exact Action.ends_raise ⟨rfl, Or.inl ⟨_, rfl, Or.inr rfl⟩⟩

theorem startWorkers_ok {answers : Answers} {tenantId name : String} {generation : Nat}
    {manifest : CapabilityManifest} {config : JsonObject} {agentBinding : Option AgentRunBinding}
    {control : Control} (fits : validateAgentBinding tenantId manifest agentBinding = .ok ())
    (valid : host.validConfig manifest (Dict.update config (host.configDefaults tenantId manifest)) = true)
    (starts : ∀ manifest config, answers.starts manifest config = true)
    (idle : control.workers.running (nextInstanceId host tenantId name generation) = false) :
    Action.Ends (startWorkers host answers tenantId (nextInstanceId host tenantId name generation) manifest config
      agentBinding) control fun outcome _ => outcome = .ok () := by
  unfold startWorkers
  apply Action.ends_bind_lift
  · intro error raised
    simp [fits] at raised
  · intro _ _
    simp only [valid, Bool.not_true, Bool.false_eq_true, if_false, starts, if_true]
    apply Action.ends_handle
    simp only [managerStart, strip_nextInstanceId, nextInstanceId_nonempty, Bool.false_eq_true, if_false]
    apply Action.ends_bind_read
    rw [idle]
    exact Action.ends_modify trivial

/-- The worker, secret and tool ports bring up whatever they are asked for. -/
def Succeed (answers : Answers) : Prop := ∀ manifest config, answers.starts manifest config = true

theorem activation_key {store : CapabilityRevisionStore} {row : ActivationRow}
    (present : store.activation key = some row) : row.activation.key = key := by
  simpa [ActivationRow.key] using List.find?_some present

theorem requireManifest_of_revisions {tenantId name : String} {revision : Nat} {control after : Control}
    (same : after.store.revisions = control.store.revisions) :
    requireManifest host tenantId name revision after = requireManifest host tenantId name revision control := by
  simp [requireManifest, ofStore, getManifest, same]

/-- The current generation comes back: nothing of it was running, and nothing else of the
capability is. -/
theorem restoreCurrent_ok {answers : Answers} {call : ActivateCall} {active : CapabilityActivation}
    {manifest : CapabilityManifest} {control : Control} (succeed : Succeed answers)
    (named : active.key = key) (trimmed : strip key.1 = key.1) (tenant : call.tenantId = key.1)
    (stored : requireManifest host call.tenantId active.capabilityName active.revision control = .ok manifest)
    (fits : validateAgentBinding active.namespaceName manifest active.agentBinding = .ok ())
    (valid : host.validConfig manifest
      (Dict.update active.config (host.configDefaults active.namespaceName manifest)) = true)
    (none : control.workers.held key = []) (idle : control.workers.running (instanceIdOf host active) = false) :
    Action.Ends (restoreCurrent host answers call (some active)) control fun outcome after =>
      outcome = .ok () ∧ after.store = control.store ∧ after.workers.held key = [instanceIdOf host active] := by
  have space : active.namespaceName = key.1 := congrArg Prod.fst named
  have label : active.capabilityName = key.2 := congrArg Prod.snd named
  obtain ⟨name, filled, _⟩ := requireManifest_ok stored
  unfold restoreCurrent
  apply Action.ends_bind_lift
  · intro error raised
    rw [stored] at raised
    cases raised
  · intro found got
    rw [stored] at got
    cases got
    have both := (startWorkers_cases answers active.namespaceName (instanceIdOf host active) manifest
      active.config active.agentBinding control).and (startWorkers_ok fits valid succeed idle)
    refine both.mono ?_
    rintro outcome after ⟨⟨same, ⟨error, raised, _⟩ | ⟨done, _, workers⟩⟩, finished⟩
    · rw [finished] at raised
      cases raised
    · refine ⟨finished, same, ?_⟩
      rw [workers]
      have own : CapabilityWorkerSet.key ⟨strip (instanceIdOf host active),
          if (strip active.namespaceName).isEmpty then "default" else strip active.namespaceName, manifest.name,
          manifest.revision, host.contentDigest manifest⟩ = key := by
        rw [tenant, trimmed] at filled
        simp only [CapabilityWorkerSet.key, space, trimmed, filled, Bool.false_eq_true, if_false, name, label]
      rw [held_append _ own none]
      simp [instanceIdOf]

theorem request_repeats (checked : Checked) (call : ActivateCall) (agentBinding : Option AgentRunBinding)
    (current : CapabilityActivation) : (checked.request call agentBinding).repeats current =
      (checked.unchanged call current && current.agentBinding == agentBinding) := rfl

/-- What is left to show once the store has only moved activation rows. -/
theorem Matched.of_keeps {control after : Control} (matched : Matched host key control)
    {other : CapabilityKey} (keeps : Keeps other control.store after.store)
    (serves : Served host (after.store.activation key) (after.workers.held key))
    (configured : Configured host key after) : Matched host key after where
  distinct := keeps.distinct matched.distinct
  workers := by
    rw [keeps.revisions]
    exact matched.workers
  serves := serves
  configured := configured

/-- The configuration of the row is as before, whatever its lifecycle state has become. -/
theorem Configured.of_rows {control after : Control} (configured : Configured host key control)
    (revisions : after.store.revisions = control.store.revisions)
    (rows : ∀ row, after.store.activation key = some row → row.lifecycleState ≠ .inactive →
      ∃ state, control.store.activation key = some ⟨row.activation, state⟩ ∧ state ≠ .inactive) :
    Configured host key after := by
  intro row manifest present alive stored
  obtain ⟨state, before, lived⟩ := rows row present alive
  rw [requireManifest_of_revisions revisions] at stored
  exact configured ⟨row.activation, state⟩ manifest before lived stored

theorem Matched.of_same {control after : Control} (matched : Matched host key control)
    (same : after.store = control.store)
    (serves : Served host (after.store.activation key) (after.workers.held key)) : Matched host key after := by
  have keeps : Keeps key control.store after.store := by
    rw [same]
    exact Keeps.refl key control.store
  refine matched.of_keeps keeps serves (matched.configured.of_rows keeps.revisions ?_)
  intro row present alive
  exact ⟨row.lifecycleState, by rw [← same, present], alive⟩

/-- What the checks of an activation establish about the current generation. -/
structure Settled (host : Host) (key : CapabilityKey) (answers : Answers) (call : ActivateCall)
    (current : Option CapabilityActivation) (control : Control) : Prop where
  some : ∀ active, current = some active → control.store.activation key = some ⟨active, .active⟩ ∧
    ∃ manifest, requireManifest host call.tenantId active.capabilityName active.revision control = .ok manifest ∧
      validateAgentBinding active.namespaceName manifest active.agentBinding = .ok ()
  none : current = none → ∀ held, Served host (control.store.activation key) held → held = []

/-- After the workers of the capability have been stopped, the failure of a later step leaves
the current generation as it was. -/
theorem restoreCurrent_matched {answers : Answers} {call : ActivateCall} {current : Option CapabilityActivation}
    {control after : Control} (succeed : Succeed answers) (matched : Matched host key control)
    (settled : Settled host key answers call current control)
    (trimmed : strip key.1 = key.1) (tenant : call.tenantId = key.1) (same : after.store = control.store)
    (empty : after.workers.held key = [])
    (idle : ∀ active, current = some active → after.workers.running (instanceIdOf host active) = false) :
    Action.Ends (restoreCurrent host answers call current) after fun outcome final =>
      outcome = .ok () ∧ Matched host key final := by
  cases current with
  | none =>
    have quiet := settled.none rfl _ matched.serves
    refine Action.ends_pure ⟨rfl, matched.of_same same ?_⟩
    rw [same, empty, ← quiet]
    exact matched.serves
  | some active =>
    obtain ⟨present, manifest, stored, fits⟩ := settled.some active rfl
    have named := activation_key present
    have label : active.capabilityName = key.2 := congrArg Prod.snd named
    have valid := matched.configured ⟨active, .active⟩ manifest present (by simp)
      (by rw [← tenant, ← label]; exact stored)
    rw [← requireManifest_of_revisions (congrArg CapabilityRevisionStore.revisions same)] at stored
    refine (restoreCurrent_ok succeed named trimmed tenant stored fits valid empty (idle active rfl)).mono ?_
    rintro outcome final ⟨done, kept, held⟩
    refine ⟨done, matched.of_same (kept.trans same) ?_⟩
    rw [kept, same, present, held]
    rfl

theorem switchGeneration_matched {answers : Answers} {call : ActivateCall} {checked : Checked}
    {agentBinding : Option AgentRunBinding} {control : Control} (succeed : Succeed answers)
    (matched : Matched host key control) (settled : Settled host key answers call checked.current control) (trimmed : strip key.1 = key.1)
    (addressed : (call.tenantId, call.capabilityName) = key)
    (stored : requireManifest host call.tenantId call.capabilityName call.revision control = .ok checked.manifest)
    (moves : ∀ active, control.store.activation key = some ⟨active, .active⟩ →
      (checked.request call agentBinding).repeats active = false) :
    Action.Ends (switchGeneration host answers call checked agentBinding) control fun outcome after =>
      Matched host key after ∧
        ∀ activated, outcome = .ok activated → after.store.activation key = some ⟨activated, .active⟩ := by
  subst addressed
  obtain ⟨name, filled, row, member, rowKey, rowManifest⟩ := requireManifest_ok stored
  simp only at trimmed
  have staffed : checked.manifest.workers ≠ [] := by
    rw [← rowManifest]
    refine matched.workers row member ?_
    rw [rowKey, trimmed]
  unfold switchGeneration
  apply Action.ends_bind_lift
  · exact fun error _ => ⟨matched, fun _ ok => by cases ok⟩
  intro generation predicted
  -- from here on no workers of the capability run, whichever generation was current
  have onward : ∀ after : Control, after.store = control.store →
      after.workers.held (call.tenantId, call.capabilityName) = [] →
      (∀ active, checked.current = some active → after.workers.running (instanceIdOf host active) = false) →
      Action.Ends (do
        Action.handle
          (startWorkers host answers call.tenantId
            (nextInstanceId host call.tenantId call.capabilityName generation) checked.manifest checked.config
            agentBinding)
          fun error => do
            restoreCurrent host answers call checked.current
            Action.raise error
        Action.handle
          (transact fun store => activate host.contentDigest store (checked.request call agentBinding) answers.now)
          fun error => do
            stopInstance (nextInstanceId host call.tenantId call.capabilityName generation)
            restoreCurrent host answers call checked.current
            Action.raise error) after fun outcome final =>
        Matched host (call.tenantId, call.capabilityName) final ∧
          ∀ activated, outcome = .ok activated →
            final.store.activation (call.tenantId, call.capabilityName) = some ⟨activated, .active⟩ := by
    intro after same empty idle
    apply Action.ends_bind
    apply Action.ends_handle
    refine (startWorkers_cases answers call.tenantId _ checked.manifest checked.config agentBinding after).mono ?_
    rintro outcome started ⟨kept, ⟨error, rfl, workers⟩ | ⟨rfl, valid, workers⟩⟩
    · -- nothing was added, the current generation is put back and the error goes on
      have fewer : started.workers.held (call.tenantId, call.capabilityName) = [] ∧
          ∀ active, checked.current = some active →
            started.workers.running (instanceIdOf host active) = false := by
        rcases workers with all | fewer
        · rw [all]
          exact ⟨empty, idle⟩
        · rw [fewer]
          exact ⟨held_filter _ empty, fun active current => running_filter (idle active current)⟩
      apply Action.ends_bind
      refine (restoreCurrent_matched succeed matched settled trimmed rfl (kept.trans same) fewer.1
        fewer.2).mono ?_
      rintro outcome final ⟨rfl, restored⟩
      exact Action.ends_raise ⟨restored, fun _ ok => by cases ok⟩
    · have running : started.workers.held (call.tenantId, call.capabilityName) =
          [nextInstanceId host call.tenantId call.capabilityName generation] := by
        have own : CapabilityWorkerSet.key
            ⟨strip (nextInstanceId host call.tenantId call.capabilityName generation),
              if (strip call.tenantId).isEmpty then "default" else strip call.tenantId, checked.manifest.name,
              checked.manifest.revision, host.contentDigest checked.manifest⟩ =
            (call.tenantId, call.capabilityName) := by
          rw [trimmed] at filled
          simp only [CapabilityWorkerSet.key, trimmed, filled, Bool.false_eq_true, if_false, name]
        rw [workers, held_append _ own empty]
        simp
      apply Action.ends_handle
      apply ends_transact
      · intro written activated done
        have request : strip (checked.request call agentBinding).namespaceName = call.tenantId := trimmed
        obtain ⟨keeps, ⟨_, present, repeats⟩ | ⟨present, named, revision, config, next⟩⟩ := activate_ok done
        · rw [request, kept, same] at present
          rw [moves activated present] at repeats
          cases repeats
        · rw [request] at present named
          change written.activation (call.tenantId, call.capabilityName) = _ at present
          have generations : generation = activated.generation := by
            rw [kept, same] at next
            change nextGeneration control.store call.tenantId call.capabilityName = _ at next
            rw [ofStore, next] at predicted
            simpa [Except.mapError] using predicted.symm
          have space : activated.namespaceName = call.tenantId := congrArg Prod.fst named
          have label : activated.capabilityName = call.capabilityName := congrArg Prod.snd named
          rw [kept, same] at keeps
          refine ⟨matched.of_keeps keeps ?_ ?_, fun other equal => by cases equal; exact present⟩
          · change Served host (written.activation _) (started.workers.held _)
            rw [present, running, generations]
            simp only [Served, instanceIdOf, space, label]
          · intro row manifest committed _ found
            obtain rfl := Option.some.inj (present.symm.trans committed)
            rw [requireManifest_of_revisions keeps.revisions, revision] at found
            obtain rfl := Except.ok.inj (stored.symm.trans found)
            rw [config, space]
            exact valid
      · intro error _
        apply Action.ends_bind_modify
        apply Action.ends_bind
        have unchanged : (⟨started.store, started.workers.stop
            (nextInstanceId host call.tenantId call.capabilityName generation)⟩ : Control).store =
              control.store :=
          kept.trans same
        refine (restoreCurrent_matched succeed matched settled trimmed rfl unchanged
          (held_stop_of_single running) ?_).mono ?_
        · intro active current
          change CapabilityWorkerManager.running (started.workers.stop _) _ = false
          simp only [CapabilityWorkerManager.running, CapabilityWorkerManager.stop, workers, List.any_eq_false]
          intro set member
          obtain ⟨listed, different⟩ := List.mem_filter.mp member
          rcases List.mem_append.mp listed with old | new
          · exact (List.any_eq_false.mp (idle active current)) set old
          · rw [List.mem_singleton.mp new] at different
            simp at different
        · rintro outcome final ⟨rfl, restored⟩
          exact Action.ends_raise ⟨restored, fun _ ok => by cases ok⟩
  simp only [staffed, ne_eq, not_false_eq_true, if_true]
  cases current : checked.current with
  | none =>
    rw [current] at onward
    exact onward control rfl (settled.none current _ matched.serves) (by simp)
  | some active =>
    rw [current] at onward
    obtain ⟨present, _⟩ := settled.some active current
    have serving := matched.serves
    rw [present] at serving
    refine onward { control with workers := control.workers.stop (instanceIdOf host active) } rfl
      (held_stop_of_single serving) ?_
    rintro _ ⟨rfl⟩
    exact running_stop

theorem quiesceGeneration_held {activation : CapabilityActivation} {control : Control}
    (serving : control.workers.held key = [] ∨ control.workers.held key = [instanceIdOf host activation]) :
    Action.Ends (quiesceGeneration host activation) control fun outcome after =>
      outcome = .ok () ∧ after.store = control.store ∧ after.workers.held key = [] := by
  refine ⟨rfl, rfl, held_filter _ ?_⟩
  rcases serving with none | single
  · exact held_filter _ none
  · exact held_stop_of_single single

/-- A generation that is being deactivated ends without workers, whether or not its tombstone
could be written. -/
theorem finishDeactivationLocked_matched {transition : CapabilityActivation} {control : Control}
    (named : transition.key = key) (trimmed : strip key.1 = key.1) (matched : Matched host key control)
    (present : control.store.activation key = some ⟨transition, .deactivating⟩) :
    Action.Ends (finishDeactivationLocked host transition) control fun outcome after =>
      Matched host key after ∧ after.workers.held key = [] ∧
        (∀ removed, outcome = .ok removed → after.store.activation key = some ⟨removed, .inactive⟩) ∧
        (∀ error, outcome = .error error → after.store = control.store) := by
  have serving := matched.serves
  rw [present] at serving
  have space : transition.namespaceName = key.1 := congrArg Prod.fst named
  have label : transition.capabilityName = key.2 := congrArg Prod.snd named
  unfold finishDeactivationLocked
  apply Action.ends_bind
  refine (quiesceGeneration_held serving).mono ?_
  rintro outcome after ⟨rfl, same, empty⟩
  apply ends_transact
  · intro stored removed done
    obtain ⟨keeps, _, here⟩ := changeDeactivationState_ok done
    rw [space, trimmed, label] at here
    rw [same] at keeps
    refine ⟨matched.of_keeps keeps ?_ ?_, empty, fun other equal => ?_, fun error raised => by cases raised⟩
    · change Served host (stored.activation key) (after.workers.held key)
      rw [here]
      exact empty
    · intro row manifest gone alive _
      obtain rfl := Option.some.inj (here.symm.trans gone)
      exact absurd rfl alive
    · cases equal
      exact here
  · intro error _
    refine ⟨matched.of_same same ?_, empty, fun _ ok => by (cases ok), fun _ _ => same⟩
    rw [same, present]
    exact Or.inl empty

/-- Entering the transition keeps the workers as they are. -/
theorem beginDeactivation_matched {control : Control} {stored : CapabilityRevisionStore} {name tenantId : String}
    {generation : Nat} {transition : CapabilityActivation} (addressed : (strip tenantId, name) = key)
    (matched : Matched host key control)
    (done : beginDeactivation control.store tenantId name generation = .ok (stored, transition)) :
    Matched host key { control with store := stored } ∧
      stored.activation key = some ⟨transition, .deactivating⟩ := by
  obtain ⟨keeps, ⟨state, before, alive⟩, here⟩ := beginDeactivation_ok done
  rw [addressed] at before here
  refine ⟨matched.of_keeps keeps ?_ (matched.configured.of_rows keeps.revisions ?_), here⟩
  · change Served host (stored.activation key) (control.workers.held key)
    have serving := matched.serves
    rw [before] at serving
    rw [here]
    cases state with
    | active => exact Or.inr serving
    | deactivating => exact serving
    | inactive => exact absurd rfl alive
  · intro row left _
    obtain rfl := Option.some.inj (here.symm.trans left)
    exact ⟨state, before, alive⟩

theorem disableActiveLocked_matched {active : CapabilityActivation} {control : Control}
    (named : active.key = key) (trimmed : strip key.1 = key.1) (matched : Matched host key control) :
    Action.Ends (disableActiveLocked host active) control fun _ after => Matched host key after := by
  have addressed : (strip active.namespaceName, active.capabilityName) = key := by
    rw [← named] at trimmed ⊢
    exact Prod.ext trimmed rfl
  unfold disableActiveLocked
  apply Action.ends_bind
  apply ends_transact
  · intro stored transition done
    obtain ⟨leaving, here⟩ := beginDeactivation_matched addressed matched done
    apply Action.ends_bind
    refine (finishDeactivationLocked_matched (activation_key here) trimmed leaving here).mono ?_
    rintro outcome after ⟨ended, _⟩
    cases outcome with
    | ok removed => exact ended
    | error error => exact ended
  · exact fun error _ => matched

theorem ofStore_ok {α : Type} {query : CapabilityRevisionStore → Except RevisionError α} {control : Control}
    {value : α} (done : ofStore query control = .ok value) : query control.store = .ok value := by
  unfold ofStore at done
  cases result : query control.store with
  | error error => simp [result, Except.mapError] at done
  | ok found => simpa [result, Except.mapError] using done

theorem inState_ok {store : CapabilityRevisionStore} {state : CapabilityActivationState} {tenantId name : String}
    {found : Option CapabilityActivation} (done : store.inState state tenantId name = .ok found) :
    found = ((store.activation (strip tenantId, name)).filter fun row => row.lifecycleState == state).map
      ActivationRow.activation := by
  unfold CapabilityRevisionStore.inState at done
  obtain ⟨safe, named, done⟩ := bind_eq_ok done
  rw [safeNamespace_eq named]
  exact (Except.ok.inj done).symm

theorem inState_row {store : CapabilityRevisionStore} {state : CapabilityActivationState} {tenantId name : String}
    {found : CapabilityActivation} (done : store.inState state tenantId name = .ok (some found)) :
    store.activation (strip tenantId, name) = some ⟨found, state⟩ := by
  obtain ⟨row, kept, rfl⟩ := Option.map_eq_some_iff.mp (inState_ok done).symm
  obtain ⟨present, reached⟩ := Option.filter_eq_some_iff.mp kept
  obtain ⟨activation, lifecycle⟩ := row
  obtain rfl : lifecycle = state := eq_of_beq reached
  exact present

/-- What an activation has read and computed once its checks are through. -/
structure Passed (host : Host) (answers : Answers) (call : ActivateCall) (checked : Checked) (control : Control) :
    Prop where
  manifest : requireManifest host call.tenantId call.capabilityName call.revision control = .ok checked.manifest
  config : checked.config = call.mergedConfig host checked.manifest
  handles : secretHandleBindings call.secretHandles = .ok checked.handles
  bindings : bindSecretHandles answers call.tenantId checked.manifest checked.handles = .ok checked.bindings
  active : control.store.active call.tenantId call.capabilityName = .ok checked.current
  staying : control.store.deactivating call.tenantId call.capabilityName = .ok none
  exclusive : (call.refreshAgentBinding && call.preserveAgentBinding) = false

theorem checkActivation_ok {answers : Answers} {call : ActivateCall} {control : Control} {checked : Checked}
    (done : checkActivation host answers call control = .ok checked) :
    Passed host answers call checked control := by
  unfold checkActivation at done
  obtain ⟨_, _, done⟩ := bind_eq_ok done
  split at done
  · cases done
  obtain ⟨manifest, stored, done⟩ := bind_eq_ok done
  split at done
  · cases done
  split at done
  · cases done
  simp only at done
  split at done
  · cases done
  obtain ⟨handles, normalised, done⟩ := bind_eq_ok done
  obtain ⟨_, _, done⟩ := bind_eq_ok done
  obtain ⟨bindings, bound, done⟩ := bind_eq_ok done
  obtain ⟨current, active, done⟩ := bind_eq_ok done
  obtain ⟨leaving, deactivating, done⟩ := bind_eq_ok done
  split at done
  · cases done
  rename_i staying
  split at done
  · cases done
  split at done
  · cases done
  rename_i exclusive
  obtain ⟨declared, _, done⟩ := bind_eq_ok done
  split at done
  · cases done
  · cases done
    have none : leaving = none := by simpa using staying
    exact ⟨stored, rfl, normalised, bound, ofStore_ok active, none ▸ ofStore_ok deactivating, by
      simpa using exclusive⟩

/-- An activation that refreshes the agent binding of the active generation into what it
already is, everything else being equal too. -/
def RefreshesInPlace (host : Host) (answers : Answers) (call : ActivateCall) (control : Control) : Prop :=
  call.refreshAgentBinding = true ∧ ∃ active manifest,
    control.store.activation (call.tenantId, call.capabilityName) = some ⟨active, .active⟩ ∧
    requireManifest host call.tenantId call.capabilityName call.revision control = .ok manifest ∧
    active.revision = call.revision ∧ active.config = call.mergedConfig host manifest ∧
    secretHandleBindings call.secretHandles = .ok active.secretHandles ∧
    bindSecretHandles answers call.tenantId manifest active.secretHandles = .ok active.secretBindings ∧
    bindAgentRun answers call.tenantId manifest = .ok active.agentBinding

theorem agentBindingFor_fresh {answers : Answers} {call : ActivateCall} {checked : Checked}
    {agentBinding : Option AgentRunBinding} (fresh : call.preserveAgentBinding = false)
    (done : agentBindingFor answers call checked = .ok agentBinding) :
    bindAgentRun answers call.tenantId checked.manifest = .ok agentBinding := by
  unfold agentBindingFor at done
  rw [fresh] at done
  obtain ⟨binding, bound, done⟩ := bind_eq_ok done
  obtain ⟨_, _, done⟩ := bind_eq_ok done
  cases done
  exact bound

/-- The row is the returned activation, and its workers are the ones that run. -/
def Agrees (host : Host) (key : CapabilityKey) (outcome : Except ControlError CapabilityActivation)
    (after : Control) : Prop :=
  Matched host key after ∧
    ∀ activated, outcome = .ok activated → after.store.activation key = some ⟨activated, .active⟩

/-- What `activateLocked` does once an activation that does not fit is fenced. -/
def keepOrSwitch (host : Host) (answers : Answers) (call : ActivateCall) (checked : Checked) :
    Act CapabilityActivation :=
  match checked.current.filter fun current => checked.unchanged call current && !call.refreshAgentBinding with
  | some current => pure current
  | none => do
    let agentBinding ← Action.lift fun _ => agentBindingFor answers call checked
    switchGeneration host answers call checked agentBinding

theorem activateLocked_agrees {answers : Answers} {call : ActivateCall} {control : Control}
    (succeed : Succeed answers) (matched : Matched host key control) (trimmed : strip key.1 = key.1)
    (addressed : (call.tenantId, call.capabilityName) = key)
    (moves : ¬ RefreshesInPlace host answers call control) :
    Action.Ends (activateLocked host answers call) control (Agrees host key) := by
  unfold activateLocked
  apply Action.ends_bind_lift
  · exact fun error _ => ⟨matched, fun _ ok => by cases ok⟩
  intro checked done
  have passed := checkActivation_ok done
  have stored := passed.manifest
  have active := passed.active
  have current := inState_ok active
  have leaving := inState_ok passed.staying
  subst addressed
  simp only at trimmed
  rw [trimmed] at current leaving
  have idle : checked.current = none →
      ∀ held, Served host (control.store.activation (call.tenantId, call.capabilityName)) held → held = [] := by
    intro none held serving
    rw [none] at current
    cases present : control.store.activation (call.tenantId, call.capabilityName) with
    | none =>
      rw [present] at serving
      exact serving
    | some row =>
      obtain ⟨activation, state⟩ := row
      rw [present] at serving current leaving
      cases state with
      | active => simp at current
      | deactivating => simp at leaving
      | inactive => exact serving
  have running : ∀ active, checked.current = some active →
      control.store.activation (call.tenantId, call.capabilityName) = some ⟨active, .active⟩ := by
    intro found some
    rw [some] at active
    exact trimmed ▸ inState_row active
  have onward : Settled host (call.tenantId, call.capabilityName) answers call checked.current control →
      Action.Ends (keepOrSwitch host answers call checked) control (Agrees host (call.tenantId, call.capabilityName)) := by
    intro settled
    unfold keepOrSwitch
    split
    · rename_i repeated kept
      refine Action.ends_pure ⟨matched, fun activated ok => ?_⟩
      cases ok
      exact running _ (Option.filter_eq_some_iff.mp kept).1
    · rename_i changed
      apply Action.ends_bind_lift
      · exact fun error _ => ⟨matched, fun _ ok => by cases ok⟩
      intro agentBinding bound
      refine switchGeneration_matched succeed matched settled trimmed rfl stored ?_
      intro active present
      by_contra repeats
      rw [Bool.not_eq_false, request_repeats, Bool.and_eq_true, beq_iff_eq] at repeats
      have now : checked.current = some active := by
        rw [current, present]
        simp
      rw [now] at changed
      have refresh : call.refreshAgentBinding = true := by
        simpa [repeats.1] using changed
      have fresh : call.preserveAgentBinding = false := by simpa [refresh] using passed.exclusive
      simp only [Checked.unchanged, Bool.and_eq_true, beq_iff_eq] at repeats
      obtain ⟨⟨⟨⟨revision, config⟩, handles⟩, bindings⟩, binding⟩ := repeats
      refine moves ⟨refresh, active, checked.manifest, present, stored, revision, config.trans passed.config, ?_, ?_, ?_⟩
      · rw [handles]
        exact passed.handles
      · rw [handles, bindings]
        exact passed.bindings
      · rw [binding]
        exact agentBindingFor_fresh fresh bound
  unfold keepOrSwitch at onward
  cases now : checked.current with
  | none =>
    rw [now] at onward idle
    exact onward ⟨by simp, fun _ => idle rfl⟩
  | some current =>
    rw [now] at onward
    have present := running current now
    apply Action.ends_bind_lift
    · exact fun error _ => ⟨matched, fun _ ok => by cases ok⟩
    intro manifest found
    apply Action.ends_bind
    apply Action.ends_handle
    apply Action.ends_lift
    cases fits : validateAgentBinding current.namespaceName manifest current.agentBinding with
    | ok value =>
      refine onward ⟨?_, by simp⟩
      rintro _ ⟨rfl⟩
      exact ⟨present, manifest, found, fits⟩
    | error error =>
      apply Action.ends_bind
      refine (disableActiveLocked_matched (activation_key present) trimmed matched).mono ?_
      intro outcome after ended
      cases outcome with
      | ok value => exact Action.ends_raise ⟨ended, fun _ ok => by cases ok⟩
      | error error => exact ⟨ended, fun _ ok => by cases ok⟩

end Act

end OpenTulpa.Capabilities.Serving
