import OpenTulpa.Capabilities.Workers

/-! Fencing of a capability: the worker sets of all its generations are stopped in the order they were started. One list
of errors is shared by all of them, so a set that was stopped stays recorded behind one that was not. -/

namespace OpenTulpa.Capabilities.WorkerFencing

open Library Text Workers

section Model

inductive StopOutcome where
  | stopped
  | failed
  | interrupted
  deriving DecidableEq

/-- The state of a call of `fence`: the error flag that the sets share, the instances that are no longer recorded, and
what came of each stop. -/
structure Fencing (σ : Type) where
  host : σ
  errors : Bool := false
  removed : List String := []
  stops : List (String × StopOutcome) := []

def matching (manager : CapabilityWorkerManager) (tenantId capabilityName : String) : List CapabilityWorkerSet :=
  manager.active.filter fun set => set.tenantId == tenantId && set.capabilityName == capabilityName

/-- `_active` without some instances. -/
def without (manager : CapabilityWorkerManager) (removed : List String) : CapabilityWorkerManager where
  active := manager.active.filter fun set => set.instanceId ∉ removed
  closed := manager.closed
  distinct := manager.distinct.sublist (List.filter_sublist.map _)

variable {σ : Type} (host : WorkerHost σ)

/-- The stops of a set, up to one that is interrupted. -/
def stopHandles : List WorkerHandle → σ → List StopOutcome × σ
  | [], state => ([], state)
  | handle :: rest, state =>
    match host.stop handle state with
    | (.ok (), state) => let (outcomes, state) := stopHandles rest state; (.stopped :: outcomes, state)
    | (.error .interrupted, state) => ([.interrupted], state)
    | (.error _, state) => let (outcomes, state) := stopHandles rest state; (.failed :: outcomes, state)

/-- The stops of a set at a host, which has been asked to fence the capability if it can. -/
def stopSet (set : CapabilityWorkerSet) (state : σ) : List StopOutcome × σ :=
  if host.fence.isSome then ([], state) else stopHandles host set.handles.reverse state

def Fencing.after (fencing : Fencing σ) (set : CapabilityWorkerSet) (outcomes : List StopOutcome) (state : σ) : Fencing σ :=
  ⟨state, fencing.errors || outcomes.contains .failed, fencing.removed,
    fencing.stops ++ outcomes.map fun outcome => (set.instanceId, outcome)⟩

def Fencing.forget (fencing : Fencing σ) (set : CapabilityWorkerSet) : Fencing σ :=
  if fencing.errors then fencing else { fencing with removed := fencing.removed ++ [set.instanceId] }

/-- The sets are stopped one after the other; the flag says that a stop was interrupted. -/
def fenceSets : List CapabilityWorkerSet → Fencing σ → Bool × Fencing σ
  | [], fencing => (false, fencing)
  | set :: rest, fencing =>
    let (outcomes, state) := stopSet host set fencing.host
    if outcomes.contains .interrupted then (true, fencing.after set outcomes state)
    else fenceSets rest ((fencing.after set outcomes state).forget set)

def passedOn : Failure → LifecycleError
  | .lifecycle message => .lifecycle message
  | .exception => .exception
  | .interrupted => .interrupted

def remoteFence (tenantId capabilityName : String) (state : σ) : Except Failure Unit × σ :=
  match host.fence with
  | none => (.ok (), state)
  | some remote => remote tenantId capabilityName state

def fence (manager : CapabilityWorkerManager) (tenantId capabilityName : String) (state : σ) :
    Except LifecycleError Unit × CapabilityWorkerManager × Fencing σ :=
  let tenant := strip tenantId
  let capability := strip capabilityName
  if tenant = "" ∨ capability = "" then
    (.error (.value "tenant_id and capability_name are required"), manager, ⟨state, false, [], []⟩)
  else
    match remoteFence host tenant capability state with
    | (.error failure, state) => (.error (passedOn failure), manager, ⟨state, false, [], []⟩)
    | (.ok (), state) =>
      let (interrupted, fencing) := fenceSets host (matching manager tenant capability) ⟨state, false, [], []⟩
      (if interrupted then .error .interrupted
        else if fencing.errors then .error (.lifecycle "one or more capability generations failed to fence")
        else .ok (), without manager fencing.removed, fencing)

end Model

section Forgetting

variable {σ : Type} {host : WorkerHost σ}

/-- The sets that are still recorded: the others, and those with a handle that was not stopped. -/
def ForgetsStopped (manager : CapabilityWorkerManager) (tenantId capabilityName : String)
    (result : Except LifecycleError Unit × CapabilityWorkerManager × Fencing σ) : Prop :=
  ∀ set ∈ manager.active, set ∈ result.2.1.active ↔
    (set ∈ matching manager (strip tenantId) (strip capabilityName) →
      ∃ outcome, outcome ≠ .stopped ∧ (set.instanceId, outcome) ∈ result.2.2.stops)

variable (host) in
/-- What comes of the stops of some sets, one set after the other. -/
def stopOutcomes : List CapabilityWorkerSet → σ → List (List StopOutcome)
  | [], _ => []
  | set :: rest, state =>
    let (outcomes, state) := stopHandles host set.handles.reverse state
    outcomes :: stopOutcomes rest state

/-- Behind a set with a failed stop comes none that is stopped, and behind an interrupted one none at all. -/
def Undisturbed (earlier later : List StopOutcome) : Prop :=
  (.failed ∈ earlier → ∃ outcome ∈ later, outcome ≠ .stopped) ∧ .interrupted ∉ earlier

instance decidableUndisturbed (earlier later : List StopOutcome) : Decidable (Undisturbed earlier later) :=
  inferInstanceAs (Decidable ((.failed ∈ earlier → ∃ outcome ∈ later, outcome ≠ .stopped) ∧ .interrupted ∉ earlier))

/-- The stops of a set are recorded under its instance. -/
theorem mem_stops_after {fencing : Fencing σ} {set : CapabilityWorkerSet} {outcomes : List StopOutcome} {state : σ}
    {instanceId : String} {outcome : StopOutcome} : (instanceId, outcome) ∈ (fencing.after set outcomes state).stops ↔
      (instanceId, outcome) ∈ fencing.stops ∨ set.instanceId = instanceId ∧ outcome ∈ outcomes := by
  simp only [Fencing.after, List.mem_append, List.mem_map, Prod.mk.injEq]
  constructor
  · rintro (old | ⟨found, member, rfl, rfl⟩)
    · exact Or.inl old
    · exact Or.inr ⟨rfl, member⟩
  · rintro (old | ⟨rfl, member⟩)
    · exact Or.inl old
    · exact Or.inr ⟨outcome, member, rfl, rfl⟩

theorem stops_forget (fencing : Fencing σ) (set : CapabilityWorkerSet) : (fencing.forget set).stops = fencing.stops := by
  rw [Fencing.forget]
  split <;> rfl

theorem errors_forget (fencing : Fencing σ) (set : CapabilityWorkerSet) : (fencing.forget set).errors = fencing.errors := by
  rw [Fencing.forget]
  split <;> rfl

theorem host_forget (fencing : Fencing σ) (set : CapabilityWorkerSet) : (fencing.forget set).host = fencing.host := by
  rw [Fencing.forget]
  split <;> rfl

theorem mem_removed_forget {fencing : Fencing σ} {set : CapabilityWorkerSet} {instanceId : String} :
    instanceId ∈ (fencing.forget set).removed ↔
      instanceId ∈ fencing.removed ∨ fencing.errors = false ∧ instanceId = set.instanceId := by
  rw [Fencing.forget]
  cases errors : fencing.errors <;> simp

/-- Sets of other instances are left alone. -/
theorem fenceSets_other {sets : List CapabilityWorkerSet} {fencing : Fencing σ} {instanceId : String}
    (other : instanceId ∉ sets.map CapabilityWorkerSet.instanceId) :
    (instanceId ∈ (fenceSets host sets fencing).2.removed ↔ instanceId ∈ fencing.removed) ∧
    ∀ outcome, (instanceId, outcome) ∈ (fenceSets host sets fencing).2.stops ↔ (instanceId, outcome) ∈ fencing.stops := by
  induction sets generalizing fencing with
  | nil => exact ⟨Iff.rfl, fun _ => Iff.rfl⟩
  | cons set rest ih =>
    rw [List.map_cons, List.mem_cons, not_or] at other
    have stops (outcomes : List StopOutcome) (state : σ) (outcome : StopOutcome) :
        (instanceId, outcome) ∈ (fencing.after set outcomes state).stops ↔ (instanceId, outcome) ∈ fencing.stops := by
      rw [mem_stops_after]
      exact or_iff_left fun both => other.1 both.1.symm
    simp only [fenceSets]
    split
    · exact ⟨Iff.rfl, stops _ _⟩
    · obtain ⟨removed, tried⟩ := @ih
        ((fencing.after set (stopSet host set fencing.host).1 (stopSet host set fencing.host).2).forget set) other.2
      refine ⟨removed.trans (mem_removed_forget.trans (or_iff_left fun both => other.1 both.2)), fun outcome => ?_⟩
      rw [tried, stops_forget, stops]

/-- What has not been stopped of a set that was stopped to the end. -/
theorem not_stopped_iff {outcomes : List StopOutcome} (whole : .interrupted ∉ outcomes) :
    (∃ outcome ∈ outcomes, outcome ≠ .stopped) ↔ .failed ∈ outcomes := by
  constructor
  · rintro ⟨outcome, member, other⟩
    cases outcome with
    | stopped => exact absurd rfl other
    | failed => exact member
    | interrupted => exact absurd member whole
  · exact fun member => ⟨.failed, member, nofun⟩

theorem fenceSets_law (own : host.fence = none) {sets : List CapabilityWorkerSet}
    (distinct : (sets.map CapabilityWorkerSet.instanceId).Nodup) {fencing : Fencing σ}
    (fresh : ∀ set ∈ sets, set.instanceId ∉ fencing.removed ∧ ∀ outcome, (set.instanceId, outcome) ∉ fencing.stops) :
    (∀ set ∈ sets, set.instanceId ∉ (fenceSets host sets fencing).2.removed ↔
      ∃ outcome, outcome ≠ .stopped ∧ (set.instanceId, outcome) ∈ (fenceSets host sets fencing).2.stops) ↔
    (fencing.errors = true → ∀ outcomes ∈ stopOutcomes host sets fencing.host, ∃ outcome ∈ outcomes, outcome ≠ .stopped) ∧
      (stopOutcomes host sets fencing.host).Pairwise Undisturbed := by
  induction sets generalizing fencing with
  | nil => simp [stopOutcomes]
  | cons set rest ih =>
    obtain ⟨⟨kept, untried⟩, later⟩ := List.forall_mem_cons.mp fresh
    obtain ⟨apart, distinct⟩ := List.nodup_cons.mp distinct
    have local_ : stopSet host set fencing.host = stopHandles host set.handles.reverse fencing.host := by
      rw [stopSet, own]
      rfl
    simp only [fenceSets, stopOutcomes, local_]
    generalize stopHandles host set.handles.reverse fencing.host = result
    obtain ⟨outcomes, state⟩ := result
    have other (next : CapabilityWorkerSet) (member : next ∈ rest) : set.instanceId ≠ next.instanceId := fun same =>
      apart (List.mem_map.mpr ⟨next, member, same.symm⟩)
    have mine {outcome : StopOutcome} :
        (set.instanceId, outcome) ∈ (fencing.after set outcomes state).stops ↔ outcome ∈ outcomes := by
      rw [mem_stops_after]
      exact (or_iff_right (untried outcome)).trans (and_iff_right rfl)
    rw [List.forall_mem_cons, List.forall_mem_cons, List.pairwise_cons]
    by_cases interrupted : .interrupted ∈ outcomes
    · rw [if_pos (by simpa using interrupted)]
      cases rest with
      | nil =>
        have tried : ∃ outcome, outcome ≠ .stopped ∧ (set.instanceId, outcome) ∈ (fencing.after set outcomes state).stops :=
          ⟨.interrupted, nofun, mine.mpr interrupted⟩
        have unstopped : ∃ outcome ∈ outcomes, outcome ≠ .stopped := ⟨.interrupted, interrupted, nofun⟩
        refine iff_of_true ⟨iff_of_true kept tried, nofun⟩ ⟨fun _ => ⟨unstopped, nofun⟩, nofun, List.Pairwise.nil⟩
      | cons next rest =>
        refine iff_of_false ?_ fun all => ?_
        · rintro ⟨_, all⟩
          obtain ⟨_, none⟩ := List.forall_mem_cons.mp later |>.1
          obtain ⟨outcome, _, tried⟩ := ((List.forall_mem_cons.mp all).1).mp (List.forall_mem_cons.mp later).1.1
          rcases mem_stops_after.mp tried with old | ⟨same, _⟩
          · exact none outcome old
          · exact other next List.mem_cons_self same
        · exact (all.2.1 _ List.mem_cons_self).2 interrupted
    · rw [if_neg (by simpa using interrupted)]
      have seen : ∀ next ∈ rest, next.instanceId ∉ ((fencing.after set outcomes state).forget set).removed ∧
          ∀ outcome, (next.instanceId, outcome) ∉ ((fencing.after set outcomes state).forget set).stops := by
        intro next member
        refine ⟨?_, fun outcome => ?_⟩
        · rw [mem_removed_forget, not_or]
          exact ⟨(later next member).1, fun both => other next member both.2.symm⟩
        · rw [stops_forget, mem_stops_after, not_or]
          exact ⟨(later next member).2 outcome, fun both => other next member both.1⟩
      obtain ⟨removed, tried⟩ := @fenceSets_other _ host rest ((fencing.after set outcomes state).forget set) set.instanceId apart
      have flag : (fencing.after set outcomes state).errors = true ↔ fencing.errors = true ∨ .failed ∈ outcomes := by
        simp [Fencing.after]
      have first : (set.instanceId ∉ (fenceSets host rest ((fencing.after set outcomes state).forget set)).2.removed ↔
          ∃ outcome, outcome ≠ .stopped ∧
            (set.instanceId, outcome) ∈ (fenceSets host rest ((fencing.after set outcomes state).forget set)).2.stops) ↔
          (fencing.errors = true → .failed ∈ outcomes) := by
        have stays : set.instanceId ∉ (fenceSets host rest ((fencing.after set outcomes state).forget set)).2.removed ↔
            fencing.errors = true ∨ .failed ∈ outcomes := by
          rw [removed, mem_removed_forget, ← flag]
          have absent : set.instanceId ∉ (fencing.after set outcomes state).removed := kept
          cases (fencing.after set outcomes state).errors <;> simp [absent]
        have fails : (∃ outcome, outcome ≠ .stopped ∧ (set.instanceId, outcome) ∈
            (fenceSets host rest ((fencing.after set outcomes state).forget set)).2.stops) ↔ .failed ∈ outcomes := by
          simp only [tried, stops_forget, mine]
          exact (exists_congr fun _ => and_comm).trans (not_stopped_iff interrupted)
        rw [stays, fails]
        exact ⟨fun both errors => both.mp (Or.inl errors), fun own => ⟨fun either => either.elim own id, Or.inr⟩⟩
      have follows : (∀ outcomes' ∈ stopOutcomes host rest state, Undisturbed outcomes outcomes') ↔
          (.failed ∈ outcomes → ∀ outcomes' ∈ stopOutcomes host rest state, ∃ outcome ∈ outcomes', outcome ≠ .stopped) :=
        ⟨fun all failed next member => (all next member).1 failed, fun all next member => ⟨fun failed => all failed next member, interrupted⟩⟩
      have rec_ := ih distinct seen
      rw [errors_forget, host_forget, flag] at rec_
      rw [first, rec_, follows, not_stopped_iff interrupted]
      constructor
      · rintro ⟨mineOnly, rest, order⟩
        exact ⟨fun errors => ⟨mineOnly errors, rest (Or.inl errors)⟩, fun failed => rest (Or.inr failed), order⟩
      · rintro ⟨errors, failed, order⟩
        exact ⟨fun flagged => (errors flagged).1, fun either => either.elim (fun flagged => (errors flagged).2) failed, order⟩

/-- Fencing forgets exactly what it stopped when no set that is stopped stands behind one that was not. -/
theorem fence_forgets_iff (own : host.fence = none) (manager : CapabilityWorkerManager) (tenantId capabilityName : String)
    (state : σ) : ForgetsStopped manager tenantId capabilityName (fence host manager tenantId capabilityName state) ↔
      (stopOutcomes host (matching manager (strip tenantId) (strip capabilityName)) state).Pairwise Undisturbed := by
  by_cases empty : strip tenantId = "" ∨ strip capabilityName = ""
  · have none : matching manager (strip tenantId) (strip capabilityName) = [] := by
      rw [matching, List.filter_eq_nil_iff]
      intro set _ both
      rw [Bool.and_eq_true, beq_iff_eq, beq_iff_eq] at both
      rcases empty with tenant | capability
      · exact set.named.1 (both.1.trans tenant)
      · exact set.named.2 (both.2.trans capability)
    have same : (fence host manager tenantId capabilityName state).2.1 = manager := by
      simp only [fence]
      rw [if_pos empty]
    rw [none]
    refine iff_of_true (fun set member => ?_) List.Pairwise.nil
    rw [same, none]
    exact iff_of_true member nofun
  · have asked : remoteFence host (strip tenantId) (strip capabilityName) state = (.ok (), state) := by rw [remoteFence, own]
    have distinct : ((matching manager (strip tenantId) (strip capabilityName)).map CapabilityWorkerSet.instanceId).Nodup :=
      manager.distinct.sublist (List.filter_sublist.map _)
    have start : ∀ set ∈ matching manager (strip tenantId) (strip capabilityName),
        set.instanceId ∉ (⟨state, false, [], []⟩ : Fencing σ).removed ∧
          ∀ outcome, (set.instanceId, outcome) ∉ (⟨state, false, [], []⟩ : Fencing σ).stops := fun _ _ => ⟨nofun, nofun⟩
    have law := fenceSets_law own distinct start
    have unflagged : (false = true → ∀ outcomes ∈ stopOutcomes host (matching manager (strip tenantId) (strip capabilityName)) state,
      ∃ outcome ∈ outcomes, outcome ≠ .stopped) ↔ True := iff_true_intro nofun
    rw [unflagged, true_and] at law
    rw [ForgetsStopped, fence]
    simp only [if_neg empty, asked]
    refine Iff.trans ?_ law
    have others : ∀ set ∈ manager.active, set ∉ matching manager (strip tenantId) (strip capabilityName) → set.instanceId ∉
        (fenceSets host (matching manager (strip tenantId) (strip capabilityName)) ⟨state, false, [], []⟩).2.removed := by
      intro set member apart
      have foreign : set.instanceId ∉
          (matching manager (strip tenantId) (strip capabilityName)).map CapabilityWorkerSet.instanceId := by
        rintro inside
        obtain ⟨found, chosen, same⟩ := List.mem_map.mp inside
        obtain rfl := List.inj_on_of_nodup_map manager.distinct (List.mem_of_mem_filter chosen) member same
        exact apart chosen
      exact fun removed => List.not_mem_nil ((fenceSets_other foreign).1.mp removed)
    generalize fenceSets host (matching manager (strip tenantId) (strip capabilityName)) ⟨state, false, [], []⟩ = result at *
    have kept (set : CapabilityWorkerSet) (member : set ∈ manager.active) :
        set ∈ (without manager result.2.removed).active ↔ set.instanceId ∉ result.2.removed := by
      rw [without, List.mem_filter, decide_eq_true_eq]
      exact and_iff_right member
    constructor
    · intro all set chosen
      have member := List.mem_of_mem_filter chosen
      exact (kept set member).symm.trans ((all set member).trans ⟨fun fails => fails chosen, fun fails _ => fails⟩)
    · intro all set member
      by_cases chosen : set ∈ matching manager (strip tenantId) (strip capabilityName)
      · exact (kept set member).trans ((all set chosen).trans ⟨fun fails _ => fails, fun fails => fails chosen⟩)
      · exact iff_of_true ((kept set member).mpr (others set member chosen)) fun inside => absurd inside chosen

end Forgetting

section Leak

def workerHandle (instanceId : String) : WorkerHandle := ⟨instanceId, instanceId, "mail", 1, "", "worker", none, []⟩

def sampleSet (instanceId : String) : CapabilityWorkerSet :=
  ⟨instanceId, "owner", "mail", 1, "", [workerHandle instanceId], by decide⟩

def twoGenerations : CapabilityWorkerManager := ⟨[sampleSet "a", sampleSet "b"], false, by decide⟩

/-- A host at which the workers of some instances cannot be stopped. -/
def stubborn (instances : List String) : WorkerHost Unit where
  start := fun launch state => (.ok ⟨launch.instanceId, none, []⟩, state)
  healthy := fun _ state => (.ok true, state)
  stop := fun handle state => (if handle.instanceId ∈ instances then .error .exception else .ok (), state)

theorem fence_forgets_first : ForgetsStopped twoGenerations "owner" "mail"
    (fence (stubborn ["b"]) twoGenerations "owner" "mail" ()) :=
  (fence_forgets_iff (show (stubborn ["b"]).fence = none from rfl) twoGenerations "owner" "mail" ()).mpr (by decide +kernel)

/-- The second generation is stopped and stays recorded, because the first one was not stopped. -/
theorem stopped_stays_recorded : (fence (stubborn ["a"]) twoGenerations "owner" "mail" ()).2.2.stops =
      [("a", .failed), ("b", .stopped)] ∧
    (fence (stubborn ["a"]) twoGenerations "owner" "mail" ()).2.1.active = twoGenerations.active ∧
    ¬ ForgetsStopped twoGenerations "owner" "mail" (fence (stubborn ["a"]) twoGenerations "owner" "mail" ()) := by
  have stops : (fence (stubborn ["a"]) twoGenerations "owner" "mail" ()).2.2.stops = [("a", .failed), ("b", .stopped)] := by
    decide +kernel
  have active : (fence (stubborn ["a"]) twoGenerations "owner" "mail" ()).2.1.active = twoGenerations.active := by
    decide +kernel
  refine ⟨stops, active, fun forgets => ?_⟩
  have second : sampleSet "b" ∈ twoGenerations.active := by decide
  have chosen : sampleSet "b" ∈ matching twoGenerations (strip "owner") (strip "mail") := by decide +kernel
  have stays : sampleSet "b" ∈ (fence (stubborn ["a"]) twoGenerations "owner" "mail" ()).2.1.active := by
    rw [active]
    exact second
  obtain ⟨outcome, other, tried⟩ := (forgets (sampleSet "b") second).mp stays chosen
  rw [stops] at tried
  cases outcome with
  | stopped => exact other rfl
  | failed | interrupted => exact absurd tried (by decide)

end Leak

end OpenTulpa.Capabilities.WorkerFencing
