import OpenTulpa.Capabilities.Revisions

/-! Generations are never reused. The archive of a capability only grows, its activation row
moves along three lifecycle states, and a number that was given to one activation is never
given to another, over every run of the store's operations. -/

namespace OpenTulpa.Capabilities.Generations

open Library Text Outcome Models Revisions

inductive Op where
  | append (namespaceName : String) (manifest : CapabilityManifest) (expectedLatestRevision : Option Nat)
      (now : Nat)
  | activate (request : ActivateRequest) (now : Nat)
  | beginDeactivation (namespaceName capabilityName : String) (expectedGeneration : Nat)
  | cancelDeactivation (namespaceName capabilityName : String) (expectedGeneration : Nat)
  | deactivate (namespaceName capabilityName : String) (expectedGeneration : Nat)
  deriving DecidableEq

section Step

variable (contentDigest : CapabilityManifest → String)

def step (store : CapabilityRevisionStore) : Op → CapabilityRevisionStore
  | .append namespaceName manifest expected now =>
      committed store (append contentDigest store namespaceName manifest expected now)
  | .activate request now => committed store (activate contentDigest store request now)
  | .beginDeactivation namespaceName name expected =>
      committed store (beginDeactivation store namespaceName name expected)
  | .cancelDeactivation namespaceName name expected =>
      committed store (cancelDeactivation store namespaceName name expected)
  | .deactivate namespaceName name expected =>
      committed store (deactivate store namespaceName name expected)

end Step

/-- The moves of the lifecycle for a fixed generation. -/
def turns : CapabilityActivationState → CapabilityActivationState → Bool
  | .active, .deactivating | .deactivating, .active | .deactivating, .inactive => true
  | _, _ => false

/-- The activation row of a capability before and after one operation: it stays, it changes
its lifecycle state only, or a new generation is committed by a call that expected the
generation active at that moment, with no deactivation in progress. -/
inductive Transition (key : CapabilityKey) (op : Op) : Option ActivationRow → Option ActivationRow → Prop
  | stays (row : Option ActivationRow) : Transition key op row row
  | turns {row : ActivationRow} {state : CapabilityActivationState} (allowed : turns row.lifecycleState state = true) :
      Transition key op (some row) (some (inLifecycle state row))
  | commits {before : Option ActivationRow} {activated : CapabilityActivation} {request : ActivateRequest}
      {now : Nat} (called : op = .activate request now)
      (named : (strip request.namespaceName, request.capabilityName) = key)
      (expected : request.expectedGeneration = activeGeneration before)
      (settled : ∀ row ∈ before, row.lifecycleState ≠ .deactivating)
      (next : activated.generation = (before.map ActivationRow.generation).getD 0 + 1) :
      Transition key op before (some ⟨activated, .active⟩)

theorem safeNamespace_eq {value safe : String} (done : safeNamespace value = .ok safe) : strip value = safe := by
  simp only [safeNamespace] at done
  split at done
  · cases done
  · exact Except.ok.inj done

/-- A swap replaces the one row it was aimed at. -/
theorem swap_activation {store stored : CapabilityRevisionStore} {key : CapabilityKey} {row : ActivationRow}
    {change : ActivationRow → ActivationRow} (present : store.activation key = some row)
    (same : ∀ other, other.key = key → (change other).key = key)
    (done : store.swap key row.generation row.lifecycleState change = .ok stored) :
    stored.revisions = store.revisions ∧ stored.activation key = some (change row) ∧
      ∀ other, other ≠ key → stored.activation other = store.activation other := by
  simp only [CapabilityRevisionStore.swap] at done
  split at done
  · cases done
  · cases done
    have stable : ∀ (wanted : CapabilityKey) (candidate : ActivationRow),
        (candidate.key == key && (candidate.generation == row.generation &&
          candidate.lifecycleState == row.lifecycleState)) = true →
        ((change candidate).key == wanted) = (candidate.key == wanted) := by
      intro wanted candidate chosen
      simp only [Bool.and_eq_true, beq_iff_eq] at chosen
      rw [same candidate chosen.1, chosen.1]
    refine ⟨rfl, ?_, ?_⟩
    · have found := Rows.find_update (fun row => row.key == key) _ change store.activations (stable key)
      have named : row.key = key := by simpa using List.find?_some present
      simp only [CapabilityRevisionStore.activation] at present ⊢
      rw [found, present]
      simp [named]
    · intro other different
      have found := Rows.find_update (fun row => row.key == other) _ change store.activations (stable other)
      simp only [CapabilityRevisionStore.activation]
      rw [found]
      cases present : store.activations.find? fun row => row.key == other with
      | none => rfl
      | some candidate =>
        have named : candidate.key = other := by simpa using List.find?_some present
        simp [named, different]

/-- What an operation on the activation rows may do. -/
def Moves (op : Op) (store stored : CapabilityRevisionStore) : Prop :=
  stored.revisions = store.revisions ∧
    ∀ key, Transition key op (store.activation key) (stored.activation key)

theorem Moves.refl (op : Op) (store : CapabilityRevisionStore) : Moves op store store :=
  ⟨rfl, fun _ => .stays _⟩

theorem changes_of_swap {op : Op} {store stored : CapabilityRevisionStore} {key : CapabilityKey}
    {row : ActivationRow} {change : ActivationRow → ActivationRow} (present : store.activation key = some row)
    (same : ∀ other, other.key = key → (change other).key = key)
    (done : store.swap key row.generation row.lifecycleState change = .ok stored)
    (transition : Transition key op (some row) (some (change row))) : Moves op store stored := by
  obtain ⟨revisions, here, elsewhere⟩ := swap_activation present same done
  refine ⟨revisions, fun other => ?_⟩
  by_cases equal : other = key
  · rw [equal, here, present]
    exact transition
  · rw [elsewhere other equal]
    exact .stays _

theorem moveTo_moves {store stored : CapabilityRevisionStore} {request : ActivateRequest} {digest : String}
    {now : Nat} {activated : CapabilityActivation}
    (done : store.moveTo request (strip request.namespaceName) digest now = .ok (stored, activated)) :
    Moves (.activate request now) store stored := by
  simp only [CapabilityRevisionStore.moveTo] at done
  cases present : store.activation (strip request.namespaceName, request.capabilityName) with
  | none =>
    simp only [present] at done
    split at done
    · cases done
    · rename_i unexpected
      cases done
      refine ⟨rfl, fun other => ?_⟩
      have appended : CapabilityRevisionStore.activation { store with activations := store.activations ++
            [⟨request.activation (strip request.namespaceName) digest 1 now, .active⟩] } other =
          (store.activation other).or (if other = (strip request.namespaceName, request.capabilityName) then
            some ⟨request.activation (strip request.namespaceName) digest 1 now, .active⟩ else none) := by
        have named : ActivationRow.key ⟨request.activation (strip request.namespaceName) digest 1 now, .active⟩ =
          (strip request.namespaceName, request.capabilityName) := rfl
        by_cases same : other = (strip request.namespaceName, request.capabilityName)
        · simp [CapabilityRevisionStore.activation, List.find?_append, named, same]
        · simp [CapabilityRevisionStore.activation, List.find?_append, named, same, Ne.symm same]
      rw [appended]
      by_cases same : other = (strip request.namespaceName, request.capabilityName)
      · subst same
        rw [present, if_pos rfl]
        exact .commits rfl rfl (not_not.mp unexpected) (by simp) rfl
      · simpa [same] using Transition.stays (store.activation other)
  | some row =>
    simp only [present] at done
    split at done
    · cases done
    rename_i settled
    split at done
    · cases done
    rename_i expected
    split at done
    · cases done
      exact .refl _ store
    · obtain ⟨swapped, swap, last⟩ := bind_eq_ok done
      cases last
      refine changes_of_swap present (fun _ _ => rfl) swap ?_
      exact .commits rfl rfl (not_not.mp expected).symm (by simpa using settled) rfl

theorem activate_moves {contentDigest : CapabilityManifest → String} {store stored : CapabilityRevisionStore}
    {request : ActivateRequest} {now : Nat} {activated : CapabilityActivation}
    (done : activate contentDigest store request now = .ok (stored, activated)) :
    Moves (.activate request now) store stored := by
  simp only [activate] at done
  obtain ⟨safe, name, done⟩ := bind_eq_ok done
  split at done
  · cases done
  obtain ⟨found, _, done⟩ := bind_eq_ok done
  cases found with
  | none => cases done
  | some manifest =>
    rw [← safeNamespace_eq name] at done
    exact moveTo_moves done

theorem beginDeactivation_moves {store stored : CapabilityRevisionStore} {op : Op} {namespaceName name : String}
    {expected : Nat} {row : CapabilityActivation}
    (done : beginDeactivation store namespaceName name expected = .ok (stored, row)) : Moves op store stored := by
  simp only [beginDeactivation] at done
  obtain ⟨safe, _, done⟩ := bind_eq_ok done
  cases present : store.activation (safe, name) with
  | none => simp [present] at done
  | some current =>
    simp only [present] at done
    split at done
    · cases done
    rename_i generation
    split at done
    · cases done
      exact .refl _ store
    split at done
    · cases done
    rename_i active
    obtain ⟨swapped, swap, last⟩ := bind_eq_ok done
    cases last
    rw [← not_not.mp generation, ← not_not.mp active] at swap
    have kept : ∀ other : ActivationRow, other.key = (safe, name) →
        (inLifecycle .deactivating other).key = (safe, name) := fun _ named => named
    exact changes_of_swap present kept swap (.turns (by rw [not_not.mp active]; rfl))

theorem changeDeactivationState_moves {store stored : CapabilityRevisionStore} {op : Op}
    {namespaceName name : String} {expected : Nat} {target : CapabilityActivationState}
    {row : CapabilityActivation} (away : turns .deactivating target = true)
    (done : changeDeactivationState store namespaceName name expected target = .ok (stored, row)) :
    Moves op store stored := by
  simp only [changeDeactivationState] at done
  obtain ⟨safe, _, done⟩ := bind_eq_ok done
  cases present : store.activation (safe, name) with
  | none => simp [present] at done
  | some current =>
    simp only [present] at done
    split at done
    · cases done
    rename_i generation
    split at done
    · cases done
      exact .refl _ store
    split at done
    · cases done
    rename_i deactivating
    obtain ⟨swapped, swap, last⟩ := bind_eq_ok done
    cases last
    rw [← not_not.mp generation, ← not_not.mp deactivating] at swap
    have kept : ∀ other : ActivationRow, other.key = (safe, name) →
        (inLifecycle target other).key = (safe, name) := fun _ named => named
    exact changes_of_swap present kept swap (.turns (by rw [not_not.mp deactivating]; exact away))

theorem append_revisions {contentDigest : CapabilityManifest → String} {store stored : CapabilityRevisionStore}
    {namespaceName : String} {manifest added : CapabilityManifest} {expected : Option Nat} {now : Nat}
    (done : append contentDigest store namespaceName manifest expected now = .ok (stored, added)) :
    stored.activations = store.activations ∧ ∃ row : RevisionRow, stored.revisions = store.revisions ++ [row] ∧
      row.manifest.revision = (store.latestRevision row.key).elim 1 (· + 1) := by
  simp only [append] at done
  obtain ⟨safe, _, done⟩ := bind_eq_ok done
  split at done
  · cases done
  split at done
  · cases done
  rename_i revision
  split at done
  · cases done
  cases done
  exact ⟨rfl, _, rfl, not_not.mp revision⟩

/-- The revisions of every capability are numbered from one, in the order they were appended. -/
def Numbered (store : CapabilityRevisionStore) : Prop :=
  ∀ key, (store.revisionsOf key).map (fun row => row.manifest.revision) =
    List.range' 1 (store.revisionsOf key).length

theorem latestRevision_of_numbered {store : CapabilityRevisionStore} (numbered : Numbered store)
    (key : CapabilityKey) :
    (store.latestRevision key).elim 1 (· + 1) = 1 + (store.revisionsOf key).length := by
  rw [CapabilityRevisionStore.latestRevision, numbered key]
  cases count : (store.revisionsOf key).length with
  | zero => rfl
  | succ n =>
    have top : (List.range' 1 (n + 1)).max? = some (n + 1) := by
      rw [List.max?_eq_some_iff]
      refine ⟨by simp [List.mem_range'_1], ?_⟩
      intro number member
      have bounds := List.mem_range'_1.mp member
      omega
    rw [top]
    simp only [Option.elim_some]
    omega

section Run

variable (contentDigest : CapabilityManifest → String)

/-- One operation appends to the archives and moves the activation rows. -/
theorem step_cases (store : CapabilityRevisionStore) (op : Op) (numbered : Numbered store) :
    (Moves op store (step contentDigest store op)) ∨
      ((step contentDigest store op).activations = store.activations ∧
        ∃ row : RevisionRow, (step contentDigest store op).revisions = store.revisions ++ [row] ∧
          row.manifest.revision = 1 + (store.revisionsOf row.key).length) := by
  cases op with
  | append namespaceName manifest expected now =>
    simp only [step]
    cases done : append contentDigest store namespaceName manifest expected now with
    | error error => exact Or.inl (.refl _ store)
    | ok pair =>
      obtain ⟨rows, row, revisions, next⟩ := append_revisions done
      exact Or.inr ⟨rows, row, revisions, next.trans (latestRevision_of_numbered numbered row.key)⟩
  | activate request now =>
    left
    simp only [step]
    cases done : activate contentDigest store request now with
    | error error => exact .refl _ store
    | ok pair => exact activate_moves done
  | beginDeactivation namespaceName name expected =>
    left
    simp only [step]
    cases done : beginDeactivation store namespaceName name expected with
    | error error => exact .refl _ store
    | ok pair => exact beginDeactivation_moves done
  | cancelDeactivation namespaceName name expected =>
    left
    simp only [step]
    cases done : cancelDeactivation store namespaceName name expected with
    | error error => exact .refl _ store
    | ok pair => exact changeDeactivationState_moves rfl done
  | deactivate namespaceName name expected =>
    left
    simp only [step]
    cases done : deactivate store namespaceName name expected with
    | error error => exact .refl _ store
    | ok pair => exact changeDeactivationState_moves rfl done

theorem revisionsOf_append {store stored : CapabilityRevisionStore} {row : RevisionRow}
    (appended : stored.revisions = store.revisions ++ [row]) (key : CapabilityKey) :
    stored.revisionsOf key = store.revisionsOf key ++ if row.key = key then [row] else [] := by
  by_cases same : row.key = key <;>
    simp [CapabilityRevisionStore.revisionsOf, appended, List.filter_append, same]

theorem step_numbered (store : CapabilityRevisionStore) (op : Op) (numbered : Numbered store) :
    Numbered (step contentDigest store op) := by
  intro key
  rcases step_cases contentDigest store op numbered with ⟨same, _⟩ | ⟨_, row, appended, next⟩
  · rw [CapabilityRevisionStore.revisionsOf, same]
    exact numbered key
  · rw [revisionsOf_append appended]
    by_cases here : row.key = key
    · subst here
      simp [numbered row.key, next, List.range'_concat]
    · simpa [here] using numbered key

theorem step_transition (store : CapabilityRevisionStore) (op : Op) (numbered : Numbered store)
    (key : CapabilityKey) :
    Transition key op (store.activation key) ((step contentDigest store op).activation key) := by
  rcases step_cases contentDigest store op numbered with ⟨_, moves⟩ | ⟨same, _⟩
  · exact moves key
  · rw [CapabilityRevisionStore.activation, CapabilityRevisionStore.activation, same]
    exact .stays _

/-- What one capability looked like at two moments of a run. -/
structure Extends (key : CapabilityKey) (store later : CapabilityRevisionStore) : Prop where
  archive : store.revisionsOf key <+: later.revisionsOf key
  generation : ∀ row, store.activation key = some row → ∃ next, later.activation key = some next ∧
    row.generation ≤ next.generation ∧
    (row.generation = next.generation → next.activation = row.activation)

theorem Extends.refl (key : CapabilityKey) (store : CapabilityRevisionStore) : Extends key store store :=
  ⟨List.prefix_rfl, fun row present => ⟨row, present, le_rfl, fun _ => rfl⟩⟩

theorem Extends.trans {key : CapabilityKey} {first second third : CapabilityRevisionStore}
    (left : Extends key first second) (right : Extends key second third) : Extends key first third := by
  refine ⟨left.archive.trans right.archive, fun row present => ?_⟩
  obtain ⟨middle, found, upward, same⟩ := left.generation row present
  obtain ⟨last, kept, onward, equal⟩ := right.generation middle found
  refine ⟨last, kept, upward.trans onward, fun number => ?_⟩
  have level : row.generation = middle.generation := by omega
  rw [equal (by omega), same level]

theorem step_extends (key : CapabilityKey) (store : CapabilityRevisionStore) (op : Op)
    (numbered : Numbered store) : Extends key store (step contentDigest store op) := by
  constructor
  · rcases step_cases contentDigest store op numbered with ⟨same, _⟩ | ⟨_, row, appended, _⟩
    · have kept : (step contentDigest store op).revisionsOf key = store.revisionsOf key := by
        rw [CapabilityRevisionStore.revisionsOf, CapabilityRevisionStore.revisionsOf, same]
      exact kept ▸ List.prefix_rfl
    · rw [revisionsOf_append appended]
      exact List.prefix_append _ _
  · intro row present
    have transition := step_transition contentDigest store op numbered key
    rw [present] at transition
    generalize (step contentDigest store op).activation key = after at transition
    cases transition with
    | stays => exact ⟨row, rfl, le_rfl, fun _ => rfl⟩
    | turns allowed => exact ⟨_, rfl, le_rfl, fun _ => rfl⟩
    | @commits _ activated _ _ called named expected settled next =>
      have above : row.generation < activated.generation := by
        rw [next]
        exact Nat.lt_succ_self _
      exact ⟨⟨activated, .active⟩, rfl, above.le, fun equal => absurd equal above.ne⟩

theorem numbered_empty : Numbered .empty := fun _ => rfl

theorem capability_generations_never_reused (ops more : List Op) (key : CapabilityKey) :
    let store := Run.exec (step contentDigest) .empty ops
    let later := Run.exec (step contentDigest) store more
    (store.revisionsOf key).map (fun row => row.manifest.revision) =
        List.range' 1 (store.revisionsOf key).length ∧
      store.revisionsOf key <+: later.revisionsOf key ∧
      (∀ row, store.activation key = some row → ∃ next, later.activation key = some next ∧
        row.generation ≤ next.generation ∧
        (row.generation = next.generation → next.activation = row.activation)) ∧
      ∀ op, Transition key op (store.activation key) ((step contentDigest store op).activation key) := by
  intro store later
  have numbered : Numbered store := Run.exec_invariant (step_numbered contentDigest) numbered_empty ops
  have extended : Extends key store later :=
    Run.exec_related (Extends.refl key) (fun _ _ _ => Extends.trans) (step_numbered contentDigest)
      (step_extends contentDigest key) numbered more
  exact ⟨numbered key, extended.archive, extended.generation,
    fun op => step_transition contentDigest store op numbered key⟩

end Run

end OpenTulpa.Capabilities.Generations
