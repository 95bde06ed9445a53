import OpenTulpa.Library.Run
import OpenTulpa.Repositories.Workspaces

/-! Threads bound to repository workspaces. A thread is bound by opening a workspace or by importing a patch into
one; closing a workspace removes the binding of the thread that asks for it, whichever workspace that names. -/

namespace OpenTulpa.Repositories.Bindings

open Library Workspaces

section Calls

/-- The normalised arguments of `open`, and the answers of the provider: the workspace it creates, and the
commit at which the prepared checkout stands. -/
structure Opening where
  tenantId : String
  threadId : String
  workspaceId : String
  repositoryUrl : String
  baseRef : String
  branch : String
  provider : RepositoryProvider
  created : Option String
  baseSha : Option String
  error : String
  now : Int
  updated : Int
  deriving DecidableEq

structure Importing where
  tenantId : String
  threadId : String
  workspaceId : String
  patchSha256 : String
  source : Option SourceBinding
  head : Option (String × String)
  now : Int
  deriving DecidableEq

structure Closing where
  tenantId : String
  threadId : String
  workspaceId : Option String
  stopped : Bool
  now : Int
  deriving DecidableEq

inductive Call where
  | open (opening : Opening)
  | importVerifiedPatch (importing : Importing)
  | close (closing : Closing)
  deriving DecidableEq

def Opening.creating (opening : Opening) : RepositoryWorkspace where
  id := opening.workspaceId
  tenantId := opening.tenantId
  repositoryUrl := opening.repositoryUrl
  provider := opening.provider
  providerWorkspaceId := none
  baseRef := opening.baseRef
  baseSha := none
  branch := opening.branch
  headSha := none
  status := .creating
  lastError := none
  pullRequestUrl := none
  sourceCandidateId := none
  sourceCommit := none
  verifiedTreeOid := none
  verifiedPatchSha256 := none
  exportVerifiedAt := none
  createdAt := opening.now
  updatedAt := opening.now
  lastUsedAt := opening.now

def Opening.ready (opening : Opening) (baseSha : String) : RepositoryWorkspace :=
  { opening.creating with
    providerWorkspaceId := opening.created
    baseSha := some baseSha
    headSha := some baseSha
    status := .ready
    updatedAt := opening.updated
    lastUsedAt := opening.updated }

def Opening.failed (opening : Opening) : RepositoryWorkspace :=
  { opening.creating with
    providerWorkspaceId := opening.created
    status := .failed
    lastError := some opening.error
    updatedAt := opening.updated
    lastUsedAt := opening.updated }

/-- `open`: the store it leaves, and whether it returned. -/
def openWorkspace (store : Store) (opening : Opening) : Store × Bool :=
  match store.create opening.creating with
  | none => (store, false)
  | some created =>
    match opening.created, opening.baseSha with
    | some _, some baseSha =>
      ((created.update (opening.ready baseSha)).bind opening.tenantId opening.threadId opening.workspaceId
        opening.updated, true)
    | _, _ => (created.update opening.failed, false)

/-- The workspace that takes a patch. -/
def Importing.target (store : Store) (importing : Importing) : Option RepositoryWorkspace :=
  (store.get importing.tenantId importing.workspaceId).filter fun workspace => workspace.status == .ready

/-- `import_verified_patch` of a valid patch. -/
def importVerifiedPatch (store : Store) (importing : Importing) : Store × Bool :=
  match importing.target store, importing.head with
  | some workspace, some (headSha, headTreeOid) =>
    ((store.update (workspace.imported headSha headTreeOid importing.patchSha256 importing.source importing.now)).bind
      importing.tenantId importing.threadId workspace.id importing.now, true)
  | _, _ => (store, false)

/-- The workspace that a call of `close` names, or else the one its thread is bound to. -/
def Closing.target (store : Store) (closing : Closing) : Option RepositoryWorkspace :=
  match closing.workspaceId with
  | some workspaceId => store.get closing.tenantId workspaceId
  | none => store.active closing.tenantId closing.threadId

/-- `close` -/
def close (store : Store) (closing : Closing) : Store × Bool :=
  match closing.target store with
  | none => (store, false)
  | some workspace =>
    if closing.stopped then
      ((store.update (workspace.closed closing.now)).unbind closing.tenantId closing.threadId, true)
    else (store, false)

def perform (store : Store) : Call → Store × Bool
  | .open opening => openWorkspace store opening
  | .importVerifiedPatch importing => importVerifiedPatch store importing
  | .close closing => close store closing

def step (store : Store) (call : Call) : Store := (perform store call).1

end Calls

section Specification

def Store.live (store : Store) (binding : Binding) : Prop :=
  ∃ workspace, store.get binding.tenantId binding.workspaceId = some workspace ∧ workspace.status.isOpen = true

/-- Every binding names a workspace that can be worked in. -/
def Live (store : Store) : Prop := ∀ binding ∈ store.bindings, Store.live store binding

/-- A call that returns leaves every binding live, and a close removes exactly the bindings of its workspace. -/
def Faithful (store : Store) (call : Call) : Prop :=
  (perform store call).2 = true →
    Live (step store call) ∧
      ∀ closing workspace, call = .close closing → closing.target store = some workspace →
        (step store call).bindings = store.bindings.filter fun binding => binding.workspaceId != workspace.id

/-- A close that goes through is asked for by the one thread bound to its workspace. -/
def ByItsThread (store : Store) : Call → Prop
  | .close closing => closing.stopped = true → ∀ workspace, closing.target store = some workspace →
      ∀ binding ∈ store.bindings,
        binding.ofThread closing.tenantId closing.threadId = true ↔ binding.workspaceId = workspace.id
  | _ => True

end Specification

section Liveness

variable {store : Store}

theorem mem_bind {binding : Binding} {tenantId threadId workspaceId : String} {boundAt : Int}
    (member : binding ∈ (store.bind tenantId threadId workspaceId boundAt).bindings) :
    binding ∈ store.bindings ∨ binding = ⟨tenantId, threadId, workspaceId, boundAt⟩ := by
  simp only [Store.bind, Store.unbind, List.mem_append, List.mem_filter, List.mem_singleton] at member
  exact member.imp And.left id

/-- Writing an open row back, or a row that no binding names, leaves the bindings live. -/
theorem live_update {workspace row : RepositoryWorkspace} (live : Live store)
    (found : store.get workspace.tenantId workspace.id = some row)
    (kept : workspace.status.isOpen = true ∨
      ∀ binding ∈ store.bindings, ¬(binding.tenantId = workspace.tenantId ∧ binding.workspaceId = workspace.id)) :
    Live (store.update workspace) := by
  intro binding member
  obtain ⟨named, present, working⟩ := live binding member
  by_cases same : binding.tenantId = workspace.tenantId ∧ binding.workspaceId = workspace.id
  · rcases kept with stays | none
    · refine ⟨workspace.overwrite row, ?_, stays⟩
      rw [same.1, same.2]
      exact get_update_self found
    · exact absurd same (none binding member)
  · exact ⟨named, by rw [get_update_of_ne same]; exact present, working⟩

theorem live_bind {tenantId threadId workspaceId : String} {boundAt : Int} (live : Live store)
    (bound : Store.live store ⟨tenantId, threadId, workspaceId, boundAt⟩) :
    Live (store.bind tenantId threadId workspaceId boundAt) := by
  intro binding member
  rcases mem_bind member with old | rfl
  · exact live binding old
  · exact bound

theorem live_create {created : Store} {workspace : RepositoryWorkspace} (live : Live store)
    (done : store.create workspace = some created) : Live created ∧
      ∀ binding ∈ created.bindings, ¬(binding.tenantId = workspace.tenantId ∧ binding.workspaceId = workspace.id) := by
  have same : created.bindings = store.bindings := by
    unfold Store.create at done
    split at done
    · cases done
    · cases done
      rfl
  constructor
  · intro binding member
    obtain ⟨named, present, working⟩ := live binding (same ▸ member)
    exact ⟨named, get_create done present, working⟩
  · rintro binding member ⟨tenant, name⟩
    obtain ⟨named, present, -⟩ := live binding (same ▸ member)
    unfold Store.create at done
    split at done
    · cases done
    · rename_i fresh
      exact fresh (List.any_eq_true.mpr
        ⟨named, List.mem_of_find?_eq_some present, by simp [(get_matches present).2, name]⟩)

end Liveness

section Steps

variable {store : Store}

theorem open_live (live : Live store) (opening : Opening) : Live (openWorkspace store opening).1 := by
  unfold openWorkspace
  split
  · exact live
  · rename_i created done
    obtain ⟨kept, fresh⟩ := live_create live done
    have found : created.get opening.creating.tenantId opening.creating.id = some opening.creating := get_create_self done
    split
    · rename_i baseSha _ _
      have updated : Live (created.update (opening.ready baseSha)) := live_update kept found (Or.inl rfl)
      apply live_bind updated
      exact ⟨_, get_update_self found, rfl⟩
    · exact live_update kept found (Or.inr fresh)

theorem import_live (live : Live store) (importing : Importing) : Live (importVerifiedPatch store importing).1 := by
  unfold importVerifiedPatch
  split
  · rename_i workspace headSha headTreeOid target _
    obtain ⟨found, ready⟩ := Option.filter_eq_some_iff.mp target
    obtain ⟨tenant, name⟩ := get_matches found
    have working : workspace.status.isOpen = true := by
      rw [show workspace.status = .ready by simpa using ready]
      rfl
    let copy := workspace.imported headSha headTreeOid importing.patchSha256 importing.source importing.now
    have present : store.get copy.tenantId copy.id = some workspace := by
      rw [← tenant, ← name] at found
      exact found
    apply live_bind (live_update live present (Or.inl working))
    refine ⟨copy.overwrite workspace, ?_, working⟩
    rw [← tenant]
    exact get_update_self present
  · exact live

theorem closing_target_get {closing : Closing} {workspace : RepositoryWorkspace}
    (target : closing.target store = some workspace) :
    store.get workspace.tenantId workspace.id = some workspace := by
  unfold Closing.target at target
  split at target
  · obtain ⟨tenant, name⟩ := get_matches target
    rw [tenant, name]
    exact target
  · obtain ⟨binding, -, present⟩ := Option.bind_eq_some_iff.mp target
    obtain ⟨tenant, name⟩ := get_matches present
    rw [tenant, name]
    exact present

/-- A close by the one thread of its workspace removes the bindings of that workspace. -/
theorem close_faithful {closing : Closing} {workspace : RepositoryWorkspace} (live : Live store)
    (stopped : closing.stopped = true) (target : closing.target store = some workspace)
    (own : ∀ binding ∈ store.bindings,
      binding.ofThread closing.tenantId closing.threadId = true ↔ binding.workspaceId = workspace.id) :
    (close store closing).1.bindings = store.bindings.filter (fun binding => binding.workspaceId != workspace.id) ∧
      Live (close store closing).1 := by
  have result : (close store closing).1 =
      (store.update (workspace.closed closing.now)).unbind closing.tenantId closing.threadId := by
    simp [close, target, stopped]
  have removed : (close store closing).1.bindings =
      store.bindings.filter fun binding => binding.workspaceId != workspace.id := by
    rw [result]
    apply List.filter_congr
    intro binding member
    rw [bne, Bool.not_inj_iff, Bool.eq_iff_iff, own binding member, beq_iff_eq]
  refine ⟨removed, ?_⟩
  intro binding member
  rw [removed, List.mem_filter, bne_iff_ne] at member
  obtain ⟨named, present, working⟩ := live binding member.1
  refine ⟨named, ?_, working⟩
  rw [result]
  have other : ¬(binding.tenantId = (workspace.closed closing.now).tenantId ∧
      binding.workspaceId = (workspace.closed closing.now).id) := fun same => member.2 same.2
  exact (get_update_of_ne other).trans present

/-- A close that removes exactly the bindings of its workspace is one by its thread. -/
theorem own_of_close {closing : Closing} {workspace : RepositoryWorkspace} (stopped : closing.stopped = true)
    (target : closing.target store = some workspace)
    (removed : (close store closing).1.bindings =
      store.bindings.filter fun binding => binding.workspaceId != workspace.id) :
    ∀ binding ∈ store.bindings,
      binding.ofThread closing.tenantId closing.threadId = true ↔ binding.workspaceId = workspace.id := by
  intro binding member
  have both : binding ∈ (close store closing).1.bindings ↔
      binding ∈ store.bindings.filter fun binding => binding.workspaceId != workspace.id := by rw [removed]
  simp only [close, target, stopped, if_true, Store.unbind, Store.update, List.mem_filter, member, true_and,
    Bool.not_eq_true', bne_iff_ne] at both
  constructor
  · intro thread
    by_contra other
    simp [both.mpr other] at thread
  · intro name
    by_contra other
    exact both.mp (by simpa using other) name

theorem close_raised {closing : Closing}
    (raised : closing.stopped = true → closing.target store = none) : close store closing = (store, false) := by
  unfold close
  split
  · rfl
  · rename_i workspace target
    split
    · rename_i stopped
      cases target.symm.trans (raised stopped)
    · rfl

theorem faithful_iff (live : Live store) (call : Call) : Faithful store call ↔ ByItsThread store call := by
  cases call with
  | «open» opening => exact ⟨fun _ => trivial, fun _ _ => ⟨open_live live opening, by rintro _ _ ⟨⟩⟩⟩
  | importVerifiedPatch importing => exact ⟨fun _ => trivial, fun _ _ => ⟨import_live live importing, by rintro _ _ ⟨⟩⟩⟩
  | close closing =>
    constructor
    · intro faithful stopped workspace target
      have returned : (perform store (.close closing)).2 = true := by simp [perform, close, target, stopped]
      exact own_of_close stopped target ((faithful returned).2 closing workspace rfl target)
    · intro own returned
      cases target : closing.target store with
      | none => simp [perform, close, target] at returned
      | some workspace =>
        have stopped : closing.stopped = true := by
          by_contra refused
          simp [perform, close, target, refused] at returned
        obtain ⟨removed, stays⟩ := close_faithful live stopped target (own stopped workspace target)
        refine ⟨stays, ?_⟩
        rintro _ named ⟨rfl⟩ found
        obtain rfl : workspace = named := Option.some.inj (target.symm.trans found)
        exact removed

theorem step_live (live : Live store) (call : Call) (own : ByItsThread store call) : Live (step store call) := by
  cases call with
  | «open» opening => exact open_live live opening
  | importVerifiedPatch importing => exact import_live live importing
  | close closing =>
    by_cases goes : closing.stopped = true ∧ (closing.target store).isSome = true
    · obtain ⟨workspace, target⟩ := Option.isSome_iff_exists.mp goes.2
      exact (close_faithful live goes.1 target (own goes.1 workspace target)).2
    · have raised : close store closing = (store, false) := by
        apply close_raised
        intro stopped
        simpa [stopped] using goes
      change Live (close store closing).1
      rw [raised]
      exact live

end Steps

/-- In a run of calls by any threads, every call that returns leaves the bindings naming open workspaces, and every
close removes exactly the bindings of its workspace, if and only if each close is asked for by the one thread
bound to its workspace. -/
theorem bindings_follow_workspaces (start : Store) (live : Live start) (calls : List Call) :
    Run.Guarded step Faithful start calls ↔ Run.Guarded step ByItsThread start calls := by
  have agree : ∀ store call, Live store → (Faithful store call ↔ ByItsThread store call) :=
    fun _ call live => faithful_iff live call
  have preserved : ∀ store call, Live store → ByItsThread store call → Live (step store call) :=
    fun _ call live own => step_live live call own
  exact Run.guarded_iff agree preserved live calls

def sampleOpening (threadId workspaceId : String) : Opening where
  tenantId := "owner"
  threadId := threadId
  workspaceId := workspaceId
  repositoryUrl := "https://github.com/owner/project.git"
  baseRef := "main"
  branch := "opentulpa/" ++ workspaceId
  provider := .local
  created := some workspaceId
  baseSha := some "0000000000000000000000000000000000000000"
  error := ""
  now := 0
  updated := 1

def sampleClosing (threadId workspaceId : String) : Closing := ⟨"owner", threadId, some workspaceId, true, 2⟩

theorem bindings_follow_workspaces_closedByOpener :
    Run.Guarded step Faithful ⟨[], []⟩ [.open (sampleOpening "first" "repo_1"), .close (sampleClosing "first" "repo_1")] := by
  apply (bindings_follow_workspaces ⟨[], []⟩ (by rintro binding ⟨⟩) _).mpr
  refine ⟨trivial, ?_, trivial⟩
  intro _ workspace target binding member
  obtain rfl : workspace = (sampleOpening "first" "repo_1").ready "0000000000000000000000000000000000000000" :=
    Option.some.inj (target.symm.trans (by decide +kernel))
  have only : (step ⟨[], []⟩ (.open (sampleOpening "first" "repo_1"))).bindings = [⟨"owner", "first", "repo_1", 1⟩] := by
    decide +kernel
  rw [only, List.mem_singleton] at member
  subst member
  decide +kernel

/-- The first thread closes the workspace of the second: it loses its own binding, and the second stays bound to a
stopped workspace. -/
theorem close_of_other_thread_unfaithful :
    ¬Run.Guarded step Faithful ⟨[], []⟩
      [.open (sampleOpening "first" "repo_1"), .open (sampleOpening "second" "repo_2"),
        .close (sampleClosing "first" "repo_2")] := by
  intro guarded
  have removed := (guarded.2.2.1 (by decide +kernel)).2 _
    ((sampleOpening "second" "repo_2").ready "0000000000000000000000000000000000000000") rfl (by decide +kernel)
  exact absurd removed (by decide +kernel)

end OpenTulpa.Repositories.Bindings
