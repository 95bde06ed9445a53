import OpenTulpa.Library.Rows

/-! Repository workspaces: the row of a checkout, the table of the rows and of the threads bound to them, and
the copies of a row that the calls of the service write back. -/

namespace OpenTulpa.Repositories.Workspaces

open Library

inductive RepositoryProvider where
  | local
  | daytona
  deriving DecidableEq

inductive RepositoryWorkspaceStatus where
  | creating
  | ready
  | stopped
  | failed
  | published
  deriving DecidableEq

/-- The statuses in which a workspace can be worked in. -/
def RepositoryWorkspaceStatus.isOpen : RepositoryWorkspaceStatus → Bool
  | .ready | .published => true
  | _ => false

structure RepositoryWorkspace where
  id : String
  tenantId : String
  repositoryUrl : String
  provider : RepositoryProvider
  providerWorkspaceId : Option String
  baseRef : String
  baseSha : Option String
  branch : String
  headSha : Option String
  status : RepositoryWorkspaceStatus
  lastError : Option String
  pullRequestUrl : Option String
  sourceCandidateId : Option String
  sourceCommit : Option String
  verifiedTreeOid : Option String
  verifiedPatchSha256 : Option String
  exportVerifiedAt : Option Int
  createdAt : Int
  updatedAt : Int
  lastUsedAt : Int
  deriving DecidableEq

structure Binding where
  tenantId : String
  threadId : String
  workspaceId : String
  boundAt : Int
  deriving DecidableEq

structure Store where
  workspaces : List RepositoryWorkspace
  bindings : List Binding
  deriving DecidableEq

section Store

def Store.get (store : Store) (tenantId workspaceId : String) : Option RepositoryWorkspace :=
  store.workspaces.find? fun row => row.tenantId == tenantId && row.id == workspaceId

/-- `create`, which raises on an identifier in use. -/
def Store.create (store : Store) (workspace : RepositoryWorkspace) : Option Store :=
  if store.workspaces.any fun row => row.id == workspace.id then none
  else some { store with workspaces := store.workspaces ++ [workspace] }

/-- The columns that `update` writes. -/
def RepositoryWorkspace.overwrite (workspace row : RepositoryWorkspace) : RepositoryWorkspace :=
  { workspace with
    id := row.id
    tenantId := row.tenantId
    repositoryUrl := row.repositoryUrl
    provider := row.provider
    baseRef := row.baseRef
    branch := row.branch
    createdAt := row.createdAt }

def Store.update (store : Store) (workspace : RepositoryWorkspace) : Store :=
  { store with
    workspaces := Rows.update (fun row => row.tenantId == workspace.tenantId && row.id == workspace.id)
      workspace.overwrite store.workspaces }

def Binding.ofThread (tenantId threadId : String) (binding : Binding) : Bool :=
  binding.tenantId == tenantId && binding.threadId == threadId

def Store.unbind (store : Store) (tenantId threadId : String) : Store :=
  { store with bindings := store.bindings.filter fun binding => !binding.ofThread tenantId threadId }

def Store.bind (store : Store) (tenantId threadId workspaceId : String) (boundAt : Int) : Store :=
  let others := store.unbind tenantId threadId
  { others with bindings := others.bindings ++ [⟨tenantId, threadId, workspaceId, boundAt⟩] }

def Store.active (store : Store) (tenantId threadId : String) : Option RepositoryWorkspace :=
  (store.bindings.find? fun binding => binding.ofThread tenantId threadId).bind fun binding =>
    store.get tenantId binding.workspaceId

end Store

section Copies

/-- The copy of `status`. -/
def RepositoryWorkspace.inspected (workspace : RepositoryWorkspace) (headSha : String) (now : Int) :
    RepositoryWorkspace :=
  { workspace with headSha := some headSha, updatedAt := now, lastUsedAt := now }

/-- The candidate that an imported patch was exported from. -/
structure SourceBinding where
  candidateId : String
  commit : String
  treeOid : String
  deriving DecidableEq

/-- The copy of `import_verified_patch`. -/
def RepositoryWorkspace.imported (workspace : RepositoryWorkspace) (headSha headTreeOid patchSha256 : String)
    (source : Option SourceBinding) (now : Int) : RepositoryWorkspace :=
  { workspace with
    headSha := some headSha
    sourceCandidateId := source.map SourceBinding.candidateId
    sourceCommit := source.map SourceBinding.commit
    verifiedTreeOid := source.map fun _ => headTreeOid
    verifiedPatchSha256 := source.map fun _ => patchSha256
    exportVerifiedAt := source.map fun _ => now
    updatedAt := now
    lastUsedAt := now }

/-- The copy of `close`. -/
def RepositoryWorkspace.closed (workspace : RepositoryWorkspace) (now : Int) : RepositoryWorkspace :=
  { workspace with status := .stopped, updatedAt := now, lastUsedAt := now }

/-- The copy of `publish`. -/
def RepositoryWorkspace.published (workspace : RepositoryWorkspace) (headSha pullRequestUrl : String) (now : Int) :
    RepositoryWorkspace :=
  { workspace with
    headSha := some headSha
    status := .published
    pullRequestUrl := some pullRequestUrl
    updatedAt := now
    lastUsedAt := now }

/-- The check of `publish` on the copy that it read. -/
def sourceChecked (copy : RepositoryWorkspace) (headTreeOid : String) : Bool :=
  copy.sourceCandidateId.isNone ||
    (copy.exportVerifiedAt.isSome && copy.verifiedPatchSha256.isSome && copy.verifiedTreeOid == some headTreeOid)

end Copies

section Lookups

variable {store : Store} {workspace row : RepositoryWorkspace} {tenantId workspaceId : String}

theorem get_matches (found : store.get tenantId workspaceId = some row) :
    row.tenantId = tenantId ∧ row.id = workspaceId := by
  simpa using List.find?_some found

theorem get_create {created : Store} (done : store.create workspace = some created)
    (found : store.get tenantId workspaceId = some row) : created.get tenantId workspaceId = some row := by
  unfold Store.create at done
  split at done
  · cases done
  · cases done
    simp only [Store.get, List.find?_append] at found ⊢
    rw [found]
    rfl

theorem get_create_self {created : Store} (done : store.create workspace = some created) :
    created.get workspace.tenantId workspace.id = some workspace := by
  unfold Store.create at done
  split at done
  · cases done
  · rename_i fresh
    cases done
    have missed : store.get workspace.tenantId workspace.id = none := by
      simp only [Store.get, List.find?_eq_none]
      intro other member same
      exact fresh (List.any_eq_true.mpr ⟨other, member, by simp_all⟩)
    simp only [Store.get, List.find?_append] at missed ⊢
    rw [missed]
    simp

theorem get_update_self (found : store.get workspace.tenantId workspace.id = some row) :
    (store.update workspace).get workspace.tenantId workspace.id = some (workspace.overwrite row) := by
  simp only [Store.get, Store.update] at found ⊢
  rw [Rows.find_update _ _ _ _ (fun other _ => by rfl), found]
  have same := List.find?_some found
  simp only [Option.map_some, same, if_true]

theorem get_update_of_ne (other : ¬(tenantId = workspace.tenantId ∧ workspaceId = workspace.id)) :
    (store.update workspace).get tenantId workspaceId = store.get tenantId workspaceId := by
  simp only [Store.get, Store.update]
  rw [Rows.find_update _ _ _ _ (fun other _ => by rfl)]
  cases found : store.workspaces.find? fun row => row.tenantId == tenantId && row.id == workspaceId with
  | none => rfl
  | some row =>
    obtain ⟨tenant, name⟩ : row.tenantId = tenantId ∧ row.id = workspaceId := by simpa using List.find?_some found
    simp only [Option.map_some, Option.some.injEq]
    split
    · rename_i chosen
      simp only [Bool.and_eq_true, beq_iff_eq] at chosen
      exact absurd ⟨tenant ▸ chosen.1, name ▸ chosen.2⟩ other
    · rfl

end Lookups

end OpenTulpa.Repositories.Workspaces
