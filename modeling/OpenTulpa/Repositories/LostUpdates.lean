import OpenTulpa.Library.Run
import OpenTulpa.Repositories.Workspaces

/-! Overlapping calls on one repository workspace. Each call reads the row, waits for the sandbox (all but `status` under
the lock of the workspace, which they take after reading) and writes its whole copy back. -/

namespace OpenTulpa.Repositories.LostUpdates

open Library Workspaces

section Calls

inductive Kind where
  | status
  | importVerifiedPatch (patchSha256 : String) (source : Option SourceBinding)
  | close
  | publish
  deriving DecidableEq

/-- A call that has read the row, and whether it holds the lock. -/
structure Call where
  id : Nat
  kind : Kind
  copy : RepositoryWorkspace
  locked : Bool
  deriving DecidableEq

/-- What the sandbox and the forge answer to a call. -/
structure Answers where
  headSha : String
  headTreeOid : String
  pullRequestUrl : String
  now : Int
  deriving DecidableEq

/-- The fields that a source contribution is checked against. -/
structure Verification where
  sourceCandidateId : Option String
  sourceCommit : Option String
  verifiedTreeOid : Option String
  verifiedPatchSha256 : Option String
  exportVerifiedAt : Option Int
  deriving DecidableEq

def verification (workspace : RepositoryWorkspace) : Verification :=
  ⟨workspace.sourceCandidateId, workspace.sourceCommit, workspace.verifiedTreeOid, workspace.verifiedPatchSha256,
    workspace.exportVerifiedAt⟩

/-- The stored row, the calls in flight, and what the calls that returned have committed: whether one closed the
workspace, the verification of the last import, the pull request of the last publish, and whether a publish went
through without a check that the row asked for. -/
structure State where
  row : RepositoryWorkspace
  calls : List Call
  closed : Bool
  imported : Option Verification
  pullRequest : Option String
  unchecked : Bool
  deriving DecidableEq

inductive Event where
  | begin (id : Nat) (kind : Kind)
  | acquire (id : Nat)
  | finish (id : Nat) (answers : Answers)
  | fail (id : Nat)
  deriving DecidableEq

def start (row : RepositoryWorkspace) : State := ⟨row, [], false, none, none, false⟩

/-- The statuses in which a call goes on after reading the row. -/
def Kind.admits (kind : Kind) (stored : RepositoryWorkspaceStatus) : Bool :=
  match kind with
  | .status | .publish => stored.isOpen
  | .importVerifiedPatch .. => stored == .ready
  | .close => true

def Kind.locks : Kind → Bool
  | .status => false
  | _ => true

def State.call (s : State) (id : Nat) : Option Call := s.calls.find? fun call => call.id == id

def State.end (s : State) (id : Nat) : State := { s with calls := s.calls.filter fun call => call.id != id }

/-- The tree of an imported patch is the evaluated one. -/
def treeExpected (source : Option SourceBinding) (headTreeOid : String) : Bool :=
  source.all fun bound => bound.treeOid == headTreeOid

def commitStatus (s : State) (copy : RepositoryWorkspace) (answers : Answers) : State :=
  { s with row := (copy.inspected answers.headSha answers.now).overwrite s.row }

def commitImport (s : State) (copy : RepositoryWorkspace) (patchSha256 : String) (source : Option SourceBinding)
    (answers : Answers) : State :=
  let written := copy.imported answers.headSha answers.headTreeOid patchSha256 source answers.now
  { s with row := written.overwrite s.row, imported := some (verification written) }

def commitClose (s : State) (copy : RepositoryWorkspace) (answers : Answers) : State :=
  { s with row := (copy.closed answers.now).overwrite s.row, closed := true }

def commitPublish (s : State) (copy : RepositoryWorkspace) (answers : Answers) : State :=
  { s with
    row := (copy.published answers.headSha answers.pullRequestUrl answers.now).overwrite s.row
    pullRequest := some answers.pullRequestUrl
    unchecked := s.unchecked || (s.row.sourceCandidateId.isSome && copy.sourceCandidateId.isNone) }

/-- The write of a call whose sandbox commands succeeded. -/
def commit (s : State) (call : Call) (answers : Answers) : State :=
  match call.kind with
  | .status => commitStatus s call.copy answers
  | .importVerifiedPatch patchSha256 source => commitImport s call.copy patchSha256 source answers
  | .close => commitClose s call.copy answers
  | .publish => commitPublish s call.copy answers

/-- The checks of a call on the answers it gets. -/
def Call.accepts (call : Call) (answers : Answers) : Bool :=
  match call.kind with
  | .importVerifiedPatch _ source => treeExpected source answers.headTreeOid
  | .publish => sourceChecked call.copy answers.headTreeOid
  | _ => true

/-- A call works when it needs no lock or holds it, and writes when its checks accept the answers. -/
def Call.works (call : Call) : Bool := !call.kind.locks || call.locked

def Call.writes (call : Call) (answers : Answers) : Bool := call.works && call.accepts answers

def step (s : State) : Event → State
  | .begin id kind =>
    if (s.call id).isSome || !kind.admits s.row.status then s
    else { s with calls := s.calls ++ [⟨id, kind, s.row, false⟩] }
  | .acquire id =>
    if s.calls.any Call.locked then s
    else { s with calls := s.calls.map fun call => if call.id = id then { call with locked := call.kind.locks } else call }
  | .finish id answers =>
    match s.call id with
    | some call => if call.writes answers then (commit s call answers).end id else s
    | none => s
  | .fail id => s.end id

end Calls

section Specification

/-- What no later write takes back: a close, the verification of the last import, and a published pull request. -/
structure Kept (s : State) : Prop where
  stopped : s.closed = true → s.row.status = .stopped
  verified : ∀ written, s.imported = some written → verification s.row = written
  published : ∀ url, s.pullRequest = some url →
    s.row.pullRequestUrl = some url ∧ (s.row.status = .published ∨ s.row.status = .stopped)
  checked : s.unchecked = false

/-- The copy still has the row's status, pull request and verification. -/
def Current (row copy : RepositoryWorkspace) : Prop :=
  copy.status = row.status ∧ copy.pullRequestUrl = row.pullRequestUrl ∧ verification copy = verification row

instance (row copy : RepositoryWorkspace) : Decidable (Current row copy) :=
  inferInstanceAs (Decidable (copy.status = row.status ∧ _ ∧ _))

/-- A call that writes its copy back finds the row as it read it. -/
def WritesCurrent (s : State) : Event → Prop
  | .finish id answers => ∀ call ∈ s.call id, call.writes answers = true → Current s.row call.copy
  | _ => True

instance (s : State) : (event : Event) → Decidable (WritesCurrent s event)
  | .begin .. | .acquire .. | .fail .. => isTrue trivial
  | .finish id answers =>
    inferInstanceAs (Decidable (∀ call ∈ s.call id, call.writes answers = true → Current s.row call.copy))

end Specification

section Steps

variable {s : State}

/-- A call in flight read a row that its kind goes on with. -/
def Admitted (s : State) : Prop := ∀ call ∈ s.calls, call.kind.admits call.copy.status = true

def Inv (s : State) : Prop := Kept s ∧ Admitted s

/-- Events that write nothing keep what is kept. -/
theorem Kept.of_same {after : State} (kept : Kept s) (row : after.row = s.row) (closed : after.closed = s.closed)
    (imported : after.imported = s.imported) (pullRequest : after.pullRequest = s.pullRequest)
    (unchecked : after.unchecked = s.unchecked) : Kept after where
  stopped := by
    rw [closed, row]
    exact kept.stopped
  verified := by
    rw [imported, row]
    exact kept.verified
  published := by
    rw [pullRequest, row]
    exact kept.published
  checked := by
    rw [unchecked]
    exact kept.checked

theorem commitStatus_kept {copy : RepositoryWorkspace} (kept : Kept s) (current : Current s.row copy)
    (answers : Answers) : Kept (commitStatus s copy answers) where
  stopped := fun closed => current.1.trans (kept.stopped closed)
  verified := fun written imported => current.2.2.trans (kept.verified written imported)
  published := by
    intro url pullRequest
    obtain ⟨kept, status⟩ := kept.published url pullRequest
    rw [← current.1] at status
    exact ⟨current.2.1.trans kept, status⟩
  checked := kept.checked

theorem commitImport_kept {copy : RepositoryWorkspace} (kept : Kept s) (current : Current s.row copy)
    (ready : copy.status = .ready) (patchSha256 : String) (source : Option SourceBinding) (answers : Answers) :
    Kept (commitImport s copy patchSha256 source answers) where
  stopped := fun closed => current.1.trans (kept.stopped closed)
  verified := by
    rintro written ⟨⟩
    rfl
  published := by
    intro url pullRequest
    have status := (kept.published url pullRequest).2
    rw [← current.1, ready] at status
    rcases status with ⟨⟨⟩⟩ | ⟨⟨⟩⟩
  checked := kept.checked

theorem commitClose_kept {copy : RepositoryWorkspace} (kept : Kept s) (current : Current s.row copy)
    (answers : Answers) : Kept (commitClose s copy answers) where
  stopped := fun _ => rfl
  verified := fun written imported => current.2.2.trans (kept.verified written imported)
  published := fun url pullRequest => ⟨current.2.1.trans (kept.published url pullRequest).1, Or.inr rfl⟩
  checked := kept.checked

theorem commitPublish_kept {copy : RepositoryWorkspace} (kept : Kept s) (current : Current s.row copy)
    (working : copy.status.isOpen = true) (answers : Answers) : Kept (commitPublish s copy answers) where
  stopped := by
    intro closed
    rw [current.1, kept.stopped closed] at working
    cases working
  verified := fun written imported => current.2.2.trans (kept.verified written imported)
  published := by
    rintro url ⟨⟩
    exact ⟨rfl, Or.inl rfl⟩
  checked := by
    have same : copy.sourceCandidateId = s.row.sourceCandidateId := congrArg Verification.sourceCandidateId current.2.2
    simp only [commitPublish, kept.checked, same, Bool.false_or]
    cases s.row.sourceCandidateId <;> rfl

theorem commit_kept {call : Call} (kept : Kept s) (admitted : call.kind.admits call.copy.status = true)
    (current : Current s.row call.copy) (answers : Answers) : Kept (commit s call answers) := by
  unfold commit
  split
  · exact commitStatus_kept kept current answers
  · rename_i patchSha256 source kind
    have ready : call.copy.status = .ready := by simpa [kind, Kind.admits] using admitted
    exact commitImport_kept kept current ready patchSha256 source answers
  · exact commitClose_kept kept current answers
  · rename_i kind
    have working : call.copy.status.isOpen = true := by simpa [kind, Kind.admits] using admitted
    exact commitPublish_kept kept current working answers

theorem commit_calls (s : State) (call : Call) (answers : Answers) : (commit s call answers).calls = s.calls := by
  unfold commit
  cases call.kind <;> rfl

theorem admitted_end {id : Nat} (admitted : Admitted s) : Admitted (s.end id) := fun call member =>
  admitted call (List.mem_of_mem_filter member)

theorem step_inv (s : State) (event : Event) (inv : Inv s) (current : WritesCurrent s event) : Inv (step s event) := by
  obtain ⟨kept, admitted⟩ := inv
  cases event with
  | begin id kind =>
    simp only [step]
    split
    · exact ⟨kept, admitted⟩
    · rename_i goes
      refine ⟨kept.of_same rfl rfl rfl rfl rfl, ?_⟩
      intro call member
      rcases List.mem_append.mp member with old | new
      · exact admitted call old
      · obtain rfl := List.mem_singleton.mp new
        simp only [Bool.or_eq_true, Bool.not_eq_true', not_or, Bool.not_eq_false] at goes
        exact goes.2
  | acquire id =>
    simp only [step]
    split
    · exact ⟨kept, admitted⟩
    · refine ⟨kept.of_same rfl rfl rfl rfl rfl, ?_⟩
      intro call member
      obtain ⟨old, present, rfl⟩ := List.mem_map.mp member
      have goes := admitted old present
      split
      · exact goes
      · exact goes
  | finish id answers =>
    simp only [step]
    split
    · rename_i call found
      split
      · rename_i writes
        have goes := admitted call (List.mem_of_find?_eq_some found)
        have committed := commit_kept kept goes (current call found writes) answers
        refine ⟨committed.of_same rfl rfl rfl rfl rfl, admitted_end ?_⟩
        unfold Admitted
        rw [commit_calls]
        exact admitted
      · exact ⟨kept, admitted⟩
    · exact ⟨kept, admitted⟩
  | fail id => exact ⟨kept.of_same rfl rfl rfl rfl rfl, admitted_end admitted⟩

end Steps

def sampleRow : RepositoryWorkspace where
  id := "repo_1"
  tenantId := "owner"
  repositoryUrl := "https://github.com/owner/project.git"
  provider := .local
  providerWorkspaceId := some "repo_1"
  baseRef := "main"
  baseSha := some "0000000000000000000000000000000000000000"
  branch := "opentulpa/repo_1"
  headSha := some "0000000000000000000000000000000000000000"
  status := .ready
  lastError := none
  pullRequestUrl := none
  sourceCandidateId := none
  sourceCommit := none
  verifiedTreeOid := none
  verifiedPatchSha256 := none
  exportVerifiedAt := none
  createdAt := 0
  updatedAt := 0
  lastUsedAt := 0

def sampleAnswers (now : Int) : Answers :=
  ⟨"0000000000000000000000000000000000000000", "1111111111111111111111111111111111111111",
    "https://github.com/owner/project/pull/1", now⟩

def sampleClose (id : Nat) : List Event := [.begin id .close, .acquire id, .finish id (sampleAnswers 2)]

end OpenTulpa.Repositories.LostUpdates
