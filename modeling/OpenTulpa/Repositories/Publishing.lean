import OpenTulpa.Library.Run
import OpenTulpa.Repositories.Workspaces

/-! Publishing a commit of a repository workspace, by a push with a token or through the proxy of the forge, while
commands in the workspace move its branches and change its configuration. -/

namespace OpenTulpa.Repositories.Publishing

open Library Workspaces

section Model

/-- What git answers in the checkout. A push goes to `pushUrl` where the remote has one, and to `originUrl` else. -/
structure Checkout where
  head : String
  currentBranch : String
  tip : String → Option String
  originUrl : String
  pushUrl : Option String
  dirty : Bool
  headTreeOid : String
  basedOn : String → Bool
  commitsAhead : Nat
  changedPaths : List String
  lineage : String → Option (String × List String)

def Checkout.pushTarget (checkout : Checkout) : String := checkout.pushUrl.getD checkout.originUrl

/-- A branch of a repository that was made to point to a commit. -/
structure Write where
  repositoryUrl : String
  branch : String
  commit : String
  deriving DecidableEq

/-- Where a call of `publish` waits, from its first look at HEAD. -/
inductive Point where
  | head
  | branch
  | origin
  | status
  | sourceTree
  | ancestor
  | push
  | openPullRequest
  | count
  | changedPaths
  | headTree (paths : List String)
  | blobs (paths : List String) (tree : String)
  | tree (tree : String)
  | commitPayload (tree : String)
  | commit
  | ref
  | createRef
  | proxyPullRequest
  | returned (pullRequestUrl : String)
  | raised
  deriving DecidableEq

structure State where
  checkout : Checkout
  remotes : String → String → Option String
  writes : List Write
  point : Point

/-- A command that changes the checkout, the answer of a git command from the checkout as it is, and the answers of
the remote. Anything awaited may fail. -/
inductive Event where
  | command (checkout : Checkout)
  | fail
  | read
  | push (applied failed : Bool)
  | pullRequest (url : Option String)
  | blob (preserved : Bool)
  | tree (preserved : Bool)
  | commit (sha : String)
  | ref (sha : Option String)
  | createRef (applied answered : Bool)

end Model

section Publish

variable (normalizeRepositoryUrl : String → Option String) (workspace : RepositoryWorkspace) (expected : String)
  (token proxy : Bool)

/-- The checks of `publish` and `_publish_via_github_proxy` on what git answers. -/
def inspect (checkout : Checkout) : Point → Point
  | .head => if checkout.head ≠ expected ∨ some checkout.head = workspace.baseSha then .raised else .branch
  | .branch => if checkout.currentBranch ≠ workspace.branch then .raised else .origin
  | .origin => if normalizeRepositoryUrl checkout.originUrl ≠ some workspace.repositoryUrl then .raised else .status
  | .status => if checkout.dirty then .raised else if workspace.sourceCandidateId.isSome then .sourceTree else .ancestor
  | .sourceTree => if sourceChecked workspace checkout.headTreeOid then .ancestor else .raised
  | .ancestor =>
    if !(workspace.baseSha.any checkout.basedOn) then .raised
    else if token then .push
    else if proxy then .count
    else .raised
  | .count => if checkout.commitsAhead ≠ 1 then .raised else .changedPaths
  | .changedPaths => if 200 < checkout.changedPaths.length then .raised else .headTree checkout.changedPaths
  | .headTree paths => .blobs paths checkout.headTreeOid
  | .commitPayload tree =>
    if checkout.lineage expected = some (tree, workspace.baseSha.toList) then .commit else .raised
  | point => point

def State.goto (s : State) (point : Point) : State := { s with point := point }

def State.write (s : State) (write : Write) : State :=
  { s with
    remotes := fun url branch =>
      if url = write.repositoryUrl ∧ branch = write.branch then some write.commit else s.remotes url branch
    writes := write :: s.writes }

/-- The push of the branch as it stands, to where the remote points. -/
def State.push (s : State) (applied failed : Bool) : State :=
  match s.checkout.tip workspace.branch with
  | none => s.goto .raised
  | some commit =>
    if applied then
      (s.write ⟨s.checkout.pushTarget, workspace.branch, commit⟩).goto (if failed then .raised else .openPullRequest)
    else s.goto .raised

/-- The creation of a branch that is not there. -/
def State.createRef (s : State) (applied answered : Bool) : State :=
  if applied then
    (s.write ⟨workspace.repositoryUrl, workspace.branch, expected⟩).goto
      (if answered then .proxyPullRequest else .raised)
  else s.goto .raised

def step (s : State) : Event → State
  | .command checkout => { s with checkout := checkout }
  | .fail =>
    match s.point with
    | .returned _ => s
    | _ => s.goto .raised
  | .read => s.goto (inspect normalizeRepositoryUrl workspace expected token proxy s.checkout s.point)
  | .push applied failed =>
    match s.point with
    | .push => s.push workspace applied failed
    | _ => s
  | .pullRequest url =>
    match s.point with
    | .openPullRequest | .proxyPullRequest => s.goto (url.elim .raised .returned)
    | _ => s
  | .blob preserved =>
    match s.point with
    | .blobs (_ :: paths) tree => s.goto (if preserved then .blobs paths tree else .raised)
    | .blobs [] tree => s.goto (.tree tree)
    | _ => s
  | .tree preserved =>
    match s.point with
    | .tree tree => s.goto (if preserved then .commitPayload tree else .raised)
    | _ => s
  | .commit sha =>
    match s.point with
    | .commit => s.goto (if sha = expected then .ref else .raised)
    | _ => s
  | .ref sha =>
    match s.point with
    | .ref =>
      if sha = s.remotes workspace.repositoryUrl workspace.branch then
        s.goto (if sha = none then .createRef else if sha = some expected then .proxyPullRequest else .raised)
      else s.goto .raised
    | _ => s
  | .createRef applied answered =>
    match s.point with
    | .createRef => s.createRef workspace expected applied answered
    | _ => s

def start (checkout : Checkout) (remotes : String → String → Option String) : State := ⟨checkout, remotes, [], .head⟩

end Publish

section Specification

variable (workspace : RepositoryWorkspace) (expected : String)

/-- Only the approved commit was written, to the recorded branch and repository, and it is there once the call has
returned. -/
def Published (s : State) : Prop :=
  (∀ write ∈ s.writes, write = ⟨workspace.repositoryUrl, workspace.branch, expected⟩) ∧
    ∀ url, s.point = .returned url → s.remotes workspace.repositoryUrl workspace.branch = some expected

/-- A push that reaches a remote finds the approved commit on the branch and the recorded repository behind the
remote. -/
def PushesApproved (s : State) : Event → Prop
  | .push true _ => s.point = .push → ∀ commit, s.checkout.tip workspace.branch = some commit →
      commit = expected ∧ s.checkout.pushTarget = workspace.repositoryUrl
  | _ => True

end Specification

section Steps

variable {normalizeRepositoryUrl : String → Option String} {workspace : RepositoryWorkspace} {expected : String}
  {token proxy : Bool} {s : State}

/-- The points that are reached with the approved commit in place. -/
def Point.written : Point → Bool
  | .openPullRequest | .proxyPullRequest | .returned _ => true
  | _ => false

def Inv (workspace : RepositoryWorkspace) (expected : String) (s : State) : Prop :=
  (∀ write ∈ s.writes, write = ⟨workspace.repositoryUrl, workspace.branch, expected⟩) ∧
    (s.point.written = true → s.remotes workspace.repositoryUrl workspace.branch = some expected)

theorem Inv.published (inv : Inv workspace expected s) : Published workspace expected s :=
  ⟨inv.1, fun url here => inv.2 (by rw [here]; rfl)⟩

theorem Inv.goto (inv : Inv workspace expected s) {point : Point} (kept : point.written = true → s.point.written = true) :
    Inv workspace expected (s.goto point) := ⟨inv.1, fun written => inv.2 (kept written)⟩

/-- Writing the approved commit to the recorded branch keeps the invariant at every point. -/
theorem Inv.write (inv : Inv workspace expected s) (point : Point) :
    Inv workspace expected ((s.write ⟨workspace.repositoryUrl, workspace.branch, expected⟩).goto point) := by
  refine ⟨?_, ?_⟩
  · intro write member
    rcases List.mem_cons.mp member with rfl | old
    · rfl
    · exact inv.1 write old
  · intro _
    simp [State.goto, State.write]

theorem inspect_written (checkout : Checkout) (point : Point)
    (written : (inspect normalizeRepositoryUrl workspace expected token proxy checkout point).written = true) :
    point.written = true := by
  unfold inspect at written
  split at written
  all_goals first
    | exact written
    | cases written
    | (repeat' split at written) <;> cases written

theorem push_inv (inv : Inv workspace expected s) {applied : Bool} (failed : Bool)
    (approved : applied = true → ∀ commit, s.checkout.tip workspace.branch = some commit →
      commit = expected ∧ s.checkout.pushTarget = workspace.repositoryUrl) :
    Inv workspace expected (s.push workspace applied failed) := by
  unfold State.push
  split
  · exact inv.goto (by rintro ⟨⟩)
  · rename_i commit tip
    split
    · rename_i reached
      obtain ⟨rfl, target⟩ := approved reached commit tip
      rw [target]
      exact inv.write _
    · exact inv.goto (by rintro ⟨⟩)

/-- A push that reaches a remote writes the branch as it stands, to where the remote points. -/
theorem push_writes (failed : Bool) {commit : String} (tip : s.checkout.tip workspace.branch = some commit) :
    ⟨s.checkout.pushTarget, workspace.branch, commit⟩ ∈ (s.push workspace true failed).writes := by
  simp [State.push, tip, State.goto, State.write]

theorem createRef_inv (inv : Inv workspace expected s) (applied answered : Bool) :
    Inv workspace expected (s.createRef workspace expected applied answered) := by
  unfold State.createRef
  split
  · exact inv.write _
  · exact inv.goto (by rintro ⟨⟩)

theorem step_inv (s : State) (event : Event) (inv : Inv workspace expected s)
    (approved : PushesApproved workspace expected s event) :
    Inv workspace expected (step normalizeRepositoryUrl workspace expected token proxy s event) := by
  cases event with
  | command checkout => exact inv
  | fail =>
    simp only [step]
    split
    · exact inv
    · exact inv.goto (by rintro ⟨⟩)
  | read => exact inv.goto (inspect_written s.checkout s.point)
  | push applied failed =>
    simp only [step]
    split
    · rename_i here
      apply push_inv inv failed
      rintro rfl
      exact approved here
    · exact inv
  | pullRequest url =>
    simp only [step]
    split
    · rename_i here
      exact inv.goto fun _ => by rw [here]; rfl
    · rename_i here
      exact inv.goto fun _ => by rw [here]; rfl
    · exact inv
  | blob preserved =>
    simp only [step]
    split
    · cases preserved <;> exact inv.goto (by rintro ⟨⟩)
    · exact inv.goto (by rintro ⟨⟩)
    · exact inv
  | tree preserved =>
    simp only [step]
    split
    · cases preserved <;> exact inv.goto (by rintro ⟨⟩)
    · exact inv
  | commit sha =>
    simp only [step]
    split
    · split
      · exact inv.goto (by rintro ⟨⟩)
      · exact inv.goto (by rintro ⟨⟩)
    · exact inv
  | ref sha =>
    simp only [step]
    split
    · split
      · rename_i known
        split
        · exact inv.goto (by rintro ⟨⟩)
        · split
          · rename_i there
            exact ⟨inv.1, fun _ => known.symm.trans there⟩
          · exact inv.goto (by rintro ⟨⟩)
      · exact inv.goto (by rintro ⟨⟩)
    · exact inv
  | createRef applied answered =>
    simp only [step]
    split
    · exact createRef_inv inv applied answered
    · exact inv

theorem step_approved (s : State) (event : Event)
    (published : Published workspace expected (step normalizeRepositoryUrl workspace expected token proxy s event)) :
    PushesApproved workspace expected s event := by
  unfold PushesApproved
  split
  · rename_i failed
    intro here commit tip
    have written := published.1 ⟨s.checkout.pushTarget, workspace.branch, commit⟩ (by
      simp only [step, here]
      exact push_writes failed tip)
    exact ⟨congrArg Write.commit written, congrArg Write.repositoryUrl written⟩
  · trivial

end Steps

def sampleWorkspace : RepositoryWorkspace where
  id := "repo_1"
  tenantId := "owner"
  repositoryUrl := "https://github.com/owner/project.git"
  provider := .local
  providerWorkspaceId := some "repo_1"
  baseRef := "main"
  baseSha := some "0000000000000000000000000000000000000000"
  branch := "opentulpa/repo_1"
  headSha := some "1111111111111111111111111111111111111111"
  status := .ready
  lastError := none
  pullRequestUrl := none
  sourceCandidateId := none
  sourceCommit := none
  verifiedTreeOid := none
  verifiedPatchSha256 := none
  exportVerifiedAt := none
  createdAt := 0
  updatedAt := 0
  lastUsedAt := 0

/-- The checkout with its branch at a commit. -/
def sampleCheckout (commit : String) : Checkout where
  head := commit
  currentBranch := "opentulpa/repo_1"
  tip := fun branch => if branch = "opentulpa/repo_1" then some commit else none
  originUrl := "https://github.com/owner/project.git"
  pushUrl := none
  dirty := false
  headTreeOid := "3333333333333333333333333333333333333333"
  basedOn := fun _ => true
  commitsAhead := 1
  changedPaths := ["README.md"]
  lineage := fun _ => none

end OpenTulpa.Repositories.Publishing
