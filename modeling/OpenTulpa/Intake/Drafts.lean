import OpenTulpa.Intake.Workflows
import OpenTulpa.Library.Dict

/-! Revisioned workflow drafts. A draft is edited under its revision, prepared as a proposal that is
bound to a confirmation token, and activated by one transaction that writes the workflow and consumes
the token. -/

namespace OpenTulpa.Intake.Drafts

open Library Text Outcome Workflows

inductive DraftStatus where
  | editing
  | prepared
  | activating
  | activated
  deriving DecidableEq

/-- A workflow proposal. `fields` are the parts that only its normalization reads. -/
structure Proposal where
  workflowId : String
  channel : String
  fields : JsonObject
  deriving DecidableEq

/-- A tenant and the identifier of a draft. -/
abbrev DraftKey := String × String

structure Draft where
  key : DraftKey
  workflowId : String
  revision : Nat
  status : DraftStatus
  payload : JsonObject
  proposal : Option Proposal
  proposalHash : Option String
  preparedRevision : Option Nat
  confirmationTokenHash : Option String
  activationAttemptId : Option String
  createdByActorId : String
  updatedByActorId : String
  createdAt : Int
  updatedAt : Int
  preparedAt : Option Int
  activatedAt : Option Int
  deriving DecidableEq

abbrev DraftTable := List Draft

inductive DraftError where
  | conflict (message : String)
  | notFound (draftId : String)
  | confirmation (message : String)
  | validation (message : String)
  | activation
  | token
  deriving DecidableEq

def get (table : DraftTable) (key : DraftKey) : Option Draft := table.find? fun draft => draft.key == key

def change (table : DraftTable) (key : DraftKey) (change : Draft → Draft) : DraftTable :=
  Rows.update (fun draft => draft.key == key) change table

def expectedFound (expected found : Nat) : DraftError :=
  .conflict ("expected revision " ++ toString expected ++ ", found " ++ toString found)

/-- `IntakeDraftStore.save` -/
def save (table : DraftTable) (key : DraftKey) (actorId workflowId : String) (patch : JsonObject)
    (expectedRevision : Option Nat) (now : Int) : Except DraftError DraftTable :=
  match get table key with
  | none =>
    match expectedRevision with
    | some expected =>
      .error (.conflict ("draft '" ++ key.2 ++ "' does not exist at revision " ++ toString expected))
    | none =>
      .ok (table ++ [⟨key, workflowId, 1, .editing, patch, none, none, none, none, none, actorId, actorId, now, now, none,
        none⟩])
  | some draft =>
    if draft.status = .activating then .error (.conflict "draft activation is in progress")
    else
      match expectedRevision with
      | none => .error (.conflict "expected_revision is required when patching a draft")
      | some expected =>
        if draft.revision ≠ expected then .error (expectedFound expected draft.revision)
        else if draft.workflowId ≠ workflowId then .error (.conflict "draft workflow_id is immutable")
        else
          .ok (change table key fun draft => { draft with
            revision := draft.revision + 1
            status := .editing
            payload := Dict.update draft.payload patch
            proposal := none
            proposalHash := none
            preparedRevision := none
            confirmationTokenHash := none
            activationAttemptId := none
            updatedByActorId := actorId
            updatedAt := now
            preparedAt := none
            activatedAt := none })

/-- `IntakeDraftStore.prepare` -/
def prepare (table : DraftTable) (key : DraftKey) (actorId : String) (expectedRevision : Nat) (proposal : Proposal)
    (proposalHash confirmationTokenHash : String) (now : Int) : Except DraftError DraftTable :=
  match get table key with
  | none => .error (.notFound key.2)
  | some draft =>
    if draft.revision ≠ expectedRevision then .error (expectedFound expectedRevision draft.revision)
    else if draft.status = .activating then .error (.conflict "draft activation is in progress")
    else
      .ok (change table key fun draft => { draft with
        status := .prepared
        proposal := some proposal
        proposalHash := some proposalHash
        preparedRevision := some expectedRevision
        confirmationTokenHash := some confirmationTokenHash
        activationAttemptId := none
        updatedByActorId := actorId
        updatedAt := now
        preparedAt := some now
        activatedAt := none })

/-- `IntakeDraftStore.delete` -/
def delete (table : DraftTable) (key : DraftKey) (expectedRevision : Nat) : Except DraftError DraftTable :=
  match get table key with
  | none => .error (.notFound key.2)
  | some draft =>
    if draft.status = .activating then .error (.conflict "draft activation is in progress")
    else if draft.revision ≠ expectedRevision then .error (expectedFound expectedRevision draft.revision)
    else .ok (table.filter fun draft => draft.key != key)

/-- `claim_activation_in_transaction`, with the claimed draft. -/
def claimActivation (table : DraftTable) (key : DraftKey) (actorId : String) (expectedRevision : Nat)
    (confirmationTokenHash attemptId : String) (now : Int) : Except DraftError (DraftTable × Draft) :=
  match get table key with
  | none => .error (.notFound key.2)
  | some draft =>
    if draft.revision ≠ expectedRevision then .error (expectedFound expectedRevision draft.revision)
    else if draft.status ≠ .prepared then .error (.confirmation "draft is not prepared for activation")
    else if draft.preparedRevision.getD 0 ≠ expectedRevision then
      .error (.confirmation "prepared proposal does not match the draft revision")
    else
      let stored := draft.confirmationTokenHash.getD ""
      if stored.isEmpty || stored != confirmationTokenHash then .error (.confirmation "confirmation token is invalid")
      else
        let claimed := fun draft : Draft => { draft with
          status := .activating, activationAttemptId := some attemptId, updatedByActorId := actorId, updatedAt := now }
        .ok (change table key claimed, claimed draft)

/-- `finish_activation_in_transaction` -/
def finishActivation (table : DraftTable) (key : DraftKey) (actorId : String) (expectedRevision : Nat)
    (attemptId : String) (now : Int) : Except DraftError DraftTable :=
  let claimed := fun draft : Draft => draft.key == key && draft.revision == expectedRevision &&
    draft.status == .activating && draft.activationAttemptId == some attemptId
  if table.countP claimed ≠ 1 then .error (.conflict "draft activation claim was lost")
  else
    .ok (Rows.update claimed (fun draft => { draft with
      status := .activated
      confirmationTokenHash := none
      activationAttemptId := none
      updatedByActorId := actorId
      updatedAt := now
      activatedAt := some now }) table)

/-- What the service around the stores computes: the normalizers, the canonical text of a proposal and
the digest of a text. -/
structure Service where
  normalizeProposal : String → JsonObject → Option Proposal
  normalizeWorkflow : String → Option WorkflowRow → Proposal → Option Workflow
  canonical : Proposal → String
  digest : String → String

def Service.proposalHash (service : Service) (proposal : Proposal) : String := service.digest (service.canonical proposal)

/-- The text that `_token_hash` digests. -/
def boundText (key : DraftKey) (revision : Nat) (proposalHash token : String) : String :=
  "intake-draft-confirmation-v1" ++ "\x00" ++ key.1 ++ "\x00" ++ key.2 ++ "\x00" ++ toString revision ++ "\x00" ++
    proposalHash ++ "\x00" ++ token

/-- `_token_hash` -/
def Service.tokenHash (service : Service) (key : DraftKey) (revision : Nat) (proposalHash token : String) : String :=
  service.digest (boundText key revision proposalHash token)

/-- `_identifier` -/
def identifier (value field : String) (maximum : Nat) : Except DraftError String :=
  let text := strip value
  if text.isEmpty then .error (.validation (field ++ " is required"))
  else if maximum < text.length then
    .error (.validation (field ++ " must be at most " ++ toString maximum ++ " characters"))
  else .ok text

structure Scope where
  tenantId : String
  actorId : String
  draftId : String
  deriving DecidableEq

/-- The key and the actor of a request. -/
def Scope.resolve (scope : Scope) : Except DraftError (DraftKey × String) := do
  let tenant ← identifier scope.tenantId "tenant_id" 200
  let actor ← identifier scope.actorId "actor_id" 200
  let draft ← identifier scope.draftId "draft_id" 100
  return ((tenant, draft), actor)

/-- The part of `prepare` before its transaction: the proposal that the draft normalizes to. -/
def Service.propose (service : Service) (table : DraftTable) (key : DraftKey) (expectedRevision : Nat) :
    Except DraftError Proposal :=
  match get table key with
  | none => .error (.notFound key.2)
  | some draft =>
    if draft.revision ≠ expectedRevision then .error (expectedFound expectedRevision draft.revision)
    else
      match service.normalizeProposal draft.workflowId draft.payload with
      | none => .error (.validation "workflow draft is invalid")
      | some proposal =>
        if proposal.workflowId ≠ draft.workflowId then .error (.validation "normalizer changed the draft workflow_id")
        else .ok proposal

/-- The part of `activate` before the activator: the prepared proposal of the draft. -/
def Service.preparedProposal (service : Service) (table : DraftTable) (key : DraftKey) : Except DraftError Proposal :=
  match get table key with
  | none => .error (.notFound key.2)
  | some draft =>
    match draft.proposal with
    | none => .error (.confirmation "draft has no prepared proposal")
    | some proposal =>
      let stored := draft.proposalHash.getD ""
      if stored.isEmpty then .error (.confirmation "draft has no prepared proposal")
      else if service.proposalHash proposal ≠ stored then .error (.confirmation "prepared proposal hash is invalid")
      else .ok proposal

/-- The part of `activate_draft` before its transaction: the workflow that is replaced and its successor. -/
def Service.replacement (service : Service) (workflows : WorkflowTable) (tenantId : String) (proposal : Proposal) :
    Except DraftError (Option WorkflowRow × Workflow) :=
  let existing := getWorkflow workflows tenantId proposal.workflowId
  if proposal.channel = businessChannel ∧ competing workflows tenantId proposal.workflowId then .error .activation
  else
    match service.normalizeWorkflow tenantId existing proposal with
    | none => .error .activation
    | some workflow => .ok (existing, workflow)

/-- The transaction of `activate_draft` over both databases. -/
def activateDraft (table : DraftTable) (workflows : WorkflowTable) (key : DraftKey) (actorId : String)
    (expectedRevision : Nat) (confirmationTokenHash : String) (proposal : Proposal) (existing : Option WorkflowRow)
    (workflow : Workflow) (attemptId : String) (now : Int) : Except DraftError (DraftTable × WorkflowTable × Nat) := do
  let (claimedTable, claimed) ← claimActivation table key actorId expectedRevision confirmationTokenHash attemptId now
  if claimed.workflowId ≠ proposal.workflowId ∨ claimed.proposal ≠ some proposal then
    .error (.confirmation "prepared proposal changed before activation")
  else
    let createdAt := (existing.map WorkflowRow.createdAt).getD now
    let revision := (existing.map WorkflowRow.revision).getD 0
    match upsertWorkflowRecord workflows workflow createdAt now (some revision) with
    | .error _ => .error .activation
    | .ok (written, next) => do
      let finished ← finishActivation claimedTable key actorId expectedRevision attemptId now
      return (finished, written, next)

end OpenTulpa.Intake.Drafts
