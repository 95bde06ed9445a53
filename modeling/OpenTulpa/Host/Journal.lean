import OpenTulpa.Library.Outcome
import OpenTulpa.Library.Rows
import OpenTulpa.Library.Run
import OpenTulpa.Library.Text
import Mathlib.Data.String.Basic
import Mathlib.Data.Prod.Lex

/-! The activation journal of the stable host: releases, the singleton source state
and the activation attempts. Every operation is one transaction: it returns the new
journal, or an error and then nothing of it is kept. Time stamps are passed in, the
way every operation reads the clock once. -/

namespace OpenTulpa.Host.Journal

open Library Text

inductive Kind where
  | activate
  | rollback
  deriving DecidableEq

inductive Status where
  | preparing
  | active
  | failed
  | rolledBack
  deriving DecidableEq

structure Release where
  id : String
  sourceCommit : String
  createdAt : Nat
  deriving DecidableEq

structure SourceState where
  activeReleaseId : String
  previousReleaseId : Option String
  lastGoodReleaseId : String
  updatedAt : Nat
  deriving DecidableEq

structure Activation where
  id : String
  tenantId : String
  idempotencyKey : String
  requestHash : String
  kind : Kind
  targetReleaseId : String
  previousReleaseId : String
  status : Status
  reason : String
  reviewInstructions : String
  inferencePlan : Option JsonObject
  audit : JsonObject
  result : Option JsonObject
  notified : Bool
  createdAt : Nat
  updatedAt : Nat
  deriving DecidableEq

structure ActivationJournal where
  releases : List Release
  state : Option SourceState
  activations : List Activation
  deriving DecidableEq

def ActivationJournal.empty : ActivationJournal := ⟨[], none, []⟩

inductive JournalError where
  | invalidCommit
  | releaseConflict
  | stateUnavailable
  | idempotencyReuse
  | changedBeforeActivation
  | alreadyRunning
  | disappeared
  | changedDuringActivation
  | changedDuringRecovery
  | recoverySourceChanged
  | activationChangedDuringRecovery
  | integrity
  deriving DecidableEq

def JournalError.message : JournalError → String
  | .invalidCommit => "source commit identity is invalid"
  | .releaseConflict => "source release identity conflicts with persisted history"
  | .stateUnavailable => "source activation state is unavailable"
  | .idempotencyReuse => "source activation idempotency key was used for another request"
  | .changedBeforeActivation => "active source changed before activation"
  | .alreadyRunning => "another source activation is already running"
  | .disappeared => "source activation disappeared"
  | .changedDuringActivation => "active source changed during activation"
  | .changedDuringRecovery => "active source changed during runtime recovery"
  | .recoverySourceChanged => "runtime recovery source changed before activation"
  | .activationChangedDuringRecovery => "source activation changed during runtime recovery"
  | .integrity => "FOREIGN KEY constraint failed"

def isCommit (text : String) : Bool :=
  (text.length == 40 || text.length == 64) && text.toList.all Text.isLowerHex

/-- `_commit` -/
def commit (value : String) : Except JournalError String :=
  let cleaned := Text.lower (Text.strip value)
  if isCommit cleaned then .ok cleaned else .error .invalidCommit

def releaseId (sourceCommit : String) : String :=
  "release_" ++ String.ofList (sourceCommit.toList.take 64)

def ActivationJournal.release (journal : ActivationJournal) (id : String) : Option Release :=
  journal.releases.find? fun row => row.id == id

def ActivationJournal.operation (journal : ActivationJournal) (activationId : String) : Option Activation :=
  journal.activations.find? fun row => row.id == activationId

def ActivationJournal.find (journal : ActivationJournal) (tenantId idempotencyKey : String) : Option Activation :=
  journal.activations.find? fun row =>
    row.tenantId == tenantId && row.idempotencyKey == idempotencyKey

def ActivationJournal.pending (journal : ActivationJournal) : List Activation :=
  journal.activations.filter fun row => row.status == .preparing

/-- The newest active attempt for a release: the subquery that both the choice of a
recovery source and its completion run. -/
def ActivationJournal.installing (journal : ActivationJournal) (release : String) : Option Activation :=
  (journal.activations.filter fun row =>
    row.targetReleaseId == release && row.status == .active).argmax fun row =>
      toLex (row.updatedAt, row.id)

def releaseForCommit (journal : ActivationJournal) (sourceCommit : String) (now : Nat) :
    Except JournalError (ActivationJournal × Release) :=
  match commit sourceCommit with
  | .error error => .error error
  | .ok cleaned =>
    let id := releaseId cleaned
    let taken := journal.releases.any fun row => row.id == id || row.sourceCommit == cleaned
    let stored : ActivationJournal :=
      if taken then journal
      else { journal with releases := journal.releases ++ [⟨id, cleaned, now⟩] }
    match stored.release id with
    | none => .error .releaseConflict
    | some row =>
      if row.sourceCommit = cleaned then .ok (stored, row) else .error .releaseConflict

def initializeSource (journal : ActivationJournal) (sourceCommit : String) (now : Nat) :
    Except JournalError (ActivationJournal × SourceState) :=
  match releaseForCommit journal sourceCommit now with
  | .error error => .error error
  | .ok (stored, release) =>
    match stored.state with
    | some state => .ok (stored, state)
    | none =>
      let state : SourceState := ⟨release.id, none, release.id, now⟩
      .ok ({ stored with state := some state }, state)

structure BeginRequest where
  tenantId : String
  idempotencyKey : String
  requestHash : String
  kind : Kind
  targetReleaseId : String
  previousReleaseId : String
  reason : String
  audit : JsonObject
  reviewInstructions : String := ""
  inferencePlan : Option JsonObject := none
  deriving DecidableEq

def BeginRequest.row (request : BeginRequest) (id : String) (now : Nat) : Activation where
  id := id
  tenantId := request.tenantId
  idempotencyKey := request.idempotencyKey
  requestHash := request.requestHash
  kind := request.kind
  targetReleaseId := request.targetReleaseId
  previousReleaseId := request.previousReleaseId
  status := .preparing
  reason := request.reason
  reviewInstructions := request.reviewInstructions
  inferencePlan := request.inferencePlan
  audit := request.audit
  result := none
  notified := false
  createdAt := now
  updatedAt := now

/-- The constraints an insertion into `source_activations` has to meet: the primary
key, the one attempt in progress, and both references to a release. -/
def ActivationJournal.admits (journal : ActivationJournal) (row : Activation) : Bool :=
  !(journal.activations.any fun other => other.id == row.id) &&
  !(journal.activations.any fun other => other.status == .preparing) &&
  (journal.release row.targetReleaseId).isSome &&
  (journal.release row.previousReleaseId).isSome

section Begin

variable (activationId : String → String → String)

/-- `activationId` is the digest that names an attempt after its tenant and key. -/
def begin (journal : ActivationJournal) (request : BeginRequest) (now : Nat) :
    Except JournalError (ActivationJournal × Activation × Bool) :=
  match journal.find request.tenantId request.idempotencyKey with
  | some existing =>
    if existing.requestHash ≠ request.requestHash then .error .idempotencyReuse
    else .ok (journal, existing, true)
  | none =>
    match journal.state with
    | none => .error .changedBeforeActivation
    | some state =>
      if state.activeReleaseId ≠ request.previousReleaseId then .error .changedBeforeActivation
      else
        let row := request.row (activationId request.tenantId request.idempotencyKey) now
        if journal.admits row then
          .ok ({ journal with activations := journal.activations ++ [row] }, row, false)
        else .error .alreadyRunning

end Begin

def succeeded (result : JsonObject) (now : Nat) (row : Activation) : Activation :=
  { row with status := .active, result := some result, updatedAt := now }

def ActivationJournal.install (journal : ActivationJournal) (operation : Activation) (result : JsonObject) (now : Nat) :
    ActivationJournal :=
  { journal with
    state := some ⟨operation.targetReleaseId, some operation.previousReleaseId,
      operation.targetReleaseId, now⟩
    activations := Rows.update (fun row => row.id == operation.id && row.status == .preparing)
      (succeeded result now) journal.activations }

def completeSuccess (journal : ActivationJournal) (activationId : String) (result : JsonObject) (now : Nat) :
    Except JournalError (ActivationJournal × Activation) :=
  match journal.operation activationId with
  | none => .error .disappeared
  | some operation =>
    if operation.status ≠ .preparing then .ok (journal, operation)
    else
      match journal.state with
      | none => .error .changedDuringActivation
      | some state =>
        if state.activeReleaseId ≠ operation.previousReleaseId then
          .error .changedDuringActivation
        else if (journal.release operation.targetReleaseId).isSome then
          .ok (journal.install operation result now, succeeded result now operation)
        else .error .integrity

def closed (status : Status) (result : JsonObject) (now : Nat) (row : Activation) : Activation :=
  { row with status := status, result := some result, updatedAt := now }

def ActivationJournal.close (journal : ActivationJournal) (activationId : String) (status : Status)
    (result : JsonObject) (now : Nat) : ActivationJournal :=
  { journal with
    activations := Rows.update (fun row => row.id == activationId && row.status == .preparing)
      (closed status result now) journal.activations }

def completeFailure (journal : ActivationJournal) (activationId : String) (rolledBack : Bool)
    (result : JsonObject) (now : Nat) : Except JournalError (ActivationJournal × Activation) :=
  let stored := journal.close activationId (if rolledBack then .rolledBack else .failed) result now
  match stored.operation activationId with
  | none => .error .disappeared
  | some operation => .ok (stored, operation)

def recoveryCandidate (journal : ActivationJournal) (failedSourceCommit : String) (allowPending : Bool) :
    Except JournalError (Option Release) :=
  match commit failedSourceCommit with
  | .error error => .error error
  | .ok failedCommit =>
    match journal.state with
    | none => .ok none
    | some state =>
      match journal.release state.activeReleaseId with
      | none => .ok none
      | some active =>
        match state.previousReleaseId with
        | none => .ok none
        | some previous =>
          if active.sourceCommit ≠ failedCommit then .ok none
          else if !allowPending && !journal.pending.isEmpty then .ok none
          else if (journal.installing state.activeReleaseId).any (fun row => row.kind == .rollback) then
            .ok none
          else
            match journal.release previous with
            | none => .ok none
            | some candidate =>
              if candidate.sourceCommit = failedCommit then .ok none else .ok (some candidate)

def recoveryResult (failedReleaseId selectedReleaseId : String) : JsonObject :=
  [("active_release_id", selectedReleaseId), ("failed_release_id", failedReleaseId),
    ("reason", "runtime source failed operational checks"), ("status", "rolled_back")]

/-- The rows after a completed recovery. The attempt that installed the failed release is
marked first; attempts still in progress on top of it are then invalidated if asked for. -/
def ActivationJournal.recovered (journal : ActivationJournal) (failedReleaseId selectedReleaseId : String)
    (invalidatePending : Bool) (now : Nat) : ActivationJournal :=
  let result := recoveryResult failedReleaseId selectedReleaseId
  let installed := (journal.installing failedReleaseId).map Activation.id
  let marked := Rows.update (fun row => some row.id == installed)
    (closed .rolledBack result now) journal.activations
  { journal with
    state := some ⟨selectedReleaseId, none, selectedReleaseId, now⟩
    activations :=
      if invalidatePending then
        Rows.update (fun row => row.status == .preparing && row.previousReleaseId == failedReleaseId)
          (closed .failed result now) marked
      else marked }

def completeRecovery (journal : ActivationJournal) (failedReleaseId selectedReleaseId : String)
    (invalidatePending : Bool) (now : Nat) : Except JournalError ActivationJournal :=
  match journal.state with
  | none => .error .changedDuringRecovery
  | some state =>
    if state.activeReleaseId ≠ failedReleaseId then .error .changedDuringRecovery
    else if state.previousReleaseId.getD "" ≠ selectedReleaseId then .error .recoverySourceChanged
    else if !journal.pending.isEmpty && !invalidatePending then
      .error .activationChangedDuringRecovery
    else if (journal.release selectedReleaseId).isSome then
      .ok (journal.recovered failedReleaseId selectedReleaseId invalidatePending now)
    else .error .integrity

def notified (now : Nat) (row : Activation) : Activation :=
  { row with notified := true, updatedAt := now }

def markNotified (journal : ActivationJournal) (activationId : String) (now : Nat) : ActivationJournal :=
  { journal with
    activations := Rows.update (fun row => row.id == activationId) (notified now) journal.activations }

end OpenTulpa.Host.Journal
