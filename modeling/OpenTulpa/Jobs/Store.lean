import OpenTulpa.Library.Outcome
import OpenTulpa.Library.Rows
import OpenTulpa.Library.Run
import OpenTulpa.Library.Text
import Mathlib.Data.String.Basic
import Mathlib.Data.Prod.Lex

/-! The job store: job rows, the numbered event log of each job and its artifacts. Every
operation is one immediate transaction, so operations of several workers happen one after
another. An operation that raises keeps nothing of what it wrote. -/

namespace OpenTulpa.Jobs.Store

open Library Text

inductive JobStatus where
  | queued
  | running
  | cancelRequested
  | succeeded
  | failed
  | cancelled
  deriving DecidableEq

/-- `_TERMINAL_STATUSES` -/
def JobStatus.terminal : JobStatus → Bool
  | .succeeded | .failed | .cancelled => true
  | .queued | .running | .cancelRequested => false

inductive JobEventType where
  | queued
  | recovered
  | running
  | progress
  | cancelRequested
  | cancelled
  | artifactReady
  | completed
  | failed
  deriving DecidableEq

structure JobError where
  code : String
  message : String
  retryable : Bool := false
  deriving DecidableEq

structure JobArtifactWrite where
  name : String
  mediaType : String
  uri : String
  sizeBytes : Option Nat := none
  sha256 : Option String := none
  metadata : JsonObject := []
  deriving DecidableEq

structure JobHandlerResult where
  summary : String := "Completed"
  data : JsonObject := []
  artifacts : List JobArtifactWrite := []
  deriving DecidableEq

/-- A tenant and the id of one of its jobs. -/
abbrev JobKey := String × String

structure Job where
  tenantId : String
  id : String
  handlerName : String
  handlerVersion : Nat
  status : JobStatus
  arguments : JsonObject
  result : Option JobHandlerResult
  error : Option JobError
  idempotencyKey : String
  requestHash : String
  attemptCount : Nat
  createdAt : Nat
  updatedAt : Nat
  startedAt : Option Nat
  finishedAt : Option Nat
  deriving DecidableEq

def Job.key (job : Job) : JobKey := (job.tenantId, job.id)

structure JobEvent where
  tenantId : String
  jobId : String
  sequence : Nat
  eventType : JobEventType
  payload : JsonObject
  createdAt : Nat
  deriving DecidableEq

def JobEvent.key (event : JobEvent) : JobKey := (event.tenantId, event.jobId)

structure JobArtifact where
  tenantId : String
  jobId : String
  id : String
  write : JobArtifactWrite
  createdAt : Nat
  deriving DecidableEq

def JobArtifact.key (artifact : JobArtifact) : JobKey := (artifact.tenantId, artifact.jobId)

structure JobStore where
  jobs : List Job
  events : List JobEvent
  artifacts : List JobArtifact
  deriving DecidableEq

def JobStore.empty : JobStore := ⟨[], [], []⟩

inductive StoreError where
  | jobNotFound (jobId : String)
  | idempotencyConflict
  | integrity
  deriving DecidableEq

def StoreError.message : StoreError → String
  | .jobNotFound jobId => jobId
  | .idempotencyConflict => "idempotency key is already bound to a different job request"
  | .integrity => "UNIQUE constraint failed"

def JobStore.job (store : JobStore) (key : JobKey) : Option Job :=
  store.jobs.find? fun row => row.key == key

def JobStore.get (store : JobStore) (key : JobKey) : Except StoreError Job :=
  match store.job key with
  | none => .error (.jobNotFound key.2)
  | some job => .ok job

def JobStore.eventsOf (store : JobStore) (key : JobKey) : List JobEvent :=
  store.events.filter fun event => event.key == key

def JobStore.artifactsOf (store : JobStore) (key : JobKey) : List JobArtifact :=
  store.artifacts.filter fun artifact => artifact.key == key

/-- `COALESCE(MAX(sequence), 0) + 1` -/
def nextSequence (events : List JobEvent) : Nat :=
  (events.map JobEvent.sequence).foldr max 0 + 1

/-- A job's log with one more event. -/
def logged (key : JobKey) (events : List JobEvent) (eventType : JobEventType) (payload : JsonObject)
    (now : Nat) : List JobEvent :=
  events ++ [⟨key.1, key.2, nextSequence events, eventType, payload, now⟩]

/-- `_append_event` -/
def JobStore.appendEvent (store : JobStore) (key : JobKey) (eventType : JobEventType)
    (payload : JsonObject) (now : Nat) : JobStore :=
  { store with
    events := store.events ++
      [⟨key.1, key.2, nextSequence (store.eventsOf key), eventType, payload, now⟩] }

/-- `UPDATE jobs SET change WHERE tenant_id = ? AND id = ? AND allowed(status)` -/
def JobStore.setJob (store : JobStore) (key : JobKey) (allowed : JobStatus → Bool) (change : Job → Job) :
    JobStore :=
  { store with
    jobs := Rows.update (fun row => row.key == key && allowed row.status) change store.jobs }

structure CreateRequest where
  tenantId : String
  jobId : String
  handlerName : String
  handlerVersion : Nat
  arguments : JsonObject
  idempotencyKey : String
  requestHash : String
  deriving DecidableEq

def CreateRequest.job (request : CreateRequest) (now : Nat) : Job where
  tenantId := request.tenantId
  id := request.jobId
  handlerName := request.handlerName
  handlerVersion := request.handlerVersion
  status := .queued
  arguments := request.arguments
  result := none
  error := none
  idempotencyKey := request.idempotencyKey
  requestHash := request.requestHash
  attemptCount := 0
  createdAt := now
  updatedAt := now
  startedAt := none
  finishedAt := none

def CreateRequest.payload (request : CreateRequest) : JsonObject :=
  [("handler", request.handlerName), ("version", toString request.handlerVersion)]

def create (store : JobStore) (request : CreateRequest) (now : Nat) :
    Except StoreError (JobStore × Job × Bool) :=
  match store.jobs.find? fun row =>
      row.tenantId == request.tenantId && row.idempotencyKey == request.idempotencyKey with
  | some existing =>
    if existing.requestHash ≠ request.requestHash then .error .idempotencyConflict
    else .ok (store, existing, false)
  | none =>
    let job := request.job now
    if store.jobs.any fun row => row.key == job.key then .error .integrity
    else
      let inserted : JobStore := { store with jobs := store.jobs ++ [job] }
      .ok (inserted.appendEvent job.key .queued request.payload now, job, true)

def cancelled (now : Nat) (job : Job) : Job :=
  { job with status := .cancelled, updatedAt := now, finishedAt := some now }

/-- `_cancel_in_connection` -/
def JobStore.cancelInConnection (store : JobStore) (key : JobKey) (reason : String) (now : Nat) : JobStore :=
  (store.setJob key (fun status => !status.terminal) (cancelled now)).appendEvent key .cancelled
    [("reason", reason)] now

def requeued (now : Nat) (job : Job) : Job :=
  { job with status := .queued, updatedAt := now, startedAt := none }

/-- The body of the loop in `recover`, for one of the rows selected at its start. -/
def recoverRow (now : Nat) (store : JobStore) (row : Job) : JobStore :=
  match row.status with
  | .cancelRequested =>
    (store.setJob row.key (· == .cancelRequested) (cancelled now)).appendEvent row.key .cancelled
      [("reason", "restart_after_cancel_request")] now
  | .running =>
    (store.setJob row.key (· == .running) fun job => { requeued now job with finishedAt := none }).appendEvent
      row.key .recovered [("reason", "service_restart")] now
  | _ => store

def JobStore.recoverable (store : JobStore) : List Job :=
  (store.jobs.filter fun row => !row.status.terminal).mergeSort fun first second =>
    toLex (first.createdAt, first.id) ≤ toLex (second.createdAt, second.id)

def recover (store : JobStore) (now : Nat) : JobStore × List Job :=
  let rows := store.recoverable
  let recovered := rows.foldl (recoverRow now) store
  (recovered, (rows.filter fun row => row.status != .cancelRequested).filterMap fun row =>
    recovered.job row.key)

def claimed (now : Nat) (job : Job) : Job :=
  { job with status := .running, attemptCount := job.attemptCount + 1, updatedAt := now,
             startedAt := some now, finishedAt := none, error := none }

def claim (store : JobStore) (key : JobKey) (now : Nat) : Except StoreError (JobStore × Option Job) := do
  let row ← store.get key
  if row.status ≠ .queued then return (store, none)
  let taken := store.setJob key (· == .queued) (claimed now)
  let job ← taken.get key
  return (taken.appendEvent key .running [("attempt", toString job.attemptCount)] now, some job)

def progress (store : JobStore) (key : JobKey) (payload : JsonObject) (now : Nat) :
    Except StoreError JobStore := do
  let row ← store.get key
  if row.status ≠ .running then return store
  return store.appendEvent key .progress payload now

def JobArtifactWrite.row (write : JobArtifactWrite) (key : JobKey) (id : String) (now : Nat) : JobArtifact :=
  ⟨key.1, key.2, id, write, now⟩

/-- The payload of the `artifact.ready` event. -/
def JobArtifact.announcement (artifact : JobArtifact) : JsonObject :=
  [("artifact_id", artifact.id), ("name", artifact.write.name)]

/-- The loop over the result's artifacts; `newShortId` gives the ids drawn in turn. -/
def writeArtifacts (key : JobKey) (newShortId : Nat → String) (now : Nat) :
    Nat → List JobArtifactWrite → JobStore → Except StoreError JobStore
  | _, [], store => .ok store
  | drawn, write :: writes, store =>
    let artifact := write.row key (newShortId drawn) now
    if store.artifacts.any fun other => other.key == key && other.id == artifact.id then
      .error .integrity
    else
      let inserted : JobStore := { store with artifacts := store.artifacts ++ [artifact] }
      writeArtifacts key newShortId now (drawn + 1) writes
        (inserted.appendEvent key .artifactReady artifact.announcement now)

def succeeded (result : JobHandlerResult) (now : Nat) (job : Job) : Job :=
  { job with status := .succeeded, result := some result, error := none, updatedAt := now,
             finishedAt := some now }

def JobHandlerResult.payload (result : JobHandlerResult) : JsonObject :=
  [("artifact_count", toString result.artifacts.length), ("summary", result.summary)]

def complete (store : JobStore) (key : JobKey) (result : JobHandlerResult) (newShortId : Nat → String)
    (now : Nat) : Except StoreError (JobStore × Job) := do
  let row ← store.get key
  if row.status = .cancelRequested then
    let stored := store.cancelInConnection key "cancelled_before_completion" now
    return (stored, ← stored.get key)
  if row.status ≠ .running then return (store, row)
  let written ← writeArtifacts key newShortId now 0 result.artifacts store
  let stored := (written.setJob key (· == .running) (succeeded result now)).appendEvent key .completed
    result.payload now
  return (stored, ← stored.get key)

def failed (error : JobError) (now : Nat) (job : Job) : Job :=
  { job with status := .failed, error := some error, result := none, updatedAt := now,
             finishedAt := some now }

def JobError.payload (error : JobError) : JsonObject :=
  [("code", error.code), ("message", error.message), ("retryable", toString error.retryable)]

def fail (store : JobStore) (key : JobKey) (error : JobError) (now : Nat) :
    Except StoreError (JobStore × Job) := do
  let row ← store.get key
  let stored :=
    if row.status = .cancelRequested then store.cancelInConnection key "cancelled_during_failure" now
    else if row.status = .running then
      (store.setJob key (· == .running) (failed error now)).appendEvent key .failed error.payload now
    else store
  return (stored, ← stored.get key)

def cancelRequested (now : Nat) (job : Job) : Job :=
  { job with status := .cancelRequested, updatedAt := now }

def requestCancel (store : JobStore) (key : JobKey) (now : Nat) : Except StoreError (JobStore × Job) := do
  let row ← store.get key
  if row.status.terminal ∨ row.status = .cancelRequested then return (store, row)
  let asked := store.appendEvent key .cancelRequested [] now
  let stored :=
    if row.status = .queued then asked.cancelInConnection key "cancelled_before_start" now
    else asked.setJob key (· == .running) (cancelRequested now)
  return (stored, ← stored.get key)

def markCancelled (store : JobStore) (key : JobKey) (reason : String) (now : Nat) :
    Except StoreError (JobStore × Job) := do
  let row ← store.get key
  let stored := if row.status.terminal then store else store.cancelInConnection key reason now
  return (stored, ← stored.get key)

def requeueInterrupted (store : JobStore) (key : JobKey) (now : Nat) :
    Except StoreError (JobStore × Job) := do
  let row ← store.get key
  let stored :=
    if row.status = .cancelRequested then store.cancelInConnection key "cancelled_during_shutdown" now
    else if row.status = .running then
      (store.setJob key (· == .running) (requeued now)).appendEvent key .recovered
        [("reason", "service_shutdown")] now
    else store
  return (stored, ← stored.get key)

end OpenTulpa.Jobs.Store
