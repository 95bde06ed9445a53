import Mathlib.Data.List.Sort
import OpenTulpa.Intake.Workflows
import OpenTulpa.Library.Run

/-! The queue of pending intake runs: one row a workflow and conversation, with a generation that
counts the events queued into it. Workers claim due rows and finish them under the generation they
claimed. Each operation is one transaction. -/

namespace OpenTulpa.Intake.PendingRuns

open Library Text Outcome Workflows

inductive PendingStatus where
  | pending
  | running
  deriving DecidableEq

/-- A workflow and a conversation. -/
abbrev PendingKey := String × String

structure PendingRun where
  key : PendingKey
  customerId : String
  eventType : String
  ownerChatId : String
  generation : Nat
  runningGeneration : Nat
  status : PendingStatus
  dueAt : Int
  lastInboundMessageId : String
  createdAt : Int
  updatedAt : Int
  deriving DecidableEq

structure IntakeStore where
  workflows : WorkflowTable
  pendingRuns : List PendingRun
  deriving DecidableEq

def IntakeStore.empty : IntakeStore := ⟨[], []⟩

def IntakeStore.pendingRun (store : IntakeStore) (key : PendingKey) : Option PendingRun :=
  store.pendingRuns.find? fun row => row.key == key

def IntakeStore.change (store : IntakeStore) (key : PendingKey) (change : PendingRun → PendingRun) : IntakeStore :=
  { store with pendingRuns := Rows.update (fun row => row.key == key) change store.pendingRuns }

def IntakeStore.remove (store : IntakeStore) (key : PendingKey) : IntakeStore :=
  { store with pendingRuns := store.pendingRuns.filter fun row => row.key != key }

structure QueueCall where
  workflowId : String
  customerId : String
  conversationId : String
  eventType : String
  dueAt : Int
  ownerChatId : String
  lastInboundMessageId : String
  deriving DecidableEq

def QueueCall.key (call : QueueCall) : PendingKey := (strip call.workflowId, strip call.conversationId)

def QueueCall.accepted (call : QueueCall) : Bool :=
  !(strip call.workflowId).isEmpty && !(strip call.customerId).isEmpty && !(strip call.conversationId).isEmpty

/-- `queue_pending_run`, with the generation that the row has afterwards. -/
def queuePendingRun (store : IntakeStore) (call : QueueCall) (now : Int) : Option (IntakeStore × Nat) :=
  if !call.accepted then none
  else
    let customerId := strip call.customerId
    let chat := strip call.ownerChatId
    match store.pendingRun call.key with
    | none =>
      let row : PendingRun := ⟨call.key, customerId, strip call.eventType, chat, 1, 0, .pending, call.dueAt,
        strip call.lastInboundMessageId, now, now⟩
      some ({ store with pendingRuns := store.pendingRuns ++ [row] }, 1)
    | some current =>
      let generation := current.generation + 1
      let queued := fun row : PendingRun => { row with
        customerId := customerId
        eventType := strip call.eventType
        ownerChatId := if chat.isEmpty then strip current.ownerChatId else chat
        generation := generation
        status := if current.status = .running then .running else .pending
        dueAt := call.dueAt
        lastInboundMessageId := strip call.lastInboundMessageId
        updatedAt := now }
      some (store.change call.key queued, generation)

def due (now : Int) (row : PendingRun) : Bool := row.status == .pending && row.dueAt ≤ now

def earlier (first second : PendingRun) : Prop :=
  first.dueAt < second.dueAt ∨ first.dueAt = second.dueAt ∧ first.updatedAt ≤ second.updatedAt

instance : DecidableRel earlier := fun first second =>
  inferInstanceAs (Decidable (first.dueAt < second.dueAt ∨ first.dueAt = second.dueAt ∧ first.updatedAt ≤ second.updatedAt))

def safeLimit (limit : Int) : Nat := (max 1 (min (if limit = 0 then 10 else limit) 50)).toNat

/-- The rows that a claim takes: the due ones that come first. -/
def dueRows (store : IntakeStore) (limit now : Int) : List PendingRun :=
  (((store.pendingRuns.filter (due now)).insertionSort earlier).take (safeLimit limit))

def claimRow (store : IntakeStore) (row : PendingRun) (now : Int) : IntakeStore :=
  { store with
    pendingRuns := Rows.update
      (fun other => other.key == row.key && other.generation == row.generation && other.status == .pending)
      (fun other => { other with status := .running, runningGeneration := row.generation, updatedAt := now })
      store.pendingRuns }

/-- `claim_due_pending_runs` -/
def claimDuePendingRuns (store : IntakeStore) (limit now : Int) : IntakeStore × List PendingRun :=
  let rows := dueRows store limit now
  (rows.foldl (fun store row => claimRow store row now) store, rows)

inductive Finish where
  | missing
  | requeued
  | removed
  deriving DecidableEq

/-- `finish_pending_run`. A row that was queued again since the claim is put back. -/
def finishPendingRun (store : IntakeStore) (key : PendingKey) (generation : Nat) (staleRequeue now : Int) :
    IntakeStore × Finish :=
  match store.pendingRun key with
  | none => (store, .missing)
  | some row =>
    if generation < row.generation then
      let dueAt := if now < row.dueAt then row.dueAt else now + max 0 staleRequeue
      (store.change key fun row =>
        { row with status := .pending, runningGeneration := 0, dueAt := dueAt, updatedAt := now }, .requeued)
    else (store.remove key, .removed)

/-- `recover_interrupted_pending_runs` -/
def recoverInterruptedPendingRuns (store : IntakeStore) (now : Int) : IntakeStore :=
  { store with
    pendingRuns := Rows.update (fun row => row.status == .running)
      (fun row => { row with status := .pending, runningGeneration := 0, dueAt := now, updatedAt := now })
      store.pendingRuns }

/-- `delete_workflow_records`, on the tables of this store. -/
def deleteWorkflowRecords (store : IntakeStore) (customerId workflowId : String) (expectedRevision : Option Nat) :
    Except WorkflowError (IntakeStore × Bool) :=
  let customer := strip customerId
  let workflow := strip workflowId
  if customer.isEmpty || workflow.isEmpty then .ok (store, false)
  else
    match getWorkflow store.workflows customer workflow with
    | none => .ok (store, false)
    | some row =>
      if expectedRevision.any fun expected => expected != row.revision then
        .error (.changed (expectedRevision.getD 0) row.revision)
      else
        let kept := store.workflows.filter fun row =>
          !(row.workflow.workflowId == workflow && row.workflow.customerId == customer)
        .ok (⟨kept, store.pendingRuns.filter fun row => row.key.1 != workflow⟩, true)

end OpenTulpa.Intake.PendingRuns
