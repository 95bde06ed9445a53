import OpenTulpa.Library.Outcome
import OpenTulpa.Library.Rows
import OpenTulpa.Library.Text

/-! The workflow table of the intake store: one row a workflow, written under a revision that the
caller may pin, and deleted by its owner. -/

namespace OpenTulpa.Intake.Workflows

open Library Text Outcome

/-- A workflow as it is written. `fields` are the columns that no rule of the store reads. -/
structure Workflow where
  workflowId : String
  customerId : String
  channel : String
  fields : JsonObject
  deriving DecidableEq

structure WorkflowRow where
  workflow : Workflow
  revision : Nat
  createdAt : Int
  updatedAt : Int
  deriving DecidableEq

inductive WorkflowError where
  | permission (message : String)
  | changed (expected found : Nat)
  | value (message : String)
  deriving DecidableEq

def businessChannel : String := "telegram_business_dm"

def onlyOneBusiness : String := "telegram_business_dm supports only one active workflow per customer"

abbrev WorkflowTable := List WorkflowRow

def row (table : WorkflowTable) (workflowId : String) : Option WorkflowRow :=
  table.find? fun row => row.workflow.workflowId == workflowId

/-- `get_workflow` -/
def getWorkflow (table : WorkflowTable) (customerId workflowId : String) : Option WorkflowRow :=
  table.find? fun row => row.workflow.workflowId == workflowId && row.workflow.customerId == customerId

/-- Another workflow of the customer that already has the business channel. -/
def competing (table : WorkflowTable) (customerId workflowId : String) : Bool :=
  table.any fun row => row.workflow.customerId == customerId && row.workflow.channel == businessChannel &&
    row.workflow.workflowId != workflowId

/-- `INSERT ... ON CONFLICT(workflow_id) DO UPDATE`, which keeps the time of creation. -/
def writeRow (table : WorkflowTable) (written : WorkflowRow) : WorkflowTable :=
  match row table written.workflow.workflowId with
  | none => table ++ [written]
  | some _ =>
    Rows.update (fun row => row.workflow.workflowId == written.workflow.workflowId)
      (fun row => { written with createdAt := row.createdAt }) table

/-- `upsert_workflow_record_in_transaction` -/
def upsertWorkflowRecord (table : WorkflowTable) (workflow : Workflow) (createdAt updatedAt : Int)
    (expectedRevision : Option Nat) : Except WorkflowError (WorkflowTable × Nat) :=
  let current := row table workflow.workflowId
  if current.any fun row => row.workflow.customerId != workflow.customerId then
    .error (.permission "intake workflow is owned by another tenant")
  else
    let currentRevision := (current.map WorkflowRow.revision).getD 0
    if expectedRevision.any fun expected => expected != currentRevision then
      .error (.changed (expectedRevision.getD 0) currentRevision)
    else if workflow.channel = businessChannel ∧ competing table workflow.customerId workflow.workflowId then
      .error (.value onlyOneBusiness)
    else .ok (writeRow table ⟨workflow, currentRevision + 1, createdAt, updatedAt⟩, currentRevision + 1)

end OpenTulpa.Intake.Workflows
