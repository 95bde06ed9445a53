import OpenTulpa.Library.Outcome
import OpenTulpa.Library.Rows
import OpenTulpa.Library.Run

/-! The executions of triggers and the outbox of their deliveries. A worker holds an execution
or a delivery by the token of its lease, and a lease that has expired can be taken by another.
Times and leases are counted in microseconds. -/

namespace OpenTulpa.Specs.Executions

open Library Outcome

structure ExecutionKey where
  tenantId : String
  triggerId : String
  triggerRevision : Nat
  fireKey : String
  deriving DecidableEq

inductive ExecutionStatus where
  | running
  | completed
  | interrupted
  | failed
  deriving DecidableEq

/-- The statuses that `finish` accepts. -/
inductive TerminalStatus where
  | completed
  | interrupted
  | failed
  deriving DecidableEq

def TerminalStatus.status : TerminalStatus → ExecutionStatus
  | .completed => .completed
  | .interrupted => .interrupted
  | .failed => .failed

structure TriggerExecution where
  key : ExecutionKey
  status : ExecutionStatus
  runId : Option String
  attemptCount : Nat
  leaseToken : Option Nat
  leaseExpiresAt : Option Nat
  updatedAt : Nat
  deriving DecidableEq

inductive DeliveryMode where
  | origin
  | owner
  deriving DecidableEq

inductive DeliveryStatus where
  | pending
  | delivering
  | delivered
  deriving DecidableEq

structure OutboxRow where
  id : Nat
  key : ExecutionKey
  mode : DeliveryMode
  snapshotJson : String
  status : DeliveryStatus
  attemptCount : Nat
  leaseToken : Option Nat
  leaseExpiresAt : Option Nat
  createdAt : Nat
  updatedAt : Nat
  deriving DecidableEq

/-- Both tables; the rows of the outbox stand in the order of their ids. -/
structure TriggerExecutionStore where
  executions : List TriggerExecution
  outbox : List OutboxRow
  nextId : Nat
  deriving DecidableEq

def TriggerExecutionStore.empty : TriggerExecutionStore := ⟨[], [], 1⟩

def TriggerExecutionStore.execution (store : TriggerExecutionStore) (key : ExecutionKey) : Option TriggerExecution :=
  store.executions.find? fun row => row.key == key

def TriggerExecutionStore.outboxRow (store : TriggerExecutionStore) (id : Nat) : Option OutboxRow :=
  store.outbox.find? fun row => row.id == id

inductive StoreError where
  | executionLease
  | deliveryLease
  | claimLimit
  | duplicateDelivery
  | snapshot (message : String)
  deriving DecidableEq

def StoreError.message : StoreError → String
  | .executionLease => "trigger execution lease must be positive"
  | .deliveryLease => "trigger delivery lease must be positive"
  | .claimLimit => "trigger delivery claim limit must be positive"
  | .duplicateDelivery => "UNIQUE constraint failed"
  | .snapshot message => message

/-- `lease_expires_at IS NULL OR lease_expires_at <= ?` -/
def expired (leaseExpiresAt : Option Nat) (now : Nat) : Bool := leaseExpiresAt.all fun expires => expires ≤ now

def reclaimable (now : Nat) (row : TriggerExecution) : Bool :=
  row.status == .running && expired row.leaseExpiresAt now

def reclaimed (token expires now : Nat) (row : TriggerExecution) : TriggerExecution :=
  { row with attemptCount := row.attemptCount + 1, leaseToken := some token, leaseExpiresAt := some expires,
             updatedAt := now }

/-- `token` is what `uuid4` answers. -/
def claim (store : TriggerExecutionStore) (key : ExecutionKey) (lease now token : Nat) :
    Except StoreError (TriggerExecutionStore × Option Nat) :=
  if lease = 0 then .error .executionLease
  else
    match store.execution key with
    | none =>
      let row : TriggerExecution := ⟨key, .running, none, 1, some token, some (now + lease), now⟩
      .ok ({ store with executions := store.executions ++ [row] }, some token)
    | some _ =>
      let chosen (row : TriggerExecution) : Bool := row.key == key && reclaimable now row
      .ok ({ store with executions := Rows.update chosen (reclaimed token (now + lease) now) store.executions },
        if store.executions.countP chosen = 1 then some token else none)

def due (now : Nat) (row : OutboxRow) : Bool :=
  row.status == .pending || (row.status == .delivering && expired row.leaseExpiresAt now)

def handedOut (token expires now : Nat) (row : OutboxRow) : OutboxRow :=
  { row with status := .delivering, attemptCount := row.attemptCount + 1, leaseToken := some token,
             leaseExpiresAt := some expires, updatedAt := now }

structure ClaimedDelivery (Snapshot : Type) where
  id : Nat
  key : ExecutionKey
  mode : DeliveryMode
  snapshot : Snapshot
  leaseToken : Nat

def held (token : Nat) (row : OutboxRow) : Bool := row.status == .delivering && row.leaseToken == some token

/-- The lease of a delivery ends with this status. -/
def released (status : DeliveryStatus) (now : Nat) (row : OutboxRow) : OutboxRow :=
  { row with status := status, leaseToken := none, leaseExpiresAt := none, updatedAt := now }

def releaseDelivery (store : TriggerExecutionStore) (id token : Nat) (status : DeliveryStatus) (now : Nat) :
    TriggerExecutionStore × Bool :=
  let chosen (row : OutboxRow) : Bool := row.id == id && held token row
  ({ store with outbox := Rows.update chosen (released status now) store.outbox }, store.outbox.countP chosen == 1)

def completeDelivery (store : TriggerExecutionStore) (id token now : Nat) : TriggerExecutionStore × Bool :=
  releaseDelivery store id token .delivered now

def retryDelivery (store : TriggerExecutionStore) (id token now : Nat) : TriggerExecutionStore × Bool :=
  releaseDelivery store id token .pending now

section Snapshots

variable {Snapshot : Type} (serialize : Snapshot → Except String String)
  (deserialize : String → Except String Snapshot)

def finished (status : TerminalStatus) (runId : Option String) (now : Nat) (row : TriggerExecution) :
    TriggerExecution :=
  { row with status := status.status, runId := runId, leaseToken := none, leaseExpiresAt := none, updatedAt := now }

def deliveryPayload : Option (Snapshot × DeliveryMode) → Except StoreError (Option (String × DeliveryMode))
  | none => .ok none
  | some (snapshot, mode) =>
    match serialize snapshot with
    | .ok text => .ok (some (text, mode))
    | .error message => .error (.snapshot message)

/-- The terminal status of an execution and its delivery are one transaction. -/
def finish (store : TriggerExecutionStore) (key : ExecutionKey) (token : Nat) (status : TerminalStatus)
    (runId : Option String) (delivery : Option (Snapshot × DeliveryMode)) (now : Nat) :
    Except StoreError (TriggerExecutionStore × Bool) := do
  let payload ← deliveryPayload serialize delivery
  let chosen (row : TriggerExecution) : Bool := row.key == key && (row.status == .running && row.leaseToken == some token)
  let updated : TriggerExecutionStore :=
    { store with executions := Rows.update chosen (finished status runId now) store.executions }
  if store.executions.countP chosen = 1 then
    match payload with
    | none => .ok (updated, true)
    | some (text, mode) =>
      if store.outbox.any fun row => row.key == key then .error .duplicateDelivery
      else
        let row : OutboxRow := ⟨store.nextId, key, mode, text, .pending, 0, none, none, now, now⟩
        .ok ({ updated with outbox := store.outbox ++ [row], nextId := store.nextId + 1 }, true)
  else .ok (updated, false)

/-- The loop over the selected rows; a snapshot that cannot be read aborts the transaction. -/
def claimRows (expires now : Nat) : List OutboxRow → Nat → List OutboxRow →
    Except StoreError (List OutboxRow × List (ClaimedDelivery Snapshot))
  | [], _, outbox => .ok (outbox, [])
  | row :: rows, token, outbox => do
    let chosen (other : OutboxRow) : Bool := other.id == row.id && due now other
    let updated := Rows.update chosen (handedOut token expires now) outbox
    if outbox.countP chosen ≠ 1 then claimRows expires now rows (token + 1) updated
    else
      match deserialize row.snapshotJson with
      | .error message => .error (.snapshot message)
      | .ok snapshot =>
        let (final, claimed) ← claimRows expires now rows (token + 1) updated
        return (final, ⟨row.id, row.key, row.mode, snapshot, token⟩ :: claimed)

/-- `token` is the first of the tokens that `uuid4` answers. -/
def claimDeliveries (store : TriggerExecutionStore) (lease limit now token : Nat) :
    Except StoreError (TriggerExecutionStore × List (ClaimedDelivery Snapshot)) := do
  if lease = 0 then .error .deliveryLease
  else if limit = 0 then .error .claimLimit
  else
    let rows := (store.outbox.filter (due now)).take limit
    let (outbox, claimed) ← claimRows deserialize (now + lease) now rows token store.outbox
    return ({ store with outbox := outbox }, claimed)

end Snapshots

end OpenTulpa.Specs.Executions
