import OpenTulpa.Library.Outcome
import OpenTulpa.Library.Rows
import OpenTulpa.Library.Text
import Mathlib.Data.List.Sort

/-! The store of owner notifications: rows of all tenants in one table whose identifiers grow with every insert, and the
acknowledgements of each consumer. -/

namespace OpenTulpa.Notifications.Store

open Library Text

section Model

inductive ApprovalDecision where
  | approve
  | edit
  | reject
  deriving DecidableEq

structure NotificationApproval where
  approvalId : String
  toolName : String
  description : String
  allowedDecisions : List ApprovalDecision
  deriving DecidableEq

/-- The payload of a notification. Approvals come with the run that waits for them. -/
structure NotificationWrite where
  kind : String
  text : String
  status : String
  threadId : Option String
  runId : Option String
  origin : Option JsonObject
  approvals : List NotificationApproval
  deriving DecidableEq

structure OwnerNotification extends NotificationWrite where
  id : Nat
  tenantId : String
  dedupeKey : String
  payloadHash : String
  createdAt : Int
  deriving DecidableEq

structure Ack where
  tenantId : String
  consumerId : String
  notificationId : Nat
  ackedAt : Int
  deriving DecidableEq

/-- The two tables, and the largest identifier that was ever inserted. -/
structure NotificationStore where
  notifications : List OwnerNotification
  sequence : Nat
  acks : List Ack

def NotificationStore.empty : NotificationStore := ⟨[], 0, []⟩

inductive NotificationError where
  | invalid (label : String)
  | notPositive
  | dedupeConflict
  | notFound (notificationId : Nat)
  deriving DecidableEq

end Model

section Operations

/-- `_identity` -/
def identity (value label : String) (maxLength : Nat) : Except NotificationError String :=
  let safe := strip value
  if safe.isEmpty || maxLength < safe.length || safe.toList.any fun c => c.toNat < 32 then .error (.invalid label)
  else .ok safe

/-- `_positive_id` -/
def positiveId (value : Nat) : Except NotificationError Nat := if value < 1 then .error .notPositive else .ok value

/-- A row with the next identifier. -/
def NotificationStore.insert (db : NotificationStore) (tenantId dedupeKey payloadHash : String) (payload : NotificationWrite)
    (createdAt : Int) : NotificationStore × OwnerNotification :=
  let row : OwnerNotification := ⟨payload, db.sequence + 1, tenantId, dedupeKey, payloadHash, createdAt⟩
  ({ db with notifications := db.notifications ++ [row], sequence := db.sequence + 1 }, row)

/-- `append` -/
def NotificationStore.append (db : NotificationStore) (hash : NotificationWrite → String) (tenantId dedupeKey : String)
    (payload : NotificationWrite) (createdAt : Int) :
    Except NotificationError (NotificationStore × OwnerNotification × Bool) := do
  let tenant ← identity tenantId "tenant_id" 200
  let key ← identity dedupeKey "dedupe_key" 300
  match db.notifications.find? fun row => row.tenantId == tenant && row.dedupeKey == key with
  | some existing =>
    if existing.payloadHash ≠ hash payload then .error .dedupeConflict else .ok (db, existing, false)
  | none =>
    let (stored, row) := db.insert tenant key (hash payload) payload createdAt
    .ok (stored, row, true)

def NotificationStore.acked (db : NotificationStore) (tenantId consumerId : String) (notificationId : Nat) : Bool :=
  db.acks.any fun ack =>
    ack.tenantId == tenantId && ack.consumerId == consumerId && ack.notificationId == notificationId

/-- The rows of a tenant behind a cursor that a consumer has not acknowledged. -/
def NotificationStore.unacked (db : NotificationStore) (tenantId consumerId : String) (afterId : Nat) :
    List OwnerNotification :=
  db.notifications.filter fun row =>
    row.tenantId == tenantId && decide (afterId < row.id) && !db.acked tenantId consumerId row.id

/-- `list_unacked` -/
def NotificationStore.listUnacked (db : NotificationStore) (tenantId consumerId : String) (afterId limit : Nat) :
    Except NotificationError (List OwnerNotification) := do
  let tenant ← identity tenantId "tenant_id" 200
  let consumer ← identity consumerId "consumer_id" 300
  return ((db.unacked tenant consumer afterId).insertionSort fun first second => first.id ≤ second.id).take
    (max 1 (min limit 100))

/-- `acknowledge` -/
def NotificationStore.acknowledge (db : NotificationStore) (tenantId consumerId : String) (notificationId : Nat)
    (ackedAt : Int) : Except NotificationError (NotificationStore × Bool) := do
  let tenant ← identity tenantId "tenant_id" 200
  let consumer ← identity consumerId "consumer_id" 300
  let identifier ← positiveId notificationId
  if db.notifications.any fun row => row.tenantId == tenant && row.id == identifier then
    if db.acked tenant consumer identifier then .ok (db, false)
    else .ok ({ db with acks := db.acks ++ [⟨tenant, consumer, identifier, ackedAt⟩] }, true)
  else .error (.notFound identifier)

end Operations

section Numbering

variable {db : NotificationStore}

/-- The rows stand in the order of their identifiers, up to the largest one. -/
structure NotificationStore.Numbered (db : NotificationStore) : Prop where
  increasing : db.notifications.Pairwise fun first second => first.id < second.id
  bounded : ∀ row ∈ db.notifications, row.id ≤ db.sequence

theorem numbered_empty : NotificationStore.empty.Numbered where
  increasing := List.Pairwise.nil
  bounded := by rintro _ ⟨⟩

/-- A store behind another: it has further rows only behind all others, and further acknowledgements. -/
structure Extends (before after : NotificationStore) : Prop where
  rows : ∀ row ∈ before.notifications, row ∈ after.notifications
  later : ∀ row ∈ after.notifications, row ∈ before.notifications ∨ before.sequence < row.id
  sequence : before.sequence ≤ after.sequence
  acks : ∀ ack ∈ before.acks, ack ∈ after.acks

theorem Extends.refl (db : NotificationStore) : Extends db db :=
  ⟨fun _ member => member, fun _ member => Or.inl member, le_rfl, fun _ member => member⟩

theorem Extends.acked {before after : NotificationStore} (grows : Extends before after) {tenantId consumerId : String}
    {id : Nat} (acked : before.acked tenantId consumerId id = true) : after.acked tenantId consumerId id = true := by
  obtain ⟨ack, member, is⟩ := List.any_eq_true.mp acked
  exact List.any_eq_true.mpr ⟨ack, grows.acks ack member, is⟩

/-- An insert comes behind all rows. -/
theorem append_spec {hash : NotificationWrite → String} {tenantId dedupeKey : String} {payload : NotificationWrite}
    {createdAt : Int} {stored : NotificationStore} {row : OwnerNotification} {created : Bool} (numbered : db.Numbered)
    (done : db.append hash tenantId dedupeKey payload createdAt = .ok (stored, row, created)) :
    stored.Numbered ∧ Extends db stored ∧ stored.acks = db.acks := by
  unfold NotificationStore.append at done
  obtain ⟨tenant, -, done⟩ := Outcome.bind_eq_ok done
  obtain ⟨key, -, done⟩ := Outcome.bind_eq_ok done
  split at done
  · split at done
    · cases done
    · cases done
      exact ⟨numbered, .refl db, rfl⟩
  · cases done
    refine ⟨⟨?_, ?_⟩, ⟨?_, ?_, Nat.le_succ _, fun _ member => member⟩, rfl⟩
    · refine List.pairwise_append.mpr ⟨numbered.increasing, List.pairwise_singleton _ _, ?_⟩
      intro first member second last
      rw [List.mem_singleton.mp last]
      exact Nat.lt_succ_of_le (numbered.bounded first member)
    · intro row member
      rcases List.mem_append.mp member with old | new
      · exact (numbered.bounded row old).trans (Nat.le_succ _)
      · rw [List.mem_singleton.mp new]
    · exact fun row member => List.mem_append_left _ member
    · intro row member
      rcases List.mem_append.mp member with old | new
      · exact Or.inl old
      · right
        rw [List.mem_singleton.mp new]
        exact Nat.lt_succ_self db.sequence

/-- An acknowledgement is of a row of its tenant, and adds at most itself. -/
structure Acknowledged (tenant consumer : String) (id : Nat) (db stored : NotificationStore) : Prop where
  notifications : stored.notifications = db.notifications
  sequence : stored.sequence = db.sequence
  acked : stored.acked tenant consumer id = true
  owned : ∃ row ∈ db.notifications, row.tenantId = tenant ∧ row.id = id
  kept : ∀ ack ∈ db.acks, ack ∈ stored.acks
  added : ∀ ack ∈ stored.acks, ack ∈ db.acks ∨ ack.tenantId = tenant ∧ ack.consumerId = consumer ∧ ack.notificationId = id

theorem positiveId_eq {value identifier : Nat} (positive : positiveId value = .ok identifier) : identifier = value := by
  unfold positiveId at positive
  split at positive
  · cases positive
  · exact (Except.ok.inj positive).symm

theorem acknowledge_spec {tenantId consumerId : String} {id : Nat} {ackedAt : Int} {stored : NotificationStore} {new : Bool}
    (done : db.acknowledge tenantId consumerId id ackedAt = .ok (stored, new)) :
    ∃ tenant consumer, identity tenantId "tenant_id" 200 = .ok tenant ∧ identity consumerId "consumer_id" 300 = .ok consumer ∧
      Acknowledged tenant consumer id db stored := by
  unfold NotificationStore.acknowledge at done
  obtain ⟨tenant, known, named⟩ := Outcome.bind_eq_ok done
  obtain ⟨consumer, reads, numbered⟩ := Outcome.bind_eq_ok named
  obtain ⟨identifier, positive, stores⟩ := Outcome.bind_eq_ok numbered
  obtain rfl := positiveId_eq positive
  refine ⟨tenant, consumer, known, reads, ?_⟩
  split at stores
  · rename_i owned
    obtain ⟨row, member, is⟩ := List.any_eq_true.mp owned
    have owner : row.tenantId = tenant ∧ row.id = identifier := by simpa using is
    split at stores
    · rename_i already
      cases stores
      exact ⟨rfl, rfl, already, ⟨row, member, owner⟩, fun _ here => here, fun _ here => Or.inl here⟩
    · cases stores
      refine ⟨rfl, rfl, ?_, ⟨row, member, owner⟩, fun _ here => List.mem_append_left _ here, ?_⟩
      · simp [NotificationStore.acked]
      · intro ack here
        rcases List.mem_append.mp here with old | added
        · exact Or.inl old
        · right
          rw [List.mem_singleton.mp added]
          exact ⟨rfl, rfl, rfl⟩
  · cases stores

theorem Acknowledged.extends {tenant consumer : String} {id : Nat} {stored : NotificationStore}
    (done : Acknowledged tenant consumer id db stored) : Extends db stored where
  rows := by
    rw [done.notifications]
    exact fun _ member => member
  later := by
    rw [done.notifications]
    exact fun _ member => Or.inl member
  sequence := done.sequence.ge
  acks := done.kept

theorem Acknowledged.numbered {tenant consumer : String} {id : Nat} {stored : NotificationStore}
    (done : Acknowledged tenant consumer id db stored) (numbered : db.Numbered) : stored.Numbered where
  increasing := by
    rw [done.notifications]
    exact numbered.increasing
  bounded := by
    rw [done.notifications, done.sequence]
    exact numbered.bounded

end Numbering

section Listing

variable {db : NotificationStore} {tenant consumer : String} {afterId limit : Nat} {listed : List OwnerNotification}

theorem mem_unacked {row : OwnerNotification} : row ∈ db.unacked tenant consumer afterId ↔
    row ∈ db.notifications ∧ row.tenantId = tenant ∧ afterId < row.id ∧ db.acked tenant consumer row.id = false := by
  simp [NotificationStore.unacked, and_assoc]

/-- What is listed are the first of the rows that wait, in the order of their identifiers. -/
structure Listed (tenant consumer : String) (afterId : Nat) (db : NotificationStore) (rows : List OwnerNotification) :
    Prop where
  increasing : rows.Pairwise fun first second => first.id < second.id
  waiting : ∀ row ∈ rows, row ∈ db.unacked tenant consumer afterId
  first : ∀ row ∈ db.unacked tenant consumer afterId, ∀ last ∈ rows, row.id < last.id → row ∈ rows

theorem mem_take_of_lt {rows : List OwnerNotification} (increasing : rows.Pairwise fun first second => first.id < second.id)
    {row last : OwnerNotification} {n : Nat} (member : row ∈ rows) (taken : last ∈ rows.take n) (before : row.id < last.id) :
    row ∈ rows.take n := by
  rw [← List.take_append_drop n rows] at member increasing
  rcases List.mem_append.mp member with here | dropped
  · exact here
  · have after := (List.pairwise_append.mp increasing).2.2 last taken row dropped
    omega

theorem listUnacked_spec (numbered : db.Numbered) (known : identity tenant "tenant_id" 200 = .ok tenant)
    (reads : identity consumer "consumer_id" 300 = .ok consumer)
    (done : db.listUnacked tenant consumer afterId limit = .ok listed) : Listed tenant consumer afterId db listed := by
  have increasing : (db.unacked tenant consumer afterId).Pairwise fun first second => first.id < second.id :=
    numbered.increasing.filter _
  have sorted : (db.unacked tenant consumer afterId).insertionSort (fun first second => first.id ≤ second.id) =
      db.unacked tenant consumer afterId :=
    List.Pairwise.insertionSort_eq (increasing.imp Nat.le_of_lt)
  unfold NotificationStore.listUnacked at done
  rw [known, reads, Outcome.ok_bind, Outcome.ok_bind, sorted] at done
  cases done
  exact ⟨increasing.take, fun row member => List.mem_of_mem_take member,
    fun row member last taken before => mem_take_of_lt increasing member taken before⟩

end Listing

end OpenTulpa.Notifications.Store
