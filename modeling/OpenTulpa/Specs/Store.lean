import OpenTulpa.Library.Outcome
import OpenTulpa.Library.Rows
import OpenTulpa.Library.Run
import OpenTulpa.Specs.Models

/-! The stores of agent specs and trigger specs. Both append immutable revisions and move one
active reference for each spec by compare and swap; a trigger revision is bound to an agent
spec revision that is checked before its transaction. -/

namespace OpenTulpa.Specs.Store

open Library Outcome Models

/-- A tenant and a spec. -/
abbrev SpecKey := String × String

structure RevisionRow (Write : Type) where
  tenantId : String
  id : String
  revision : Nat
  write : Write
  contentDigest : String
  createdAt : Nat
  createdBy : String
  deriving DecidableEq

structure ActiveRow where
  tenantId : String
  id : String
  revision : Nat
  updatedAt : Nat
  updatedBy : String
  deriving DecidableEq

structure SpecStore (Write : Type) where
  revisions : List (RevisionRow Write)
  active : List ActiveRow
  deriving DecidableEq

inductive SpecError where
  | conflict (message : String)
  | notFound (id : String)
  | invalid (message : String)
  | validation (field : String)
  | integrity
  deriving DecidableEq

/-- A revision as the calls spell the ones they expect. -/
def asInt (revision : Option Nat) : Option Int := revision.map (Nat.cast : Nat → Int)

theorem asInt_injective {one other : Option Nat} (same : asInt one = asInt other) : one = other :=
  Option.map_injective (fun _ _ => Int.natCast_inj.mp) same

def showOptional : Option Int → String
  | none => "None"
  | some n => toString n

section Rows

variable {Write : Type}

def RevisionRow.key (row : RevisionRow Write) : SpecKey := (row.tenantId, row.id)

def ActiveRow.key (row : ActiveRow) : SpecKey := (row.tenantId, row.id)

def SpecStore.empty : SpecStore Write := ⟨[], []⟩

def SpecStore.revisionsOf (store : SpecStore Write) (key : SpecKey) : List (RevisionRow Write) :=
  store.revisions.filter fun row => row.key == key

/-- `ORDER BY revision DESC LIMIT 1` -/
def SpecStore.latest (store : SpecStore Write) (key : SpecKey) : Option (RevisionRow Write) :=
  (store.revisionsOf key).argmax RevisionRow.revision

def SpecStore.getRevision (store : SpecStore Write) (key : SpecKey) (revision : Int) : Option (RevisionRow Write) :=
  store.revisions.find? fun row => row.key == key && (row.revision : Int) == revision

def SpecStore.activeRow (store : SpecStore Write) (key : SpecKey) : Option ActiveRow :=
  store.active.find? fun row => row.key == key

def SpecStore.activeRevision (store : SpecStore Write) (key : SpecKey) : Option Nat :=
  (store.activeRow key).map ActiveRow.revision

/-- `get_active`, the join of the active reference with its revision. -/
def SpecStore.getActive (store : SpecStore Write) (key : SpecKey) : Option (RevisionRow Write) :=
  (store.activeRevision key).bind fun revision => store.getRevision key revision

/-- The new revision is validated before it is inserted; its key is the trimmed one. -/
def SpecStore.insertRevision (store : SpecStore Write) (key : SpecKey) (revision : Nat) (write : Write)
    (contentDigest : String) (now : Nat) (createdBy : String) :
    Except SpecError (SpecStore Write × RevisionRow Write) :=
  match protocolId key.1, protocolSlug key.2, protocolId createdBy with
  | none, _, _ => .error (.validation "tenant_id")
  | _, none, _ => .error (.validation "id")
  | _, _, none => .error (.validation "created_by")
  | some tenantId, some id, some createdBy =>
    if store.revisions.any fun row => row.key == (tenantId, id) && row.revision == revision then .error .integrity
    else
      let row : RevisionRow Write := ⟨tenantId, id, revision, write, contentDigest, now, createdBy⟩
      .ok ({ store with revisions := store.revisions ++ [row] }, row)

/-- The transaction of `create_revision`. `label` names the kind of spec in the messages. -/
def SpecStore.appendRevision (label : String) (digest : Write → String) (store : SpecStore Write) (key : SpecKey)
    (write : Write) (expectedRevision : Option Int) (createdBy : String) (now : Nat) :
    Except SpecError (SpecStore Write × RevisionRow Write) :=
  match store.latest key with
  | none =>
    if expectedRevision ≠ none then .error (.conflict (label ++ " does not exist at the expected revision"))
    else store.insertRevision key 1 write (digest write) now createdBy
  | some current =>
    if current.contentDigest = digest write then .ok (store, current)
    else if expectedRevision ≠ some (current.revision : Int) then
      .error (.conflict (label ++ " revision is " ++ toString current.revision ++ ", expected " ++
        showOptional expectedRevision))
    else store.insertRevision key (current.revision + 1) write (digest write) now createdBy

/-- The transaction of `activate`. -/
def SpecStore.moveActive (label : String) (store : SpecStore Write) (key : SpecKey) (revision : Int)
    (expectedActiveRevision : Option Int) (updatedBy : String) (now : Nat) :
    Except SpecError (SpecStore Write × RevisionRow Write) :=
  match store.getRevision key revision with
  | none => .error (.notFound key.2)
  | some target =>
    match store.activeRow key with
    | none =>
      if expectedActiveRevision ≠ none then .error (.conflict (label ++ " has no active revision"))
      else
        .ok ({ store with active := store.active ++ [⟨key.1, key.2, target.revision, now, updatedBy⟩] }, target)
    | some active =>
      if active.revision = target.revision then .ok (store, target)
      else if expectedActiveRevision ≠ some (active.revision : Int) then
        .error (.conflict ("active " ++ label ++ " revision is " ++ toString active.revision ++ ", expected " ++
          showOptional expectedActiveRevision))
      else
        let chosen := fun row : ActiveRow => row.key == key && row.revision == active.revision
        if store.active.countP chosen ≠ 1 then
          .error (.conflict ("active " ++ label ++ " changed during activation"))
        else
          let change := fun row : ActiveRow =>
            { row with revision := target.revision, updatedAt := now, updatedBy := updatedBy }
          .ok ({ store with active := Rows.update chosen change store.active }, target)

/-- The transaction of `deactivate`. -/
def SpecStore.dropActive (label : String) (store : SpecStore Write) (key : SpecKey) (expectedActiveRevision : Int) :
    Except SpecError (SpecStore Write × Nat) :=
  match store.activeRow key with
  | none => .error (.notFound key.2)
  | some active =>
    if (active.revision : Int) ≠ expectedActiveRevision then
      .error (.conflict ("active " ++ label ++ " revision is " ++ toString active.revision ++ ", expected " ++
        toString expectedActiveRevision))
    else
      let chosen := fun row : ActiveRow => row.key == key && row.revision == active.revision
      if store.active.countP chosen ≠ 1 then
        .error (.conflict ("active " ++ label ++ " changed during deactivation"))
      else .ok ({ store with active := store.active.filter fun row => !chosen row }, active.revision)

end Rows

abbrev AgentSpecStore := SpecStore AgentSpecWrite

abbrev TriggerSpecStore := SpecStore TriggerSpecWrite

/-- The arguments of `create_revision`. -/
structure CreateCall (Write : Type) where
  tenantId : String
  specId : String
  write : Write
  expectedRevision : Option Int
  createdBy : String
  deriving DecidableEq

structure ActivateCall where
  tenantId : String
  specId : String
  revision : Int
  expectedActiveRevision : Option Int
  updatedBy : String
  deriving DecidableEq

def CreateCall.key {Write : Type} (call : CreateCall Write) : SpecKey := (call.tenantId, call.specId)

def ActivateCall.key (call : ActivateCall) : SpecKey := (call.tenantId, call.specId)

namespace AgentSpecStore

def createRevision (digest : AgentSpecWrite → String) (store : AgentSpecStore) (call : CreateCall AgentSpecWrite)
    (now : Nat) : Except SpecError (AgentSpecStore × RevisionRow AgentSpecWrite) :=
  store.appendRevision "AgentSpec" digest call.key call.write call.expectedRevision call.createdBy now

def activate (store : AgentSpecStore) (ref : AgentSpecRef) (expectedActiveRevision : Option Int) (updatedBy : String)
    (now : Nat) : Except SpecError (AgentSpecStore × RevisionRow AgentSpecWrite) :=
  store.moveActive "AgentSpec" (ref.tenantId, ref.specId) ref.revision expectedActiveRevision updatedBy now

def deactivate (store : AgentSpecStore) (key : SpecKey) (expectedActiveRevision : Int) :
    Except SpecError (AgentSpecStore × Nat) :=
  store.dropActive "AgentSpec" key expectedActiveRevision

end AgentSpecStore

namespace TriggerSpecStore

/-- `_validate_target` -/
def validateTarget (agents : AgentSpecStore) (tenantId : String) (write : TriggerSpecWrite) : Except SpecError Unit :=
  if write.agentSpec.tenantId ≠ tenantId then
    .error (.invalid "trigger and AgentSpec must belong to the same tenant")
  else
    match agents.getRevision (write.agentSpec.tenantId, write.agentSpec.specId) write.agentSpec.revision with
    | none => .error (.notFound write.agentSpec.specId)
    | some target =>
      if target.write.isolation ≠ write.exposure then
        .error (.invalid "trigger exposure must match the target AgentSpec isolation")
      else .ok ()

/-- The transaction of `create_revision`. -/
def appendValidated (digest : TriggerSpecWrite → String) (store : TriggerSpecStore) (call : CreateCall TriggerSpecWrite)
    (now : Nat) : Except SpecError (TriggerSpecStore × RevisionRow TriggerSpecWrite) :=
  store.appendRevision "TriggerSpec" digest call.key call.write call.expectedRevision call.createdBy now

def createRevision (digest : TriggerSpecWrite → String) (agents : AgentSpecStore) (store : TriggerSpecStore)
    (call : CreateCall TriggerSpecWrite) (now : Nat) :
    Except SpecError (TriggerSpecStore × RevisionRow TriggerSpecWrite) := do
  validateTarget agents call.tenantId call.write
  appendValidated digest store call now

def activate (store : TriggerSpecStore) (call : ActivateCall) (now : Nat) :
    Except SpecError (TriggerSpecStore × RevisionRow TriggerSpecWrite) :=
  store.moveActive "TriggerSpec" call.key call.revision call.expectedActiveRevision call.updatedBy now

def deactivate (store : TriggerSpecStore) (key : SpecKey) (expectedActiveRevision : Int) :
    Except SpecError (TriggerSpecStore × Nat) :=
  store.dropActive "TriggerSpec" key expectedActiveRevision

end TriggerSpecStore

end OpenTulpa.Specs.Store
