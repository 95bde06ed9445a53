import OpenTulpa.Library.Outcome
import OpenTulpa.Library.Rows
import OpenTulpa.Library.Run
import OpenTulpa.Specs.Models

/-! The secret vault: append-only revisions of each secret, a reference to the current one, and
grants that release the plaintext of one revision once. Operations are transactions; one that
raises leaves the vault as it was. Times are counted in microseconds. -/

namespace OpenTulpa.Secrets.Vault

open Library Outcome Text Specs.Models

inductive SecretState where
  | pending
  | active
  | revoked
  deriving DecidableEq

def SecretState.value : SecretState → String
  | .pending => "pending"
  | .active => "active"
  | .revoked => "revoked"

structure EncryptedSecret where
  keyId : String
  nonce : ByteArray
  ciphertext : ByteArray

instance : DecidableEq EncryptedSecret := fun first second =>
  decidable_of_iff (first.keyId = second.keyId ∧ first.nonce.data = second.nonce.data ∧
    first.ciphertext.data = second.ciphertext.data) (by
      obtain ⟨keyId, ⟨nonce⟩, ⟨ciphertext⟩⟩ := first
      obtain ⟨otherId, ⟨otherNonce⟩, ⟨otherText⟩⟩ := second
      simp)

/-- The cipher of the host. What it encrypted it decrypts again under the same associated data. -/
structure HostKeySecretCipher where
  encrypt : (nonce plaintext associatedData : ByteArray) → EncryptedSecret
  decrypt : EncryptedSecret → ByteArray → Option ByteArray
  inverts : ∀ nonce plaintext data, decrypt (encrypt nonce plaintext data) data = some plaintext

/-- A tenant and a secret. -/
abbrev SecretKey := String × String

structure SecretRevision where
  tenantId : String
  id : String
  revision : Nat
  name : String
  state : SecretState
  scopes : List String
  encrypted : Option EncryptedSecret
  createdAt : Int
  createdBy : String
  deriving DecidableEq

structure CurrentRef where
  tenantId : String
  id : String
  revision : Nat
  updatedAt : Int
  updatedBy : String
  deriving DecidableEq

structure SecretGrant where
  id : String
  tenantId : String
  secretId : String
  secretRevision : Nat
  capabilityId : String
  scopes : List String
  tokenHash : String
  expiresAt : Int
  createdAt : Int
  consumedAt : Option Int
  deriving DecidableEq

structure SecretVault where
  revisions : List SecretRevision
  current : List CurrentRef
  grants : List SecretGrant
  deriving DecidableEq

def SecretVault.empty : SecretVault := ⟨[], [], []⟩

structure SecretMaterial where
  grantId : String
  secretId : String
  name : String
  scope : String
  value : String
  deriving DecidableEq

inductive VaultError where
  | conflict (message : String)
  | notFound (secretId : String)
  | grant (message : String)
  | invalid (message : String)
  | validation (fields : List String)
  | cipher
  | integrity
  deriving DecidableEq

def SecretRevision.key (row : SecretRevision) : SecretKey := (row.tenantId, row.id)

def CurrentRef.key (ref : CurrentRef) : SecretKey := (ref.tenantId, ref.id)

def SecretGrant.key (grant : SecretGrant) : SecretKey := (grant.tenantId, grant.secretId)

def SecretVault.revisionsOf (vault : SecretVault) (key : SecretKey) : List SecretRevision :=
  vault.revisions.filter fun row => row.key == key

def SecretVault.currentRef (vault : SecretVault) (key : SecretKey) : Option CurrentRef :=
  vault.current.find? fun ref => ref.key == key

def SecretVault.revision (vault : SecretVault) (key : SecretKey) (revision : Nat) : Option SecretRevision :=
  vault.revisions.find? fun row => row.key == key && row.revision == revision

/-- `_current_row`, and the read of `get_handle`. -/
def SecretVault.currentRow (vault : SecretVault) (key : SecretKey) : Option SecretRevision :=
  (vault.currentRef key).bind fun ref => vault.revision key ref.revision

/-- `^[a-z][a-z0-9_]*(?:\.[a-z][a-z0-9_]*)*$` -/
def isScope (text : List Char) : Bool :=
  (text.splitOn '.').all fun part =>
    match part with
    | [] => false
    | first :: rest => first.isLower && rest.all fun c => c.isLower || c.isDigit || c == '_'

def secretScope (value : String) : Option String :=
  let text := trim value
  if isScope text.toList then some text else none

/-- `_scopes` -/
def cleanScopes (scopes : List String) : Except VaultError (List String) :=
  let cleaned := scopes.map strip
  if cleaned.isEmpty || cleaned.any String.isEmpty then
    .error (.invalid "at least one non-empty secret scope is required")
  else if cleaned.Nodup then .ok cleaned
  else .error (.invalid "secret scopes must be unique")

/-- The validated scopes of a handle or of a receipt. -/
def validScopes (scopes : List String) : Option (List String) := do
  let valid ← scopes.mapM secretScope
  if valid.isEmpty || 100 < valid.length then none else some valid

/-- The error of a record that is refused, with the fields that are wrong. -/
def refused (fields : List (String × Bool)) : VaultError :=
  .validation ((fields.filter fun field => !field.2).map Prod.fst)

/-- `_clean_value` -/
def cleanValue (value : String) : Except VaultError ByteArray :=
  if value.toUTF8.size = 0 then .error (.invalid "secret value must not be empty")
  else if 1048576 < value.toUTF8.size then .error (.invalid "secret value must be at most 1 MiB")
  else .ok value.toUTF8

/-- `_aad` -/
def associatedData (key : SecretKey) (revision : Nat) (name : String) : ByteArray :=
  ("opentulpa-secret-v1\x00" ++ key.1 ++ "\x00" ++ key.2 ++ "\x00" ++ toString revision ++ "\x00" ++ name).toUTF8

/-- `INSERT INTO secret_revisions`, under its primary key. -/
def SecretVault.insertRevision (vault : SecretVault) (row : SecretRevision) : Except VaultError SecretVault :=
  if vault.revisions.any fun other => other.key == row.key && other.revision == row.revision then .error .integrity
  else .ok { vault with revisions := vault.revisions ++ [row] }

/-- `_advance_current_ref` -/
def SecretVault.advanceCurrentRef (vault : SecretVault) (key : SecretKey) (revision expected : Nat) (now : Int)
    (updatedBy : String) : Except VaultError SecretVault :=
  let chosen := fun ref : CurrentRef => ref.key == key && ref.revision == expected
  let advance := fun ref : CurrentRef => { ref with revision := revision, updatedAt := now, updatedBy := updatedBy }
  if vault.current.countP chosen ≠ 1 then .error (.conflict "secret changed during revision transition")
  else .ok { vault with current := Rows.update chosen advance vault.current }

/-- The new revision of a secret and the reference to it. -/
def SecretVault.succeed (vault : SecretVault) (row : SecretRevision) (expected : Nat) (updatedBy : String) :
    Except VaultError SecretVault := do
  let inserted ← vault.insertRevision row
  inserted.advanceCurrentRef row.key row.revision expected row.createdAt updatedBy

structure PendingCall where
  tenantId : String
  name : String
  scopes : List String
  createdBy : String
  secretId : Option String
  deriving DecidableEq

/-- `fresh` is the identifier of a secret that is given none. -/
def createPending (vault : SecretVault) (call : PendingCall) (fresh : String) (now : Int) :
    Except VaultError (SecretVault × SecretRevision) := do
  let given := strip (call.secretId.getD "")
  let id := protocolSlug (if given.isEmpty then fresh else given)
  let scopes ← cleanScopes call.scopes
  match protocolId call.tenantId, id, protocolSlug call.name, validScopes scopes, protocolId call.createdBy with
  | some tenantId, some id, some name, some scopes, some createdBy =>
    if (vault.currentRef (tenantId, id)).isSome then .error (.conflict "secret handle already exists")
    else do
      let row : SecretRevision := ⟨tenantId, id, 1, name, .pending, scopes, none, now, createdBy⟩
      let inserted ← vault.insertRevision row
      return ({ inserted with current := inserted.current ++ [⟨tenantId, id, 1, now, createdBy⟩] }, row)
  | tenantId, id, name, scopes, createdBy =>
    .error (refused [("tenant_id", tenantId.isSome), ("id", id.isSome), ("name", name.isSome),
      ("scopes", scopes.isSome), ("created_by", createdBy.isSome)])

structure WriteCall where
  tenantId : String
  secretId : String
  expectedRevision : Int
  value : String
  updatedBy : String
  scopes : Option (List String)
  deriving DecidableEq

def WriteCall.key (call : WriteCall) : SecretKey := (call.tenantId, call.secretId)

/-- The check that a transition starts from the revision that the call expects. -/
def SecretVault.expectCurrent (vault : SecretVault) (key : SecretKey) (expected : Int) :
    Except VaultError SecretRevision :=
  match vault.currentRow key with
  | none => .error (.notFound key.2)
  | some handle =>
    if (handle.revision : Int) ≠ expected then
      .error (.conflict ("secret revision is " ++ toString handle.revision ++ ", expected " ++ toString expected))
    else .ok handle

/-- `_write_active_revision` -/
def writeActiveRevision (cipher : HostKeySecretCipher) (vault : SecretVault) (call : WriteCall)
    (expectedState : SecretState) (scopes : Option (List String)) (nonce : ByteArray) (now : Int) :
    Except VaultError (SecretVault × SecretRevision) := do
  let plaintext ← cleanValue call.value
  let handle ← vault.expectCurrent call.key call.expectedRevision
  if handle.state ≠ expectedState then
    .error (.conflict ("secret must be " ++ expectedState.value ++ " for this operation"))
  else do
    let revision := handle.revision + 1
    let encrypted := cipher.encrypt nonce plaintext (associatedData handle.key revision handle.name)
    match validScopes (scopes.getD handle.scopes), protocolId call.updatedBy with
    | some nextScopes, some createdBy =>
      let row : SecretRevision :=
        ⟨handle.tenantId, handle.id, revision, handle.name, .active, nextScopes, some encrypted, now, createdBy⟩
      let stored ← vault.succeed row handle.revision call.updatedBy
      return (stored, row)
    | scopes, createdBy => .error (refused [("scopes", scopes.isSome), ("created_by", createdBy.isSome)])

def fulfill (cipher : HostKeySecretCipher) (vault : SecretVault) (call : WriteCall) (nonce : ByteArray) (now : Int) :
    Except VaultError (SecretVault × SecretRevision) :=
  writeActiveRevision cipher vault call .pending none nonce now

def rotate (cipher : HostKeySecretCipher) (vault : SecretVault) (call : WriteCall) (nonce : ByteArray) (now : Int) :
    Except VaultError (SecretVault × SecretRevision) := do
  match call.scopes with
  | none => writeActiveRevision cipher vault call .active none nonce now
  | some scopes => do
    let cleaned ← cleanScopes scopes
    writeActiveRevision cipher vault call .active (some cleaned) nonce now

def revoke (vault : SecretVault) (key : SecretKey) (expectedRevision : Int) (updatedBy : String) (now : Int) :
    Except VaultError (SecretVault × SecretRevision) := do
  let handle ← vault.expectCurrent key expectedRevision
  if handle.state = .revoked then return (vault, handle)
  else
    match protocolId updatedBy with
    | none => .error (refused [("created_by", false)])
    | some createdBy =>
      let row : SecretRevision :=
        ⟨handle.tenantId, handle.id, handle.revision + 1, handle.name, .revoked, handle.scopes, none, now, createdBy⟩
      let stored ← vault.succeed row handle.revision updatedBy
      return (stored, row)

structure GrantCall where
  tenantId : String
  secretId : String
  capabilityId : String
  scopes : List String
  ttlSeconds : Int
  deriving DecidableEq

section Grants

variable (hash : String → String)

/-- `grantId` and `rawToken` are drawn at random. -/
def issueGrant (vault : SecretVault) (call : GrantCall) (grantId rawToken : String) (now : Int) :
    Except VaultError (SecretVault × SecretGrant) := do
  let requested ← cleanScopes call.scopes
  if call.ttlSeconds < 1 ∨ 3600 < call.ttlSeconds then
    .error (.invalid "secret grant TTL must be between 1 and 3600 seconds")
  else
    match vault.currentRow (call.tenantId, call.secretId) with
    | none => .error (.notFound call.secretId)
    | some handle =>
      if handle.state ≠ .active then .error (.grant "secret is not active")
      else if !requested.all handle.scopes.contains then
        .error (.grant "requested scope is not allowed for this secret")
      else
        match protocolSlug grantId, protocolSlug call.capabilityId, validScopes requested with
        | some id, some capabilityId, some scopes =>
          let grant : SecretGrant := ⟨id, handle.tenantId, handle.id, handle.revision, capabilityId, scopes,
            hash rawToken, now + call.ttlSeconds * 1000000, now, none⟩
          if vault.grants.any fun other => other.id == grant.id || other.tokenHash == grant.tokenHash then
            .error .integrity
          else return ({ vault with grants := vault.grants ++ [grant] }, grant)
        | id, capabilityId, scopes =>
          .error (refused [("id", id.isSome), ("capability_id", capabilityId.isSome), ("scopes", scopes.isSome)])

/-- The grant of a token, joined with its revision and the current reference of its secret. -/
def SecretVault.granted (vault : SecretVault) (token : String) : Option (SecretGrant × SecretRevision × CurrentRef) := do
  let grant ← vault.grants.find? fun grant => grant.tokenHash == hash token
  let row ← vault.revision grant.key grant.secretRevision
  let ref ← vault.currentRef grant.key
  return (grant, row, ref)

def SecretVault.consume (vault : SecretVault) (grantId : String) (now : Int) : Except VaultError SecretVault :=
  let chosen := fun grant : SecretGrant => grant.id == grantId && grant.consumedAt.isNone
  if vault.grants.countP chosen ≠ 1 then .error (.grant "secret grant was already consumed")
  else
    .ok { vault with
      grants := Rows.update chosen (fun grant => { grant with consumedAt := some now }) vault.grants }

def decryptRow (cipher : HostKeySecretCipher) (key : SecretKey) (row : SecretRevision) : Option String := do
  let encrypted ← row.encrypted
  let plaintext ← cipher.decrypt encrypted (associatedData key row.revision row.name)
  String.fromUTF8? plaintext

def redeemGrant (cipher : HostKeySecretCipher) (vault : SecretVault) (token capabilityId scope : String) (now : Int) :
    Except VaultError (SecretVault × SecretMaterial) := do
  match vault.granted hash token with
  | none => .error (.grant "secret grant is invalid")
  | some (grant, row, ref) =>
    if grant.consumedAt.isSome then .error (.grant "secret grant was already consumed")
    else if grant.expiresAt ≤ now then .error (.grant "secret grant has expired")
    else if grant.capabilityId ≠ strip capabilityId then .error (.grant "secret grant belongs to another capability")
    else if scope ∉ grant.scopes then .error (.grant "secret grant does not include the requested scope")
    else if ref.revision ≠ grant.secretRevision then
      .error (.grant "secret grant was invalidated by a newer revision")
    else if row.state ≠ .active then .error (.grant "secret is not active")
    else
      match decryptRow cipher grant.key row with
      | none => .error .cipher
      | some value => do
        let consumed ← vault.consume grant.id now
        return (consumed, ⟨grant.id, grant.secretId, row.name, scope, value⟩)

end Grants

end OpenTulpa.Secrets.Vault
