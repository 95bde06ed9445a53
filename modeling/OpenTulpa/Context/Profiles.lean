import OpenTulpa.Library.Calls
import OpenTulpa.Library.Rows
import OpenTulpa.Library.Run
import OpenTulpa.Library.Text

/-! The customer profile store: the tables of profiles and of identity aliases, and its calls as the statements they
issue, each on a connection of its own. A `SELECT` opens no transaction, so other calls may commit between any two
statements of a call; the statements that write are committed together. -/

namespace OpenTulpa.Context.Profiles

open Library Text

section Tables

/-- The columns that a profile call may name. -/
inductive Field where
  | directiveText
  | utcOffset
  | locale
  deriving DecidableEq

/-- The named columns of a row, or the arguments of `_upsert`, where `none` keeps what is stored. -/
structure Fields where
  directiveText : Option String := none
  utcOffset : Option String := none
  locale : Option String := none
  deriving DecidableEq

def Fields.get (fields : Fields) : Field → Option String
  | .directiveText => fields.directiveText
  | .utcOffset => fields.utcOffset
  | .locale => fields.locale

def Fields.merge (existing updates : Fields) : Fields where
  directiveText := updates.directiveText.or existing.directiveText
  utcOffset := updates.utcOffset.or existing.utcOffset
  locale := updates.locale.or existing.locale

structure CustomerProfile where
  customerId : String
  fields : Fields
  source : String
  updatedAt : String
  deriving DecidableEq

inductive AliasKind where
  | generic
  | telegram
  deriving DecidableEq

structure IdentityAlias where
  aliasUserId : String
  userId : String
  storageUserId : String
  aliasKind : AliasKind
  provider : Option String
  providerUserId : Option String
  createdAt : String
  updatedAt : String
  deriving DecidableEq

structure Tables where
  profiles : List CustomerProfile
  aliases : List IdentityAlias
  deriving DecidableEq

def Tables.profile (tables : Tables) (customerId : String) : Option CustomerProfile :=
  tables.profiles.find? fun row => row.customerId == customerId

/-- What a call reads of a profile; an absent row reads as one without values. -/
def Tables.fields (tables : Tables) (customerId : String) : Fields :=
  (tables.profile customerId).elim {} CustomerProfile.fields

/-- `_profile_exists` -/
def Tables.profileExists (tables : Tables) (customerId : String) : Bool := (tables.profile customerId).isSome

def Tables.storage (tables : Tables) (aliasUserId : String) : Option String :=
  (tables.aliases.find? fun row => row.aliasUserId == aliasUserId).map IdentityAlias.storageUserId

def Tables.resolveCustomerId (tables : Tables) (customerId : String) : String :=
  let cid := strip customerId
  if cid.isEmpty then "" else (tables.storage cid).getD cid

/-- The statement of `_upsert` that writes. -/
def Tables.storeProfile (tables : Tables) (row : CustomerProfile) : Tables :=
  { tables with profiles := Rows.upsert CustomerProfile.customerId row (fun _ => row) tables.profiles }

/-- `_upsert_identity_alias` -/
def Tables.upsertIdentityAlias (tables : Tables) (row : IdentityAlias) : Tables :=
  { tables with
    aliases := Rows.upsert IdentityAlias.aliasUserId row (fun old => { row with createdAt := old.createdAt })
      tables.aliases }

variable (tables : Tables)

@[simp] theorem profile_storeProfile_self (row : CustomerProfile) :
    (tables.storeProfile row).profile row.customerId = some row := by
  rw [Tables.profile, Tables.storeProfile, Rows.find_upsert_self tables.profiles row fun _ _ => rfl]
  cases tables.profiles.find? fun other => other.customerId == row.customerId <;> rfl

theorem profile_storeProfile_of_ne {row : CustomerProfile} {customerId : String} (apart : customerId ≠ row.customerId) :
    (tables.storeProfile row).profile customerId = tables.profile customerId :=
  Rows.find_upsert_of_ne (fun _ _ => rfl) apart

@[simp] theorem storage_storeProfile (row : CustomerProfile) (aliasUserId : String) :
    (tables.storeProfile row).storage aliasUserId = tables.storage aliasUserId := rfl

@[simp] theorem storage_upsertIdentityAlias_self (row : IdentityAlias) :
    (tables.upsertIdentityAlias row).storage row.aliasUserId = some row.storageUserId := by
  have kept : ∀ old : IdentityAlias, old.aliasUserId = row.aliasUserId →
      ({ row with createdAt := old.createdAt } : IdentityAlias).aliasUserId = row.aliasUserId := fun _ _ => rfl
  rw [Tables.storage, Tables.upsertIdentityAlias, Rows.find_upsert_self tables.aliases row kept]
  cases tables.aliases.find? fun other => other.aliasUserId == row.aliasUserId <;> rfl

theorem storage_upsertIdentityAlias_of_ne {row : IdentityAlias} {aliasUserId : String}
    (apart : aliasUserId ≠ row.aliasUserId) :
    (tables.upsertIdentityAlias row).storage aliasUserId = tables.storage aliasUserId :=
  congrArg (Option.map IdentityAlias.storageUserId) (Rows.find_upsert_of_ne (fun _ _ => rfl) apart)

@[simp] theorem profile_upsertIdentityAlias (row : IdentityAlias) (customerId : String) :
    (tables.upsertIdentityAlias row).profile customerId = tables.profile customerId := rfl

end Tables

section Requests

abbrev ProfileError := String

def optionalText (value : Option String) : Option String :=
  value.bind fun text => if (strip text).isEmpty then none else some (strip text)

/-- Two digits of a clock time, whatever the script they are written in. -/
def twoDigits (decimal : Char → Option Nat) (tens ones : Char) : Option Nat :=
  match decimal tens, decimal ones with
  | some tens, some ones => some (tens * 10 + ones)
  | _, _ => none

def pad (number : Nat) : String :=
  if number < 10 then "0" ++ toString number else toString number

/-- `_normalize_utc_offset`; upper case changes no text that the pattern accepts and makes none acceptable. -/
def normalizeUtcOffset (decimal : Char → Option Nat) (value : String) : Except ProfileError String :=
  match (strip value).toList with
  | [sign, h₁, h₂, ':', m₁, m₂] =>
    if sign = '+' ∨ sign = '-' then
      match twoDigits decimal h₁ h₂, twoDigits decimal m₁ m₂ with
      | some hours, some minutes =>
        let total : Int := (if sign = '-' then -1 else 1) * (hours * 60 + minutes)
        if 14 < hours ∨ 59 < minutes then .error "utc_offset out of range"
        else if total < -12 * 60 ∨ 14 * 60 < total then .error "utc_offset out of supported range"
        else .ok (String.singleton sign ++ pad hours ++ ":" ++ pad minutes)
      | _, _ => .error "utc_offset must match +HH:MM or -HH:MM"
    else .error "utc_offset must match +HH:MM or -HH:MM"
  | _ => .error "utc_offset must match +HH:MM or -HH:MM"

/-- The arguments of `_upsert`. -/
structure Upsert where
  customerId : String
  updates : Fields
  source : String
  deriving DecidableEq

/-- The arguments of `bind_telegram_user_id` as it uses them, and the time it takes first. -/
structure Binding where
  userId : String
  telegramId : String
  now : String
  deriving DecidableEq

def telegramPrefixed (telegramId : String) : String := "telegram_" ++ telegramId

def Binding.telegramAlias (binding : Binding) : String := telegramPrefixed binding.telegramId

/-- The calls, their arguments as text; a value of `update_profile` that is false in a condition is empty text. -/
inductive Request where
  | updateProfile (customerId : String) (updates : List (String × String)) (source : String)
  | setDirective (customerId directive source : String)
  | clearDirective (customerId source : String)
  | setUtcOffset (customerId utcOffset source : String)
  | bindTelegramUserId (userId telegramUserId : String)
  deriving DecidableEq

/-- What a call has still to do, with what it has read so far. -/
inductive Phase where
  | lookUp (upsert : Upsert)
  | lookedUp (cid : String) (upsert : Upsert)
  | resolve (upsert : Upsert)
  | read (cid updatedAt : String) (upsert : Upsert)
  | store (cid updatedAt : String) (existing : Fields) (upsert : Upsert)
  | userAlias (binding : Binding)
  | telegramAlias (binding : Binding) (uidStorage : Option String)
  | userProfile (binding : Binding) (uidStorage telegramStorage : Option String)
  | telegramProfile (binding : Binding) (uidStorage telegramStorage : Option String) (uidHasProfile : Bool)
  | bind (binding : Binding) (storageUserId : String)
  deriving DecidableEq

def allowedFields : List String := ["directive_text", "locale", "utc_offset"]

def defaultSource (source : String) : String := if source.isEmpty then "agent" else source

/-- One field of `update_profile`: not named, or its checked value. -/
def checkedField (updates : List (String × String)) (field : String)
    (check : String → Except ProfileError String) : Except ProfileError (Option String) :=
  match updates.lookup field with
  | none => .ok none
  | some raw => (check (strip raw)).map some

def atMost (limit : Nat) (message value : String) : Except ProfileError String :=
  if limit < value.length then .error message else .ok value

/-- The checks of `update_profile`; empty text is a value that clears its field. -/
def checkedUpdates (decimal : Char → Option Nat) (updates : List (String × String)) : Except ProfileError Fields := do
  let unexpected := ((updates.map Prod.fst).filter fun field => !allowedFields.contains field).mergeSort
  if !unexpected.isEmpty then throw ("unsupported profile fields: " ++ ", ".intercalate unexpected)
  if updates.isEmpty then throw "profile updates are required"
  let directiveText ← checkedField updates "directive_text"
    (atMost 20000 "directive_text must be at most 20000 characters")
  let locale ← checkedField updates "locale" (atMost 100 "locale must be at most 100 characters")
  let utcOffset ← checkedField updates "utc_offset" fun value =>
    if value.isEmpty then .ok value else normalizeUtcOffset decimal value
  pure ⟨directiveText, utcOffset, locale⟩

/-- What a call does before its first statement; `none` when it returns without one. -/
def Request.prepare (decimal : Char → Option Nat) (now : String) : Request → Except ProfileError (Option Phase)
  | .updateProfile customerId updates source => do
    let fields ← checkedUpdates decimal updates
    pure (some (.resolve ⟨customerId, fields, source⟩))
  | .setDirective customerId directive source =>
    if (strip directive).isEmpty then .error "directive is required"
    else .ok (some (.resolve ⟨customerId, { directiveText := some (strip directive) }, source⟩))
  | .clearDirective customerId source =>
    if (strip customerId).isEmpty then .ok none
    else .ok (some (.lookUp ⟨strip customerId, { directiveText := some "" }, source⟩))
  | .setUtcOffset customerId utcOffset source => do
    let normalized ← normalizeUtcOffset decimal utcOffset
    pure (some (.resolve ⟨customerId, { utcOffset := some normalized }, source⟩))
  | .bindTelegramUserId userId telegramUserId =>
    let binding : Binding := ⟨strip userId, strip telegramUserId, now⟩
    if binding.userId.isEmpty then .error "user_id is required"
    else if binding.telegramId.isEmpty then .error "telegram_user_id is required"
    else if binding.userId = binding.telegramAlias then .error "user_id must be generic, not telegram-derived"
    else .ok (some (.userAlias binding))

/-- `_select_identity_storage` on what its four statements read. -/
def selectIdentityStorage (binding : Binding) (uidStorage telegramStorage : Option String)
    (uidHasProfile telegramHasProfile : Bool) : Except ProfileError String :=
  match uidStorage, telegramStorage with
  | some uidStorage, telegramStorage =>
    if telegramStorage.any (· != uidStorage) then
      .error "identity aliases already point at different storage_user_id values"
    else if telegramHasProfile && binding.telegramAlias != uidStorage then
      .error "generic and telegram profiles both exist; manual merge is required"
    else .ok uidStorage
  | none, some telegramStorage =>
    if uidHasProfile && binding.userId != telegramStorage then
      .error "generic and telegram profiles both exist; manual merge is required"
    else .ok telegramStorage
  | none, none =>
    if uidHasProfile && telegramHasProfile then
      .error "generic and telegram profiles both exist; manual merge is required"
    else if uidHasProfile then .ok binding.userId
    else if telegramHasProfile then .ok binding.telegramAlias
    else .ok binding.userId

end Requests

section Calls

structure CustomerProfileRecord where
  customerId : String
  directiveText : Option String
  utcOffset : Option String
  locale : Option String
  source : String
  updatedAt : String
  deriving DecidableEq

structure IdentityBindingRecord where
  userId : String
  aliasUserId : String
  storageUserId : String
  aliasKind : AliasKind
  provider : String
  providerUserId : String
  updatedAt : String
  deriving DecidableEq

/-- A call that returned after it wrote: what it was asked and what it returned. -/
inductive Commit where
  | profile (updates : Fields) (record : CustomerProfileRecord)
  | binding (record : IdentityBindingRecord)
  deriving DecidableEq

/-- The tables, the calls in flight, and the calls that wrote, the latest first. -/
structure State where
  tables : Tables
  calls : Calls Phase
  log : List Commit
  deriving DecidableEq

inductive Event where
  | begin (id : Nat) (request : Request) (now : String)
  | advance (id : Nat) (now : String)
  | fail (id : Nat)
  deriving DecidableEq

def start (tables : Tables) : State := ⟨tables, [], []⟩

def State.phase (s : State) (id : Nat) : Option Phase := s.calls.get id

def State.end (s : State) (id : Nat) : State := { s with calls := s.calls.drop id }

def State.goOn (s : State) (id : Nat) (phase : Phase) : State := { s with calls := s.calls.put id phase }

/-- The row that `_upsert` writes. -/
def Upsert.row (upsert : Upsert) (cid updatedAt : String) (existing : Fields) : CustomerProfile :=
  ⟨cid, existing.merge upsert.updates, defaultSource upsert.source, updatedAt⟩

@[simp] theorem row_customerId (upsert : Upsert) (cid updatedAt : String) (existing : Fields) :
    (upsert.row cid updatedAt existing).customerId = cid := rfl

def CustomerProfile.record (row : CustomerProfile) : CustomerProfileRecord :=
  ⟨row.customerId, optionalText row.fields.directiveText, optionalText row.fields.utcOffset,
    optionalText row.fields.locale, row.source, row.updatedAt⟩

def State.store (s : State) (row : CustomerProfile) (updates : Fields) : State :=
  { s with tables := s.tables.storeProfile row, log := .profile updates row.record :: s.log }

def Binding.genericRow (binding : Binding) (storageUserId : String) : IdentityAlias :=
  ⟨binding.userId, binding.userId, storageUserId, .generic, none, none, binding.now, binding.now⟩

def Binding.telegramRow (binding : Binding) (storageUserId : String) : IdentityAlias :=
  ⟨binding.telegramAlias, binding.userId, storageUserId, .telegram, some "telegram", some binding.telegramId,
    binding.now, binding.now⟩

def Binding.record (binding : Binding) (storageUserId : String) : IdentityBindingRecord :=
  ⟨binding.userId, binding.telegramAlias, storageUserId, .telegram, "telegram", binding.telegramId, binding.now⟩

/-- The transaction of `bind_telegram_user_id`. -/
def State.bind (s : State) (binding : Binding) (storageUserId : String) : State :=
  { s with
    tables := (s.tables.upsertIdentityAlias (binding.genericRow storageUserId)).upsertIdentityAlias
      (binding.telegramRow storageUserId)
    log := .binding (binding.record storageUserId) :: s.log }

/-- The next statement of a call. -/
def State.perform (s : State) (id : Nat) (now : String) : Phase → State
  | .lookUp upsert => s.goOn id (.lookedUp (s.tables.resolveCustomerId upsert.customerId) upsert)
  | .lookedUp cid upsert =>
    if cid.isEmpty || !s.tables.profileExists cid then s.end id else s.goOn id (.resolve upsert)
  | .resolve upsert =>
    let cid := s.tables.resolveCustomerId upsert.customerId
    if cid.isEmpty then s.end id else s.goOn id (.read cid now upsert)
  | .read cid updatedAt upsert => s.goOn id (.store cid updatedAt (s.tables.fields cid) upsert)
  | .store cid updatedAt existing upsert => (s.store (upsert.row cid updatedAt existing) upsert.updates).end id
  | .userAlias binding => s.goOn id (.telegramAlias binding (s.tables.storage binding.userId))
  | .telegramAlias binding uidStorage =>
    s.goOn id (.userProfile binding uidStorage (s.tables.storage binding.telegramAlias))
  | .userProfile binding uidStorage telegramStorage =>
    s.goOn id (.telegramProfile binding uidStorage telegramStorage (s.tables.profileExists binding.userId))
  | .telegramProfile binding uidStorage telegramStorage uidHasProfile =>
    match selectIdentityStorage binding uidStorage telegramStorage uidHasProfile
        (s.tables.profileExists binding.telegramAlias) with
    | .ok storageUserId => s.goOn id (.bind binding storageUserId)
    | .error _ => s.end id
  | .bind binding storageUserId => (s.bind binding storageUserId).end id

/-- A call begins, issues its next statement, or raises (a busy database, an end of the process). -/
def step (decimal : Char → Option Nat) (s : State) : Event → State
  | .begin id request now =>
    match s.phase id, request.prepare decimal now with
    | none, .ok (some phase) => s.goOn id phase
    | _, _ => s
  | .advance id now =>
    match s.phase id with
    | some phase => s.perform id now phase
    | none => s
  | .fail id => s.end id

end Calls

end OpenTulpa.Context.Profiles
