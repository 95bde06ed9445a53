import OpenTulpa.Capabilities.Models
import OpenTulpa.Library.Outcome
import OpenTulpa.Library.Rows
import OpenTulpa.Library.Splitting
import OpenTulpa.Library.Tenure

/-! The bearers of capability workers: the store keeps the hash of each with the policy it is bound to, and the
resolver of the public API admits a request under a bearer that stands. -/

namespace OpenTulpa.Capabilities.Credentials

open Library Text Outcome Models Tenure

inductive CapabilityAPIScope where
  | agentRunSubmit
  | agentRunReplay
  | agentRunResume
  | agentRunCancel
  | fileUpload
  | notificationsRead
  | notificationsAck
  deriving DecidableEq

def CapabilityAPIScope.value : CapabilityAPIScope → String
  | .agentRunSubmit => "agent.runs.submit"
  | .agentRunReplay => "agent.runs.replay"
  | .agentRunResume => "agent.runs.resume"
  | .agentRunCancel => "agent.runs.cancel"
  | .fileUpload => "files.upload"
  | .notificationsRead => "notifications.read"
  | .notificationsAck => "notifications.ack"

/-- `CAPABILITY_API_SCOPES` -/
def capabilityApiScopes : List String :=
  [CapabilityAPIScope.agentRunSubmit, .agentRunReplay, .agentRunResume, .agentRunCancel, .fileUpload,
    .notificationsRead, .notificationsAck].map CapabilityAPIScope.value

/-- `_OWNER_ONLY_SCOPES` -/
def ownerOnlyScopes : List String :=
  [CapabilityAPIScope.agentRunResume, .agentRunCancel, .notificationsRead, .notificationsAck].map
    CapabilityAPIScope.value

inductive CredentialError where
  | invalid (label : String)
  | otherTenant
  | invalidScopes
  | restricted
  | integrity
  deriving DecidableEq

def CredentialError.message : CredentialError → String
  | .invalid label => label ++ " is invalid"
  | .otherTenant => "agent binding belongs to a different tenant"
  | .invalidScopes => "capability API scopes are invalid"
  | .restricted => "restricted interfaces cannot receive approval or owner notification scopes"
  | .integrity => "UNIQUE constraint failed"

/-- A row of `capability_api_credentials`. -/
structure CapabilityCredential where
  id : String
  tenantId : String
  actorId : String
  capabilityName : String
  capabilityInstanceId : String
  interface : String
  sourceId : String
  channel : String
  agentBinding : AgentRunBinding
  scopes : List String
  tokenHash : String
  issuedAt : Nat
  revokedAt : Option Nat
  revokedReason : Option String
  deriving DecidableEq

abbrev CredentialTable := List CapabilityCredential

/-- `_identity` -/
def identity (value label : String) : Except CredentialError String :=
  let safe := strip value
  if safe.isEmpty || 200 < safe.length || safe.toList.any fun c => c.toNat < 32 then .error (.invalid label)
  else .ok safe

def lowercase (c : Char) : Bool := 'a' ≤ c && c ≤ 'z'

def digit (c : Char) : Bool := '0' ≤ c && c ≤ '9'

/-- `_SLUG_RE.fullmatch` -/
def isSlug (text : List Char) : Bool :=
  match text with
  | [] => false
  | first :: rest =>
    lowercase first && rest.length ≤ 63 && rest.all fun c => lowercase c || digit c || c == '_' || c == '-'

/-- `_slug` -/
def slug (value label : String) : Except CredentialError String :=
  if isSlug (stripChars value.toList) then .ok (strip value) else .error (.invalid label)

/-- `_scopes` -/
def scopesOf (values : List String) : Except CredentialError (List String) :=
  let scopes := values.map strip
  if scopes.isEmpty || scopes.any fun scope => !capabilityApiScopes.contains scope then .error .invalidScopes
  else .ok scopes

/-- `_validate_binding_scopes` -/
def validateBindingScopes (binding : AgentRunBinding) (scopes : List String) : Except CredentialError Unit :=
  if binding.trustClass != .owner && scopes.any fun scope => ownerOnlyScopes.contains scope then .error .restricted
  else .ok ()

/-- `_TOKEN_RE.fullmatch` -/
def isToken (text : List Char) : Bool :=
  let body := text.drop 6
  "otcap_".toList.isPrefixOf text && 40 ≤ body.length && body.length ≤ 200 &&
    body.all fun c => c.isAlphanum || c == '_' || c == '-'

structure IssueCall where
  tenantId : String
  actorId : String
  capabilityName : String
  capabilityInstanceId : String
  interface : String
  sourceId : String
  channel : String
  agentBinding : AgentRunBinding
  scopes : List String
  deriving DecidableEq

/-- The id and the bearer that `issue` draws. -/
structure Drawn where
  id : String
  token : String
  deriving DecidableEq

def CapabilityCredential.standing (row : CapabilityCredential) : Bool := row.revokedAt.isNone

def CapabilityCredential.instanceKey (row : CapabilityCredential) : String × String :=
  (row.tenantId, row.capabilityInstanceId)

/-- `UPDATE … SET revoked_at, revoked_reason WHERE chosen AND revoked_at IS NULL` -/
def retire (chosen : CapabilityCredential → Bool) (reason : String) (now : Nat) (table : CredentialTable) :
    CredentialTable :=
  Rows.update (fun row => chosen row && row.standing)
    (fun row => { row with revokedAt := some now, revokedReason := some reason }) table

/-- The instance of the credential gets a new bearer. -/
def rotate (credential : CapabilityCredential) (now : Nat) (table : CredentialTable) : CredentialTable :=
  retire (fun row => row.instanceKey == credential.instanceKey) "rotated" now table

/-- `str(reason or default).strip()[:200]` -/
def safeReason (reason default : String) : String :=
  String.ofList ((strip (if reason.isEmpty then default else reason)).toList.take 200)

section Store

variable (hash : String → String)

/-- The checks of `issue`, and the row that it inserts. -/
def credentialOf (call : IssueCall) (drawn : Drawn) (now : Nat) : Except CredentialError CapabilityCredential := do
  let tenant ← identity call.tenantId "tenant_id"
  let actor ← identity call.actorId "actor_id"
  let instanceId ← identity call.capabilityInstanceId "capability_instance_id"
  let source ← identity call.sourceId "source_id"
  let capability ← slug call.capabilityName "capability_name"
  let interface ← slug call.interface "interface"
  let channel ← slug call.channel "channel"
  if call.agentBinding.agentSpec.tenantId ≠ tenant then throw .otherTenant
  let scopes ← scopesOf call.scopes
  validateBindingScopes call.agentBinding scopes
  return ⟨drawn.id, tenant, actor, capability, instanceId, interface, source, channel, call.agentBinding, scopes,
    hash drawn.token, now, none, none⟩

/-- `issue`, under the primary key, the unique hash and the index of the standing rows. -/
def issue (table : CredentialTable) (call : IssueCall) (drawn : Drawn) (now : Nat) :
    Except CredentialError (CredentialTable × CapabilityCredential) := do
  let credential ← credentialOf hash call drawn now
  let rotated := rotate credential now table
  if rotated.any fun row => row.id == credential.id || row.tokenHash == credential.tokenHash ||
      (row.standing && row.instanceKey == credential.instanceKey) then
    throw .integrity
  return (rotated ++ [credential], credential)

def authenticate (table : CredentialTable) (token : String) : Option CapabilityCredential :=
  if isToken (stripChars token.toList) then
    table.find? fun row => row.tokenHash == hash (strip token) && row.standing
  else none

def revokeInstance (table : CredentialTable) (tenantId instanceId reason : String) (now : Nat) :
    Except CredentialError (CredentialTable × Nat) := do
  let tenant ← identity tenantId "tenant_id"
  let target ← identity instanceId "capability_instance_id"
  return (retire (fun row => row.instanceKey == (tenant, target)) (safeReason reason "generation_stopped") now table,
    table.countP fun row => row.instanceKey == (tenant, target) && row.standing)

def revoke (table : CredentialTable) (tenantId credentialId reason : String) (now : Nat) :
    Except CredentialError (CredentialTable × Bool) := do
  let tenant ← identity tenantId "tenant_id"
  let target ← identity credentialId "credential_id"
  return (retire (fun row => row.tenantId == tenant && row.id == target) (safeReason reason "revoked") now table,
    (table.countP fun row => (row.tenantId == tenant && row.id == target) && row.standing) == 1)

inductive Op where
  | issue (call : IssueCall) (drawn : Drawn) (now : Nat)
  | revokeInstance (tenantId instanceId reason : String) (now : Nat)
  | revoke (tenantId credentialId reason : String) (now : Nat)

def step (table : CredentialTable) : Op → CredentialTable
  | .issue call drawn now => committed table (issue hash table call drawn now)
  | .revokeInstance tenantId instanceId reason now =>
    committed table (revokeInstance table tenantId instanceId reason now)
  | .revoke tenantId credentialId reason now => committed table (revoke table tenantId credentialId reason now)

end Store

section Standing

variable {hash : String → String} {table stored : CredentialTable} {row credential : CapabilityCredential}

def Standing (table : CredentialTable) (credential : CapabilityCredential) : Prop :=
  credential ∈ table ∧ credential.standing = true

/-- The credential has just been issued. -/
def Gives (hash : String → String) (table : CredentialTable) (op : Op) (credential : CapabilityCredential) : Prop :=
  ∃ call drawn now stored, op = .issue call drawn now ∧ issue hash table call drawn now = .ok (stored, credential)

/-- Another one is issued for the instance, or the instance or the credential is revoked. -/
def Ends (hash : String → String) (table : CredentialTable) : Op → CapabilityCredential → Prop
  | .issue call drawn now, credential =>
    ∃ stored other, issue hash table call drawn now = .ok (stored, other) ∧ other.instanceKey = credential.instanceKey
  | .revokeInstance tenantId instanceId _ _, credential =>
    identity tenantId "tenant_id" = .ok credential.tenantId ∧
      identity instanceId "capability_instance_id" = .ok credential.capabilityInstanceId
  | .revoke tenantId credentialId _ _, credential =>
    identity tenantId "tenant_id" = .ok credential.tenantId ∧ identity credentialId "credential_id" = .ok credential.id

theorem standing_retire {chosen : CapabilityCredential → Bool} {reason : String} {now : Nat} :
    Standing (retire chosen reason now table) row ↔ Standing table row ∧ chosen row = false := by
  rw [Standing, Standing, retire, Rows.mem_update]
  constructor
  · rintro ⟨⟨old, _, _, rfl⟩ | ⟨member, missed⟩, standing⟩
    · cases standing
    · rw [standing, Bool.and_true] at missed
      exact ⟨⟨member, standing⟩, missed⟩
  · rintro ⟨⟨member, standing⟩, missed⟩
    exact ⟨Or.inr ⟨member, by rw [missed]; rfl⟩, standing⟩

theorem map_retire {κ : Type*} (key : CapabilityCredential → κ) (chosen : CapabilityCredential → Bool)
    (reason : String) (now : Nat) (table : CredentialTable)
    (kept : ∀ row : CapabilityCredential,
      key { row with revokedAt := some now, revokedReason := some reason } = key row) :
    (retire chosen reason now table).map key = table.map key :=
  Rows.map_update key (fun row _ => kept row) table

theorem rotate_hashes (credential : CapabilityCredential) (now : Nat) (table : CredentialTable) :
    (rotate credential now table).map CapabilityCredential.tokenHash = table.map CapabilityCredential.tokenHash :=
  map_retire _ _ _ _ _ fun _ => rfl

/-- A row that `issue` inserts stands, within the scopes of the API and of its trust. -/
structure Permitted (credential : CapabilityCredential) : Prop where
  known : ∀ scope ∈ credential.scopes, scope ∈ capabilityApiScopes
  restricted : credential.agentBinding.trustClass ≠ .owner → ∀ scope ∈ credential.scopes, scope ∉ ownerOnlyScopes

theorem scopesOf_spec {values scopes : List String} (done : scopesOf values = .ok scopes) :
    ∀ scope ∈ scopes, scope ∈ capabilityApiScopes := by
  rw [scopesOf] at done
  split at done
  · cases done
  · rename_i allowed
    cases done
    intro scope member
    by_contra strange
    refine allowed ?_
    rw [Bool.or_eq_true]
    exact Or.inr (List.any_eq_true.mpr ⟨scope, member, by simpa using strange⟩)

theorem validateBindingScopes_spec {binding : AgentRunBinding} {scopes : List String}
    (done : validateBindingScopes binding scopes = .ok ()) (restricted : binding.trustClass ≠ .owner) :
    ∀ scope ∈ scopes, scope ∉ ownerOnlyScopes := by
  intro scope member owned
  rw [validateBindingScopes, if_pos] at done
  · cases done
  · rw [Bool.and_eq_true]
    exact ⟨by simpa using restricted, List.any_eq_true.mpr ⟨scope, member, by simpa using owned⟩⟩

theorem credentialOf_spec {call : IssueCall} {drawn : Drawn} {now : Nat}
    (done : credentialOf hash call drawn now = .ok credential) : credential.standing = true ∧ Permitted credential := by
  obtain ⟨tenant, _, done⟩ := bind_eq_ok done
  obtain ⟨actor, _, done⟩ := bind_eq_ok done
  obtain ⟨target, _, done⟩ := bind_eq_ok done
  obtain ⟨source, _, done⟩ := bind_eq_ok done
  obtain ⟨capability, _, done⟩ := bind_eq_ok done
  obtain ⟨interface, _, done⟩ := bind_eq_ok done
  obtain ⟨channel, _, done⟩ := bind_eq_ok done
  split at done
  · cases done
  · obtain ⟨scopes, cleaned, done⟩ := bind_eq_ok done
    obtain ⟨_, valid, done⟩ := bind_eq_ok done
    cases done
    exact ⟨rfl, scopesOf_spec cleaned, validateBindingScopes_spec valid⟩

/-- What an issue that succeeds has done. -/
structure Issued (table : CredentialTable) (now : Nat) (stored : CredentialTable) (credential : CapabilityCredential) :
    Prop where
  stored : stored = rotate credential now table ++ [credential]
  standing : credential.standing = true
  permitted : Permitted credential
  fresh : credential.tokenHash ∉ table.map CapabilityCredential.tokenHash

theorem issue_spec {call : IssueCall} {drawn : Drawn} {now : Nat}
    (done : issue hash table call drawn now = .ok (stored, credential)) : Issued table now stored credential := by
  obtain ⟨built, checked, rest⟩ := bind_eq_ok done
  dsimp only at rest
  split at rest
  · cases rest
  · rename_i free
    cases rest
    obtain ⟨standing, permitted⟩ := credentialOf_spec checked
    refine ⟨rfl, standing, permitted, fun taken => free ?_⟩
    rw [← rotate_hashes credential now] at taken
    obtain ⟨row, member, same⟩ := List.mem_map.mp taken
    exact List.any_eq_true.mpr ⟨row, member, by simp [same]⟩

theorem committed_of_ok {result : Except CredentialError (CredentialTable × CapabilityCredential)}
    (done : result = .ok (stored, credential)) : committed table result = stored := by
  rw [done]
  rfl

theorem standing_issue {call : IssueCall} {drawn : Drawn} {now : Nat} :
    Standing (step hash table (.issue call drawn now)) row ↔
      Gives hash table (.issue call drawn now) row ∨
        (Standing table row ∧ ¬ Ends hash table (.issue call drawn now) row) := by
  rw [step]
  cases done : issue hash table call drawn now with
  | error error =>
    rw [committed_error]
    constructor
    · intro standing
      refine Or.inr ⟨standing, ?_⟩
      rintro ⟨stored, other, issued, _⟩
      rw [done] at issued
      cases issued
    · rintro (⟨_, _, _, stored, same, issued⟩ | ⟨standing, _⟩)
      · cases same
        rw [done] at issued
        cases issued
      · exact standing
  | ok pair =>
    obtain ⟨stored, credential⟩ := pair
    have issued := issue_spec done
    rw [committed_ok, issued.stored]
    constructor
    · rintro ⟨member, standing⟩
      rcases List.mem_append.mp member with old | new
      · obtain ⟨before, apart⟩ := standing_retire.mp ⟨old, standing⟩
        refine Or.inr ⟨before, ?_⟩
        rintro ⟨_, other, again, same⟩
        rw [done] at again
        cases again
        simp [same] at apart
      · obtain rfl := List.mem_singleton.mp new
        exact Or.inl ⟨call, drawn, now, stored, rfl, done⟩
    · rintro (⟨_, _, _, again, same, given⟩ | ⟨standing, kept⟩)
      · cases same
        rw [done] at given
        cases given
        exact ⟨List.mem_append_right _ (List.mem_singleton.mpr rfl), issued.standing⟩
      · have apart : (row.instanceKey == credential.instanceKey) = false := by
          by_contra same
          exact kept ⟨stored, credential, done, (eq_of_beq (by simpa using same)).symm⟩
        have stays : Standing (rotate credential now table) row := standing_retire.mpr ⟨standing, apart⟩
        exact ⟨List.mem_append_left _ stays.1, stays.2⟩

/-- A credential stands after a call if the call gives it, or it stood and the call does not end it. -/
theorem standing_step (table : CredentialTable) (op : Op) (row : CapabilityCredential) :
    Standing (step hash table op) row ↔ Gives hash table op row ∨ (Standing table row ∧ ¬ Ends hash table op row) := by
  cases op with
  | issue call drawn now => exact standing_issue
  | revokeInstance tenantId instanceId reason now =>
    have none : ¬ Gives hash table (.revokeInstance tenantId instanceId reason now) row := by
      rintro ⟨_, _, _, _, same, _⟩
      cases same
    rw [or_iff_right none, step, revokeInstance, Ends]
    cases first : identity tenantId "tenant_id" with
    | error error => simp
    | ok tenant =>
      cases second : identity instanceId "capability_instance_id" with
      | error error => simp
      | ok target =>
        simp only [ok_bind, pure_eq_ok, committed_ok, standing_retire, CapabilityCredential.instanceKey,
          beq_eq_false_iff_ne, ne_eq, Prod.mk.injEq, Except.ok.injEq]
        rw [@eq_comm _ tenant, @eq_comm _ target]
  | revoke tenantId credentialId reason now =>
    have none : ¬ Gives hash table (.revoke tenantId credentialId reason now) row := by
      rintro ⟨_, _, _, _, same, _⟩
      cases same
    rw [or_iff_right none, step, revoke, Ends]
    cases first : identity tenantId "tenant_id" with
    | error error => simp
    | ok tenant =>
      cases second : identity credentialId "credential_id" with
      | error error => simp
      | ok target =>
        simp only [ok_bind, pure_eq_ok, committed_ok, standing_retire, Bool.and_eq_false_iff, beq_eq_false_iff_ne,
          ne_eq, Except.ok.injEq, not_and_or]
        rw [@eq_comm _ tenant, @eq_comm _ target]

end Standing

section Bearers

variable {hash : String → String} {table : CredentialTable}

/-- Hashes are unique, one row at most stands for an instance, and every row is permitted. -/
structure Sound (table : CredentialTable) : Prop where
  hashes : (table.map CapabilityCredential.tokenHash).Nodup
  single : ∀ first second, Standing table first → Standing table second → first.instanceKey = second.instanceKey →
    first = second
  permitted : ∀ row ∈ table, Permitted row

theorem Sound.retire (sound : Sound table) (chosen : CapabilityCredential → Bool) (reason : String) (now : Nat) :
    Sound (retire chosen reason now table) where
  hashes := by
    rw [map_retire _ _ _ _ _ fun _ => rfl]
    exact sound.hashes
  single first second left right same :=
    sound.single first second (standing_retire.mp left).1 (standing_retire.mp right).1 same
  permitted row member := by
    rcases Rows.mem_update.mp member with ⟨old, inside, _, rfl⟩ | ⟨inside, _⟩
    · exact ⟨(sound.permitted old inside).known, (sound.permitted old inside).restricted⟩
    · exact sound.permitted row inside

theorem Sound.issue (sound : Sound table) {stored : CredentialTable} {credential : CapabilityCredential} {now : Nat}
    (issued : Issued table now stored credential) : Sound stored := by
  have rest : Sound (rotate credential now table) := sound.retire _ _ now
  -- what is left to stand belongs to other instances
  have apart : ∀ row, Standing (rotate credential now table) row → row.instanceKey ≠ credential.instanceKey :=
    fun row stands => by simpa using (standing_retire.mp stands).2
  have cases_of : ∀ row, Standing (rotate credential now table ++ [credential]) row → row = credential ∨
      Standing (rotate credential now table) row := by
    rintro row ⟨member, stands⟩
    rcases List.mem_append.mp member with old | new
    · exact Or.inr ⟨old, stands⟩
    · exact Or.inl (List.mem_singleton.mp new)
  rw [issued.stored]
  constructor
  case hashes =>
    rw [List.map_append, rotate_hashes]
    refine List.nodup_append.mpr ⟨sound.hashes, List.nodup_singleton _, ?_⟩
    intro first known second last equal
    rw [List.map_singleton, List.mem_singleton] at last
    exact issued.fresh (last ▸ equal ▸ known)
  case single =>
    intro first second left right same
    rcases cases_of first left with rfl | one
    · rcases cases_of second right with rfl | two
      · rfl
      · exact absurd same.symm (apart second two)
    · rcases cases_of second right with rfl | two
      · exact absurd same (apart first one)
      · exact rest.single first second one two same
  case permitted =>
    intro row member
    rcases List.mem_append.mp member with old | new
    · exact rest.permitted row old
    · rw [List.mem_singleton.mp new]
      exact issued.permitted

theorem step_sound (table : CredentialTable) (op : Op) (sound : Sound table) : Sound (step hash table op) := by
  cases op with
  | issue call drawn now =>
    rw [step]
    cases done : issue hash table call drawn now with
    | error error => exact sound
    | ok pair => exact sound.issue (issue_spec done)
  | revokeInstance tenantId instanceId reason now =>
    rw [step, revokeInstance]
    cases identity tenantId "tenant_id" with
    | error error => exact sound
    | ok tenant =>
      cases identity instanceId "capability_instance_id" with
      | error error => exact sound
      | ok target => exact sound.retire _ _ now
  | revoke tenantId credentialId reason now =>
    rw [step, revoke]
    cases identity tenantId "tenant_id" with
    | error error => exact sound
    | ok tenant =>
      cases identity credentialId "credential_id" with
      | error error => exact sound
      | ok target => exact sound.retire _ _ now

theorem run_sound (ops : List Op) : Sound (Run.exec (step hash) [] ops) := by
  have empty : Sound [] :=
    ⟨List.nodup_nil, fun _ _ left => absurd left.1 List.not_mem_nil, fun _ member => absurd member List.not_mem_nil⟩
  exact Run.exec_invariant step_sound empty ops

theorem authenticate_eq_some (sound : Sound table) {token : String} {credential : CapabilityCredential} :
    authenticate hash table token = some credential ↔
      isToken (stripChars token.toList) = true ∧ credential.tokenHash = hash (strip token) ∧
        Standing table credential := by
  rw [authenticate]
  split
  · rename_i shaped
    constructor
    · intro found
      have shown := List.find?_some found
      simp only [Bool.and_eq_true, beq_iff_eq] at shown
      exact ⟨shaped, shown.1, List.mem_of_find?_eq_some found, shown.2⟩
    · rintro ⟨_, own, member, stands⟩
      cases found : table.find? fun row => row.tokenHash == hash (strip token) && row.standing with
      | none =>
        have missed := List.find?_eq_none.mp found credential member
        simp [own, stands] at missed
      | some other =>
        have shown := List.find?_some found
        simp only [Bool.and_eq_true, beq_iff_eq] at shown
        have same := List.inj_on_of_nodup_map sound.hashes (List.mem_of_find?_eq_some found) member
          (shown.1.trans own.symm)
        rw [same]
  · rename_i shapeless
    constructor
    · intro found
      cases found
    · rintro ⟨shaped, _⟩
      exact absurd shaped shapeless

theorem standing_iff (ops : List Op) (credential : CapabilityCredential) :
    Standing (Run.exec (step hash) [] ops) credential ↔
      Tenured (step hash) (Gives hash) (Ends hash) [] ops credential := by
  have nothing : ∀ row, ¬ Standing [] row := fun row standing => List.not_mem_nil standing.1
  have steps : ∀ table op row, Standing (step hash table op) row ↔
      Gives hash table op row ∨ (Standing table row ∧ ¬ Ends hash table op row) := standing_step
  exact holds_iff steps nothing ops credential

/-- A bearer is accepted if and only if it is the one of a credential that was issued and whose instance has since got
no other and has not been revoked, nor the credential. -/
theorem authenticate_iff (hash : String → String) (ops : List Op) (token : String) (credential : CapabilityCredential) :
    authenticate hash (Run.exec (step hash) [] ops) token = some credential ↔
      isToken (stripChars token.toList) = true ∧ credential.tokenHash = hash (strip token) ∧
        Tenured (step hash) (Gives hash) (Ends hash) [] ops credential := by
  rw [authenticate_eq_some (run_sound ops), standing_iff]

end Bearers

section Resolver

/-- A piece of a path between slashes: one that is given, any, or a positive number. -/
inductive Segment where
  | literal (text : String)
  | any
  | number
  deriving DecidableEq

def Segment.accepts : Segment → List Char → Bool
  | .literal text, piece => piece == text.toList
  | .any, piece => !piece.isEmpty
  | .number, [] => false
  | .number, first :: rest => '1' ≤ first && first ≤ '9' && rest.all digit

def fits : List Segment → List (List Char) → Bool
  | [], [] => true
  | segment :: segments, piece :: pieces => segment.accepts piece && fits segments pieces
  | _, _ => false

structure Route where
  method : String
  pattern : List Segment
  scope : CapabilityAPIScope
  deriving DecidableEq

/-- `_CAPABILITY_ROUTE_SCOPES` -/
def capabilityRouteScopes : List Route := [
  ⟨"POST", [.literal "v2", .literal "agent", .literal "runs"], .agentRunSubmit⟩,
  ⟨"PUT", [.literal "v2", .literal "agent", .literal "threads", .any], .agentRunSubmit⟩,
  ⟨"GET", [.literal "v2", .literal "agent", .literal "runs", .any], .agentRunReplay⟩,
  ⟨"GET", [.literal "v2", .literal "agent", .literal "runs", .any, .literal "events"], .agentRunReplay⟩,
  ⟨"POST", [.literal "v2", .literal "agent", .literal "runs", .any, .literal "resume"], .agentRunResume⟩,
  ⟨"POST", [.literal "v2", .literal "agent", .literal "runs", .any, .literal "cancel"], .agentRunCancel⟩,
  ⟨"POST", [.literal "v2", .literal "agent", .literal "threads", .any, .literal "cancel"], .agentRunCancel⟩,
  ⟨"GET", [.literal "v2", .literal "inference"], .agentRunReplay⟩,
  ⟨"GET", [.literal "v2", .literal "inference", .literal "models"], .agentRunReplay⟩,
  ⟨"GET", [.literal "v2", .literal "inference", .literal "selection"], .agentRunReplay⟩,
  ⟨"PATCH", [.literal "v2", .literal "inference", .literal "selection"], .agentRunSubmit⟩,
  ⟨"POST", [.literal "v2", .literal "inference", .literal "codex", .literal "device-logins"], .agentRunSubmit⟩,
  ⟨"GET", [.literal "v2", .literal "inference", .literal "codex", .literal "device-logins", .any], .agentRunReplay⟩,
  ⟨"GET", [.literal "v2", .literal "agent", .literal "threads", .any, .literal "inference"], .agentRunReplay⟩,
  ⟨"PATCH", [.literal "v2", .literal "agent", .literal "threads", .any, .literal "inference"], .agentRunSubmit⟩,
  ⟨"POST", [.literal "v2", .literal "files"], .fileUpload⟩,
  ⟨"GET", [.literal "v2", .literal "notifications"], .notificationsRead⟩,
  ⟨"POST", [.literal "v2", .literal "notifications", .number, .literal "ack"], .notificationsAck⟩]

def Route.fits (route : Route) (path : String) : Bool :=
  match Splitting.split ['/'] path.toList with
  | [] :: pieces => Credentials.fits route.pattern pieces
  | _ => false

/-- A request as the resolver reads it; the methods are ASCII. -/
structure Request where
  method : String
  path : String
  authorization : String
  conversationId : String
  messageId : String
  deriving DecidableEq

/-- `_required_capability_scope` -/
def requiredCapabilityScope (method path : String) : Option CapabilityAPIScope :=
  (capabilityRouteScopes.find? fun route =>
    method.toList.map Char.toUpper == route.method.toList && route.fits path).map Route.scope

/-- `_bearer_token` -/
def bearerToken (request : Request) : String :=
  let header := stripChars request.authorization.toList
  let scheme := header.takeWhile fun c => c != ' '
  if scheme.map Char.toLower == "bearer".toList then strip (String.ofList (header.drop (scheme.length + 1))) else ""

inductive HTTPError where
  | unauthorized
  | forbidden
  | badOrigin
  | ownerUnconfigured
  | incomparable
  | tenantUnconfigured
  deriving DecidableEq

def HTTPError.statusCode : HTTPError → Nat
  | .unauthorized => 401
  | .forbidden => 403
  | .badOrigin => 400
  | .ownerUnconfigured | .tenantUnconfigured => 503
  | .incomparable => 500

def HTTPError.detail : HTTPError → String
  | .unauthorized => "unauthorized"
  | .forbidden => "credential scope does not allow this operation"
  | .badOrigin => "invalid interface origin metadata"
  | .ownerUnconfigured => "OPENTULPA_OWNER_TOKEN is not configured"
  | .tenantUnconfigured => "deployment owner tenant is not configured"
  | .incomparable => "Internal Server Error"

/-- `_origin_header` -/
def originHeader (value : String) : Except HTTPError (Option String) :=
  let text := strip value
  if text.isEmpty then .ok none
  else if 200 < text.length || text.toList.any fun c => c.toNat < 32 then .error .badOrigin
  else .ok (some text)

structure AuthenticatedPrincipal where
  tenantId : String
  actorId : String
  interface : String
  sourceId : String
  channel : String
  trustClass : TrustClass
  scopes : List String
  agentBinding : Option AgentRunBinding
  conversationId : Option String
  messageId : Option String
  deriving DecidableEq

/-- `CapabilityPrincipalResolver` -/
def resolveCapability (hash : String → String) (table : CredentialTable) (request : Request) :
    Except HTTPError AuthenticatedPrincipal :=
  match authenticate hash table (bearerToken request) with
  | none => .error .unauthorized
  | some credential =>
    match requiredCapabilityScope request.method request.path with
    | none => .error .forbidden
    | some scope =>
      if credential.scopes.contains scope.value then do
        let conversationId ← originHeader request.conversationId
        let messageId ← originHeader request.messageId
        return ⟨credential.tenantId, credential.actorId, credential.interface, credential.sourceId, credential.channel,
          credential.agentBinding.trustClass, credential.scopes, some credential.agentBinding, conversationId,
          messageId⟩
      else .error .forbidden

/-- The owner of the deployment, as the settings name it. -/
structure OwnerSettings where
  token : String
  tenantId : String
  actorId : String

def ascii (text : String) : Bool := text.toList.all fun c => c.toNat < 128

/-- `OwnerPrincipalResolver`; `compare_digest` raises on strings that are not ASCII. -/
def resolveOwner (settings : OwnerSettings) (request : Request) : Except HTTPError AuthenticatedPrincipal :=
  if (strip settings.token).isEmpty then .error .ownerUnconfigured
  else if !(bearerToken request).isEmpty && !(ascii (bearerToken request) && ascii (strip settings.token)) then
    .error .incomparable
  else if bearerToken request ≠ strip settings.token then .error .unauthorized
  else if (strip settings.tenantId).isEmpty then .error .tenantUnconfigured
  else .ok ⟨strip settings.tenantId,
    if (strip settings.actorId).isEmpty then "web-owner" else strip settings.actorId, "web", "owner-web", "web", .owner,
    ["*"], none, none, none⟩

/-- `OwnerOrCapabilityPrincipalResolver` -/
def resolve (hash : String → String) (settings : OwnerSettings) (table : CredentialTable) (request : Request) :
    Except HTTPError AuthenticatedPrincipal :=
  if "otcap_".toList.isPrefixOf (bearerToken request).toList then resolveCapability hash table request
  else resolveOwner settings request

theorem resolveCapability_spec {hash : String → String} {table : CredentialTable} {request : Request}
    {principal : AuthenticatedPrincipal} (done : resolveCapability hash table request = .ok principal) :
    ∃ credential scope, authenticate hash table (bearerToken request) = some credential ∧
      requiredCapabilityScope request.method request.path = some scope ∧ scope.value ∈ credential.scopes ∧
        principal.tenantId = credential.tenantId ∧ principal.actorId = credential.actorId ∧
          principal.agentBinding = some credential.agentBinding ∧
            principal.trustClass = credential.agentBinding.trustClass := by
  rw [resolveCapability] at done
  split at done
  · cases done
  · rename_i credential accepted
    split at done
    · cases done
    · rename_i scope required
      split at done
      · rename_i granted
        obtain ⟨conversationId, _, done⟩ := bind_eq_ok done
        obtain ⟨messageId, _, done⟩ := bind_eq_ok done
        cases done
        exact ⟨credential, scope, accepted, required, by simpa using granted, rfl, rfl, rfl, rfl⟩
      · cases done

theorem resolveOwner_spec {settings : OwnerSettings} {request : Request} {principal : AuthenticatedPrincipal}
    (done : resolveOwner settings request = .ok principal) :
    bearerToken request = strip settings.token ∧ strip settings.token ≠ "" ∧
      principal.tenantId = strip settings.tenantId := by
  rw [resolveOwner] at done
  split at done
  · cases done
  · rename_i configured
    split at done
    · cases done
    · split at done
      · cases done
      · rename_i same
        split at done
        · cases done
        · cases done
          exact ⟨not_not.mp same, by simpa using configured, rfl⟩

/-- Whatever was issued and revoked before: who is admitted gives the token of the owner, or the bearer of a credential
that stands, which grants the scope of the route. The principal is then bound as the credential is; and unless it acts
for the owner, the route is none of those that resume or cancel runs or handle the owner's notifications. -/
theorem admitted_spec (hash : String → String) (settings : OwnerSettings) (ops : List Op) (request : Request)
    (principal : AuthenticatedPrincipal)
    (admitted : resolve hash settings (Run.exec (step hash) [] ops) request = .ok principal) :
    (bearerToken request = strip settings.token ∧ strip settings.token ≠ "" ∧
      principal.tenantId = strip settings.tenantId) ∨
    ∃ credential scope, credential.tokenHash = hash (strip (bearerToken request)) ∧
      Tenured (step hash) (Gives hash) (Ends hash) [] ops credential ∧
      requiredCapabilityScope request.method request.path = some scope ∧ scope.value ∈ credential.scopes ∧
      (principal.trustClass ≠ .owner → scope.value ∉ ownerOnlyScopes) ∧
      principal.tenantId = credential.tenantId ∧ principal.actorId = credential.actorId ∧
      principal.agentBinding = some credential.agentBinding := by
  rw [resolve] at admitted
  split at admitted
  · right
    obtain ⟨credential, scope, accepted, required, granted, tenant, actor, binding, trust⟩ :=
      resolveCapability_spec admitted
    have sound : Sound (Run.exec (step hash) [] ops) := run_sound ops
    obtain ⟨_, own, standing⟩ := (authenticate_eq_some sound).mp accepted
    refine ⟨credential, scope, own, (standing_iff ops credential).mp standing, required, granted, fun other => ?_,
      tenant, actor, binding⟩
    rw [trust] at other
    exact (sound.permitted credential standing.1).restricted other _ granted
  · left
    exact resolveOwner_spec admitted

/-- A bearer of an interface that acts for the public. -/
def sampleToken : String := String.ofList ("otcap_".toList ++ List.replicate 48 'a')

def sampleCall : IssueCall :=
  ⟨"tenant", "capability:i1", "web", "i1", "web", "i1", "web", ⟨⟨"tenant", "spec", 1⟩, "interactive", .external⟩,
    ["agent.runs.submit"]⟩

def sampleRequest : Request := ⟨"POST", "/v2/agent/runs", "Bearer " ++ sampleToken, "c1", ""⟩

def samplePrincipal : AuthenticatedPrincipal :=
  ⟨"tenant", "capability:i1", "web", "i1", "web", .external, ["agent.runs.submit"],
    some ⟨⟨"tenant", "spec", 1⟩, "interactive", .external⟩, some "c1", none⟩

theorem admitted_spec_sample :
    (bearerToken sampleRequest = strip "owner" ∧ strip "owner" ≠ "" ∧ samplePrincipal.tenantId = strip "tenant") ∨
    ∃ credential scope, credential.tokenHash = id (strip (bearerToken sampleRequest)) ∧
      Tenured (step id) (Gives id) (Ends id) [] [.issue sampleCall ⟨"capcred_1", sampleToken⟩ 1] credential ∧
      requiredCapabilityScope sampleRequest.method sampleRequest.path = some scope ∧ scope.value ∈ credential.scopes ∧
      (samplePrincipal.trustClass ≠ .owner → scope.value ∉ ownerOnlyScopes) ∧
      samplePrincipal.tenantId = credential.tenantId ∧ samplePrincipal.actorId = credential.actorId ∧
      samplePrincipal.agentBinding = some credential.agentBinding :=
  admitted_spec id ⟨"owner", "tenant", ""⟩ [.issue sampleCall ⟨"capcred_1", sampleToken⟩ 1] sampleRequest
    samplePrincipal (by decide +kernel)

end Resolver

end OpenTulpa.Capabilities.Credentials
