import OpenTulpa.Library.Characters
import OpenTulpa.Library.Text

/-! The writes that the spec stores keep as immutable revisions, and the constrained strings of
the protocol. -/

namespace OpenTulpa.Specs.Models

open Library Text

/-- `ProtocolId`: trimmed, with 1 to 200 characters. -/
def protocolId (value : String) : Option String :=
  let text := trim value
  if text.isEmpty || 200 < text.length then none else some text

def slugChar (c : Char) : Bool := c.isLower || c.isDigit || c == '_' || c == '-'

def isSlug : List Char → Bool
  | [] => false
  | first :: rest => first.isLower && rest.length ≤ 63 && rest.all slugChar

/-- `ProtocolSlug`: trimmed, and of the form `^[a-z][a-z0-9_-]{0,63}$`. -/
def protocolSlug (value : String) : Option String :=
  let text := trim value
  if isSlug text.toList then some text else none

theorem isSpace_of_slugChar {c : Char} (slug : slugChar c = true) : isSpace c = false := by
  have range : (97 ≤ c.toNat ∧ c.toNat ≤ 122) ∨ (48 ≤ c.toNat ∧ c.toNat ≤ 57) ∨ c.toNat = 95 ∨ c.toNat = 45 := by
    simp only [slugChar, Bool.or_eq_true, beq_iff_eq] at slug
    rcases slug with ((lower | digit) | rfl) | rfl
    · left
      exact Characters.isLower_iff.mp lower
    · right; left
      exact Char.isDigit_iff_toNat.mp digit
    · right; right; left; rfl
    · right; right; right; rfl
  simp only [isSpace, Bool.or_eq_false_iff, Bool.and_eq_false_iff, decide_eq_false_iff_not, beq_eq_false_iff_ne]
  omega

theorem protocolId_again {value text : String} (accepted : protocolId value = some text) :
    protocolId text = some text := by
  simp only [protocolId] at accepted ⊢
  split at accepted
  · cases accepted
  · rename_i sized
    cases accepted
    rw [trim_trim, if_neg sized]

theorem protocolSlug_again {value text : String} (accepted : protocolSlug value = some text) :
    protocolSlug text = some text := by
  simp only [protocolSlug] at accepted ⊢
  split at accepted
  · rename_i slug
    cases accepted
    rw [trim_trim, if_pos slug]
  · cases accepted

/-- `SpecIsolation` and `TriggerExposure`. -/
inductive Exposure where
  | privately
  | externally
  deriving DecidableEq

inductive ToolPolicy where
  | profileDefault
  | allowlist
  deriving DecidableEq

inductive MemoryScope where
  | owner
  | spec
  | none
  deriving DecidableEq

inductive WorkspaceScope where
  | readWrite
  | readOnly
  | none
  deriving DecidableEq

structure AgentSpecWrite where
  name : String
  description : String := ""
  runtimeProfile : String := "custom"
  modelAlias : String := "default"
  instructions : String
  isolation : Exposure := .privately
  toolPolicy : ToolPolicy := .allowlist
  tools : List String := []
  memoryScope : MemoryScope := .spec
  workspaceScope : WorkspaceScope := .none
  allowDelegation : Bool := false
  maxRuntimeSeconds : Nat := 900
  maxModelCalls : Nat := 100
  outputSchema : Option JsonObject := none
  labels : JsonObject := []
  deriving DecidableEq

/-- A validated reference: its tenant is already trimmed. -/
structure AgentSpecRef where
  tenantId : String
  specId : String
  revision : Nat
  validTenant : protocolId tenantId = some tenantId
  deriving DecidableEq

inductive EventAuthentication where
  | required
  | trustedInternal
  deriving DecidableEq

inductive TriggerSource where
  | atTrigger (runAt : Int) (timezone : String)
  | cronTrigger (expression timezone : String)
  | intervalTrigger (everySeconds : Nat)
  | eventTrigger (eventType source : String) (authentication : EventAuthentication)
  deriving DecidableEq

inductive DeliveryMode where
  | none
  | origin
  | owner
  deriving DecidableEq

structure DeliverySpec where
  mode : DeliveryMode := .origin
  interface : Option String := none
  deriving DecidableEq

structure TriggerSpecWrite where
  name : String
  source : TriggerSource
  exposure : Exposure
  agentSpec : AgentSpecRef
  instruction : String
  delivery : DeliverySpec := {}
  enabled : Bool := true
  sourceKey : Option String := none
  sourceRevision : Option Nat := none
  labels : JsonObject := []
  deriving DecidableEq

end OpenTulpa.Specs.Models
