import Mathlib.Algebra.BigOperators.Group.List.Basic
import Mathlib.Algebra.GroupWithZero.Nat
import Mathlib.Algebra.Order.BigOperators.Group.List
import Mathlib.Data.String.Basic

/-! JSON values, the compact text they are written as, and the bytes that it takes. Objects are lists of fields in
key order. -/

namespace OpenTulpa.Library

/-- A number that is no integer is kept as the text it is written as. -/
inductive Json where
  | null
  | bool (value : Bool)
  | int (value : Int)
  | number (text : String)
  | string (value : String)
  | array (items : List Json)
  | object (fields : List (String × Json))

namespace Json

section Equality

mutual

def same : Json → Json → Bool
  | .null, .null => true
  | .bool first, .bool second => first == second
  | .int first, .int second => first == second
  | .number first, .number second => first == second
  | .string first, .string second => first == second
  | .array first, .array second => sameItems first second
  | .object first, .object second => sameFields first second
  | _, _ => false

def sameItems : List Json → List Json → Bool
  | [], [] => true
  | first :: firsts, second :: seconds => same first second && sameItems firsts seconds
  | _, _ => false

def sameFields : List (String × Json) → List (String × Json) → Bool
  | [], [] => true
  | (key, first) :: firsts, (other, second) :: seconds => key == other && same first second && sameFields firsts seconds
  | _, _ => false

end

mutual

theorem same_self : ∀ json : Json, same json json = true
  | .null => rfl
  | .bool value => by rw [same, beq_self_eq_true]
  | .int value => by rw [same, beq_self_eq_true]
  | .number text => by rw [same, beq_self_eq_true]
  | .string value => by rw [same, beq_self_eq_true]
  | .array items => by rw [same, sameItems_self items]
  | .object fields => by rw [same, sameFields_self fields]

theorem sameItems_self : ∀ items : List Json, sameItems items items = true
  | [] => rfl
  | item :: items => by rw [sameItems, same_self item, sameItems_self items, Bool.and_true]

theorem sameFields_self : ∀ fields : List (String × Json), sameFields fields fields = true
  | [] => rfl
  | (key, json) :: fields => by
    rw [sameFields, same_self json, sameFields_self fields, beq_self_eq_true, Bool.and_true, Bool.and_true]

end

mutual

theorem eq_of_same : ∀ first second : Json, same first second = true → first = second
  | .null, second, equal => by cases second <;> simp_all [same]
  | .bool value, second, equal => by cases second <;> simp_all [same]
  | .int value, second, equal => by cases second <;> simp_all [same]
  | .number text, second, equal => by cases second <;> simp_all [same]
  | .string value, second, equal => by cases second <;> simp_all [same]
  | .array items, second, equal => by
    cases second with
    | array others => exact congrArg Json.array (eq_of_sameItems items others (by simpa only [same] using equal))
    | _ => simp [same] at equal
  | .object fields, second, equal => by
    cases second with
    | object others => exact congrArg Json.object (eq_of_sameFields fields others (by simpa only [same] using equal))
    | _ => simp [same] at equal

theorem eq_of_sameItems : ∀ firsts seconds : List Json, sameItems firsts seconds = true → firsts = seconds
  | [], [], _ => rfl
  | [], _ :: _, equal => by simp [sameItems] at equal
  | _ :: _, [], equal => by simp [sameItems] at equal
  | first :: firsts, second :: seconds, equal => by
    obtain ⟨head, rest⟩ := Bool.and_eq_true_iff.mp (by simpa only [sameItems] using equal)
    rw [eq_of_same first second head, eq_of_sameItems firsts seconds rest]

theorem eq_of_sameFields : ∀ firsts seconds : List (String × Json), sameFields firsts seconds = true → firsts = seconds
  | [], [], _ => rfl
  | [], _ :: _, equal => by simp [sameFields] at equal
  | _ :: _, [], equal => by simp [sameFields] at equal
  | (key, first) :: firsts, (other, second) :: seconds, equal => by
    obtain ⟨head, rest⟩ := Bool.and_eq_true_iff.mp (by simpa only [sameFields] using equal)
    obtain ⟨keys, values⟩ := Bool.and_eq_true_iff.mp head
    rw [eq_of_beq keys, eq_of_same first second values, eq_of_sameFields firsts seconds rest]

end

instance : DecidableEq Json := fun first second =>
  decidable_of_iff (same first second = true) ⟨eq_of_same first second, fun equal => equal ▸ same_self first⟩

end Equality

section Text

def hexDigit (n : Nat) : Char := if n < 10 then Char.ofNat (48 + n) else Char.ofNat (87 + n)

/-- The characters that stand for one inside a string. -/
def escape (c : Char) : List Char :=
  if c = '"' then ['\\', '"']
  else if c = '\\' then ['\\', '\\']
  else if c = '\n' then ['\\', 'n']
  else if c = '\r' then ['\\', 'r']
  else if c = '\t' then ['\\', 't']
  else if c = '\x08' then ['\\', 'b']
  else if c = '\x0c' then ['\\', 'f']
  else if c.toNat < 32 then ['\\', 'u', '0', '0', hexDigit (c.toNat / 16), hexDigit (c.toNat % 16)]
  else [c]

def quoted (value : String) : List Char := '"' :: value.toList.flatMap escape ++ ['"']

mutual

/-- `json.dumps` with compact separators and without escapes beyond ASCII. -/
def dumps : Json → List Char
  | .null => ['n', 'u', 'l', 'l']
  | .bool true => ['t', 'r', 'u', 'e']
  | .bool false => ['f', 'a', 'l', 's', 'e']
  | .int value => (toString value).toList
  | .number text => text.toList
  | .string value => quoted value
  | .array items => '[' :: dumpsItems items ++ [']']
  | .object fields => '\x7b' :: dumpsFields fields ++ ['\x7d']

def dumpsItems : List Json → List Char
  | [] => []
  | [item] => dumps item
  | item :: rest => dumps item ++ ',' :: dumpsItems rest

def dumpsFields : List (String × Json) → List Char
  | [] => []
  | [(key, value)] => quoted key ++ ':' :: dumps value
  | (key, value) :: rest => quoted key ++ ':' :: dumps value ++ ',' :: dumpsFields rest

end

end Text

section Size

/-- The bytes that a text is encoded in. -/
def encodedSize (text : List Char) : Nat := (text.map Char.utf8Size).sum

def byteSize (json : Json) : Nat := encodedSize json.dumps

theorem encodedSize_append (first second : List Char) :
    encodedSize (first ++ second) = encodedSize first + encodedSize second := by
  simp [encodedSize]

theorem encodedSize_cons (c : Char) (text : List Char) : encodedSize (c :: text) = c.utf8Size + encodedSize text := by
  simp [encodedSize]

theorem encodedSize_flatMap_replicate (c : Char) (n : Nat) :
    encodedSize ((List.replicate n c).flatMap escape) = n * encodedSize (escape c) := by
  induction n with
  | zero => simp [encodedSize]
  | succ n ih =>
    rw [List.replicate_succ, List.flatMap_cons, encodedSize_append, ih, Nat.succ_mul, Nat.add_comm]

/-- A string takes at least the bytes of its escaped characters. -/
theorem encodedSize_le_string (value : String) : encodedSize (value.toList.flatMap escape) ≤ byteSize (.string value) := by
  simp only [byteSize, dumps, quoted, encodedSize_append, encodedSize_cons]
  omega

/-- The fields of an object take at least the bytes of the first value and of the other fields. -/
theorem byteSize_add_fields_le (key : String) (value : Json) (rest : List (String × Json)) :
    byteSize value + encodedSize (dumpsFields rest) ≤ encodedSize (dumpsFields ((key, value) :: rest)) := by
  cases rest with
  | nil =>
    simp only [dumpsFields, encodedSize_append, encodedSize_cons, byteSize]
    simp only [encodedSize, List.map_nil, List.sum_nil]
    omega
  | cons next rest =>
    simp only [dumpsFields, encodedSize_append, encodedSize_cons, byteSize]
    omega

theorem byteSize_le_fields {key : String} {value : Json} {fields : List (String × Json)} (member : (key, value) ∈ fields) :
    byteSize value ≤ encodedSize (dumpsFields fields) := by
  induction fields with
  | nil => cases member
  | cons field rest ih =>
    obtain ⟨name, json⟩ := field
    have parts := byteSize_add_fields_le name json rest
    rcases List.mem_cons.mp member with here | later
    · cases here
      omega
    · have inner := ih later
      omega

theorem fields_le_object (fields : List (String × Json)) : encodedSize (dumpsFields fields) ≤ byteSize (.object fields) := by
  simp only [byteSize, dumps, encodedSize_append, encodedSize_cons]
  omega

/-- An object takes at least the bytes of each of its values. -/
theorem byteSize_le_object {key : String} {value : Json} {fields : List (String × Json)} (member : (key, value) ∈ fields) :
    byteSize value ≤ byteSize (.object fields) := (byteSize_le_fields member).trans (fields_le_object fields)

end Size

end Json

end OpenTulpa.Library
