import Mathlib.Data.List.Sort
import Mathlib.Data.String.Basic
import OpenTulpa.Library.Masking

/-! The redaction of log and event payloads by the vault. Secrets are replaced in the string values of a payload; the
keys of its mappings are copied. -/

namespace OpenTulpa.Secrets.PayloadRedaction

open Library.Masking

section Model

/-- A nested payload. A key is the text that `str` makes of it, so that two keys of a mapping may have one text. -/
inductive Payload (τ : Type) where
  | text (value : τ)
  | mapping (entries : List (τ × Payload τ))
  | tuple (items : List (Payload τ))
  | list (items : List (Payload τ))
  | other (shown : String)

def marker : List Char := "[redacted]".toList

/-- `sorted(values, key=len, reverse=True)` -/
def sortedValues (values : List String) : List (List Char) :=
  (values.map String.toList).insertionSort fun first second => second.length ≤ first.length

def redactText (values : List String) (text : String) : String :=
  String.ofList (mask id (sortedValues values) marker text.toList)

section Dictionary

variable {α : Type}

/-- `dict[key] = value` -/
def assign (key : String) (value : α) : List (String × α) → List (String × α)
  | [] => [(key, value)]
  | (other, held) :: rest => if key = other then (key, value) :: rest else (other, held) :: assign key value rest

def dictOf (filled pairs : List (String × α)) : List (String × α) :=
  pairs.foldl (fun filled pair => assign pair.1 pair.2 filled) filled

end Dictionary

variable {τ : Type} (text key : String → τ)

mutual

/-- The recursion over a payload, for what becomes of a text and of a key. -/
def redactWith : Payload String → Payload τ
  | .text value => .text (text value)
  | .mapping entries => .mapping ((dictOf [] (redactEntries entries)).map fun entry => (key entry.1, entry.2))
  | .tuple items => .tuple (redactItems items)
  | .list items => .list (redactItems items)
  | .other shown => .other shown

def redactEntries : List (String × Payload String) → List (String × Payload τ)
  | [] => []
  | (name, item) :: rest => (name, redactWith item) :: redactEntries rest

def redactItems : List (Payload String) → List (Payload τ)
  | [] => []
  | item :: rest => redactWith item :: redactItems rest

end

def redactPayload (values : List String) : Payload String → Payload String := redactWith (redactText values) id

end Model

section Trace

/-- A redacted text with the characters of the markers flagged. -/
def trace (values : List String) (text : String) : List (Char × Bool) :=
  mask Prod.fst (sortedValues values) (put marker) (kept text.toList)

/-- The redacted payload with the characters of the markers flagged. -/
def tracePayload (values : List String) : Payload String → Payload (List (Char × Bool)) :=
  redactWith (trace values) fun key => kept key.toList

def erase (cells : List (Char × Bool)) : String := String.ofList (cells.map Prod.fst)

variable {σ τ : Type}

mutual

def Payload.map (f : σ → τ) : Payload σ → Payload τ
  | .text value => .text (f value)
  | .mapping entries => .mapping (mapEntries f entries)
  | .tuple items => .tuple (mapItems f items)
  | .list items => .list (mapItems f items)
  | .other shown => .other shown

def mapEntries (f : σ → τ) : List (σ × Payload σ) → List (τ × Payload τ)
  | [] => []
  | (name, item) :: rest => (f name, item.map f) :: mapEntries f rest

def mapItems (f : σ → τ) : List (Payload σ) → List (Payload τ)
  | [] => []
  | item :: rest => item.map f :: mapItems f rest

end

mutual

/-- The keys and the string values of a payload. -/
def Payload.strings : Payload τ → List τ
  | .text value => [value]
  | .mapping entries => stringsOfEntries entries
  | .tuple items => stringsOfItems items
  | .list items => stringsOfItems items
  | .other _ => []

def stringsOfEntries : List (τ × Payload τ) → List τ
  | [] => []
  | (name, item) :: rest => name :: item.strings ++ stringsOfEntries rest

def stringsOfItems : List (Payload τ) → List τ
  | [] => []
  | item :: rest => item.strings ++ stringsOfItems rest

end

mutual

def Payload.keys : Payload τ → List τ
  | .text _ => []
  | .mapping entries => keysOfEntries entries
  | .tuple items => keysOfItems items
  | .list items => keysOfItems items
  | .other _ => []

def keysOfEntries : List (τ × Payload τ) → List τ
  | [] => []
  | (name, item) :: rest => name :: item.keys ++ keysOfEntries rest

def keysOfItems : List (Payload τ) → List τ
  | [] => []
  | item :: rest => item.keys ++ keysOfItems rest

end

mutual

/-- No two keys of a mapping have the same text. -/
def Payload.DistinctKeys : Payload τ → Prop
  | .text _ => True
  | .mapping entries => (entries.map Prod.fst).Nodup ∧ distinctEntries entries
  | .tuple items => distinctItems items
  | .list items => distinctItems items
  | .other _ => True

def distinctEntries : List (τ × Payload τ) → Prop
  | [] => True
  | (_, item) :: rest => item.DistinctKeys ∧ distinctEntries rest

def distinctItems : List (Payload τ) → Prop
  | [] => True
  | item :: rest => item.DistinctKeys ∧ distinctItems rest

end

mutual

/-- The payloads are built alike, whatever their texts are. -/
def SameShape : Payload σ → Payload τ → Prop
  | .text _, .text _ => True
  | .mapping entries, .mapping others => sameEntries entries others
  | .tuple items, .tuple others => sameItems items others
  | .list items, .list others => sameItems items others
  | .other shown, .other another => shown = another
  | _, _ => False

def sameEntries : List (σ × Payload σ) → List (τ × Payload τ) → Prop
  | [], [] => True
  | (_, item) :: rest, (_, other) :: others => SameShape item other ∧ sameEntries rest others
  | _, _ => False

def sameItems : List (Payload σ) → List (Payload τ) → Prop
  | [], [] => True
  | item :: rest, other :: others => SameShape item other ∧ sameItems rest others
  | _, _ => False

end

/-- No secret stands in a text without a part of a marker in it. -/
def Hidden (values : List String) (cells : List (Char × Bool)) : Prop :=
  ∀ value ∈ values, value ≠ "" → ¬ Shown value.toList cells

/-- No secret is left in a key or a string value, and the payload is built as it was. -/
def Redacted (values : List String) (payload : Payload String) : Prop :=
  (∀ cells ∈ (tracePayload values payload).strings, Hidden values cells) ∧
    SameShape payload (redactPayload values payload)

end Trace

section Dictionary

variable {α β : Type}

theorem assign_map (f : α → β) (key : String) (value : α) (filled : List (String × α)) :
    (assign key value filled).map (fun entry => (entry.1, f entry.2)) =
      assign key (f value) (filled.map fun entry => (entry.1, f entry.2)) := by
  induction filled with
  | nil => rfl
  | cons entry rest ih =>
    rw [assign, List.map_cons, assign]
    split
    · rfl
    · rw [List.map_cons, ih]

theorem dictOf_map (f : α → β) (filled pairs : List (String × α)) :
    (dictOf filled pairs).map (fun entry => (entry.1, f entry.2)) =
      dictOf (filled.map fun entry => (entry.1, f entry.2)) (pairs.map fun entry => (entry.1, f entry.2)) := by
  induction pairs generalizing filled with
  | nil => rfl
  | cons pair pairs ih =>
    refine (ih _).trans (congrArg (dictOf · (pairs.map fun entry => (entry.1, f entry.2))) ?_)
    exact assign_map f pair.1 pair.2 filled

theorem assign_new {key : String} {filled : List (String × α)} (absent : key ∉ filled.map Prod.fst) (value : α) :
    assign key value filled = filled ++ [(key, value)] := by
  induction filled with
  | nil => rfl
  | cons entry rest ih =>
    rw [List.map_cons, List.mem_cons, not_or] at absent
    rw [assign, if_neg absent.1, ih absent.2]
    rfl

theorem length_assign (key : String) (value : α) (filled : List (String × α)) :
    (assign key value filled).length = filled.length + if key ∈ filled.map Prod.fst then 0 else 1 := by
  induction filled with
  | nil => rfl
  | cons entry rest ih =>
    rw [assign]
    by_cases same : key = entry.1
    · simp [same]
    · rw [if_neg same, List.length_cons, ih]
      simp only [List.length_cons, List.map_cons, List.mem_cons, same, false_or]
      omega

theorem dictOf_distinct {filled pairs : List (String × α)} (distinct : (filled.map Prod.fst ++ pairs.map Prod.fst).Nodup) :
    dictOf filled pairs = filled ++ pairs := by
  induction pairs generalizing filled with
  | nil => exact (List.append_nil _).symm
  | cons pair pairs ih =>
    have absent : pair.1 ∉ filled.map Prod.fst := fun member =>
      (List.nodup_append.mp distinct).2.2 _ member _ List.mem_cons_self rfl
    have step : dictOf filled (pair :: pairs) = dictOf (filled ++ [pair]) pairs :=
      congrArg (dictOf · pairs) (assign_new absent pair.2)
    rw [step, ih, List.append_assoc, List.singleton_append]
    rwa [List.map_append, List.map_singleton, List.append_assoc]

theorem length_dictOf_le (filled pairs : List (String × α)) : (dictOf filled pairs).length ≤ filled.length + pairs.length := by
  induction pairs generalizing filled with
  | nil => exact Nat.le_refl _
  | cons pair pairs ih =>
    have next := ih (assign pair.1 pair.2 filled)
    rw [length_assign] at next
    refine next.trans ?_
    rw [List.length_cons]
    split <;> omega

/-- A dictionary has as many entries as it was filled with only when their keys are distinct. -/
theorem nodup_of_length_dictOf {filled pairs : List (String × α)} (distinct : (filled.map Prod.fst).Nodup)
    (all : (dictOf filled pairs).length = filled.length + pairs.length) :
    (filled.map Prod.fst ++ pairs.map Prod.fst).Nodup := by
  induction pairs generalizing filled with
  | nil => rwa [List.map_nil, List.append_nil]
  | cons pair pairs ih =>
    by_cases member : pair.1 ∈ filled.map Prod.fst
    · have most := length_dictOf_le (assign pair.1 pair.2 filled) pairs
      rw [length_assign, if_pos member] at most
      have same : dictOf filled (pair :: pairs) = dictOf (assign pair.1 pair.2 filled) pairs := rfl
      rw [same, List.length_cons] at all
      omega
    · have step : dictOf filled (pair :: pairs) = dictOf (filled ++ [pair]) pairs :=
        congrArg (dictOf · pairs) (assign_new member pair.2)
      have longer : ((filled ++ [pair]).map Prod.fst).Nodup := by
        rw [List.map_append, List.map_singleton]
        exact List.nodup_append.mpr ⟨distinct, List.nodup_singleton _, fun first left second right same =>
          member (by rw [← List.mem_singleton.mp right, ← same]; exact left)⟩
      have whole := ih longer (by rw [← step, all, List.length_append, List.length_cons, List.length_singleton]; omega)
      rwa [List.map_append, List.map_singleton, List.append_assoc] at whole

end Dictionary

section Erasure

variable {σ τ : Type}

theorem mapEntries_eq (f : σ → τ) (entries : List (σ × Payload σ)) :
    mapEntries f entries = entries.map fun entry => (f entry.1, entry.2.map f) := by
  induction entries with
  | nil => rfl
  | cons entry rest ih => rw [mapEntries, ih, List.map_cons]

variable (text key : String → σ) (f : σ → τ)

mutual

theorem map_redactWith : ∀ payload : Payload String,
    (redactWith text key payload).map f = redactWith (fun value => f (text value)) (fun value => f (key value)) payload
  | .text value => rfl
  | .mapping entries => by
    have inner := dictOf_map (Payload.map f) [] (redactEntries text key entries)
    rw [map_redactEntries entries, List.map_nil] at inner
    rw [redactWith, redactWith, Payload.map, mapEntries_eq, List.map_map, ← inner, List.map_map]
    rfl
  | .tuple items => congrArg Payload.tuple (map_redactItems items)
  | .list items => congrArg Payload.list (map_redactItems items)
  | .other shown => rfl

theorem map_redactEntries : ∀ entries : List (String × Payload String),
    (redactEntries text key entries).map (fun entry => (entry.1, entry.2.map f)) =
      redactEntries (fun value => f (text value)) (fun value => f (key value)) entries
  | [] => rfl
  | (name, item) :: rest => by
    rw [redactEntries, redactEntries, List.map_cons, map_redactWith item, map_redactEntries rest]

theorem map_redactItems : ∀ items : List (Payload String),
    mapItems f (redactItems text key items) =
      redactItems (fun value => f (text value)) (fun value => f (key value)) items
  | [] => rfl
  | item :: rest => by
    rw [redactItems, redactItems, mapItems, map_redactWith item, map_redactItems rest]

end

theorem erase_trace (values : List String) (text : String) : erase (trace values text) = redactText values text := by
  have same : ∀ cell : Char × Bool, id (Prod.fst cell) = Prod.fst cell := fun _ => rfl
  rw [erase, trace, map_mask same, map_kept, put, List.map_map]
  exact congrArg (fun marker => String.ofList (mask id (sortedValues values) marker text.toList)) (List.map_id marker)

/-- Without the flags the trace is the redacted payload. -/
theorem erase_tracePayload (values : List String) (payload : Payload String) :
    (tracePayload values payload).map erase = redactPayload values payload := by
  have texts : (fun value => erase (trace values value)) = redactText values := funext (erase_trace values)
  have keys : (fun key : String => erase (kept key.toList)) = id := funext fun key => by
    rw [erase, map_kept, String.ofList_toList]
    rfl
  rw [tracePayload, map_redactWith, texts, keys]
  rfl

end Erasure

section Results

variable {τ : Type} (text key : String → τ)

theorem redactEntries_keys (entries : List (String × Payload String)) :
    (redactEntries text key entries).map Prod.fst = entries.map Prod.fst := by
  induction entries with
  | nil => rfl
  | cons entry rest ih => rw [redactEntries, List.map_cons, List.map_cons, ih]

theorem sameEntries_length {σ : Type} {entries : List (σ × Payload σ)} {others : List (τ × Payload τ)}
    (same : sameEntries entries others) : entries.length = others.length := by
  induction entries generalizing others with
  | nil => cases others with
    | nil => rfl
    | cons => cases same
  | cons entry rest ih => cases others with
    | nil => cases same
    | cons other others => exact congrArg (· + 1) (ih same.2)

theorem redactEntries_length (entries : List (String × Payload String)) :
    (redactEntries text key entries).length = entries.length := by
  have same := congrArg List.length (redactEntries_keys text key entries)
  rwa [List.length_map, List.length_map] at same

mutual

/-- A payload keeps its shape when no two keys of a mapping have the same text. -/
theorem sameShape_iff : ∀ payload : Payload String, SameShape payload (redactWith text key payload) ↔ payload.DistinctKeys
  | .text value => Iff.rfl
  | .mapping entries => by
    have inner := sameEntries_iff entries
    rw [redactWith, SameShape, Payload.DistinctKeys]
    constructor
    · intro same
      have length := sameEntries_length same
      rw [List.length_map] at length
      have all : (dictOf [] (redactEntries text key entries)).length =
          ([] : List (String × Payload τ)).length + (redactEntries text key entries).length := by
        rw [← length, redactEntries_length, List.length_nil, Nat.zero_add]
      have distinct := nodup_of_length_dictOf (show (([] : List (String × Payload τ)).map Prod.fst).Nodup from List.nodup_nil) all
      rw [dictOf_distinct distinct, List.nil_append] at same
      rw [List.map_nil, List.nil_append, redactEntries_keys] at distinct
      exact ⟨distinct, inner.mp same⟩
    · rintro ⟨distinct, items⟩
      rw [dictOf_distinct (by rwa [List.map_nil, List.nil_append, redactEntries_keys]), List.nil_append]
      exact inner.mpr items
  | .tuple items => sameItems_iff items
  | .list items => sameItems_iff items
  | .other shown => iff_of_true rfl trivial

theorem sameEntries_iff : ∀ entries : List (String × Payload String),
    sameEntries entries ((redactEntries text key entries).map fun entry => (key entry.1, entry.2)) ↔ distinctEntries entries
  | [] => Iff.rfl
  | (_, item) :: rest => and_congr (sameShape_iff item) (sameEntries_iff rest)

theorem sameItems_iff : ∀ items : List (Payload String), sameItems items (redactItems text key items) ↔ distinctItems items
  | [] => Iff.rfl
  | item :: rest => and_congr (sameShape_iff item) (sameItems_iff rest)

end

mutual

/-- What holds of every redacted text holds of all strings of the result when it holds of the keys. -/
theorem strings_iff {holds : τ → Prop} (texts : ∀ value, holds (text value)) : ∀ payload : Payload String,
    payload.DistinctKeys →
      ((∀ cells ∈ (redactWith text key payload).strings, holds cells) ↔ ∀ name ∈ payload.keys, holds (key name))
  | .text value, _ => iff_of_true (List.forall_mem_singleton.mpr (texts value)) nofun
  | .mapping entries, distinct => by
    have inner := stringsOfEntries_iff texts entries distinct.2
    rw [redactWith, Payload.strings,
      dictOf_distinct (by rw [List.map_nil, List.nil_append, redactEntries_keys]; exact distinct.1), List.nil_append]
    exact inner
  | .tuple items, distinct => stringsOfItems_iff texts items distinct
  | .list items, distinct => stringsOfItems_iff texts items distinct
  | .other shown, _ => iff_of_true nofun nofun

theorem stringsOfEntries_iff {holds : τ → Prop} (texts : ∀ value, holds (text value)) :
    ∀ entries : List (String × Payload String), distinctEntries entries →
      ((∀ cells ∈ stringsOfEntries ((redactEntries text key entries).map fun entry => (key entry.1, entry.2)), holds cells) ↔
        ∀ name ∈ keysOfEntries entries, holds (key name))
  | [], _ => iff_of_true nofun nofun
  | (name, item) :: rest, distinct => by
    have first := strings_iff texts item distinct.1
    have later := stringsOfEntries_iff texts rest distinct.2
    rw [redactEntries, List.map_cons, stringsOfEntries, keysOfEntries, List.cons_append, List.cons_append,
      List.forall_mem_cons, List.forall_mem_cons, List.forall_mem_append, List.forall_mem_append, first, later]

theorem stringsOfItems_iff {holds : τ → Prop} (texts : ∀ value, holds (text value)) :
    ∀ items : List (Payload String), distinctItems items →
      ((∀ cells ∈ stringsOfItems (redactItems text key items), holds cells) ↔ ∀ name ∈ keysOfItems items, holds (key name))
  | [], _ => iff_of_true nofun nofun
  | item :: rest, distinct => by
    have first := strings_iff texts item distinct.1
    have later := stringsOfItems_iff texts rest distinct.2
    rw [redactItems, stringsOfItems, keysOfItems, List.forall_mem_append, List.forall_mem_append, first, later]

end

theorem hidden_trace (values : List String) (text : String) : Hidden values (trace values text) := by
  intro value member some_
  have word : value.toList ≠ [] := fun empty => some_ (by rw [← String.toList_inj, empty]; rfl)
  refine not_shown_mask (by decide) ?_ word _
  rw [sortedValues, List.mem_insertionSort]
  exact List.mem_map_of_mem member

/-- The redaction leaves no secret exactly in payloads whose keys hold none and do not fall together. -/
theorem redacted_iff (values : List String) (payload : Payload String) : Redacted values payload ↔
    (∀ name ∈ payload.keys, ∀ value ∈ values, value ≠ "" → ¬ value.toList <:+: name.toList) ∧ payload.DistinctKeys := by
  have keys (name : String) : Hidden values (kept name.toList) ↔
      ∀ value ∈ values, value ≠ "" → ¬ value.toList <:+: name.toList :=
    forall_congr' fun value => imp_congr_right fun _ => imp_congr_right fun _ => not_congr shown_kept
  rw [Redacted, redactPayload, sameShape_iff]
  refine and_congr_left fun distinct => ?_
  exact (strings_iff _ _ (hidden_trace values) payload distinct).trans (forall₂_congr fun name _ => keys name)

/-- A secret in a key is not touched. -/
theorem key_leaks : redactPayload ["sk-1"] (.mapping [("sk-1", .text "sk-1")]) = .mapping [("sk-1", .text "[redacted]")] ∧
    ¬ Redacted ["sk-1"] (.mapping [("sk-1", .text "sk-1")]) := by
  refine ⟨by rfl, fun redacted => ?_⟩
  have key : kept "sk-1".toList ∈ (tracePayload ["sk-1"] (.mapping [("sk-1", .text "sk-1")])).strings := List.mem_cons_self
  exact redacted.1 _ key "sk-1" List.mem_cons_self (by decide) (shown_kept.mpr List.infix_rfl)

end Results

end OpenTulpa.Secrets.PayloadRedaction
