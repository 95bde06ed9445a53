import Mathlib.Data.String.Basic

/-! Dictionaries with string keys as lists in key order, so that equal dictionaries are equal
lists whatever the order they were filled in. -/

namespace OpenTulpa.Library.Dict

variable {α : Type}

@[grind =] def insert (key : String) (value : α) : List (String × α) → List (String × α)
  | [] => [(key, value)]
  | (other, held) :: rest =>
    if key = other then (key, value) :: rest
    else if key < other then (key, value) :: (other, held) :: rest
    else (other, held) :: insert key value rest

/-- `dict.update` -/
def update (base entries : List (String × α)) : List (String × α) :=
  entries.foldl (fun filled entry => insert entry.1 entry.2 filled) base

@[grind =] def get (entries : List (String × α)) (key : String) : Option α :=
  (entries.find? fun entry => entry.1 == key).map Prod.snd

/-- `dict.pop` with a default. -/
def erase (entries : List (String × α)) (key : String) : List (String × α) := entries.filter fun entry => entry.1 != key

def keys (entries : List (String × α)) : List String := entries.map Prod.fst

@[simp] theorem get_insert_self (key : String) (value : α) (entries : List (String × α)) :
    get (insert key value entries) key = some value := by
  induction entries with
  | nil => simp [insert, get]
  | cons entry rest ih =>
    obtain ⟨other, held⟩ := entry
    simp only [insert]
    split
    · simp [get]
    · rename_i different
      split
      · simp [get]
      · simpa [get, Ne.symm different] using ih

theorem get_insert_of_ne {key other : String} (different : other ≠ key) (value : α) (entries : List (String × α)) :
    get (insert key value entries) other = get entries other := by
  induction entries with
  | nil => simp [insert, get, Ne.symm different]
  | cons entry rest ih =>
    obtain ⟨name, held⟩ := entry
    simp only [insert]
    split
    · rename_i same
      subst same
      simp [get, Ne.symm different]
    · split
      · simp [get, Ne.symm different]
      · by_cases here : name = other
        · simp [get, here]
        · simpa [get, here] using ih

/-- An update keeps what two dictionaries agree on. -/
theorem get_update_congr {first second : List (String × α)} {key : String} (same : get first key = get second key)
    (entries : List (String × α)) : get (update first entries) key = get (update second entries) key := by
  induction entries generalizing first second with
  | nil => exact same
  | cons entry entries ih =>
    refine ih ?_
    by_cases here : key = entry.1
    · rw [here, get_insert_self, get_insert_self]
    · rw [get_insert_of_ne here, get_insert_of_ne here, same]

theorem get_update_of_not_mem {entries : List (String × α)} {key : String} (absent : key ∉ keys entries)
    (base : List (String × α)) : get (update base entries) key = get base key := by
  induction entries generalizing base with
  | nil => rfl
  | cons entry entries ih =>
    rw [keys, List.map_cons, List.mem_cons, not_or] at absent
    exact (ih absent.2 _).trans (get_insert_of_ne absent.1 _ _)

theorem length_le_insert {key : String} (value : α) {entries : List (String × α)} :
    entries.length ≤ (insert key value entries).length := by
  induction entries with
  | nil => exact Nat.zero_le _
  | cons entry rest ih =>
    simp only [insert]
    split
    · exact Nat.le_refl _
    · split
      · exact Nat.le_succ _
      · exact Nat.succ_le_succ ih

@[simp] theorem get_erase_self (entries : List (String × α)) (key : String) : get (erase entries key) key = none := by
  simp [get, erase, List.find?_eq_none]

theorem get_erase_of_ne {key other : String} (different : other ≠ key) (entries : List (String × α)) :
    get (erase entries key) other = get entries other := by
  simp only [get, erase, List.find?_filter]
  congr 2
  funext entry
  by_cases same : entry.1 = other
  · simp [same, different]
  · simp [same]

theorem get_of_get_erase {entries : List (String × α)} {key other : String} {value : α}
    (found : get (erase entries key) other = some value) : get entries other = some value := by
  rcases eq_or_ne other key with rfl | different
  · rw [get_erase_self] at found
    cases found
  · rwa [get_erase_of_ne different] at found

section Ordered

/-- The keys stand in order, so that each has one entry. -/
def Ordered (entries : List (String × α)) : Prop := (keys entries).Pairwise (· < ·)

variable {entries : List (String × α)}

theorem mem_keys_insert {key other : String} {value : α} (member : other ∈ keys (insert key value entries)) :
    other = key ∨ other ∈ keys entries := by
  induction entries with
  | nil => exact Or.inl (List.mem_singleton.mp member)
  | cons entry rest ih =>
    simp only [insert] at member
    split at member
    · exact (List.mem_cons.mp member).imp_right (List.mem_cons_of_mem _)
    · split at member
      · exact List.mem_cons.mp member
      · rcases List.mem_cons.mp member with rfl | later
        · exact Or.inr List.mem_cons_self
        · exact (ih later).imp_right (List.mem_cons_of_mem _)

theorem Ordered.insert (ordered : Ordered entries) (key : String) (value : α) : Ordered (insert key value entries) := by
  induction entries with
  | nil => exact List.pairwise_singleton _ _
  | cons entry rest ih =>
    obtain ⟨above, tail⟩ := List.pairwise_cons.mp ordered
    simp only [Dict.insert]
    split
    · rename_i same
      rw [same]
      exact ordered
    · rename_i differs
      split
      · rename_i lower
        refine List.pairwise_cons.mpr ⟨?_, ordered⟩
        intro other member
        rcases List.mem_cons.mp member with rfl | later
        · exact lower
        · exact lower.trans (above other later)
      · rename_i upper
        refine List.pairwise_cons.mpr ⟨?_, ih tail⟩
        intro other member
        rcases mem_keys_insert member with rfl | later
        · exact lt_of_le_of_ne (not_lt.mp upper) (Ne.symm differs)
        · exact above other later

theorem Ordered.erase (ordered : Ordered entries) (key : String) : Ordered (erase entries key) :=
  List.Pairwise.sublist (List.filter_sublist.map Prod.fst) ordered

theorem Ordered.get_of_mem (ordered : Ordered entries) {entry : String × α} (member : entry ∈ entries) :
    get entries entry.1 = some entry.2 := by
  induction entries with
  | nil => cases member
  | cons first rest ih =>
    obtain ⟨above, tail⟩ := List.pairwise_cons.mp ordered
    rcases List.mem_cons.mp member with rfl | later
    · simp [get]
    · have differs : first.1 ≠ entry.1 := ne_of_lt (above entry.1 (List.mem_map_of_mem later))
      have there := ih tail later
      simpa [get, List.find?_cons, differs] using there

theorem Ordered.get_of_lt (ordered : Ordered entries) (key : String) (below : ∀ entry ∈ entries.head?, key < entry.1) :
    get entries key = none := by
  rw [get, Option.map_eq_none_iff, List.find?_eq_none]
  cases entries with
  | nil => exact nofun
  | cons first rest =>
    have least := below first rfl
    intro entry member
    rcases List.mem_cons.mp member with rfl | later
    · simpa using ne_of_gt least
    · have above := (List.pairwise_cons.mp ordered).1 entry.1 (List.mem_map_of_mem later)
      simpa using ne_of_gt (least.trans above)

/-- Dictionaries with the same values are the same list. -/
theorem Ordered.ext {first second : List (String × α)} (ordered : Ordered first) (other : Ordered second)
    (same : ∀ key, get first key = get second key) : first = second := by
  induction first generalizing second with
  | nil =>
    cases second with
    | nil => rfl
    | cons entry rest => exact absurd (same entry.1) (by simp [get])
  | cons entry rest ih =>
    cases second with
    | nil => exact absurd (same entry.1) (by simp [get])
    | cons entry' rest' =>
      have bound := (List.pairwise_cons.mp ordered).1
      have bound' := (List.pairwise_cons.mp other).1
      have keys : entry.1 = entry'.1 := by
        rcases lt_trichotomy entry.1 entry'.1 with below | here | above
        · have none := other.get_of_lt entry.1 (by simpa using below)
          rw [← same] at none
          simp [get] at none
        · exact here
        · have none := ordered.get_of_lt entry'.1 (by simpa using above)
          rw [same] at none
          simp [get] at none
      have values : entry.2 = entry'.2 := by
        have both := same entry.1
        rw [get, get, List.find?_cons, List.find?_cons, beq_self_eq_true, ← keys, beq_self_eq_true] at both
        exact Option.some.inj both
      have rests : rest = rest' := by
        refine ih (List.pairwise_cons.mp ordered).2 (List.pairwise_cons.mp other).2 fun key => ?_
        by_cases here : entry.1 = key
        · have first := Ordered.get_of_lt (List.pairwise_cons.mp ordered).2 key
            (fun later member => here ▸ bound later.1 (List.mem_map_of_mem (List.mem_of_head? member)))
          have second := Ordered.get_of_lt (List.pairwise_cons.mp other).2 key
            (fun later member => here ▸ keys ▸ bound' later.1 (List.mem_map_of_mem (List.mem_of_head? member)))
          rw [first, second]
        · have both := same key
          rwa [get, get, List.find?_cons, List.find?_cons, beq_false_of_ne here, beq_false_of_ne (keys ▸ here), ← get, ← get]
            at both
      rw [show entry = entry' from Prod.ext keys values, rests]

end Ordered

end OpenTulpa.Library.Dict
