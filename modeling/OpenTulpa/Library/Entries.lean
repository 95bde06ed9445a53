import Mathlib.Data.List.Nodup

/-! Dictionaries as lists of entries in the order in which their keys were first assigned. -/

namespace OpenTulpa.Library.Entries

variable {κ β γ : Type*} [DecidableEq κ]

/-- `dict[key] = value` -/
@[grind =] def assign (key : κ) (value : β) : List (κ × β) → List (κ × β)
  | [] => [(key, value)]
  | (other, held) :: rest => if other = key then (key, value) :: rest else (other, held) :: assign key value rest

/-- `dict.update` -/
def update (filled entries : List (κ × β)) : List (κ × β) :=
  entries.foldl (fun filled entry => assign entry.1 entry.2 filled) filled

omit [DecidableEq κ] in
def keys (entries : List (κ × β)) : List κ := entries.map Prod.fst

def get (entries : List (κ × β)) (key : κ) : Option β := (entries.find? fun entry => entry.1 = key).map Prod.snd

section Lookup

variable {entries others : List (κ × β)} {key other : κ} {value : β}

theorem get_cons (entry : κ × β) : get (entry :: entries) key = if entry.1 = key then some entry.2 else get entries key := by
  rw [get, List.find?_cons]
  by_cases here : entry.1 = key
  · simp [here]
  · simp [here, get]

@[simp] theorem get_assign_self : get (assign key value entries) key = some value := by
  induction entries with
  | nil => simp [assign, get]
  | cons entry entries ih =>
    rw [assign]
    split
    · simp [get_cons]
    · rename_i different
      simp only [get_cons, if_neg different, ih]

theorem get_assign_of_ne (different : other ≠ key) : get (assign key value entries) other = get entries other := by
  induction entries with
  | nil => simp [assign, get, Ne.symm different]
  | cons entry entries ih =>
    rw [assign]
    split
    · rename_i same
      simp [get_cons, same, Ne.symm different]
    · simp only [get_cons, ih]

theorem get_assign : get (assign key value entries) other = if other = key then some value else get entries other := by
  split
  · rename_i same
    rw [same, get_assign_self]
  · rename_i different
    exact get_assign_of_ne different

theorem keys_assign (entries : List (κ × β)) (key : κ) (value : β) :
    keys (assign key value entries) = if key ∈ keys entries then keys entries else keys entries ++ [key] := by
  induction entries with
  | nil => rfl
  | cons entry entries ih =>
    rw [assign]
    by_cases here : entry.1 = key
    · simp [keys, here]
    · rw [if_neg here]
      have head : keys ((entry.1, entry.2) :: assign key value entries) = entry.1 :: keys (assign key value entries) := rfl
      have member : key ∈ keys (entry :: entries) ↔ key ∈ keys entries := by simp [keys, Ne.symm here]
      rw [head, ih]
      by_cases inside : key ∈ keys entries
      · rw [if_pos inside, if_pos (member.mpr inside)]
        rfl
      · rw [if_neg inside, if_neg (member.not.mpr inside)]
        rfl

theorem mem_keys_assign : other ∈ keys (assign key value entries) ↔ other = key ∨ other ∈ keys entries := by
  rw [keys_assign]
  split
  · rename_i inside
    exact ⟨Or.inr, fun either => either.elim (fun same => same ▸ inside) id⟩
  · rw [List.mem_append, List.mem_singleton, or_comm]

theorem nodup_assign (distinct : (keys entries).Nodup) : (keys (assign key value entries)).Nodup := by
  rw [keys_assign]
  split
  · exact distinct
  · rename_i outside
    exact List.nodup_append.mpr ⟨distinct, List.nodup_singleton key, fun _ inside _ single => by
      rintro rfl
      exact outside (List.mem_singleton.mp single ▸ inside)⟩

theorem get_isSome : (get entries key).isSome = true ↔ key ∈ keys entries := by
  rw [get, Option.isSome_map, List.find?_isSome, keys, List.mem_map]
  simp

theorem get_eq_none : get entries key = none ↔ key ∉ keys entries := by
  rw [← get_isSome, Bool.not_eq_true, Option.isSome_eq_false_iff, Option.isNone_iff_eq_none]

theorem mem_of_get (found : get entries key = some value) : (key, value) ∈ entries := by
  obtain ⟨entry, first, rfl⟩ := Option.map_eq_some_iff.mp found
  have same : entry.1 = key := by simpa using List.find?_some first
  exact same ▸ List.mem_of_find?_eq_some first

theorem get_of_mem (distinct : (keys entries).Nodup) (member : (key, value) ∈ entries) : get entries key = some value := by
  cases found : get entries key with
  | none => exact absurd (List.mem_map_of_mem member) (get_eq_none.mp found)
  | some held =>
    have same := List.inj_on_of_nodup_map distinct (mem_of_get found) member rfl
    rw [(Prod.mk.inj same).2]

end Lookup

section Update

variable {filled entries : List (κ × β)} {key : κ} {value : β}

theorem update_cons (entry : κ × β) : update filled (entry :: entries) = update (assign entry.1 entry.2 filled) entries := rfl

theorem update_append (first second : List (κ × β)) : update filled (first ++ second) = update (update filled first) second :=
  List.foldl_append

theorem get_update_of_not_mem (absent : key ∉ keys entries) : get (update filled entries) key = get filled key := by
  induction entries generalizing filled with
  | nil => rfl
  | cons entry entries ih =>
    rw [keys, List.map_cons, List.mem_cons, not_or] at absent
    rw [update_cons, ih absent.2, get_assign_of_ne absent.1]

theorem get_update_of_mem (distinct : (keys entries).Nodup) (member : (key, value) ∈ entries) :
    get (update filled entries) key = some value := by
  obtain ⟨front, rest, rfl⟩ := List.append_of_mem member
  have later : key ∉ keys rest := by
    rw [keys, List.map_append, List.map_cons] at distinct
    exact (List.nodup_cons.mp (List.nodup_append.mp distinct).2.1).1
  rw [update_append, update_cons, get_update_of_not_mem later, get_assign_self]

/-- A value comes from the entries or has been there. -/
theorem get_update_cases (found : get (update filled entries) key = some value) :
    (key, value) ∈ entries ∨ get filled key = some value := by
  induction entries generalizing filled with
  | nil => exact Or.inr found
  | cons entry entries ih =>
    rcases ih found with later | before
    · exact Or.inl (List.mem_cons_of_mem _ later)
    · rw [get_assign] at before
      split at before
      · rename_i same
        obtain rfl := Option.some.inj before
        exact Or.inl (same ▸ List.mem_cons_self)
      · exact Or.inr before

theorem mem_keys_update : key ∈ keys (update filled entries) ↔ key ∈ keys filled ∨ key ∈ keys entries := by
  induction entries generalizing filled with
  | nil => simp [update, keys]
  | cons entry entries ih =>
    have head : key ∈ keys (entry :: entries) ↔ key = entry.1 ∨ key ∈ keys entries := List.mem_cons
    rw [update_cons, ih, mem_keys_assign, head]
    tauto

theorem nodup_update (distinct : (keys filled).Nodup) (entries : List (κ × β)) : (keys (update filled entries)).Nodup := by
  induction entries generalizing filled with
  | nil => exact distinct
  | cons entry entries ih => exact ih (nodup_assign distinct)

/-- Entries with keys of their own are appended. -/
theorem update_eq_append (distinct : (keys (filled ++ entries)).Nodup) : update filled entries = filled ++ entries := by
  induction entries generalizing filled with
  | nil => rw [List.append_nil]; rfl
  | cons entry entries ih =>
    have outside : entry.1 ∉ keys filled := by
      rw [keys, List.map_append, List.map_cons] at distinct
      exact fun inside => (List.nodup_append.mp distinct).2.2 _ inside _ List.mem_cons_self rfl
    have appended : assign entry.1 entry.2 filled = filled ++ [entry] := by
      clear ih distinct
      induction filled with
      | nil => rfl
      | cons held filled ih =>
        rw [keys, List.map_cons, List.mem_cons, not_or] at outside
        rw [assign, if_neg (Ne.symm outside.1), ih outside.2]
        rfl
    rw [update_cons, appended, ih (by rwa [List.append_assoc]), List.append_assoc]
    rfl

end Update

section Values

variable {entries : List (κ × β)} {key : κ}

theorem get_map (f : β → γ) : get (entries.map fun entry => (entry.1, f entry.2)) key = (get entries key).map f := by
  induction entries with
  | nil => rfl
  | cons entry entries ih =>
    rw [List.map_cons, get_cons, get_cons, ih]
    split <;> rfl

omit [DecidableEq κ] in
theorem keys_map (f : β → γ) : keys (entries.map fun entry => (entry.1, f entry.2)) = keys entries := by
  rw [keys, keys, List.map_map]
  rfl

/-- The entries that a function makes of keys -/
theorem get_tabulate (names : List κ) (f : κ → β) :
    get (names.map fun name => (name, f name)) key = if key ∈ names then some (f key) else none := by
  induction names with
  | nil => rfl
  | cons name names ih =>
    rw [List.map_cons, get_cons, ih]
    by_cases here : name = key
    · simp [here]
    · simp [here, Ne.symm here]

end Values

end OpenTulpa.Library.Entries
