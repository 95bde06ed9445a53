import Mathlib.Data.List.Basic

/-! Caches as dictionaries in the order of their keys' first insertion, with a limit on their size. A cache whose entries
were all recorded for an input with their key answers what the input determines. -/

namespace OpenTulpa.Library.Caching

variable {ι κ β : Type} [DecidableEq κ]

def get (cache : List (κ × β)) (key : κ) : Option β := (cache.find? fun entry => entry.1 = key).map Prod.snd

def store (cache : List (κ × β)) (key : κ) (value : β) : List (κ × β) :=
  if key ∈ cache.map Prod.fst then cache.map fun entry => if entry.1 = key then (key, value) else entry
  else cache ++ [(key, value)]

/-- The first key leaves a full cache before a new one is stored. -/
def put (limit : Nat) (cache : List (κ × β)) (key : κ) (value : β) : List (κ × β) :=
  store (if key ∉ cache.map Prod.fst ∧ limit ≤ cache.length then cache.tail else cache) key value

/-- Every entry satisfies the property. -/
def Holds (P : κ → β → Prop) (cache : List (κ × β)) : Prop := ∀ entry ∈ cache, P entry.1 entry.2

variable {P : κ → β → Prop} {cache : List (κ × β)} {key : κ} {value : β}

omit [DecidableEq κ] in
theorem Holds.nil : Holds P [] := nofun

theorem Holds.get (holds : Holds P cache) (found : get cache key = some value) : P key value := by
  obtain ⟨entry, first, rfl⟩ := Option.map_eq_some_iff.mp found
  have same : entry.1 = key := by simpa using List.find?_some first
  exact same ▸ holds entry (List.mem_of_find?_eq_some first)

theorem Holds.store (holds : Holds P cache) (own : P key value) : Holds P (store cache key value) := by
  intro entry member
  rw [Caching.store] at member
  split at member
  · obtain ⟨before, inside, rfl⟩ := List.mem_map.mp member
    split
    · exact own
    · exact holds before inside
  · rcases List.mem_append.mp member with inside | new
    · exact holds entry inside
    · rw [List.mem_singleton.mp new]
      exact own

theorem Holds.put (holds : Holds P cache) (own : P key value) (limit : Nat) : Holds P (put limit cache key value) := by
  refine Holds.store ?_ own
  split
  · exact fun entry member => holds entry (List.mem_of_mem_tail member)
  · exact holds

end OpenTulpa.Library.Caching
