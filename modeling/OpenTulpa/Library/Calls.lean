import Mathlib.Data.List.Basic

/-! The calls in flight at a service: a table from a call's number to what it still has to do. -/

namespace OpenTulpa.Library

/-- Every number has at most one entry that counts, the first. -/
abbrev Calls (π : Type*) := List (Nat × π)

namespace Calls

variable {π : Type*} (calls : Calls π)

def get (id : Nat) : Option π := calls.lookup id

def drop (id : Nat) : Calls π := calls.filter fun call => call.1 != id

def put (id : Nat) (point : π) : Calls π := (id, point) :: drop calls id

variable {calls}

theorem get_drop (id other : Nat) : get (drop calls id) other = if other = id then none else get calls other := by
  induction calls with
  | nil => simp [get, drop]
  | cons call calls ih =>
    obtain ⟨number, point⟩ := call
    simp only [get, drop, List.filter_cons] at ih ⊢
    by_cases here : number = id
    · subst here
      simp only [bne_self_eq_false, Bool.false_eq_true, if_false, ih, List.lookup_cons]
      by_cases same : other = number
      · simp [same]
      · have apart : (other == number) = false := by simpa using same
        simp [same, apart]
    · have kept : (number != id) = true := by simpa using here
      simp only [kept, if_true, List.lookup_cons, ih]
      by_cases same : other = number
      · simp [same, here]
      · have apart : (other == number) = false := by simpa using same
        simp [apart]

theorem get_put (id other : Nat) (point : π) :
    get (put calls id point) other = if other = id then some point else get calls other := by
  by_cases same : other = id
  · simp [get, put, same]
  · have apart : (other == id) = false := by simpa using same
    have dropped : get (drop calls id) other = get calls other := by rw [get_drop, if_neg same]
    rw [if_neg same, ← dropped, get, put, List.lookup_cons, apart]
    rfl

theorem mem_of_get {id : Nat} {point : π} (found : get calls id = some point) : (id, point) ∈ calls := by
  obtain ⟨before, after, split, _⟩ := List.lookup_eq_some_iff.mp found
  rw [split]
  simp

theorem of_mem_drop {id : Nat} {call : Nat × π} (member : call ∈ drop calls id) : call ∈ calls :=
  (List.mem_filter.mp member).1

theorem of_mem_put {id : Nat} {point : π} {call : Nat × π} (member : call ∈ put calls id point) :
    call = (id, point) ∨ call ∈ calls :=
  (List.mem_cons.mp member).imp_right of_mem_drop

end Calls

end OpenTulpa.Library
