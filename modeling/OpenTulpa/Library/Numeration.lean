import Mathlib.Data.List.Induction

/-! Numeration without a zero: every number has one numeral in the digits from one to the base. The numeral of a number is
cut into its digits from the last one on. -/

namespace OpenTulpa.Library.Numeration

variable {base : Nat}

/-- The number that a numeral stands for, its first digit being the highest. -/
def value (base : Nat) (digits : List Nat) : Nat := digits.foldl (fun total digit => total * base + digit) 0

/-- The numeral of a number, as far as the fuel goes. -/
def numeralFrom (base : Nat) : Nat → Nat → List Nat
  | 0, _ | _, 0 => []
  | fuel + 1, number + 1 => numeralFrom base fuel (number / base) ++ [number % base + 1]

def numeral (base number : Nat) : List Nat := numeralFrom base number number

/-- A digit is one of those from one to the base. -/
def Digits (base : Nat) (digits : List Nat) : Prop := ∀ digit ∈ digits, 1 ≤ digit ∧ digit ≤ base

@[simp] theorem value_append (digits : List Nat) (last : Nat) :
    value base (digits ++ [last]) = value base digits * base + last := by
  rw [value, List.foldl_append, List.foldl_cons, List.foldl_nil, value]

theorem value_numeralFrom {fuel number : Nat} (enough : number ≤ fuel) : value base (numeralFrom base fuel number) = number := by
  induction fuel, number using numeralFrom.induct base with
  | case1 number =>
    obtain rfl : number = 0 := Nat.le_zero.mp enough
    rfl
  | case2 => simp [numeralFrom, value]
  | case3 fuel number ih =>
    have smaller : number / base ≤ fuel := Nat.le_trans (Nat.div_le_self number base) (by omega)
    rw [numeralFrom, value_append, ih smaller, ← Nat.add_assoc, Nat.div_add_mod']

theorem numeralFrom_digits (positive : 0 < base) (fuel number : Nat) : Digits base (numeralFrom base fuel number) := by
  induction fuel, number using numeralFrom.induct base with
  | case1 => exact nofun
  | case2 => simp [numeralFrom, Digits]
  | case3 fuel number ih =>
    intro digit member
    rw [numeralFrom] at member
    rcases List.mem_append.mp member with front | last
    · exact ih digit front
    · rw [List.mem_singleton.mp last]
      exact ⟨Nat.le_add_left 1 _, Nat.mod_lt number positive⟩

/-- A numeral has no more digits than the fuel that is enough for its number. -/
theorem numeralFrom_value {fuel : Nat} {digits : List Nat} (written : Digits base digits)
    (enough : value base digits ≤ fuel) : numeralFrom base fuel (value base digits) = digits := by
  induction digits using List.reverseRecOn generalizing fuel with
  | nil => cases fuel <;> rfl
  | append_singleton front last ih =>
    obtain ⟨least, most⟩ := written last (by simp)
    obtain ⟨rest, rfl⟩ := Nat.exists_eq_add_of_le' least
    rw [value_append, ← Nat.add_assoc] at enough ⊢
    cases fuel with
    | zero => omega
    | succ fuel =>
      have positive : 0 < base := by omega
      have quotient : (value base front * base + rest) / base = value base front := by
        rw [Nat.mul_comm, Nat.mul_add_div positive, Nat.div_eq_of_lt most, Nat.add_zero]
      have remainder : (value base front * base + rest) % base = rest := by
        rw [Nat.mul_comm, Nat.mul_add_mod, Nat.mod_eq_of_lt most]
      have smaller : value base front ≤ fuel := by
        have grows := Nat.le_mul_of_pos_right (value base front) positive
        omega
      rw [numeralFrom, quotient, remainder, ih (fun digit member => written digit (by simp [member])) smaller]

theorem value_numeral (number : Nat) : value base (numeral base number) = number := value_numeralFrom (Nat.le_refl number)

theorem numeral_value {digits : List Nat} (written : Digits base digits) : numeral base (value base digits) = digits :=
  numeralFrom_value written (Nat.le_refl _)

/-- More fuel than the number makes no difference. -/
theorem numeralFrom_enough (positive : 0 < base) {fuel number : Nat} (enough : number ≤ fuel) :
    numeralFrom base fuel number = numeral base number := by
  have same : value base (numeral base number) = number := value_numeral number
  have small : value base (numeral base number) ≤ fuel := by rwa [same]
  have again := numeralFrom_value (numeralFrom_digits positive number number) small
  rwa [← numeral, same] at again

end OpenTulpa.Library.Numeration
