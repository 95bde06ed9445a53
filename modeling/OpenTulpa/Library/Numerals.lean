import Mathlib.Data.List.Induction
import Mathlib.Data.List.Basic

/-! Decimal digits: numbers of two digits, and the numerals that are read and written as they were. -/

namespace OpenTulpa.Library.Numerals

def twoDigits (number : Nat) : List Char := [Nat.digitChar (number / 10 % 10), Nat.digitChar (number % 10)]

def fourDigits (number : Nat) : List Char := twoDigits (number / 100) ++ twoDigits number

def digitValue (c : Char) : Nat := c.toNat - 48

def readTwo (tens ones : Char) : Nat := digitValue tens * 10 + digitValue ones

theorem readTwo_twoDigits (number : Nat) :
    readTwo (Nat.digitChar (number / 10 % 10)) (Nat.digitChar (number % 10)) = number % 100 := by
  rw [readTwo, digitValue, digitValue, Nat.toNat_digitChar_sub_48_of_lt_ten (Nat.mod_lt _ (by decide)),
    Nat.toNat_digitChar_sub_48_of_lt_ten (Nat.mod_lt _ (by decide))]
  omega

theorem digitChar_digitValue {c : Char} (digit : c.isDigit = true) : Nat.digitChar (digitValue c) = c := by
  have bounds := Char.isDigit_iff_toNat.mp digit
  rw [digitValue]
  have listed : ∀ n : Nat, n < 10 → Nat.digitChar n = Char.ofNat (n + 48) := by decide
  have first : ('0' : Char).toNat = 48 := rfl
  have last : ('9' : Char).toNat = 57 := rfl
  rw [listed _ (by omega), Nat.sub_add_cancel (by omega), Char.ofNat_toNat]

theorem digitValue_lt {c : Char} (digit : c.isDigit = true) : digitValue c < 10 := by
  have bounds := Char.isDigit_iff_toNat.mp digit
  have first : ('0' : Char).toNat = 48 := rfl
  have last : ('9' : Char).toNat = 57 := rfl
  rw [digitValue]
  omega

theorem twoDigits_readTwo {tens ones : Char} (first : tens.isDigit = true) (second : ones.isDigit = true) :
    twoDigits (readTwo tens ones) = [tens, ones] := by
  have low := digitValue_lt second
  have high := digitValue_lt first
  have quotient : readTwo tens ones / 10 % 10 = digitValue tens := by rw [readTwo]; omega
  have remainder : readTwo tens ones % 10 = digitValue ones := by rw [readTwo]; omega
  rw [twoDigits, quotient, remainder, digitChar_digitValue first, digitChar_digitValue second]

theorem head_toDigits (number : Nat) (positive : 0 < number) : (Nat.toDigits 10 number).head? ≠ some '0' := by
  induction number using Nat.strongRecOn with
  | ind number ih =>
    by_cases short : number < 10
    · have listed : ∀ n : Nat, n < 10 → 0 < n → some (Nat.digitChar n) ≠ some '0' := by decide
      rw [Nat.toDigits_of_lt_base short]
      exact listed number short positive
    · rw [Nat.toDigits_of_base_le (by decide) (Nat.le_of_not_lt short)]
      have filled : Nat.toDigits 10 (number / 10) ≠ [] := Nat.toDigits_ne_nil
      rw [List.head?_append_of_ne_nil _ filled]
      exact ih _ (by omega) (by omega)

theorem ofDigitChars_pos {c : Char} {digits : List Char} (digit : c.isDigit = true) (nonzero : c ≠ '0') :
    0 < Nat.ofDigitChars 10 (c :: digits) 0 := by
  have positive : 0 < digitValue c := by
    rcases Nat.eq_zero_or_pos (digitValue c) with zero | positive
    · have same := digitChar_digitValue digit
      rw [zero] at same
      exact absurd same.symm nonzero
    · exact positive
  rw [Nat.ofDigitChars_cons, Nat.ofDigitChars_eq_ofDigitChars_zero]
  have least : 0 < 10 ^ digits.length := Nat.pow_pos (by decide)
  have product : 0 < 10 ^ digits.length * digitValue c := Nat.mul_pos least positive
  rw [digitValue] at product
  simp only [Nat.mul_zero, Nat.zero_add]
  exact Nat.lt_of_lt_of_le product (Nat.le_add_right _ _)

/-- A number without a leading zero is written as it was. -/
theorem toDigits_ofDigitChars {digits : List Char} (filled : digits ≠ []) (numeric : ∀ c ∈ digits, c.isDigit = true) :
    Nat.toDigits 10 (Nat.ofDigitChars 10 digits 0) = digits ↔ digits = ['0'] ∨ digits.head? ≠ some '0' := by
  constructor
  · intro same
    rcases Nat.eq_zero_or_pos (Nat.ofDigitChars 10 digits 0) with zero | positive
    · rw [zero] at same
      exact .inl same.symm
    · rw [← same]
      exact .inr (head_toDigits _ positive)
  · rintro (rfl | nonzero)
    · rfl
    · induction digits using List.reverseRecOn with
      | nil => exact absurd rfl filled
      | append_singleton front last ih =>
        have lastDigit := numeric last (by simp)
        have value := digitValue_lt lastDigit
        rw [Nat.ofDigitChars_append]
        cases front with
        | nil =>
          rw [Nat.ofDigitChars_nil, List.nil_append, Nat.ofDigitChars_cons, Nat.ofDigitChars_nil, Nat.mul_zero, Nat.zero_add]
          exact (Nat.toDigits_of_lt_base value).trans (by rw [digitChar_digitValue lastDigit])
        | cons c front =>
          have leading : c ≠ '0' := by simpa using nonzero
          have positive : 0 < Nat.ofDigitChars 10 (c :: front) 0 := ofDigitChars_pos (numeric c (by simp)) leading
          have whole := ih (List.cons_ne_nil _ _) (fun d member => numeric d (List.mem_append_left _ member))
            (by simpa using leading)
          rw [Nat.ofDigitChars_cons, Nat.ofDigitChars_nil, Nat.toDigits_of_base_le (by decide) (by omega)]
          have quotient : (10 * Nat.ofDigitChars 10 (c :: front) 0 + (last.toNat - '0'.toNat)) / 10 =
              Nat.ofDigitChars 10 (c :: front) 0 := by
            have small : last.toNat - '0'.toNat < 10 := value
            omega
          have remainder : (10 * Nat.ofDigitChars 10 (c :: front) 0 + (last.toNat - '0'.toNat)) % 10 = digitValue last := by
            have small : last.toNat - '0'.toNat < 10 := value
            rw [digitValue]
            have first : ('0' : Char).toNat = 48 := rfl
            omega
          rw [quotient, remainder, whole, digitChar_digitValue lastDigit]

end OpenTulpa.Library.Numerals
