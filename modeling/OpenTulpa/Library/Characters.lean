import Mathlib.Data.Char

/-! The letters of ASCII, by their numbers. -/

namespace OpenTulpa.Library.Characters

variable {c : Char}

theorem isUpper_iff : c.isUpper = true ↔ 65 ≤ c.toNat ∧ c.toNat ≤ 90 := by
  have bounds : c.isUpper = true ↔ 'A'.val ≤ c.val ∧ c.val ≤ 'Z'.val := decide_eq_true_iff
  rw [bounds, UInt32.le_iff_toNat_le, UInt32.le_iff_toNat_le]
  rfl

theorem isLower_iff : c.isLower = true ↔ 97 ≤ c.toNat ∧ c.toNat ≤ 122 := by
  have bounds : c.isLower = true ↔ (decide ('a'.val ≤ c.val) && decide (c.val ≤ 'z'.val)) = true := Iff.rfl
  rw [bounds, Bool.and_eq_true, decide_eq_true_iff, decide_eq_true_iff, UInt32.le_iff_toNat_le, UInt32.le_iff_toNat_le]
  rfl

theorem isAlpha_eq (c : Char) : c.isAlpha = (c.isUpper || c.isLower) := rfl

theorem isAlphanum_eq (c : Char) : c.isAlphanum = (c.isAlpha || c.isDigit) := rfl

theorem toUpper_of_isUpper (upper : c.isUpper = true) : c.toUpper = c := by
  have high := (isUpper_iff.mp upper).2
  have same : ¬ ('a'.val ≤ c.val ∧ c.val ≤ 'z'.val) := by
    intro lower
    have low : 97 ≤ c.toNat := lower.1
    omega
  exact dif_neg same

theorem toLower_of_not_isUpper (lower : ¬ c.isUpper = true) : c.toLower = c := by
  refine dif_neg fun upper => lower (isUpper_iff.mpr ⟨upper.1, upper.2⟩)

theorem not_isUpper_of_isLower (lower : c.isLower = true) : ¬ c.isUpper = true := by
  rw [isUpper_iff]
  have low := (isLower_iff.mp lower).1
  omega

end OpenTulpa.Library.Characters
