import Mathlib.Data.Finset.Card

/-! Saturation of a finite set: what one round finds is added until a round finds nothing. When every find is new and from a
finite whole, the rounds end. -/

namespace OpenTulpa.Library.Saturation

variable {α : Type*} [DecidableEq α] {found : Finset α → Finset α} {whole known closed : Finset α} {rounds : Nat}

/-- The set after the last round; `none` when the rounds are too few. -/
def saturate (found : Finset α → Finset α) : Nat → Finset α → Option (Finset α)
  | 0, _ => none
  | rounds + 1, known => if found known = ∅ then some known else saturate found rounds (known ∪ found known)

/-- Every find is new and in the whole. -/
structure Bounded (found : Finset α → Finset α) (whole : Finset α) : Prop where
  fresh : ∀ known, Disjoint known (found known)
  within : ∀ known, found known ⊆ whole

/-- Each round but the last takes something of the whole that was not known. -/
theorem Bounded.ends (bounded : Bounded found whole) (inside : known ⊆ whole)
    (enough : whole.card < known.card + rounds) : ∃ closed, saturate found rounds known = some closed := by
  induction rounds generalizing known with
  | zero =>
    have most := Finset.card_le_card inside
    omega
  | succ rounds ih =>
    by_cases last : found known = ∅
    · exact ⟨known, if_pos last⟩
    · have some_ : 0 < (found known).card := Finset.card_pos.mpr (Finset.nonempty_iff_ne_empty.mpr last)
      have grown := Finset.card_union_of_disjoint (bounded.fresh known)
      obtain ⟨closed, done⟩ := ih (Finset.union_subset inside (bounded.within known)) (by omega)
      exact ⟨closed, by rw [saturate, if_neg last, done]⟩

/-- After the last round nothing is found. -/
theorem found_saturated (done : saturate found rounds known = some closed) : found closed = ∅ := by
  induction rounds generalizing known with
  | zero => cases done
  | succ rounds ih =>
    rw [saturate] at done
    split at done
    · rename_i last
      exact Option.some.inj done ▸ last
    · exact ih done

/-- What every find has, everything in the set has in the end. -/
theorem saturated_sound {P : α → Prop} (sound : ∀ known, (∀ a ∈ known, P a) → ∀ a ∈ found known, P a)
    (start : ∀ a ∈ known, P a) (done : saturate found rounds known = some closed) : ∀ a ∈ closed, P a := by
  induction rounds generalizing known with
  | zero => cases done
  | succ rounds ih =>
    rw [saturate] at done
    split at done
    · exact Option.some.inj done ▸ start
    · refine ih (fun a member => ?_) done
      rcases Finset.mem_union.mp member with before | new
      · exact start a before
      · exact sound known start a new

end OpenTulpa.Library.Saturation
