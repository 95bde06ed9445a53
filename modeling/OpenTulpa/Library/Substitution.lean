import OpenTulpa.Library.Splitting

/-! Replacement of the leftmost matches of a pattern one after the other, and of every occurrence of a text. A pattern
says of each match what it spells, so that what is not replaced is never lost. -/

namespace OpenTulpa.Library.Substitution

open Splitting

/-- A pattern that is tried at a position, behind the character before it and in front of what is left. -/
structure Pattern (β : Type*) where
  find : Option Char → List Char → Option β
  spells : β → List Char
  filled : ∀ found, spells found ≠ []
  reads : ∀ {before text found}, find before text = some found → spells found <+: text

variable {β : Type*} (pattern : Pattern β)

/-- The characters that no match takes, and the matches; a number of characters is still to be passed. -/
def Pattern.scanFrom : Nat → Option Char → List Char → List (Char ⊕ β)
  | _, _, [] => []
  | skip + 1, _, c :: rest => Pattern.scanFrom skip (some c) rest
  | 0, before, c :: rest =>
    match pattern.find before (c :: rest) with
    | none => .inl c :: Pattern.scanFrom 0 (some c) rest
    | some found => .inr found :: Pattern.scanFrom ((pattern.spells found).length - 1) (some c) rest

def Pattern.scan (text : List Char) : List (Char ⊕ β) := pattern.scanFrom 0 none text

def spell (fill : β → List Char) (pieces : List (Char ⊕ β)) : List Char := pieces.flatMap (Sum.elim (fun c => [c]) fill)

/-- `re.sub` -/
def Pattern.sub (fill : β → List Char) (text : List Char) : List Char := spell fill (pattern.scan text)

/-- The matches, in order. -/
def matches_ (pieces : List (Char ⊕ β)) : List β := pieces.filterMap Sum.getRight?

/-- A name for each match in its place, counted from a number on. -/
def nameFrom (name : Nat → List Char) : Nat → List (Char ⊕ β) → List Char
  | _, [] => []
  | number, .inl c :: rest => c :: nameFrom name number rest
  | number, .inr _ :: rest => name number ++ nameFrom name (number + 1) rest

/-- `str.replace` -/
def replaceAll (old new text : List Char) : List Char := new.intercalate (split old text)

theorem Pattern.scanFrom_skip (passed rest : List Char) (before : Option Char) :
    pattern.scanFrom passed.length before (passed ++ rest) = pattern.scanFrom 0 (passed.getLast?.or before) rest := by
  induction passed generalizing before with
  | nil => rfl
  | cons c passed ih =>
    rw [List.length_cons, List.cons_append, Pattern.scanFrom, ih (some c), List.getLast?_cons]
    cases passed.getLast? <;> rfl

theorem Pattern.scanFrom_none {c : Char} {rest : List Char} {before : Option Char}
    (none : pattern.find before (c :: rest) = none) :
    pattern.scanFrom 0 before (c :: rest) = .inl c :: pattern.scanFrom 0 (some c) rest := by
  rw [Pattern.scanFrom, none]

theorem Pattern.scanFrom_some {text rest : List Char} {before : Option Char} {found : β}
    (some_ : pattern.find before text = some found) (split : text = pattern.spells found ++ rest) :
    pattern.scanFrom 0 before text = .inr found :: pattern.scanFrom 0 (pattern.spells found).getLast? rest := by
  subst split
  have filled := pattern.filled found
  cases taken : pattern.spells found with
  | nil => exact absurd taken filled
  | cons c passed =>
    rw [taken, List.cons_append] at some_
    rw [List.cons_append, Pattern.scanFrom, some_]
    simp only [taken, List.length_cons, Nat.add_sub_cancel, pattern.scanFrom_skip, List.getLast?_cons]
    cases passed.getLast? <;> rfl

/-- One search at a position: nothing is found there, or a match and what it leaves. -/
theorem Pattern.find_cases (before : Option Char) (text : List Char) :
    pattern.find before text = none ∨ ∃ found rest, pattern.find before text = some found ∧ text = pattern.spells found ++ rest := by
  cases search : pattern.find before text with
  | none => exact Or.inl rfl
  | some found =>
    obtain ⟨rest, same⟩ := pattern.reads search
    exact Or.inr ⟨found, rest, rfl, same.symm⟩

/-- What holds of the empty text, of a character put in front and of a match put in front holds of every scan. -/
theorem Pattern.scan_induction {motive : Option Char → List Char → List (Char ⊕ β) → Prop}
    (empty : ∀ before, motive before [] [])
    (kept : ∀ before c rest, pattern.find before (c :: rest) = none →
      motive (some c) rest (pattern.scanFrom 0 (some c) rest) →
        motive before (c :: rest) (.inl c :: pattern.scanFrom 0 (some c) rest))
    (found : ∀ before b rest, pattern.find before (pattern.spells b ++ rest) = some b →
      motive (pattern.spells b).getLast? rest (pattern.scanFrom 0 (pattern.spells b).getLast? rest) →
        motive before (pattern.spells b ++ rest) (.inr b :: pattern.scanFrom 0 (pattern.spells b).getLast? rest))
    (before : Option Char) (text : List Char) : motive before text (pattern.scanFrom 0 before text) := by
  induction size : text.length using Nat.strong_induction_on generalizing before text with
  | _ size ih =>
    subst size
    cases text with
    | nil => exact empty before
    | cons c rest =>
      rcases pattern.find_cases before (c :: rest) with none | ⟨b, left, search, same⟩
      · rw [pattern.scanFrom_none none]
        exact kept before c rest none (ih rest.length (Nat.lt_succ_self _) _ _ rfl)
      · rw [pattern.scanFrom_some search same]
        have shorter : left.length < (c :: rest).length := by
          have some_ := List.length_pos_iff.mpr (pattern.filled b)
          rw [same, List.length_append]
          omega
        have later := ih left.length shorter (pattern.spells b).getLast? left rfl
        rw [same] at search ⊢
        exact found before b left search later

theorem Pattern.spell_scanFrom (before : Option Char) (text : List Char) :
    spell pattern.spells (pattern.scanFrom 0 before text) = text := by
  induction before, text using pattern.scan_induction with
  | empty => rfl
  | kept before c rest _ ih => exact congrArg (c :: ·) ih
  | found before b rest _ ih => exact congrArg (pattern.spells b ++ ·) ih

/-- With each match spelled out again the text is what it was. -/
theorem Pattern.spell_scan (text : List Char) : spell pattern.spells (pattern.scan text) = text :=
  pattern.spell_scanFrom none text

/-- Where the pattern is found nowhere, nothing is replaced. -/
theorem Pattern.sub_quiet (fill : β → List Char) {text : List Char}
    (quiet : ∀ before rest, rest <:+ text → pattern.find before rest = none) : pattern.sub fill text = text := by
  suffices general : ∀ before, spell fill (pattern.scanFrom 0 before text) = text from general none
  induction text with
  | nil => exact fun _ => rfl
  | cons c text ih =>
    intro before
    rw [pattern.scanFrom_none (quiet before _ List.suffix_rfl)]
    exact congrArg (c :: ·) (ih (fun before rest ends => quiet before rest (ends.trans (List.suffix_cons c text))) (some c))

/-- Replacements that are no longer than what they replace make no text longer. -/
theorem Pattern.length_sub_le (fill : β → List Char) (shorter : ∀ found, (fill found).length ≤ (pattern.spells found).length)
    (text : List Char) : (pattern.sub fill text).length ≤ text.length := by
  suffices general : ∀ pieces : List (Char ⊕ β), (spell fill pieces).length ≤ (spell pattern.spells pieces).length by
    exact (general _).trans_eq (congrArg List.length (pattern.spell_scan text))
  intro pieces
  induction pieces with
  | nil => exact Nat.le_refl 0
  | cons piece pieces ih =>
    simp only [spell, List.flatMap_cons, List.length_append] at ih ⊢
    refine Nat.add_le_add ?_ ih
    cases piece with
    | inl c => exact Nat.le_refl _
    | inr found => exact shorter found

end OpenTulpa.Library.Substitution
