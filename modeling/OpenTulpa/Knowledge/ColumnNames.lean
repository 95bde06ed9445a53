import OpenTulpa.Knowledge.Extraction
import OpenTulpa.Library.Numeration

/-! The names of spreadsheet columns as numerals of the base 26 without a zero: the loop that writes them ends for every
index, and names and indexes correspond one to one. -/

namespace OpenTulpa.Knowledge.ColumnNames

open Library Library.Text Library.Numeration Tables

/-- The turns of the loop of `_column_label`, which collects the last letter first; `none` when they are too few. -/
def labelTurns : Nat → Nat → List Char → Option (List Char)
  | _, 0, chars => some chars
  | 0, _ + 1, _ => none
  | turns + 1, value + 1, chars => labelTurns turns (value / 26) (chars ++ [Char.ofNat (65 + value % 26)])

/-- `_column_label` with a number of turns. -/
def labelIn (turns : Nat) (index : Int) : Option (List Char) :=
  if index ≤ 0 then some [] else (labelTurns turns index.toNat []).map List.reverse

/-- `_column_label` -/
def labelOf (index : Int) : List Char := columnLabel index.toNat

def letter (digit : Nat) : Char := Char.ofNat (64 + digit)

def rank (c : Char) : Nat := c.toNat - 64

theorem labelTurns_enough {turns value : Nat} (enough : value ≤ turns) (chars : List Char) :
    labelTurns turns value chars = some (chars ++ (columnLabelFrom turns value).reverse) := by
  induction turns, value, chars using labelTurns.induct with
  | case1 turns chars => cases turns <;> simp [labelTurns, columnLabelFrom]
  | case2 => omega
  | case3 turns value chars ih =>
    have smaller : value / 26 ≤ turns := (Nat.div_le_self value 26).trans (by omega)
    rw [labelTurns, ih smaller, columnLabelFrom, List.reverse_append, List.append_assoc]
    rfl

theorem columnLabelFrom_eq (fuel value : Nat) : columnLabelFrom fuel value = (numeralFrom 26 fuel value).map letter := by
  induction fuel, value using columnLabelFrom.induct with
  | case1 => rfl
  | case2 => simp [columnLabelFrom, numeralFrom]
  | case3 fuel value ih =>
    rw [columnLabelFrom, numeralFrom, List.map_append, ih, List.map_singleton, letter, Nat.add_comm (value % 26) 1,
      ← Nat.add_assoc]

theorem columnLabel_eq (index : Nat) : columnLabel index = (numeral 26 index).map letter := columnLabelFrom_eq index index

/-- As many turns as the index are enough, and more make no difference. -/
theorem labelIn_enough {turns : Nat} {index : Int} (enough : index ≤ turns) : labelIn turns index = some (labelOf index) := by
  unfold labelIn labelOf
  split
  · rename_i blank
    rw [Int.toNat_of_nonpos blank]
    rfl
  · have fits : index.toNat ≤ turns := by omega
    rw [labelTurns_enough fits, Option.map_some, List.nil_append, List.reverse_reverse, columnLabelFrom_eq,
      numeralFrom_enough (by decide) fits, columnLabel_eq]

theorem rank_bounds {c : Char} (upper : c.isUpper = true) : 1 ≤ rank c ∧ rank c ≤ 26 ∧ letter (rank c) = c := by
  obtain ⟨low, high⟩ := Characters.isUpper_iff.mp upper
  refine ⟨by rw [rank]; omega, by rw [rank]; omega, ?_⟩
  rw [letter, rank, Nat.add_sub_cancel' (by omega), Char.ofNat_toNat]

theorem foldl_letterStep {name : List Char} (upper : ∀ c ∈ name, c.isUpper = true) :
    name.foldl letterStep 0 = (value 26 (name.map rank) : Int) := by
  induction name using List.reverseRecOn with
  | nil => rfl
  | append_singleton front c ih =>
    have low := (Characters.isUpper_iff.mp (upper c (by simp))).1
    rw [List.foldl_append, ih fun d member => upper d (by simp [member]), List.map_append, List.map_singleton, value_append,
      List.foldl_cons, List.foldl_nil, letterStep, rank]
    omega

/-- A name in capital letters is read as the numeral of its letters. -/
theorem columnIndex_letters (platform : Platform) {name : List Char} (upper : ∀ c ∈ name, c.isUpper = true) :
    columnIndex platform name = (value 26 (name.map rank) : Int) := by
  rw [columnIndex_upper platform upper, foldl_letterStep upper]

theorem labelOf_columnIndex (platform : Platform) {name : List Char} (upper : ∀ c ∈ name, c.isUpper = true) :
    labelOf (columnIndex platform name) = name := by
  have written : Digits 26 (name.map rank) := by
    intro digit member
    obtain ⟨c, inside, rfl⟩ := List.mem_map.mp member
    have bounds := rank_bounds (upper c inside)
    exact ⟨bounds.1, bounds.2.1⟩
  rw [columnIndex_letters platform upper, labelOf, Int.toNat_natCast, columnLabel_eq, numeral_value written, List.map_map]
  exact (List.map_congr_left fun c inside => (rank_bounds (upper c inside)).2.2).trans (List.map_id name)

theorem columnIndex_labelOf (platform : Platform) {index : Int} (positive : 1 ≤ index) :
    columnIndex platform (labelOf index) = index := by
  have upper : ∀ c ∈ columnLabel index.toNat, c.isUpper = true := columnLabelFrom_isUpper _ _
  rw [labelOf, columnIndex_upper platform upper, columnLabel, foldl_columnLabelFrom (Nat.le_refl _),
    Int.toNat_of_nonneg (by omega)]

/-- The loop of `_column_label` ends for every index; an index from one on is the index of its label, and a name in the
letters from A to Z is the label of its index. -/
theorem columns_correspond (platform : Platform) :
    (∀ index : Int, ∃ turns, ∀ more ≥ turns, labelIn more index = some (labelOf index)) ∧
      (∀ index : Int, 1 ≤ index → columnIndex platform (labelOf index) = index) ∧
      ∀ name : List Char, name ≠ [] → (∀ c ∈ name, 'A' ≤ c ∧ c ≤ 'Z') → labelOf (columnIndex platform name) = name := by
  refine ⟨fun index => ⟨index.toNat, fun more enough => labelIn_enough (by omega)⟩,
    fun index positive => columnIndex_labelOf platform positive, fun name _ letters => labelOf_columnIndex platform ?_⟩
  intro c member
  obtain ⟨low, high⟩ := letters c member
  exact decide_eq_true ⟨low, high⟩

theorem columns_correspond_last :
    columnIndex asciiPlatform (labelOf 702) = 702 ∧ labelOf (columnIndex asciiPlatform "ZZ".toList) = "ZZ".toList :=
  ⟨(columns_correspond asciiPlatform).2.1 702 (by decide),
    (columns_correspond asciiPlatform).2.2 "ZZ".toList (by decide) (by decide)⟩

end OpenTulpa.Knowledge.ColumnNames
