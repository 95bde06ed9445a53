import OpenTulpa.Library.Spaces
import OpenTulpa.Library.Splitting

/-! Table rows as text: the lines that the extraction writes for the rows of a spreadsheet or a delimited file, and the
reader that takes rows and cells out of such lines again. -/

namespace OpenTulpa.Knowledge.Tables

open Library Library.Text Library.Spaces Library.Splitting

section Texts

/-- `_clean_text` -/
def cleanText (text : List Char) : List Char := stripChars (collapseFrom false text)

theorem visible_cleanText (text : List Char) : visible (cleanText text) = visible text := by
  rw [cleanText, stripChars, ← rstrip, visible_rstrip, visible_dropWhile, visible_collapseFrom]

theorem cleanText_append_space (text : List Char) {space : List Char} (white : ∀ c ∈ space, isSpace c = true) :
    cleanText (text ++ space) = cleanText text := by
  induction space using List.reverseRecOn with
  | nil => rw [List.append_nil]
  | append_singleton space c ih =>
    obtain ⟨blank, same, white'⟩ := collapseFrom_append_space false (text ++ space) (white c (by simp))
    rw [← List.append_assoc, cleanText, same, stripChars_append_space _ white', ← cleanText,
      ih fun d member => white d (by simp [member])]

theorem cleanText_rstrip (text : List Char) : cleanText (rstrip text) = cleanText text := by
  obtain ⟨space, same, white⟩ := rstrip_append text
  conv_rhs => rw [same, cleanText_append_space _ white]

/-- What is cut off a text and can be seen is missing from the clean text. -/
theorem cleanText_ne {text rest : List Char} (shown : visible rest ≠ []) : cleanText text ≠ cleanText (text ++ rest) := by
  intro same
  have counted := congrArg visible same
  rw [visible_cleanText, visible_cleanText, visible_append] at counted
  exact shown (List.self_eq_append_right.mp counted)

end Texts

section Columns

/-- The parts of the language that look characters up in Unicode: decimal digits, `int` and `upper`. -/
structure Platform where
  digit : Char → Option Nat
  digit_ascii : ∀ c, c.isDigit = true → digit c = some (c.toNat - 48)
  digit_colon : digit ':' = none
  int : List Char → Option Int
  int_ascii : ∀ number : Nat, int (Nat.toDigits 10 number) = some (number : Int)
  upper : List Char → List Char
  upper_letters : ∀ text, (∀ c ∈ text, c.isUpper = true) → upper text = text

variable (platform : Platform)

/-- One letter of a column name. -/
def letterStep (total : Int) (c : Char) : Int := total * 26 + (c.toNat - 64)

def columnPrefix : List Char := ['c', 'o', 'l', '_']

/-- `_column_index` -/
def columnIndex (column : List Char) : Int :=
  let text := stripChars column
  if columnPrefix.isPrefixOf (text.map Char.toLower) then (platform.int (text.drop 4)).getD (-1)
  else if (platform.upper text).all Char.isUpper then (platform.upper text).foldl letterStep 0 else -1

def columnLabelFrom : Nat → Nat → List Char
  | 0, _ | _, 0 => []
  | fuel + 1, value + 1 => columnLabelFrom fuel (value / 26) ++ [Char.ofNat (65 + value % 26)]

/-- `_column_label` -/
def columnLabel (index : Nat) : List Char := columnLabelFrom index index

/-- The name of a column in the lines of a delimited file and of the header context. -/
def columnName (index : Nat) : List Char := columnPrefix ++ Nat.toDigits 10 index

theorem letter_isUpper (value : Nat) : (Char.ofNat (65 + value % 26)).isUpper = true ∧
    (Char.ofNat (65 + value % 26)).toNat = 65 + value % 26 := by
  have below : value % 26 < 26 := Nat.mod_lt _ (by decide)
  have all : ∀ n < 26, (Char.ofNat (65 + n)).isUpper = true ∧ (Char.ofNat (65 + n)).toNat = 65 + n := by decide
  exact all _ below

theorem columnLabelFrom_isUpper (fuel value : Nat) : ∀ c ∈ columnLabelFrom fuel value, c.isUpper = true := by
  induction fuel, value using columnLabelFrom.induct with
  | case1 => exact nofun
  | case2 => exact fun c member => by simp [columnLabelFrom] at member
  | case3 fuel value ih =>
    intro c member
    rw [columnLabelFrom] at member
    rcases List.mem_append.mp member with front | last
    · exact ih c front
    · rw [List.mem_singleton.mp last]
      exact (letter_isUpper value).1

theorem foldl_columnLabelFrom {fuel value : Nat} (enough : value ≤ fuel) :
    (columnLabelFrom fuel value).foldl letterStep 0 = value := by
  induction fuel, value using columnLabelFrom.induct with
  | case1 value =>
    obtain rfl : value = 0 := Nat.le_zero.mp enough
    rfl
  | case2 => simp [columnLabelFrom]
  | case3 fuel value ih =>
    have smaller : value / 26 ≤ fuel := (Nat.div_le_self value 26).trans (by omega)
    rw [columnLabelFrom, List.foldl_append, ih smaller, List.foldl_cons, List.foldl_nil, letterStep,
      (letter_isUpper value).2]
    push_cast
    omega

theorem not_isSpace_of_isUpper {c : Char} (upper : c.isUpper = true) : isSpace c = false := by
  obtain ⟨low, high⟩ := Characters.isUpper_iff.mp upper
  simp only [isSpace, Bool.or_eq_false_iff, Bool.and_eq_false_iff, decide_eq_false_iff_not, beq_eq_false_iff_ne]
  omega

theorem toLower_ne_under {c : Char} (upper : c.isUpper = true) : c.toLower ≠ '_' := by
  obtain ⟨low, high⟩ := Characters.isUpper_iff.mp upper
  have all : ∀ n < 91, 65 ≤ n → (Char.ofNat n).toLower ≠ '_' := by decide
  have here := all c.toNat (by omega) low
  rwa [Char.ofNat_toNat] at here

/-- Names of columns that are read as their numbers. -/
structure Spells (label : Nat → List Char) : Prop where
  index : ∀ index, 0 < index → columnIndex platform (stripChars (label index)) = index
  filled : ∀ index, 0 < index → label index ≠ []
  shown : ∀ index, ∀ c ∈ label index, isSpace c = false ∧ c ≠ '='

theorem columnIndex_upper {name : List Char} (upper : ∀ c ∈ name, c.isUpper = true) :
    columnIndex platform name = name.foldl letterStep 0 := by
  have plain : stripChars name = name := trimChars_of_visible fun c member => not_isSpace_of_isUpper (upper c member)
  have letters : columnPrefix.isPrefixOf (name.map Char.toLower) = false := by
    rw [Bool.eq_false_iff]
    intro named
    have under : '_' ∈ name.map Char.toLower := (List.isPrefixOf_iff_prefix.mp named).subset (by decide)
    obtain ⟨c, member, lower⟩ := List.mem_map.mp under
    exact toLower_ne_under (upper c member) lower
  rw [columnIndex, plain, letters, platform.upper_letters _ upper, if_neg Bool.false_ne_true,
    if_pos (List.all_eq_true.mpr upper)]

theorem spells_columnLabel : Spells platform columnLabel where
  index index _ := by
    have upper : ∀ c ∈ columnLabel index, c.isUpper = true := columnLabelFrom_isUpper index index
    have plain : stripChars (columnLabel index) = columnLabel index :=
      trimChars_of_visible fun c member => not_isSpace_of_isUpper (upper c member)
    rw [plain, columnIndex_upper platform upper, columnLabel, foldl_columnLabelFrom (Nat.le_refl index)]
  filled index positive := by
    obtain ⟨value, rfl⟩ := Nat.exists_eq_succ_of_ne_zero (Nat.ne_of_gt positive)
    simp [columnLabel, columnLabelFrom]
  shown index c member := by
    have upper := columnLabelFrom_isUpper index index c member
    refine ⟨not_isSpace_of_isUpper upper, ?_⟩
    rintro rfl
    cases upper

theorem isDigit_of_mem_toDigits {number : Nat} {c : Char} (member : c ∈ Nat.toDigits 10 number) : c.isDigit = true :=
  Nat.isDigit_of_mem_toDigits (by decide) (by decide) member

theorem columnName_shown (index : Nat) : ∀ c ∈ columnName index, isSpace c = false ∧ c ≠ '=' := by
  intro c member
  rcases List.mem_append.mp member with named | digit
  · have all : ∀ c ∈ columnPrefix, isSpace c = false ∧ c ≠ '=' := by decide
    exact all c named
  · refine ⟨isSpace_of_isDigit (isDigit_of_mem_toDigits digit), ?_⟩
    rintro rfl
    exact absurd (isDigit_of_mem_toDigits digit) (by decide)

theorem spells_columnName : Spells platform columnName where
  index index _ := by
    have plain : stripChars (columnName index) = columnName index :=
      trimChars_of_visible fun c member => (columnName_shown index c member).1
    have named : columnPrefix.isPrefixOf ((columnName index).map Char.toLower) = true := by
      rw [columnName, List.map_append]
      exact List.isPrefixOf_iff_prefix.mpr (List.prefix_append columnPrefix _)
    have rest : (columnName index).drop 4 = Nat.toDigits 10 index := rfl
    rw [columnIndex, plain, plain, if_pos named, rest, platform.int_ascii, Option.getD_some]
  filled index _ := by simp [columnName, columnPrefix]
  shown := columnName_shown

end Columns

section Cells

variable (platform : Platform)

structure TableCell where
  column : List Char
  columnIndex : Nat
  value : List Char
  deriving DecidableEq

def separator : List Char := [' ', '|', ' ']

/-- One part of a row line; `none` when the part is passed. -/
def parseCell (part : List Char) : Option TableCell :=
  if part.contains '=' then
    let index := columnIndex platform (stripChars (part.takeWhile (· != '=')))
    let value := cleanText ((part.dropWhile (· != '=')).drop 1)
    if index ≤ 0 ∨ value = [] then none else some ⟨columnLabel index.toNat, index.toNat, value⟩
  else none

def parseCells (text : List Char) : List TableCell := (split separator text).filterMap (parseCell platform)

/-- A cell as the extraction writes it, by its column and its text. -/
def cellText (label : Nat → List Char) (cell : Nat × List Char) : List Char := label cell.1 ++ '=' :: cell.2

def rowText (label : Nat → List Char) (cells : List (Nat × List Char)) : List Char :=
  separator.intercalate (cells.map (cellText label))

/-- What the reader should make of a cell. -/
def expected (cell : Nat × List Char) : TableCell := ⟨columnLabel cell.1, cell.1, cleanText cell.2⟩

/-- The cells of a row as the extraction has them: the columns count from 1, and a text starts with something visible. -/
def Written (cells : List (Nat × List Char)) : Prop :=
  ∀ cell ∈ cells, 0 < cell.1 ∧ ∃ c rest, cell.2 = c :: rest ∧ isSpace c = false

def Unbroken (text : List Char) : Prop := ∀ c ∈ text, isLineBreak c = false

/-- The cells of a row can be told apart: no text has a line break or the separator, and only the last one may end in
what the separator begins with. -/
def Fits : List (Nat × List Char) → Prop
  | [] => True
  | [cell] => Unbroken (rstrip cell.2) ∧ ¬ separator <:+: rstrip cell.2
  | cell :: later => Unbroken cell.2 ∧ Free separator cell.2 ∧ Fits later

instance decidableFits : ∀ cells, Decidable (Fits cells)
  | [] => isTrue trivial
  | [cell] => inferInstanceAs (Decidable ((∀ c ∈ rstrip cell.2, isLineBreak c = false) ∧ ¬ separator <:+: rstrip cell.2))
  | cell :: next :: later =>
    haveI := decidableFits (next :: later)
    inferInstanceAs (Decidable ((∀ c ∈ cell.2, isLineBreak c = false) ∧ Free separator cell.2 ∧ Fits (next :: later)))

variable {platform} {label : Nat → List Char} (spells : Spells platform label)

include spells

theorem parseCell_cellText {index : Nat} (positive : 0 < index) (text : List Char) :
    parseCell platform (cellText label (index, text)) =
      if cleanText text = [] then none else some (expected (index, text)) := by
  have column : (cellText label (index, text)).takeWhile (· != '=') = label index := by
    rw [cellText, takeWhile_append_stop (by simp)]
    exact List.takeWhile_eq_self_iff.mpr fun c member => by simpa using (spells.shown index c member).2
  have value : (cellText label (index, text)).dropWhile (· != '=') = '=' :: text := by
    have none : (label index).dropWhile (· != '=') = [] :=
      List.dropWhile_eq_nil_iff.mpr fun c member => by simpa using (spells.shown index c member).2
    rw [cellText, List.dropWhile_append, none]
    simp
  have named : (cellText label (index, text)).contains '=' = true := by simp [cellText]
  rw [parseCell, if_pos named]
  simp only [column, value, List.drop_one, List.tail_cons, spells.index index positive]
  have above : ¬ (index : Int) ≤ 0 := by omega
  simp only [above, false_or, Int.toNat_natCast]
  rfl

theorem infix_cellText {index : Nat} {text : List Char} (occurs : separator <:+: cellText label (index, text)) :
    separator <:+: text := by
  have plain : ' ' ∉ label index ++ ['='] := by
    intro member
    rcases List.mem_append.mp member with named | last
    · have shown := (spells.shown index ' ' named).1
      cases shown
    · simp at last
  have shape : cellText label (index, text) = (label index ++ ['=']) ++ text := by simp [cellText]
  rw [shape] at occurs
  generalize label index ++ ['='] = front at plain occurs
  induction front with
  | nil => exact occurs
  | cons c front ih =>
    rcases List.infix_cons_iff.mp occurs with here | later
    · obtain ⟨same, _⟩ := List.cons_prefix_cons.mp here
      exact absurd (same ▸ List.mem_cons_self) plain
    · exact ih (fun member => plain (List.mem_cons_of_mem _ member)) later

omit spells in
theorem cellText_append (index : Nat) (text rest : List Char) :
    cellText label (index, text) ++ rest = cellText label (index, text ++ rest) := by
  simp [cellText]

/-- The first piece of a cell that has the separator is a cell with the text before it. -/
theorem piece_of_cellText {index : Nat} {text first : List Char} (inside : first ++ separator <+: cellText label (index, text)) :
    ∃ part, first = cellText label (index, part) ∧ part ++ separator <+: text := by
  obtain ⟨rest, same⟩ := inside
  have shape : cellText label (index, text) = (label index ++ ['=']) ++ text := by simp [cellText]
  rw [shape, List.append_assoc] at same
  rcases List.append_eq_append_iff.mp same with ⟨left, named, begins⟩ | ⟨part, whole, text'⟩
  · cases left with
    | nil =>
      rw [List.append_nil] at named
      rw [List.nil_append] at begins
      exact ⟨[], by simp [cellText, ← named], ⟨rest, begins⟩⟩
    | cons d left =>
      exfalso
      have space : d = ' ' := by
        simp only [separator, List.cons_append] at begins
        exact (List.cons.inj begins).1.symm
      have member : d ∈ label index ++ ['='] := by rw [named]; simp
      rw [space] at member
      rcases List.mem_append.mp member with inName | last
      · have shown := (spells.shown index ' ' inName).1
        cases shown
      · simp at last
  · exact ⟨part, by simp [cellText, whole], ⟨rest, by simp [text']⟩⟩

/-- A first piece that lacks something visible of its cell is not read as the cell. -/
theorem head_differs {index : Nat} (positive : 0 < index) {part missing : List Char} (shown : visible part ≠ [])
    (lost : visible missing ≠ []) (later : List (List Char)) (rest : List TableCell) :
    (cellText label (index, part) :: later).filterMap (parseCell platform) ≠ expected (index, part ++ missing) :: rest := by
  have clean : cleanText part ≠ [] := by
    intro none
    rw [← visible_cleanText, none] at shown
    exact shown rfl
  have parsed : parseCell platform (cellText label (index, part)) = some (expected (index, part)) := by
    rw [parseCell_cellText spells positive, if_neg clean]
  rw [List.filterMap_cons_some parsed]
  intro same
  have values := congrArg TableCell.value (List.cons.inj same).1
  exact cleanText_ne lost values

omit spells in
/-- In front of a separator that begins in a text something visible of the text is left, and behind it too. -/
theorem cut_text {text part : List Char} {c : Char} {rest : List Char} (begins : text = c :: rest)
    (shown : isSpace c = false) (inside : part ++ separator <+: text ++ separator.dropLast) :
    visible part ≠ [] ∧ ∃ missing, text = part ++ missing ∧ visible missing ≠ [] := by
  obtain ⟨tail, same⟩ := inside
  constructor
  · cases part with
    | nil =>
      rw [begins] at same
      have first : ' ' = c := (List.cons.inj same).1
      rw [← first] at shown
      cases shown
    | cons d part =>
      rw [begins] at same
      obtain rfl : d = c := (List.cons.inj same).1
      simp [visible, shown]
  · rw [List.append_assoc] at same
    rcases List.append_eq_append_iff.mp same with ⟨missing, whole, ends⟩ | ⟨early, _, ends⟩
    · refine ⟨missing, whole, ?_⟩
      rcases missing with _ | ⟨_, _ | ⟨d, _⟩⟩
      · simp [separator] at ends
      · simp [separator] at ends
      · obtain rfl : '|' = d := by simpa [separator] using (List.cons.inj (List.cons.inj ends).2).1
        have bar : isSpace '|' = false := by decide
        simp only [visible, List.filter_cons, bar]
        split <;> simp
    · have lengths := congrArg List.length ends
      simp [separator] at lengths
      omega

/-- A row whose first piece ends in the first cell is not read as the row. -/
theorem cut_differs {index : Nat} (positive : 0 < index) {text : List Char} {c : Char} {rest : List Char}
    (begins : text = c :: rest) (shown : isSpace c = false) {whole first : List Char} {later : List (List Char)}
    (cut : split separator whole = first :: later)
    (inside : first ++ separator <+: cellText label (index, text ++ separator.dropLast)) (cells : List TableCell) :
    parseCells platform whole ≠ expected (index, text) :: cells := by
  obtain ⟨part, rfl, within⟩ := piece_of_cellText spells inside
  obtain ⟨left, missing, whole', lost⟩ := cut_text begins shown within
  rw [parseCells, cut, whole']
  exact head_differs spells positive left lost later cells

end Cells

section Rows

/-- What of a text is on its first line. -/
def firstLine (text : List Char) : List Char := text.takeWhile fun c => !isLineBreak c

variable {platform : Platform} {label : Nat → List Char} (spells : Spells platform label)

include spells

omit spells in
theorem firstLine_append {text : List Char} (unbroken : Unbroken text) (rest : List Char) :
    firstLine (text ++ rest) = text ++ firstLine rest := by
  rw [firstLine, List.takeWhile_append_of_pos fun c member => by simpa using unbroken c member]
  rfl

omit spells in
/-- Behind the first line of a broken text there is a line break. -/
theorem firstLine_broken {text : List Char} (broken : ¬ Unbroken text) (rest : List Char) :
    ∃ c behind, isLineBreak c = true ∧ text = firstLine text ++ c :: behind ∧ firstLine (text ++ rest) = firstLine text := by
  induction text with
  | nil => exact absurd nofun broken
  | cons d text ih =>
    by_cases breaks : isLineBreak d = true
    · exact ⟨d, text, breaks, by simp [firstLine, breaks], by simp [firstLine, breaks]⟩
    · have plain : isLineBreak d = false := by simpa using breaks
      have later : ¬ Unbroken text := by
        intro unbroken
        refine broken fun c member => ?_
        rcases List.mem_cons.mp member with rfl | inside
        · exact plain
        · exact unbroken c inside
      obtain ⟨c, behind, breaks, split, same⟩ := ih later
      refine ⟨c, behind, breaks, ?_, ?_⟩
      · conv_lhs => rw [split]
        simp [firstLine, plain]
      · simpa [firstLine, plain] using same

theorem unbroken_label (index : Nat) : Unbroken (label index ++ ['=']) := by
  intro c member
  by_contra breaks
  have space := isSpace_of_isLineBreak (Bool.of_not_eq_false breaks)
  rcases List.mem_append.mp member with named | last
  · rw [(spells.shown index c named).1] at space
    cases space
  · rw [List.mem_singleton.mp last] at space
    cases space

omit spells in
theorem visible_firstLine {text : List Char} {c : Char} {rest : List Char} (begins : text = c :: rest)
    (shown : isSpace c = false) : visible (firstLine text) ≠ [] := by
  have plain : isLineBreak c = false := by
    by_contra breaks
    rw [isSpace_of_isLineBreak (Bool.of_not_eq_false breaks)] at shown
    cases shown
  simp [begins, firstLine, plain, visible, shown]

/-- The first line of a cell: the column and the first line of the text. -/
theorem rstrip_firstLine_cell (index : Nat) {text : List Char} {c : Char} {rest : List Char} (begins : text = c :: rest)
    (shown : isSpace c = false) :
    rstrip (firstLine (cellText label (index, text))) = cellText label (index, rstrip (firstLine text)) := by
  have shape (text : List Char) : cellText label (index, text) = (label index ++ ['=']) ++ text := by simp [cellText]
  rw [shape, firstLine_append (unbroken_label spells index), rstrip_append_visible _ (visible_firstLine begins shown),
    ← shape]

omit spells in
theorem unbroken_firstLine (text : List Char) : Unbroken (firstLine text) := by
  intro c member
  simpa using List.mem_takeWhile_imp member

omit spells in
theorem unbroken_rstrip {text : List Char} (unbroken : Unbroken text) : Unbroken (rstrip text) :=
  fun c member => unbroken c ((List.rdropWhile_prefix isSpace _).subset member)

omit spells in
theorem rstrip_firstLine {text : List Char} (unbroken : Unbroken (rstrip text)) :
    rstrip (firstLine text) = rstrip text := by
  obtain ⟨space, same, white⟩ := rstrip_append text
  have left : ∀ c ∈ firstLine space, isSpace c = true := fun c member => white c ((List.takeWhile_prefix _).subset member)
  conv_lhs => rw [same, firstLine_append unbroken, rstrip_append_space left, rstrip_rstrip]

/-- A first text with the separator on its first line is cut short. -/
theorem separated_differs {index : Nat} (positive : 0 < index) {text : List Char} {c : Char} {rest : List Char}
    (begins : text = c :: rest) (shown : isSpace c = false) {part : List Char} (inside : part <+: text)
    (occurs : separator <:+: part) (cells : List TableCell) :
    parseCells platform (cellText label (index, part)) ≠ expected (index, text) :: cells := by
  have within : separator <:+: cellText label (index, part) := by
    obtain ⟨front, back, rfl⟩ := occurs
    exact ⟨label index ++ '=' :: front, back, by simp [cellText]⟩
  obtain ⟨first, later, cut, ends⟩ := split_occurs (by decide) within []
  rw [List.append_nil] at cut
  refine cut_differs spells positive begins shown cut (ends.trans ?_) cells
  obtain ⟨missing, rfl⟩ := inside
  exact ⟨missing ++ separator.dropLast, by simp [cellText]⟩

/-- A row whose first text is broken by a line break is not read as the row, unless it is the last and nothing can be
seen behind the break. -/
theorem broken_differs {index : Nat} (positive : 0 < index) {text : List Char} {c : Char} {rest : List Char}
    (begins : text = c :: rest) (shown : isSpace c = false) (broken : ¬ Unbroken text) (behind : List Char)
    {cells : List TableCell} (more : cells ≠ [] ∨ ¬ Fits [(index, text)]) :
    parseCells platform (rstrip (firstLine (cellText label (index, text) ++ behind))) ≠
      expected (index, text) :: cells := by
  have cellBroken : ¬ Unbroken (cellText label (index, text)) := fun unbroken =>
    broken fun d member => unbroken d (by simp [cellText, member])
  obtain ⟨_, _, _, _, line⟩ := firstLine_broken cellBroken behind
  obtain ⟨d, hidden, _, whole, _⟩ := firstLine_broken broken []
  obtain ⟨space, stripped, white⟩ := rstrip_append (firstLine text)
  rw [line, rstrip_firstLine_cell spells index begins shown]
  have split' : text = rstrip (firstLine text) ++ (space ++ d :: hidden) := by
    rw [← List.append_assoc, ← stripped]
    exact whole
  by_cases occurs : separator <:+: rstrip (firstLine text)
  · exact separated_differs spells positive begins shown ⟨_, split'.symm⟩ occurs cells
  · have alone : ¬ separator <:+: cellText label (index, rstrip (firstLine text)) :=
      fun within => occurs (infix_cellText spells within)
    rw [parseCells, split_whole alone]
    by_cases lost : visible (space ++ d :: hidden) = []
    · have fits : Fits [(index, text)] := by
        have same : rstrip text = rstrip (firstLine text) := by
          conv_lhs => rw [split', rstrip_append_space (visible_eq_nil.mp lost)]
          conv_rhs => rw [stripped, rstrip_append_space white]
        exact ⟨by rw [same]; exact unbroken_rstrip (unbroken_firstLine text), by rw [same]; exact occurs⟩
      have other := more.resolve_right (not_not_intro fits)
      intro same
      have lengths := congrArg List.length same
      have short := List.length_filterMap_le (parseCell platform) [cellText label (index, rstrip (firstLine text))]
      have long : 0 < cells.length := List.length_pos_iff.mpr other
      simp only [List.length_cons, List.length_nil] at lengths short
      omega
    · have left : visible (rstrip (firstLine text)) ≠ [] := by
        rw [visible_rstrip]
        exact visible_firstLine begins shown
      have differs := head_differs spells positive left lost [] cells
      rwa [← split'] at differs

omit spells in
theorem rowText_cons (cell next : Nat × List Char) (later : List (Nat × List Char)) :
    rowText label (cell :: next :: later) = cellText label cell ++ separator ++ rowText label (next :: later) := by
  simp [rowText, List.intercalate]

/-- The last cell of a row. -/
theorem parseCells_last {index : Nat} (positive : 0 < index) {text : List Char} {c : Char} {rest : List Char}
    (begins : text = c :: rest) (shown : isSpace c = false) :
    parseCells platform (rstrip (firstLine (cellText label (index, text)))) = [expected (index, text)] ↔
      Fits [(index, text)] := by
  constructor
  · intro same
    by_contra unfit
    by_cases unbroken : Unbroken text
    · rw [rstrip_firstLine_cell spells index begins shown, rstrip_firstLine (unbroken_rstrip unbroken)] at same
      have occurs : separator <:+: rstrip text := by
        by_contra none
        exact unfit ⟨unbroken_rstrip unbroken, none⟩
      exact separated_differs spells positive begins shown (List.rdropWhile_prefix isSpace text) occurs [] same
    · have differs := broken_differs spells positive begins shown unbroken [] (Or.inr unfit : [] ≠ [] ∨ _)
      rw [List.append_nil] at differs
      exact differs same
  · rintro ⟨unbroken, none⟩
    have alone : ¬ separator <:+: cellText label (index, rstrip text) := fun within => none (infix_cellText spells within)
    have clean : cleanText (rstrip text) ≠ [] := by
      intro blank
      have seen := congrArg visible blank
      rw [visible_cleanText, visible_rstrip, begins] at seen
      simp [visible, shown] at seen
    rw [rstrip_firstLine_cell spells index begins shown, rstrip_firstLine unbroken, parseCells, split_whole alone]
    rw [List.filterMap_cons_some (by rw [parseCell_cellText spells positive, if_neg clean]), List.filterMap_nil, expected,
      cleanText_rstrip]
    rfl

theorem unbroken_cellText (index : Nat) {text : List Char} (unbroken : Unbroken text) :
    Unbroken (cellText label (index, text) ++ separator) := by
  have shape : cellText label (index, text) = (label index ++ ['=']) ++ text := by simp [cellText]
  intro d member
  rcases List.mem_append.mp member with inside | last
  · rw [shape] at inside
    rcases List.mem_append.mp inside with named | of
    · exact unbroken_label spells index d named
    · exact unbroken d of
  · have all : ∀ d ∈ separator, isLineBreak d = false := by decide
    exact all d last

theorem visible_firstLine_rowText (cell : Nat × List Char) (later : List (Nat × List Char)) :
    visible (firstLine (rowText label (cell :: later))) ≠ [] := by
  obtain ⟨rest, shape⟩ : ∃ rest, rowText label (cell :: later) = (label cell.1 ++ ['=']) ++ rest := by
    cases later with
    | nil => exact ⟨cell.2, by simp [rowText, List.intercalate, cellText]⟩
    | cons next later => exact ⟨cell.2 ++ separator ++ rowText label (next :: later), by simp [rowText_cons, cellText]⟩
  have equals : isSpace '=' = false := by decide
  rw [shape, firstLine_append (unbroken_label spells cell.1), visible_append, visible_append]
  simp [visible, equals]

/-- A cell that fits, in front of others. -/
theorem parseCells_cons {index : Nat} (positive : 0 < index) {text : List Char} {c : Char} {rest : List Char}
    (begins : text = c :: rest) (shown : isSpace c = false) (unbroken : Unbroken text) (free : Free separator text)
    {behind : List Char} (seen : visible (firstLine behind) ≠ []) :
    parseCells platform (rstrip (firstLine (cellText label (index, text) ++ separator ++ behind))) =
      expected (index, text) :: parseCells platform (rstrip (firstLine behind)) := by
  have free' : Free separator (cellText label (index, text)) := by
    intro occurs
    rw [cellText_append] at occurs
    exact free (infix_cellText spells occurs)
  have clean : cleanText text ≠ [] := by
    intro blank
    have left := congrArg visible blank
    rw [visible_cleanText, begins] at left
    simp [visible, shown] at left
  rw [firstLine_append (unbroken_cellText spells index unbroken), rstrip_append_visible _ seen, parseCells, split_append (by decide) free',
    List.filterMap_cons_some (by rw [parseCell_cellText spells positive, if_neg clean])]
  rfl

/-- The first line of a row gives back its cells exactly when they can be told apart. -/
theorem parseCells_iff {cells : List (Nat × List Char)} (written : Written cells) (filled : cells ≠ []) :
    parseCells platform (rstrip (firstLine (rowText label cells))) = cells.map expected ↔ Fits cells := by
  induction cells with
  | nil => exact absurd rfl filled
  | cons cell later ih =>
    obtain ⟨index, text⟩ := cell
    obtain ⟨positive, c, rest, begins, shown⟩ := written (index, text) List.mem_cons_self
    cases later with
    | nil =>
      have alone : rowText label [(index, text)] = cellText label (index, text) := by simp [rowText, List.intercalate]
      rw [alone]
      exact parseCells_last spells positive begins shown
    | cons next later =>
      have others : Written (next :: later) := fun cell member => written cell (List.mem_cons_of_mem _ member)
      have seen := visible_firstLine_rowText spells next later
      rw [rowText_cons, List.map_cons]
      by_cases unbroken : Unbroken text
      · by_cases free : Free separator text
        · rw [parseCells_cons spells positive begins shown unbroken free seen, List.cons.injEq, ih others (by simp)]
          exact ⟨fun fits => ⟨unbroken, free, fits.2⟩, fun fits => ⟨rfl, fits.2.2⟩⟩
        · have whole : rstrip (firstLine (cellText label (index, text) ++ separator ++ rowText label (next :: later))) =
              cellText label (index, text ++ separator.dropLast) ++
                ' ' :: rstrip (firstLine (rowText label (next :: later))) := by
            rw [firstLine_append (unbroken_cellText spells index unbroken), rstrip_append_visible _ seen]
            simp [cellText, separator]
          have within : separator <:+: cellText label (index, text ++ separator.dropLast) := by
            obtain ⟨front, back, same⟩ := not_not.mp free
            exact ⟨label index ++ '=' :: front, back, by simp [cellText, ← same]⟩
          obtain ⟨first, pieces, cut, inside⟩ := split_occurs (by decide) within
            (' ' :: rstrip (firstLine (rowText label (next :: later))))
          rw [whole]
          exact iff_of_false (cut_differs spells positive begins shown cut inside _) fun fits => free fits.2.1
      · have differs := broken_differs spells positive begins shown unbroken (separator ++ rowText label (next :: later))
          (Or.inl (by simp) : (next :: later).map expected ≠ [] ∨ _)
        rw [← List.append_assoc] at differs
        exact iff_of_false differs fun fits => unbroken fits.1

end Rows

end OpenTulpa.Knowledge.Tables
