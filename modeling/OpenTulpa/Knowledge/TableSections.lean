import OpenTulpa.Knowledge.Tables

/-! The sections that the extraction makes of a table, and the rows that are read from their text. A section holds the
header context and a run of the rows, every row on one line, and gives them back exactly when the cells of its rows can
be told apart. -/

namespace OpenTulpa.Knowledge.TableSections

open Library Library.Text Library.Spaces Library.Splitting Tables

section Reading

variable (platform : Platform)

def isDigit (c : Char) : Bool := (platform.digit c).isSome

/-- `int` of a run of digits. -/
def numberOf (digits : List Char) : Nat := digits.foldl (fun total c => 10 * total + (platform.digit c).getD 0) 0

/-- `_parse_row_line` -/
def parseRowLine (line : List Char) : Option (Nat × List TableCell) :=
  match stripChars line with
  | 'R' :: 'o' :: 'w' :: rest =>
    let gap := rest.takeWhile isSpace
    let digits := (rest.dropWhile isSpace).takeWhile (isDigit platform)
    if gap.isEmpty || digits.isEmpty then none
    else
      match (rest.dropWhile isSpace).dropWhile (isDigit platform) with
      | ':' :: body => some (numberOf platform digits, parseCells platform (body.dropWhile isSpace))
      | _ => none
  | _ => none

def rowReader : LineReader (Nat × List TableCell) where
  read := parseRowLine platform
  blank := rfl
  trailing line c space := by
    rw [parseRowLine, stripChars_append_space line (by simpa using space), ← parseRowLine]

/-- The first of the rows of each number. -/
def keepFirst {β : Type} : List Nat → List (Nat × β) → List (Nat × β)
  | _, [] => []
  | seen, row :: rest => if row.1 ∈ seen then keepFirst seen rest else row :: keepFirst (row.1 :: seen) rest

/-- `_parsed_rows` -/
def parsedRows (content : List Char) : List (Nat × List TableCell) := keepFirst [] ((rowReader platform).readLines content)

theorem mem_of_mem_keepFirst {β : Type} {seen : List Nat} {rows : List (Nat × β)} {row : Nat × β}
    (member : row ∈ keepFirst seen rows) : row ∈ rows := by
  induction rows generalizing seen with
  | nil => cases member
  | cons first rows ih =>
    rw [keepFirst] at member
    split at member
    · exact List.mem_cons_of_mem _ (ih member)
    · rcases List.mem_cons.mp member with rfl | later
      · exact List.mem_cons_self
      · exact List.mem_cons_of_mem _ (ih later)

theorem nodup_keepFirst {β : Type} (seen : List Nat) (rows : List (Nat × β)) :
    ((keepFirst seen rows).map Prod.fst).Nodup ∧ ∀ row ∈ keepFirst seen rows, row.1 ∉ seen := by
  induction rows generalizing seen with
  | nil => exact ⟨List.nodup_nil, nofun⟩
  | cons first rows ih =>
    rw [keepFirst]
    split
    · exact ih seen
    · rename_i fresh
      obtain ⟨apart, unseen⟩ := ih (first.1 :: seen)
      refine ⟨List.nodup_cons.mpr ⟨fun member => ?_, apart⟩, fun row member => ?_⟩
      · obtain ⟨row, later, same⟩ := List.mem_map.mp member
        exact unseen row later (List.mem_cons.mpr (Or.inl same))
      · rcases List.mem_cons.mp member with rfl | later
        · exact fresh
        · exact fun before => unseen row later (List.mem_cons_of_mem _ before)

/-- The first row of a number is kept. -/
theorem mem_keepFirst {β : Type} {seen : List Nat} {front later : List (Nat × β)} {row : Nat × β}
    (fresh : row.1 ∉ seen) (first : ∀ other ∈ front, other.1 ≠ row.1) : row ∈ keepFirst seen (front ++ row :: later) := by
  induction front generalizing seen with
  | nil =>
    rw [List.nil_append, keepFirst, if_neg fresh]
    exact List.mem_cons_self
  | cons other front ih =>
    have rest := fun another member => first another (List.mem_cons_of_mem _ member)
    rw [List.cons_append, keepFirst]
    split
    · exact ih fresh rest
    · refine List.mem_cons_of_mem _ (ih ?_ rest)
      intro member
      rcases List.mem_cons.mp member with same | before
      · exact first other List.mem_cons_self same.symm
      · exact fresh before

/-- Of rows that agree on every number, one of each number is kept. -/
theorem mem_keepFirst_iff {β : Type} {rows : List (Nat × β)}
    (agree : ∀ first ∈ rows, ∀ second ∈ rows, first.1 = second.1 → first = second) (row : Nat × β) :
    row ∈ keepFirst [] rows ↔ row ∈ rows := by
  refine ⟨mem_of_mem_keepFirst, fun member => ?_⟩
  obtain ⟨front, first, later, split, same, before⟩ : ∃ front first later, rows = front ++ first :: later ∧
      first.1 = row.1 ∧ ∀ other ∈ front, other.1 ≠ row.1 := by
    clear agree
    induction rows with
    | nil => cases member
    | cons other rows ih =>
      by_cases here : other.1 = row.1
      · exact ⟨[], other, rows, rfl, here, nofun⟩
      · have inside : row ∈ rows := by
          rcases List.mem_cons.mp member with rfl | inside
          · exact absurd rfl here
          · exact inside
        obtain ⟨front, first, later, split, same, before⟩ := ih inside
        refine ⟨other :: front, first, later, by rw [split]; rfl, same, fun another among => ?_⟩
        rcases List.mem_cons.mp among with rfl | early
        · exact here
        · exact before another early
  have equal : first = row := agree first (by rw [split]; simp) row member same
  rw [split, equal]
  exact mem_keepFirst List.not_mem_nil before

end Reading

section Lines

/-- A row that is not empty, with its number and the texts of all its cells. -/
structure Row where
  number : Nat
  values : List (List Char)
  deriving DecidableEq

/-- The cells of a row that are not empty, with their columns. -/
def Row.cells (row : Row) : List (Nat × List Char) :=
  (row.values.zipIdx 1).filterMap fun (value, index) => if value.isEmpty then none else some (index, value)

def rowPrefix (number : Nat) : List Char := ['R', 'o', 'w', ' '] ++ Nat.toDigits 10 number ++ [':', ' ']

/-- The line of a row, by the names that it gives to the columns. -/
def rowLine (label : Nat → List Char) (row : Row) : List Char := rowPrefix row.number ++ rowText label row.cells

/-- What should be read for a row. -/
def Row.expected (row : Row) : Nat × List TableCell := (row.number, row.cells.map Tables.expected)

/-- A row as the extraction has it. -/
def Row.Written (row : Row) : Prop := Tables.Written row.cells ∧ row.cells ≠ []

variable {platform : Platform} {label : Nat → List Char}

theorem numberOf_toDigits (number : Nat) : numberOf platform (Nat.toDigits 10 number) = number := by
  have ascii (digits : List Char) (all : ∀ c ∈ digits, c.isDigit = true) (total : Nat) :
      digits.foldl (fun total c => 10 * total + (platform.digit c).getD 0) total = Nat.ofDigitChars 10 digits total := by
    induction digits generalizing total with
    | nil => rfl
    | cons c digits ih =>
      rw [List.foldl_cons, Nat.ofDigitChars_cons, platform.digit_ascii c (all c List.mem_cons_self),
        ih fun d member => all d (List.mem_cons_of_mem _ member)]
      rfl
  rw [numberOf, ascii _ (fun c member => isDigit_of_mem_toDigits member), Nat.ofDigitChars_toDigits (by decide) (by decide)]

/-- What is left of a row's text behind its number, and the parts of the number. -/
theorem stripChars_row (number : Nat) {text : List Char} {c : Char} {rest : List Char} (begins : text = c :: rest)
    (shown : isSpace c = false) :
    stripChars (rowPrefix number ++ text) = 'R' :: 'o' :: 'w' :: ' ' :: (Nat.toDigits 10 number ++ ':' :: ' ' :: rstrip text) := by
  have seen : visible text ≠ [] := by simp [begins, visible, shown]
  have first : (rowPrefix number ++ text).dropWhile isSpace = rowPrefix number ++ text := rfl
  rw [stripChars, ← rstrip, first, rstrip_append_visible _ seen]
  simp [rowPrefix]

theorem dropWhile_digits (number : Nat) (rest : List Char) :
    (Nat.toDigits 10 number ++ rest).dropWhile isSpace = Nat.toDigits 10 number ++ rest := by
  have filled : Nat.toDigits 10 number ≠ [] := Nat.toDigits_ne_nil
  obtain ⟨d, digits, split⟩ := List.exists_cons_of_ne_nil filled
  have visible : isSpace d = false := isSpace_of_isDigit (isDigit_of_mem_toDigits (by rw [split]; simp))
  rw [split, List.cons_append, List.dropWhile_cons_of_neg (by simp [visible])]

theorem isDigit_toDigits (number : Nat) : ∀ d ∈ Nat.toDigits 10 number, isDigit platform d = true := by
  intro d member
  rw [isDigit, platform.digit_ascii d (isDigit_of_mem_toDigits member)]
  rfl

theorem takeWhile_digits (number : Nat) (rest : List Char) :
    (Nat.toDigits 10 number ++ ':' :: rest).takeWhile (isDigit platform) = Nat.toDigits 10 number := by
  have colon : isDigit platform ':' = false := by rw [isDigit, platform.digit_colon]; rfl
  rw [takeWhile_append_stop (by simp [colon]), List.takeWhile_eq_self_iff]
  exact isDigit_toDigits number

/-- The text behind the number of a row, up to the white space at its end. -/
theorem parseRowLine_row (number : Nat) {text : List Char} {c : Char} {rest : List Char} (begins : text = c :: rest)
    (shown : isSpace c = false) :
    parseRowLine platform (rowPrefix number ++ text) = some (number, parseCells platform (rstrip text)) := by
  have filled : Nat.toDigits 10 number ≠ [] := Nat.toDigits_ne_nil
  obtain ⟨tail, starts⟩ := rstrip_cons shown rest
  rw [← begins] at starts
  have colon : isDigit platform ':' = false := by rw [isDigit, platform.digit_colon]; rfl
  have body : (Nat.toDigits 10 number ++ ':' :: ' ' :: rstrip text).dropWhile (isDigit platform) = ':' :: ' ' :: rstrip text := by
    rw [List.dropWhile_append, List.dropWhile_eq_nil_iff.mpr (isDigit_toDigits number)]
    simp [colon]
  have blank : isSpace ' ' = true := by decide
  have cells : (rstrip text).dropWhile isSpace = rstrip text := by
    rw [starts, List.dropWhile_cons_of_neg (by simp [shown])]
  rw [parseRowLine, stripChars_row number begins shown]
  simp only [List.dropWhile_cons_of_pos blank, List.takeWhile_cons_of_pos blank, dropWhile_digits, takeWhile_digits, body,
    cells, numberOf_toDigits, List.isEmpty_cons, Bool.false_or, List.isEmpty_eq_false_iff.mpr filled, Bool.false_eq_true,
    if_false]

variable (spells : Spells platform label)

include spells

omit spells in
/-- Nothing of the number's text is a line break or white space at an end. -/
theorem unbroken_rowPrefix (number : Nat) : Unbroken (rowPrefix number) := by
  intro c member
  rcases List.mem_append.mp member with front | last
  · rcases List.mem_append.mp front with named | digit
    · have all : ∀ c ∈ ['R', 'o', 'w', ' '], isLineBreak c = false := by decide
      exact all c named
    · by_contra breaks
      have space := isSpace_of_isLineBreak (Bool.of_not_eq_false breaks)
      rw [isSpace_of_isDigit (isDigit_of_mem_toDigits digit)] at space
      cases space
  · have all : ∀ c ∈ [':', ' '], isLineBreak c = false := by decide
    exact all c last

theorem rowText_begins {cells : List (Nat × List Char)} (written : Tables.Written cells) (filled : cells ≠ []) :
    ∃ c rest, rowText label cells = c :: rest ∧ isSpace c = false ∧ isLineBreak c = false := by
  cases cells with
  | nil => exact absurd rfl filled
  | cons cell later =>
    obtain ⟨c, name, named⟩ := List.exists_cons_of_ne_nil (spells.filled cell.1 (written cell List.mem_cons_self).1)
    have shown : isSpace c = false := (spells.shown cell.1 c (by rw [named]; simp)).1
    have plain : isLineBreak c = false := by
      by_contra breaks
      rw [isSpace_of_isLineBreak (Bool.of_not_eq_false breaks)] at shown
      cases shown
    cases later with
    | nil => exact ⟨c, name ++ '=' :: cell.2, by simp [rowText, List.intercalate, cellText, named], shown, plain⟩
    | cons next later =>
      exact ⟨c, name ++ '=' :: cell.2 ++ separator ++ rowText label (next :: later), by simp [rowText_cons, cellText, named],
        shown, plain⟩

/-- What the first line of a row gives. -/
theorem read_firstLine {row : Row} (written : row.Written) :
    parseRowLine platform (firstLine (rowLine label row)) =
      some (row.number, parseCells platform (rstrip (firstLine (rowText label row.cells)))) := by
  obtain ⟨c, rest, begins, shown, plain⟩ := rowText_begins spells written.1 written.2
  rw [rowLine, firstLine_append (unbroken_rowPrefix row.number)]
  have starts : firstLine (rowText label row.cells) = c :: firstLine rest := by simp [begins, firstLine, plain]
  exact parseRowLine_row row.number starts shown

/-- A row gives a row of its number first. -/
theorem readLines_row {row : Row} (written : row.Written) (rest : List Char) :
    ∃ later, (rowReader platform).readLines (rowLine label row ++ '\n' :: rest) =
      (row.number, parseCells platform (rstrip (firstLine (rowText label row.cells)))) :: later := by
  have read := read_firstLine spells written
  by_cases unbroken : Unbroken (rowLine label row)
  · refine ⟨(rowReader platform).readLines rest, ?_⟩
    have whole : firstLine (rowLine label row) = rowLine label row := by
      have split := firstLine_append unbroken []
      simpa [firstLine] using split
    rw [whole] at read
    rw [LineReader.readLines, LineReader.readFrom_plain _ unbroken, LineReader.readFrom_newline, List.nil_append]
    show (parseRowLine platform (rowLine label row)).toList ++ _ = _
    rw [read]
    rfl
  · obtain ⟨c, behind, breaks, split, _⟩ := firstLine_broken unbroken []
    obtain ⟨later, cut⟩ := (rowReader platform).readFrom_break (firstLine (rowLine label row)) (behind ++ '\n' :: rest) breaks
    refine ⟨later, ?_⟩
    rw [split, List.append_assoc, LineReader.readLines, LineReader.readFrom_plain _ (unbroken_firstLine _), List.nil_append,
      List.cons_append, cut]
    show (parseRowLine platform (firstLine (rowLine label row))).toList ++ _ = _
    rw [read]
    rfl

/-- The text of a row that fits has line breaks at its end at most. -/
theorem unbroken_rowText {cells : List (Nat × List Char)} (written : Tables.Written cells) (fits : Fits cells) :
    Unbroken (rstrip (rowText label cells)) := by
  induction cells with
  | nil => exact fun c member => by simp [rowText, List.intercalate, rstrip] at member
  | cons cell later ih =>
    cases later with
    | nil =>
      obtain ⟨_, c, rest, begins, shown⟩ := written cell List.mem_cons_self
      have seen : visible cell.2 ≠ [] := by simp [begins, visible, shown]
      have alone : rowText label [cell] = (label cell.1 ++ ['=']) ++ cell.2 := by simp [rowText, List.intercalate, cellText]
      rw [alone, rstrip_append_visible _ seen]
      intro d member
      rcases List.mem_append.mp member with named | inside
      · exact unbroken_label spells cell.1 d named
      · exact fits.1 d inside
    | cons next later =>
      have others : Tables.Written (next :: later) := fun cell member => written cell (List.mem_cons_of_mem _ member)
      obtain ⟨c, rest, begins, shown, _⟩ := rowText_begins spells others (by simp)
      have seen : visible (rowText label (next :: later)) ≠ [] := by simp [begins, visible, shown]
      rw [rowText_cons, rstrip_append_visible _ seen]
      intro d member
      rcases List.mem_append.mp member with front | inside
      · exact unbroken_cellText spells cell.1 fits.1 d front
      · exact ih others fits.2.2 d inside

/-- Of a row that fits a reader sees the one line without the white space at its end. -/
theorem readLines_fitting {β : Type} (reader : LineReader β) {row : Row} (written : row.Written) (fits : Fits row.cells)
    (rest : List Char) : reader.readLines (rowLine label row ++ '\n' :: rest) =
      (reader.read (rowPrefix row.number ++ rstrip (rowText label row.cells))).toList ++ reader.readLines rest := by
  have unbroken := unbroken_rowText spells written.1 fits
  have plain : Unbroken (rowPrefix row.number ++ rstrip (rowText label row.cells)) := by
    intro c member
    rcases List.mem_append.mp member with front | inside
    · exact unbroken_rowPrefix row.number c front
    · exact unbroken c inside
  obtain ⟨space, split, white⟩ := rstrip_append (rowText label row.cells)
  have whole : rowLine label row ++ '\n' :: rest =
      (rowPrefix row.number ++ rstrip (rowText label row.cells)) ++ (space ++ '\n' :: rest) := by
    conv_lhs => rw [rowLine, split]
    simp
  rw [whole, LineReader.readLines, LineReader.readFrom_plain _ plain, LineReader.readFrom_space _ white, List.nil_append]

/-- A row that fits gives itself and nothing else. -/
theorem readLines_fits {row : Row} (written : row.Written) (fits : Fits row.cells) (rest : List Char) :
    (rowReader platform).readLines (rowLine label row ++ '\n' :: rest) =
      row.expected :: (rowReader platform).readLines rest := by
  have cells := (parseCells_iff spells written.1 written.2).mpr fits
  rw [rstrip_firstLine (unbroken_rowText spells written.1 fits)] at cells
  have read : parseRowLine platform (rowPrefix row.number ++ rstrip (rowText label row.cells)) = some row.expected := by
    obtain ⟨c, rest, begins, shown, _⟩ := rowText_begins spells written.1 written.2
    obtain ⟨tail, starts⟩ := rstrip_cons shown rest
    rw [begins] at cells
    rw [begins, starts, parseRowLine_row row.number rfl shown, ← starts, rstrip_rstrip, cells]
    rfl
  rw [readLines_fitting spells _ written fits]
  change (parseRowLine platform _).toList ++ _ = _
  rw [read]
  rfl

/-- The lines of rows, each with its end. -/
def rowLines (label : Nat → List Char) (rows : List Row) : List Char := rows.flatMap fun row => rowLine label row ++ ['\n']

theorem readLines_rows {rows : List Row} (written : ∀ row ∈ rows, row.Written) (fits : ∀ row ∈ rows, Fits row.cells)
    (rest : List Char) : (rowReader platform).readLines (rowLines label rows ++ rest) =
      rows.map Row.expected ++ (rowReader platform).readLines rest := by
  induction rows with
  | nil => rfl
  | cons row rows ih =>
    have now := readLines_fits spells (written row List.mem_cons_self) (fits row List.mem_cons_self)
      (rowLines label rows ++ rest)
    have shape : rowLines label (row :: rows) ++ rest = rowLine label row ++ '\n' :: (rowLines label rows ++ rest) := by
      simp [rowLines]
    rw [shape, now, ih (fun other member => written other (List.mem_cons_of_mem _ member))
      fun other member => fits other (List.mem_cons_of_mem _ member)]
    rfl

/-- The first row that does not fit is read as something else, behind rows that fit. -/
theorem readLines_unfit {rows : List Row} (written : ∀ row ∈ rows, row.Written) {unfit : Row} (among : unfit ∈ rows)
    (broken : ¬ Fits unfit.cells) (rest : List Char) : ∃ (front : List Row) (row : Row) (cells : List TableCell)
      (later : List (Nat × List TableCell)), row ∈ rows ∧ (∀ other ∈ front, other ∈ rows) ∧
      (∀ other ∈ front, Fits other.cells) ∧ ¬ Fits row.cells ∧ cells ≠ row.cells.map Tables.expected ∧
      (rowReader platform).readLines (rowLines label rows ++ rest) =
        front.map Row.expected ++ (row.number, cells) :: later := by
  induction rows with
  | nil => cases among
  | cons row rows ih =>
    have shape : rowLines label (row :: rows) ++ rest = rowLine label row ++ '\n' :: (rowLines label rows ++ rest) := by
      simp [rowLines]
    rw [shape]
    by_cases fits : Fits row.cells
    · have inside : unfit ∈ rows := by
        rcases List.mem_cons.mp among with rfl | inside
        · exact absurd fits broken
        · exact inside
      obtain ⟨front, first, cells, later, listed, fronts, fit, bad, wrong, read⟩ :=
        ih (fun other member => written other (List.mem_cons_of_mem _ member)) inside
      refine ⟨row :: front, first, cells, later, List.mem_cons_of_mem _ listed, ?_, ?_, bad, wrong, ?_⟩
      · intro other member
        rcases List.mem_cons.mp member with rfl | early
        · exact List.mem_cons_self
        · exact List.mem_cons_of_mem _ (fronts other early)
      · intro other member
        rcases List.mem_cons.mp member with rfl | early
        · exact fits
        · exact fit other early
      · rw [readLines_fits spells (written row List.mem_cons_self) fits, read]
        rfl
    · obtain ⟨later, read⟩ := readLines_row spells (written row List.mem_cons_self) (rowLines label rows ++ rest)
      refine ⟨[], row, _, later, List.mem_cons_self, nofun, nofun, fits, ?_, read⟩
      have own := written row List.mem_cons_self
      exact fun same => fits ((parseCells_iff spells own.1 own.2).mp same)

end Lines

section Titles

variable {platform : Platform}

theorem parseRowLine_other {c : Char} (shown : isSpace c = false) (other : c ≠ 'R') (rest : List Char) :
    parseRowLine platform (c :: rest) = none := by
  obtain ⟨tail, starts⟩ := rstrip_cons shown rest
  rw [parseRowLine, stripChars, List.dropWhile_cons_of_neg (by simp [shown]), ← rstrip, starts]
  split
  · rename_i same
    exact absurd (List.cons.inj same).1 other
  · rfl

theorem parseRowLine_rows (c : Char) (shown : isSpace c = false) (rest : List Char) :
    parseRowLine platform ('R' :: 'o' :: 'w' :: c :: rest) = none := by
  have seen : visible (c :: rest) ≠ [] := by simp [visible, shown]
  obtain ⟨tail, starts⟩ := rstrip_cons shown rest
  have stripped : stripChars ('R' :: 'o' :: 'w' :: c :: rest) = 'R' :: 'o' :: 'w' :: c :: tail := by
    rw [stripChars, ← rstrip]
    have first : ('R' :: 'o' :: 'w' :: c :: rest).dropWhile isSpace = ['R', 'o', 'w'] ++ c :: rest := rfl
    rw [first, rstrip_append_visible _ seen, starts]
    rfl
  rw [parseRowLine, stripped]
  simp [List.takeWhile_cons_of_neg, shown]

theorem parseRowLine_colon {line : List Char} (free : ':' ∉ line) : parseRowLine platform line = none := by
  have within : ∀ c ∈ stripChars line, c ∈ line := fun c member =>
    (List.dropWhile_suffix isSpace).subset ((List.rdropWhile_prefix isSpace _).subset member)
  rw [parseRowLine]
  split
  · rename_i rest same
    simp only
    split
    · rfl
    · split
      · rename_i body found
        have inside : ':' ∈ (rest.dropWhile isSpace).dropWhile (isDigit platform) := by rw [found]; simp
        have early : ':' ∈ rest := (List.dropWhile_suffix isSpace).subset ((List.dropWhile_suffix _).subset inside)
        exact absurd (within ':' (by rw [same]; simp [early])) free
      · rfl
  · rfl

/-- Whatever without a colon follows on the line, it is not the line of a row. -/
def Silent (platform : Platform) (line : List Char) : Prop := ∀ more, ':' ∉ more → parseRowLine platform (line ++ more) = none

theorem silent_nil : Silent platform [] := fun _ free => parseRowLine_colon free

theorem silent_other {c : Char} (shown : isSpace c = false) (other : c ≠ 'R') (rest : List Char) :
    Silent platform (c :: rest) := fun more _ => parseRowLine_other shown other (rest ++ more)

theorem silent_rows {c : Char} (shown : isSpace c = false) (rest : List Char) :
    Silent platform ('R' :: 'o' :: 'w' :: c :: rest) := fun more _ => parseRowLine_rows c shown (rest ++ more)

/-- A reader that takes nothing from what is not the line of a row. -/
def Follows {β : Type} (platform : Platform) (reader : LineReader β) : Prop :=
  ∀ line, parseRowLine platform line = none → reader.read line = none

theorem follows_rowReader : Follows platform (rowReader platform) := fun _ other => other

variable {β : Type} {reader : LineReader β}

theorem Silent.quiet {line : List Char} (silent : Silent platform line) (follows : Follows platform reader) :
    reader.read line = none := by
  have read := silent [] List.not_mem_nil
  rw [List.append_nil] at read
  exact follows line read

theorem Silent.append {line : List Char} (silent : Silent platform line) {more : List Char} (free : ':' ∉ more) :
    Silent platform (line ++ more) := by
  intro later free'
  rw [List.append_assoc]
  exact silent (more ++ later) (by simp [free, free'])

/-- A text without a colon gives no rows, line breaks or not. -/
theorem readFrom_silent (follows : Follows platform reader) {line : List Char} (silent : Silent platform line) {text : List Char} (free : ':' ∉ text)
    (rest : List Char) :
    reader.readFrom line (text ++ '\n' :: rest) = reader.readLines rest := by
  induction text generalizing line with
  | nil => rw [List.nil_append, LineReader.readFrom_newline, silent.quiet follows, Option.toList_none, List.nil_append]
  | cons c text ih =>
    have apart : ':' ∉ [c] := fun member => free (List.mem_cons.mpr (Or.inl (List.mem_singleton.mp member)))
    have left : ':' ∉ text := fun member => free (List.mem_cons_of_mem _ member)
    have later (line : List Char) (silent : Silent platform line) :
        reader.readFrom line (text ++ '\n' :: rest) = reader.readLines rest := ih silent left
    by_cases breaks : isLineBreak c = true
    · rcases linesFrom_break line (text ++ '\n' :: rest) breaks with cut | ⟨_, tail, same, cut⟩
      · rw [List.cons_append, LineReader.readFrom, cut, LineReader.filterMap_cons, ← LineReader.readFrom, silent.quiet follows,
          later [] silent_nil, Option.toList_none, List.nil_append]
      · rw [List.cons_append, LineReader.readFrom, cut, LineReader.filterMap_cons, ← LineReader.readFrom, silent.quiet follows,
          Option.toList_none, List.nil_append]
        cases text with
        | nil =>
          obtain rfl : rest = tail := by simpa using same
          rfl
        | cons d text =>
          obtain ⟨rfl, rfl⟩ : d = '\n' ∧ text ++ '\n' :: rest = tail := by simpa using same
          have again := later [] silent_nil
          rwa [List.cons_append, LineReader.readFrom_newline, silent_nil.quiet follows, Option.toList_none, List.nil_append] at again
    · rw [List.cons_append, LineReader.readFrom, linesFrom_cons (Bool.eq_false_iff.mpr breaks), ← LineReader.readFrom]
      exact later _ (silent.append apart)

end Titles

end OpenTulpa.Knowledge.TableSections
