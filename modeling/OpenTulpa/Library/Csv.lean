import Mathlib
import OpenTulpa.Library.Outcome

/-! Tables written as comma-separated values in the `excel` dialect, and the machine that reads them. What has been written is
read as it was, unless a cell has more characters than a field may have. -/

namespace OpenTulpa.Library.Csv

open Outcome

abbrev Cell := List Char

section Writer

/-- The characters for which a cell is quoted: the delimiter, the quote, and those of the line terminator. -/
def special (c : Char) : Bool := c == ',' || c == '"' || c == '\r' || c == '\n'

/-- The quotes of a quoted cell are doubled. -/
def doubled (cell : Cell) : List Char := cell.flatMap fun c => if c = '"' then ['"', '"'] else [c]

def quoted (cell : Cell) : List Char := '"' :: (doubled cell ++ ['"'])

def cellText (cell : Cell) : List Char := if cell.any special then quoted cell else cell

/-- `writerow` of a `csv.writer`; a record of one empty cell is quoted, so that its line is not blank. -/
def rowText (row : List Cell) : List Char :=
  (if row = [[]] then quoted [] else [','].intercalate (row.map cellText)) ++ ['\r', '\n']

def write (rows : List (List Cell)) : List Char := rows.flatMap rowText

theorem length_cellText_le (cell : Cell) : (cellText cell).length ≤ 2 * cell.length + 2 := by
  have twice : (doubled cell).length ≤ 2 * cell.length := by
    induction cell with
    | nil => exact Nat.le_refl _
    | cons c cell ih =>
      rw [doubled, List.flatMap_cons, List.length_append, ← doubled, List.length_cons]
      split <;> simp only [List.length_cons, List.length_nil] <;> omega
  rw [cellText]
  split
  · rw [quoted, List.length_cons, List.length_append, List.length_singleton]
    omega
  · omega

theorem length_rowText_le (row : List Cell) : (rowText row).length ≤ (row.map fun cell => 2 * cell.length + 3).sum + 4 := by
  have joined : ([','].intercalate (row.map cellText)).length ≤ (row.map fun cell => 2 * cell.length + 3).sum := by
    induction row with
    | nil => exact Nat.le_refl _
    | cons cell row ih =>
      have own := length_cellText_le cell
      cases row with
      | nil => simpa [List.intercalate] using Nat.le_succ_of_le own
      | cons second row =>
        have parts : [','].intercalate ((cell :: second :: row).map cellText) =
            cellText cell ++ ',' :: [','].intercalate ((second :: row).map cellText) := by simp [List.intercalate]
        have sums : ((cell :: second :: row).map fun cell => 2 * cell.length + 3).sum =
            2 * cell.length + 3 + ((second :: row).map fun cell => 2 * cell.length + 3).sum := rfl
        rw [parts, sums, List.length_append, List.length_cons]
        omega
  have ends : ['\r', '\n'].length = 2 := rfl
  rw [rowText, List.length_append, ends]
  split
  · have small : (quoted []).length + 2 = 4 := rfl
    omega
  · omega

/-- What a table takes at most. -/
theorem length_write_le (rows : List (List Cell)) :
    (write rows).length ≤ (rows.map fun row => (row.map fun cell => 2 * cell.length + 3).sum + 4).sum := by
  induction rows with
  | nil => exact Nat.le_refl _
  | cons row rows ih =>
    rw [write, List.flatMap_cons, List.length_append, ← write, List.map_cons, List.sum_cons]
    exact Nat.add_le_add (length_rowText_le row) ih

end Writer

section Reader

inductive Phase where
  | startRecord
  | startField
  | inField
  | inQuotedField
  | quoteInQuotedField
  | eatCrnl
  deriving DecidableEq

inductive CsvError where
  | fieldLarger
  | newlineInUnquoted
  deriving DecidableEq

/-- The reader within a record, behind the records that it has returned. -/
structure Reader where
  phase : Phase
  field : Cell
  fields : List Cell
  records : List (List Cell)
  deriving DecidableEq

namespace Reader

variable (limit : Nat) (reader : Reader)

/-- `parse_add_char` -/
def addChar (phase : Phase) (c : Char) : Except CsvError Reader :=
  if limit ≤ reader.field.length then .error .fieldLarger
  else .ok { reader with phase, field := reader.field ++ [c] }

/-- `parse_save_field` -/
def saveField (phase : Phase) : Reader := { reader with phase, field := [], fields := reader.fields ++ [reader.field] }

/-- A character where a field may begin -/
def beginField (c : Char) : Except CsvError Reader :=
  if c = '\n' ∨ c = '\r' then .ok (reader.saveField .eatCrnl)
  else if c = '"' then .ok { reader with phase := .inQuotedField }
  else if c = ',' then .ok (reader.saveField .startField)
  else reader.addChar limit .inField c

/-- `parse_process_char` -/
def processChar (c : Char) : Except CsvError Reader :=
  match reader.phase with
  | .startRecord => if c = '\n' ∨ c = '\r' then .ok { reader with phase := .eatCrnl } else reader.beginField limit c
  | .startField => reader.beginField limit c
  | .inField =>
    if c = '\n' ∨ c = '\r' then .ok (reader.saveField .eatCrnl)
    else if c = ',' then .ok (reader.saveField .startField)
    else reader.addChar limit .inField c
  | .inQuotedField => if c = '"' then .ok { reader with phase := .quoteInQuotedField } else reader.addChar limit .inQuotedField c
  | .quoteInQuotedField =>
    if c = '"' then reader.addChar limit .inQuotedField c
    else if c = ',' then .ok (reader.saveField .startField)
    else if c = '\n' ∨ c = '\r' then .ok (reader.saveField .eatCrnl)
    else reader.addChar limit .inField c
  | .eatCrnl => if c = '\n' ∨ c = '\r' then .ok reader else .error .newlineInUnquoted

/-- A record is returned at the end of a line where one may begin. -/
def yieldRecord : Reader := ⟨.startRecord, [], [], reader.records ++ [reader.fields]⟩

/-- `parse_process_char` of the end of a line -/
def processEnd : Reader :=
  match reader.phase with
  | .startRecord | .eatCrnl => reader.yieldRecord
  | .startField | .inField | .quoteInQuotedField => (reader.saveField .startRecord).yieldRecord
  | .inQuotedField => reader

/-- The records of the reader when its input ends; a quoted field may be open. -/
def finish : List (List Cell) :=
  if reader.field ≠ [] ∨ reader.phase = .inQuotedField then (reader.saveField reader.phase).yieldRecord.records
  else reader.records

end Reader

/-- The lines of a text end at a line feed, at a carriage return that no line feed follows, and where the text does. -/
def endsLine (c : Char) (rest : List Char) : Bool :=
  c == '\n' || c == '\r' && rest.head? != some '\n' || rest.isEmpty

def run (limit : Nat) : Reader → List Char → Except CsvError Reader
  | reader, [] => .ok reader
  | reader, c :: rest => do
    let reader ← reader.processChar limit c
    run limit (if endsLine c rest then reader.processEnd else reader) rest

/-- The records that a `csv.reader` returns. -/
def read (limit : Nat) (text : List Char) : Except CsvError (List (List Cell)) := do
  let reader ← run limit ⟨.startRecord, [], [], []⟩ text
  .ok reader.finish

end Reader

section RoundTrip

variable {limit : Nat} {fields : List Cell} {records : List (List Cell)}

/-- What is read when a field of so many characters has been begun: an error, if it is too large. -/
def within (limit size : Nat) (next : Except CsvError Reader) : Except CsvError Reader :=
  if limit < size then .error .fieldLarger else next

theorem endsLine_of_ne {c : Char} {rest : List Char} (feed : c ≠ '\n') (carriage : c ≠ '\r') (more : rest ≠ []) :
    endsLine c rest = false := by
  simp [endsLine, feed, carriage, more]

theorem plain_of_special {c : Char} (plain : special c = false) : c ≠ ',' ∧ c ≠ '"' ∧ c ≠ '\r' ∧ c ≠ '\n' := by
  simpa [special, and_assoc] using plain

/-- A character that is read into the field, where the field has room for it. -/
theorem run_addChar (phase : Phase) {before : Phase} {field rest : List Char} {c : Char} {size : Nat} {next : Except CsvError Reader}
    (adds : (⟨before, field, fields, records⟩ : Reader).processChar limit c =
      (⟨before, field, fields, records⟩ : Reader).addChar limit phase c)
    (stays : endsLine c rest = true → phase = .inQuotedField) (grows : field.length < size)
    (later : field.length < limit →
      run limit ⟨phase, field ++ [c], fields, records⟩ rest = within limit size next) :
    run limit ⟨before, field, fields, records⟩ (c :: rest) = within limit size next := by
  rw [run, adds, Reader.addChar]
  by_cases full : limit ≤ field.length
  · rw [if_pos full, within, if_pos (Nat.lt_of_le_of_lt full grows)]
    rfl
  · rw [if_neg full, ok_bind, ← later (Nat.not_le.mp full)]
    split
    · rename_i ends
      rw [stays ends]
      rfl
    · rfl

/-- Characters without meaning are read into the field. -/
theorem run_inField {field cell rest : List Char} (plain : ∀ c ∈ cell, special c = false) (more : rest ≠ [])
    (room : field.length ≤ limit) :
    run limit ⟨.inField, field, fields, records⟩ (cell ++ rest) =
      within limit (field ++ cell).length (run limit ⟨.inField, field ++ cell, fields, records⟩ rest) := by
  induction cell generalizing field with
  | nil => rw [List.append_nil, List.nil_append, within, if_neg (Nat.not_lt.mpr room)]
  | cons c cell ih =>
    obtain ⟨comma, quote, carriage, feed⟩ := plain_of_special (plain c List.mem_cons_self)
    rw [List.cons_append]
    refine run_addChar .inField ?_ ?_ ?_ ?_
    · simp [Reader.processChar, comma, carriage, feed]
    · rw [endsLine_of_ne feed carriage (List.append_ne_nil_of_right_ne_nil _ more)]
      exact nofun
    · rw [List.length_append, List.length_cons]
      omega
    · intro small
      rw [ih (fun d member => plain d (List.mem_cons_of_mem _ member)) (by simpa using Nat.succ_le_of_lt small), List.append_assoc]
      rfl

/-- The text of a quoted cell is read into the field, line ends and all. -/
theorem run_inQuotedField {field cell rest : List Char} (room : field.length ≤ limit) :
    run limit ⟨.inQuotedField, field, fields, records⟩ (doubled cell ++ '"' :: rest) =
      within limit (field ++ cell).length
        (run limit ⟨.inQuotedField, field ++ cell, fields, records⟩ ('"' :: rest)) := by
  induction cell generalizing field with
  | nil => rw [List.append_nil, within, if_neg (Nat.not_lt.mpr room)]; rfl
  | cons c cell ih =>
    have grows : field.length < (field ++ c :: cell).length := by simp
    have later (small : field.length < limit) : run limit ⟨.inQuotedField, field ++ [c], fields, records⟩
        (doubled cell ++ '"' :: rest) = within limit (field ++ c :: cell).length
          (run limit ⟨.inQuotedField, field ++ c :: cell, fields, records⟩ ('"' :: rest)) := by
      rw [ih (by simpa using Nat.succ_le_of_lt small), List.append_assoc]
      rfl
    by_cases quote : c = '"'
    · subst quote
      -- the first of the two quotes adds nothing, and ends no line
      show run limit ⟨.quoteInQuotedField, field, fields, records⟩ ('"' :: (doubled cell ++ '"' :: rest)) = _
      exact run_addChar .inQuotedField rfl (fun _ => rfl) grows later
    · have single : doubled (c :: cell) = c :: doubled cell := by simp [doubled, quote]
      rw [single, List.cons_append]
      refine run_addChar .inQuotedField ?_ (fun _ => rfl) grows later
      simp [Reader.processChar, quote]

/-- A field may be saved: none is open. -/
def Phase.closes : Phase → Prop
  | .startField | .inField | .quoteInQuotedField => True
  | _ => False

/-- A cell is read up to the comma or the line end behind it. -/
theorem run_cellText (limit : Nat) (fields : List Cell) (records : List (List Cell)) (cell : Cell) {rest : List Char}
    (more : rest ≠ []) :
    ∃ phase : Phase, phase.closes ∧ run limit ⟨.startField, [], fields, records⟩ (cellText cell ++ rest) =
      within limit cell.length (run limit ⟨phase, cell, fields, records⟩ rest) := by
  by_cases marked : cell.any special = true
  · refine ⟨.quoteInQuotedField, trivial, ?_⟩
    rw [cellText, if_pos marked, quoted, List.cons_append, List.append_assoc]
    have opens : run limit ⟨.startField, [], fields, records⟩ ('"' :: (doubled cell ++ (['"'] ++ rest))) =
        run limit ⟨.inQuotedField, [], fields, records⟩ (doubled cell ++ '"' :: rest) := by
      rw [run, endsLine_of_ne (by decide) (by decide) (by simp)]
      rfl
    rw [opens, run_inQuotedField (Nat.zero_le _), List.nil_append]
    congr 1
    rw [run, endsLine_of_ne (by decide) (by decide) more]
    rfl
  · have plain : ∀ c ∈ cell, special c = false := by simpa using marked
    rw [cellText, if_neg marked]
    cases cell with
    | nil => exact ⟨.startField, trivial, by simp [within]⟩
    | cons c cell =>
      refine ⟨.inField, trivial, ?_⟩
      obtain ⟨comma, quote, carriage, feed⟩ := plain_of_special (plain c List.mem_cons_self)
      rw [List.cons_append]
      refine run_addChar .inField ?_ ?_ (Nat.succ_pos _) ?_
      · simp [Reader.processChar, Reader.beginField, comma, quote, carriage, feed]
      · rw [endsLine_of_ne feed carriage (List.append_ne_nil_of_right_ne_nil _ more)]
        exact nofun
      · intro small
        exact run_inField (fun d member => plain d (List.mem_cons_of_mem _ member)) more small

theorem run_comma {phase : Phase} {cell rest : List Char} (closes : phase.closes) (more : rest ≠ []) :
    run limit ⟨phase, cell, fields, records⟩ (',' :: rest) = run limit ⟨.startField, [], fields ++ [cell], records⟩ rest := by
  rw [run, endsLine_of_ne (by decide) (by decide) more]
  cases phase <;> first | rfl | exact closes.elim

theorem run_lineEnd {phase : Phase} {cell rest : List Char} (closes : phase.closes) :
    run limit ⟨phase, cell, fields, records⟩ ('\r' :: '\n' :: rest) =
      run limit ⟨.startRecord, [], [], records ++ [fields ++ [cell]]⟩ rest := by
  cases phase <;> first | rfl | exact closes.elim

/-- The result of reading cells: an error, if one of them is too large. -/
def allWithin (limit : Nat) (cells : List Cell) (next : Except CsvError Reader) : Except CsvError Reader :=
  if ∀ cell ∈ cells, cell.length ≤ limit then next else .error .fieldLarger

theorem within_allWithin (cell : Cell) (cells : List Cell) (next : Except CsvError Reader) :
    within limit cell.length (allWithin limit cells next) = allWithin limit (cell :: cells) next := by
  unfold within allWithin
  by_cases large : limit < cell.length
  · rw [if_pos large, if_neg fun all => Nat.not_lt.mpr (all cell List.mem_cons_self) large]
  · simp [large, Nat.not_lt.mp large]

theorem allWithin_append (first second : List Cell) (next : Except CsvError Reader) :
    allWithin limit first (allWithin limit second next) = allWithin limit (first ++ second) next := by
  induction first with
  | nil => simp [allWithin]
  | cons cell first ih => rw [List.cons_append, ← within_allWithin, ← within_allWithin, ih]

theorem run_cells {cell : Cell} {cells : List Cell} {rest : List Char} :
    run limit ⟨.startField, [], fields, records⟩ ([','].intercalate ((cell :: cells).map cellText) ++ '\r' :: '\n' :: rest) =
      allWithin limit (cell :: cells) (run limit ⟨.startRecord, [], [], records ++ [fields ++ cell :: cells]⟩ rest) := by
  induction cells generalizing cell fields with
  | nil =>
    obtain ⟨phase, closes, reads⟩ := run_cellText limit fields records cell (List.cons_ne_nil '\r' ('\n' :: rest))
    have single : [','].intercalate ([cell].map cellText) = cellText cell := by simp [List.intercalate]
    rw [single, reads, run_lineEnd closes, ← within_allWithin, allWithin, if_pos nofun]
  | cons second cells ih =>
    have parts : [','].intercalate ((cell :: second :: cells).map cellText) ++ '\r' :: '\n' :: rest =
        cellText cell ++ ',' :: ([','].intercalate ((second :: cells).map cellText) ++ '\r' :: '\n' :: rest) := by
      simp [List.intercalate]
    obtain ⟨phase, closes, reads⟩ := run_cellText limit fields records cell
      (List.cons_ne_nil ',' ([','].intercalate ((second :: cells).map cellText) ++ '\r' :: '\n' :: rest))
    rw [parts, reads, run_comma closes (by simp), ih, within_allWithin, List.append_assoc]
    rfl

/-- A record begins as a field does, unless its line is blank. -/
theorem run_startRecord {c : Char} {text : List Char} (feed : c ≠ '\n') (carriage : c ≠ '\r') :
    run limit ⟨.startRecord, [], [], records⟩ (c :: text) = run limit ⟨.startField, [], [], records⟩ (c :: text) := by
  rw [run, run]
  simp [Reader.processChar, Reader.beginField, feed, carriage, Reader.saveField, Reader.addChar]

/-- The text of a record that is no single empty cell does not begin with a line end. -/
theorem intercalate_head {cell : Cell} {cells : List Cell} (filled : cell :: cells ≠ [[]]) : ∃ c text,
    [','].intercalate ((cell :: cells).map cellText) = c :: text ∧ c ≠ '\n' ∧ c ≠ '\r' := by
  have parts : ∃ rest, [','].intercalate ((cell :: cells).map cellText) = cellText cell ++ rest ∧
      (cells = [] ∨ ∃ text, rest = ',' :: text) := by
    cases cells with
    | nil => exact ⟨[], by simp [List.intercalate], Or.inl rfl⟩
    | cons second cells =>
      exact ⟨',' :: [','].intercalate ((second :: cells).map cellText), by simp [List.intercalate], Or.inr ⟨_, rfl⟩⟩
  obtain ⟨rest, same, behind⟩ := parts
  rw [same]
  by_cases marked : cell.any special = true
  · rw [cellText, if_pos marked]
    exact ⟨'"', _, rfl, by decide, by decide⟩
  · rw [cellText, if_neg marked]
    cases cell with
    | nil =>
      rcases behind with none | ⟨text, rfl⟩
      · exact absurd (none ▸ rfl) filled
      · exact ⟨',', text, rfl, by decide, by decide⟩
    | cons c cell =>
      have plain : ∀ d ∈ c :: cell, special d = false := by simpa using marked
      obtain ⟨-, -, carriage, feed⟩ := plain_of_special (plain c List.mem_cons_self)
      exact ⟨c, cell ++ rest, rfl, feed, carriage⟩

theorem run_rowText (row : List Cell) (rest : List Char) :
    run limit ⟨.startRecord, [], [], records⟩ (rowText row ++ rest) =
      allWithin limit row (run limit ⟨.startRecord, [], [], records ++ [row]⟩ rest) := by
  rw [rowText, List.append_assoc]
  split
  · rename_i blank
    rw [blank, allWithin, if_pos (by simp)]
    rfl
  · rename_i filled
    cases row with
    | nil =>
      rw [allWithin, if_pos nofun]
      rfl
    | cons cell cells =>
      obtain ⟨c, text, same, feed, carriage⟩ := intercalate_head filled
      have starts : run limit ⟨.startRecord, [], [], records⟩
          ([','].intercalate ((cell :: cells).map cellText) ++ (['\r', '\n'] ++ rest)) =
          run limit ⟨.startField, [], [], records⟩
            ([','].intercalate ((cell :: cells).map cellText) ++ (['\r', '\n'] ++ rest)) := by
        rw [same]
        exact run_startRecord feed carriage
      rw [starts]
      exact run_cells

theorem run_write (limit : Nat) (records rows : List (List Cell)) (rest : List Char) :
    run limit ⟨.startRecord, [], [], records⟩ (write rows ++ rest) =
      allWithin limit rows.flatten (run limit ⟨.startRecord, [], [], records ++ rows⟩ rest) := by
  induction rows generalizing records with
  | nil => simp [write, allWithin]
  | cons row rows ih =>
    have parts : write (row :: rows) ++ rest = rowText row ++ (write rows ++ rest) := by simp [write]
    rw [parts, run_rowText, ih, allWithin_append, List.append_assoc]
    rfl

/-- A table that has been written is read as it was, if and only if no cell of it is too large. -/
theorem read_write (limit : Nat) (rows : List (List Cell)) :
    read limit (write rows) =
      if ∀ row ∈ rows, ∀ cell ∈ row, cell.length ≤ limit then .ok rows else .error .fieldLarger := by
  have reads := run_write limit [] rows []
  rw [List.append_nil, allWithin, List.nil_append] at reads
  have flat : (∀ cell ∈ rows.flatten, cell.length ≤ limit) ↔ ∀ row ∈ rows, ∀ cell ∈ row, cell.length ≤ limit := by
    simp only [List.mem_flatten]
    exact ⟨fun all row member cell inside => all cell ⟨row, member, inside⟩,
      fun all cell ⟨row, member, inside⟩ => all row member cell inside⟩
  rw [read, reads]
  simp only [flat]
  split <;> rfl

example : read 4 "a,\"b\r\n\",\"\"\"\"\r\n\r\nc\n".toList =
    .ok [[['a'], ['b', '\r', '\n'], ['"']], [], [['c']]] := by decide

end RoundTrip

end OpenTulpa.Library.Csv
