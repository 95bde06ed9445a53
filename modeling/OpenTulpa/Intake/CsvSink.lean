import Mathlib.Data.String.Basic
import OpenTulpa.Library.Csv
import OpenTulpa.Library.Entries
import OpenTulpa.Library.Run
import OpenTulpa.Library.Text

/-! The CSV file of a workflow. Every write reads the file again, puts the row of its booking into it, and writes the whole of it
anew; cells that a spreadsheet would take for formulas are quoted on the way. -/

namespace OpenTulpa.Intake.CsvSink

open Library Text Entries

section Model

def formulaPrefixes : List Char := ['=', '+', '-', '@', '\t', '\r']

/-- `_neutralize_csv_cell` -/
def neutralizeCsvCell (text : String) : String :=
  let stripped := text.toList.dropWhile isSpace
  if text.toList.head?.any (fun c => c ∈ ['\t', '\r']) || stripped.head?.any (fun c => c ∈ formulaPrefixes) then
    String.ofList ('\'' :: text.toList)
  else text

def systemColumns : List String :=
  ["booking_id", "workflow_id", "workflow_name", "conversation_id", "customer_id", "status", "completed_at"]

/-- The arguments of a write, as the texts that it makes of their fields, and the time of it. -/
structure Call (Value : Type) where
  bookingId : String
  workflowId : String
  workflowName : String
  conversationId : String
  customerId : String
  recordStatus : Option String
  completedAt : String
  payload : List (String × Value)

/-- `value or default` of a text -/
def orElse (text default : String) : String := if text = "" then default else text

abbrev Row := List (String × String)

/-- `str(value or "")` of a payload value, and `str` of a list of texts. -/
structure Texts (Value : Type) where
  value : Value → String
  list : List String → String

variable {Value : Type} (texts : Texts Value)

/-- `_local_csv_row` -/
def localCsvRow (call : Call Value) : Row :=
  let systemRow := [("booking_id", call.bookingId), ("workflow_id", call.workflowId), ("workflow_name", call.workflowName),
    ("conversation_id", call.conversationId), ("customer_id", call.customerId),
    ("status", orElse (strip (orElse (call.recordStatus.getD "") "completed")) "completed"), ("completed_at", call.completedAt)]
  let baseRow := call.payload.foldl (fun row item =>
    if item.1 ∈ systemColumns then row else assign (neutralizeCsvCell item.1) (texts.value item.2) row) systemRow
  baseRow.map fun entry => (entry.1, neutralizeCsvCell entry.2)

/-- `csv.field_size_limit()` -/
def fieldLimit : Nat := 128 * 1024

def maxLocalCsvBytes : Nat := 10 * 1024 * 1024

/-- A row of a `csv.DictReader`: the fields beyond the header are a list under the key `None`, and missing ones are `None`, which
is read as an empty text. -/
def dictRow (header record : List String) : List (Option String × String) :=
  let filled := update [] ((header.map some).zip record)
  if header.length < record.length then assign none (texts.list (record.drop header.length)) filled
  else (header.drop record.length).foldl (fun filled key => assign (some key) "" filled) filled

/-- `csv.DictReader`: its `fieldnames` and the rows it yields; blank lines are passed over. -/
def dictReader (content : String) : Except Csv.CsvError (List String × List (List (Option String × String))) :=
  match Csv.read fieldLimit content.toList with
  | .error error => .error error
  | .ok records =>
    match records.map fun record => record.map String.ofList with
    | [] => .ok ([], [])
    | header :: records => .ok (header, (records.filter fun record => record ≠ []).map (dictRow texts header))

inductive ReadError where
  | exceedsSizeLimit
  | csv (error : Csv.CsvError)
  deriving DecidableEq

def safeRow (item : List (Option String × String)) : Row :=
  update [] (item.map fun entry => (neutralizeCsvCell (entry.1.getD "None"), neutralizeCsvCell entry.2))

/-- The names, and behind them those of the others that are new. -/
def withNew (names others : List String) : List String :=
  others.foldl (fun names name => if name ∈ names then names else names ++ [name]) names

/-- `_read_existing_csv` -/
def readExistingCsv (file : Option String) (baseRow : Row) : Except ReadError (List Row × List String) :=
  match file with
  | none => .ok ([], keys baseRow)
  | some content =>
    if maxLocalCsvBytes < content.utf8ByteSize then .error .exceedsSizeLimit
    else
      match dictReader texts content with
      | .error error => .error (.csv error)
      | .ok (header, items) =>
        .ok (items.map safeRow, withNew (withNew (keys baseRow) (header.map neutralizeCsvCell)) (keys baseRow))

/-- `_upsert_csv_row` -/
def upsertCsvRow (row : Row) (bookingId : String) : List Row → List Row
  | [] => [row]
  | existing :: rows =>
    if strip ((get existing "booking_id").getD "") ≠ bookingId then existing :: upsertCsvRow row bookingId rows
    else update existing row :: rows

/-- What `_write_csv_rows` writes: the header, and in every row the values of the header's columns. -/
def csvText (fieldnames : List String) (rows : List Row) : String :=
  let safeFieldnames := fieldnames.map neutralizeCsvCell
  let records := rows.map fun row =>
    let cells := update [] (fieldnames.map fun field => (neutralizeCsvCell field, neutralizeCsvCell ((get row field).getD "")))
    safeFieldnames.map fun field => (get cells field).getD ""
  String.ofList (Csv.write ((safeFieldnames :: records).map fun record => record.map String.toList))

/-- Where the operations on files let a call fail: before the file has been read, before the new one has replaced it, or
afterwards. A text that has no bytes in UTF-8 makes it fail before the replacement. -/
inductive Fate where
  | completes
  | failsBeforeRead
  | failsBeforeReplace
  | failsAfterReplace
  deriving DecidableEq

/-- A call reports that the row was written or that it was not, or lets an error of the reader through. -/
inductive Outcome where
  | written
  | failed
  | raised (error : Csv.CsvError)
  deriving DecidableEq

structure Write (Value : Type) where
  call : Call Value
  fate : Fate

/-- The text that a call puts in the place of the file, or how the call ends before that. -/
def replacement (file : Option String) (write : Write Value) : Except Outcome String :=
  let baseRow := localCsvRow texts write.call
  if write.fate = .failsBeforeRead then .error .failed
  else
    match readExistingCsv texts file baseRow with
    | .error .exceedsSizeLimit => .error .failed
    | .error (.csv error) => .error (.raised error)
    | .ok (rows, fieldnames) =>
      let content := csvText fieldnames (upsertCsvRow baseRow write.call.bookingId rows)
      if write.fate = .failsBeforeReplace ∨ maxLocalCsvBytes < content.utf8ByteSize then .error .failed else .ok content

/-- `write_to_local_csv` under the lock of the file -/
def writeToLocalCsv (file : Option String) (write : Write Value) : Option String × Outcome :=
  match replacement texts file write with
  | .error outcome => (file, outcome)
  | .ok content => (some content, if write.fate = .failsAfterReplace then .failed else .written)

/-- The file after a call -/
def step (file : Option String) (write : Write Value) : Option String := (writeToLocalCsv texts file write).1

end Model

section Neutral

/-- The text begins with no formula, before or behind its leading white space. -/
def Harmless (text : String) : Prop :=
  (∀ c ∈ text.toList.head?, c ∉ formulaPrefixes) ∧ ∀ c ∈ (text.toList.dropWhile isSpace).head?, c ∉ formulaPrefixes

theorem neutralize_of_harmless {text : String} (harmless : Harmless text) : neutralizeCsvCell text = text := by
  have first : text.toList.head?.any (fun c => c ∈ ['\t', '\r']) = false := by
    cases head : text.toList.head? with
    | none => rfl
    | some c =>
      have outside := harmless.1 c head
      simp only [formulaPrefixes, List.mem_cons, List.not_mem_nil, or_false, not_or] at outside
      simp [outside]
  have shown : (text.toList.dropWhile isSpace).head?.any (fun c => c ∈ formulaPrefixes) = false := by
    cases head : (text.toList.dropWhile isSpace).head? with
    | none => rfl
    | some c => simpa using harmless.2 c head
  rw [neutralizeCsvCell]
  simp only [first, shown, Bool.or_self, Bool.false_eq_true, if_false]

theorem harmless_neutralize (text : String) : Harmless (neutralizeCsvCell text) := by
  rw [neutralizeCsvCell]
  split
  · rw [Harmless, String.toList_ofList, List.dropWhile_cons_of_neg (by decide)]
    have quote : '\'' ∉ formulaPrefixes := by decide
    exact ⟨fun c member => Option.some.inj member ▸ quote, fun c member => Option.some.inj member ▸ quote⟩
  · rename_i bare
    rw [Bool.or_eq_true, not_or, Bool.not_eq_true, Bool.not_eq_true] at bare
    obtain ⟨first, shown⟩ := bare
    have behind : ∀ c ∈ (text.toList.dropWhile isSpace).head?, c ∉ formulaPrefixes := by
      intro c member
      rw [Option.mem_def.mp member] at shown
      simpa using shown
    refine ⟨?_, behind⟩
    intro c member
    rw [Option.mem_def.mp member] at first
    by_cases blank : isSpace c = true
    · -- of the prefixes only the tab and the carriage return are white space
      intro inside
      have tabs : ∀ d ∈ formulaPrefixes, isSpace d = true → d ∈ ['\t', '\r'] := by decide
      have same := tabs c inside blank
      simp only [Option.any_some, decide_eq_false_iff_not] at first
      exact first same
    · obtain ⟨rest, same⟩ : ∃ rest, text.toList = c :: rest := by
        cases chars : text.toList with
        | nil => simp [chars] at member
        | cons d rest => exact ⟨rest, by simpa [chars] using member⟩
      refine behind c ?_
      rw [same, List.dropWhile_cons_of_neg blank]
      rfl

@[simp] theorem neutralize_neutralize (text : String) : neutralizeCsvCell (neutralizeCsvCell text) = neutralizeCsvCell text :=
  neutralize_of_harmless (harmless_neutralize text)

/-- A booking id without white space that begins no formula -/
structure Plain (bookingId : String) : Prop where
  visible : ∀ c ∈ bookingId.toList, isSpace c = false
  bare : ∀ c ∈ bookingId.toList.head?, c ∉ formulaPrefixes

theorem Plain.strip {bookingId : String} (plain : Plain bookingId) : strip bookingId = bookingId := by
  rw [Text.strip, stripChars, ← trimChars, trimChars_of_visible plain.visible, String.ofList_toList]

theorem Plain.harmless {bookingId : String} (plain : Plain bookingId) : Harmless bookingId := by
  have whole : bookingId.toList.dropWhile isSpace = bookingId.toList := by
    rw [List.dropWhile_eq_self_iff]
    intro nonempty
    simpa using plain.visible _ (List.getElem_mem nonempty)
  exact ⟨plain.bare, by rw [whole]; exact plain.bare⟩

end Neutral

section Sheets

/-- A table with a header. -/
structure Sheet where
  columns : List String
  rows : List Row

namespace Sheet

def blank : Sheet := ⟨[], []⟩

/-- The booking of a row -/
def idOf (row : Row) : String := (get row "booking_id").getD ""

variable (sheet : Sheet)

def ids : List String := sheet.rows.map idOf

/-- The cell of a column in the row of a booking -/
def cell (bookingId column : String) : Option String :=
  (sheet.rows.find? fun row => idOf row = bookingId).bind fun row => get row column

def records : List (List String) := sheet.columns :: sheet.rows.map fun row => row.map Prod.snd

def render : String := String.ofList (Csv.write (sheet.records.map fun record => record.map String.toList))

/-- The columns of a sheet are distinct, and so are its bookings; every row has all columns; no text begins a formula. -/
structure Sound : Prop where
  distinct : sheet.columns.Nodup
  shaped : ∀ row ∈ sheet.rows, keys row = sheet.columns
  headers : ∀ column ∈ sheet.columns, Harmless column
  cells : ∀ row ∈ sheet.rows, ∀ entry ∈ row, Harmless entry.2
  single : sheet.ids.Nodup

/-- The reader has room for every text. -/
structure Legible : Prop where
  headers : ∀ column ∈ sheet.columns, column.length ≤ fieldLimit
  cells : ∀ row ∈ sheet.rows, ∀ entry ∈ row, entry.2.length ≤ fieldLimit

end Sheet

open Sheet

variable {Value : Type} {texts : Texts Value} {sheet : Sheet}

/-- The file is absent, or it is parsed as the sheet. -/
def Holds (texts : Texts Value) (file : Option String) (sheet : Sheet) : Prop :=
  match file with
  | none => sheet = blank
  | some content =>
    dictReader texts content = .ok (sheet.columns, sheet.rows.map fun row => row.map fun entry => (some entry.1, entry.2))

theorem dictRow_of_length {header record : List String} (distinct : header.Nodup) (same : record.length = header.length) :
    dictRow texts header record = (header.map some).zip record := by
  have names : keys ((header.map some).zip record) = header.map some := by
    rw [keys, List.map_fst_zip (by simp [same])]
  have whole : update [] ((header.map some).zip record) = (header.map some).zip record := by
    rw [update_eq_append (by rw [List.nil_append, names]; exact distinct.map (fun _ _ => Option.some.inj)), List.nil_append]
  rw [dictRow, if_neg (by omega), List.drop_of_length_le (by omega), whole]
  rfl

theorem dictRow_values {row : Row} (distinct : (keys row).Nodup) :
    dictRow texts (keys row) (row.map Prod.snd) = row.map fun entry => (some entry.1, entry.2) := by
  rw [dictRow_of_length distinct (by rw [List.length_map, keys, List.length_map])]
  induction row with
  | nil => rfl
  | cons entry row ih => rw [List.map_cons, List.map_cons, ← ih (List.nodup_cons.mp distinct).2]; rfl

theorem fits_iff_legible : (∀ row ∈ sheet.records.map fun record => record.map String.toList, ∀ cell ∈ row,
    cell.length ≤ fieldLimit) ↔ sheet.Legible := by
  constructor
  · intro fits
    refine ⟨fun column member => ?_, fun row inside entry member => ?_⟩
    · exact fits _ (List.mem_map_of_mem List.mem_cons_self) _ (List.mem_map_of_mem member)
    · exact fits _ (List.mem_map_of_mem (List.mem_cons_of_mem _ (List.mem_map_of_mem inside))) _
        (List.mem_map_of_mem (List.mem_map_of_mem member))
  · intro legible record inside cell member
    obtain ⟨record, own, rfl⟩ := List.mem_map.mp inside
    obtain ⟨text, inner, rfl⟩ := List.mem_map.mp member
    rcases List.mem_cons.mp own with rfl | later
    · exact legible.headers text inner
    · obtain ⟨row, held, rfl⟩ := List.mem_map.mp later
      obtain ⟨entry, found, rfl⟩ := List.mem_map.mp inner
      exact legible.cells row held entry found

/-- What has been rendered is parsed as it was, if the reader has room for it, and not at all otherwise. -/
theorem dictReader_render (texts : Texts Value) (sound : sheet.Sound) (filled : sheet.columns ≠ []) :
    (sheet.Legible → Holds texts (some sheet.render) sheet) ∧
      (¬ sheet.Legible → dictReader texts sheet.render = .error .fieldLarger) := by
  have reads := Csv.read_write fieldLimit (sheet.records.map fun record => record.map String.toList)
  constructor
  · intro legible
    rw [if_pos (fits_iff_legible.mpr legible)] at reads
    have back : (sheet.records.map fun record => record.map String.toList).map (fun record => record.map String.ofList) =
        sheet.records := by
      simp [List.map_map, Function.comp_def]
    have whole : (sheet.rows.map fun row => row.map Prod.snd).filter (fun record => record ≠ []) =
        sheet.rows.map fun row => row.map Prod.snd := by
      refine List.filter_eq_self.mpr fun record member => ?_
      obtain ⟨row, inside, rfl⟩ := List.mem_map.mp member
      have names := sound.shaped row inside
      refine decide_eq_true fun empty => filled ?_
      rw [← names, List.map_eq_nil_iff.mp empty]
      rfl
    have rows : (sheet.rows.map fun row => row.map Prod.snd).map (dictRow texts sheet.columns) =
        sheet.rows.map fun row => row.map fun entry => (some entry.1, entry.2) := by
      rw [List.map_map]
      refine List.map_congr_left fun row member => ?_
      have names := sound.shaped row member
      rw [Function.comp_apply, ← names, dictRow_values (names ▸ sound.distinct)]
    rw [Holds, dictReader, render, String.toList_ofList, reads]
    simp only [back]
    simp only [records, whole, rows]
  · intro large
    rw [if_neg (mt fits_iff_legible.mp large)] at reads
    rw [dictReader, render, String.toList_ofList, reads]

end Sheets

section Columns

variable {names others : List String} {name : String}

theorem mem_withNew : name ∈ withNew names others ↔ name ∈ names ∨ name ∈ others := by
  induction others generalizing names with
  | nil => simp [withNew]
  | cons other others ih =>
    rw [withNew, List.foldl_cons, ← withNew, ih]
    split
    · rename_i inside
      rw [List.mem_cons]
      exact ⟨fun either => either.imp_right Or.inr, fun either => either.elim Or.inl fun later =>
        later.elim (fun same => Or.inl (same ▸ inside)) Or.inr⟩
    · rw [List.mem_append, List.mem_singleton, List.mem_cons, or_assoc]

theorem nodup_withNew (distinct : names.Nodup) (others : List String) : (withNew names others).Nodup := by
  induction others generalizing names with
  | nil => exact distinct
  | cons other others ih =>
    rw [withNew, List.foldl_cons, ← withNew]
    apply ih
    split
    · exact distinct
    · rename_i outside
      refine List.nodup_append.mpr ⟨distinct, List.nodup_singleton other, ?_⟩
      intro first inside second single same
      exact outside (List.mem_singleton.mp single ▸ same ▸ inside)

theorem withNew_of_subset (inside : ∀ other ∈ others, other ∈ names) : withNew names others = names := by
  induction others with
  | nil => rfl
  | cons other others ih =>
    rw [withNew, List.foldl_cons, if_pos (inside other List.mem_cons_self), ← withNew]
    exact ih fun later member => inside later (List.mem_cons_of_mem _ member)

end Columns

section Rows

open Sheet

variable {base row : Row} {bookingId column : String} {rows : List Row}

/-- A row is upserted in the place of the booking's row, or behind all others. -/
theorem ids_upsert (own : get base "booking_id" = some bookingId) (stripped : ∀ row ∈ rows, strip (idOf row) = idOf row)
    (distinct : (keys base).Nodup) : (upsertCsvRow base bookingId rows).map idOf =
      if bookingId ∈ rows.map idOf then rows.map idOf else rows.map idOf ++ [bookingId] := by
  have named : idOf base = bookingId := by rw [idOf, own]; rfl
  induction rows with
  | nil => simp [upsertCsvRow, named]
  | cons existing rows ih =>
    rw [upsertCsvRow, ← idOf, stripped existing List.mem_cons_self, List.map_cons]
    by_cases here : idOf existing = bookingId
    · have updated : idOf (update existing base) = bookingId := by
        rw [idOf, get_update_of_mem distinct (mem_of_get own)]
        rfl
      rw [if_neg (not_not.mpr here), List.map_cons, updated, here, if_pos List.mem_cons_self]
    · rw [if_pos here, List.map_cons, ih fun row member => stripped row (List.mem_cons_of_mem _ member)]
      by_cases later : bookingId ∈ rows.map idOf
      · rw [if_pos later, if_pos (List.mem_cons_of_mem _ later)]
      · rw [if_neg later, if_neg fun member => (List.mem_cons.mp member).elim (fun same => here same.symm) later]
        rfl

theorem find_upsert_self (own : get base "booking_id" = some bookingId)
    (stripped : ∀ row ∈ rows, strip (idOf row) = idOf row) (distinct : (keys base).Nodup) :
    (upsertCsvRow base bookingId rows).find? (fun row => idOf row = bookingId) =
      some (update ((rows.find? fun row => idOf row = bookingId).getD []) base) := by
  have named : idOf base = bookingId := by rw [idOf, own]; rfl
  induction rows with
  | nil =>
    have whole : update [] base = base := update_eq_append distinct
    simp [upsertCsvRow, named, whole]
  | cons existing rows ih =>
    rw [upsertCsvRow, ← idOf, stripped existing List.mem_cons_self]
    by_cases here : idOf existing = bookingId
    · have updated : idOf (update existing base) = bookingId := by
        rw [idOf, get_update_of_mem distinct (mem_of_get own)]
        rfl
      simp [here, updated]
    · rw [if_pos here, List.find?_cons_of_neg (by simpa using here), List.find?_cons_of_neg (by simpa using here)]
      exact ih fun row member => stripped row (List.mem_cons_of_mem _ member)

theorem find_upsert_other {other : String} (own : get base "booking_id" = some bookingId)
    (stripped : ∀ row ∈ rows, strip (idOf row) = idOf row) (distinct : (keys base).Nodup) (different : other ≠ bookingId) :
    (upsertCsvRow base bookingId rows).find? (fun row => idOf row = other) = rows.find? fun row => idOf row = other := by
  have named : idOf base = bookingId := by rw [idOf, own]; rfl
  induction rows with
  | nil => simp [upsertCsvRow, named, Ne.symm different]
  | cons existing rows ih =>
    rw [upsertCsvRow, ← idOf, stripped existing List.mem_cons_self]
    by_cases here : idOf existing = bookingId
    · have updated : idOf (update existing base) = bookingId := by
        rw [idOf, get_update_of_mem distinct (mem_of_get own)]
        rfl
      simp [here, updated, Ne.symm different]
    · rw [if_pos here, List.find?_cons, List.find?_cons, ih fun row member => stripped row (List.mem_cons_of_mem _ member)]

/-- The values of upserted rows are those of the rows and of the new one. -/
theorem values_upsert {P : String → Prop} (new : ∀ entry ∈ base, P entry.2)
    (old : ∀ row ∈ rows, ∀ column value, get row column = some value → P value) :
    ∀ row ∈ upsertCsvRow base bookingId rows, ∀ column value, get row column = some value → P value := by
  induction rows with
  | nil =>
    intro row member
    rw [List.mem_singleton.mp member]
    exact fun column value found => new _ (mem_of_get found)
  | cons existing rows ih =>
    have later := ih fun row member => old row (List.mem_cons_of_mem _ member)
    rw [upsertCsvRow]
    split
    · exact List.forall_mem_cons.mpr ⟨old existing List.mem_cons_self, later⟩
    · refine List.forall_mem_cons.mpr ⟨?_, fun row member => old row (List.mem_cons_of_mem _ member)⟩
      intro column value found
      rcases get_update_cases found with inside | before
      · exact new _ inside
      · exact old existing List.mem_cons_self column value before

end Rows

section Put

open Sheet

variable {base : Row} {bookingId : String} {sheet : Sheet}

/-- The values of a row in the columns of a header -/
def aligned (columns : List String) (row : Row) : Row := columns.map fun column => (column, (get row column).getD "")

/-- The sheet with the row of a booking put into it. -/
def Sheet.put (base : Row) (bookingId : String) (sheet : Sheet) : Sheet :=
  let columns := withNew (keys base) sheet.columns
  ⟨columns, (upsertCsvRow base bookingId sheet.rows).map (aligned columns)⟩

/-- What a call writes: distinct columns, no formulas, texts that the reader has room for, and the booking. -/
structure Writable (base : Row) (bookingId : String) : Prop where
  distinct : (keys base).Nodup
  own : get base "booking_id" = some bookingId
  plain : Plain bookingId
  headers : ∀ column ∈ keys base, Harmless column
  cells : ∀ entry ∈ base, Harmless entry.2

/-- The file was written by calls that the reader has room for: it is a sheet with the bookings of plain ids. -/
structure Stored (file : Option String) (sheet : Sheet) : Prop where
  sound : sheet.Sound
  stripped : ∀ row ∈ sheet.rows, strip (idOf row) = idOf row
  own : file = none ∧ sheet = blank ∨
    file = some sheet.render ∧ sheet.render.utf8ByteSize ≤ maxLocalCsvBytes ∧ "booking_id" ∈ sheet.columns

theorem harmless_blank : Harmless "" := ⟨nofun, nofun⟩

theorem get_aligned (columns : List String) (row : Row) (column : String) :
    get (aligned columns row) column = if column ∈ columns then some ((get row column).getD "") else none :=
  get_tabulate columns fun column => (get row column).getD ""

theorem keys_aligned (columns : List String) (row : Row) : keys (aligned columns row) = columns := by
  simp [keys, aligned, Function.comp_def]

theorem idOf_aligned {columns : List String} (inside : "booking_id" ∈ columns) (row : Row) :
    idOf (aligned columns row) = idOf row := by
  rw [idOf, get_aligned, if_pos inside]
  rfl

theorem value_aligned {P : String → Prop} (empty : P "") {columns : List String} {row : Row}
    (values : ∀ column value, get row column = some value → P value) : ∀ entry ∈ aligned columns row, P entry.2 := by
  intro entry member
  obtain ⟨column, -, rfl⟩ := List.mem_map.mp member
  cases found : get row column with
  | none => exact empty
  | some value => exact values column value found

theorem booking_column (writable : Writable base bookingId) : "booking_id" ∈ keys base := by
  rw [← get_isSome, writable.own]
  rfl

theorem put_ids (writable : Writable base bookingId) (stripped : ∀ row ∈ sheet.rows, strip (idOf row) = idOf row) :
    (sheet.put base bookingId).ids = if bookingId ∈ sheet.ids then sheet.ids else sheet.ids ++ [bookingId] := by
  have inside := mem_withNew.mpr (Or.inl (booking_column writable) : _ ∨ "booking_id" ∈ sheet.columns)
  rw [ids, Sheet.put, List.map_map, ids, ← ids_upsert writable.own stripped writable.distinct]
  exact List.map_congr_left fun row _ => idOf_aligned inside row

theorem put_values {P : String → Prop} (empty : P "") (new : ∀ entry ∈ base, P entry.2)
    (old : ∀ row ∈ sheet.rows, ∀ entry ∈ row, P entry.2) :
    ∀ row ∈ (sheet.put base bookingId).rows, ∀ entry ∈ row, P entry.2 := by
  intro row member
  obtain ⟨row, inside, rfl⟩ := List.mem_map.mp member
  refine value_aligned empty (values_upsert new ?_ row inside)
  exact fun row member column value found => old row member _ (mem_of_get found)

theorem put_headers {P : String → Prop} (new : ∀ column ∈ keys base, P column) (old : ∀ column ∈ sheet.columns, P column) :
    ∀ column ∈ (sheet.put base bookingId).columns, P column := by
  intro column member
  exact (mem_withNew.mp member).elim (new column) (old column)

theorem sound_put (writable : Writable base bookingId) (sound : sheet.Sound)
    (stripped : ∀ row ∈ sheet.rows, strip (idOf row) = idOf row) : (sheet.put base bookingId).Sound where
  distinct := nodup_withNew writable.distinct sheet.columns
  shaped := by
    intro row member
    obtain ⟨row, -, rfl⟩ := List.mem_map.mp member
    exact keys_aligned _ row
  headers := put_headers writable.headers sound.headers
  cells := put_values harmless_blank writable.cells sound.cells
  single := by
    rw [put_ids writable stripped]
    split
    · exact sound.single
    · rename_i absent
      refine List.nodup_append.mpr ⟨sound.single, List.nodup_singleton bookingId, ?_⟩
      intro first inside second single same
      exact absent (List.mem_singleton.mp single ▸ same ▸ inside)

theorem stripped_put (writable : Writable base bookingId) (stripped : ∀ row ∈ sheet.rows, strip (idOf row) = idOf row) :
    ∀ row ∈ (sheet.put base bookingId).rows, strip (idOf row) = idOf row := by
  have all : ∀ id ∈ (sheet.put base bookingId).ids, strip id = id := by
    have old : ∀ id ∈ sheet.ids, strip id = id := by
      intro id member
      obtain ⟨row, inside, rfl⟩ := List.mem_map.mp member
      exact stripped row inside
    rw [put_ids writable stripped]
    split
    · exact old
    · intro id member
      rcases List.mem_append.mp member with before | new
      · exact old id before
      · rw [List.mem_singleton.mp new, writable.plain.strip]
  exact fun row member => all _ (List.mem_map_of_mem member)

theorem map_neutralize {names : List String} (harmless : ∀ name ∈ names, Harmless name) : names.map neutralizeCsvCell = names := by
  conv_rhs => rw [← List.map_id names]
  exact List.map_congr_left fun name member => neutralize_of_harmless (harmless name member)

theorem harmless_value {row : Row} (values : ∀ column value, get row column = some value → Harmless value) (column : String) :
    Harmless ((get row column).getD "") := by
  cases found : get row column with
  | none => exact harmless_blank
  | some value => exact values column value found

/-- What is written of rows without formulas is a sheet. -/
theorem csvText_eq {columns : List String} {rows : List Row} (distinct : columns.Nodup)
    (headers : ∀ column ∈ columns, Harmless column)
    (values : ∀ row ∈ rows, ∀ column value, get row column = some value → Harmless value) :
    csvText columns rows = (⟨columns, rows.map (aligned columns)⟩ : Sheet).render := by
  have record : ∀ row ∈ rows, (columns.map fun field => (get (update [] (columns.map fun field =>
      (neutralizeCsvCell field, neutralizeCsvCell ((get row field).getD "")))) field).getD "") =
      (aligned columns row).map Prod.snd := by
    intro row member
    have cells : (columns.map fun field => (neutralizeCsvCell field, neutralizeCsvCell ((get row field).getD ""))) =
        aligned columns row := by
      refine List.map_congr_left fun field inside => ?_
      rw [neutralize_of_harmless (headers field inside), neutralize_of_harmless (harmless_value (values row member) field)]
    have whole : update [] (aligned columns row) = aligned columns row :=
      update_eq_append (by rw [List.nil_append, keys_aligned]; exact distinct)
    rw [cells, whole, aligned, List.map_map]
    refine List.map_congr_left fun field inside => ?_
    rw [← aligned, get_aligned, if_pos inside]
    rfl
  rw [csvText, map_neutralize headers, render, Sheet.records, List.map_map]
  exact congrArg String.ofList (congrArg Csv.write (congrArg (List.map fun record => record.map String.toList)
    (congrArg (columns :: ·) (List.map_congr_left record))))

/-- What is written is the sheet with the row put into it. -/
theorem csvText_put (writable : Writable base bookingId) (sound : sheet.Sound) :
    csvText (withNew (keys base) sheet.columns) (upsertCsvRow base bookingId sheet.rows) =
      (sheet.put base bookingId).render := by
  refine csvText_eq (nodup_withNew writable.distinct _) (@put_headers base bookingId sheet _ writable.headers sound.headers) ?_
  refine values_upsert writable.cells ?_
  exact fun row member column value found => sound.cells row member _ (mem_of_get found)

end Put

section Reading

open Sheet

variable {Value : Type} {texts : Texts Value} {file : Option String} {sheet : Sheet}

theorem safeRow_eq {row : Row} (distinct : (keys row).Nodup) (headers : ∀ column ∈ keys row, Harmless column)
    (cells : ∀ entry ∈ row, Harmless entry.2) : safeRow (row.map fun entry => (some entry.1, entry.2)) = row := by
  have same : (row.map fun entry => (some entry.1, entry.2)).map (fun entry =>
      (neutralizeCsvCell (entry.1.getD "None"), neutralizeCsvCell entry.2)) = row := by
    rw [List.map_map]
    conv_rhs => rw [← List.map_id row]
    refine List.map_congr_left fun entry member => ?_
    rw [Function.comp_apply, Option.getD_some, neutralize_of_harmless (headers entry.1 (List.mem_map_of_mem member)),
      neutralize_of_harmless (cells entry member)]
    rfl
  rw [safeRow, same]
  exact update_eq_append distinct

/-- A file that was stored is read as its sheet. -/
theorem readExisting_stored (stored : Stored file sheet) (legible : sheet.Legible) (base : Row) :
    readExistingCsv texts file base = .ok (sheet.rows, withNew (keys base) sheet.columns) := by
  rcases stored.own with ⟨rfl, rfl⟩ | ⟨rfl, small, booked⟩
  · rfl
  · have parsed := (dictReader_render texts stored.sound (List.ne_nil_of_mem booked)).1 legible
    have rows : (sheet.rows.map fun row => row.map fun entry => (some entry.1, entry.2)).map safeRow = sheet.rows := by
      rw [List.map_map]
      conv_rhs => rw [← List.map_id sheet.rows]
      refine List.map_congr_left fun row member => ?_
      have names := stored.sound.shaped row member
      exact safeRow_eq (names ▸ stored.sound.distinct) (names ▸ stored.sound.headers) (stored.sound.cells row member)
    rw [Holds] at parsed
    rw [readExistingCsv]
    simp only [if_neg (Nat.not_lt.mpr small), parsed, rows, map_neutralize stored.sound.headers]
    rw [withNew_of_subset fun column member => mem_withNew.mpr (Or.inl member)]

end Reading

section Call

variable {Value : Type} (texts : Texts Value) (call : Call Value)

/-- The payload's columns with their values -/
def payloadEntries : Row :=
  (call.payload.filter fun item => item.1 ∉ systemColumns).map fun item => (neutralizeCsvCell item.1, texts.value item.2)

def systemRow : Row := [("booking_id", call.bookingId), ("workflow_id", call.workflowId), ("workflow_name", call.workflowName),
  ("conversation_id", call.conversationId), ("customer_id", call.customerId),
  ("status", orElse (strip (orElse (call.recordStatus.getD "") "completed")) "completed"), ("completed_at", call.completedAt)]

theorem localCsvRow_eq : localCsvRow texts call =
    (update (systemRow call) (payloadEntries texts call)).map fun entry => (entry.1, neutralizeCsvCell entry.2) := by
  have loop (row : Row) (payload : List (String × Value)) :
      payload.foldl (fun row item => if item.1 ∈ systemColumns then row
        else assign (neutralizeCsvCell item.1) (texts.value item.2) row) row =
      update row ((payload.filter fun item => item.1 ∉ systemColumns).map fun item =>
        (neutralizeCsvCell item.1, texts.value item.2)) := by
    induction payload generalizing row with
    | nil => rfl
    | cons item payload ih =>
      rw [List.foldl_cons, ih, List.filter_cons]
      by_cases system : item.1 ∈ systemColumns
      · simp [system]
      · simp [system, update_cons]
  rw [localCsvRow, loop]
  rfl

theorem keys_systemRow : keys (systemRow call) = systemColumns := rfl

theorem neutralize_system {name : String} (outside : name ∉ systemColumns) : neutralizeCsvCell name ∉ systemColumns := by
  rw [neutralizeCsvCell]
  split
  · intro inside
    have bare : ∀ column ∈ systemColumns, column.toList.head? ≠ some '\'' := by decide
    exact bare _ inside (by rw [String.toList_ofList]; rfl)
  · exact outside

theorem mem_payloadEntries {entry : String × String} (member : entry ∈ payloadEntries texts call) :
    ∃ item ∈ call.payload, item.1 ∉ systemColumns ∧ entry = (neutralizeCsvCell item.1, texts.value item.2) := by
  obtain ⟨item, kept, rfl⟩ := List.mem_map.mp member
  obtain ⟨inside, outside⟩ := List.mem_filter.mp kept
  exact ⟨item, inside, by simpa using outside, rfl⟩

theorem mem_keys_localCsvRow {column : String} :
    column ∈ keys (localCsvRow texts call) ↔ column ∈ systemColumns ∨ column ∈ keys (payloadEntries texts call) := by
  rw [localCsvRow_eq, keys_map, mem_keys_update, keys_systemRow]

theorem writable_localCsvRow (plain : Plain call.bookingId) : Writable (localCsvRow texts call) call.bookingId where
  distinct := by
    rw [localCsvRow_eq, keys_map]
    exact nodup_update (by rw [keys_systemRow]; decide) _
  own := by
    have absent : "booking_id" ∉ keys (payloadEntries texts call) := by
      intro member
      obtain ⟨entry, inside, same⟩ := List.mem_map.mp member
      obtain ⟨item, -, outside, rfl⟩ := mem_payloadEntries texts call inside
      exact neutralize_system outside (by rw [show neutralizeCsvCell item.1 = "booking_id" from same]; decide)
    rw [localCsvRow_eq, get_map, get_update_of_not_mem absent]
    exact congrArg some (neutralize_of_harmless plain.harmless)
  plain := plain
  headers := by
    intro column member
    rcases (mem_keys_localCsvRow texts call).mp member with system | payload
    · have harmless : ∀ column ∈ systemColumns, neutralizeCsvCell column = column := by decide
      exact harmless column system ▸ harmless_neutralize column
    · obtain ⟨entry, inside, rfl⟩ := List.mem_map.mp payload
      obtain ⟨item, -, -, rfl⟩ := mem_payloadEntries texts call inside
      exact harmless_neutralize item.1
  cells := by
    rw [localCsvRow_eq]
    intro entry member
    obtain ⟨entry, -, rfl⟩ := List.mem_map.mp member
    exact harmless_neutralize entry.2

/-- Keys of the payload that share a column have the same value in it. -/
def Agrees : Prop :=
  ∀ first ∈ call.payload, ∀ second ∈ call.payload, first.1 ∉ systemColumns → second.1 ∉ systemColumns →
    neutralizeCsvCell first.1 = neutralizeCsvCell second.1 →
      neutralizeCsvCell (texts.value first.2) = neutralizeCsvCell (texts.value second.2)

variable {texts call} in
theorem get_localCsvRow (agrees : Agrees texts call) {item : String × Value} (inside : item ∈ call.payload)
    (outside : item.1 ∉ systemColumns) :
    get (localCsvRow texts call) (neutralizeCsvCell item.1) = some (neutralizeCsvCell (texts.value item.2)) := by
  have member : neutralizeCsvCell item.1 ∈ keys (payloadEntries texts call) :=
    List.mem_map_of_mem (List.mem_map_of_mem (List.mem_filter.mpr ⟨inside, by simpa using outside⟩))
  have column := mem_keys_update.mpr (Or.inr member : neutralizeCsvCell item.1 ∈ keys (systemRow call) ∨ _)
  obtain ⟨value, found⟩ := Option.isSome_iff_exists.mp (get_isSome.mpr column)
  rw [localCsvRow_eq, get_map, found]
  rcases get_update_cases found with later | system
  · obtain ⟨other, own, free, same⟩ := mem_payloadEntries texts call later
    obtain ⟨columns, rfl⟩ := Prod.mk.inj same
    exact congrArg some (agrees other own item inside free outside columns.symm)
  · have present := get_isSome.mp (system ▸ rfl : (get (systemRow call) (neutralizeCsvCell item.1)).isSome = true)
    exact absurd present (neutralize_system outside)

/-- The reader has room for every header and cell of the call. -/
def Fits : Prop := ∀ entry ∈ localCsvRow texts call, entry.1.length ≤ fieldLimit ∧ entry.2.length ≤ fieldLimit

end Call

section Upsert

open Sheet

variable {base : Row} {bookingId : String} {sheet : Sheet}

/-- What a write does to the sheet: the values of the row stand in its columns, all else is as it was, and the cells between are
empty. -/
structure Upserted (base : Row) (bookingId : String) (before after : Sheet) : Prop where
  columns : ∀ column, column ∈ after.columns ↔ column ∈ before.columns ∨ column ∈ keys base
  ids : after.ids = if bookingId ∈ before.ids then before.ids else before.ids ++ [bookingId]
  written : ∀ entry ∈ base, after.cell bookingId entry.1 = some entry.2
  kept : bookingId ∈ before.ids → ∀ column ∈ before.columns, column ∉ keys base →
    after.cell bookingId column = before.cell bookingId column
  others : ∀ other ∈ before.ids, other ≠ bookingId → ∀ column ∈ before.columns,
    after.cell other column = before.cell other column
  between : ∀ other ∈ after.ids, ∀ column ∈ after.columns, other ∉ before.ids ∨ column ∉ before.columns →
    other ≠ bookingId ∨ column ∉ keys base → after.cell other column = some ""

theorem cell_put (writable : Writable base bookingId) {column : String} (inside : column ∈ (sheet.put base bookingId).columns)
    (other : String) : (sheet.put base bookingId).cell other column =
      ((upsertCsvRow base bookingId sheet.rows).find? fun row => idOf row = other).map fun row => (get row column).getD "" := by
  have booked := mem_withNew.mpr (Or.inl (booking_column writable) : _ ∨ "booking_id" ∈ sheet.columns)
  have ids : (fun row => decide (idOf row = other)) ∘ aligned (withNew (keys base) sheet.columns) =
      fun row => decide (idOf row = other) := by
    funext row
    rw [Function.comp_apply, idOf_aligned booked]
  rw [cell, Sheet.put, List.find?_map, ids]
  cases (upsertCsvRow base bookingId sheet.rows).find? fun row => idOf row = other with
  | none => rfl
  | some row =>
    rw [Option.map_some, Option.bind_some, get_aligned]
    exact if_pos inside

theorem find_of_mem_ids {other : String} (member : other ∈ sheet.ids) :
    ∃ row ∈ sheet.rows, sheet.rows.find? (fun row => idOf row = other) = some row := by
  obtain ⟨row, inside, same⟩ := List.mem_map.mp member
  obtain ⟨found, first⟩ := Option.isSome_iff_exists.mp
    (List.find?_isSome.mpr ⟨row, inside, by simpa using same⟩ : (sheet.rows.find? fun row => idOf row = other).isSome = true)
  exact ⟨found, List.mem_of_find?_eq_some first, first⟩

/-- A row of a sheet has a value in each of its columns, and in no other. -/
theorem get_of_shaped (sound : sheet.Sound) {row : Row} (inside : row ∈ sheet.rows) (column : String) :
    get row column = if column ∈ sheet.columns then some ((get row column).getD "") else none := by
  have names := sound.shaped row inside
  by_cases present : column ∈ sheet.columns
  · obtain ⟨value, found⟩ := Option.isSome_iff_exists.mp (get_isSome.mpr (names ▸ present))
    rw [if_pos present, found]
    rfl
  · rw [if_neg present, get_eq_none.mpr (names ▸ present)]

theorem upserted_put (writable : Writable base bookingId) (sound : sheet.Sound)
    (stripped : ∀ row ∈ sheet.rows, strip (idOf row) = idOf row) :
    Upserted base bookingId sheet (sheet.put base bookingId) where
  columns := fun column => mem_withNew.trans or_comm
  ids := put_ids writable stripped
  written := by
    intro entry member
    have inside : entry.1 ∈ (sheet.put base bookingId).columns := mem_withNew.mpr (Or.inl (List.mem_map_of_mem member))
    rw [cell_put writable inside, find_upsert_self writable.own stripped writable.distinct, Option.map_some,
      get_update_of_mem writable.distinct member]
    rfl
  kept := by
    intro present column inside outside
    obtain ⟨row, held, found⟩ := find_of_mem_ids present
    rw [cell_put writable (mem_withNew.mpr (Or.inr inside)), find_upsert_self writable.own stripped writable.distinct,
      Option.map_some, found, Option.getD_some, get_update_of_not_mem outside, cell, found, Option.bind_some,
      get_of_shaped sound held, if_pos inside]
    rfl
  others := by
    intro other present different column inside
    obtain ⟨row, held, found⟩ := find_of_mem_ids present
    rw [cell_put writable (mem_withNew.mpr (Or.inr inside)), find_upsert_other writable.own stripped writable.distinct different,
      found, Option.map_some, cell, found, Option.bind_some, get_of_shaped sound held, if_pos inside]
    rfl
  between := by
    intro other present column inside new free
    rw [cell_put writable inside]
    by_cases same : other = bookingId
    · subst same
      have outside : column ∉ keys base := free.resolve_left (not_not.mpr rfl)
      rw [find_upsert_self writable.own stripped writable.distinct, Option.map_some, get_update_of_not_mem outside]
      cases found : sheet.rows.find? fun row => idOf row = other with
      | none => rfl
      | some row =>
        have held := List.mem_of_find?_eq_some found
        have own : other ∈ sheet.ids := List.mem_map.mpr ⟨row, held, by simpa using List.find?_some found⟩
        rw [Option.getD_some, get_of_shaped sound held, if_neg (new.resolve_left (not_not.mpr own))]
        rfl
    · have own : other ∈ sheet.ids := by
        rw [put_ids writable stripped] at present
        split at present
        · exact present
        · exact (List.mem_append.mp present).resolve_right fun single => same (List.mem_singleton.mp single)
      obtain ⟨row, held, found⟩ := find_of_mem_ids own
      rw [find_upsert_other writable.own stripped writable.distinct same, found, Option.map_some, get_of_shaped sound held,
        if_neg (new.resolve_left (not_not.mpr own))]
      rfl

end Upsert

section Runs

open Sheet

variable {Value : Type} (texts : Texts Value)

/-- The bookings whose rows the calls of a run have put into the file. -/
def writtenIds : Option String → List (Write Value) → List String
  | _, [] => []
  | file, write :: writes =>
    match replacement texts file write with
    | .error _ => writtenIds (step texts file write) writes
    | .ok _ => write.call.bookingId :: writtenIds (step texts file write) writes

variable {texts} {file : Option String} {sheet : Sheet} {write : Write Value}

theorem legible_put {base : Row} {bookingId : String} (legible : sheet.Legible)
    (fits : ∀ entry ∈ base, entry.1.length ≤ fieldLimit ∧ entry.2.length ≤ fieldLimit) :
    (sheet.put base bookingId).Legible where
  headers := by
    refine @put_headers base bookingId sheet (fun column => column.length ≤ fieldLimit) ?_ legible.headers
    intro column member
    obtain ⟨entry, inside, rfl⟩ := List.mem_map.mp member
    exact (fits entry inside).1
  cells := @put_values base bookingId sheet (fun value => value.length ≤ fieldLimit) (Nat.zero_le _)
    (fun entry member => (fits entry member).2) legible.cells

/-- A call replaces the file by the sheet with its row, or leaves it; no error of the reader comes through. -/
theorem replacement_stored (stored : Stored file sheet) (legible : sheet.Legible) (plain : Plain write.call.bookingId) :
    (∃ content, replacement texts file write = .ok content ∧
      Stored (some content) (sheet.put (localCsvRow texts write.call) write.call.bookingId)) ∨
      replacement texts file write = .error .failed := by
  have writable := writable_localCsvRow texts write.call plain
  rw [replacement]
  split
  · exact Or.inr rfl
  · rw [readExisting_stored stored legible]
    simp only [csvText_put writable stored.sound]
    split
    · exact Or.inr rfl
    · rename_i goes
      refine Or.inl ⟨_, rfl, sound_put writable stored.sound stored.stripped, stripped_put writable stored.stripped, Or.inr ?_⟩
      exact ⟨rfl, by omega, mem_withNew.mpr (Or.inl (booking_column writable))⟩

/-- A call that completes replaces the file where the sheet with its row is small enough. -/
theorem replacement_of_small (stored : Stored file sheet) (legible : sheet.Legible) (plain : Plain write.call.bookingId)
    (completes : write.fate = .completes)
    (small : (sheet.put (localCsvRow texts write.call) write.call.bookingId).render.utf8ByteSize ≤ maxLocalCsvBytes) :
    replacement texts file write = .ok (sheet.put (localCsvRow texts write.call) write.call.bookingId).render ∧
      Stored (some (sheet.put (localCsvRow texts write.call) write.call.bookingId).render)
        (sheet.put (localCsvRow texts write.call) write.call.bookingId) := by
  have replaced : replacement texts file write = .ok (sheet.put (localCsvRow texts write.call) write.call.bookingId).render := by
    have text := csvText_put (writable_localCsvRow texts write.call plain) stored.sound
    rw [replacement, completes, if_neg (by decide), readExisting_stored stored legible]
    simp only [text]
    exact if_neg fun either => either.elim (by decide) (Nat.not_lt.mpr small)
  rcases replacement_stored stored legible plain with ⟨content, written, next⟩ | failed
  · rw [replaced] at written
    obtain rfl := Except.ok.inj written
    exact ⟨replaced, next⟩
  · rw [replaced] at failed
    cases failed

theorem written_of_small (stored : Stored file sheet) (legible : sheet.Legible) (plain : Plain write.call.bookingId)
    (completes : write.fate = .completes)
    (small : (sheet.put (localCsvRow texts write.call) write.call.bookingId).render.utf8ByteSize ≤ maxLocalCsvBytes) :
    writeToLocalCsv texts file write =
      (some (sheet.put (localCsvRow texts write.call) write.call.bookingId).render, .written) := by
  rw [writeToLocalCsv, (replacement_of_small stored legible plain completes small).1, completes]
  rfl

theorem stored_blank : Stored none blank :=
  ⟨⟨List.nodup_nil, nofun, nofun, nofun, List.nodup_nil⟩, nofun, Or.inl ⟨rfl, rfl⟩⟩

theorem legible_blank : blank.Legible := ⟨nofun, nofun⟩

theorem ids_put {base : Row} {bookingId : String} (writable : Writable base bookingId)
    (stripped : ∀ row ∈ sheet.rows, strip (idOf row) = idOf row) :
    bookingId ∈ (sheet.put base bookingId).ids ∧ ∀ id ∈ sheet.ids, id ∈ (sheet.put base bookingId).ids := by
  rw [put_ids writable stripped]
  split
  · rename_i present
    exact ⟨present, fun id member => member⟩
  · exact ⟨List.mem_append_right _ (List.mem_singleton.mpr rfl), fun id member => List.mem_append_left _ member⟩

/-- Every run of calls that the reader has room for leaves a sheet with all bookings that were written. -/
theorem exec_stored {writes : List (Write Value)} (stored : Stored file sheet) (legible : sheet.Legible)
    (plain : ∀ write ∈ writes, Plain write.call.bookingId) (fits : ∀ write ∈ writes, Fits texts write.call) :
    ∃ after, Stored (Run.exec (step texts) file writes) after ∧ after.Legible ∧ (∀ id ∈ sheet.ids, id ∈ after.ids) ∧
      ∀ id ∈ writtenIds texts file writes, id ∈ after.ids := by
  induction writes generalizing file sheet with
  | nil => exact ⟨sheet, stored, legible, fun id member => member, nofun⟩
  | cons write writes ih =>
    have own := plain write List.mem_cons_self
    have rest := fun other member => plain other (List.mem_cons_of_mem write member)
    have rest' := fun other member => fits other (List.mem_cons_of_mem write member)
    have writable := writable_localCsvRow texts write.call own
    rw [Run.exec_cons, writtenIds]
    rcases replacement_stored stored legible own with ⟨content, replaced, next⟩ | stays
    · have moved : step texts file write = some content := by rw [step, writeToLocalCsv, replaced]
      obtain ⟨present, grows⟩ := ids_put writable stored.stripped
      obtain ⟨after, held, room, before, written⟩ :=
        ih next (legible_put legible (fits write List.mem_cons_self)) rest rest'
      simp only [replaced, moved]
      exact ⟨after, held, room, fun id member => before id (grows id member),
        List.forall_mem_cons.mpr ⟨before _ present, written⟩⟩
    · have moved : step texts file write = file := by rw [step, writeToLocalCsv, stays]
      simp only [stays, moved]
      exact ih stored legible rest rest'

theorem holds_of_stored (stored : Stored file sheet) (legible : sheet.Legible) : Holds texts file sheet := by
  rcases stored.own with ⟨rfl, rfl⟩ | ⟨rfl, -, booked⟩
  · rfl
  · exact (dictReader_render texts stored.sound (List.ne_nil_of_mem booked)).1 legible

theorem fits_of_legible_put {base : Row} {bookingId : String} (writable : Writable base bookingId)
    (stripped : ∀ row ∈ sheet.rows, strip (idOf row) = idOf row) (legible : (sheet.put base bookingId).Legible) :
    ∀ entry ∈ base, entry.1.length ≤ fieldLimit ∧ entry.2.length ≤ fieldLimit := by
  intro entry member
  have inside : entry.1 ∈ (sheet.put base bookingId).columns := mem_withNew.mpr (Or.inl (List.mem_map_of_mem member))
  refine ⟨legible.headers entry.1 inside, ?_⟩
  have found := find_upsert_self writable.own stripped writable.distinct
  have held : (get (update ((sheet.rows.find? fun row => idOf row = bookingId).getD []) base) entry.1).getD "" = entry.2 := by
    rw [get_update_of_mem writable.distinct member]
    rfl
  exact legible.cells _ (List.mem_map_of_mem (List.mem_of_find?_eq_some found)) (entry.1, entry.2)
    (List.mem_map.mpr ⟨entry.1, inside, by rw [held]⟩)

/-- A call that writes a text for which the reader has no room leaves a file that cannot be read. -/
theorem unreadable_of_large (stored : Stored file sheet) (plain : Plain write.call.bookingId) (large : ¬ Fits texts write.call) :
    dictReader texts (sheet.put (localCsvRow texts write.call) write.call.bookingId).render = .error .fieldLarger := by
  have writable := writable_localCsvRow texts write.call plain
  have booked := mem_withNew.mpr (Or.inl (booking_column writable) : _ ∨ "booking_id" ∈ sheet.columns)
  refine (dictReader_render texts (sound_put writable stored.sound stored.stripped) (List.ne_nil_of_mem booked)).2 ?_
  exact fun legible => large (fits_of_legible_put writable stored.stripped legible)

variable (texts) in
/-- The last of some calls has put its row into the file. The file is parsed as a sheet of distinct columns without formulas, in
which each booking that was ever written has one row; the row of the call has its values in its columns, everything else is as it
was, and the next call reads the file again. -/
def KeyedUpsert (writes : List (Write Value)) (last : Write Value) : Prop :=
  ∃ before after, Holds texts (Run.exec (step texts) none writes) before ∧
    Holds texts (Run.exec (step texts) none (writes ++ [last])) after ∧ after.Sound ∧
    (∀ id ∈ last.call.bookingId :: writtenIds texts none writes, after.ids.count id = 1) ∧
    Upserted (localCsvRow texts last.call) last.call.bookingId before after ∧
    (∀ item ∈ last.call.payload, item.1 ∉ systemColumns →
      after.cell last.call.bookingId (neutralizeCsvCell item.1) = some (neutralizeCsvCell (texts.value item.2))) ∧
    ∀ baseRow, ∃ rows fieldnames,
      readExistingCsv texts (Run.exec (step texts) none (writes ++ [last])) baseRow = .ok (rows, fieldnames)

theorem not_upsert_of_unread {writes : List (Write Value)} {last : Write Value} {content : String} {error : Csv.CsvError}
    (final : Run.exec (step texts) none (writes ++ [last]) = some content) (unread : dictReader texts content = .error error) :
    ¬ KeyedUpsert texts writes last := by
  rintro ⟨_, after, -, parsed, -⟩
  rw [final, Holds, unread] at parsed
  cases parsed

/-- In a run whose texts the reader has room for, a successful call puts its row into the file if and only if the reader has room
for its texts too, and the keys of its payload that share a column agree on the value. -/
theorem upserts_iff (texts : Texts Value) (writes : List (Write Value)) (last : Write Value)
    (plain : ∀ write ∈ writes ++ [last], Plain write.call.bookingId) (fits : ∀ write ∈ writes, Fits texts write.call)
    (succeeds : (writeToLocalCsv texts (Run.exec (step texts) none writes) last).2 = .written) :
    KeyedUpsert texts writes last ↔ Fits texts last.call ∧ Agrees texts last.call := by
  have own := plain last (List.mem_append_right _ (List.mem_singleton.mpr rfl))
  obtain ⟨before, stored, legible, -, ids⟩ := exec_stored stored_blank legible_blank
    (fun write member => plain write (List.mem_append_left _ member)) fits
  have writable := writable_localCsvRow texts last.call own
  obtain ⟨content, replaced, next⟩ : ∃ content, replacement texts (Run.exec (step texts) none writes) last = .ok content ∧
      Stored (some content) (before.put (localCsvRow texts last.call) last.call.bookingId) := by
    refine (replacement_stored stored legible own).resolve_right fun stays => ?_
    rw [writeToLocalCsv, stays] at succeeds
    cases succeeds
  have final : Run.exec (step texts) none (writes ++ [last]) = some content := by
    rw [Run.exec_append, Run.exec_cons, Run.exec_nil, step, writeToLocalCsv, replaced]
  have upserted := upserted_put writable stored.sound stored.stripped
  constructor
  · intro upsert
    constructor
    · by_contra large
      obtain ⟨same, -, -⟩ := next.own.resolve_left fun absent => Option.some_ne_none content absent.1
      exact not_upsert_of_unread (same ▸ final) (unreadable_of_large stored own large) upsert
    · obtain ⟨_, after, -, -, -, -, -, items, -⟩ := upsert
      intro first inside second inside' outside outside' same
      have one := items first inside outside
      rw [same, items second inside' outside'] at one
      exact (Option.some.inj one).symm
  · rintro ⟨room, agrees⟩
    have legible' : (before.put (localCsvRow texts last.call) last.call.bookingId).Legible := legible_put legible room
    obtain ⟨present, grows⟩ := ids_put writable stored.stripped
    rw [KeyedUpsert, final]
    refine ⟨before, _, holds_of_stored stored legible, holds_of_stored next legible', next.sound, ?_, upserted, ?_, ?_⟩
    · refine List.forall_mem_cons.mpr ⟨?_, fun id member => ?_⟩
      · exact List.count_eq_one_of_mem next.sound.single present
      · exact List.count_eq_one_of_mem next.sound.single (grows id (ids id member))
    · intro item inside outside
      exact upserted.written _ (mem_of_get (get_localCsvRow agrees inside outside))
    · exact fun baseRow => ⟨_, _, readExisting_stored next legible' baseRow⟩

end Runs

section Samples

open Sheet

/-- Payload values that are texts already -/
def plainTexts : Texts String := ⟨id, String.join⟩

def sampleCall (payload : List (String × String)) : Call String :=
  ⟨"b1", "w1", "Bookings", "c1", "owner", none, "2030-01-01T00:00:00+00:00", payload⟩

def sampleWrite (payload : List (String × String)) : Write String := ⟨sampleCall payload, .completes⟩

theorem plain_sample : Plain "b1" where
  visible := by decide
  bare := by
    intro c first
    obtain rfl : 'b' = c := Option.some.inj first
    decide

/-- The second call adds a column, and its formula is neutralized. -/
theorem upserts_iff_again : KeyedUpsert plainTexts [sampleWrite [("note", "call,\r\nback")]] (sampleWrite [("=sum", "=1+1")]) := by
  have plain : ∀ write ∈ [sampleWrite [("note", "call,\r\nback")]] ++ [sampleWrite [("=sum", "=1+1")]],
      Plain write.call.bookingId := by
    intro write member
    rcases List.mem_pair.mp member with rfl | rfl <;> exact plain_sample
  have fits : ∀ payload ∈ [[("note", "call,\r\nback")], [("=sum", "=1+1")]], Fits plainTexts (sampleCall payload) := by
    unfold Fits
    decide +kernel
  have agrees : Agrees plainTexts (sampleCall [("=sum", "=1+1")]) := by
    intro first inside second inside' _ _ _
    rw [List.mem_singleton.mp inside, List.mem_singleton.mp inside']
  have small : (blank.put (localCsvRow plainTexts (sampleCall [("note", "call,\r\nback")])) "b1").render.utf8ByteSize ≤
      maxLocalCsvBytes := by decide +kernel
  have first := @written_of_small _ plainTexts none blank (sampleWrite [("note", "call,\r\nback")]) stored_blank
    legible_blank plain_sample rfl small
  have stored := (@replacement_of_small _ plainTexts none blank (sampleWrite [("note", "call,\r\nback")]) stored_blank
    legible_blank plain_sample rfl small).2
  have legible := @legible_put blank _ "b1" legible_blank (fits [("note", "call,\r\nback")] (by simp))
  have second := @written_of_small _ plainTexts _ _ (sampleWrite [("=sum", "=1+1")]) stored legible plain_sample rfl
    (by decide +kernel)
  have succeeds : (writeToLocalCsv plainTexts (Run.exec (step plainTexts) none [sampleWrite [("note", "call,\r\nback")]])
      (sampleWrite [("=sum", "=1+1")])).2 = .written := by
    rw [Run.exec_cons, Run.exec_nil, step, first]
    exact congrArg Prod.snd second
  refine (upserts_iff plainTexts [sampleWrite [("note", "call,\r\nback")]] (sampleWrite [("=sum", "=1+1")]) plain ?_
    succeeds).mpr ⟨fits _ (by simp), agrees⟩
  intro write member
  rw [List.mem_singleton.mp member]
  exact fits _ (by simp)

theorem localCsvRow_note {note : String} (harmless : Harmless note) : localCsvRow plainTexts (sampleCall [("note", note)]) =
    localCsvRow plainTexts (sampleCall []) ++ [("note", note)] := by
  have entries : payloadEntries plainTexts (sampleCall [("note", note)]) = [("note", note)] := by
    have outside : "note" ∉ systemColumns := by decide
    have column : neutralizeCsvCell "note" = "note" := by decide
    simp [payloadEntries, sampleCall, outside, column, plainTexts]
  have none : payloadEntries plainTexts (sampleCall []) = [] := rfl
  have names : (systemColumns ++ ["note"]).Nodup := by decide
  rw [localCsvRow_eq, entries, update_eq_append (by exact names), List.map_append, localCsvRow_eq, none, List.map_singleton,
    neutralize_of_harmless harmless]
  rfl

theorem utf8ByteSize_le (text : List Char) : (String.ofList text).utf8ByteSize ≤ 4 * text.length := by
  induction text with
  | nil => decide
  | cons c text ih =>
    have small := c.utf8Size_le_four
    rw [String.ofList_cons, String.utf8ByteSize_append, String.utf8ByteSize_singleton, List.length_cons]
    omega

/-- What a file of one row takes at most. -/
theorem size_single_le {base : Row} {bookingId : String} (writable : Writable base bookingId) :
    (blank.put base bookingId).render.utf8ByteSize ≤
      4 * ((base.map fun entry => 2 * entry.1.length + 3).sum + 4 + ((base.map fun entry => 2 * entry.2.length + 3).sum + 4)) := by
  have row : aligned (keys base) base = base := by
    rw [aligned, keys, List.map_map]
    conv_rhs => rw [← List.map_id base]
    refine List.map_congr_left fun entry member => ?_
    rw [Function.comp_apply, get_of_mem writable.distinct member]
    rfl
  have records : (blank.put base bookingId).records = [keys base, base.map Prod.snd] := by
    rw [Sheet.records, Sheet.put]
    exact congrArg (fun row : Row => [keys base, row.map Prod.snd]) row
  have written := Csv.length_write_le ((blank.put base bookingId).records.map fun record => record.map String.toList)
  simp only [records, keys, List.map_cons, List.map_nil, List.map_map, List.sum_cons, List.sum_nil, Function.comp_def,
    String.length_toList, Nat.add_zero] at written
  have text : [keys base, base.map Prod.snd].map (fun record => record.map String.toList) =
      [base.map fun entry => entry.1.toList, base.map fun entry => entry.2.toList] := by
    simp [keys, Function.comp_def]
  rw [render, records, text]
  exact (utf8ByteSize_le _).trans (Nat.mul_le_mul_left 4 written)

/-- The reader has no room for a note that is longer than a field may be. -/
theorem unreadable_of_note {note : String} (harmless : Harmless note) (long : note.length = fieldLimit + 1) :
    dictReader plainTexts (blank.put (localCsvRow plainTexts (sampleCall [("note", note)])) "b1").render =
      .error .fieldLarger := by
  have large : ¬ Fits plainTexts (sampleCall [("note", note)]) := by
    intro fits
    have inside : ("note", note) ∈ localCsvRow plainTexts (sampleCall [("note", note)]) := by
      rw [localCsvRow_note harmless]
      exact List.mem_append_right _ (List.mem_singleton.mpr rfl)
    have short : note.length ≤ fieldLimit := (fits ("note", note) inside).2
    omega
  exact @unreadable_of_large _ plainTexts none blank (sampleWrite [("note", note)]) stored_blank plain_sample large

theorem replacement_note {note : String} (harmless : Harmless note) (long : note.length = fieldLimit + 1) :
    replacement plainTexts none (sampleWrite [("note", note)]) =
        .ok (blank.put (localCsvRow plainTexts (sampleCall [("note", note)])) "b1").render ∧
      (blank.put (localCsvRow plainTexts (sampleCall [("note", note)])) "b1").render.utf8ByteSize ≤ maxLocalCsvBytes := by
  have headers : ((localCsvRow plainTexts (sampleCall [])).map fun entry => 2 * entry.1.length + 3).sum ≤ 1000 := by decide +kernel
  have cells : ((localCsvRow plainTexts (sampleCall [])).map fun entry => 2 * entry.2.length + 3).sum ≤ 1000 := by decide +kernel
  have bound := size_single_le (writable_localCsvRow plainTexts (sampleCall [("note", note)]) plain_sample)
  have sums : ∀ (f : String × String → Nat), ((localCsvRow plainTexts (sampleCall [("note", note)])).map f).sum =
      ((localCsvRow plainTexts (sampleCall [])).map f).sum + f ("note", note) := by
    intro f
    rw [localCsvRow_note harmless, List.map_append, List.sum_append, List.map_singleton, List.sum_singleton]
  have name : "note".length = 4 := rfl
  have limits : fieldLimit = 131072 ∧ maxLocalCsvBytes = 10485760 := ⟨rfl, rfl⟩
  rw [sums, sums, long, name] at bound
  have small : (blank.put (localCsvRow plainTexts (sampleCall [("note", note)])) "b1").render.utf8ByteSize ≤ maxLocalCsvBytes := by
    refine bound.trans ?_
    rw [limits.1, limits.2]
    generalize ((localCsvRow plainTexts (sampleCall [])).map fun entry => 2 * entry.1.length + 3).sum = front at headers
    generalize ((localCsvRow plainTexts (sampleCall [])).map fun entry => 2 * entry.2.length + 3).sum = back at cells
    omega
  exact ⟨(@replacement_of_small _ plainTexts none blank (sampleWrite [("note", note)]) stored_blank legible_blank plain_sample rfl
    small).1, small⟩

theorem write_note {note : String} (harmless : Harmless note) (long : note.length = fieldLimit + 1) :
    (writeToLocalCsv plainTexts none (sampleWrite [("note", note)])).2 = .written ∧
      ¬ KeyedUpsert plainTexts [] (sampleWrite [("note", note)]) ∧
      (writeToLocalCsv plainTexts (step plainTexts none (sampleWrite [("note", note)])) (sampleWrite [])).2 =
        .raised .fieldLarger := by
  obtain ⟨replaced, small⟩ := replacement_note harmless long
  have unread := unreadable_of_note harmless long
  have final : step plainTexts none (sampleWrite [("note", note)]) =
      some (blank.put (localCsvRow plainTexts (sampleCall [("note", note)])) "b1").render := by
    rw [step, writeToLocalCsv, replaced]
  refine ⟨?_, not_upsert_of_unread final unread, ?_⟩
  · rw [writeToLocalCsv, replaced]
    rfl
  · rw [final, writeToLocalCsv, replacement, if_neg (by decide), readExistingCsv]
    simp only [if_neg (Nat.not_lt.mpr small), unread]

def longNote : String := String.ofList (List.replicate (fieldLimit + 1) 'a')

theorem harmless_longNote : Harmless longNote := by
  have bare : 'a' ∉ formulaPrefixes := by decide
  rw [Harmless, longNote, String.toList_ofList, List.replicate_succ, List.dropWhile_cons_of_neg (by decide)]
  exact ⟨fun c member => Option.some.inj member ▸ bare, fun c member => Option.some.inj member ▸ bare⟩

theorem length_longNote : longNote.length = fieldLimit + 1 := by rw [longNote, String.length_ofList, List.length_replicate]

/-- A write reports success, and the file can be read neither as it is nor by the next call. -/
theorem long_note_unreadable :
    (writeToLocalCsv plainTexts none (sampleWrite [("note", longNote)])).2 = .written ∧
      ¬ KeyedUpsert plainTexts [] (sampleWrite [("note", longNote)]) ∧
      (writeToLocalCsv plainTexts (step plainTexts none (sampleWrite [("note", longNote)])) (sampleWrite [])).2 =
        .raised .fieldLarger := write_note harmless_longNote length_longNote

end Samples

end OpenTulpa.Intake.CsvSink
