import Mathlib.Data.List.Sort
import OpenTulpa.Library.Groups
import OpenTulpa.Knowledge.Extraction

/-! Facts of tables: which of the rows read from a section are headers, and one fact for each other cell, bound to the
header of its column and the label of its row. -/

namespace OpenTulpa.Knowledge.TableFacts

open Library Library.Text Library.Spaces Library.Splitting Library.Groups Tables TableSections Extraction

section Values

/-- The classes of characters and the folding of case that the language takes from Unicode. -/
structure Characters where
  platform : Platform
  isDigit : Char → Bool
  isAlpha : Char → Bool
  isWord : Char → Bool
  casefold : List Char → List Char

variable (chars : Characters)

inductive ValueKind where
  | blank
  | emptyMarker
  | number
  | date
  | mixedValue
  | text
  deriving DecidableEq

def isDash (c : Char) : Bool := c == '-' || c == '—' || c == '–'

def isDateMark (c : Char) : Bool := c == '-' || c == '.' || c == '/'

/-- What a number of decimal digits within the given bounds leaves of a text. -/
def afterDigits (least most : Nat) (text : List Char) : Option (List Char) :=
  let digits := text.takeWhile (TableSections.isDigit chars.platform)
  if least ≤ digits.length ∧ digits.length ≤ most then some (text.dropWhile (TableSections.isDigit chars.platform)) else none

def afterDateMark : List Char → Option (List Char)
  | c :: rest => if isDateMark c then some rest else none
  | [] => none

/-- `re.fullmatch(r"\d{1,4}[-./]\d{1,2}[-./]\d{1,4}", text)` -/
def isDate (text : List Char) : Bool :=
  ((afterDigits chars 1 4 text).bind afterDateMark |>.bind (afterDigits chars 1 2) |>.bind afterDateMark
    |>.bind (afterDigits chars 1 4)) == some []

/-- `_value_kind` -/
def valueKind (value : List Char) : ValueKind :=
  let text := cleanText value
  if text.isEmpty then .blank
  else if text.all isDash then .emptyMarker
  else if text.all fun c => TableSections.isDigit chars.platform c || isSpace c || c == '.' || c == ',' then .number
  else if isDate chars text then .date
  else
    let shown := text.filter fun c => !isSpace c
    let digits := shown.countP chars.isDigit
    let letters := shown.countP chars.isAlpha
    if digits ≠ 0 ∧ letters = 0 then .number
    else if digits ≠ 0 ∧ letters > 0 ∧ digits ≥ letters * 2 then .mixedValue
    else .text

/-- The longest runs of accepted characters, behind a run begun. -/
def runsOf (accepts : Char → Bool) : List Char → List Char → List (List Char)
  | run, [] => if run.isEmpty then [] else [run]
  | run, c :: rest =>
    if accepts c then runsOf accepts (run ++ [c]) rest
    else if run.isEmpty then runsOf accepts [] rest else run :: runsOf accepts [] rest

/-- `_TOKEN_RE` -/
def isTokenChar (c : Char) : Bool := chars.isWord c || c.toNat == 96 || c == '-'

def tokens (text : List Char) : List (List Char) := runsOf (isTokenChar chars) [] text

/-- `_normalized_text` -/
def normalizedText (text : List Char) : List Char :=
  let value := (chars.casefold text).map fun c => if c = 'ё' then 'е' else if c = 'х' then 'x' else c
  [' '].intercalate (tokens chars value)

def uniqueFrom (seen : List (List Char)) : List (List Char) → List (List Char)
  | [] => []
  | value :: rest =>
    let text := cleanText value
    let key := chars.casefold text
    if text.isEmpty || seen.contains key then uniqueFrom seen rest else text :: uniqueFrom (key :: seen) rest

/-- `_unique` -/
def unique (values : List (List Char)) : List (List Char) := uniqueFrom chars [] values

def isBullet (c : Char) : Bool := c == '*' || c == '•' || c == '●'

/-- What stands in front of a bullet behind white space, or of a longer run of white space. -/
def beforeBullet : List Char → List Char
  | c :: d :: rest => if isSpace c && (isBullet d || isSpace d) then [] else c :: beforeBullet (d :: rest)
  | text => text

/-- `_primary_label` -/
def primaryLabel (value : List Char) : List Char :=
  let text := cleanText value
  let first := cleanText (beforeBullet text)
  if first.isEmpty then text else first

end Values

section Rows

variable (chars : Characters)

/-- `_label_cell` -/
def labelCell (cells : List TableCell) : Option TableCell :=
  (cells.find? fun cell => valueKind chars cell.value == .text).or cells.head?

/-- `_is_header_candidate` -/
def isHeaderCandidate (cells : List TableCell) : Bool :=
  2 ≤ cells.length && max 2 (cells.length / 2) ≤ cells.countP fun cell => valueKind chars cell.value == .text

/-- `_is_data_like_row` -/
def isDataLikeRow (cells : List TableCell) : Bool :=
  2 ≤ cells.length &&
    match labelCell chars cells with
    | none => false
    | some label => valueKind chars label.value == .text &&
        cells.any fun cell => cell.columnIndex ≠ label.columnIndex && valueKind chars cell.value != .text

/-- `_is_repeated_context_row`: three fifths of the values are the same. -/
def isRepeatedContextRow (cells : List TableCell) : Bool :=
  let values := (cells.map fun cell => normalizedText chars cell.value).filter fun value => !value.isEmpty
  3 ≤ cells.length && 3 ≤ values.length && values.any fun value => 3 * values.length ≤ 5 * values.count value

/-- `_detect_header_row_numbers` -/
def detectHeaderRowNumbers (rows : List (Nat × List TableCell)) : List Nat :=
  let leading := (rows.takeWhile fun row => !isDataLikeRow chars row.2).filter fun row => isHeaderCandidate chars row.2
  let chosen := if leading.isEmpty then (rows.take 3).filter fun row => isHeaderCandidate chars row.2 else leading
  chosen.map Prod.fst

/-- `_headers_by_column` -/
def headersByColumn (headerRows : List (List TableCell)) (column : Nat) : Option (List Char) :=
  let cells := ((headerRows.take 3).filter fun cells => !isRepeatedContextRow chars cells).flatten
  let values := cells.filter fun cell => cell.columnIndex = column && valueKind chars cell.value != .blank &&
    valueKind chars cell.value != .emptyMarker
  if values.isEmpty then none else some ([' ', '/', ' '].intercalate (unique chars (values.map TableCell.value)))

end Rows

section Facts

variable (chars : Characters)

/-- The part of a section's metadata that names its table; an empty text is a missing one. -/
structure SectionMetadata where
  filename : List Char
  sectionTitle : List Char
  sheet : List Char
  sourceLabel : List Char
  deriving DecidableEq

structure SourceSection where
  structured : Bool
  part : KnowledgeSourceSection
  metadata : SectionMetadata
  deriving DecidableEq

def orElse (first second : List Char) : List Char := if first.isEmpty then second else first

def SectionMetadata.file (metadata : SectionMetadata) : List Char := stripChars (orElse metadata.filename "source".toList)

def SectionMetadata.table (metadata : SectionMetadata) : List Char :=
  stripChars (orElse metadata.sectionTitle (orElse metadata.sheet (orElse metadata.sourceLabel metadata.file)))

/-- A fact; its confidences are in hundredths. -/
structure TableFact where
  filename : List Char
  table : List Char
  sourceOrder : Nat
  sourceRef : List Char
  row : Nat
  item : List Char
  rowLabel : List Char
  column : List Char
  header : List Char
  value : List Char
  kind : ValueKind
  rowConfidence : Nat
  headerConfidence : Nat
  deriving DecidableEq

def isLabel (label cell : TableCell) : Bool := cell.columnIndex = label.columnIndex && cell.value = label.value

def cellFact (source : SourceSection) (headers : Nat → Option (List Char)) (row : Nat) (label cell : TableCell) : TableFact :=
  let rowLabel := cleanText label.value
  let header := (headers cell.columnIndex).getD cell.column
  { filename := source.metadata.file
    table := source.metadata.table
    sourceOrder := source.part.sortOrder
    sourceRef := source.part.sourceRef
    row := row
    item := primaryLabel rowLabel
    rowLabel := rowLabel
    column := cell.column
    header := header
    value := cell.value
    kind := valueKind chars cell.value
    rowConfidence := if label.columnIndex ≤ 2 then 95 else 75
    headerConfidence := if header ≠ cell.column then 95 else 50 }

/-- The facts of one row. -/
def rowFacts (source : SourceSection) (headers : Nat → Option (List Char)) (row : Nat × List TableCell) : List TableFact :=
  match labelCell chars row.2 with
  | none => []
  | some label =>
    if (primaryLabel (cleanText label.value)).isEmpty then []
    else (row.2.filter fun cell => !isLabel label cell && !cell.value.isEmpty).map (cellFact chars source headers row.1 label)

/-- `_table_facts_from_section` on the rows that are read. -/
def factsOfRows (source : SourceSection) (rows : List (Nat × List TableCell)) : List TableFact :=
  let headerNumbers := detectHeaderRowNumbers chars rows
  let headerRows := (rows.filter fun row => headerNumbers.contains row.1).map Prod.snd
  (rows.filter fun row => !headerNumbers.contains row.1).flatMap (rowFacts chars source (headersByColumn chars headerRows))

/-- The longest text of digits that `int` takes. -/
def maxStrDigits : Nat := 4300

/-- The number of a row line, if it is one, can be turned into an integer. -/
def numberFits (line : List Char) : Bool :=
  match stripChars line with
  | 'R' :: 'o' :: 'w' :: rest =>
    let digits := (rest.dropWhile isSpace).takeWhile (TableSections.isDigit chars.platform)
    (parseRowLine chars.platform line).isNone || digits.length ≤ maxStrDigits
  | _ => true

/-- `_table_facts_from_section`; `none` when it raises. -/
def tableFactsFromSection (source : SourceSection) : Option (List TableFact) :=
  if (splitlines source.part.content).all (numberFits chars) then
    some (factsOfRows chars source (parsedRows chars.platform source.part.content))
  else none

/-- `table_facts_from_sections` -/
def tableFactsFromSections : List SourceSection → Option (List TableFact)
  | [] => some []
  | source :: rest =>
    if source.structured then
      (tableFactsFromSection chars source).bind fun facts => (tableFactsFromSections rest).map (facts ++ ·)
    else tableFactsFromSections rest

/-- A row of evidence, without the score that a selection gives it. -/
structure TableRowEvidence where
  filename : List Char
  table : List Char
  sourceOrder : Nat
  sourceRef : List Char
  row : Nat
  item : List Char
  rowLabel : List Char
  cells : List TableFact
  deriving DecidableEq

def evidenceKey (fact : TableFact) : List Char × Nat × List Char := (fact.sourceRef, fact.row, fact.item)

def evidenceOf : List TableFact → Option TableRowEvidence
  | [] => none
  | first :: rest => some ⟨first.filename, first.table, first.sourceOrder, first.sourceRef, first.row, first.item,
      first.rowLabel, first :: rest⟩

/-- The order of the rows: by section, row, table and item. -/
def evidenceOrder (first second : TableRowEvidence) : Ordering :=
  (compare first.sourceOrder second.sourceOrder).then ((compare first.row second.row).then
    ((compare first.table second.table).then (compare (chars.casefold first.item) (chars.casefold second.item))))

/-- `_rows_from_facts` -/
def rowsFromFacts (facts : List TableFact) : List TableRowEvidence :=
  ((groups evidenceKey facts).filterMap evidenceOf).insertionSort fun first second => (evidenceOrder chars first second).isLE

/-- The rows of evidence are those of the groups of facts. -/
theorem mem_rowsFromFacts {facts : List TableFact} {row : TableRowEvidence} :
    row ∈ rowsFromFacts chars facts ↔ ∃ group ∈ groups evidenceKey facts, evidenceOf group = some row := by
  rw [rowsFromFacts, List.mem_insertionSort, List.mem_filterMap]

/-- If no two facts of one row differ in their section or item, then each row is in the evidence once. -/
theorem rowsFromFacts_nodup {facts : List TableFact}
    (one : ∀ first ∈ facts, ∀ second ∈ facts, first.row = second.row → evidenceKey first = evidenceKey second) :
    ((rowsFromFacts chars facts).map TableRowEvidence.row).Nodup := by
  have apart : (groups evidenceKey facts).Pairwise fun first second => ∀ row, evidenceOf first = some row →
      ∀ other, evidenceOf second = some other → row.row ≠ other.row := by
    refine (groups_apart evidenceKey facts).imp_of_mem fun {first second} left right differs row made other makes same => ?_
    obtain ⟨head, rest, rfl, listed, _⟩ := group_begins left
    obtain ⟨begin_, later, rfl, among, _⟩ := group_begins right
    obtain rfl := Option.some.inj made
    obtain rfl := Option.some.inj makes
    exact differs head List.mem_cons_self begin_ List.mem_cons_self (one head listed begin_ among same)
  have distinct : ((groups evidenceKey facts).filterMap evidenceOf).Pairwise fun first second => first.row ≠ second.row :=
    List.Pairwise.filterMap _ (fun first second differs row made other makes => differs row made other makes) apart
  rw [List.Nodup, List.pairwise_map]
  exact ((List.perm_insertionSort _ _).pairwise_iff fun differs same => differs same.symm).mpr distinct

end Facts

end OpenTulpa.Knowledge.TableFacts
