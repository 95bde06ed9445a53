import Mathlib
import OpenTulpa.Knowledge.TableSections

/-! The sections of spreadsheets and delimited files. Rows are cut into runs by the size of their lines, and every run
is written with the header context of its table; what is read from a section is compared with the rows of that table. -/

namespace OpenTulpa.Knowledge.Extraction

open Library Library.Text Library.Spaces Library.Splitting Tables TableSections

section Rows

def maxTableSectionChars : Nat := 16000
def maxCellChars : Nat := 500
def maxRowsPerSheet : Nat := 20000
def maxColsPerSheet : Nat := 200
def headerContextRowLimit : Nat := 12

/-- The rows in which a cell is filled, numbered from 1. -/
def nonemptyRows (grid : List (List (List Char))) : List Row :=
  (grid.zipIdx 1).filterMap fun (values, number) => if values.any (!·.isEmpty) then some ⟨number, values⟩ else none

/-- The rows of the header context. -/
def headerRows (rows : List Row) : List Row :=
  let candidates := (rows.take headerContextRowLimit).filter fun row =>
    2 ≤ row.cells.length || (!row.cells.isEmpty && row.number ≤ 3)
  let chosen := if candidates.isEmpty then rows.take 3 else candidates
  (chosen.take headerContextRowLimit).filter fun row => !row.cells.isEmpty

/-- `_header_context_rows` -/
def headerContextRows (rows : List Row) : List (List Char) := (headerRows rows).map (rowLine columnName)

/-- The lines of one section under way, with the numbers of its first and last row. -/
structure Run where
  lines : List (List Char)
  rowStart : Nat
  rowEnd : Nat
  deriving DecidableEq

/-- The loop that cuts the rows into runs. -/
def runsFrom (label : Nat → List Char) : Run → List Row → List Run
  | run, [] => if run.lines.isEmpty then [] else [run]
  | run, row :: rest =>
    let line := rowLine label row
    if !run.lines.isEmpty && (run.lines.map fun item => item.length + 1).sum + line.length + 1 > maxTableSectionChars then
      run :: runsFrom label ⟨[line], row.number, row.number⟩ rest
    else runsFrom label ⟨run.lines ++ [line], run.rowStart, row.number⟩ rest

def runs (label : Nat → List Char) : List Row → List Run
  | [] => []
  | first :: rest => runsFrom label ⟨[], first.number, first.number⟩ (first :: rest)

/-- The values of a row are trimmed. -/
def Trimmed (values : List (List Char)) : Prop := ∀ value ∈ values, value = [] ∨ ∃ c rest, value = c :: rest ∧ isSpace c = false

theorem written_row {number : Nat} {values : List (List Char)} (trimmed : Trimmed values)
    (filled : values.any (!·.isEmpty) = true) : (Row.mk number values).Written := by
  refine ⟨fun cell member => ?_, fun empty => ?_⟩
  · obtain ⟨⟨value, index⟩, inside, taken⟩ := List.mem_filterMap.mp member
    by_cases blank : value.isEmpty = true
    · simp [blank] at taken
    · obtain rfl : (index, value) = cell := by simpa [blank] using taken
      have begins := (trimmed value (List.fst_mem_of_mem_zipIdx inside)).resolve_left (by simpa using blank)
      exact ⟨List.le_snd_of_mem_zipIdx inside, begins⟩
  · obtain ⟨value, inside, shown⟩ := List.any_eq_true.mp filled
    obtain ⟨position, found⟩ := List.mem_iff_getElem?.mp inside
    have listed : (value, position + 1) ∈ values.zipIdx 1 := by
      rw [Nat.add_comm]
      exact List.mk_add_mem_zipIdx_iff_getElem?.mpr found
    have cell : (position + 1, value) ∈ (Row.mk number values).cells :=
      List.mem_filterMap.mpr ⟨_, listed, by simp [by simpa using shown]⟩
    rw [empty] at cell
    cases cell

theorem written_nonemptyRows {grid : List (List (List Char))} (trimmed : ∀ values ∈ grid, Trimmed values) :
    ∀ row ∈ nonemptyRows grid, row.Written := by
  intro row member
  obtain ⟨⟨values, number⟩, inside, taken⟩ := List.mem_filterMap.mp member
  by_cases filled : values.any (!·.isEmpty) = true
  · obtain rfl : Row.mk number values = row := by simpa [filled] using taken
    exact written_row (trimmed values (List.fst_mem_of_mem_zipIdx inside)) filled
  · simp [filled] at taken

theorem nonemptyRows_increasing (grid : List (List (List Char))) :
    (nonemptyRows grid).Pairwise fun first second => first.number < second.number := by
  have numbered : (grid.zipIdx 1).Pairwise fun first second => first.2 < second.2 := by
    rw [← List.pairwise_map, List.zipIdx_map_snd]
    exact List.pairwise_lt_range'
  refine List.Pairwise.filterMap _ (fun first second before row taken other takenOther => ?_) numbered
  obtain ⟨_, rfl⟩ : _ ∧ Row.mk first.2 first.1 = row := by simpa using taken
  obtain ⟨_, rfl⟩ : _ ∧ Row.mk second.2 second.1 = other := by simpa using takenOther
  exact before

theorem headerRows_subset (rows : List Row) : ∀ row ∈ headerRows rows, row ∈ rows := by
  intro row member
  have chosen := List.mem_of_mem_take (List.mem_of_mem_filter member)
  split at chosen
  · exact List.mem_of_mem_take chosen
  · exact List.mem_of_mem_take (List.mem_of_mem_filter chosen)

end Rows

section Runs

variable {label : Nat → List Char}

/-- A run of the given rows. -/
def runOf (label : Nat → List Char) (part : List Row) : Run where
  lines := part.map (rowLine label)
  rowStart := (part.head?.map Row.number).getD 0
  rowEnd := (part.getLast?.map Row.number).getD 0

theorem runOf_append {part : List Row} (filled : part ≠ []) (row : Row) :
    runOf label (part ++ [row]) = ⟨(runOf label part).lines ++ [rowLine label row], (runOf label part).rowStart, row.number⟩ := by
  have start : (part ++ [row]).head? = part.head? := by
    obtain ⟨first, rest, rfl⟩ := List.exists_cons_of_ne_nil filled
    rfl
  rw [runOf, start, List.getLast?_concat, List.map_append]
  rfl

theorem runsFrom_parts (rest : List Row) {part : List Row} (filled : part ≠ []) :
    ∃ parts : List (List Row), runsFrom label (runOf label part) rest = parts.map (runOf label) ∧ parts.flatten = part ++ rest ∧
      ∀ piece ∈ parts, piece ≠ [] := by
  have begun : (runOf label part).lines.isEmpty = false := by simpa [runOf] using filled
  induction rest generalizing part with
  | nil => exact ⟨[part], by simp [runsFrom, begun], by simp, by simpa using filled⟩
  | cons row rest ih =>
    rw [runsFrom]
    split
    · obtain ⟨parts, cut, whole, pieces⟩ := ih (List.cons_ne_nil row []) (by simp [runOf])
      refine ⟨part :: parts, ?_, by simp [whole], ?_⟩
      · rw [List.map_cons, ← cut]
        rfl
      · intro piece member
        rcases List.mem_cons.mp member with rfl | later
        · exact filled
        · exact pieces piece later
    · obtain ⟨parts, cut, whole, pieces⟩ := ih (List.concat_ne_nil row part) (by simp [runOf])
      refine ⟨parts, ?_, by simp [whole], pieces⟩
      rw [← cut, runOf_append filled]

/-- The runs are those of the pieces of a division of the rows. -/
theorem runs_parts (label : Nat → List Char) (rows : List Row) : ∃ parts : List (List Row), runs label rows = parts.map (runOf label) ∧ parts.flatten = rows ∧
    ∀ piece ∈ parts, piece ≠ [] := by
  cases rows with
  | nil => exact ⟨[], rfl, rfl, nofun⟩
  | cons first rest => exact runsFrom_parts rest (List.cons_ne_nil first [])

theorem mem_part {rows front part back : List Row} (split : rows = front ++ part ++ back) (filled : part ≠ [])
    (increasing : rows.Pairwise fun first second => first.number < second.number) (row : Row) :
    row ∈ part ↔ row ∈ rows ∧ (runOf label part).rowStart ≤ row.number ∧ row.number ≤ (runOf label part).rowEnd := by
  subst split
  obtain ⟨early, inner, beyond⟩ : (∀ a ∈ front, ∀ b ∈ part, a.number < b.number) ∧
      part.Pairwise (fun first second => first.number < second.number) ∧
      ∀ a ∈ part, ∀ b ∈ back, a.number < b.number := by
    obtain ⟨ahead, _, apart⟩ := List.pairwise_append.mp increasing
    obtain ⟨_, inner, early⟩ := List.pairwise_append.mp ahead
    exact ⟨early, inner, fun a member => apart a (List.mem_append_right front member)⟩
  obtain ⟨first, others, begins⟩ := List.exists_cons_of_ne_nil filled
  have start : (runOf label part).rowStart = first.number := by rw [begins]; rfl
  have stop : (runOf label part).rowEnd = (part.getLast filled).number := by
    rw [runOf, List.getLast?_eq_getLast_of_ne_nil filled]
    rfl
  rw [start, stop]
  constructor
  · intro member
    refine ⟨List.mem_append_left back (List.mem_append_right front member), ?_, ?_⟩
    · rw [begins] at member inner
      rcases List.mem_cons.mp member with rfl | later
      · exact le_rfl
      · exact ((List.pairwise_cons.mp inner).1 row later).le
    · rw [← List.dropLast_append_getLast filled] at inner member
      rcases List.mem_append.mp member with before | last
      · exact ((List.pairwise_append.mp inner).2.2 row before _ (List.mem_singleton.mpr rfl)).le
      · rw [List.mem_singleton.mp last]
  · rintro ⟨member, lower, upper⟩
    have head : first ∈ part := by rw [begins]; exact List.mem_cons_self
    rcases List.mem_append.mp member with ahead | after
    · rcases List.mem_append.mp ahead with before | inside
      · exact absurd (early row before first head) (Nat.not_lt.mpr lower)
      · exact inside
    · exact absurd (beyond _ (List.getLast_mem filled) row after) (Nat.not_lt.mpr upper)

theorem number_injective {rows : List Row} (increasing : rows.Pairwise fun first second => first.number < second.number) :
    ∀ first ∈ rows, ∀ second ∈ rows, first.number = second.number → first = second := by
  induction rows with
  | nil => exact nofun
  | cons row rows ih =>
    obtain ⟨before, rest⟩ := List.pairwise_cons.mp increasing
    intro first left second right same
    rcases List.mem_cons.mp left with rfl | below <;> rcases List.mem_cons.mp right with rfl | under
    · rfl
    · exact absurd same (before second under).ne
    · exact absurd same (before first below).ne'
    · exact ih rest first below second under same

end Runs

section Content

variable {platform : Platform} {label : Nat → List Char}

def joinLines (lines : List (List Char)) : List Char := ['\n'].intercalate lines

def rowRange (run : Run) : List Char := Nat.toDigits 10 run.rowStart ++ '-' :: Nat.toDigits 10 run.rowEnd

def rangeTitle : List Char := "Rows: ".toList

def headerTitle : List Char := "Header/table context rows:".toList

def rowsTitle : List Char := "Rows in this section:".toList

/-- The titles of a section and the text below them. -/
def tableText (title : List Char) (headerContext : List (List Char)) (run : Run) : List Char :=
  title ++ rangeTitle ++ rowRange run ++ ['\n'] ++ headerTitle ++ ['\n'] ++ joinLines headerContext ++
    ['\n', '\n'] ++ rowsTitle ++ ['\n'] ++ joinLines run.lines

def tableContent (title : List Char) (headerContext : List (List Char)) (run : Run) : List Char :=
  stripChars (tableText title headerContext run)

/-- Titles that are not read as rows. -/
def Untold (platform : Platform) (title : List Char) : Prop :=
  ∀ (β : Type) (reader : LineReader β), Follows platform reader →
    ∀ rest, reader.readLines (title ++ rest) = reader.readLines rest

theorem Untold.append {first second : List Char} (above : Untold platform first) (below : Untold platform second) :
    Untold platform (first ++ second) := by
  intro β reader follows rest
  rw [List.append_assoc, above _ _ follows, below _ _ follows]

/-- A line whose begin cannot be that of a row, up to its end. -/
theorem untold_line {start text : List Char} (silent : Silent platform start)
    (plain : ∀ c ∈ start, isLineBreak c = false) (free : ':' ∉ text) : Untold platform (start ++ text ++ ['\n']) := by
  intro β reader follows rest
  rw [List.append_assoc, List.append_assoc, LineReader.readLines, LineReader.readFrom_plain _ plain, List.nil_append,
    List.singleton_append, readFrom_silent follows silent free]

theorem toDigits_free (number : Nat) : ':' ∉ Nat.toDigits 10 number := by
  intro member
  have digit := isDigit_of_mem_toDigits member
  cases digit

theorem untold_rowRange (run : Run) : Untold platform (rangeTitle ++ rowRange run ++ ['\n']) := by
  refine untold_line (silent_rows (by decide) _) (by decide) ?_
  intro member
  rcases List.mem_append.mp member with start | stop
  · exact toDigits_free _ start
  · rcases List.mem_cons.mp stop with dash | stop
    · cases dash
    · exact toDigits_free _ stop

theorem untold_header : Untold platform (headerTitle ++ ['\n']) := by
  have line : Untold platform (headerTitle ++ [] ++ ['\n']) :=
    untold_line (silent_other (by decide) (by decide) _) (by decide) List.not_mem_nil
  rwa [List.append_nil] at line

theorem untold_blank : Untold platform ['\n'] :=
  untold_line silent_nil nofun (List.not_mem_nil : ':' ∉ ([] : List Char))

theorem untold_rows : Untold platform (['\n'] ++ (rowsTitle ++ ['\n'])) := by
  have line : Untold platform (rowsTitle ++ [] ++ ['\n']) :=
    untold_line (silent_rows (by decide) _) (by decide) List.not_mem_nil
  rw [List.append_nil] at line
  exact untold_blank.append line

variable {β : Type} {reader : LineReader β}

/-- Joined lines with an end of line behind them are read as lines that have each their own. -/
theorem readLines_joinLines (follows : Follows platform reader) (rows : List Row) (rest : List Char) :
    reader.readLines (joinLines (rows.map (rowLine label)) ++ '\n' :: rest) =
      reader.readLines (rowLines label rows ++ rest) := by
  cases rows with
  | nil => exact untold_blank _ _ follows rest
  | cons row rows =>
    suffices same : joinLines ((row :: rows).map (rowLine label)) ++ ['\n'] = rowLines label (row :: rows) by
      rw [← same, List.append_assoc, List.singleton_append]
    induction rows generalizing row with
    | nil => simp [joinLines, rowLines, List.intercalate]
    | cons next rows ih =>
      have shape : joinLines ((row :: next :: rows).map (rowLine label)) =
          rowLine label row ++ '\n' :: joinLines ((next :: rows).map (rowLine label)) := by
        simp [joinLines, List.intercalate]
      rw [shape, List.append_assoc, List.cons_append, ih]
      simp [rowLines]

theorem stripChars_rstrip {c : Char} (shown : isSpace c = false) (rest : List Char) :
    stripChars (c :: rest) = rstrip (c :: rest) := by
  rw [stripChars, List.dropWhile_cons_of_neg (by simp [shown]), rstrip]

theorem tableText_cons (c : Char) (title : List Char) (headerContext : List (List Char)) (run : Run) :
    tableText (c :: title) headerContext run = c :: tableText title headerContext run := rfl

/-- The text of a section below its header context. -/
def runText (label : Nat → List Char) (part : List Row) : List Char :=
  ['\n'] ++ (rowsTitle ++ ['\n']) ++ (joinLines (part.map (rowLine label)) ++ '\n' :: [])

theorem readLines_runText (follows : Follows platform reader) (part : List Row) :
    reader.readLines (runText label part) = reader.readLines (rowLines label part ++ []) := by
  rw [runText, untold_rows _ _ follows, readLines_joinLines follows]

/-- What is read from a section: the rows of its header context, then its own. -/
theorem readLines_tableContent (follows : Follows platform reader) (label : Nat → List Char) {c : Char} {title : List Char} (shown : isSpace c = false) (untold : Untold platform (c :: title))
    (header part : List Row) : reader.readLines
      (tableContent (c :: title) (header.map (rowLine columnName)) (runOf label part)) =
        reader.readLines (rowLines columnName header ++ runText label part) := by
  let headerContext := header.map (rowLine columnName)
  obtain ⟨text, begins⟩ : ∃ text, tableText (c :: title) headerContext (runOf label part) = c :: text :=
    ⟨_, tableText_cons c title headerContext _⟩
  obtain ⟨space, cut, white⟩ := rstrip_append (c :: text)
  have ended : ∀ d ∈ ['\n'], isSpace d = true := by decide
  have whole : c :: text ++ ['\n'] = (c :: title) ++ ((rangeTitle ++ rowRange (runOf label part) ++ ['\n']) ++
      ((headerTitle ++ ['\n']) ++ (joinLines headerContext ++ '\n' :: runText label part))) := by
    rw [← begins, tableText]
    simp [runOf, runText]
  calc reader.readLines (tableContent (c :: title) headerContext (runOf label part))
    _ = reader.readLines (rstrip (c :: text)) := by rw [tableContent, begins, stripChars_rstrip shown]
    _ = reader.readLines (c :: text ++ ['\n']) := by
      rw [LineReader.readLines, ← LineReader.readFrom_trailing _ white [] (rstrip (c :: text)), ← cut,
        ← LineReader.readFrom_trailing _ ended [] (c :: text), LineReader.readLines]
    _ = reader.readLines (rowLines columnName header ++ runText label part) := by
      rw [whole, untold _ _ follows, untold_rowRange _ _ _ follows, untold_header _ _ follows, readLines_joinLines follows]

end Content

section Survival

variable {platform : Platform} {label : Nat → List Char}

structure KnowledgeSourceSection where
  content : List Char
  sourceRef : List Char
  sortOrder : Nat
  rowStart : Nat
  rowEnd : Nat
  deriving DecidableEq

/-- What is read from a section: each row of the header context and of the section with its filled cells, once, and
nothing else. -/
def Survives (platform : Platform) (rows : List Row) (part : KnowledgeSourceSection) : Prop :=
  ((parsedRows platform part.content).map Prod.fst).Nodup ∧
    ∀ found, found ∈ parsedRows platform part.content ↔ ∃ row ∈ rows,
      (row ∈ headerRows rows ∨ part.rowStart ≤ row.number ∧ row.number ≤ part.rowEnd) ∧ found = row.expected

/-- Rows as the extraction has them. -/
structure Listed (rows : List Row) : Prop where
  written : ∀ row ∈ rows, row.Written
  increasing : rows.Pairwise fun first second => first.number < second.number

variable {rows header part : List Row}

/-- A row that is read as something else behind rows that fit is not the only damage, but it is damage. -/
theorem not_survives {part : KnowledgeSourceSection} (listed : Listed rows) {front : List Row} {row : Row}
    {cells : List TableCell} {later : List (Nat × List TableCell)} (inside : row ∈ rows) (fronts : ∀ other ∈ front, other ∈ rows)
    (fit : ∀ other ∈ front, Fits other.cells) (broken : ¬ Fits row.cells) (differs : cells ≠ row.cells.map Tables.expected)
    (read : (rowReader platform).readLines part.content = front.map Row.expected ++ (row.number, cells) :: later) :
    ¬ Survives platform rows part := by
  intro survives
  have kept : (row.number, cells) ∈ parsedRows platform part.content := by
    rw [parsedRows, read]
    refine mem_keepFirst List.not_mem_nil fun other member same => ?_
    obtain ⟨earlier, before, rfl⟩ := List.mem_map.mp member
    have equal := number_injective listed.increasing earlier (fronts earlier before) row inside same
    exact broken (equal ▸ fit earlier before)
  obtain ⟨found, among, _, same⟩ := (survives.2 _).mp kept
  obtain ⟨number, shown⟩ := Prod.mk.inj same
  rw [number_injective listed.increasing row inside found among number] at differs
  exact differs shown

/-- What is read from a section of rows that fit. -/
theorem readLines_fit {content : List Char} (spells : Spells platform label) (listed : Listed rows) {piece : List Row}
    (inside : ∀ row ∈ piece, row ∈ rows)
    (read : (rowReader platform).readLines content =
      (rowReader platform).readLines (rowLines columnName (headerRows rows) ++ runText label piece))
    (fit : ∀ row ∈ rows, Fits row.cells) :
    (rowReader platform).readLines content = (headerRows rows ++ piece).map Row.expected := by
  have header := headerRows_subset rows
  rw [read, readLines_rows (spells_columnName platform) (fun row member => listed.written row (header row member))
    fun row member => fit row (header row member), readLines_runText follows_rowReader,
    readLines_rows spells (fun row member => listed.written row (inside row member)) fun row member => fit row (inside row member),
    LineReader.readLines_nil, List.append_nil, List.map_append]

theorem fits_survives {part : KnowledgeSourceSection} (spells : Spells platform label) (listed : Listed rows)
    {front piece back : List Row} (split : rows = front ++ piece ++ back) (filled : piece ≠ [])
    (first : part.rowStart = (runOf label piece).rowStart) (last : part.rowEnd = (runOf label piece).rowEnd)
    (read : (rowReader platform).readLines part.content =
      (rowReader platform).readLines (rowLines columnName (headerRows rows) ++ runText label piece))
    (fit : ∀ row ∈ rows, Fits row.cells) : Survives platform rows part := by
  have header := headerRows_subset rows
  have inside : ∀ row ∈ piece, row ∈ rows := fun row member => by simp [split, member]
  have all := readLines_fit spells listed inside read fit
  have among : ∀ row ∈ headerRows rows ++ piece, row ∈ rows := fun row member =>
    (List.mem_append.mp member).elim (header row) (inside row)
  have agree : ∀ one ∈ (headerRows rows ++ piece).map Row.expected, ∀ two ∈ (headerRows rows ++ piece).map Row.expected,
      one.1 = two.1 → one = two := by
    intro one left two right same
    obtain ⟨row, memberRow, rfl⟩ := List.mem_map.mp left
    obtain ⟨other, memberOther, rfl⟩ := List.mem_map.mp right
    rw [number_injective listed.increasing row (among row memberRow) other (among other memberOther) same]
  refine ⟨(nodup_keepFirst _ _).1, fun found => ?_⟩
  rw [parsedRows, all, mem_keepFirst_iff agree, first, last]
  constructor
  · intro member
    obtain ⟨row, listedRow, rfl⟩ := List.mem_map.mp member
    refine ⟨row, among row listedRow, ?_, rfl⟩
    exact (List.mem_append.mp listedRow).imp id fun own => ((mem_part split filled listed.increasing row).mp own).2
  · rintro ⟨row, memberRow, held, rfl⟩
    refine List.mem_map.mpr ⟨row, List.mem_append.mpr (held.imp id fun range => ?_), rfl⟩
    exact (mem_part split filled listed.increasing row).mpr ⟨memberRow, range⟩

theorem unfit_lost {part : KnowledgeSourceSection} (spells : Spells platform label) (listed : Listed rows) {piece : List Row}
    (inside : ∀ row ∈ piece, row ∈ rows)
    (read : (rowReader platform).readLines part.content =
      (rowReader platform).readLines (rowLines columnName (headerRows rows) ++ runText label piece))
    {row : Row} (own : row ∈ piece) (broken : ¬ Fits row.cells) : ¬ Survives platform rows part := by
  have header := headerRows_subset rows
  have written : ∀ row ∈ headerRows rows, row.Written := fun row member => listed.written row (header row member)
  by_cases fit : ∀ row ∈ headerRows rows, Fits row.cells
  · obtain ⟨front, lost, cells, later, listedRow, fronts, fine, bad, differs, found⟩ :=
      readLines_unfit spells (fun row member => listed.written row (inside row member)) own broken []
    have whole : (rowReader platform).readLines part.content =
        (headerRows rows ++ front).map Row.expected ++ (lost.number, cells) :: later := by
      rw [read, readLines_rows (spells_columnName platform) written fit, readLines_runText follows_rowReader, found, List.map_append,
        List.append_assoc]
    refine not_survives listed (inside lost listedRow) (fun other member => ?_) (fun other member => ?_) bad differs whole
    · exact (List.mem_append.mp member).elim (header other) fun early => inside other (fronts other early)
    · exact (List.mem_append.mp member).elim (fit other) (fine other)
  · obtain ⟨unfit, among, bad⟩ : ∃ unfit ∈ headerRows rows, ¬ Fits unfit.cells := by simpa using fit
    obtain ⟨front, lost, cells, later, listedRow, fronts, fine, bad, differs, found⟩ :=
      readLines_unfit (spells_columnName platform) written among bad (runText label piece)
    exact not_survives listed (header lost listedRow) (fun other early => header other (fronts other early)) fine bad differs
      (read.trans found)

def tableSection (title sourceRef : List Char) (headerContext : List (List Char)) (run : Run) (sortOrder : Nat) :
    KnowledgeSourceSection where
  content := tableContent title headerContext run
  sourceRef := sourceRef ++ ":rows:".toList ++ rowRange run
  sortOrder := sortOrder
  rowStart := run.rowStart
  rowEnd := run.rowEnd

/-- The sections of the runs of a table. -/
def tableSections (title sourceRef : List Char) (label : Nat → List Char) (sortOrder : Nat) (rows : List Row) :
    List KnowledgeSourceSection :=
  ((runs label rows).zipIdx (sortOrder + 1)).map fun (run, order) =>
    tableSection title sourceRef (headerContextRows rows) run order

theorem mem_tableSections {title sourceRef : List Char} {sortOrder : Nat} {part : KnowledgeSourceSection} :
    part ∈ tableSections title sourceRef label sortOrder rows ↔ ∃ run order,
      (run, order) ∈ (runs label rows).zipIdx (sortOrder + 1) ∧
        tableSection title sourceRef (headerContextRows rows) run order = part := by
  simp only [tableSections, List.mem_map, Prod.exists]

/-- What is read from the section of a piece of the rows. -/
theorem readLines_tableSection {β : Type} {reader : LineReader β} (follows : Follows platform reader)
    (label : Nat → List Char) (rows : List Row) {c : Char} {title : List Char} (shown : isSpace c = false)
    (untold : Untold platform (c :: title)) (sourceRef : List Char) (order : Nat) (piece : List Row) :
    reader.readLines
        (tableSection (c :: title) sourceRef (headerContextRows rows) (runOf label piece) order).content =
      reader.readLines (rowLines columnName (headerRows rows) ++ runText label piece) := by
  rw [tableSection, headerContextRows, readLines_tableContent follows label shown untold]

/-- Every section is that of a piece of the rows. -/
theorem section_piece {c : Char} {title : List Char} (shown : isSpace c = false) (untold : Untold platform (c :: title))
    {sourceRef : List Char} {sortOrder : Nat} {part : KnowledgeSourceSection}
    (member : part ∈ tableSections (c :: title) sourceRef label sortOrder rows) : ∃ front piece back : List Row,
      rows = front ++ piece ++ back ∧ piece ≠ [] ∧ part.rowStart = (runOf label piece).rowStart ∧
      part.rowEnd = (runOf label piece).rowEnd ∧ ∀ (β : Type) (reader : LineReader β), Follows platform reader →
        reader.readLines part.content = reader.readLines (rowLines columnName (headerRows rows) ++ runText label piece) := by
  obtain ⟨parts, cut, whole, filled⟩ := runs_parts label rows
  obtain ⟨run, order, numbered, rfl⟩ := mem_tableSections.mp member
  have among := List.fst_mem_of_mem_zipIdx numbered
  rw [cut] at among
  obtain ⟨piece, held, rfl⟩ := List.mem_map.mp among
  obtain ⟨front, back, split⟩ := List.append_of_mem held
  rw [split, List.flatten_append, List.flatten_cons, ← List.append_assoc] at whole
  exact ⟨_, piece, _, whole.symm, filled piece held, rfl, rfl, fun β reader follows =>
    readLines_tableSection follows label rows shown untold sourceRef order piece⟩

/-- A table survives, in all its sections, exactly when the cells of each of its rows can be told apart. -/
theorem table_survives {c : Char} {title : List Char} (shown : isSpace c = false) (untold : Untold platform (c :: title))
    (spells : Spells platform label) (listed : Listed rows) (sourceRef : List Char) (sortOrder : Nat) :
    (∀ part ∈ tableSections (c :: title) sourceRef label sortOrder rows, Survives platform rows part) ↔
      ∀ row ∈ rows, Fits row.cells := by
  obtain ⟨parts, cut, whole, _⟩ := runs_parts label rows
  constructor
  · intro survive row member
    by_contra broken
    rw [← whole] at member
    obtain ⟨piece, among, own⟩ := List.mem_flatten.mp member
    have inside : ∀ other ∈ piece, other ∈ rows := fun other held => by
      rw [← whole]
      exact List.mem_flatten.mpr ⟨piece, among, held⟩
    have run : runOf label piece ∈ runs label rows := by
      rw [cut]
      exact List.mem_map_of_mem among
    obtain ⟨position, found⟩ := List.mem_iff_getElem?.mp run
    have numbered : (runOf label piece, sortOrder + 1 + position) ∈ (runs label rows).zipIdx (sortOrder + 1) :=
      List.mk_add_mem_zipIdx_iff_getElem?.mpr found
    have read := readLines_tableSection follows_rowReader label rows shown untold sourceRef (sortOrder + 1 + position) piece
    exact unfit_lost spells listed inside read own broken (survive _ (mem_tableSections.mpr ⟨_, _, numbered, rfl⟩))
  · intro fit part member
    obtain ⟨front, piece, back, split, filled, first, last, reads⟩ := section_piece shown untold member
    exact fits_survives spells listed split filled first last (reads _ _ follows_rowReader) fit

end Survival

section Files

/-- A delimited file as it is stored, with the cells of its lines. -/
structure DelimitedFile where
  fileId : List Char
  filename : List Char
  cells : List (List (List Char))
  named : ∀ c ∈ filename, c.isAlphanum = true ∨ c ∈ ['.', '_', '-']

def DelimitedFile.values (file : DelimitedFile) : List (List (List Char)) :=
  file.cells.map fun row => row.map fun cell => (stripChars cell).take maxCellChars

def DelimitedFile.rows (file : DelimitedFile) : List Row := nonemptyRows file.values

/-- `_extract_delimited_sections` -/
def extractDelimitedSections (file : DelimitedFile) : List KnowledgeSourceSection :=
  tableSections ("Table: ".toList ++ file.filename ++ ['\n']) file.fileId columnName 0 file.rows

/-- What a cell of a sheet holds: a date or a whole number, which are written without white space, or anything else, by
the text that it is turned into. -/
inductive CellValue where
  | plain (text : {text : List Char // text ≠ [] ∧ ∀ c ∈ text, isSpace c = false})
  | other (text : List Char)
  deriving DecidableEq

/-- `_cell_text` -/
def CellValue.text : Option CellValue → List Char
  | none => []
  | some (.plain text) => text
  | some (.other text) => (collapseFrom false (stripChars text)).take maxCellChars

structure MergedRange where
  minRow : Nat
  minCol : Nat
  maxRow : Nat
  maxCol : Nat
  deriving DecidableEq

/-- A sheet by its cells; its title is one that a workbook can have. -/
structure Sheet where
  title : List Char
  maxRow : Nat
  maxColumn : Nat
  cell : Nat → Nat → Option CellValue
  merged : List MergedRange
  titled : ∀ c ∈ ['\\', '*', '?', ':', '/', '[', ']'], c ∉ title

def Sheet.name (sheet : Sheet) : List Char :=
  if (stripChars sheet.title).isEmpty then "Sheet".toList else stripChars sheet.title

/-- `_merged_cell_values`: the last merged range over a cell that has a value. -/
def Sheet.mergedValue (sheet : Sheet) (row column : Nat) : Option CellValue :=
  (sheet.merged.filterMap fun range =>
    if range.minRow ≤ row ∧ row ≤ range.maxRow ∧ range.minCol ≤ column ∧ column ≤ range.maxCol then
      sheet.cell range.minRow range.minCol
    else none).getLast?

/-- `_cell_value` -/
def Sheet.cellValue (sheet : Sheet) (row column : Nat) : Option CellValue :=
  (sheet.cell row column).or (sheet.mergedValue row column)

def Sheet.values (sheet : Sheet) : List (List (List Char)) :=
  (List.range' 1 (min sheet.maxRow maxRowsPerSheet)).map fun row =>
    (List.range' 1 (min sheet.maxColumn maxColsPerSheet)).map fun column => CellValue.text (sheet.cellValue row column)

def Sheet.rows (sheet : Sheet) : List Row := nonemptyRows sheet.values

structure Workbook where
  fileId : List Char
  filename : List Char
  sheets : List Sheet
  named : ∀ c ∈ filename, c.isAlphanum = true ∨ c ∈ ['.', '_', '-']

/-- `get_column_letter`, which spells the columns as the reader does. -/
structure ColumnLetters where
  letter : Nat → List Char
  letter_label : ∀ index, 0 < index → letter index = columnLabel index

variable (letters : ColumnLetters)

def sheetSections (book : Workbook) (sortOrder : Nat) (sheet : Sheet) : List KnowledgeSourceSection :=
  tableSections ("Workbook: ".toList ++ book.filename ++ "\nSheet: ".toList ++ sheet.name ++ ['\n'])
    (book.fileId ++ ':' :: sheet.name) letters.letter sortOrder sheet.rows

/-- The sections of each sheet, numbered on through the workbook. -/
def sectionsFrom (book : Workbook) : Nat → List Sheet → List (List KnowledgeSourceSection)
  | _, [] => []
  | sortOrder, sheet :: rest =>
    let own := sheetSections letters book sortOrder sheet
    own :: sectionsFrom book (sortOrder + own.length) rest

/-- `_extract_xlsx_sections` -/
def extractXlsxSections (book : Workbook) : List KnowledgeSourceSection := (sectionsFrom letters book 0 book.sheets).flatten

end Files

section FileSurvival

variable {platform : Platform}

theorem stripChars_begins (text : List Char) : stripChars text = [] ∨ ∃ c rest, stripChars text = c :: rest ∧ isSpace c = false := by
  cases begins : stripChars text with
  | nil => exact Or.inl rfl
  | cons c rest =>
    refine Or.inr ⟨c, rest, rfl, ?_⟩
    by_contra space
    have whole := dropWhile_stripChars text
    rw [begins, List.dropWhile_cons_of_pos (by simpa using space)] at whole
    have shorter := congrArg List.length whole
    have most := (List.dropWhile_suffix (l := rest) isSpace).length_le
    simp only [List.length_cons] at shorter
    omega

theorem trimmed_take {text : List Char} (trimmed : text = [] ∨ ∃ c rest, text = c :: rest ∧ isSpace c = false) :
    text.take maxCellChars = [] ∨ ∃ c rest, text.take maxCellChars = c :: rest ∧ isSpace c = false := by
  rcases trimmed with rfl | ⟨c, rest, rfl, shown⟩
  · exact Or.inl rfl
  · exact Or.inr ⟨c, rest.take 499, rfl, shown⟩

theorem trimmed_delimited (file : DelimitedFile) : ∀ values ∈ file.values, Trimmed values := by
  intro values member value inside
  obtain ⟨row, _, rfl⟩ := List.mem_map.mp member
  obtain ⟨cell, _, rfl⟩ := List.mem_map.mp inside
  exact trimmed_take (stripChars_begins cell)

theorem trimmed_text (value : Option CellValue) :
    CellValue.text value = [] ∨ ∃ c rest, CellValue.text value = c :: rest ∧ isSpace c = false := by
  rcases value with _ | text | text
  · exact Or.inl rfl
  · obtain ⟨c, rest, begins⟩ := List.exists_cons_of_ne_nil text.2.1
    exact Or.inr ⟨c, rest, begins, text.2.2 c (by rw [begins]; exact List.mem_cons_self)⟩
  · refine trimmed_take ?_
    rcases stripChars_begins text with empty | ⟨c, rest, begins, shown⟩
    · exact Or.inl (by rw [empty]; rfl)
    · exact Or.inr ⟨c, collapseFrom false rest, by rw [begins, collapseFrom]; simp [shown], shown⟩

theorem trimmed_sheet (sheet : Sheet) : ∀ values ∈ sheet.values, Trimmed values := by
  intro values member value inside
  obtain ⟨row, _, rfl⟩ := List.mem_map.mp member
  obtain ⟨column, _, rfl⟩ := List.mem_map.mp inside
  exact trimmed_text _

theorem listed_nonemptyRows {grid : List (List (List Char))} (trimmed : ∀ values ∈ grid, Trimmed values) :
    Listed (nonemptyRows grid) := ⟨written_nonemptyRows trimmed, nonemptyRows_increasing grid⟩

theorem free_filename {filename : List Char} (named : ∀ c ∈ filename, c.isAlphanum = true ∨ c ∈ ['.', '_', '-']) :
    ':' ∉ filename := by
  intro member
  exact absurd (named ':' member) (by decide)

theorem free_name (sheet : Sheet) : ':' ∉ sheet.name := by
  have free : ':' ∉ stripChars sheet.title := fun member => sheet.titled ':' (by decide)
    ((List.dropWhile_suffix isSpace).subset ((List.rdropWhile_prefix isSpace _).subset member))
  rw [Sheet.name]
  split
  · decide
  · exact free

/-- Two spellings of the columns give the same lines. -/
theorem rowLine_congr {label other : Nat → List Char} (same : ∀ index, 0 < index → label index = other index) (row : Row) :
    rowLine label row = rowLine other row := by
  have cells : row.cells.map (cellText label) = row.cells.map (cellText other) := by
    refine List.map_congr_left fun cell member => ?_
    obtain ⟨⟨value, index⟩, inside, taken⟩ := List.mem_filterMap.mp member
    by_cases blank : value.isEmpty = true
    · simp [blank] at taken
    · obtain rfl : (index, value) = cell := by simpa [blank] using taken
      rw [cellText, cellText, same index (List.le_snd_of_mem_zipIdx inside)]
  rw [rowLine, rowLine, rowText, rowText, cells]

theorem runs_congr {label other : Nat → List Char} (same : ∀ row, rowLine label row = rowLine other row) (rows : List Row) :
    runs label rows = runs other rows := by
  have from_ (run : Run) (rest : List Row) : runsFrom label run rest = runsFrom other run rest := by
    induction rest generalizing run with
    | nil => rfl
    | cons row rest ih => rw [runsFrom, runsFrom, same row, ih, ih]
  cases rows with
  | nil => rfl
  | cons first rest => exact from_ _ _

theorem untold_delimited (platform : Platform) (file : DelimitedFile) :
    Untold platform ("Table: ".toList ++ file.filename ++ ['\n']) :=
  untold_line (silent_other (by decide) (by decide) _) (by decide) (free_filename file.named)

theorem untold_sheet (platform : Platform) (book : Workbook) (sheet : Sheet) :
    Untold platform ("Workbook: ".toList ++ book.filename ++ "\nSheet: ".toList ++ sheet.name ++ ['\n']) := by
  have above : Untold platform ("Workbook: ".toList ++ book.filename ++ ['\n']) :=
    untold_line (silent_other (by decide) (by decide) _) (by decide) (free_filename book.named)
  have below : Untold platform ("Sheet: ".toList ++ sheet.name ++ ['\n']) :=
    untold_line (silent_other (by decide) (by decide) _) (by decide) (free_name sheet)
  have joined := above.append below
  rwa [List.append_assoc, ← List.append_assoc ['\n'], ← List.append_assoc ['\n'], ← List.append_assoc, ← List.append_assoc] at joined

/-- The sections of a delimited file survive exactly when each of its rows can be told apart. -/
theorem delimited_survives (platform : Platform) (file : DelimitedFile) :
    (∀ part ∈ extractDelimitedSections file, Survives platform file.rows part) ↔ ∀ row ∈ file.rows, Fits row.cells :=
  table_survives (by decide) (untold_delimited platform file) (spells_columnName platform)
    (listed_nonemptyRows (trimmed_delimited file)) _ _

theorem sheetSections_label (letters : ColumnLetters) (book : Workbook) (sortOrder : Nat) (sheet : Sheet) :
    sheetSections letters book sortOrder sheet =
      tableSections ("Workbook: ".toList ++ book.filename ++ "\nSheet: ".toList ++ sheet.name ++ ['\n'])
        (book.fileId ++ ':' :: sheet.name) columnLabel sortOrder sheet.rows := by
  have same : runs letters.letter sheet.rows = runs columnLabel sheet.rows := runs_congr (rowLine_congr letters.letter_label) _
  rw [sheetSections, tableSections, same]
  rfl

theorem sheet_survives (platform : Platform) (letters : ColumnLetters) (book : Workbook) (sortOrder : Nat) (sheet : Sheet) :
    (∀ part ∈ sheetSections letters book sortOrder sheet, Survives platform sheet.rows part) ↔
      ∀ row ∈ sheet.rows, Fits row.cells := by
  rw [sheetSections_label]
  exact table_survives (by decide) (untold_sheet platform book sheet) (spells_columnLabel platform)
    (listed_nonemptyRows (trimmed_sheet sheet)) _ _

/-- Tables survive their text form, in every section of a delimited file and of each sheet of a workbook, exactly when no
cell of their rows has a line break or the separator in its text. -/
theorem tables_survive_iff (platform : Platform) (letters : ColumnLetters) :
    (∀ file : DelimitedFile, (∀ part ∈ extractDelimitedSections file, Survives platform file.rows part) ↔
      ∀ row ∈ file.rows, Fits row.cells) ∧
    ∀ book : Workbook, (∀ sheet parts, (sheet, parts) ∈ book.sheets.zip (sectionsFrom letters book 0 book.sheets) →
        ∀ part ∈ parts, Survives platform sheet.rows part) ↔
      ∀ sheet ∈ book.sheets, ∀ row ∈ sheet.rows, Fits row.cells := by
  refine ⟨delimited_survives platform, fun book => ?_⟩
  suffices general : ∀ (sortOrder : Nat) (sheets : List Sheet), (∀ sheet parts, (sheet, parts) ∈ sheets.zip (sectionsFrom letters book sortOrder sheets) →
      ∀ part ∈ parts, Survives platform sheet.rows part) ↔ ∀ sheet ∈ sheets, ∀ row ∈ sheet.rows, Fits row.cells from
    general 0 book.sheets
  intro sortOrder sheets
  induction sheets generalizing sortOrder with
  | nil => exact ⟨fun _ => nofun, fun _ => nofun⟩
  | cons sheet rest ih =>
    rw [sectionsFrom, List.forall_mem_cons, ← sheet_survives platform letters book sortOrder sheet, ← ih]
    simp only [List.zip_cons_cons, List.mem_cons]
    constructor
    · intro all
      exact ⟨all sheet _ (Or.inl rfl), fun other parts member => all other parts (Or.inr member)⟩
    · rintro ⟨own, others⟩ other parts (same | member)
      · obtain ⟨rfl, rfl⟩ := Prod.mk.inj same
        exact own
      · exact others other parts member

/-- The platform on ASCII. -/
def asciiPlatform : Platform where
  digit c := if c.isDigit then some (c.toNat - 48) else none
  digit_ascii c digit := if_pos digit
  digit_colon := by decide
  int text := if text.all Char.isDigit then some (Nat.ofDigitChars 10 text 0) else none
  int_ascii number := by
    rw [if_pos (List.all_eq_true.mpr fun c member => isDigit_of_mem_toDigits member),
      Nat.ofDigitChars_toDigits (by decide) (by decide)]
  upper text := text.map Char.toUpper
  upper_letters text upper := by
    have same : ∀ c ∈ text, c.toUpper = id c := fun c member => Characters.toUpper_of_isUpper (upper c member)
    rw [List.map_congr_left same, List.map_id]

/-- A price list whose second row has a cell with the separator. -/
def separatedFile : DelimitedFile where
  fileId := "f1".toList
  filename := "prices.csv".toList
  cells := [["service".toList, "price".toList], ["cut | col_2=5".toList, "30".toList]]
  named := by decide

theorem separated_row_forged : (2, [⟨['A'], 1, "cut".toList⟩, ⟨['B'], 2, "5".toList⟩, ⟨['B'], 2, "30".toList⟩]) ∈
      (extractDelimitedSections separatedFile).flatMap (fun part => parsedRows asciiPlatform part.content) ∧
    ¬ ∀ part ∈ extractDelimitedSections separatedFile, Survives asciiPlatform separatedFile.rows part := by
  refine ⟨by decide +kernel, ?_⟩
  rw [delimited_survives]
  decide +kernel

end FileSurvival

end OpenTulpa.Knowledge.Extraction
