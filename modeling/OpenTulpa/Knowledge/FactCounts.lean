import Mathlib.Algebra.Ring.Nat
import Mathlib.Data.List.Nodup
import Mathlib.Data.List.Pairwise
import OpenTulpa.Knowledge.TableFacts

/-! How often the rows of a table are counted. Every section repeats the rows of the header context, and the facts of a
section are those of all rows that are read from it. -/

namespace OpenTulpa.Knowledge.FactCounts

open Library Library.Text Library.Spaces Library.Splitting Tables TableSections Extraction TableFacts

section Returning

variable (chars : Characters)

/-- The lines whose number cannot be turned into an integer. -/
def longReader : LineReader Unit where
  read line := if numberFits chars line then none else some ()
  blank := rfl
  trailing line c space := by
    have same : numberFits chars (line ++ [c]) = numberFits chars line := by
      have parsed : parseRowLine chars.platform (line ++ [c]) = parseRowLine chars.platform line :=
        (rowReader chars.platform).trailing line c space
      have stripped : stripChars (line ++ [c]) = stripChars line := stripChars_append_space line (by simpa using space)
      rw [numberFits, numberFits, parsed, stripped]
    rw [same]

theorem follows_longReader : Follows chars.platform (longReader chars) := by
  intro line other
  have fits : numberFits chars line = true := by
    rw [numberFits]
    split
    · simp [other]
    · rfl
  exact if_pos fits

theorem readLines_longReader (content : List Char) :
    (longReader chars).readLines content = [] ↔ (splitlines content).all (numberFits chars) = true := by
  rw [LineReader.readLines, LineReader.readFrom, List.filterMap_eq_nil_iff, List.all_eq_true]
  simp [longReader, splitlines]

variable {chars} {label : Nat → List Char} (spells : Spells chars.platform label)

include spells

theorem read_row {row : Row} (written : row.Written) (short : (Nat.toDigits 10 row.number).length ≤ maxStrDigits) :
    (longReader chars).read (rowPrefix row.number ++ rstrip (rowText label row.cells)) = none := by
  obtain ⟨c, rest, begins, shown, _⟩ := rowText_begins spells written.1 written.2
  obtain ⟨tail, starts⟩ := rstrip_cons shown rest
  have blank : isSpace ' ' = true := by decide
  have fits : numberFits chars (rowPrefix row.number ++ rstrip (rowText label row.cells)) = true := by
    rw [begins, starts, numberFits, stripChars_row row.number rfl shown]
    simp only [List.dropWhile_cons_of_pos blank, dropWhile_digits, takeWhile_digits, decide_eq_true short, Bool.or_true]
  exact if_pos fits

theorem readLines_short {rows : List Row} (written : ∀ row ∈ rows, row.Written) (fits : ∀ row ∈ rows, Fits row.cells)
    (short : ∀ row ∈ rows, (Nat.toDigits 10 row.number).length ≤ maxStrDigits) (rest : List Char) :
    (longReader chars).readLines (rowLines label rows ++ rest) = (longReader chars).readLines rest := by
  induction rows with
  | nil => rfl
  | cons row rows ih =>
    have shape : rowLines label (row :: rows) ++ rest = rowLine label row ++ '\n' :: (rowLines label rows ++ rest) := by
      simp [rowLines]
    have later := ih (fun other member => written other (List.mem_cons_of_mem _ member))
      (fun other member => fits other (List.mem_cons_of_mem _ member))
      fun other member => short other (List.mem_cons_of_mem _ member)
    rw [shape, readLines_fitting spells _ (written row List.mem_cons_self) (fits row List.mem_cons_self),
      read_row spells (written row List.mem_cons_self) (short row List.mem_cons_self), later]
    rfl

end Returning

section Shown

variable {platform : Platform} {label : Nat → List Char} {rows : List Row}

/-- The rows that a section shows: those of the header context, and the others in its range. -/
def shownRows (rows : List Row) (part : KnowledgeSourceSection) : List Row :=
  headerRows rows ++ rows.filter fun row =>
    row ∉ headerRows rows && part.rowStart ≤ row.number && row.number ≤ part.rowEnd

theorem keepFirst_distinct {β : Type} {seen : List Nat} {rows : List (Nat × β)} (distinct : (rows.map Prod.fst).Nodup) :
    keepFirst seen rows = rows.filter fun row => row.1 ∉ seen := by
  induction rows generalizing seen with
  | nil => rfl
  | cons row rows ih =>
    obtain ⟨first, rest⟩ := List.nodup_cons.mp distinct
    rw [keepFirst, List.filter_cons]
    by_cases known : row.1 ∈ seen
    · rw [if_pos known, ih rest]
      simp [known]
    · have same : (rows.filter fun other => other.1 ∉ row.1 :: seen) = rows.filter fun other => other.1 ∉ seen := by
        refine List.filter_congr fun other member => ?_
        have apart : other.1 ≠ row.1 := fun equal => first (List.mem_map.mpr ⟨other, member, equal⟩)
        simp [apart]
      rw [if_neg known, ih rest, same]
      simp [known]

theorem keepFirst_append {β : Type} {seen : List Nat} {first second : List (Nat × β)} (distinct : (first.map Prod.fst).Nodup)
    (fresh : ∀ row ∈ first, row.1 ∉ seen) :
    keepFirst seen (first ++ second) = first ++ keepFirst ((first.map Prod.fst).reverse ++ seen) second := by
  induction first generalizing seen with
  | nil => rfl
  | cons row first ih =>
    obtain ⟨alone, rest⟩ := List.nodup_cons.mp distinct
    have later : ∀ other ∈ first, other.1 ∉ row.1 :: seen := by
      intro other member known
      rcases List.mem_cons.mp known with same | before
      · exact alone (List.mem_map.mpr ⟨other, member, same⟩)
      · exact fresh other (List.mem_cons_of_mem _ member) before
    rw [List.cons_append, keepFirst, if_neg (fresh row List.mem_cons_self), ih rest later]
    simp

theorem headerRows_sublist (rows : List Row) : (headerRows rows).Sublist rows := by
  refine List.filter_sublist.trans ((List.take_sublist _ _).trans ?_)
  split
  · exact List.take_sublist _ _
  · exact List.filter_sublist.trans (List.take_sublist _ _)

theorem numbers_nodup {rows : List Row} (increasing : rows.Pairwise fun first second => first.number < second.number) :
    (rows.map Row.number).Nodup := by
  rw [List.Nodup, List.pairwise_map]
  exact increasing.imp fun less => less.ne

theorem expected_numbers (rows : List Row) : (rows.map Row.expected).map Prod.fst = rows.map Row.number := by
  rw [List.map_map]
  rfl

/-- The rows of a piece are those in its range. -/
theorem filter_piece {front piece back : List Row} {part : KnowledgeSourceSection} (split : rows = front ++ piece ++ back)
    (filled : piece ≠ []) (increasing : rows.Pairwise fun first second => first.number < second.number)
    (first : part.rowStart = (runOf label piece).rowStart) (last : part.rowEnd = (runOf label piece).rowEnd) :
    rows.filter (fun row => decide (part.rowStart ≤ row.number) && decide (row.number ≤ part.rowEnd)) = piece := by
  have ranged (row : Row) (member : row ∈ rows) :
      (decide (part.rowStart ≤ row.number) && decide (row.number ≤ part.rowEnd)) = true ↔ row ∈ piece := by
    have held : row ∈ piece ↔ row ∈ rows ∧ (runOf label piece).rowStart ≤ row.number ∧ row.number ≤ (runOf label piece).rowEnd :=
      mem_part split filled increasing row
    rw [held, ← first, ← last]
    simp [member]
  have distinct : rows.Nodup := List.Nodup.of_map Row.number (numbers_nodup increasing)
  rw [split] at distinct
  obtain ⟨ahead, _, behind⟩ := List.nodup_append.mp distinct
  obtain ⟨_, _, before⟩ := List.nodup_append.mp ahead
  rw [split, List.filter_append, List.filter_append]
  have noFront : front.filter (fun row => decide (part.rowStart ≤ row.number) && decide (row.number ≤ part.rowEnd)) = [] := by
    refine List.filter_eq_nil_iff.mpr fun row member inside => ?_
    exact before row member row ((ranged row (by simp [split, member])).mp inside) rfl
  have noBack : back.filter (fun row => decide (part.rowStart ≤ row.number) && decide (row.number ≤ part.rowEnd)) = [] := by
    refine List.filter_eq_nil_iff.mpr fun row member inside => ?_
    exact behind row (List.mem_append_right _ ((ranged row (by simp [split, member])).mp inside)) row member rfl
  have whole : piece.filter (fun row => decide (part.rowStart ≤ row.number) && decide (row.number ≤ part.rowEnd)) = piece :=
    List.filter_eq_self.mpr fun row member => (ranged row (by simp [split, member])).mpr member
  rw [noFront, noBack, whole, List.nil_append, List.append_nil]

/-- What is read from a section of rows that fit is the rows it shows, each once. -/
theorem parsedRows_shown {c : Char} {title : List Char} (shown : isSpace c = false) (untold : Untold platform (c :: title))
    (spells : Spells platform label) (listed : Listed rows) (fit : ∀ row ∈ rows, Fits row.cells) {sourceRef : List Char}
    {sortOrder : Nat} {part : KnowledgeSourceSection} (member : part ∈ tableSections (c :: title) sourceRef label sortOrder rows) :
    parsedRows platform part.content = (shownRows rows part).map Row.expected := by
  obtain ⟨front, piece, back, split, filled, first, last, reads⟩ := section_piece shown untold member
  have inside : ∀ row ∈ piece, row ∈ rows := fun row member => by simp [split, member]
  have all := readLines_fit spells listed inside (reads _ _ follows_rowReader) fit
  have header := numbers_nodup (listed.increasing.sublist (headerRows_sublist rows))
  have own : (piece.map Row.number).Nodup := by
    refine numbers_nodup (listed.increasing.sublist ?_)
    rw [split]
    exact (List.sublist_append_right front piece).trans (List.sublist_append_left _ back)
  have headerNumbers : ((headerRows rows).map Row.expected).map Prod.fst = (headerRows rows).map Row.number := expected_numbers _
  have ownNumbers : (piece.map Row.expected).map Prod.fst = piece.map Row.number := expected_numbers _
  rw [parsedRows, all, List.map_append, keepFirst_append (by rw [headerNumbers]; exact header) fun _ _ => List.not_mem_nil,
    keepFirst_distinct (by rw [ownNumbers]; exact own), shownRows, List.map_append, headerNumbers, List.append_nil]
  congr 1
  have ranged := filter_piece split filled listed.increasing first last
  have regroup : (rows.filter fun row => row ∉ headerRows rows && part.rowStart ≤ row.number && row.number ≤ part.rowEnd) =
      (rows.filter fun row => decide (part.rowStart ≤ row.number) && decide (row.number ≤ part.rowEnd)).filter
        fun row => row ∉ headerRows rows := by
    rw [List.filter_filter]
    simp only [Bool.and_assoc]
  rw [regroup, ranged, List.filter_map]
  congr 1
  refine List.filter_congr fun row held => ?_
  have known : row.number ∈ (headerRows rows).map Row.number ↔ row ∈ headerRows rows := by
    refine ⟨fun among => ?_, fun among => List.mem_map_of_mem among⟩
    obtain ⟨other, listedOther, same⟩ := List.mem_map.mp among
    have equal := number_injective listed.increasing other (headerRows_subset rows other listedOther) row (inside row held) same
    exact equal ▸ listedOther
  refine decide_eq_decide.mpr (not_congr ?_)
  rw [List.mem_reverse]
  exact known

end Shown

section Rows

variable (chars : Characters) {row : Row}

def shownCells (row : Row) : List TableCell := row.cells.map Tables.expected

theorem labelCell_mem {cells : List TableCell} {label : TableCell} (found : labelCell chars cells = some label) : label ∈ cells := by
  rw [labelCell, Option.or_eq_some_iff] at found
  rcases found with first | ⟨_, head⟩
  · exact List.mem_of_find?_eq_some first
  · exact List.mem_of_head? head

theorem labelCell_filled {cells : List TableCell} (filled : cells ≠ []) : ∃ label, labelCell chars cells = some label := by
  obtain ⟨cell, rest, rfl⟩ := List.exists_cons_of_ne_nil filled
  rw [labelCell]
  cases (cell :: rest).find? fun cell => valueKind chars cell.value == .text with
  | none => exact ⟨cell, rfl⟩
  | some label => exact ⟨label, rfl⟩

/-- The cells of a row have something to show, each in a column of its own. -/
theorem shown_filled (written : row.Written) : ∀ cell ∈ shownCells row, visible cell.value ≠ [] := by
  intro cell member
  obtain ⟨stored, listed, rfl⟩ := List.mem_map.mp member
  obtain ⟨_, c, rest, begins, shown⟩ := written.1 stored listed
  rw [Tables.expected, visible_cleanText, begins]
  simp [visible, shown]

theorem columnLabel_injective {first second : Nat} (same : columnLabel first = columnLabel second) : first = second := by
  have value (index : Nat) : (columnLabel index).foldl letterStep 0 = index := by
    rw [columnLabel, foldl_columnLabelFrom (Nat.le_refl index)]
  have equal := congrArg (List.foldl letterStep 0) same
  rw [value, value] at equal
  exact_mod_cast equal

theorem cells_increasing (row : Row) : row.cells.Pairwise fun first second => first.1 < second.1 := by
  have numbered : (row.values.zipIdx 1).Pairwise fun first second => first.2 < second.2 := by
    rw [← List.pairwise_map, List.zipIdx_map_snd]
    exact List.pairwise_lt_range'
  refine List.Pairwise.filterMap _ (fun first second before cell taken other takenOther => ?_) numbered
  obtain ⟨_, rfl⟩ : _ ∧ (first.2, first.1) = cell := by simpa using taken
  obtain ⟨_, rfl⟩ : _ ∧ (second.2, second.1) = other := by simpa using takenOther
  exact before

theorem shown_columns (row : Row) : ((shownCells row).map TableCell.column).Nodup := by
  rw [shownCells, List.map_map, List.Nodup, List.pairwise_map]
  exact (cells_increasing row).imp fun less same => less.ne (columnLabel_injective same)

theorem shown_eq {first second : TableCell} (left : first ∈ shownCells row) (right : second ∈ shownCells row)
    (same : first.columnIndex = second.columnIndex) : first = second := by
  have labels (cell : TableCell) (member : cell ∈ shownCells row) : cell.column = columnLabel cell.columnIndex := by
    obtain ⟨stored, _, rfl⟩ := List.mem_map.mp member
    rfl
  refine List.inj_on_of_nodup_map (shown_columns row) left right ?_
  rw [labels first left, labels second right, same]

variable (source : SourceSection) (headers : Nat → Option (List Char))

/-- The facts of a row that is read as it is: one for each cell but the label. -/
theorem rowFacts_eq (written : row.Written) : ∃ label, labelCell chars (shownCells row) = some label ∧
    label ∈ shownCells row ∧ rowFacts chars source headers row.expected =
      ((shownCells row).filter (· ≠ label)).map (cellFact chars source headers row.number label) := by
  have some_ : shownCells row ≠ [] := by simpa [shownCells] using written.2
  obtain ⟨label, found⟩ := labelCell_filled chars some_
  have member := labelCell_mem chars found
  have filled : (primaryLabel (cleanText label.value)).isEmpty = false := by
    have seen : cleanText (cleanText label.value) ≠ [] := by
      intro none
      have gone := congrArg visible none
      rw [visible_cleanText, visible_cleanText] at gone
      exact shown_filled written label member gone
    rw [primaryLabel]
    split
    · simpa using seen
    · simp_all
  have others : (shownCells row).filter (fun cell => !isLabel label cell && !cell.value.isEmpty) =
      (shownCells row).filter (· ≠ label) := by
    refine List.filter_congr fun cell inside => ?_
    have seen : cell.value.isEmpty = false := by
      rw [List.isEmpty_eq_false_iff]
      exact fun none => shown_filled written cell inside (by rw [none]; rfl)
    rw [seen, Bool.not_false, Bool.and_true, isLabel, Bool.not_and]
    rw [← decide_not, ← decide_not, ← Bool.decide_or]
    refine decide_eq_decide.mpr ⟨?_, fun differs => Or.inl fun same => differs (shown_eq inside member same)⟩
    rintro differs rfl
    exact differs.elim (fun apart => apart rfl) fun apart => apart rfl
  refine ⟨label, found, member, ?_⟩
  have expected : labelCell chars row.expected.2 = some label := found
  rw [← others, rowFacts, expected]
  simp only [filled, Bool.false_eq_true, if_false]
  rfl

theorem mem_rowFacts (written : row.Written) {fact : TableFact} : fact ∈ rowFacts chars source headers row.expected ↔
    ∃ label ∈ labelCell chars (shownCells row), ∃ cell ∈ shownCells row, cell ≠ label ∧
      cellFact chars source headers row.number label cell = fact := by
  obtain ⟨label, found, _, facts⟩ := rowFacts_eq chars source headers written
  rw [facts, List.mem_map]
  constructor
  · rintro ⟨cell, kept, rfl⟩
    obtain ⟨inside, differs⟩ := List.mem_filter.mp kept
    exact ⟨label, found, cell, inside, of_decide_eq_true differs, rfl⟩
  · rintro ⟨other, same, cell, inside, differs, rfl⟩
    obtain rfl : label = other := Option.some.inj (found.symm.trans same)
    exact ⟨cell, List.mem_filter.mpr ⟨inside, decide_eq_true differs⟩, rfl⟩

/-- A row gives a fact exactly when it has a cell besides its label. -/
theorem rowFacts_some (written : row.Written) :
    (∃ fact, fact ∈ rowFacts chars source headers row.expected) ↔ 2 ≤ row.cells.length := by
  have length : (shownCells row).length = row.cells.length := List.length_map _
  obtain ⟨label, _, member, facts⟩ := rowFacts_eq chars source headers written
  have distinct : (shownCells row).Nodup := List.Nodup.of_map TableCell.column (shown_columns row)
  rw [facts, ← length]
  constructor
  · rintro ⟨fact, listed⟩
    obtain ⟨cell, kept, rfl⟩ := List.mem_map.mp listed
    obtain ⟨inside, differs⟩ := List.mem_filter.mp kept
    by_contra few
    obtain ⟨only, alone⟩ : ∃ only, shownCells row = [only] :=
      List.length_eq_one_iff.mp (by have some_ := List.length_pos_of_mem member; omega)
    rw [alone, List.mem_singleton] at inside member
    exact of_decide_eq_true differs (inside.trans member.symm)
  · intro several
    obtain ⟨first, second, rest, split⟩ : ∃ first second rest, shownCells row = first :: second :: rest := by
      match shownCells row, several with
      | first :: second :: rest, _ => exact ⟨first, second, rest, rfl⟩
    rw [split] at distinct ⊢
    have apart : first ≠ second := fun same => (List.nodup_cons.mp distinct).1 (by simp [same])
    by_cases same : first = label
    · exact ⟨_, List.mem_map_of_mem (List.mem_filter.mpr ⟨by simp, decide_eq_true (same ▸ apart.symm)⟩)⟩
    · exact ⟨_, List.mem_map_of_mem (List.mem_filter.mpr ⟨List.mem_cons_self, decide_eq_true same⟩)⟩

theorem rowFacts_columns (written : row.Written) :
    ((rowFacts chars source headers row.expected).map TableFact.column).Nodup := by
  obtain ⟨label, _, _, facts⟩ := rowFacts_eq chars source headers written
  have columns : TableFact.column ∘ cellFact chars source headers row.number label = TableCell.column := rfl
  rw [facts, List.map_map, columns]
  exact (shown_columns row).sublist (List.filter_sublist.map _)

theorem rowFacts_row (written : row.Written) {fact : TableFact} (member : fact ∈ rowFacts chars source headers row.expected) :
    fact.row = row.number ∧ fact.sourceRef = source.part.sourceRef := by
  obtain ⟨label, _, cell, _, _, rfl⟩ := (mem_rowFacts chars source headers written).mp member
  exact ⟨rfl, rfl⟩

theorem rowFacts_key (written : row.Written) {first second : TableFact}
    (left : first ∈ rowFacts chars source headers row.expected) (right : second ∈ rowFacts chars source headers row.expected) :
    evidenceKey first = evidenceKey second := by
  obtain ⟨label, found, cell, _, _, rfl⟩ := (mem_rowFacts chars source headers written).mp left
  obtain ⟨other, again, another, _, _, rfl⟩ := (mem_rowFacts chars source headers written).mp right
  obtain rfl : label = other := Option.some.inj (found.symm.trans again)
  rfl

end Rows

section Counting

variable {chars : Characters} {label : Nat → List Char} {rows : List Row}

/-- A cell of a row that is neither a header nor the label, as the section it is in reads it. -/
def DataCell (chars : Characters) (part : KnowledgeSourceSection) (row : Row) (cell : TableCell) : Prop :=
  row.number ∉ detectHeaderRowNumbers chars (parsedRows chars.platform part.content) ∧ cell ∈ shownCells row ∧
    ∀ label ∈ labelCell chars (shownCells row), cell ≠ label

def InRange (part : KnowledgeSourceSection) (number : Nat) : Prop := part.rowStart ≤ number ∧ number ≤ part.rowEnd

/-- Every row is counted in one section: the ranges divide the rows, and over all sections each data cell gives one fact,
in the section that its row belongs to, and each row at most one row of evidence. -/
structure Counted (chars : Characters) (rows : List Row) (sources : List SourceSection) (facts : List TableFact) : Prop where
  ranges : ∃ pieces : List (List Row), pieces.flatten = rows ∧ (∀ piece ∈ pieces, piece ≠ []) ∧
    sources.map (fun source => (source.part.rowStart, source.part.rowEnd)) =
      pieces.map fun piece => ((piece.head?.map Row.number).getD 0, (piece.getLast?.map Row.number).getD 0)
  returned : tableFactsFromSections chars sources = some facts
  distinct : (facts.map fun fact => (fact.row, fact.column)).Nodup
  evidence : ((rowsFromFacts chars facts).map TableRowEvidence.row).Nodup
  sections : ∀ source ∈ sources, ∃ own, tableFactsFromSection chars source = some own ∧
    (∀ fact ∈ own, fact ∈ facts ∧ fact.sourceRef = source.part.sourceRef ∧ InRange source.part fact.row) ∧
    ∀ row ∈ rows, InRange source.part row.number → ∀ cell, DataCell chars source.part row cell →
      ∃ fact ∈ own, fact.row = row.number ∧ fact.column = cell.column ∧ fact.value = cell.value

instance (part : KnowledgeSourceSection) (number : Nat) : Decidable (InRange part number) :=
  inferInstanceAs (Decidable (part.rowStart ≤ number ∧ number ≤ part.rowEnd))

/-- The rows that a section repeats from the head of its table are headers there, or have nothing but a label. -/
def ContextQuiet (chars : Characters) (rows : List Row) (part : KnowledgeSourceSection) : Prop :=
  ∀ row ∈ headerRows rows, ¬ InRange part row.number →
    row.number ∈ detectHeaderRowNumbers chars ((shownRows rows part).map Row.expected) ∨ row.cells.length ≤ 1

instance (chars : Characters) (rows : List Row) (part : KnowledgeSourceSection) : Decidable (ContextQuiet chars rows part) :=
  inferInstanceAs (Decidable (∀ row ∈ headerRows rows, ¬ InRange part row.number →
    row.number ∈ detectHeaderRowNumbers chars ((shownRows rows part).map Row.expected) ∨ row.cells.length ≤ 1))

/-- A section whose rows are read as they are. -/
structure Read (chars : Characters) (rows : List Row) (part : KnowledgeSourceSection) : Prop where
  parsed : parsedRows chars.platform part.content = (shownRows rows part).map Row.expected
  short : (splitlines part.content).all (numberFits chars) = true

theorem mem_shownRows {part : KnowledgeSourceSection} {row : Row} :
    row ∈ shownRows rows part ↔ row ∈ headerRows rows ∨ row ∈ rows ∧ InRange part row.number := by
  rw [shownRows, List.mem_append, List.mem_filter]
  by_cases header : row ∈ headerRows rows
  · simp [header]
  · simp [header, InRange]

theorem mem_factsOfRows {source : SourceSection} {shown : List Row} {fact : TableFact} :
    fact ∈ factsOfRows chars source (shown.map Row.expected) ↔ ∃ row ∈ shown,
      row.number ∉ detectHeaderRowNumbers chars (shown.map Row.expected) ∧
      fact ∈ rowFacts chars source (headersByColumn chars (((shown.map Row.expected).filter fun row =>
        (detectHeaderRowNumbers chars (shown.map Row.expected)).contains row.1).map Prod.snd)) row.expected := by
  rw [factsOfRows, List.mem_flatMap]
  constructor
  · rintro ⟨_, kept, member⟩
    obtain ⟨inside, other⟩ := List.mem_filter.mp kept
    obtain ⟨row, listed, rfl⟩ := List.mem_map.mp inside
    exact ⟨row, listed, by simpa [Row.expected] using other, member⟩
  · rintro ⟨row, listed, other, member⟩
    exact ⟨row.expected, List.mem_filter.mpr ⟨List.mem_map_of_mem listed, by simpa [Row.expected] using other⟩, member⟩

theorem facts_inRange_iff (source : SourceSection) (listed : Listed rows) (read : Read chars rows source.part) :
    (∀ fact ∈ factsOfRows chars source (parsedRows chars.platform source.part.content), InRange source.part fact.row) ↔
      ContextQuiet chars rows source.part := by
  rw [read.parsed]
  constructor
  · intro ranged row context outside
    by_contra loud
    obtain ⟨detected, several⟩ := not_or.mp loud
    have written := listed.written row (headerRows_subset rows row context)
    obtain ⟨fact, member⟩ := (rowFacts_some chars source _ written).mpr (by omega)
    have inside := ranged fact (mem_factsOfRows.mpr ⟨row, mem_shownRows.mpr (Or.inl context), detected, member⟩)
    rw [(rowFacts_row chars source _ written member).1] at inside
    exact outside inside
  · intro quiet fact member
    obtain ⟨row, shown, detected, made⟩ := mem_factsOfRows.mp member
    rcases mem_shownRows.mp shown with context | own
    · have written := listed.written row (headerRows_subset rows row context)
      rw [(rowFacts_row chars source _ written made).1]
      by_contra outside
      have several := (rowFacts_some chars source _ written).mp ⟨fact, made⟩
      exact (quiet row context outside).elim detected fun few => by omega
    · rw [(rowFacts_row chars source _ (listed.written row own.1) made).1]
      exact own.2

theorem facts_data (source : SourceSection) (listed : Listed rows) (read : Read chars rows source.part) {row : Row} (member : row ∈ rows)
    (ranged : InRange source.part row.number) {cell : TableCell} (data : DataCell chars source.part row cell) :
    ∃ fact ∈ factsOfRows chars source (parsedRows chars.platform source.part.content),
      fact.row = row.number ∧ fact.column = cell.column ∧ fact.value = cell.value := by
  obtain ⟨detected, inside, differs⟩ := data
  have written := listed.written row member
  obtain ⟨label, found, _, _⟩ := rowFacts_eq chars source (fun _ => none) written
  rw [read.parsed] at detected ⊢
  refine ⟨_, mem_factsOfRows.mpr ⟨row, mem_shownRows.mpr (Or.inr ⟨member, ranged⟩), detected,
    (mem_rowFacts chars source _ written).mpr ⟨label, found, cell, inside, differs label found, rfl⟩⟩, rfl, rfl, rfl⟩

theorem shownRows_nodup (part : KnowledgeSourceSection) (listed : Listed rows) : ((shownRows rows part).map Row.number).Nodup := by
  have sub (kept : List Row) (sublist : kept.Sublist rows) : kept.Nodup :=
    List.Nodup.of_map Row.number (numbers_nodup (listed.increasing.sublist sublist))
  have distinct : (shownRows rows part).Nodup := by
    rw [shownRows, List.nodup_append]
    refine ⟨sub _ (headerRows_sublist rows), sub _ List.filter_sublist, fun row context other own same => ?_⟩
    have apart := (List.mem_filter.mp own).2
    simp [← same, context] at apart
  have among : ∀ row ∈ shownRows rows part, row ∈ rows := fun row member =>
    (mem_shownRows.mp member).elim (headerRows_subset rows row) And.left
  refine distinct.map_on fun row member other held same => ?_
  exact number_injective listed.increasing row (among row member) other (among other held) same

/-- The facts of one section are of different cells. -/
theorem facts_distinct (source : SourceSection) (listed : Listed rows) (read : Read chars rows source.part) :
    ((factsOfRows chars source (parsedRows chars.platform source.part.content)).map fun fact => (fact.row, fact.column)).Nodup := by
  have among : ∀ row ∈ shownRows rows source.part, row.Written := fun row member =>
    listed.written row ((mem_shownRows.mp member).elim (headerRows_subset rows row) And.left)
  have numbers : ((shownRows rows source.part).map Row.expected).Pairwise fun first second => first.1 ≠ second.1 := by
    have distinct := shownRows_nodup source.part listed
    rwa [← expected_numbers, List.Nodup, List.pairwise_map] at distinct
  rw [read.parsed, factsOfRows, List.map_flatMap, List.nodup_flatMap]
  constructor
  · intro parsed kept
    obtain ⟨row, shown, rfl⟩ := List.mem_map.mp (List.mem_of_mem_filter kept)
    refine List.Nodup.of_map Prod.snd ?_
    rw [List.map_map]
    exact rowFacts_columns chars source _ (among row shown)
  · refine (numbers.sublist List.filter_sublist).imp_of_mem fun {parsed other} member held differs => ?_
    obtain ⟨row, shown, rfl⟩ := List.mem_map.mp (List.mem_of_mem_filter member)
    obtain ⟨another, listedAnother, rfl⟩ := List.mem_map.mp (List.mem_of_mem_filter held)
    intro key left right
    obtain ⟨fact, made, rfl⟩ := List.mem_map.mp left
    obtain ⟨second, makes, same⟩ := List.mem_map.mp right
    have first := (rowFacts_row chars source _ (among row shown) made).1
    have last := (rowFacts_row chars source _ (among another listedAnother) makes).1
    exact differs (first.symm.trans ((congrArg Prod.fst same).symm.trans last))

theorem tableFacts_returned (rows : List Row) (sources : List SourceSection)
    (reads : ∀ source ∈ sources, source.structured = true ∧ Read chars rows source.part) :
    tableFactsFromSections chars sources = some (sources.flatMap fun source =>
      factsOfRows chars source (parsedRows chars.platform source.part.content)) := by
  induction sources with
  | nil => rfl
  | cons source sources ih =>
    obtain ⟨structured, read⟩ := reads source List.mem_cons_self
    rw [tableFactsFromSections, if_pos structured, tableFactsFromSection, if_pos read.short,
      ih fun other member => reads other (List.mem_cons_of_mem _ member)]
    rfl

/-- Two facts of one section that are of one row have the key of its evidence in common. -/
theorem facts_key (source : SourceSection) (listed : Listed rows) (read : Read chars rows source.part) {first second : TableFact}
    (left : first ∈ factsOfRows chars source (parsedRows chars.platform source.part.content))
    (right : second ∈ factsOfRows chars source (parsedRows chars.platform source.part.content))
    (same : first.row = second.row) : evidenceKey first = evidenceKey second := by
  rw [read.parsed] at left right
  obtain ⟨row, shown, _, made⟩ := mem_factsOfRows.mp left
  obtain ⟨other, held, _, makes⟩ := mem_factsOfRows.mp right
  have among (row : Row) (member : row ∈ shownRows rows source.part) : row ∈ rows :=
    (mem_shownRows.mp member).elim (headerRows_subset rows row) And.left
  have written := listed.written row (among row shown)
  have number := (rowFacts_row chars source _ written made).1
  have another := (rowFacts_row chars source _ (listed.written other (among other held)) makes).1
  obtain rfl : row = other := number_injective listed.increasing row (among row shown) other (among other held)
    (number.symm.trans (same.trans another))
  exact rowFacts_key chars source _ written made makes

def sourcesOf (metadata : SectionMetadata) (parts : List KnowledgeSourceSection) : List SourceSection :=
  parts.map fun part => ⟨true, part, metadata⟩

/-- Parts of a table whose ranges divide its rows in order. -/
structure Divides (rows : List Row) (parts : List KnowledgeSourceSection) : Prop where
  ordered : parts.Pairwise fun first second => first.rowEnd < second.rowStart
  pieces : ∃ pieces : List (List Row), pieces.flatten = rows ∧ (∀ piece ∈ pieces, piece ≠ []) ∧
    parts.map (fun part => (part.rowStart, part.rowEnd)) =
      pieces.map fun piece => ((piece.head?.map Row.number).getD 0, (piece.getLast?.map Row.number).getD 0)

theorem Divides.apart {parts : List KnowledgeSourceSection} (divides : Divides rows parts) {first second : KnowledgeSourceSection}
    (left : first ∈ parts) (right : second ∈ parts) {number : Nat} (low : InRange first number) (high : InRange second number) :
    first = second := by
  by_contra differ
  have disjoint : parts.Pairwise fun first second => ∀ number, InRange first number → ¬ InRange second number :=
    divides.ordered.imp fun before number within other => absurd (other.1.trans within.2) (Nat.not_le.mpr before)
  have symmetric : Std.Symm fun first second : KnowledgeSourceSection =>
      ∀ number, InRange first number → ¬ InRange second number := ⟨fun _ _ none number high low => none number low high⟩
  exact disjoint.forall left right differ number low high

variable {parts : List KnowledgeSourceSection} (metadata : SectionMetadata)

theorem returned_section {part : KnowledgeSourceSection} (read : Read chars rows part) :
    tableFactsFromSection chars ⟨true, part, metadata⟩ =
      some (factsOfRows chars ⟨true, part, metadata⟩ (parsedRows chars.platform part.content)) := if_pos read.short

theorem quiet_of_counted (listed : Listed rows) (reads : ∀ part ∈ parts, Read chars rows part) {facts : List TableFact}
    (counted : Counted chars rows (sourcesOf metadata parts) facts) : ∀ part ∈ parts, ContextQuiet chars rows part := by
  intro part member
  obtain ⟨own, made, ranged, _⟩ := counted.sections ⟨true, part, metadata⟩ (List.mem_map_of_mem member)
  obtain rfl : factsOfRows chars ⟨true, part, metadata⟩ (parsedRows chars.platform part.content) = own :=
    Option.some.inj ((returned_section metadata (reads part member)).symm.trans made)
  exact (facts_inRange_iff ⟨true, part, metadata⟩ listed (reads part member)).mp fun fact held => (ranged fact held).2.2

theorem counted_of_quiet (listed : Listed rows) (reads : ∀ part ∈ parts, Read chars rows part) (divides : Divides rows parts)
    (quiet : ∀ part ∈ parts, ContextQuiet chars rows part) : ∃ facts, Counted chars rows (sourcesOf metadata parts) facts := by
  have ranged (part : KnowledgeSourceSection) (member : part ∈ parts) :
      ∀ fact ∈ factsOfRows chars ⟨true, part, metadata⟩ (parsedRows chars.platform part.content), InRange part fact.row :=
    (facts_inRange_iff ⟨true, part, metadata⟩ listed (reads part member)).mpr (quiet part member)
  have all : ∀ source ∈ sourcesOf metadata parts, source.structured = true ∧ Read chars rows source.part := by
    intro source member
    obtain ⟨part, held, rfl⟩ := List.mem_map.mp member
    exact ⟨rfl, reads part held⟩
  refine ⟨_, ?_, tableFacts_returned rows _ all, ?_, ?_, ?_⟩
  · simpa [sourcesOf, Function.comp_def] using divides.pieces
  · rw [sourcesOf, List.flatMap_map, List.map_flatMap, List.nodup_flatMap]
    refine ⟨fun part member => facts_distinct ⟨true, part, metadata⟩ listed (reads part member), ?_⟩
    refine divides.ordered.imp_of_mem fun {first second} member held before => ?_
    intro key left right
    obtain ⟨fact, made, rfl⟩ := List.mem_map.mp left
    obtain ⟨another, makes, same⟩ := List.mem_map.mp right
    have low := ranged first member fact made
    have high := ranged second held another makes
    have equal : another.row = fact.row := congrArg Prod.fst same
    rw [equal] at high
    exact absurd (high.1.trans low.2) (Nat.not_le.mpr before)
  · refine rowsFromFacts_nodup chars fun first left second right same => ?_
    obtain ⟨source, member, made⟩ := List.mem_flatMap.mp left
    obtain ⟨other, held, makes⟩ := List.mem_flatMap.mp right
    obtain ⟨part, inside, rfl⟩ := List.mem_map.mp member
    obtain ⟨another, among, rfl⟩ := List.mem_map.mp held
    have low := ranged part inside first made
    have high := ranged another among second makes
    rw [← same] at high
    obtain rfl := divides.apart inside among low high
    exact facts_key ⟨true, part, metadata⟩ listed (reads part inside) made makes same
  · intro source member
    obtain ⟨part, held, rfl⟩ := List.mem_map.mp member
    refine ⟨_, returned_section metadata (reads part held), fun fact made => ⟨?_, ?_, ranged part held fact made⟩, ?_⟩
    · exact List.mem_flatMap.mpr ⟨_, member, made⟩
    · have parsed := (reads part held).parsed
      rw [parsed] at made
      obtain ⟨row, shown, _, found⟩ := mem_factsOfRows.mp made
      have written := listed.written row ((mem_shownRows.mp shown).elim (headerRows_subset rows row) And.left)
      exact (rowFacts_row chars _ _ written found).2
    · intro row inside range cell data
      exact facts_data ⟨true, part, metadata⟩ listed (reads part held) inside range data

end Counting

section Tables

variable {chars : Characters} {label : Nat → List Char} {rows : List Row} {c : Char} {title sourceRef : List Char} {sortOrder : Nat}

/-- The sections of a table divide its rows. -/
theorem tableSections_divides (listed : Listed rows) :
    Divides rows (tableSections title sourceRef label sortOrder rows) := by
  obtain ⟨pieces, cut, whole, filled⟩ := runs_parts label rows
  have ranges : (tableSections title sourceRef label sortOrder rows).map (fun part => (part.rowStart, part.rowEnd)) =
      pieces.map fun piece => ((piece.head?.map Row.number).getD 0, (piece.getLast?.map Row.number).getD 0) := by
    have each : (fun part : KnowledgeSourceSection => (part.rowStart, part.rowEnd)) ∘
        (fun run : Run × Nat => tableSection title sourceRef (headerContextRows rows) run.1 run.2) =
          (fun run : Run => (run.rowStart, run.rowEnd)) ∘ Prod.fst := rfl
    rw [tableSections, List.map_map, each, ← List.map_map, List.zipIdx_map_fst, cut, List.map_map]
    rfl
  refine ⟨?_, pieces, whole, filled, ranges⟩
  have before : pieces.Pairwise fun first second => ∀ a ∈ first, ∀ b ∈ second, a.number < b.number := by
    have increasing := listed.increasing
    rw [← whole, List.pairwise_flatten] at increasing
    exact increasing.2
  have ordered : ((tableSections title sourceRef label sortOrder rows).map fun part => (part.rowStart, part.rowEnd)).Pairwise
      fun first second => first.2 < second.1 := by
    rw [ranges, List.pairwise_map]
    refine before.imp_of_mem fun {first second} left right less => ?_
    obtain ⟨head, rest, begins⟩ := List.exists_cons_of_ne_nil (filled second right)
    have start : (second.head?.map Row.number).getD 0 = head.number := by rw [begins]; rfl
    have stop : (first.getLast?.map Row.number).getD 0 = (first.getLast (filled first left)).number := by
      rw [List.getLast?_eq_getLast_of_ne_nil (filled first left)]
      rfl
    rw [start, stop]
    exact less _ (List.getLast_mem _) head (by rw [begins]; exact List.mem_cons_self)
  exact List.pairwise_map.mp ordered

/-- The sections of a table whose rows fit and whose numbers are not too long are read as they are. -/
theorem tableSections_read (shown : isSpace c = false) (untold : Untold chars.platform (c :: title))
    (spells : Spells chars.platform label) (listed : Listed rows) (fit : ∀ row ∈ rows, Fits row.cells)
    (short : ∀ row ∈ rows, (Nat.toDigits 10 row.number).length ≤ maxStrDigits) :
    ∀ part ∈ tableSections (c :: title) sourceRef label sortOrder rows, Read chars rows part := by
  intro part member
  refine ⟨parsedRows_shown shown untold spells listed fit member, ?_⟩
  obtain ⟨front, piece, back, split, _, _, _, reads⟩ := section_piece shown untold member
  have inside : ∀ row ∈ piece, row ∈ rows := fun row member => by simp [split, member]
  have follows := follows_longReader chars
  rw [← readLines_longReader, reads _ _ follows, readLines_short (spells_columnName chars.platform)
    (fun row member => listed.written row (headerRows_subset rows row member))
    (fun row member => fit row (headerRows_subset rows row member))
    (fun row member => short row (headerRows_subset rows row member)), readLines_runText follows,
    readLines_short spells (fun row member => listed.written row (inside row member))
    (fun row member => fit row (inside row member)) fun row member => short row (inside row member)]
  rfl

/-- A table whose rows can be told apart is counted once exactly when the rows that its sections repeat are quiet. -/
theorem table_counted (shown : isSpace c = false) (untold : Untold chars.platform (c :: title))
    (spells : Spells chars.platform label) (listed : Listed rows) (fit : ∀ row ∈ rows, Fits row.cells)
    (short : ∀ row ∈ rows, (Nat.toDigits 10 row.number).length ≤ maxStrDigits) (metadata : SectionMetadata) :
    (∃ facts, Counted chars rows (sourcesOf metadata (tableSections (c :: title) sourceRef label sortOrder rows)) facts) ↔
      ∀ part ∈ tableSections (c :: title) sourceRef label sortOrder rows, ContextQuiet chars rows part := by
  have reads : ∀ part ∈ tableSections (c :: title) sourceRef label sortOrder rows, Read chars rows part :=
    tableSections_read shown untold spells listed fit short
  constructor
  · rintro ⟨facts, counted⟩
    exact quiet_of_counted metadata listed reads counted
  · exact counted_of_quiet metadata listed reads (tableSections_divides listed)

end Tables

section Files

variable (chars : Characters) (letters : ColumnLetters)

def DelimitedFile.sources (file : DelimitedFile) : List SourceSection :=
  sourcesOf ⟨file.filename, file.filename, [], []⟩ (extractDelimitedSections file)

/-- The sections of each sheet, with the sheet. -/
def Workbook.tables (book : Workbook) : List (Sheet × List KnowledgeSourceSection) :=
  book.sheets.zip (sectionsFrom letters book 0 book.sheets)

def sheetSources (book : Workbook) (sheet : Sheet) (parts : List KnowledgeSourceSection) : List SourceSection :=
  sourcesOf ⟨book.filename, sheet.name, sheet.name, []⟩ parts

def Workbook.sources (book : Workbook) : List SourceSection :=
  (Workbook.tables letters book).flatMap fun table => sheetSources book table.1 table.2

/-- The facts of a workbook are those of its sheets, and each sheet's rows are counted once. -/
def BookCounted (book : Workbook) : Prop :=
  ∃ facts : List (List TableFact), tableFactsFromSections chars (Workbook.sources letters book) = some facts.flatten ∧
    List.Forall₂ (fun table own => Counted chars table.1.rows (sheetSources book table.1 table.2) own)
      (Workbook.tables letters book) facts

theorem tableFacts_append (front back : List SourceSection) : tableFactsFromSections chars (front ++ back) =
    (tableFactsFromSections chars front).bind fun facts => (tableFactsFromSections chars back).map (facts ++ ·) := by
  induction front with
  | nil => simp [tableFactsFromSections]
  | cons source front ih =>
    rw [List.cons_append, tableFactsFromSections, tableFactsFromSections]
    split
    · rw [ih]
      cases tableFactsFromSection chars source <;> cases tableFactsFromSections chars front <;>
        cases tableFactsFromSections chars back <;> simp
    · exact ih

theorem number_le {grid : List (List (List Char))} {row : Row} (member : row ∈ nonemptyRows grid) : row.number ≤ grid.length := by
  obtain ⟨⟨values, number⟩, inside, taken⟩ := List.mem_filterMap.mp member
  obtain ⟨_, rfl⟩ : _ ∧ Row.mk number values = row := by simpa using taken
  have below := List.snd_lt_of_mem_zipIdx inside
  show number ≤ grid.length
  omega

theorem short_numbers {grid : List (List (List Char))} (few : grid.length < 10 ^ maxStrDigits) :
    ∀ row ∈ nonemptyRows grid, (Nat.toDigits 10 row.number).length ≤ maxStrDigits := by
  intro row member
  rw [Nat.length_toDigits_le_iff (by decide) (by decide)]
  exact (number_le member).trans_lt few

theorem delimited_counted (file : DelimitedFile) (fit : ∀ row ∈ file.rows, Fits row.cells)
    (few : file.cells.length < 10 ^ maxStrDigits) :
    (∃ facts, Counted chars file.rows (DelimitedFile.sources file) facts) ↔
      ∀ part ∈ extractDelimitedSections file, ContextQuiet chars file.rows part := by
  have counted : file.values.length < 10 ^ maxStrDigits := by rwa [DelimitedFile.values, List.length_map]
  exact table_counted (by decide) (untold_delimited chars.platform file) (spells_columnName chars.platform)
    (listed_nonemptyRows (trimmed_delimited file)) fit (short_numbers counted) _

theorem sheet_counted (book : Workbook) (sortOrder : Nat) (sheet : Sheet) (fit : ∀ row ∈ sheet.rows, Fits row.cells) :
    (∃ facts, Counted chars sheet.rows (sheetSources book sheet (sheetSections letters book sortOrder sheet)) facts) ↔
      ∀ part ∈ sheetSections letters book sortOrder sheet, ContextQuiet chars sheet.rows part := by
  have counted : sheet.values.length < 10 ^ maxStrDigits := by
    have most : sheet.values.length ≤ 20000 := by
      rw [Sheet.values, List.length_map, List.length_range']
      exact Nat.min_le_right _ _
    exact most.trans_lt (by decide +kernel)
  rw [sheetSections_label]
  exact table_counted (by decide) (untold_sheet chars.platform book sheet) (spells_columnLabel chars.platform)
    (listed_nonemptyRows (trimmed_sheet sheet)) fit (short_numbers counted) _

theorem book_counted (book : Workbook) (fit : ∀ sheet ∈ book.sheets, ∀ row ∈ sheet.rows, Fits row.cells) :
    BookCounted chars letters book ↔
      ∀ table ∈ Workbook.tables letters book, ∀ part ∈ table.2, ContextQuiet chars table.1.rows part := by
  have each : ∀ table ∈ Workbook.tables letters book,
      (∃ facts, Counted chars table.1.rows (sheetSources book table.1 table.2) facts) ↔
        ∀ part ∈ table.2, ContextQuiet chars table.1.rows part := by
    suffices general : ∀ (sortOrder : Nat) (sheets : List Sheet), (∀ sheet ∈ sheets, ∀ row ∈ sheet.rows, Fits row.cells) →
        ∀ table ∈ sheets.zip (sectionsFrom letters book sortOrder sheets),
          (∃ facts, Counted chars table.1.rows (sheetSources book table.1 table.2) facts) ↔
            ∀ part ∈ table.2, ContextQuiet chars table.1.rows part from general 0 book.sheets fit
    intro sortOrder sheets fit
    induction sheets generalizing sortOrder with
    | nil => exact List.forall_mem_nil _
    | cons sheet rest ih =>
      rw [sectionsFrom, List.zip_cons_cons, List.forall_mem_cons]
      exact ⟨sheet_counted chars letters book sortOrder sheet (fit sheet List.mem_cons_self),
        ih _ fun other member => fit other (List.mem_cons_of_mem _ member)⟩
  constructor
  · rintro ⟨facts, returned, counted⟩
    clear returned
    generalize Workbook.tables letters book = tables at each counted
    induction counted with
    | nil => exact List.forall_mem_nil _
    | cons own _ ih =>
      obtain ⟨first, others⟩ := List.forall_mem_cons.mp each
      exact List.forall_mem_cons.mpr ⟨first.mp ⟨_, own⟩, ih others⟩
  · intro quiet
    rw [BookCounted, Workbook.sources]
    generalize Workbook.tables letters book = tables at each quiet
    induction tables with
    | nil => exact ⟨[], rfl, List.Forall₂.nil⟩
    | cons table tables ih =>
      obtain ⟨own, counted⟩ := (each table List.mem_cons_self).mpr (quiet table List.mem_cons_self)
      obtain ⟨facts, returned, others⟩ := ih (fun other member => each other (List.mem_cons_of_mem _ member))
        fun other member => quiet other (List.mem_cons_of_mem _ member)
      refine ⟨own :: facts, ?_, List.Forall₂.cons counted others⟩
      rw [List.flatMap_cons, tableFacts_append, counted.returned, returned]
      rfl

/-- Where every row can be told apart, the rows of a file are counted once exactly when each row that a section repeats
from the head of its table is a header there too, or has nothing but a label. -/
theorem rows_counted_once :
    (∀ file : DelimitedFile, (∀ row ∈ file.rows, Fits row.cells) → file.cells.length < 10 ^ maxStrDigits →
      ((∃ facts, Counted chars file.rows (DelimitedFile.sources file) facts) ↔
        ∀ part ∈ extractDelimitedSections file, ContextQuiet chars file.rows part)) ∧
    ∀ book : Workbook, (∀ sheet ∈ book.sheets, ∀ row ∈ sheet.rows, Fits row.cells) →
      (BookCounted chars letters book ↔
        ∀ table ∈ Workbook.tables letters book, ∀ part ∈ table.2, ContextQuiet chars table.1.rows part) :=
  ⟨delimited_counted chars, book_counted chars letters⟩

end Files

section Samples

def asciiCharacters : Characters where
  platform := asciiPlatform
  isDigit := Char.isDigit
  isAlpha := Char.isAlpha
  isWord c := c.isAlphanum || c == '_'
  casefold text := text.map Char.toLower

/-- A price list of one section. -/
theorem prices_named : ∀ c ∈ "prices.csv".toList, c.isAlphanum = true ∨ c ∈ ['.', '_', '-'] := by decide

def shortFile : DelimitedFile where
  fileId := "f1".toList
  filename := "prices.csv".toList
  cells := [["service".toList, "price".toList], ["cut".toList, "30".toList]]
  named := prices_named

def lettersOfLabels : ColumnLetters := ⟨columnLabel, fun _ _ => rfl⟩

theorem short_file_counted : ∃ facts, Counted asciiCharacters shortFile.rows (DelimitedFile.sources shortFile) facts :=
  ((rows_counted_once asciiCharacters lettersOfLabels).1 shortFile (by decide +kernel) (by decide +kernel)).mpr
    (by decide +kernel)

/-- A price list whose third row is too long for the section of the first two. -/
def longFile : DelimitedFile where
  fileId := "f1".toList
  filename := "prices.csv".toList
  cells := [["service".toList, "price".toList], ["cut".toList, "30".toList], List.replicate 33 (List.replicate 500 'x')]
  named := prices_named

theorem repeated_row_counted_again :
    ¬ ∃ facts, Counted asciiCharacters longFile.rows (DelimitedFile.sources longFile) facts := by
  rw [delimited_counted asciiCharacters longFile (by decide +kernel) (by decide +kernel)]
  decide +kernel

end Samples

end OpenTulpa.Knowledge.FactCounts
