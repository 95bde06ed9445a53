import OpenTulpa.Library.Json
import OpenTulpa.Knowledge.FactCounts

/-! The selection of table rows for an answer and their text. The cells of a row are written with the group of their
header, which is looked up in a map that leaves out the columns whose headers normalize to nothing. -/

namespace OpenTulpa.Knowledge.TableEvidence

open Library Library.Text Library.Spaces Library.Splitting Library.Groups Tables TableSections TableFacts FactCounts

section Selection

variable (chars : Characters)

/-- What the arithmetic on scores and the matcher of texts give for a row, with integers that are ordered as the scores
are, and the text of a score. -/
structure Scores where
  cheapTarget : List (List Char) → TableRowEvidence → Int
  cheapTotal : List (List Char) → List (List Char) → TableRowEvidence → Int
  phrase : List (List Char) → TableRowEvidence → Int
  target : List (List Char) → TableRowEvidence → Int
  total : List (List Char) → List (List Char) → TableRowEvidence → Int
  coverage : List (List Char) → TableRowEvidence → Int
  text : Int → List Char

variable (scores : Scores)

/-- `_clean_terms` -/
def cleanTerms (values : List (List Char)) : List (List Char) := unique chars (values.map cleanText)

def safeTargets (query : List Char) (targetTerms : List (List Char)) : List (List Char) :=
  let targets := (cleanTerms chars targetTerms).filter fun term => !term.isEmpty
  if targets.isEmpty then [stripChars query] else targets

/-- Rows with their scores, the best first and then in the order of evidence. -/
def ranked (rows : List (Int × TableRowEvidence)) : List (Int × TableRowEvidence) :=
  rows.insertionSort fun first second => ((compare second.1 first.1).then (evidenceOrder chars first.2 second.2)).isLE

def atLeastOne (limit : Int) : Nat := (max 1 limit).toNat

/-- `_fallback_identity_candidates` -/
def fallbackIdentityCandidates (rows : List TableRowEvidence) (targets : List (List Char)) : List (Int × TableRowEvidence) :=
  (rows.map fun row => (scores.phrase targets row, row)).filter fun row => row.1 > 0

/-- `_candidate_rows` -/
def candidateRows (rows : List TableRowEvidence) (targets qualifiers : List (List Char)) (limit : Int) : List TableRowEvidence :=
  let prepared := (rows.filter fun row => scores.cheapTarget targets row > 0).map fun row =>
    (scores.cheapTotal targets qualifiers row, row)
  let found := if prepared.isEmpty then fallbackIdentityCandidates scores rows targets else prepared
  ((ranked chars found).take (atLeastOne limit)).map Prod.snd

def maxFuzzyCandidates : Int := 80

/-- `select_table_evidence` -/
def selectTableEvidence (facts : List TableFact) (query : List Char) (targetTerms qualifierTerms : List (List Char))
    (limit : Int) : List (Int × TableRowEvidence) :=
  let targets := safeTargets chars query targetTerms
  let qualifiers := (cleanTerms chars qualifierTerms).filter fun term => !term.isEmpty
  let candidates := candidateRows chars scores (rowsFromFacts chars facts) targets qualifiers
    (max maxFuzzyCandidates (max 1 limit * 8))
  let scored := (candidates.filter fun row => scores.target targets row > 0).map fun row =>
    (scores.total targets qualifiers row, row)
  (ranked chars scored).take (atLeastOne limit)

theorem mem_ranked {rows : List (Int × TableRowEvidence)} {row : Int × TableRowEvidence} :
    row ∈ ranked chars rows ↔ row ∈ rows := (List.mem_insertionSort _)

theorem candidateRows_subset {rows : List TableRowEvidence} {targets qualifiers : List (List Char)} {limit : Int}
    {row : TableRowEvidence} (member : row ∈ candidateRows chars scores rows targets qualifiers limit) : row ∈ rows := by
  obtain ⟨scored, taken, rfl⟩ := List.mem_map.mp member
  have inside := (mem_ranked chars).mp (List.mem_of_mem_take taken)
  split at inside
  · obtain ⟨row, listed, rfl⟩ := List.mem_map.mp (List.mem_of_mem_filter inside)
    exact listed
  · obtain ⟨row, listed, rfl⟩ := List.mem_map.mp inside
    exact List.mem_of_mem_filter listed

/-- What is selected are rows of the facts. -/
theorem selectTableEvidence_subset {facts : List TableFact} {query : List Char} {targetTerms qualifierTerms : List (List Char)}
    {limit : Int} {row : Int × TableRowEvidence}
    (member : row ∈ selectTableEvidence chars scores facts query targetTerms qualifierTerms limit) :
    row.2 ∈ rowsFromFacts chars facts := by
  have inside := (mem_ranked chars).mp (List.mem_of_mem_take member)
  obtain ⟨chosen, listed, rfl⟩ := List.mem_map.mp inside
  exact candidateRows_subset chars scores (List.mem_of_mem_filter listed)

end Selection

section Cells

variable (chars : Characters)

def headerKey (fact : TableFact) : List Char := normalizedText chars fact.header

/-- The groups so far, the last header and its group. -/
structure HeaderGroups where
  groups : List (List Char × Nat)
  lastHeader : List Char
  currentGroup : Nat
  deriving DecidableEq

def HeaderGroups.add (state : HeaderGroups) (fact : TableFact) : HeaderGroups :=
  let header := headerKey chars fact
  if header.isEmpty then state
  else
    let group := if header ≠ state.lastHeader then state.currentGroup + 1 else state.currentGroup
    ⟨(fact.column, group) :: state.groups, header, group⟩

/-- `_header_group_by_column`, the last entry of a column first. -/
def headerGroupByColumn (cells : List TableFact) : List (List Char × Nat) :=
  let sorted := cells.insertionSort fun first second =>
    columnIndex chars.platform first.column ≤ columnIndex chars.platform second.column
  (sorted.foldl (HeaderGroups.add chars) ⟨[], [], 0⟩).groups

def numeral (number : Nat) : List Char := Nat.toDigits 10 number

/-- The texts of the cells behind those of the given headers; `none` when a column is not found. -/
def cellTexts (keys : List (List Char)) (groups : List (List Char × Nat)) (showGroups : Bool) :
    List (List Char) → List TableFact → Option (List (List Char))
  | _, [] => some []
  | before, fact :: rest =>
    let key := headerKey chars fact
    let occurrence := if keys.count key > 1 then " [".toList ++ numeral (before.count key + 1) ++ [']'] else []
    let group := if showGroups then (groups.lookup fact.column).map fun group => "header_group ".toList ++ numeral group ++ [' ']
      else some []
    group.bind fun group => (cellTexts keys groups showGroups (key :: before) rest).map fun texts =>
      (fact.column ++ [' '] ++ group ++ fact.header ++ occurrence ++ " = ".toList ++ fact.value) :: texts

/-- `_row_cells_text`; `none` when it raises. -/
def rowCellsText (facts : List TableFact) : Option (List Char) :=
  let cells := facts.filter fun fact => fact.kind ≠ .blank
  let keys := cells.map (headerKey chars)
  let groups := headerGroupByColumn chars cells
  let showGroups := !groups.isEmpty && keys.any fun key => keys.count key > 1
  (cellTexts chars keys groups showGroups [] cells).map [';', ' '].intercalate

/-- Cells that can be written: if two of them have one header and some header is not empty, then each column has a header
that is not empty. -/
def Sound (facts : List TableFact) : Prop :=
  let cells := facts.filter fun fact => fact.kind ≠ .blank
  (∃ fact ∈ cells, headerKey chars fact ≠ []) → ¬ (cells.map (headerKey chars)).Nodup →
    ∀ fact ∈ cells, ∃ other ∈ cells, other.column = fact.column ∧ headerKey chars other ≠ []

theorem groups_fold (cells : List TableFact) (state : HeaderGroups) (column : List Char) :
    column ∈ ((cells.foldl (HeaderGroups.add chars) state).groups.map Prod.fst) ↔
      column ∈ state.groups.map Prod.fst ∨ ∃ fact ∈ cells, fact.column = column ∧ headerKey chars fact ≠ [] := by
  induction cells generalizing state with
  | nil => simp
  | cons fact cells ih =>
    rw [List.foldl_cons, ih, HeaderGroups.add]
    have empty : (headerKey chars fact).isEmpty = true ↔ headerKey chars fact = [] := List.isEmpty_iff
    by_cases blank : headerKey chars fact = []
    · rw [if_pos (empty.mpr blank)]
      simp [blank]
    · rw [if_neg (mt empty.mp blank), List.map_cons, List.mem_cons, List.exists_mem_cons_iff]
      constructor
      · rintro ((rfl | before) | later)
        · exact Or.inr (Or.inl ⟨rfl, blank⟩)
        · exact Or.inl before
        · exact Or.inr (Or.inr later)
      · rintro (before | ⟨rfl, _⟩ | later)
        · exact Or.inl (Or.inr before)
        · exact Or.inl (Or.inl rfl)
        · exact Or.inr later

theorem mem_headerGroupByColumn (cells : List TableFact) (column : List Char) :
    column ∈ (headerGroupByColumn chars cells).map Prod.fst ↔
      ∃ fact ∈ cells, fact.column = column ∧ headerKey chars fact ≠ [] := by
  rw [headerGroupByColumn, groups_fold]
  simp

theorem lookup_isSome {column : List Char} {groups : List (List Char × Nat)} :
    (groups.lookup column).isSome = true ↔ column ∈ groups.map Prod.fst := by
  induction groups with
  | nil => simp
  | cons entry groups ih =>
    obtain ⟨name, number⟩ := entry
    by_cases same : column = name
    · simp [same]
    · have other : (column == name) = false := by simpa using same
      simp only [List.lookup_cons, other, ih]
      simp [same]

theorem cellTexts_isSome (keys : List (List Char)) (groups : List (List Char × Nat)) (showGroups : Bool)
    (before : List (List Char)) (cells : List TableFact) : (cellTexts chars keys groups showGroups before cells).isSome = true ↔
      (showGroups = true → ∀ fact ∈ cells, fact.column ∈ groups.map Prod.fst) := by
  induction cells generalizing before with
  | nil => simp [cellTexts]
  | cons fact cells ih =>
    have later := ih (headerKey chars fact :: before)
    rw [cellTexts, List.forall_mem_cons]
    cases showGroups with
    | false =>
      simp only [Bool.false_eq_true, if_false, Option.bind_some, Option.isSome_map, false_implies] at later ⊢
      exact later
    | true =>
      rw [← lookup_isSome]
      cases groups.lookup fact.column with
      | none =>
        simp only [if_true, Option.map_none, Option.bind_none, Option.isSome_none, Bool.false_eq_true, false_and,
          true_implies]
      | some group =>
        simp only [if_true, Option.map_some, Option.bind_some, Option.isSome_map, Option.isSome_some, true_and, true_implies] at later ⊢
        exact later

/-- The text of a row is returned exactly when its cells are sound. -/
theorem rowCellsText_isSome (facts : List TableFact) : (rowCellsText chars facts).isSome = true ↔ Sound chars facts := by
  rw [rowCellsText, Option.isSome_map, cellTexts_isSome, Sound]
  have filled (cells : List TableFact) : (!(headerGroupByColumn chars cells).isEmpty) = true ↔
      ∃ fact ∈ cells, headerKey chars fact ≠ [] := by
    rw [Bool.not_eq_true', List.isEmpty_eq_false_iff]
    constructor
    · intro some_
      obtain ⟨entry, member⟩ := List.exists_mem_of_ne_nil _ some_
      obtain ⟨fact, inside, _, named⟩ := (mem_headerGroupByColumn chars cells entry.1).mp (List.mem_map_of_mem member)
      exact ⟨fact, inside, named⟩
    · rintro ⟨fact, member, named⟩
      obtain ⟨entry, inside, _⟩ := List.mem_map.mp ((mem_headerGroupByColumn chars cells fact.column).mpr ⟨fact, member, rfl, named⟩)
      exact List.ne_nil_of_mem inside
  have repeated (keys : List (List Char)) : (keys.any fun key => decide (keys.count key > 1)) = true ↔ ¬ keys.Nodup := by
    rw [List.nodup_iff_count_le_one, List.any_eq_true, not_forall]
    constructor
    · rintro ⟨key, _, twice⟩
      exact ⟨key, Nat.not_le.mpr (of_decide_eq_true twice)⟩
    · rintro ⟨key, twice⟩
      exact ⟨key, List.count_pos_iff.mp (by omega), decide_eq_true (Nat.not_le.mp twice)⟩
  simp only [Bool.and_eq_true, filled, repeated, mem_headerGroupByColumn, and_imp]

end Cells

section Rendering

variable (chars : Characters) (scores : Scores)

/-- `_toon_value` -/
def toonValue (value : List Char) : List Char :=
  let text := cleanText value
  if text.isEmpty then ['"', '"']
  else if text.any (fun c => c == ',' || c == ':' || c == '\n' || c == '"') || 1 < (runsOf (fun c => !isSpace c) [] text).length
    then '"' :: text.flatMap Json.escape ++ ['"']
  else text

def joined (mark : List Char) (texts : List (List Char)) : List Char := mark.intercalate texts

def barred (texts : List (List Char)) : List Char := joined [' ', '|', ' '] texts

/-- The lines of the ranked rows. -/
def evidenceLines : Nat → List (Int × TableRowEvidence) → Option (List (List Char))
  | _, [] => some []
  | rank, (score, row) :: rest =>
    (rowCellsText chars row.cells).bind fun cells => (evidenceLines (rank + 1) rest).map fun lines =>
      joined [','] [numeral rank, scores.text score, toonValue row.filename, toonValue row.table, numeral row.row,
        toonValue row.item, toonValue row.rowLabel, toonValue cells] :: lines

/-- `table_evidence_to_toon`; `none` when it raises. -/
def tableEvidenceToToon (rows : List (Int × TableRowEvidence)) (query : List Char) (targetTerms qualifierTerms : List (List Char)) :
    Option (List Char) :=
  (evidenceLines chars scores 1 rows).map fun lines => stripChars (joined ['\n'] ([
    "intent:".toList,
    "  query: ".toList ++ toonValue query,
    "  target_terms: ".toList ++ toonValue (barred (cleanTerms chars targetTerms)),
    "  qualifier_terms: ".toList ++ toonValue (barred (cleanTerms chars qualifierTerms)),
    [],
    "evidence_rows[rank,score,file,table,row,item,row_label,cells]:".toList] ++ lines))

/-- The rows of an overview by their tables, the tables by their first section and name. -/
def overviewTables (rows : List TableRowEvidence) (safeTerms : List (List Char)) : List (List TableRowEvidence) :=
  let kept := if safeTerms.isEmpty then rows else rows.filter fun row => scores.coverage safeTerms row > 0
  let shown := if kept.isEmpty then rows else kept
  (groups TableRowEvidence.table shown).insertionSort fun first second =>
    ((compare (first.map TableRowEvidence.sourceOrder).min? (second.map TableRowEvidence.sourceOrder).min?).then
      (compare (first.head?.map fun row => chars.casefold row.table) (second.head?.map fun row => chars.casefold row.table))).isLE

def tableName (rows : List TableRowEvidence) : List Char := (rows.head?.map TableRowEvidence.table).getD []

def tableLines (rowsPerTable : Int) : Nat → List (List TableRowEvidence) → List (List Char)
  | _, [] => []
  | rank, rows :: rest =>
    joined [','] [numeral rank, toonValue (tableName rows), numeral rows.length,
      toonValue (barred ((unique chars (rows.map TableRowEvidence.item)).take (atLeastOne rowsPerTable)))] ::
        tableLines rowsPerTable (rank + 1) rest

def sampleLines : List TableRowEvidence → Option (List (List Char))
  | [] => some []
  | row :: rest =>
    (rowCellsText chars row.cells).bind fun cells => (sampleLines rest).map fun lines =>
      joined [','] [toonValue row.table, numeral row.row, toonValue row.item, toonValue row.rowLabel, toonValue cells] :: lines

/-- `table_overview_to_toon`; `none` when it raises. -/
def tableOverviewToToon (facts : List TableFact) (query : List Char) (categoryTerms : List (List Char))
    (maxTables rowsPerTable : Int) : Option (List Char) :=
  let safeTerms := cleanTerms chars categoryTerms
  let tables := (overviewTables chars scores (rowsFromFacts chars facts) safeTerms).take (atLeastOne maxTables)
  (sampleLines chars (tables.flatMap fun rows => rows.take (atLeastOne rowsPerTable))).map fun samples =>
    stripChars (joined ['\n'] ([
      "intent:".toList,
      "  query: ".toList ++ toonValue query,
      "  category_terms: ".toList ++ toonValue (barred safeTerms),
      "  mode: overview".toList,
      [],
      "tables[rank,table,row_count,sample_items]:".toList] ++ tableLines chars rowsPerTable 1 tables ++
      [[], "sample_rows[table,row,item,row_label,cells]:".toList] ++ samples))

theorem evidenceLines_isSome (rank : Nat) (rows : List (Int × TableRowEvidence)) :
    (evidenceLines chars scores rank rows).isSome = true ↔ ∀ row ∈ rows, Sound chars row.2.cells := by
  induction rows generalizing rank with
  | nil => simp [evidenceLines]
  | cons row rows ih =>
    rw [evidenceLines, List.forall_mem_cons, ← rowCellsText_isSome, ← ih (rank + 1)]
    cases rowCellsText chars row.2.cells with
    | none => simp
    | some cells => simp

theorem sampleLines_isSome (rows : List TableRowEvidence) :
    (sampleLines chars rows).isSome = true ↔ ∀ row ∈ rows, Sound chars row.cells := by
  induction rows with
  | nil => simp [sampleLines]
  | cons row rows ih =>
    rw [sampleLines, List.forall_mem_cons, ← rowCellsText_isSome, ← ih]
    cases rowCellsText chars row.cells with
    | none => simp
    | some cells => simp

/-- The tables of an overview hold rows of the facts. -/
theorem overviewTables_subset {rows : List TableRowEvidence} {safeTerms : List (List Char)} {table : List TableRowEvidence}
    (member : table ∈ overviewTables chars scores rows safeTerms) : ∀ row ∈ table, row ∈ rows := by
  intro row inside
  obtain ⟨_, _, _, _, all⟩ := group_begins ((List.mem_insertionSort _).mp member)
  have shown := (all row inside).1
  split at shown
  · rwa [ite_self] at shown
  · split at shown
    · exact shown
    · exact List.mem_of_mem_filter shown

/-- Without category terms every row is in a table of the overview. -/
theorem overviewTables_all {rows : List TableRowEvidence} {row : TableRowEvidence} (member : row ∈ rows) :
    ∃ table ∈ overviewTables chars scores rows [], row ∈ table := by
  refine ⟨rows.filter fun other => other.table = row.table, ?_, List.mem_filter.mpr ⟨member, decide_eq_true rfl⟩⟩
  refine (List.mem_insertionSort _).mpr (mem_groups.mpr ⟨row, ?_, ?_⟩) <;> simp [member]

/-- The overview of all rows is written exactly when every row is sound. -/
theorem overview_all {facts : List TableFact} (query : List Char)
    (written : ∀ maxTables rowsPerTable, (tableOverviewToToon chars scores facts query [] maxTables rowsPerTable).isSome = true) :
    ∀ row ∈ rowsFromFacts chars facts, Sound chars row.cells := by
  intro row member
  obtain ⟨table, listed, inside⟩ := overviewTables_all chars scores member
  have terms : cleanTerms chars [] = [] := rfl
  have whole := written (overviewTables chars scores (rowsFromFacts chars facts) []).length table.length
  rw [tableOverviewToToon, Option.isSome_map, sampleLines_isSome, terms] at whole
  refine whole row (List.mem_flatMap.mpr ⟨table, ?_, ?_⟩)
  · rwa [List.take_of_length_le (by simp [atLeastOne])]
  · rwa [List.take_of_length_le (by simp [atLeastOne])]

end Rendering

section Returning

variable (chars : Characters) (scores : Scores)

/-- Everything that is done with the tables of the sections returns, for all terms and limits. -/
def EvidenceReturns (sections : List SourceSection) : Prop :=
  ∃ facts, tableFactsFromSections chars sections = some facts ∧
    (∀ query targetTerms qualifierTerms limit, (tableEvidenceToToon chars scores
      (selectTableEvidence chars scores facts query targetTerms qualifierTerms limit) query targetTerms qualifierTerms).isSome = true) ∧
    ∀ query categoryTerms maxTables rowsPerTable,
      (tableOverviewToToon chars scores facts query categoryTerms maxTables rowsPerTable).isSome = true

/-- The facts that the rows of all structured sections give. -/
def allFacts (sections : List SourceSection) : List TableFact :=
  (sections.filter SourceSection.structured).flatMap fun source =>
    factsOfRows chars source (parsedRows chars.platform source.part.content)

/-- The numbers of the row lines can be read, and the cells of each row can be written. -/
structure Renderable (sections : List SourceSection) : Prop where
  numbers : ∀ source ∈ sections, source.structured = true → (splitlines source.part.content).all (numberFits chars) = true
  rows : ∀ cells ∈ groups evidenceKey (allFacts chars sections), Sound chars cells

theorem tableFacts_some (sections : List SourceSection) (facts : List TableFact) : tableFactsFromSections chars sections = some facts ↔
    (∀ source ∈ sections, source.structured = true → (splitlines source.part.content).all (numberFits chars) = true) ∧
      allFacts chars sections = facts := by
  induction sections generalizing facts with
  | nil => simp [tableFactsFromSections, allFacts]
  | cons source sections ih =>
    rw [tableFactsFromSections, List.forall_mem_cons, allFacts, List.filter_cons]
    by_cases structured : source.structured = true
    · rw [if_pos structured, if_pos structured, List.flatMap_cons, ← allFacts, tableFactsFromSection]
      by_cases fits : (splitlines source.part.content).all (numberFits chars) = true
      · rw [if_pos fits, Option.bind_some, Option.map_eq_some_iff]
        constructor
        · rintro ⟨rest, returned, rfl⟩
          obtain ⟨numbers, rfl⟩ := (ih rest).mp returned
          exact ⟨⟨fun _ => fits, numbers⟩, rfl⟩
        · rintro ⟨⟨_, numbers⟩, rfl⟩
          exact ⟨_, (ih _).mpr ⟨numbers, rfl⟩, rfl⟩
      · rw [if_neg fits]
        simp [structured, fits]
    · rw [if_neg structured, if_neg structured, ← allFacts, ih]
      simp [structured]

theorem sound_rows (facts : List TableFact) :
    (∀ row ∈ rowsFromFacts chars facts, Sound chars row.cells) ↔ ∀ cells ∈ groups evidenceKey facts, Sound chars cells := by
  have held {cells : List TableFact} {row : TableRowEvidence} (made : evidenceOf cells = some row) : row.cells = cells := by
    cases cells with
    | nil => cases made
    | cons first rest => exact Option.some.inj made ▸ rfl
  constructor
  · intro sound cells member
    obtain ⟨first, rest, rfl, _, _⟩ := group_begins member
    exact sound _ ((mem_rowsFromFacts chars).mpr ⟨_, member, rfl⟩)
  · intro sound row member
    obtain ⟨cells, inside, made⟩ := (mem_rowsFromFacts chars).mp member
    exact held made ▸ sound cells inside

/-- Scores that rank every row alike. -/
def evenScores : Scores where
  cheapTarget _ _ := 1
  cheapTotal _ _ _ := 1
  phrase _ _ := 1
  target _ _ := 1
  total _ _ _ := 1
  coverage _ _ := 1
  text score := (toString score).toList

/-- A price list with a column of shares and two columns of one name. -/
def sharesFile : Extraction.DelimitedFile where
  fileId := "f1".toList
  filename := "prices.csv".toList
  cells := [["service".toList, "%".toList, "price".toList, "price".toList, "note".toList],
    ["cut".toList, "10".toList, "30".toList, "40".toList, "new".toList]]
  named := FactCounts.prices_named

end Returning

end OpenTulpa.Knowledge.TableEvidence
