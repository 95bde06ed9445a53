import OpenTulpa.Host.DotenvValues

/-! One variable of a `.env` file is set: the others keep their values, and setting it again changes nothing. A value
with a line separator other than LF and CR is accepted but cannot be stored. -/

namespace OpenTulpa.Host.DotenvUpdates

open Library Library.Text Library.Spaces Library.Splitting Dotenv DotenvValues

section Files

def entryOf (line : List Char) : Option (List Char × List Char) :=
  match parseLine line with
  | .ok found => found
  | .error _ => none

def store (values : Values) (lines : List (List Char)) : Values :=
  (lines.filterMap entryOf).foldl (fun values entry => Dict.insert (String.ofList entry.1) entry.2 values) values

theorem store_cons (values : Values) (line : List Char) (lines : List (List Char)) :
    store values (line :: lines) = store (match entryOf line with
      | none => values
      | some (key, value) => Dict.insert (String.ofList key) value values) lines := by
  cases found : entryOf line <;> simp [store, found]

theorem store_append (values : Values) (first second : List (List Char)) :
    store values (first ++ second) = store (store values first) second := by
  simp [store, List.filterMap_append, List.foldl_append]

theorem length_store (values : Values) (lines : List (List Char)) : values.length ≤ (store values lines).length := by
  induction lines generalizing values with
  | nil => exact Nat.le_refl _
  | cons line lines ih =>
    rw [store_cons]
    cases entryOf line with
    | none => exact ih values
    | some entry => exact (Dict.length_le_insert entry.2).trans (ih _)

theorem ordered_store {values : Values} (ordered : Dict.Ordered values) (lines : List (List Char)) :
    Dict.Ordered (store values lines) := by
  induction lines generalizing values with
  | nil => exact ordered
  | cons line lines ih =>
    rw [store_cons]
    cases entryOf line with
    | none => exact ih ordered
    | some entry => exact ih (ordered.insert _ _)

/-- A file is accepted when each line is and there are not too many names. -/
theorem parseLines_eq_ok {index : Nat} {lines : List (List Char)} {values result : Values}
    (few : values.length ≤ dotenvMaxKeys) : parseLines index lines values = .ok result ↔
      (∀ line ∈ lines, ∃ found, parseLine line = .ok found) ∧ result = store values lines ∧ result.length ≤ dotenvMaxKeys := by
  induction lines generalizing index values with
  | nil =>
    rw [parseLines, Except.ok.injEq]
    constructor
    · rintro rfl
      exact ⟨nofun, rfl, few⟩
    · exact fun all => all.2.1.symm
  | cons line lines ih =>
    rw [parseLines, store_cons, List.forall_mem_cons]
    cases parsed : parseLine line with
    | error problem => simp
    | ok found =>
      have entry : entryOf line = found := by rw [entryOf, parsed]
      rw [entry]
      cases found with
      | none =>
        rw [show (∃ found, (Except.ok none : Except Problem (Option (List Char × List Char))) = .ok found) ↔ True from
          ⟨fun _ => trivial, fun _ => ⟨none, rfl⟩⟩, true_and]
        exact ih few
      | some pair =>
        obtain ⟨key, value⟩ := pair
        simp only [Except.ok.injEq, exists_eq', true_and]
        split
        · rename_i many
          refine ⟨nofun, fun all => absurd ?_ (Nat.not_le_of_lt many)⟩
          have grown := length_store (Dict.insert (String.ofList key) value values) lines
          rw [← all.2.1] at grown
          exact grown.trans all.2.2
        · rename_i few'
          exact ih (Nat.le_of_not_lt few')

theorem parseDotenvPayload_eq_ok {payload : List Char} {result : Values} : parseDotenvPayload payload = .ok result ↔
    (∀ line ∈ splitlines payload, ∃ found, parseLine line = .ok found) ∧ result = store [] (splitlines payload) ∧
      result.length ≤ dotenvMaxKeys :=
  parseLines_eq_ok (Nat.zero_le _)

/-- The rewriter and the reader see the same variable in a line. -/
theorem dotenvLineKey_eq {line : List Char} {found : Option (List Char × List Char)} (parsed : parseLine line = .ok found) :
    dotenvLineKey line = found.map Prod.fst := by
  simp only [parseLine] at parsed
  rw [dotenvLineKey]
  split at parsed
  · rename_i blank
    obtain rfl := Except.ok.inj parsed
    exact if_pos blank
  · rename_i filled
    simp only [filled]
    cases sides : cut ['='] (withoutExport (stripChars line)) with
    | none => rw [sides] at parsed; cases parsed
    | some pair =>
      simp only [sides] at parsed
      split at parsed
      · rename_i named
        cases value : parseDotenvValue (stripChars pair.2) with
        | error problem => simp only [value] at parsed; cases parsed
        | ok text =>
          simp only [value] at parsed
          split at parsed
          · cases parsed
          · obtain rfl := Except.ok.inj parsed
            simp [named]
      · cases parsed

variable {name entry : List Char}

theorem rewriteLines_append (replaced : Bool) (first second : List (List Char)) :
    rewriteLines name entry replaced (first ++ second) = rewriteLines name entry replaced first ++
      rewriteLines name entry (replaced || first.any fun line => dotenvLineKey line == some name) second := by
  induction first generalizing replaced with
  | nil => simp [rewriteLines]
  | cons line first ih =>
    rw [List.cons_append, rewriteLines, rewriteLines]
    by_cases here : dotenvLineKey line = some name
    · cases replaced <;> simp [here, ih]
    · simp [here, beq_false_of_ne here, ih]

/-- Lines without the variable stay. -/
theorem rewriteLines_other {lines : List (List Char)} (other : ∀ line ∈ lines, dotenvLineKey line ≠ some name) (replaced : Bool) :
    rewriteLines name entry replaced lines = lines := by
  induction lines with
  | nil => rfl
  | cons line lines ih =>
    rw [rewriteLines, if_pos (other line List.mem_cons_self), ih fun line member => other line (List.mem_cons_of_mem _ member)]

/-- The other variables keep their values. -/
theorem get_store_rewriteLines (own : ∀ key value, entryOf entry = some (key, value) → key = name) {key : String}
    (apart : key ≠ String.ofList name) (replaced : Bool) {lines : List (List Char)}
    (accepted : ∀ line ∈ lines, ∃ found, parseLine line = .ok found) {values others : Values}
    (same : Dict.get values key = Dict.get others key) :
    Dict.get (store values (rewriteLines name entry replaced lines)) key = Dict.get (store others lines) key := by
  induction lines generalizing replaced values others with
  | nil => exact same
  | cons line lines ih =>
    obtain ⟨⟨found, parsed⟩, later⟩ := List.forall_mem_cons.mp accepted
    have keyed := dotenvLineKey_eq parsed
    have read : entryOf line = found := by rw [entryOf, parsed]
    rw [rewriteLines, store_cons others, read]
    by_cases here : dotenvLineKey line = some name
    · have dropped : Dict.get values key = Dict.get (match found with
          | none => others
          | some (key, value) => Dict.insert (String.ofList key) value others) key := by
        cases found with
        | none => exact same
        | some pair =>
          obtain rfl : pair.1 = name := by simpa [keyed] using here
          rw [same, Dict.get_insert_of_ne apart]
      rw [if_neg (not_not_intro here)]
      split
      · exact ih true later dropped
      · rw [store_cons]
        refine ih true later ?_
        rw [← dropped]
        cases mine : entryOf entry with
        | none => rfl
        | some pair =>
          obtain rfl : pair.1 = name := own pair.1 pair.2 mine
          exact Dict.get_insert_of_ne apart _ _
    · rw [if_pos here, store_cons, read]
      refine ih replaced later ?_
      cases found with
      | none => exact same
      | some pair =>
        by_cases mine : key = String.ofList pair.1
        · rw [mine, Dict.get_insert_self, Dict.get_insert_self]
        · rw [Dict.get_insert_of_ne mine, Dict.get_insert_of_ne mine, same]

end Files

section Update

variable {name value : List Char}

theorem rewriteLines_replaced (entry : List Char) (lines : List (List Char)) :
    rewriteLines name entry true lines = lines.filter fun line => dotenvLineKey line != some name := by
  induction lines with
  | nil => rfl
  | cons line lines ih =>
    rw [rewriteLines, List.filter_cons]
    by_cases here : dotenvLineKey line = some name
    · simp [here, ih]
    · simp [here, ih]

/-- A line of the previous file for something else. -/
def Other (name : List Char) (line : List Char) : Prop := OneLine line ∧ dotenvLineKey line ≠ some name

theorem other_empty (name : List Char) : Other name [] := ⟨List.forall_mem_nil _, nofun⟩

theorem rewriteLines_between {entry : List Char} {lines : List (List Char)} (oneLine : ∀ line ∈ lines, OneLine line)
    (defined : ∃ line ∈ lines, dotenvLineKey line = some name) :
    ∃ before after, rewriteLines name entry false lines = before ++ entry :: after ∧ (∀ line ∈ before, Other name line) ∧
      ∀ line ∈ after, Other name line := by
  induction lines with
  | nil => simp at defined
  | cons line lines ih =>
    obtain ⟨here, later⟩ := List.forall_mem_cons.mp oneLine
    rw [rewriteLines]
    by_cases own : dotenvLineKey line = some name
    · refine ⟨[], rewriteLines name entry true lines, by simp [own], List.forall_mem_nil _, ?_⟩
      rw [rewriteLines_replaced]
      intro other member
      obtain ⟨inside, apart⟩ := List.mem_filter.mp member
      exact ⟨later other inside, by simpa using apart⟩
    · have left : ∃ line ∈ lines, dotenvLineKey line = some name := by simpa [own] using defined
      obtain ⟨before, after, same, front, back⟩ := ih later left
      refine ⟨line :: before, after, ?_, List.forall_mem_cons.mpr ⟨⟨here, own⟩, front⟩, back⟩
      rw [if_pos own, same, List.cons_append]

/-- The new assignment is the only one for the variable. -/
theorem outputLines_between {lines : List (List Char)} (oneLine : ∀ line ∈ lines, OneLine line) :
    ∃ before after, outputLines name value lines = before ++ entryLine name value :: after ∧
      (∀ line ∈ before, Other name line) ∧ ∀ line ∈ after, Other name line := by
  rw [outputLines]
  split
  · rename_i defined
    exact rewriteLines_between oneLine (by simpa using defined)
  · rename_i undefined
    have apart : ∀ line ∈ lines, dotenvLineKey line ≠ some name := by simpa using undefined
    rw [rewriteLines_other apart]
    refine ⟨_, [], rfl, fun line member => ?_, List.forall_mem_nil _⟩
    rcases List.mem_append.mp member with old | blank
    · exact ⟨oneLine line old, apart line old⟩
    · split at blank
      · rw [List.mem_singleton.mp blank]
        exact other_empty name
      · cases blank

theorem entryOf_empty : entryOf [] = none := rfl

/-- No other variable is read differently from the rewritten lines. -/
theorem get_store_outputLines (writable : isWritableEnvName name = true) (accepted : Accepted value) {key : String}
    (apart : key ≠ String.ofList name) {lines : List (List Char)} (parsed : ∀ line ∈ lines, ∃ found, parseLine line = .ok found) :
    Dict.get (store [] (outputLines name value lines)) key = Dict.get (store [] lines) key := by
  have entry : entryOf (entryLine name value) = some (name, value) := by rw [entryOf, parseLine_entry writable accepted]
  have own : ∀ other text, entryOf (entryLine name value) = some (other, text) → other = name := by
    intro other text found
    exact (Prod.mk.inj (Option.some.inj (entry.symm.trans found))).1.symm
  have rewritten := get_store_rewriteLines own apart false parsed (rfl : Dict.get ([] : Values) key = Dict.get [] key)
  rw [outputLines]
  split
  · exact rewritten
  · rw [store_append, store_append, store_cons, entry]
    have blank (values : Values) (shown : Bool) : store values (if shown = true then [[]] else []) = values := by
      cases shown with
      | false => rfl
      | true => rw [if_pos rfl, store_cons, entryOf_empty]; rfl
    rw [blank]
    exact (Dict.get_insert_of_ne apart _ _).trans rewritten

theorem intercalate_between (entry : List Char) (before after : List (List Char)) :
    ['\n'].intercalate (before ++ entry :: after) =
      before.flatMap (· ++ ['\n']) ++ (entry ++ after.flatMap ('\n' :: ·)) := by
  have behind (entry : List Char) : ['\n'].intercalate (entry :: after) = entry ++ after.flatMap ('\n' :: ·) := by
    induction after generalizing entry with
    | nil => simp
    | cons line after ih => rw [List.intercalate_cons_cons, ih, List.flatMap_cons, List.append_assoc]; rfl
  induction before with
  | nil => exact behind entry
  | cons line before ih =>
    obtain ⟨next, rest, same⟩ := List.exists_cons_of_ne_nil (l := before ++ entry :: after) (by simp)
    rw [List.cons_append, same, List.intercalate_cons_cons, ← same, ih, List.flatMap_cons, List.append_assoc, List.append_assoc,
      List.append_assoc]

/-- Newlines at the end are those of empty lines. -/
theorem rdropWhile_newlines {lines : List (List Char)} (oneLine : ∀ line ∈ lines, OneLine line) :
    (lines.flatMap ('\n' :: ·)).rdropWhile (· == '\n') = (lines.rdropWhile List.isEmpty).flatMap ('\n' :: ·) := by
  induction lines using List.reverseRecOn with
  | nil => rfl
  | append_singleton lines line ih =>
    have front : ∀ line ∈ lines, OneLine line := fun other member => oneLine other (List.mem_append_left _ member)
    rcases List.eq_nil_or_concat line with rfl | ⟨start, c, rfl⟩
    · rw [List.rdropWhile_concat_pos _ _ _ (by rfl), ← ih front, List.flatMap_append, List.flatMap_singleton,
        List.rdropWhile_concat_pos _ _ _ (by rfl)]
    · have plain : isLineBreak c = false := oneLine (start.concat c) (by simp) c (by simp)
      have stop : ¬ (c == '\n') = true := by
        rintro same
        rw [beq_iff_eq.mp same] at plain
        cases plain
      rw [List.rdropWhile_concat_neg _ _ _ (by simp), List.concat_eq_append, List.flatMap_append, List.flatMap_singleton,
        ← List.cons_append, ← List.append_assoc, List.rdropWhile_concat_neg (· == '\n') _ _ stop]

theorem entryLine_last (writable : isWritableEnvName name = true) :
    ∀ c ∈ (entryLine name value).getLast?, (c == '\n') = false := by
  intro c last
  rw [beq_eq_false_iff_ne]
  rintro rfl
  rw [entryLine, formatDotenvValue] at last
  split at last
  · rename_i raw
    rcases List.mem_append.mp (List.mem_of_getLast? last) with inside | inside
    · exact absurd (isSpace_of_isWritableChar (writable_char writable _ inside)).2.1 (by decide)
    · rcases List.mem_cons.mp inside with same | inside
      · cases same
      · exact absurd (visible_of_isRawChar (List.all_eq_true.mp raw _ inside)).1 (by decide)
  · rw [← List.cons_append, ← List.append_assoc, List.getLast?_concat] at last
    cases last

/-- The file that is written: the new assignment between the lines of the other variables. -/
theorem payload_between (writable : isWritableEnvName name = true) (before : List (List Char)) {after : List (List Char)}
    (oneLine : ∀ line ∈ after, OneLine line) :
    (['\n'].intercalate (before ++ entryLine name value :: after)).rdropWhile (· == '\n') ++ ['\n'] =
      (before ++ entryLine name value :: after.rdropWhile List.isEmpty).flatMap (· ++ ['\n']) := by
  have last : ∀ c ∈ (before.flatMap (· ++ ['\n']) ++ entryLine name value).getLast?, (c == '\n') = false := by
    intro c member
    rw [List.getLast?_append_of_ne_nil _ (by simp [entryLine])] at member
    exact entryLine_last writable c member
  have behind (entry : List Char) (lines : List (List Char)) :
      entry ++ lines.flatMap ('\n' :: ·) ++ ['\n'] = (entry :: lines).flatMap (· ++ ['\n']) := by
    induction lines generalizing entry with
    | nil => simp
    | cons line lines ih =>
      rw [List.flatMap_cons, List.flatMap_cons, ← ih line]
      simp
  rw [intercalate_between, ← List.append_assoc, rdropWhile_append_stop last, rdropWhile_newlines oneLine, List.append_assoc,
    List.append_assoc, ← List.append_assoc (entryLine name value), behind, ← List.flatMap_append]

theorem store_rdropWhile (values : Values) (lines : List (List Char)) :
    store values (lines.rdropWhile List.isEmpty) = store values lines := by
  induction lines using List.reverseRecOn with
  | nil => rfl
  | append_singleton lines line ih =>
    by_cases empty : line.isEmpty = true
    · obtain rfl := List.isEmpty_iff.mp empty
      rw [List.rdropWhile_concat_pos _ _ _ empty, ih, store_append, store_cons, entryOf_empty]
      rfl
    · rw [List.rdropWhile_concat_neg _ _ _ empty]

/-- A file in which the value is broken into lines is refused. -/
theorem oneLine_of_parse (writable : isWritableEnvName name = true) (accepted : Accepted value) {before : List (List Char)}
    (oneLine : ∀ line ∈ before, OneLine line) {rest : List Char} {result : Values}
    (parsed : parseDotenvPayload (before.flatMap (· ++ ['\n']) ++ (entryLine name value ++ rest)) = .ok result) :
    OneLine value := by
  by_contra broken
  obtain ⟨front, c, later, rfl, whole, breaks⟩ := exists_break broken
  have member : c ∈ front ++ c :: later := by simp
  have single := escapeChar_break breaks (fun same => accepted.newline (same ▸ member))
    (fun same => accepted.feed (same ▸ member))
  have quoted : (front ++ c :: later).all isRawChar = false := by
    rw [← Bool.not_eq_true, List.all_eq_true]
    intro raw
    have plain := isLineBreak_of_visible (visible_of_isRawChar (raw c member)).1
    rw [breaks] at plain
    cases plain
  have shape : entryLine name (front ++ c :: later) ++ rest =
      name ++ '=' :: '"' :: escaped front ++ c :: (escaped later ++ '"' :: rest) := by
    have parts : escaped (front ++ c :: later) = escaped front ++ c :: escaped later := by
      rw [escaped_eq, List.flatMap_append, List.flatMap_cons, single, ← escaped_eq, ← escaped_eq]
      rfl
    rw [entryLine, formatDotenvValue, quoted, if_neg Bool.false_ne_true, parts]
    simp
  have line : OneLine (name ++ '=' :: '"' :: escaped front) := by
    intro d inside
    rcases List.mem_append.mp inside with named | inside
    · exact isLineBreak_of_visible (isSpace_of_isWritableChar (writable_char writable d named)).2.1
    · rcases List.mem_cons.mp inside with rfl | inside
      · rfl
      · rcases List.mem_cons.mp inside with rfl | inside
        · rfl
        · exact oneLine_escaped whole d inside
  obtain ⟨lines, _, _⟩ := parseDotenvPayload_eq_ok.mp parsed
  rw [shape, splitlines_terminated oneLine, splitlines, linesFrom_oneLine line, List.nil_append] at lines
  have first : name ++ '=' :: '"' :: escaped front ∈
      before ++ linesFrom (name ++ '=' :: '"' :: escaped front) (c :: (escaped later ++ '"' :: rest)) := by
    rcases linesFrom_break (name ++ '=' :: '"' :: escaped front) (escaped later ++ '"' :: rest) breaks with cut | ⟨_, _, _, cut⟩
    · rw [cut]; simp
    · rw [cut]; simp
  obtain ⟨found, read⟩ := lines _ first
  obtain ⟨problem, refused⟩ := parseDotenvValue_cut front
  rw [parseLine_assignment writable, refused] at read
  cases read

end Update

section Results

variable {name value : List Char}

theorem updatedPayload_eq_ok {previous : Option (List Char)} {payload : List Char} :
    updatedPayload previous name value = .ok payload ↔
      payload = (['\n'].intercalate (outputLines name value (splitlines (previous.getD [])))).rdropWhile (· == '\n') ++ ['\n'] ∧
      Json.encodedSize payload ≤ dotenvMaxBytes ∧
      ∃ verified, parseDotenvPayload payload = .ok verified ∧ Dict.get verified (String.ofList name) = some value := by
  simp only [updatedPayload]
  generalize (['\n'].intercalate (outputLines name value (splitlines (previous.getD [])))).rdropWhile (· == '\n') ++ ['\n'] =
    written
  constructor
  · intro updated
    split at updated
    · cases updated
    · rename_i small
      cases read : parseDotenvPayload written with
      | error failure => simp only [read] at updated; cases updated
      | ok verified =>
        simp only [read] at updated
        split at updated
        · rename_i found
          obtain rfl := Except.ok.inj updated
          exact ⟨rfl, Nat.le_of_not_lt small, verified, read, found⟩
        · cases updated
  · rintro ⟨rfl, small, verified, read, found⟩
    rw [if_neg (Nat.not_lt_of_le small), read]
    exact if_pos found

/-- The lines of a file that was written. -/
theorem updated_lines (writable : isWritableEnvName name = true) (accepted : Accepted value) {previous : Option (List Char)}
    {payload : List Char} (updated : updatedPayload previous name value = .ok payload) : ∃ before after,
      outputLines name value (splitlines (previous.getD [])) = before ++ entryLine name value :: after ∧
      payload = (before ++ entryLine name value :: after.rdropWhile List.isEmpty).flatMap (· ++ ['\n']) ∧
      splitlines payload = before ++ entryLine name value :: after.rdropWhile List.isEmpty ∧
      (∀ line ∈ before, Other name line) ∧ ∀ line ∈ after, Other name line := by
  obtain ⟨shape, _, verified, read, _⟩ := updatedPayload_eq_ok.mp updated
  obtain ⟨before, after, lines, front, back⟩ := outputLines_between fun line member =>
    oneLine_of_mem_splitlines (show line ∈ splitlines (previous.getD []) from member)
  have kept : ∀ line ∈ after.rdropWhile List.isEmpty, Other name line := fun line member =>
    back line ((List.rdropWhile_prefix _ _).subset member)
  rw [lines, payload_between writable before fun line member => (back line member).1] at shape
  have broken := shape
  rw [List.flatMap_append, List.flatMap_cons, List.append_assoc] at broken
  rw [broken] at read
  have oneLine := oneLine_of_parse writable accepted (fun line member => (front line member).1) read
  have whole : ∀ line ∈ before ++ entryLine name value :: after.rdropWhile List.isEmpty, OneLine line := by
    intro line member
    rcases List.mem_append.mp member with inside | inside
    · exact (front line inside).1
    · exact List.forall_mem_cons.mpr ⟨oneLine_entryLine writable oneLine, fun line member => (kept line member).1⟩ line inside
  have split := splitlines_terminated whole []
  rw [List.append_nil, ← shape] at split
  exact ⟨before, after, lines, shape, by simpa [splitlines, linesFrom] using split, front, back⟩

/-- Setting a variable changes that variable only, and setting it again changes nothing. -/
theorem updatedPayload_only {given text payload : List Char} {previous : Option (List Char)} {values : Values}
    (named : validateWritableName given = .ok name) (valid : validateValue text = .ok value)
    (read : parseDotenvPayload (previous.getD []) = .ok values) (updated : updatedPayload previous name value = .ok payload) :
    parseDotenvPayload payload = .ok (Dict.insert (String.ofList name) value values) ∧
      updatedPayload (some payload) name value = .ok payload := by
  have writable := writable_of_validate named
  have accepted := (accepted_of_validate valid).2
  obtain ⟨before, after, output, shape, lines, front, back⟩ := updated_lines writable accepted updated
  obtain ⟨_, small, verified, reread, found⟩ := updatedPayload_eq_ok.mp updated
  obtain ⟨parsed, stored, _⟩ := parseDotenvPayload_eq_ok.mp read
  have fromOutput : verified = store [] (outputLines name value (splitlines (previous.getD []))) := by
    rw [(parseDotenvPayload_eq_ok.mp reread).2.1, lines, output, store_append, store_append, store_cons, store_cons,
      store_rdropWhile]
  have empty : Dict.Ordered ([] : Values) := List.Pairwise.nil
  have same : verified = Dict.insert (String.ofList name) value values := by
    refine Dict.Ordered.ext ?_ ?_ fun key => ?_
    · rw [fromOutput]
      exact ordered_store empty _
    · rw [stored]
      exact (ordered_store empty _).insert _ _
    · by_cases mine : key = String.ofList name
      · rw [mine, found, Dict.get_insert_self]
      · rw [fromOutput, get_store_outputLines writable accepted mine parsed, Dict.get_insert_of_ne mine, stored]
  have key : dotenvLineKey (entryLine name value) = some name := dotenvLineKey_assignment writable (formatDotenvValue value)
  refine ⟨reread.trans (congrArg Except.ok same), updatedPayload_eq_ok.mpr ⟨?_, small, verified, reread, found⟩⟩
  have kept : ∀ line ∈ after.rdropWhile List.isEmpty, Other name line := fun line member =>
    back line ((List.rdropWhile_prefix _ _).subset member)
  have unchanged : outputLines name value (before ++ entryLine name value :: after.rdropWhile List.isEmpty) =
      before ++ entryLine name value :: after.rdropWhile List.isEmpty := by
    have defined : ((before ++ entryLine name value :: after.rdropWhile List.isEmpty).any
        fun line => dotenvLineKey line == some name) = true :=
      List.any_eq_true.mpr ⟨entryLine name value, by simp, by rw [key, beq_self_eq_true]⟩
    have none : (before.any fun line => dotenvLineKey line == some name) = false := by
      rw [List.any_eq_false]
      exact fun line member => by simpa using (front line member).2
    rw [outputLines, if_pos defined, rewriteLines_append, rewriteLines_other fun line member => (front line member).2, none,
      Bool.or_self, rewriteLines, if_neg (not_not_intro key), if_neg Bool.false_ne_true,
      rewriteLines_other fun line member => (kept line member).2]
  rw [Option.getD_some, lines, unchanged, payload_between writable before fun line member => (kept line member).1,
    List.rdropWhile_idempotent, ← shape]

theorem updatedPayload_only_later :
    let previous := "A=1 # one\nexport B='x'\nB=2\nC=\"\"\n".toList
    let payload := "A=1 # one\nB=\"y z\"\nC=\"\"\n".toList
    updatedPayload (some previous) "B".toList "y z".toList = .ok payload ∧
    parseDotenvPayload payload = .ok [("A", "1".toList), ("B", "y z".toList), ("C", [])] ∧
    updatedPayload (some payload) "B".toList "y z".toList = .ok payload := by
  have named : validateWritableName " B ".toList = .ok "B".toList := by decide
  have valid : validateValue "y z".toList = .ok "y z".toList := by decide
  have read : parseDotenvPayload "A=1 # one\nexport B='x'\nB=2\nC=\"\"\n".toList =
      .ok [("A", "1".toList), ("B", "2".toList), ("C", [])] := by decide
  have updated : updatedPayload (some "A=1 # one\nexport B='x'\nB=2\nC=\"\"\n".toList) "B".toList "y z".toList =
      .ok "A=1 # one\nB=\"y z\"\nC=\"\"\n".toList := by decide
  obtain ⟨reread, again⟩ := updatedPayload_only named valid (show parseDotenvPayload ((some _).getD []) = _ from read) updated
  exact ⟨updated, reread.trans (by decide), again⟩

theorem utf8Size_escapeChar (c : Char) : Json.encodedSize (escapeChar c) ≤ 2 * c.utf8Size := by
  rw [escapeChar]
  repeat' split
  all_goals first
    | (subst_vars; decide)
    | (simp only [Json.encodedSize, List.map_cons, List.map_nil, List.sum_cons, List.sum_nil]; omega)

theorem encodedSize_escaped (value : List Char) : Json.encodedSize (escaped value) ≤ 2 * Json.encodedSize value := by
  induction value with
  | nil => exact Nat.le_refl _
  | cons c value ih =>
    have char := utf8Size_escapeChar c
    rw [escaped_cons, Json.encodedSize_append, Json.encodedSize_cons]
    omega

theorem encodedSize_name (writable : isWritableEnvName name = true) : Json.encodedSize name ≤ 128 := by
  have single : ∀ c ∈ name, c.utf8Size = 1 := fun c member => utf8Size_of_isWritableChar (writable_char writable c member)
  obtain ⟨c, rest, rfl, _, _, _, short⟩ := writable_head writable
  rw [Json.encodedSize, List.map_congr_left single, List.map_const', List.sum_replicate_nat, List.length_cons]
  omega

/-- An accepted value fits into an empty file. -/
theorem encodedSize_entryLine (writable : isWritableEnvName name = true) (accepted : Accepted value) :
    Json.encodedSize (entryLine name value ++ ['\n']) ≤ dotenvMaxBytes := by
  have named := encodedSize_name writable
  have short := accepted.short
  have formatted : Json.encodedSize (formatDotenvValue value) ≤ 2 * Json.encodedSize value + 2 := by
    rw [formatDotenvValue]
    split
    · omega
    · have text := encodedSize_escaped value
      rw [List.cons_append, Json.encodedSize_cons, Json.encodedSize_append, Json.encodedSize_cons,
        show '"'.utf8Size = 1 from by decide, show Json.encodedSize [] = 0 from rfl]
      omega
  rw [entryLine, Json.encodedSize_append, Json.encodedSize_append, Json.encodedSize_cons, Json.encodedSize_cons,
    show '='.utf8Size = 1 from by decide, show '\n'.utf8Size = 1 from by decide, show Json.encodedSize [] = 0 from rfl]
  simp only [dotenvMaxBytes, dotenvMaxValueBytes] at short ⊢
  omega

/-- The value comes back from a file of its own, and it can be written into an empty one. -/
def Stored (name value : List Char) : Prop :=
  parseDotenvPayload (entryLine name value) = .ok [(String.ofList name, value)] ∧
    ∃ payload, updatedPayload none name value = .ok payload

theorem stored_iff {given text : List Char} (named : validateWritableName given = .ok name)
    (valid : validateValue text = .ok value) : Stored name value ↔ OneLine value := by
  have writable := writable_of_validate named
  have accepted := (accepted_of_validate valid).2
  constructor
  · intro stored
    have whole : parseDotenvPayload ([] ++ (entryLine name value ++ [])) = .ok [(String.ofList name, value)] := by
      rw [List.nil_append, List.append_nil]
      exact stored.1
    exact oneLine_of_parse writable accepted (List.forall_mem_nil _) whole
  · intro oneLine
    have entry : entryOf (entryLine name value) = some (name, value) := by rw [entryOf, parseLine_entry writable accepted]
    have line := oneLine_entryLine writable oneLine
    have one : [(String.ofList name, value)].length ≤ dotenvMaxKeys := (show 1 ≤ dotenvMaxKeys from by decide)
    have read {payload : List Char} (lines : splitlines payload = [entryLine name value]) :
        parseDotenvPayload payload = .ok [(String.ofList name, value)] := by
      rw [parseDotenvPayload_eq_ok, lines, store_cons, entry]
      exact ⟨fun line member => ⟨_, List.mem_singleton.mp member ▸ parseLine_entry writable accepted⟩, rfl, one⟩
    have alone : outputLines name value (splitlines []) = [entryLine name value] := rfl
    refine ⟨read (splitlines_oneLine line (by simp [entryLine])), entryLine name value ++ ['\n'], ?_⟩
    refine updatedPayload_eq_ok.mpr ⟨?_, encodedSize_entryLine writable accepted, _, read ?_, Dict.get_insert_self _ _ []⟩
    · have shape : _ = ([] ++ entryLine name value :: ([] : List (List Char)).rdropWhile List.isEmpty).flatMap (· ++ ['\n']) :=
        payload_between writable [] (List.forall_mem_nil _)
      rw [Option.getD_none, alone]
      simpa using shape.symm
    · exact (splitlines_newline line []).trans rfl

theorem stored_plain : Stored "KEY".toList "a\"b #\\".toList :=
  (stored_iff (show validateWritableName "KEY".toList = .ok "KEY".toList from by decide)
    (show validateValue "a\"b #\\".toList = .ok "a\"b #\\".toList from by decide)).mpr (by decide)

/-- The line separator U+2028 is accepted and not stored. -/
theorem separator_not_stored : validateWritableName "KEY".toList = .ok "KEY".toList ∧
    validateValue "a\u2028b".toList = .ok "a\u2028b".toList ∧ ¬ Stored "KEY".toList "a\u2028b".toList := by
  refine ⟨by decide, by decide, fun stored => ?_⟩
  have refused : parseDotenvPayload (entryLine "KEY".toList "a\u2028b".toList) ≠
      .ok [(String.ofList "KEY".toList, "a\u2028b".toList)] := by decide
  exact refused stored.1

end Results

end OpenTulpa.Host.DotenvUpdates
