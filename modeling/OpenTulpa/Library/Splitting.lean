import Mathlib.Data.List.Infix
import OpenTulpa.Library.Text

/-! Splitting of a text at a separator, leftmost occurrence first, and into lines. -/

namespace OpenTulpa.Library.Splitting

open Text

section Separator

variable {α : Type*} [DecidableEq α]

/-- The pieces of what is left, behind a piece begun and the elements of a separator still to be passed. -/
@[grind =] def splitFrom (sep : List α) : Nat → List α → List α → List (List α)
  | _, piece, [] => [piece]
  | skip + 1, piece, _ :: rest => splitFrom sep skip piece rest
  | 0, piece, c :: rest =>
    if sep.isPrefixOf (c :: rest) then piece :: splitFrom sep (sep.length - 1) [] rest
    else splitFrom sep 0 (piece ++ [c]) rest

/-- `split(sep)` -/
def split (sep text : List α) : List (List α) := splitFrom sep 0 [] text

/-- No occurrence of the separator begins in the text when the separator follows. -/
def Free (sep text : List α) : Prop := ¬ sep <:+: text ++ sep.dropLast

instance decidableFree (sep text : List α) : Decidable (Free sep text) :=
  inferInstanceAs (Decidable (¬ sep <:+: text ++ sep.dropLast))

theorem splitFrom_skip (sep piece passed rest : List α) :
    splitFrom sep passed.length piece (passed ++ rest) = splitFrom sep 0 piece rest := by
  induction passed with
  | nil => rfl
  | cons c passed ih => exact ih

omit [DecidableEq α] in
theorem Free.tail {sep text : List α} {c : α} (free : Free sep (c :: text)) : Free sep text :=
  fun occurs => free (occurs.trans (List.infix_cons_iff.mpr (Or.inr List.infix_rfl)))

omit [DecidableEq α] in
theorem Free.suffix {sep text rest : List α} (free : Free sep text) (ends : rest <:+ text) : Free sep rest := by
  obtain ⟨front, rfl⟩ := ends
  induction front with
  | nil => exact free
  | cons c front ih => exact ih free.tail

/-- At the start of a free text the separator does not stand. -/
theorem Free.not_prefix {sep text rest : List α} {c : α} (free : Free sep (c :: text)) :
    sep.isPrefixOf (c :: text ++ sep ++ rest) = false := by
  rw [Bool.eq_false_iff]
  intro stands
  have whole : sep <+: c :: text ++ sep ++ rest := List.isPrefixOf_iff_prefix.mp stands
  have part : c :: text ++ sep.dropLast <+: c :: text ++ sep ++ rest := by
    rw [List.append_assoc]
    exact (List.prefix_append_right_inj _).mpr ((List.dropLast_prefix sep).trans (List.prefix_append _ _))
  refine free (List.IsPrefix.isInfix (List.prefix_of_prefix_length_le whole part ?_))
  simp only [List.length_append, List.length_cons, List.length_dropLast]
  omega

theorem splitFrom_sep {sep : List α} (filled : sep ≠ []) (piece rest : List α) :
    splitFrom sep 0 piece (sep ++ rest) = piece :: split sep rest := by
  obtain ⟨c, later, rfl⟩ := List.exists_cons_of_ne_nil filled
  have stands : (c :: later).isPrefixOf (c :: (later ++ rest)) = true :=
    List.isPrefixOf_iff_prefix.mpr (List.prefix_append (c :: later) rest)
  rw [List.cons_append, splitFrom, if_pos stands]
  exact congrArg (piece :: ·) (splitFrom_skip (c :: later) [] later rest)

/-- A free text is one piece in front of the separator. -/
theorem splitFrom_append {sep text : List α} (filled : sep ≠ []) (free : Free sep text) (piece rest : List α) :
    splitFrom sep 0 piece (text ++ sep ++ rest) = (piece ++ text) :: split sep rest := by
  induction text generalizing piece with
  | nil => rw [List.nil_append, splitFrom_sep filled, List.append_nil]
  | cons c text ih =>
    have apart : ¬ sep.isPrefixOf (c :: (text ++ sep ++ rest)) = true := Bool.eq_false_iff.mp free.not_prefix
    rw [List.cons_append, List.cons_append, splitFrom, if_neg apart, ih free.tail, List.append_assoc, List.singleton_append]

theorem split_append {sep text : List α} (filled : sep ≠ []) (free : Free sep text) (rest : List α) :
    split sep (text ++ sep ++ rest) = text :: split sep rest := by
  rw [split, splitFrom_append filled free, List.nil_append]

theorem splitFrom_whole {sep text : List α} (none : ¬ sep <:+: text) (piece : List α) :
    splitFrom sep 0 piece text = [piece ++ text] := by
  induction text generalizing piece with
  | nil => rw [splitFrom, List.append_nil]
  | cons c text ih =>
    have apart : ¬ sep.isPrefixOf (c :: text) = true := fun stands =>
      none (List.isPrefixOf_iff_prefix.mp stands).isInfix
    have later : ¬ sep <:+: text := fun occurs => none (List.infix_cons_iff.mpr (Or.inr occurs))
    rw [splitFrom, if_neg apart, ih later, List.append_assoc, List.singleton_append]

theorem split_whole {sep text : List α} (none : ¬ sep <:+: text) : split sep text = [text] := by
  rw [split, splitFrom_whole none, List.nil_append]

/-- When the separator occurs in a head of the text, the first piece and its separator end in that head. -/
theorem split_occurs {sep head : List α} (filled : sep ≠ []) (occurs : sep <:+: head) (rest : List α) :
    ∃ first later, split sep (head ++ rest) = first :: later ∧ first ++ sep <+: head := by
  suffices general : ∀ piece, ∃ first later, splitFrom sep 0 piece (head ++ rest) = (piece ++ first) :: later ∧
      first ++ sep <+: head by
    obtain ⟨first, later, cut, inside⟩ := general []
    exact ⟨first, later, cut, inside⟩
  induction head with
  | nil => exact absurd (List.eq_nil_of_infix_nil occurs) filled
  | cons c head ih =>
    intro piece
    by_cases stands : sep <+: c :: head
    · obtain ⟨tail, same⟩ := stands
      refine ⟨[], split sep (tail ++ rest), ?_, ⟨tail, same⟩⟩
      rw [← same, List.append_assoc, splitFrom_sep filled, List.append_nil]
    · have later : sep <:+: head := (List.infix_cons_iff.mp occurs).resolve_left stands
      have apart : ¬ sep.isPrefixOf (c :: (head ++ rest)) = true := by
        intro here
        have short : sep.length ≤ (c :: head).length := later.length_le.trans (Nat.le_succ _)
        exact stands (List.prefix_of_prefix_length_le (List.isPrefixOf_iff_prefix.mp here)
          (List.prefix_append (c :: head) rest) short)
      obtain ⟨first, pieces, cut, inside⟩ := ih later (piece ++ [c])
      refine ⟨c :: first, pieces, ?_, List.cons_prefix_cons.mpr ⟨rfl, inside⟩⟩
      rw [List.cons_append, splitFrom, if_neg apart, cut, List.append_assoc, List.singleton_append]

omit [DecidableEq α] in
theorem not_infix_single {c : α} {text : List α} (lacks : c ∉ text) : ¬ [c] <:+: text :=
  fun inside => lacks (inside.subset List.mem_cons_self)

omit [DecidableEq α] in
theorem free_single {c : α} {text : List α} (lacks : c ∉ text) : Free [c] text := by
  rw [Free, List.dropLast_singleton, List.append_nil]
  exact not_infix_single lacks

/-- Pieces with a separator of one element behind each are read as they are, and an empty piece after them. -/
theorem split_terminated {c : α} {pieces : List (List α)} (free : ∀ piece ∈ pieces, c ∉ piece) :
    split [c] (pieces.flatMap (· ++ [c])) = pieces ++ [[]] := by
  induction pieces with
  | nil => rfl
  | cons piece pieces ih =>
    obtain ⟨own, later⟩ := List.forall_mem_cons.mp free
    rw [List.flatMap_cons, split_append (List.cons_ne_nil _ _) (free_single own), ih later, List.cons_append]

/-- A piece lacks the separator, and its elements are elements of the text. -/
theorem mem_split_single {c : α} {text piece : List α} (member : piece ∈ split [c] text) : c ∉ piece ∧ piece ⊆ text := by
  suffices general : ∀ begun, c ∉ begun → piece ∈ splitFrom [c] 0 begun text → c ∉ piece ∧ piece ⊆ begun ++ text from
    general [] List.not_mem_nil member
  clear member
  induction text with
  | nil =>
    intro begun free member
    rw [splitFrom, List.mem_singleton] at member
    subst member
    exact ⟨free, List.subset_append_left _ _⟩
  | cons d text ih =>
    intro begun free member
    rw [splitFrom] at member
    split at member
    · rcases List.mem_cons.mp member with rfl | later
      · exact ⟨free, List.subset_append_left _ _⟩
      · obtain ⟨apart, inside⟩ := ih [] List.not_mem_nil later
        exact ⟨apart, List.Subset.trans inside (List.Subset.trans (List.subset_cons_self d text) (List.subset_append_right _ _))⟩
    · rename_i apart
      have other : c ∉ begun ++ [d] := by
        have differs : c ≠ d := by simpa using apart
        simp [free, differs]
      obtain ⟨lacks, inside⟩ := ih (begun ++ [d]) other member
      exact ⟨lacks, by simpa using inside⟩

theorem split_intercalate {c : α} {pieces : List (List α)} (filled : pieces ≠ []) (free : ∀ piece ∈ pieces, c ∉ piece) :
    split [c] ([c].intercalate pieces) = pieces := by
  induction pieces with
  | nil => exact absurd rfl filled
  | cons piece pieces ih =>
    obtain ⟨own, later⟩ := List.forall_mem_cons.mp free
    cases pieces with
    | nil => rw [List.intercalate_singleton, split_whole (not_infix_single own)]
    | cons second pieces =>
      rw [List.intercalate_cons_cons, split_append (List.cons_ne_nil _ _) (free_single own), ih (List.cons_ne_nil _ _) later]

omit [DecidableEq α] in
/-- An element that the separator lacks keeps its occurrences on either side. -/
theorem infix_append_cons {sep first second : List α} {c : α} (apart : c ∉ sep) :
    sep <:+: first ++ c :: second ↔ sep <:+: first ∨ sep <:+: second := by
  constructor
  · intro occurs
    rcases List.infix_append_iff.mp occurs with inside | inside | ⟨front, back, rfl, _, starts⟩
    · exact Or.inl inside
    · rcases List.infix_cons_iff.mp inside with starts | later
      · cases sep with
        | nil => exact Or.inl (List.nil_infix)
        | cons d rest => exact absurd (List.cons_prefix_cons.mp starts).1 (fun same => apart (by simp [same]))
      · exact Or.inr later
    · cases back with
      | nil =>
        rw [List.append_nil]
        rename_i ends
        exact Or.inl ends.isInfix
      | cons d rest => exact absurd (List.cons_prefix_cons.mp starts).1 (fun same => apart (by simp [same]))
  · rintro (inside | inside)
    · exact inside.trans List.infix_append_left
    · exact inside.trans (List.infix_append_of_infix_right (List.infix_cons_iff.mpr (Or.inr List.infix_rfl)))

/-- The text in front of the first occurrence of the separator, and the text behind it. -/
def cut (sep : List α) : List α → Option (List α × List α)
  | [] => none
  | c :: rest =>
    if sep.isPrefixOf (c :: rest) then some ([], (c :: rest).drop sep.length)
    else (cut sep rest).map fun sides => (c :: sides.1, sides.2)

/-- The first occurrence comes behind a free text. -/
theorem cut_append {sep text : List α} (filled : sep ≠ []) (free : Free sep text) (rest : List α) :
    cut sep (text ++ sep ++ rest) = some (text, rest) := by
  induction text with
  | nil =>
    obtain ⟨c, later, rfl⟩ := List.exists_cons_of_ne_nil filled
    have stands : (c :: later).isPrefixOf (c :: (later ++ rest)) = true :=
      List.isPrefixOf_iff_prefix.mpr (List.prefix_append (c :: later) rest)
    rw [List.nil_append, List.cons_append, cut, if_pos stands]
    simp
  | cons c text ih =>
    have apart : ¬ sep.isPrefixOf (c :: (text ++ sep ++ rest)) = true := Bool.eq_false_iff.mp free.not_prefix
    rw [List.cons_append, List.cons_append, cut, if_neg apart, ih free.tail]
    rfl

theorem cut_none {sep text : List α} (free : ¬ sep <:+: text) : cut sep text = none := by
  induction text with
  | nil => rfl
  | cons c text ih =>
    have apart : ¬ sep.isPrefixOf (c :: text) = true := fun stands =>
      free (List.isPrefixOf_iff_prefix.mp stands).isInfix
    rw [cut, if_neg apart, ih fun later => free (List.infix_cons_iff.mpr (Or.inr later)), Option.map_none]

theorem cut_eq_some {sep text : List α} {sides : List α × List α} (found : cut sep text = some sides) :
    text = sides.1 ++ sep ++ sides.2 := by
  induction text generalizing sides with
  | nil => cases found
  | cons c text ih =>
    rw [cut] at found
    split at found
    · rename_i stands
      obtain ⟨rest, same⟩ := List.isPrefixOf_iff_prefix.mp stands
      obtain rfl := Option.some.inj found
      simp [← same]
    · obtain ⟨later, inside, rfl⟩ := Option.map_eq_some_iff.mp found
      rw [ih inside]
      rfl

/-- Where the separator occurs, the text is cut at a place with no occurrence before it. -/
theorem cut_occurs {sep text : List α} (filled : sep ≠ []) (occurs : sep <:+: text) :
    ∃ before after, text = before ++ sep ++ after ∧ Free sep before ∧ cut sep text = some (before, after) := by
  induction text with
  | nil => exact absurd (List.eq_nil_of_infix_nil occurs) filled
  | cons c text ih =>
    by_cases stands : sep <+: c :: text
    · obtain ⟨rest, same⟩ := stands
      have short : ¬ sep <:+: sep.dropLast := fun inside => by
        have most := inside.length_le
        have some_ := List.length_pos_iff.mpr filled
        rw [List.length_dropLast] at most
        omega
      refine ⟨[], rest, same.symm, short, ?_⟩
      rw [cut, if_pos (List.isPrefixOf_iff_prefix.mpr ⟨rest, same⟩), ← same, List.drop_left]
    · obtain ⟨before, after, same, free, found⟩ := ih ((List.infix_cons_iff.mp occurs).resolve_left stands)
      refine ⟨c :: before, after, by rw [same]; rfl, fun inside => ?_, ?_⟩
      · rcases List.infix_cons_iff.mp inside with starts | later
        · have longer : c :: (before ++ sep.dropLast) <+: c :: text := by
            rw [same, List.append_assoc]
            exact List.cons_prefix_cons.mpr ⟨rfl, (List.prefix_append_right_inj _).mpr
              ((List.dropLast_prefix sep).trans (List.prefix_append _ _))⟩
          exact stands (starts.trans longer)
        · exact free later
      · rw [cut, if_neg (fun here => stands (List.isPrefixOf_iff_prefix.mp here)), found]
        rfl

end Separator

section Lines

/-- The characters at which `splitlines` breaks. -/
def isLineBreak (c : Char) : Bool :=
  let n := c.toNat
  (10 ≤ n && n ≤ 13) || (28 ≤ n && n ≤ 30) || n == 0x85 || n == 0x2028 || n == 0x2029

/-- The lines of what is left, behind a line begun. -/
@[grind =] def linesFrom : List Char → List Char → List (List Char)
  | line, [] => if line.isEmpty then [] else [line]
  | line, '\r' :: '\n' :: rest => line :: linesFrom [] rest
  | line, c :: rest => if isLineBreak c then line :: linesFrom [] rest else linesFrom (line ++ [c]) rest

def splitlines (text : List Char) : List (List Char) := linesFrom [] text

theorem isSpace_of_isLineBreak {c : Char} (breaks : isLineBreak c = true) : isSpace c = true := by
  simp only [isLineBreak, isSpace, Bool.or_eq_true, Bool.and_eq_true, decide_eq_true_eq, beq_iff_eq] at breaks ⊢
  omega

theorem linesFrom_cons {line rest : List Char} {c : Char} (plain : isLineBreak c = false) :
    linesFrom line (c :: rest) = linesFrom (line ++ [c]) rest := by
  rw [linesFrom, if_neg (by simp [plain])]
  rintro tail rfl
  cases plain

/-- At a line break a new line begins; a CRLF is one break. -/
theorem linesFrom_break (line rest : List Char) {c : Char} (breaks : isLineBreak c = true) :
    linesFrom line (c :: rest) = line :: linesFrom [] rest ∨
      c = '\r' ∧ ∃ tail, rest = '\n' :: tail ∧ linesFrom line (c :: rest) = line :: linesFrom [] tail := by
  by_cases pair : c = '\r' ∧ ∃ tail, rest = '\n' :: tail
  · obtain ⟨rfl, tail, rfl⟩ := pair
    exact Or.inr ⟨rfl, tail, rfl, linesFrom.eq_2 line tail⟩
  · left
    rw [linesFrom, if_pos breaks]
    rintro tail rfl rfl
    exact pair ⟨rfl, tail, rfl⟩

theorem linesFrom_newline (line rest : List Char) : linesFrom line ('\n' :: rest) = line :: linesFrom [] rest := by
  rw [linesFrom, if_pos (by decide)]
  rintro tail same
  cases same

/-- A text within a line. -/
def OneLine (text : List Char) : Prop := ∀ c ∈ text, isLineBreak c = false

instance decidableOneLine (text : List Char) : Decidable (OneLine text) :=
  inferInstanceAs (Decidable (∀ c ∈ text, isLineBreak c = false))

/-- A text of more than one line has a first line break. -/
theorem exists_break {text : List Char} (broken : ¬ OneLine text) :
    ∃ front c rest, text = front ++ c :: rest ∧ OneLine front ∧ isLineBreak c = true := by
  induction text with
  | nil => exact absurd (List.forall_mem_nil _) broken
  | cons c text ih =>
    by_cases breaks : isLineBreak c = true
    · exact ⟨[], c, text, rfl, List.forall_mem_nil _, breaks⟩
    · have plain : isLineBreak c = false := by simpa using breaks
      obtain ⟨front, d, rest, rfl, whole, found⟩ := ih fun later => broken (List.forall_mem_cons.mpr ⟨plain, later⟩)
      exact ⟨c :: front, d, rest, rfl, List.forall_mem_cons.mpr ⟨plain, whole⟩, found⟩

theorem linesFrom_oneLine {text : List Char} (oneLine : OneLine text) (line rest : List Char) :
    linesFrom line (text ++ rest) = linesFrom (line ++ text) rest := by
  induction text generalizing line with
  | nil => simp
  | cons c text ih =>
    rw [List.cons_append, linesFrom_cons (oneLine c List.mem_cons_self),
      ih fun d member => oneLine d (List.mem_cons_of_mem _ member), List.append_assoc, List.singleton_append]

theorem splitlines_newline {line : List Char} (oneLine : OneLine line) (rest : List Char) :
    splitlines (line ++ '\n' :: rest) = line :: splitlines rest := by
  rw [splitlines, linesFrom_oneLine oneLine, linesFrom_newline, List.nil_append, ← splitlines]

/-- Lines with a newline behind each are read as they are. -/
theorem splitlines_terminated {lines : List (List Char)} (oneLine : ∀ line ∈ lines, OneLine line) (rest : List Char) :
    splitlines (lines.flatMap (· ++ ['\n']) ++ rest) = lines ++ splitlines rest := by
  induction lines with
  | nil => rfl
  | cons line lines ih =>
    rw [List.flatMap_cons, List.append_assoc, List.append_assoc, List.singleton_append,
      splitlines_newline (oneLine line List.mem_cons_self), ih fun line member => oneLine line (List.mem_cons_of_mem _ member),
      List.cons_append]

theorem splitlines_oneLine {line : List Char} (oneLine : OneLine line) (filled : line ≠ []) : splitlines line = [line] := by
  have whole := linesFrom_oneLine oneLine [] []
  rw [List.append_nil, List.nil_append] at whole
  rw [splitlines, whole, linesFrom, if_neg (by simpa using filled)]

theorem oneLine_of_mem_linesFrom {line text : List Char} (begun : OneLine line) :
    ∀ other ∈ linesFrom line text, OneLine other := by
  induction line, text using linesFrom.induct with
  | case1 line empty =>
    rw [linesFrom, if_pos empty]
    exact nofun
  | case2 line filled =>
    rw [linesFrom, if_neg filled]
    exact fun other member => List.mem_singleton.mp member ▸ begun
  | case3 line rest ih =>
    rw [linesFrom.eq_2]
    exact List.forall_mem_cons.mpr ⟨begun, ih (List.forall_mem_nil _)⟩
  | case4 line c rest apart breaks ih =>
    rw [linesFrom, if_pos breaks]
    · exact List.forall_mem_cons.mpr ⟨begun, ih (List.forall_mem_nil _)⟩
    · exact apart
  | case5 line c rest apart plain ih =>
    have keeps : isLineBreak c = false := by simpa using plain
    rw [linesFrom_cons keeps]
    refine ih fun d member => ?_
    rcases List.mem_append.mp member with before | last
    · exact begun d before
    · rw [List.mem_singleton.mp last]
      exact keeps

theorem oneLine_of_mem_splitlines {line text : List Char} (member : line ∈ splitlines text) : OneLine line :=
  oneLine_of_mem_linesFrom (List.forall_mem_nil _) line member

/-- What is read from each line by a reader that takes no notice of white space at its end. -/
structure LineReader (β : Type*) where
  read : List Char → Option β
  blank : read [] = none
  trailing : ∀ line c, isSpace c = true → read (line ++ [c]) = read line

variable {β : Type*} (reader : LineReader β)

def LineReader.readFrom (line text : List Char) : List β := (linesFrom line text).filterMap reader.read

def LineReader.readLines (text : List Char) : List β := reader.readFrom [] text

theorem LineReader.readFrom_nil (line : List Char) : reader.readFrom line [] = (reader.read line).toList := by
  cases line with
  | nil => simp [readFrom, linesFrom, reader.blank]
  | cons c line => cases found : reader.read (c :: line) <;> simp [readFrom, linesFrom, found]

theorem LineReader.filterMap_cons (line : List Char) (lines : List (List Char)) :
    (line :: lines).filterMap reader.read = (reader.read line).toList ++ lines.filterMap reader.read := by
  cases found : reader.read line <;> simp [found]

theorem LineReader.readFrom_newline (line rest : List Char) :
    reader.readFrom line ('\n' :: rest) = (reader.read line).toList ++ reader.readLines rest := by
  rw [readFrom, linesFrom_newline, reader.filterMap_cons]
  rfl

theorem LineReader.readFrom_break (line rest : List Char) {c : Char} (breaks : isLineBreak c = true) :
    ∃ later, reader.readFrom line (c :: rest) = (reader.read line).toList ++ later := by
  rcases linesFrom_break line rest breaks with cut | ⟨_, tail, _, cut⟩
  · exact ⟨_, by rw [readFrom, cut, reader.filterMap_cons]⟩
  · exact ⟨_, by rw [readFrom, cut, reader.filterMap_cons]⟩

theorem LineReader.readFrom_plain {text : List Char} (plain : ∀ c ∈ text, isLineBreak c = false) (line rest : List Char) :
    reader.readFrom line (text ++ rest) = reader.readFrom (line ++ text) rest := by
  induction text generalizing line with
  | nil => simp
  | cons c text ih =>
    rw [List.cons_append, readFrom, linesFrom_cons (plain c List.mem_cons_self), ← readFrom,
      ih fun d member => plain d (List.mem_cons_of_mem _ member), List.append_assoc, List.singleton_append]

/-- White space up to the end of a line, line breaks or not, changes nothing. -/
theorem LineReader.readFrom_space {space : List Char} (white : ∀ c ∈ space, isSpace c = true) (line rest : List Char) :
    reader.readFrom line (space ++ '\n' :: rest) = (reader.read line).toList ++ reader.readLines rest := by
  induction space generalizing line with
  | nil => exact reader.readFrom_newline line rest
  | cons c space ih =>
    have later := ih fun d member => white d (List.mem_cons_of_mem _ member)
    by_cases breaks : isLineBreak c = true
    · rcases linesFrom_break line (space ++ '\n' :: rest) breaks with cut | ⟨_, tail, same, cut⟩
      · rw [List.cons_append, readFrom, cut, reader.filterMap_cons, ← readFrom, later []]
        simp [reader.blank]
      · rw [List.cons_append, readFrom, cut, reader.filterMap_cons, ← readFrom]
        cases space with
        | nil =>
          obtain rfl : tail = rest := by simpa using same.symm
          rfl
        | cons d space =>
          obtain ⟨rfl, rfl⟩ : d = '\n' ∧ space ++ '\n' :: rest = tail := by simpa using same
          have again := later []
          rw [List.cons_append, reader.readFrom_newline, reader.blank, Option.toList_none, List.nil_append,
            List.nil_append] at again
          exact congrArg ((reader.read line).toList ++ ·) again
    · rw [List.cons_append, readFrom, linesFrom_cons (by simpa using breaks), ← readFrom, later,
        reader.trailing line c (white c List.mem_cons_self)]

theorem LineReader.readLines_nil : reader.readLines [] = [] := by
  rw [readLines, reader.readFrom_nil, reader.blank, Option.toList_none]

theorem LineReader.readFrom_white {space : List Char} (white : ∀ c ∈ space, isSpace c = true) (line : List Char) :
    reader.readFrom line space = (reader.read line).toList := by
  induction space generalizing line with
  | nil => exact reader.readFrom_nil line
  | cons c space ih =>
    have later := ih fun d member => white d (List.mem_cons_of_mem _ member)
    by_cases breaks : isLineBreak c = true
    · rcases linesFrom_break line space breaks with cut | ⟨_, tail, rfl, cut⟩
      · rw [readFrom, cut, reader.filterMap_cons, ← readFrom, later [], reader.blank, Option.toList_none, List.append_nil]
      · have none := later []
        rw [reader.readFrom_newline, reader.blank, Option.toList_none, List.nil_append] at none
        rw [readFrom, cut, reader.filterMap_cons, ← readFrom, ← readLines, none, List.append_nil]
    · rw [readFrom, linesFrom_cons (by simpa using breaks), ← readFrom, later,
        reader.trailing line c (white c List.mem_cons_self)]

/-- White space at the end of the text changes nothing. -/
theorem LineReader.readFrom_trailing {space : List Char} (white : ∀ c ∈ space, isSpace c = true) (line text : List Char) :
    reader.readFrom line (text ++ space) = reader.readFrom line text := by
  induction line, text using linesFrom.induct with
  | case1 line _ => rw [List.nil_append, reader.readFrom_white white, reader.readFrom_nil]
  | case2 line _ => rw [List.nil_append, reader.readFrom_white white, reader.readFrom_nil]
  | case3 line rest ih =>
    rw [List.cons_append, List.cons_append, readFrom, readFrom, linesFrom.eq_2, linesFrom.eq_2, reader.filterMap_cons,
      reader.filterMap_cons, ← readFrom, ← readFrom, ih]
  | case4 line c rest apart breaks ih =>
    have alone : linesFrom line (c :: rest) = line :: linesFrom [] rest := by
      rw [linesFrom, if_pos breaks]
      exact apart
    rw [List.cons_append, readFrom, readFrom, alone, reader.filterMap_cons]
    rcases linesFrom_break line (rest ++ space) breaks with cut | ⟨rfl, tail, same, cut⟩
    · rw [cut, reader.filterMap_cons, ← readFrom, ← readFrom, ih]
    · cases rest with
      | cons d rest =>
        obtain ⟨rfl, _⟩ : d = '\n' ∧ rest ++ space = tail := by simpa using same
        exact absurd rfl (apart rest rfl)
      | nil =>
        obtain rfl : space = '\n' :: tail := by simpa using same
        have left : ∀ d ∈ tail, isSpace d = true := fun d member => white d (List.mem_cons_of_mem _ member)
        rw [cut, reader.filterMap_cons, ← readFrom, ← readFrom, reader.readFrom_white left, reader.readFrom_nil]
  | case5 line c rest apart plain ih =>
    have keeps : isLineBreak c = false := by simpa using plain
    rw [List.cons_append, readFrom, readFrom, linesFrom_cons keeps, linesFrom_cons keeps, ← readFrom, ← readFrom, ih]

end Lines

end OpenTulpa.Library.Splitting
