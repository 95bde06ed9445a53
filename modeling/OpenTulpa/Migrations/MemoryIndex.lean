import Mathlib.Data.List.Lex
import OpenTulpa.Library.Spaces
import OpenTulpa.Library.Splitting

/-! The index of migrated memories in the memory file of a tenant: one generated block between two markers, put behind
the text that the file has or in the place of the block that is found there. -/

namespace OpenTulpa.Migrations.MemoryIndex

open Library Library.Text Library.Spaces Library.Splitting

section Model

def memoryIndexStart : List Char := "<!-- opentulpa-mem0-migration:start -->".toList

def memoryIndexEnd : List Char := "<!-- opentulpa-mem0-migration:end -->".toList

/-- `_merge_memory_index` -/
def mergeMemoryIndex (existing generated : List Char) : List Char :=
  if (stripChars existing).isEmpty then generated
  else
    match cut memoryIndexStart existing with
    | none => rstrip existing ++ ['\n', '\n'] ++ generated
    | some (before, behind) =>
      match cut memoryIndexEnd behind with
      | none => rstrip existing ++ ['\n', '\n'] ++ generated
      | some (_, after) => (rstrip before ++ ['\n', '\n'] ++ rstrip generated ++ after).dropWhile (· == '\n')

structure LegacyMemoryRecord where
  legacyId : List Char
  content : List Char
  createdAt : Option (List Char)
  deriving DecidableEq

def isStemChar (c : Char) : Bool := c.isAlphanum || c == '.' || c == '_' || c == '-'

def isStemEdge (c : Char) : Bool := c == '.' || c == '-'

/-- `_safe_file_stem`; the digest is the one of the platform, in hexadecimal. -/
def safeFileStem (digest : List Char → List Char) (value : List Char) : List Char :=
  let safe := trimChars isStemEdge (replaceRuns isStemChar '-' value)
  if safe = value ∧ safe.length ≤ 80 then safe
  else
    let short := (safe.take 60).rdropWhile isStemEdge
    (if short.isEmpty then "record".toList else short) ++ '-' :: (digest value).take 12

/-- The name of the file of a record. -/
def memoryFileName (digest : List Char → List Char) (record : LegacyMemoryRecord) : List Char :=
  let name := safeFileStem digest (stripChars record.legacyId) ++ ".md".toList
  if name.map Char.toLower = "agents.md".toList then "mem0-".toList ++ name else name

/-- The line of a record in the index. -/
def indexLine (digest : List Char → List Char) (record : LegacyMemoryRecord) : List Char :=
  let summary := (collapseFrom false (stripChars record.content)).take 120
  let created := match record.createdAt with
    | none | some [] => []
    | some time => "; created ".toList ++ time
  "- [\x60".toList ++ record.legacyId ++ "\x60](".toList ++ memoryFileName digest record ++ [')'] ++ created ++
    [':', ' '] ++ summary

def indexTitle : List (List Char) :=
  ["# Migrated Memories".toList, [], "Legacy Mem0 records preserved during the Deep Agents cutover:".toList, []]

/-- The lines of the index between its markers. -/
def indexLines (digest : List Char → List Char) (entries : List LegacyMemoryRecord) : List (List Char) :=
  indexTitle ++ (entries.mergeSort fun first second => decide (first.legacyId ≤ second.legacyId)).map (indexLine digest)

/-- The text that `_write_memory_index` generates. -/
def generatedIndex (digest : List Char → List Char) (entries : List LegacyMemoryRecord) : List Char :=
  ['\n'].intercalate ([memoryIndexStart] ++ indexLines digest entries ++ [memoryIndexEnd, []])

end Model

section Block

variable {digest : List Char → List Char}

theorem infix_markers {marker : List Char} (apart : '\n' ∉ marker) (filled : marker ≠ []) (lines : List (List Char)) :
    marker <:+: lines.flatMap (· ++ ['\n']) ↔ ∃ line ∈ lines, marker <:+: line := by
  induction lines with
  | nil => simp [filled]
  | cons line lines ih =>
    rw [List.flatMap_cons, List.append_assoc, List.singleton_append, infix_append_cons apart, ih]
    simp

/-- The end marker comes into the index with none of the records. -/
def Clean (digest : List Char → List Char) (entries : List LegacyMemoryRecord) : Prop :=
  ∀ record ∈ entries, ¬ memoryIndexEnd <:+: indexLine digest record

instance decidableClean (digest : List Char → List Char) (entries : List LegacyMemoryRecord) : Decidable (Clean digest entries) :=
  inferInstanceAs (Decidable (∀ record ∈ entries, ¬ memoryIndexEnd <:+: indexLine digest record))

/-- What the generated text has between its markers. -/
def indexBody (digest : List Char → List Char) (entries : List LegacyMemoryRecord) : List Char :=
  '\n' :: (indexLines digest entries).flatMap (· ++ ['\n'])

def indexBlock (digest : List Char → List Char) (entries : List LegacyMemoryRecord) : List Char :=
  memoryIndexStart ++ (indexBody digest entries ++ memoryIndexEnd)

theorem generatedIndex_eq (entries : List LegacyMemoryRecord) :
    generatedIndex digest entries = indexBlock digest entries ++ ['\n'] := by
  have joined (lines : List (List Char)) (last : List Char) :
      ['\n'].intercalate (lines ++ [last, []]) = lines.flatMap (· ++ ['\n']) ++ last ++ ['\n'] := by
    induction lines with
    | nil => simp [List.intercalate]
    | cons line lines ih =>
      rw [List.cons_append, List.intercalate_cons_of_ne_nil (by simp), ih]
      simp
  rw [generatedIndex, joined, indexBlock, indexBody]
  simp

theorem clean_iff (entries : List LegacyMemoryRecord) :
    ¬ memoryIndexEnd <:+: indexBody digest entries ↔ Clean digest entries := by
  have apart : '\n' ∉ memoryIndexEnd := by decide
  have filled : memoryIndexEnd ≠ [] := by decide
  have title : ∀ line ∈ indexTitle, ¬ memoryIndexEnd <:+: line := by decide
  have body : memoryIndexEnd <:+: indexBody digest entries ↔ ∃ line ∈ indexLines digest entries, memoryIndexEnd <:+: line := by
    rw [indexBody, ← List.nil_append ('\n' :: _), infix_append_cons apart, infix_markers apart filled, List.infix_nil]
    exact or_iff_right filled
  rw [body]
  constructor
  · intro free record member occurs
    refine free ⟨_, List.mem_append_right _ (List.mem_map_of_mem ?_), occurs⟩
    exact List.mem_mergeSort.mpr member
  · rintro clean ⟨line, member, occurs⟩
    rcases List.mem_append.mp member with fixed | written
    · exact title line fixed occurs
    · obtain ⟨record, listed, rfl⟩ := List.mem_map.mp written
      exact clean record (List.mem_mergeSort.mp listed) occurs

/-- The end of the block is found behind its body when no record has the marker, and too early otherwise. -/
theorem cut_generated (entries : List LegacyMemoryRecord) : ∃ inner after,
    cut memoryIndexEnd (indexBody digest entries ++ memoryIndexEnd ++ ['\n']) = some (inner, after) ∧
      (after = ['\n'] ↔ Clean digest entries) := by
  have apart : '\n' ∉ memoryIndexEnd := by decide
  have filled : memoryIndexEnd ≠ [] := by decide
  obtain ⟨front, ends⟩ : ∃ front, indexBody digest entries = front ++ ['\n'] := by
    rcases List.eq_nil_or_concat (indexLines digest entries) with none | ⟨lines, last, split⟩
    · exact ⟨[], by rw [indexBody, none]; rfl⟩
    · exact ⟨'\n' :: lines.flatMap (· ++ ['\n']) ++ last, by rw [indexBody, split]; simp⟩
  have free : Free memoryIndexEnd (indexBody digest entries) ↔ Clean digest entries := by
    have short : ¬ memoryIndexEnd <:+: memoryIndexEnd.dropLast := by decide
    rw [← clean_iff, Free, ends, List.append_assoc, List.singleton_append, infix_append_cons apart, infix_append_cons apart]
    simp [short, filled]
  by_cases clean : Clean digest entries
  · exact ⟨_, _, cut_append filled (free.mpr clean) ['\n'], by simp [clean]⟩
  · obtain ⟨before, after, same, early, found⟩ := cut_occurs filled
      (List.infix_append (indexBody digest entries) memoryIndexEnd ['\n'])
    refine ⟨before, after, found, fun last => ?_, fun fine => absurd fine clean⟩
    rw [last] at same
    have equal := List.append_cancel_right (List.append_cancel_right same)
    exact absurd (free.mp (equal ▸ early)) clean

end Block

section Merging

variable (digest : List Char → List Char) {existing : List Char}

/-- What stands in front of the block in a file that had the given text. -/
def base (existing : List Char) : List Char :=
  if (stripChars existing).isEmpty then [] else rstrip existing ++ ['\n', '\n']

theorem rstrip_base (existing : List Char) : rstrip (base existing) = rstrip existing := by
  have white : ∀ c ∈ ['\n', '\n'], isSpace c = true := by decide
  rw [base]
  split
  · rename_i blank
    rw [List.isEmpty_iff, stripChars_eq_nil, ← rstrip_eq_nil] at blank
    rw [blank]
    rfl
  · rw [rstrip_append_space white, rstrip_rstrip]

theorem free_base (unmarked : ¬ memoryIndexStart <:+: existing) : Free memoryIndexStart (base existing) := by
  have apart : '\n' ∉ memoryIndexStart := by decide
  have short : ¬ memoryIndexStart <:+: memoryIndexStart.dropLast := by decide
  have filled : memoryIndexStart ≠ [] := by decide
  obtain ⟨space, same, _⟩ := rstrip_append existing
  have kept : ¬ memoryIndexStart <:+: rstrip existing := fun inside => by
    rw [same] at unmarked
    exact unmarked (inside.trans List.infix_append_left)
  rw [Free, base]
  split
  · exact short
  · rw [List.append_assoc, List.cons_append, infix_append_cons apart, List.cons_append,
      ← List.nil_append ('\n' :: _), infix_append_cons apart, List.nil_append, List.infix_nil]
    simp [kept, filled, short]

theorem indexBlock_begins (entries : List LegacyMemoryRecord) : ∃ rest, indexBlock digest entries = '<' :: rest := ⟨_, rfl⟩

theorem rstrip_generated (entries : List LegacyMemoryRecord) :
    rstrip (generatedIndex digest entries) = indexBlock digest entries := by
  have white : ∀ c ∈ ['\n'], isSpace c = true := by decide
  have shown : visible memoryIndexEnd ≠ [] := by decide
  have whole : rstrip memoryIndexEnd = memoryIndexEnd := by decide
  rw [generatedIndex_eq, rstrip_append_space white, indexBlock, ← List.append_assoc, rstrip_append_visible _ shown, whole]

theorem merge_first (unmarked : ¬ memoryIndexStart <:+: existing) (generated : List Char) :
    mergeMemoryIndex existing generated = base existing ++ generated := by
  rw [mergeMemoryIndex, base]
  split
  · rfl
  · rw [cut_none unmarked]

/-- The second merge puts its block in front of whatever follows the end marker that it finds. -/
theorem merge_again (unmarked : ¬ memoryIndexStart <:+: existing) (entries : List LegacyMemoryRecord) :
    ∃ after, (after = ['\n'] ↔ Clean digest entries) ∧ ∀ generated,
      mergeMemoryIndex (base existing ++ generatedIndex digest entries) generated =
        (rstrip existing ++ ['\n', '\n'] ++ rstrip generated ++ after).dropWhile (· == '\n') := by
  obtain ⟨inner, after, found, clean⟩ := cut_generated entries
  refine ⟨after, clean, fun generated => ?_⟩
  have filled : memoryIndexStart ≠ [] := by decide
  have shape : base existing ++ generatedIndex digest entries =
      base existing ++ memoryIndexStart ++ (indexBody digest entries ++ memoryIndexEnd ++ ['\n']) := by
    rw [generatedIndex_eq, indexBlock]
    simp only [List.append_assoc]
  have shown : stripChars (base existing ++ generatedIndex digest entries) ≠ [] := by
    rw [ne_eq, stripChars_eq_nil, shape, visible_append, visible_append]
    have start : visible memoryIndexStart ≠ [] := by decide
    simp [start]
  rw [mergeMemoryIndex, if_neg (by simpa using shown), shape, cut_append filled (free_base unmarked)]
  simp only
  rw [found]
  simp only
  rw [rstrip_base]

/-- A merge over a generated block gives what it gives over the text alone exactly when the end of that block is found
where it is and the text does not begin with an end of line. -/
theorem settled_iff (entries : List LegacyMemoryRecord) (after : List Char) :
    (rstrip existing ++ ['\n', '\n'] ++ indexBlock digest entries ++ after).dropWhile (· == '\n') =
        base existing ++ (indexBlock digest entries ++ ['\n']) ↔
      after = ['\n'] ∧ (stripChars existing = [] ∨ existing.head? ≠ some '\n') := by
  obtain ⟨rest, begins⟩ := indexBlock_begins digest entries
  by_cases blank : stripChars existing = []
  · have nothing : rstrip existing = [] := rstrip_eq_nil.mpr (stripChars_eq_nil.mp blank)
    have none : base existing = [] := by rw [base, if_pos (List.isEmpty_iff.mpr blank)]
    rw [nothing, none, begins]
    simp [blank]
  · have some_ : rstrip existing ≠ [] := fun nothing => blank (stripChars_eq_nil.mpr (rstrip_eq_nil.mp nothing))
    have own : base existing = rstrip existing ++ ['\n', '\n'] := by rw [base, if_neg (by simpa using blank)]
    obtain ⟨c, tail, starts⟩ := List.exists_cons_of_ne_nil some_
    obtain ⟨space, same, _⟩ := rstrip_append existing
    have head : existing.head? = some c := by rw [same, starts]; rfl
    rw [own, head, starts]
    by_cases newline : c = '\n'
    · subst newline
      simp only [blank, ne_eq, not_true_eq_false, or_self, and_false, iff_false]
      intro equal
      have first := congrArg List.head? equal
      have dropped := List.head?_dropWhile_not (· == '\n') ('\n' :: tail ++ ['\n', '\n'] ++ indexBlock digest entries ++ after)
      rw [first] at dropped
      simp at dropped
    · rw [List.cons_append, List.cons_append, List.cons_append, List.dropWhile_cons_of_neg (by simpa using newline)]
      simp [newline]

end Merging

section Preserved

variable (digest : List Char → List Char) {existing : List Char}

/-- A result is the generated block and, up to white space at its end, the text that was there. -/
def Kept (existing generated result : List Char) : Prop :=
  ∃ before after, result = before ++ rstrip generated ++ after ∧ rstrip before = rstrip existing ∧ rstrip after = []

/-- Merging keeps the text of the file, and merging again changes nothing but the block. -/
structure Preserved (existing first second : List Char) : Prop where
  again : mergeMemoryIndex (mergeMemoryIndex existing first) first = mergeMemoryIndex existing first
  replaced : mergeMemoryIndex (mergeMemoryIndex existing first) second = mergeMemoryIndex existing second
  kept : Kept existing first (mergeMemoryIndex existing first)
  keptAgain : Kept existing first (mergeMemoryIndex (mergeMemoryIndex existing first) first)
  keptReplaced : Kept existing second (mergeMemoryIndex (mergeMemoryIndex existing first) second)

theorem kept_first (unmarked : ¬ memoryIndexStart <:+: existing) (entries : List LegacyMemoryRecord) :
    Kept existing (generatedIndex digest entries) (mergeMemoryIndex existing (generatedIndex digest entries)) := by
  refine ⟨base existing, ['\n'], ?_, rstrip_base existing, by decide⟩
  rw [merge_first unmarked, rstrip_generated, generatedIndex_eq, List.append_assoc]

/-- For a file without the markers, merging keeps its text and is idempotent exactly when no record brings the end marker
into the first index and the text, unless it is blank, does not begin with an end of line. -/
theorem merge_preserved_iff (existing : List Char) (noStart : ¬ memoryIndexStart <:+: existing)
    (first second : List LegacyMemoryRecord) :
    Preserved existing (generatedIndex digest first) (generatedIndex digest second) ↔
      Clean digest first ∧ (stripChars existing = [] ∨ existing.head? ≠ some '\n') := by
  obtain ⟨after, clean, again⟩ := merge_again digest noStart first
  have settled (entries : List LegacyMemoryRecord) :
      mergeMemoryIndex (mergeMemoryIndex existing (generatedIndex digest first)) (generatedIndex digest entries) =
          mergeMemoryIndex existing (generatedIndex digest entries) ↔
        Clean digest first ∧ (stripChars existing = [] ∨ existing.head? ≠ some '\n') := by
    rw [merge_first noStart, again, merge_first noStart, rstrip_generated, generatedIndex_eq, settled_iff, clean]
  constructor
  · exact fun preserved => (settled first).mp preserved.again
  · intro fine
    have same := (settled first).mpr fine
    have other := (settled second).mpr fine
    have keptFirst := kept_first digest noStart first
    have keptSecond := kept_first digest noStart second
    refine ⟨same, other, keptFirst, ?_, ?_⟩
    · rwa [same]
    · rwa [other]

/-- The index of a record whose content names the end marker. -/
def markedIndex : List Char := generatedIndex (fun _ => []) [⟨"m1".toList, memoryIndexEnd, none⟩]

theorem marked_index_grows : ¬ memoryIndexStart <:+: "# Notes".toList ∧ ¬ memoryIndexEnd <:+: "# Notes".toList ∧
    mergeMemoryIndex (mergeMemoryIndex "# Notes".toList markedIndex) markedIndex ≠ mergeMemoryIndex "# Notes".toList markedIndex := by
  decide +kernel

theorem merge_preserved_plain :
    Preserved "# Notes".toList (generatedIndex (fun _ => []) [⟨"m1".toList, "likes tea".toList, none⟩])
      (generatedIndex (fun _ => []) []) :=
  (merge_preserved_iff (fun _ => []) "# Notes".toList (by decide) [⟨"m1".toList, "likes tea".toList, none⟩] []).mpr
    ⟨by decide +kernel, Or.inr (by decide)⟩

end Preserved

end OpenTulpa.Migrations.MemoryIndex
