import OpenTulpa.Library.Text

/-! The words of a text, which white space separates, and the parts of a text around the last occurrence of a character. -/

namespace OpenTulpa.Library.Words

open Text

section Words

/-- The words of what is left, behind a word begun. -/
def wordsFrom : List Char → List Char → List (List Char)
  | word, [] => if word.isEmpty then [] else [word]
  | word, c :: rest =>
    if isSpace c then if word.isEmpty then wordsFrom [] rest else word :: wordsFrom [] rest
    else wordsFrom (word ++ [c]) rest

/-- `text.split()` -/
def words (text : List Char) : List (List Char) := wordsFrom [] text

/-- A word stands for itself in a text. -/
structure Word (word : List Char) : Prop where
  filled : word ≠ []
  visible : ∀ c ∈ word, isSpace c = false

theorem wordsFrom_append {word : List Char} (visible : ∀ c ∈ word, isSpace c = false) (begun rest : List Char) :
    wordsFrom begun (word ++ rest) = wordsFrom (begun ++ word) rest := by
  induction word generalizing begun with
  | nil => rw [List.nil_append, List.append_nil]
  | cons c word ih =>
    have shown : ¬ isSpace c = true := by simp [visible c List.mem_cons_self]
    rw [List.cons_append, wordsFrom, if_neg shown, ih fun d member => visible d (List.mem_cons_of_mem _ member),
      List.append_assoc, List.singleton_append]

/-- Words with white space before each and at the end are read as they are. -/
theorem wordsFrom_separated {list : List (List Char)} (own : ∀ word ∈ list, Word word) {space last : Char}
    (white : isSpace space = true) (ends : isSpace last = true) (begun : List Char) :
    wordsFrom begun (list.flatMap (space :: ·) ++ [last]) = if begun.isEmpty then list else begun :: list := by
  induction list generalizing begun with
  | nil =>
    rw [List.flatMap_nil, List.nil_append, wordsFrom, if_pos ends]
    rfl
  | cons word list ih =>
    have first : Word word := own word List.mem_cons_self
    have rest : wordsFrom [] (word ++ (list.flatMap (space :: ·) ++ [last])) = word :: list := by
      rw [wordsFrom_append first.visible, List.nil_append, ih fun other member => own other (List.mem_cons_of_mem _ member),
        if_neg (by simpa using first.filled)]
    rw [List.flatMap_cons, List.append_assoc, List.cons_append, wordsFrom, if_pos white, rest]

end Words

section Last

variable {α : Type*} [DecidableEq α]

/-- What comes behind the last occurrence, if there is one. -/
def afterLast (mark : α) : List α → Option (List α)
  | [] => none
  | c :: rest => (afterLast mark rest).or (if c = mark then some rest else none)

theorem afterLast_none {mark : α} {text : List α} (absent : mark ∉ text) : afterLast mark text = none := by
  induction text with
  | nil => rfl
  | cons c text ih =>
    rw [List.mem_cons, not_or] at absent
    obtain ⟨differs, later⟩ := absent
    rw [afterLast, ih later, if_neg (Ne.symm differs)]
    rfl

theorem afterLast_append {mark : α} {rest : List α} (absent : mark ∉ rest) (front : List α) :
    afterLast mark (front ++ mark :: rest) = some rest := by
  induction front with
  | nil => rw [List.nil_append, afterLast, afterLast_none absent, if_pos rfl, Option.none_or]
  | cons c front ih => rw [List.cons_append, afterLast, ih, Option.some_or]

end Last

end OpenTulpa.Library.Words
