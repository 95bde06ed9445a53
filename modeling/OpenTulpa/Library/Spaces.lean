import OpenTulpa.Library.Characters
import OpenTulpa.Library.Text

/-! White space at the end of a text and within it, and the visible characters that no treatment of it touches. -/

namespace OpenTulpa.Library.Spaces

open Characters Text

/-- `re.sub(r"\s+", " ", text)`; the flag says that a run of white space has begun. -/
def collapseFrom : Bool → List Char → List Char
  | _, [] => []
  | inside, c :: rest =>
    if isSpace c then if inside then collapseFrom true rest else ' ' :: collapseFrom true rest
    else c :: collapseFrom false rest

/-- Every run of characters that are not kept becomes one mark; the flag says that such a run has begun. -/
def replaceRunsFrom (kept : Char → Bool) (mark : Char) : Bool → List Char → List Char
  | _, [] => []
  | inside, c :: rest =>
    if kept c then c :: replaceRunsFrom kept mark false rest
    else if inside then replaceRunsFrom kept mark true rest else mark :: replaceRunsFrom kept mark true rest

def replaceRuns (kept : Char → Bool) (mark : Char) (text : List Char) : List Char := replaceRunsFrom kept mark false text

def rstrip (text : List Char) : List Char := text.rdropWhile isSpace

/-- Where no mark comes out, nothing has been replaced. -/
theorem replaceRuns_of_not_mem {kept : Char → Bool} {mark : Char} {text : List Char}
    (unmarked : mark ∉ replaceRuns kept mark text) : replaceRuns kept mark text = text := by
  rw [replaceRuns] at *
  induction text with
  | nil => rfl
  | cons c text ih =>
    rw [replaceRunsFrom] at *
    by_cases keeps : kept c = true
    · rw [if_pos keeps] at *
      rw [ih fun member => unmarked (List.mem_cons_of_mem _ member)]
    · rw [if_neg keeps] at unmarked
      exact absurd List.mem_cons_self unmarked

theorem toNat_of_isAlphanum {c : Char} (alphanumeric : c.isAlphanum = true) : 48 ≤ c.toNat ∧ c.toNat ≤ 122 := by
  rw [isAlphanum_eq, isAlpha_eq, Bool.or_eq_true, Bool.or_eq_true, isUpper_iff, isLower_iff] at alphanumeric
  rcases alphanumeric with (⟨low, high⟩ | ⟨low, high⟩) | digit
  · omega
  · omega
  · have bounds := Char.isDigit_iff_toNat.mp digit
    have first : ('0' : Char).toNat = 48 := rfl
    have last : ('9' : Char).toNat = 57 := rfl
    omega

theorem isSpace_of_isAlphanum {c : Char} (alphanumeric : c.isAlphanum = true) : isSpace c = false := by
  have bounds := toNat_of_isAlphanum alphanumeric
  simp only [isSpace, Bool.or_eq_false_iff, Bool.and_eq_false_iff, decide_eq_false_iff_not, beq_eq_false_iff_ne]
  omega

/-- The characters that no normalization of white space touches. -/
def visible (text : List Char) : List Char := text.filter fun c => !isSpace c

theorem visible_append (first second : List Char) : visible (first ++ second) = visible first ++ visible second :=
  List.filter_append _ _

theorem visible_dropWhile (text : List Char) : visible (text.dropWhile isSpace) = visible text := by
  induction text with
  | nil => rfl
  | cons c text ih =>
    cases space : isSpace c <;> simp_all [visible]

theorem visible_reverse (text : List Char) : visible text.reverse = (visible text).reverse := by
  rw [visible, visible, List.filter_reverse]

theorem visible_rstrip (text : List Char) : visible (rstrip text) = visible text := by
  rw [rstrip, List.rdropWhile, visible_reverse, visible_dropWhile, visible_reverse, List.reverse_reverse]

theorem visible_collapseFrom (inside : Bool) (text : List Char) : visible (collapseFrom inside text) = visible text := by
  induction text generalizing inside with
  | nil => rfl
  | cons c text ih =>
    have blank : isSpace ' ' = true := by decide
    rw [collapseFrom]
    cases space : isSpace c <;> cases inside <;> simp_all [visible]

theorem visible_eq_nil {text : List Char} : visible text = [] ↔ ∀ c ∈ text, isSpace c = true := by
  simp [visible, List.filter_eq_nil_iff]

theorem rstrip_eq_nil {text : List Char} : rstrip text = [] ↔ visible text = [] := by
  rw [rstrip, List.rdropWhile_eq_nil_iff, visible_eq_nil]

theorem stripChars_eq_nil {text : List Char} : stripChars text = [] ↔ visible text = [] := by
  rw [stripChars, ← rstrip, rstrip_eq_nil, visible_dropWhile]

theorem visible_stripChars (text : List Char) : visible (stripChars text) = visible text := by
  rw [stripChars, ← rstrip, visible_rstrip, visible_dropWhile]

/-- A text is what is left of it and white space. -/
theorem rstrip_append (text : List Char) : ∃ space, text = rstrip text ++ space ∧ ∀ c ∈ space, isSpace c = true := by
  refine ⟨text.rtakeWhile isSpace, ?_, fun c member => List.mem_rtakeWhile_imp member⟩
  rw [rstrip, List.rdropWhile, List.rtakeWhile, ← List.reverse_append, List.takeWhile_append_dropWhile,
    List.reverse_reverse]

theorem rstrip_append_space {text space : List Char} (white : ∀ c ∈ space, isSpace c = true) :
    rstrip (text ++ space) = rstrip text := by
  have gone : space.reverse.dropWhile isSpace = [] := by
    rw [List.dropWhile_eq_nil_iff]
    exact fun c member => white c (List.mem_reverse.mp member)
  rw [rstrip, rstrip, List.rdropWhile, List.rdropWhile, List.reverse_append, List.dropWhile_append]
  simp [gone]

theorem rstrip_rstrip (text : List Char) : rstrip (rstrip text) = rstrip text := by
  obtain ⟨space, same, white⟩ := rstrip_append text
  conv_rhs => rw [same, rstrip_append_space white]

/-- Nothing is taken from a text that something visible follows. -/
theorem rstrip_append_visible (text : List Char) {rest : List Char} (shown : visible rest ≠ []) :
    rstrip (text ++ rest) = text ++ rstrip rest := by
  have left : (rest.reverse.dropWhile isSpace).isEmpty = false := by
    rw [List.isEmpty_eq_false_iff, ne_eq, List.dropWhile_eq_nil_iff]
    intro all
    exact shown (visible_eq_nil.mpr fun c member => all c (List.mem_reverse.mpr member))
  rw [rstrip, rstrip, List.rdropWhile, List.rdropWhile, List.reverse_append, List.dropWhile_append, left]
  simp

theorem rstrip_cons {c : Char} (shown : isSpace c = false) (rest : List Char) : ∃ tail, rstrip (c :: rest) = c :: tail := by
  by_cases more : visible rest = []
  · have white : rstrip ([c] ++ rest) = rstrip [c] := rstrip_append_space (visible_eq_nil.mp more)
    exact ⟨[], by rw [← List.singleton_append, white]; simp [rstrip, List.rdropWhile, shown]⟩
  · exact ⟨rstrip rest, rstrip_append_visible [c] more⟩

theorem collapseFrom_append_space (inside : Bool) (text : List Char) {c : Char} (space : isSpace c = true) :
    ∃ blank, collapseFrom inside (text ++ [c]) = collapseFrom inside text ++ blank ∧ ∀ d ∈ blank, isSpace d = true := by
  induction text generalizing inside with
  | nil =>
    cases inside with
    | false => exact ⟨[' '], by simp [collapseFrom, space], by decide⟩
    | true => exact ⟨[], by simp [collapseFrom, space], nofun⟩
  | cons d text ih =>
    rw [List.cons_append, collapseFrom, collapseFrom]
    cases isSpace d with
    | false =>
      obtain ⟨blank, same, white⟩ := ih false
      exact ⟨blank, by simp [same], white⟩
    | true =>
      obtain ⟨blank, same, white⟩ := ih true
      cases inside <;> exact ⟨blank, by simp [same], white⟩

theorem stripChars_append_space (text : List Char) {space : List Char} (white : ∀ c ∈ space, isSpace c = true) :
    stripChars (text ++ space) = stripChars text := by
  have gone : space.dropWhile isSpace = [] := List.dropWhile_eq_nil_iff.mpr white
  rw [stripChars, stripChars, ← rstrip, ← rstrip, List.dropWhile_append]
  cases left : (text.dropWhile isSpace).isEmpty with
  | true => rw [if_pos rfl, gone, List.isEmpty_iff.mp left]
  | false => rw [if_neg Bool.false_ne_true, rstrip_append_space white]

theorem dropWhile_append_stop {stop : Char → Bool} (first : List Char) {second : List Char}
    (begins : ∀ c ∈ second.head?, stop c = false) : (first ++ second).dropWhile stop = first.dropWhile stop ++ second := by
  have kept : second.dropWhile stop = second := by
    cases second with
    | nil => rfl
    | cons c rest => exact List.dropWhile_cons_of_neg (by simpa using begins c rfl)
  rw [List.dropWhile_append, kept]
  split
  · rename_i gone
    rw [List.isEmpty_iff.mp gone, List.nil_append]
  · rfl

theorem rdropWhile_append_stop {stop : Char → Bool} {first : List Char} (ends : ∀ c ∈ first.getLast?, stop c = false)
    (second : List Char) : (first ++ second).rdropWhile stop = first ++ second.rdropWhile stop := by
  rw [List.rdropWhile, List.reverse_append, dropWhile_append_stop _ (by simpa using ends), List.reverse_append,
    List.reverse_reverse, List.rdropWhile]

/-- What is trimmed at both ends of a text does not reach a part that begins and ends with something else. -/
theorem trimChars_between {edge : Char → Bool} {part : List Char} (begins : part.head?.any edge = false)
    (ends : part.getLast?.any edge = false) (filled : part ≠ []) (before behind : List Char) :
    trimChars edge (before ++ part ++ behind) = before.dropWhile edge ++ part ++ behind.rdropWhile edge := by
  obtain ⟨c, rest, rfl⟩ := List.exists_cons_of_ne_nil filled
  have first : ∀ d ∈ (c :: rest ++ behind).head?, edge d = false := by simpa using begins
  have last : ∀ d ∈ (before.dropWhile edge ++ c :: rest).getLast?, edge d = false := by
    intro d member
    rw [List.getLast?_append_of_ne_nil _ filled] at member
    rw [Option.mem_def.mp member] at ends
    exact ends
  rw [trimChars, List.append_assoc, dropWhile_append_stop _ first, ← List.append_assoc, rdropWhile_append_stop last]

theorem dropWhile_dropWhile_of_imp {inner outer : Char → Bool} (covers : ∀ c, inner c = true → outer c = true) (text : List Char) :
    (text.dropWhile inner).dropWhile outer = text.dropWhile outer := by
  induction text with
  | nil => rfl
  | cons c text ih =>
    by_cases stops : inner c = true
    · rw [List.dropWhile_cons_of_pos stops, List.dropWhile_cons_of_pos (covers c stops), ih]
    · rw [List.dropWhile_cons_of_neg stops]

/-- Trimming takes no notice of what a narrower trimming has taken. -/
theorem trimChars_dropWhile {inner outer : Char → Bool} (covers : ∀ c, inner c = true → outer c = true) (text : List Char) :
    trimChars outer (text.dropWhile inner) = trimChars outer text := by
  rw [trimChars, dropWhile_dropWhile_of_imp covers, trimChars]

theorem trimChars_rdropWhile {inner outer : Char → Bool} (covers : ∀ c, inner c = true → outer c = true) (text : List Char) :
    trimChars outer (text.rdropWhile inner) = trimChars outer text := by
  have margin : ∀ c ∈ text.rtakeWhile inner, outer c = true := fun c member => covers c (List.mem_rtakeWhile_imp member)
  have whole : text.rdropWhile inner ++ text.rtakeWhile inner = text := List.rdropWhile_append_rtakeWhile
  have gone : (text.rtakeWhile inner).dropWhile outer = [] := List.dropWhile_eq_nil_iff.mpr margin
  have back : (text.rtakeWhile inner).reverse.dropWhile outer = [] :=
    List.dropWhile_eq_nil_iff.mpr fun c member => margin c (List.mem_reverse.mp member)
  conv_rhs => rw [← whole]
  rw [trimChars, trimChars, List.dropWhile_append, gone]
  split
  · rename_i empty
    rw [List.isEmpty_iff.mp empty]
  · conv_rhs => rw [List.rdropWhile, List.reverse_append, List.dropWhile_append, back]
    simp [List.rdropWhile]

end OpenTulpa.Library.Spaces
