import Mathlib.Data.List.DropRight

/-! Text as the standard library of the source language treats it: trimming of
white space at both ends, lower case of the ASCII letters, and character classes. -/

namespace OpenTulpa.Library.Text

/-- A JSON object column, as its keys with the texts of their values. -/
abbrev JsonObject := List (String × String)

/-- The characters that `str.isspace` accepts. -/
def isSpace (c : Char) : Bool :=
  let n := c.toNat
  (9 ≤ n && n ≤ 13) || (28 ≤ n && n ≤ 32) || n == 0x85 || n == 0xA0 || n == 0x1680 ||
    (0x2000 ≤ n && n ≤ 0x200A) || n == 0x2028 || n == 0x2029 || n == 0x202F ||
    n == 0x205F || n == 0x3000

/-- A property of each character of a text is decided on the text, not on the whole alphabet. -/
instance (priority := 2000) decidableForallMem (text : List Char) (holds : Char → Prop) [DecidablePred holds] :
    Decidable (∀ c ∈ text, holds c) := List.decidableBAll holds text

def stripChars (text : List Char) : List Char :=
  (text.dropWhile isSpace).rdropWhile isSpace

/-- `str.strip` -/
def strip (text : String) : String := String.ofList (stripChars text.toList)

def isLowerHex (c : Char) : Bool := ('0' ≤ c && c ≤ '9') || ('a' ≤ c && c ≤ 'f')

/-- `str.lower` on the characters that a hexadecimal pattern can still accept afterwards. -/
def lower (text : String) : String := String.ofList (text.toList.map Char.toLower)

/-- Whatever is white space to `space` is dropped at both ends. -/
def trimChars (space : Char → Bool) (text : List Char) : List Char := (text.dropWhile space).rdropWhile space

/-- The characters of the Unicode property `White_Space`, which some validators trim instead. -/
def isWhite (c : Char) : Bool := isSpace c && !(28 ≤ c.toNat && c.toNat ≤ 31)

def trim (text : String) : String := String.ofList (trimChars isWhite text.toList)

/-- `text[-limit:]` for a positive limit. -/
def tail (limit : Nat) (text : String) : String := String.ofList (text.toList.rtake limit)

theorem rtake_rtake_append {α : Type*} (limit : Nat) (first second : List α) :
    ((first.rtake limit) ++ second).rtake limit = (first ++ second).rtake limit := by
  simp only [List.rtake_eq_reverse_take_reverse, List.reverse_append, List.reverse_reverse, List.take_append,
    List.take_take]
  rw [Nat.min_eq_left (Nat.sub_le limit second.reverse.length)]

/-- Cutting a text to its end before it grows is cutting it afterwards. -/
theorem tail_tail_append (limit : Nat) (first second : String) :
    tail limit (tail limit first ++ second) = tail limit (first ++ second) := by
  simp only [tail, String.toList_append, String.toList_ofList, rtake_rtake_append]

theorem tail_tail (limit : Nat) (text : String) : tail limit (tail limit text) = tail limit text := by
  have grown := tail_tail_append limit text ""
  simpa using grown

theorem toString_injective {first second : Nat} (same : toString first = toString second) : first = second := by
  have digits : Nat.toDigits 10 first = Nat.toDigits 10 second := by
    have texts : String.ofList (Nat.toDigits 10 first) = String.ofList (Nat.toDigits 10 second) := same
    simpa using congrArg String.toList texts
  rw [← Nat.ofDigitChars_toDigits (n := first) (b := 10) (by decide) (by decide), digits,
    Nat.ofDigitChars_toDigits (by decide) (by decide)]

private theorem dropWhile_rdropWhile_of_head {space : Char → Bool} {text : List Char}
    (head : ∀ c ∈ text.head?, space c = false) :
    (text.rdropWhile space).dropWhile space = text.rdropWhile space := by
  cases text with
  | nil => simp
  | cons c text =>
    have visible : space c = false := head c (by simp)
    have nonempty : (c :: text).rdropWhile space ≠ [] := by
      intro empty
      have all := List.rdropWhile_eq_nil_iff.mp empty c (by simp)
      simp [visible] at all
    obtain ⟨rest, split⟩ := List.rdropWhile_prefix space (l := c :: text)
    cases trimmed : (c :: text).rdropWhile space with
    | nil => exact absurd trimmed nonempty
    | cons d kept =>
      rw [trimmed] at split
      simp only [List.cons_append, List.cons.injEq] at split
      simp [split.1, visible]

theorem trimChars_idem (space : Char → Bool) (text : List Char) :
    trimChars space (trimChars space text) = trimChars space text := by
  have head : ∀ c ∈ (text.dropWhile space).head?, space c = false := by
    intro c first
    by_contra white
    have shown := List.head?_dropWhile_not space text
    rw [Option.mem_def.mp first] at shown
    simp [white] at shown
  simp only [trimChars]
  rw [dropWhile_rdropWhile_of_head head, List.rdropWhile_idempotent]

theorem stripChars_idem (text : List Char) : stripChars (stripChars text) = stripChars text :=
  trimChars_idem isSpace text

@[simp] theorem trim_trim (text : String) : trim (trim text) = trim text := by
  simp [trim, trimChars_idem]

@[simp] theorem strip_strip (text : String) : strip (strip text) = strip text := by
  simp [strip, stripChars_idem]

theorem trimChars_eq_self {space : Char → Bool} {text : List Char} :
    trimChars space text = text ↔ text.dropWhile space = text ∧ text.rdropWhile space = text := by
  constructor
  · intro same
    have front : text.dropWhile space = text := by
      have shorter := (List.rdropWhile_prefix space (l := text.dropWhile space)).length_le
      rw [show (text.dropWhile space).rdropWhile space = text from same] at shorter
      exact (List.dropWhile_suffix space).eq_of_length_le shorter
    refine ⟨front, ?_⟩
    rw [trimChars, front] at same
    exact same
  · rintro ⟨front, back⟩
    rw [trimChars, front, back]

theorem trimChars_of_visible {space : Char → Bool} {text : List Char} (visible : ∀ c ∈ text, space c = false) :
    trimChars space text = text := by
  refine trimChars_eq_self.mpr ⟨?_, ?_⟩
  · rw [List.dropWhile_eq_self_iff]
    intro nonempty
    simpa using visible _ (List.getElem_mem nonempty)
  · rw [List.rdropWhile_eq_self_iff]
    intro nonempty
    simpa using visible _ (List.getLast_mem nonempty)

/-- What `str.strip` leaves alone, the other trimming does too. -/
theorem trim_of_strip {text : String} (stripped : strip text = text) : trim text = text := by
  have chars : trimChars isSpace text.toList = text.toList := by
    have same := congrArg String.toList stripped
    simpa [strip, stripChars, trimChars] using same
  have visible : ∀ c, isSpace c = false → isWhite c = false := by
    intro c shown
    simp [isWhite, shown]
  obtain ⟨front, back⟩ := trimChars_eq_self.mp chars
  have kept : trimChars isWhite text.toList = text.toList := by
    refine trimChars_eq_self.mpr ⟨?_, ?_⟩
    · rw [List.dropWhile_eq_self_iff] at front ⊢
      intro nonempty
      simpa using visible _ (by simpa using front nonempty)
    · rw [List.rdropWhile_eq_self_iff] at back ⊢
      intro nonempty
      simpa using visible _ (by simpa using back nonempty)
  rw [trim, kept, String.ofList_toList]

theorem strip_of_ends {text : String} (nonempty : text.toList ≠ [])
    (head : isSpace (text.toList.head nonempty) = false) (last : isSpace (text.toList.getLast nonempty) = false) :
    strip text = text := by
  have front : text.toList.dropWhile isSpace = text.toList := by
    rw [List.dropWhile_eq_self_iff]
    intro _
    simpa [List.head_eq_getElem] using head
  have back : text.toList.rdropWhile isSpace = text.toList :=
    List.rdropWhile_eq_self_iff.mpr fun _ => by simpa using last
  rw [strip, stripChars, front, back, String.ofList_toList]

theorem isSpace_of_isDigit {c : Char} (digit : c.isDigit = true) : isSpace c = false := by
  have bounds := Char.isDigit_iff_toNat.mp digit
  have low : ('0' : Char).toNat = 48 := rfl
  have high : ('9' : Char).toNat = 57 := rfl
  simp only [isSpace, Bool.or_eq_false_iff, Bool.and_eq_false_iff, decide_eq_false_iff_not, beq_eq_false_iff_ne]
  omega

theorem dropWhile_append_visible {space : Char → Bool} {front rest : List Char} {c : Char} (visible : space c = false) :
    ∃ kept, (front ++ c :: rest).dropWhile space = kept ++ c :: rest := by
  refine ⟨front.dropWhile space, ?_⟩
  rw [List.dropWhile_append]
  cases dropped : front.dropWhile space with
  | nil => simp [visible]
  | cons d kept => simp

theorem stripChars_ends {text : List Char} (stripped : stripChars text = text) :
    (∀ c ∈ text.head?, isSpace c = false) ∧ ∀ c ∈ text.getLast?, isSpace c = false := by
  obtain ⟨front, back⟩ := trimChars_eq_self.mp stripped
  constructor
  · intro c first
    cases text with
    | nil => cases first
    | cons d rest =>
      obtain rfl : d = c := by simpa using first
      by_contra white
      have shorter := congrArg List.length front
      rw [List.dropWhile_cons_of_pos (by simpa using white)] at shorter
      have bound := (List.dropWhile_suffix isSpace (l := rest)).length_le
      simp at shorter
      omega
  · intro c last
    rw [List.rdropWhile_eq_self_iff] at back
    have nonempty : text ≠ [] := by
      rintro rfl
      cases last
    rw [List.getLast?_eq_getLast_of_ne_nil nonempty] at last
    obtain rfl := Option.some.inj last
    simpa using back nonempty

/-- A text without white space at its ends survives the stripping of a text that it is part of. -/
theorem infix_stripChars {part text : List Char} (stripped : stripChars part = part) (inside : part <:+: text) :
    part <:+: stripChars text := by
  obtain ⟨before, after, rfl⟩ := inside
  obtain ⟨first, last⟩ := stripChars_ends stripped
  rcases List.eq_nil_or_concat part with rfl | ⟨start, d, rfl⟩
  · exact List.nil_infix
  have shownLast : isSpace d = false := last d (by simp)
  cases whole : start ++ [d] with
  | nil => simp at whole
  | cons c rest =>
    have shownFirst : isSpace c = false := first c (by rw [List.concat_eq_append, whole]; rfl)
    obtain ⟨kept, front⟩ : ∃ kept, (before ++ c :: (rest ++ after)).dropWhile isSpace = kept ++ c :: (rest ++ after) :=
      dropWhile_append_visible shownFirst
    have regroup : before ++ (start ++ [d]) ++ after = before ++ c :: (rest ++ after) := by rw [whole]; simp
    have again : kept ++ c :: (rest ++ after) = (kept ++ start) ++ d :: after := by
      rw [← List.cons_append, ← whole]
      simp
    obtain ⟨tail, back⟩ : ∃ tail, (after.reverse ++ d :: (kept ++ start).reverse).dropWhile isSpace =
        tail ++ d :: (kept ++ start).reverse := dropWhile_append_visible shownLast
    refine ⟨kept, tail.reverse, ?_⟩
    rw [List.concat_eq_append, stripChars, regroup, front, again, List.rdropWhile, List.reverse_append, List.reverse_cons]
    rw [List.append_assoc after.reverse, List.singleton_append, back]
    simp

theorem strip_within {part text : String} (stripped : strip part = part) (inside : part.toList <:+: text.toList) :
    part.toList <:+: (strip text).toList := by
  have chars : stripChars part.toList = part.toList := by
    simpa [strip] using congrArg String.toList stripped
  rw [strip, String.toList_ofList]
  exact infix_stripChars chars inside

theorem takeWhile_append_stop {keep : Char → Bool} {front rest : List Char} (stop : ∀ c ∈ rest.head?, keep c = false) :
    (front ++ rest).takeWhile keep = front.takeWhile keep := by
  have none : rest.takeWhile keep = [] := by
    cases rest with
    | nil => rfl
    | cons c rest => simp [stop c (by simp)]
  rw [List.takeWhile_append, none, List.append_nil]
  split
  · rename_i whole
    exact ((List.takeWhile_prefix keep).eq_of_length whole).symm
  · rfl

/-- The first word of a text is not touched by what is stripped behind it. -/
theorem takeWhile_stripChars (text : List Char) :
    (stripChars text).takeWhile (fun c => !isSpace c) = (text.dropWhile isSpace).takeWhile fun c => !isSpace c := by
  have split : (text.dropWhile isSpace).rdropWhile isSpace ++ (text.dropWhile isSpace).rtakeWhile isSpace =
      text.dropWhile isSpace := List.rdropWhile_append_rtakeWhile
  rw [stripChars]
  conv_rhs => rw [← split]
  refine (takeWhile_append_stop ?_).symm
  intro c first
  have white := List.mem_rtakeWhile_imp (List.mem_of_head? first)
  simp [white]

theorem dropWhile_stripChars (text : List Char) : (stripChars text).dropWhile isSpace = stripChars text :=
  (trimChars_eq_self.mp (stripChars_idem text)).1

end OpenTulpa.Library.Text
