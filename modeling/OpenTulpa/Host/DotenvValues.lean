import OpenTulpa.Host.Dotenv

/-! What the reader of a `.env` file makes of a value that was written into it: it comes back, and what was written for
it breaks into lines where the value does. -/

namespace OpenTulpa.Host.DotenvValues

open Library Library.Text Library.Spaces Library.Splitting Dotenv

section Values

def escapeChar (c : Char) : List Char :=
  if c = '\\' then ['\\', '\\']
  else if c = '"' then ['\\', '"']
  else if c = '\t' then ['\\', 't']
  else if c = '\r' then ['\\', 'r']
  else if c = '\n' then ['\\', 'n']
  else [c]

/-- No replacement touches what an earlier one has written. -/
theorem escaped_eq (value : List Char) : escaped value = value.flatMap escapeChar := by
  simp only [escaped, replaceChar, List.flatMap_assoc]
  refine List.flatMap_congr fun c _ => ?_
  rw [escapeChar]
  by_cases slash : c = '\\'
  · subst slash; rfl
  by_cases quote : c = '"'
  · subst quote; rfl
  by_cases tab : c = '\t'
  · subst tab; rfl
  by_cases feed : c = '\r'
  · subst feed; rfl
  by_cases line : c = '\n'
  · subst line; rfl
  simp [slash, quote, tab, feed, line]

theorem escaped_cons (c : Char) (value : List Char) : escaped (c :: value) = escapeChar c ++ escaped value := by
  rw [escaped_eq, escaped_eq, List.flatMap_cons]

/-- What stands for a character: itself, or two characters the first of which is a backslash. -/
theorem escapeChar_cases (c : Char) :
    escapeChar c = [c] ∧ c ≠ '\\' ∧ c ≠ '"' ∨ ∃ d, escapeChar c = ['\\', d] ∧ unescaped d = c := by
  rw [escapeChar]
  by_cases slash : c = '\\'
  · exact Or.inr ⟨'\\', by rw [if_pos slash], slash.symm⟩
  by_cases quote : c = '"'
  · exact Or.inr ⟨'"', by rw [if_neg slash, if_pos quote], quote.symm⟩
  rw [if_neg slash, if_neg quote]
  by_cases tab : c = '\t'
  · exact Or.inr ⟨'t', by rw [if_pos tab], tab.symm⟩
  by_cases feed : c = '\r'
  · exact Or.inr ⟨'r', by rw [if_neg tab, if_pos feed], feed.symm⟩
  by_cases line : c = '\n'
  · exact Or.inr ⟨'n', by rw [if_neg tab, if_neg feed, if_pos line], line.symm⟩
  exact Or.inl ⟨by rw [if_neg tab, if_neg feed, if_neg line], slash, quote⟩

theorem decodeFrom_escaped (value rest : List Char) :
    decodeFrom false (escaped value ++ rest) = (decodeFrom false rest).map (value ++ ·) := by
  induction value with
  | nil => simp [escaped, replaceChar]
  | cons c value ih =>
    rw [escaped_cons, List.append_assoc]
    rcases escapeChar_cases c with ⟨plain, slash, _⟩ | ⟨d, pair, named⟩
    · rw [plain, List.singleton_append, decodeFrom, if_neg slash, ih, Option.map_map]
      rfl
    · rw [pair, List.cons_append, List.singleton_append, decodeFrom, if_pos rfl, decodeFrom, ih, Option.map_map, named]
      rfl

/-- A quotation mark at the end of a part of an escaped text has its backslash in front of it. -/
theorem prefix_escaped_quote {value part : List Char} (stands : part ++ ['"'] <+: escaped value) :
    ∃ before, part = escaped before ++ ['\\'] := by
  induction value generalizing part with
  | nil => simp [escaped, replaceChar] at stands
  | cons c value ih =>
    rw [escaped_cons] at stands
    rcases escapeChar_cases c with ⟨plain, _, quote⟩ | ⟨d, pair, _⟩
    · rw [plain, List.singleton_append] at stands
      cases part with
      | nil => exact absurd (List.cons_prefix_cons.mp stands).1.symm quote
      | cons e part =>
        obtain ⟨rfl, later⟩ := List.cons_prefix_cons.mp stands
        obtain ⟨before, same⟩ := ih later
        exact ⟨e :: before, by rw [escaped_cons, plain, same]; simp⟩
    · rw [pair, List.cons_append, List.singleton_append] at stands
      match part, stands with
      | [], stands => exact absurd (List.cons_prefix_cons.mp stands).1 (by decide)
      | [e], stands =>
        obtain ⟨rfl, _⟩ := List.cons_prefix_cons.mp stands
        exact ⟨[], rfl⟩
      | e :: f :: part, stands =>
        obtain ⟨rfl, second⟩ := List.cons_prefix_cons.mp stands
        obtain ⟨rfl, later⟩ := List.cons_prefix_cons.mp second
        obtain ⟨before, same⟩ := ih later
        exact ⟨c :: before, by rw [escaped_cons, pair, same]; simp⟩

theorem isLineBreak_of_visible {c : Char} (visible : isSpace c = false) : isLineBreak c = false := by
  by_contra breaks
  rw [isSpace_of_isLineBreak (by simpa using breaks)] at visible
  cases visible

theorem visible_of_isRawChar {c : Char} (raw : isRawChar c = true) : isSpace c = false ∧ c ≠ '#' ∧ c ≠ '\'' ∧ c ≠ '"' := by
  rw [isRawChar, Bool.or_eq_true, decide_eq_true_eq] at raw
  rcases raw with alphanumeric | other
  · refine ⟨isSpace_of_isAlphanum alphanumeric, ?_, ?_, ?_⟩ <;> rintro rfl <;> cases alphanumeric
  · have all : ∀ c ∈ ['_', '.', '/', ':', '@', '%', '+', '=', ',', '-'],
        isSpace c = false ∧ c ≠ '#' ∧ c ≠ '\'' ∧ c ≠ '"' := by decide
    exact all c other

theorem isSpace_of_isWritableChar {c : Char} (writable : isWritableChar c = true) : isNameChar c = true ∧ isSpace c = false ∧ c ≠ '=' := by
  have named : isNameChar c = true := by
    simp only [isWritableChar, isNameChar, Characters.isAlphanum_eq, Characters.isAlpha_eq, Bool.or_eq_true] at writable ⊢
    rcases writable with (upper | digit) | under
    · exact Or.inl (Or.inl (Or.inl upper))
    · exact Or.inl (Or.inr digit)
    · exact Or.inr under
  refine ⟨named, ?_, ?_⟩
  · rw [isNameChar, Bool.or_eq_true, beq_iff_eq] at named
    rcases named with alphanumeric | rfl
    · exact isSpace_of_isAlphanum alphanumeric
    · decide
  · rintro rfl
    cases writable

theorem utf8Size_of_isWritableChar {c : Char} (writable : isWritableChar c = true) : c.utf8Size = 1 := by
  have small : c.toNat ≤ 127 := by
    have named := (isSpace_of_isWritableChar writable).1
    rw [isNameChar, Bool.or_eq_true, beq_iff_eq] at named
    rcases named with alphanumeric | rfl
    · exact (toNat_of_isAlphanum alphanumeric).2.trans (by decide)
    · decide
  rw [Char.utf8Size, if_pos]
  exact UInt32.le_iff_toNat_le.mpr small

theorem stripComment_raw {value : List Char} (raw : ∀ c ∈ value, isRawChar c = true) (before : Option Char) :
    stripCommentFrom before value = value := by
  induction value generalizing before with
  | nil => rfl
  | cons c value ih =>
    have apart := (visible_of_isRawChar (raw c List.mem_cons_self)).2.1
    rw [stripCommentFrom, if_neg (fun both => apart both.1), ih fun d member => raw d (List.mem_cons_of_mem _ member)]

theorem inside_ne {quote : Char} {text : List Char} (apart : text.head? ≠ some quote) : inside quote text = none := by
  rw [inside, if_neg fun all => apart all.2.1]

theorem inside_quoted (quote : Char) (text : List Char) : inside quote (quote :: text ++ [quote]) = some text := by
  rw [inside, if_pos ⟨by simp, rfl, by simp [List.getLast?_cons]⟩]
  simp

theorem stripChars_quoted (text : List Char) : stripChars ('"' :: text ++ ['"']) = '"' :: text ++ ['"'] := by
  refine trimChars_eq_self.mpr ⟨List.dropWhile_cons_of_neg (by decide), ?_⟩
  have stop : ¬ isSpace '"' = true := by decide
  exact List.rdropWhile_concat_neg isSpace ('"' :: text) '"' stop

/-- What is written for a text breaks where the text does, but not at LF and CR. -/
theorem oneLine_escaped {value : List Char} (oneLine : OneLine value) : OneLine (escaped value) := by
  rw [escaped_eq]
  intro d member
  obtain ⟨c, inside, here⟩ := List.mem_flatMap.mp member
  have plain := oneLine c inside
  rw [escapeChar] at here
  repeat' split at here
  all_goals simp only [List.mem_cons, List.not_mem_nil, or_false] at here
  all_goals first
    | (rcases here with rfl | rfl <;> decide)
    | exact here ▸ plain

theorem escapeChar_break {c : Char} (breaks : isLineBreak c = true) (newline : c ≠ '\n') (feed : c ≠ '\r') :
    escapeChar c = [c] := by
  have apart (d : Char) (plain : isLineBreak d = false) : c ≠ d := by
    rintro rfl
    rw [breaks] at plain
    cases plain
  rw [escapeChar, if_neg (apart '\\' (by decide)), if_neg (apart '"' (by decide))]
  by_cases tab : c = '\t'
  · subst tab; cases breaks
  rw [if_neg tab, if_neg feed, if_neg newline]

/-- Every written value is read as it was. -/
theorem parseDotenvValue_format (value : List Char) :
    parseDotenvValue (stripChars (formatDotenvValue value)) = .ok value := by
  rw [formatDotenvValue]
  split
  · rename_i raw
    have chars : ∀ c ∈ value, isRawChar c = true := List.all_eq_true.mp raw
    have stripped : stripChars value = value := trimChars_of_visible fun c member => (visible_of_isRawChar (chars c member)).1
    have head (quote : Char) (other : ∀ c, isRawChar c = true → c ≠ quote) : value.head? ≠ some quote := fun first =>
      other quote (chars quote (List.mem_of_head? first)) rfl
    have single := head '\'' fun c raw => (visible_of_isRawChar raw).2.2.1
    have double := head '"' fun c raw => (visible_of_isRawChar raw).2.2.2
    rw [stripped, parseDotenvValue, inside_ne single, inside_ne double]
    simp only [single, double, or_self, if_false, stripUnquotedComment, stripComment_raw chars, stripped]
  · have decoded : decodeFrom false (escaped value) = some value := by
      have whole := decodeFrom_escaped value []
      rwa [List.append_nil, decodeFrom, Option.map_some, List.append_nil] at whole
    rw [stripChars_quoted, parseDotenvValue, inside_ne (by simp), inside_quoted]
    simp only [decoded]

end Values

section Assignments

variable {name : List Char}

theorem writable_head (writable : isWritableEnvName name = true) :
    ∃ c rest, name = c :: rest ∧ c ≠ '#' ∧ c ≠ 'e' ∧ (c.isAlpha || c == '_') = true ∧ rest.length ≤ 127 := by
  cases name with
  | nil => cases writable
  | cons c rest =>
    simp only [isWritableEnvName, Bool.and_eq_true, decide_eq_true_eq] at writable
    obtain ⟨⟨head, _⟩, short⟩ := writable
    have letter : (c.isAlpha || c == '_') = true := by
      rw [Bool.or_eq_true] at head ⊢
      exact head.imp_left fun upper => by rw [Characters.isAlpha_eq, upper, Bool.true_or]
    refine ⟨c, rest, rfl, ?_, ?_, letter, short⟩ <;> rintro rfl <;> cases head

theorem writable_char (writable : isWritableEnvName name = true) : ∀ c ∈ name, isWritableChar c = true := by
  cases name with
  | nil => cases writable
  | cons c rest =>
    simp only [isWritableEnvName, Bool.and_eq_true, decide_eq_true_eq] at writable
    refine List.forall_mem_cons.mpr ⟨?_, List.all_eq_true.mp writable.1.2⟩
    have head := writable.1.1
    rw [Bool.or_eq_true] at head
    rw [isWritableChar, Bool.or_eq_true, Bool.or_eq_true]
    exact head.imp_left Or.inl

theorem writable_isEnvName (writable : isWritableEnvName name = true) : isEnvName name = true := by
  obtain ⟨c, rest, rfl, _, _, letter, short⟩ := writable_head writable
  have chars := writable_char writable
  have all : rest.all isNameChar = true :=
    List.all_eq_true.mpr fun d member => (isSpace_of_isWritableChar (chars d (List.mem_cons_of_mem _ member))).1
  rw [isEnvName, letter, all]
  simpa using short

/-- The assignment is stripped at the end of its value only. -/
theorem stripChars_assignment (writable : isWritableEnvName name = true) (text : List Char) :
    stripChars (name ++ '=' :: text) = name ++ '=' :: rstrip text := by
  obtain ⟨c, rest, rfl, _⟩ := writable_head writable
  have visible := (isSpace_of_isWritableChar (writable_char writable c List.mem_cons_self)).2.1
  have whole : c :: rest ++ '=' :: text = (c :: rest ++ ['=']) ++ text := by simp
  have ends : ∀ d ∈ (c :: rest ++ ['=']).getLast?, isSpace d = false := by
    intro d member
    obtain rfl : '=' = d := by simpa [List.getLast?_cons] using member
    decide
  rw [stripChars, List.cons_append, List.dropWhile_cons_of_neg (by simp [visible]), ← List.cons_append, whole,
    rdropWhile_append_stop ends, ← rstrip]
  simp

theorem cut_assignment (writable : isWritableEnvName name = true) (text : List Char) :
    cut ['='] (withoutExport (name ++ '=' :: text)) = some (name, text) := by
  obtain ⟨c, rest, same, _, other, _⟩ := writable_head writable
  have kept : withoutExport (name ++ '=' :: text) = name ++ '=' :: text := by
    rw [withoutExport, if_neg]
    intro stands
    obtain ⟨tail, whole⟩ := List.isPrefixOf_iff_prefix.mp stands
    rw [same] at whole
    exact other (List.cons.inj whole).1.symm
  have free : Free ['='] name := by
    intro occurs
    obtain ⟨front, back, whole⟩ := occurs
    have member : '=' ∈ name := by
      have inside : '=' ∈ name ++ ['='].dropLast := by rw [← whole]; simp
      simpa using inside
    exact (isSpace_of_isWritableChar (writable_char writable _ member)).2.2 rfl
  have whole := cut_append (List.cons_ne_nil '=' []) free text
  rwa [List.append_assoc, List.singleton_append, ← kept] at whole

theorem stripChars_name (writable : isWritableEnvName name = true) : stripChars name = name :=
  trimChars_of_visible fun c member => (isSpace_of_isWritableChar (writable_char writable c member)).2.1

theorem assignment_listed (writable : isWritableEnvName name = true) (text : List Char) :
    ((name ++ text).isEmpty || (name ++ text).head? == some '#') = false := by
  obtain ⟨c, rest, rfl, comment, _⟩ := writable_head writable
  simpa using comment

theorem parseLine_assignment (writable : isWritableEnvName name = true) (text : List Char) :
    parseLine (name ++ '=' :: text) = match parseDotenvValue (stripChars text) with
      | .error problem => .error problem
      | .ok value =>
        if '\x00' ∈ value ∨ dotenvMaxValueBytes < Json.encodedSize value then .error .value else .ok (some (name, value)) := by
  have trimmed : stripChars (rstrip text) = stripChars text := trimChars_rdropWhile (fun _ => id) text
  cases parsed : parseDotenvValue (stripChars text) <;>
    simp only [parseLine, stripChars_assignment writable, assignment_listed writable, Bool.false_eq_true, if_false,
      cut_assignment writable, stripChars_name writable, writable_isEnvName writable, if_true, trimmed, parsed]

theorem dotenvLineKey_assignment (writable : isWritableEnvName name = true) (text : List Char) :
    dotenvLineKey (name ++ '=' :: text) = some name := by
  simp only [dotenvLineKey, stripChars_assignment writable, assignment_listed writable, Bool.false_eq_true, if_false,
    cut_assignment writable, stripChars_name writable, writable_isEnvName writable, if_true]

/-- What the validator lets through. -/
structure Accepted (value : List Char) : Prop where
  zero : '\x00' ∉ value
  newline : '\n' ∉ value
  feed : '\r' ∉ value
  short : Json.encodedSize value ≤ dotenvMaxValueBytes

theorem accepted_of_validate {given value : List Char} (valid : validateValue given = .ok value) :
    given = value ∧ Accepted value := by
  rw [validateValue] at valid
  split at valid
  · cases valid
  · rename_i allowed
    split at valid
    · cases valid
    · obtain rfl := Except.ok.inj valid
      simp only [not_or, not_lt] at allowed
      exact ⟨rfl, allowed.1, allowed.2.1, allowed.2.2.1, allowed.2.2.2⟩

theorem writable_of_validate {given : List Char} (valid : validateWritableName given = .ok name) :
    isWritableEnvName name = true := by
  rw [validateWritableName] at valid
  split at valid
  · cases valid
  · rename_i writable
    split at valid
    · cases valid
    · obtain rfl := Except.ok.inj valid
      simpa using writable

theorem parseLine_entry (writable : isWritableEnvName name = true) {value : List Char} (accepted : Accepted value) :
    parseLine (entryLine name value) = .ok (some (name, value)) := by
  rw [entryLine, parseLine_assignment writable, parseDotenvValue_format]
  exact if_neg fun wrong => wrong.elim accepted.zero (Nat.not_lt_of_le accepted.short)

/-- A value that is cut off inside its quotation marks is not accepted. -/
theorem parseDotenvValue_cut (value : List Char) : ∃ problem, parseDotenvValue (stripChars ('"' :: escaped value)) = .error problem := by
  obtain ⟨rest, trimmed⟩ := rstrip_cons (show isSpace '"' = false by decide) (escaped value)
  have same : stripChars ('"' :: escaped value) = '"' :: rest := by
    rw [stripChars, List.dropWhile_cons_of_neg (by decide), ← rstrip, trimmed]
  have part : rest <+: escaped value := by
    have whole := List.rdropWhile_prefix isSpace (l := '"' :: escaped value)
    rw [← rstrip, trimmed] at whole
    exact (List.cons_prefix_cons.mp whole).2
  rw [same, parseDotenvValue, inside_ne (by simp)]
  cases quoted : inside '"' ('"' :: rest) with
  | none => exact ⟨.unterminated, by simp⟩
  | some content =>
    rw [inside] at quoted
    split at quoted
    · rename_i ends
      obtain rfl : rest.dropLast = content := Option.some.inj quoted
      have last : rest.getLast? = some '"' := by
        have filled : rest ≠ [] := fun empty => by simp [empty] at ends
        rw [← ends.2.2, List.getLast?_cons]
        simp [List.getLast?_eq_getLast_of_ne_nil filled]
      rw [← List.dropLast_append_getLast? '"' last] at part
      obtain ⟨before, written⟩ := prefix_escaped_quote part
      refine ⟨.escape, ?_⟩
      simp only [written, decodeFrom_escaped]
      rfl
    · cases quoted

theorem oneLine_entryLine (writable : isWritableEnvName name = true) {value : List Char} (oneLine : OneLine value) :
    OneLine (entryLine name value) := by
  have named : ∀ c ∈ name, isLineBreak c = false := fun c member =>
    isLineBreak_of_visible (isSpace_of_isWritableChar (writable_char writable c member)).2.1
  have formatted : OneLine (formatDotenvValue value) := by
    rw [formatDotenvValue]
    split
    · exact oneLine
    · refine List.forall_mem_cons.mpr ⟨rfl, fun c member => ?_⟩
      rcases List.mem_append.mp member with inside | inside
      · exact oneLine_escaped oneLine c inside
      · rw [List.mem_singleton.mp inside]
        rfl
  intro c member
  rcases List.mem_append.mp member with inside | inside
  · exact named c inside
  · have behind : OneLine ('=' :: formatDotenvValue value) := List.forall_mem_cons.mpr ⟨rfl, formatted⟩
    exact behind c inside

end Assignments

end OpenTulpa.Host.DotenvValues
