import OpenTulpa.Library.RegexLanguage
import OpenTulpa.Library.Spaces
import OpenTulpa.Library.Splitting

/-! The redaction of what is logged or shown: secrets that a text names are replaced by a marker, data URLs by their fronts, and
what is too long is cut. Each expression matches a text exactly where a cue stands in it. -/

namespace OpenTulpa.DeepAgent.LangfuseRedaction

open Library Text Spaces Splice Splitting Regex

section Expressions

/-- `\w`, of which ASCII, the letters that `IGNORECASE` relates to ASCII, and white space are told. -/
structure WordChars where
  isWord : Char → Bool
  ascii : ∀ c, c.toNat < 128 → isWord c = (c.isAlphanum || c == '_')
  letters : ∀ c, isLetterIgnoringCase c = true → isWord c = true
  space : ∀ c, isSpace c = true → isWord c = false

variable (words : WordChars)

/-- `\b` -/
def boundary : Pattern := .assert fun previous rest => (previous.any words.isWord) != (rest.head?.any words.isWord)

def isChar (c : Char) : Char → Bool := (· == c)

/-- `[\w.-]` -/
def isNamePart (c : Char) : Bool := words.isWord c || c == '.' || c == '-'

/-- `[^\r\n"']` -/
def inLine (c : Char) : Bool := c != '\r' && c != '\n' && c != '"' && c != '\''

/-- ``[^\s"'`,;]`` -/
def inToken (c : Char) : Bool := !isSpace c && c != '"' && c != '\'' && c.toNat != 96 && c != ',' && c != ';'

/-- `[^\s,;&]` -/
def inValue (c : Char) : Bool := !isSpace c && c != ',' && c != ';' && c != '&'

def quotedBy (quote : Char) : Pattern :=
  ofList [.char (isChar quote), star fun c => c != quote && c != '\r' && c != '\n', .char (isChar quote)]

def secretText : Pattern := alternatives [quotedBy '"', quotedBy '\'', plus inValue]

def keyword : Pattern := alternatives [
  ofList [literalIgnoringCase "api", optional (.char fun c => c == '_' || c == '-'), literalIgnoringCase "key"],
  literalIgnoringCase "secret", literalIgnoringCase "token", literalIgnoringCase "password", literalIgnoringCase "passwd"]

/-- An expression with what it keeps, the group 1, and what it redacts. -/
structure Inline where
  lead : Pattern
  secret : Pattern

def Inline.regex (inline : Inline) : Pattern := .seq (.group "1" inline.lead) inline.secret

/-- `_INLINE_AUTHORIZATION_RE` -/
def inlineAuthorization : Inline :=
  ⟨ofList [boundary words, literalIgnoringCase "authorization", boundary words, star isSpace, .char (isChar ':'), star isSpace],
    plus inLine⟩

/-- `_INLINE_COOKIE_RE` -/
def inlineCookie : Inline :=
  ⟨ofList [boundary words, alternatives [literalIgnoringCase "cookie", literalIgnoringCase "set-cookie"], boundary words,
    star isSpace, .char (isChar ':'), star isSpace], plus inLine⟩

/-- `_INLINE_BEARER_RE` -/
def inlineBearer : Inline := ⟨ofList [boundary words, literalIgnoringCase "bearer", plus isSpace], plus inToken⟩

/-- `_INLINE_SECRET_ASSIGNMENT_RE` -/
def inlineSecretAssignment : Inline :=
  ⟨ofList [boundary words, star (isNamePart words), keyword, star (isNamePart words), star isSpace,
    .char fun c => c == '=' || c == ':', star isSpace], secretText⟩

/-- `_INLINE_SECRET_VALUE_RE` -/
def inlineSecretValue : Inline :=
  ⟨ofList [boundary words, keyword, boundary words, plus isSpace,
    optional (ofList [alternatives [literalIgnoringCase "is", literalIgnoringCase "was"], plus isSpace]),
    optional (ofList [.char fun c => c == '-' || c == '=' || c == ':' || c == '.', star isSpace])], secretText⟩

/-- `[A-Z0-9 ]` -/
def inLabel (c : Char) : Bool := c.isUpper || c.isDigit || c == ' '

/-- `_PRIVATE_KEY_BLOCK_RE` -/
def privateKeyBlock : Pattern := ofList [literal "-----BEGIN ", star inLabel, literal "PRIVATE KEY-----", shortest,
  literal "-----END ", star inLabel, literal "PRIVATE KEY-----"]

/-- `_SECRET_KEY_RE` -/
def secretKey : Pattern := alternatives [literalIgnoringCase "authorization",
  ofList [literalIgnoringCase "api", optional (.char fun c => c == '_' || c == '-'), literalIgnoringCase "key"],
  literalIgnoringCase "secret", literalIgnoringCase "token", literalIgnoringCase "password", literalIgnoringCase "passwd",
  literalIgnoringCase "cookie", literalIgnoringCase "set-cookie", literalIgnoringCase "bearer"]

end Expressions

section Redaction

variable (words : WordChars)

def marker : List Char := "[redacted]".toList

def maxStringChars : Nat := 12000

/-- `text.lower().startswith("data:")` -/
def isData (text : List Char) : Bool := (text.take 5).map Char.toLower = "data:".toList

/-- The front of a data URL, up to its payload -/
def redactData (text : List Char) : List Char :=
  let base64 := ";base64,".toList
  if base64 <:+: text then (split base64 text).headD [] ++ base64 ++ marker else (split [','] text).headD [] ++ ',' :: marker

/-- `\1[redacted]` -/
def keepLead (text : List Char) (groups : Groups) : List Char :=
  ((groups.span "1").map fun span => slice text span.1 span.2).getD [] ++ marker

def Inline.redact (inline : Inline) (text : List Char) : List Char := sub inline.regex (keepLead text) text

def inlines : List Inline :=
  [inlineAuthorization words, inlineCookie words, inlineBearer words, inlineSecretAssignment words, inlineSecretValue words]

def redactInlines (inlines : List Inline) (text : List Char) : List Char :=
  inlines.foldl (fun text inline => inline.redact text) text

def redactBlocks (text : List Char) : List Char := sub privateKeyBlock (fun _ => "[redacted-private-key]".toList) text

def truncated (text : List Char) : List Char :=
  if maxStringChars < text.length then
    text.take maxStringChars ++ ("...[truncated " ++ toString (text.length - maxStringChars) ++ " chars]").toList
  else text

/-- `_redact_string` -/
def redactString (text : List Char) : List Char :=
  if isData text then redactData text else truncated (redactBlocks (redactInlines (inlines words) text))

/-- `redact_for_langfuse` of a dictionary of texts -/
def redactForLangfuse (data : List (String × List Char)) : List (String × List Char) :=
  let audio := stripChars ((data.lookup "type").getD []) = "input_audio".toList ∧ (data.lookup "data").isSome
  let data := if audio then data.map fun field => if field.1 = "data" then ("data", "[redacted-inline-media]".toList) else field
    else data
  data.map fun field => (field.1, if (search secretKey field.1.toList).isSome then marker else redactString words field.2)

/-- `_public_text` -/
def publicText (text : List Char) : List Char := redactString words text

end Redaction

section Cues

variable (words : WordChars)

/-- What makes an expression match: a text with what the expression keeps of it, and the first character of what it redacts. -/
structure Cue where
  front : Pattern
  tail : Char → Bool

def Cue.pattern (cue : Cue) : Pattern := .seq cue.front (.char cue.tail)

/-- `authorization`, a colon, and a character of the line that is no quote -/
def authorizationCue : Cue :=
  ⟨ofList [literalIgnoringCase "authorization", star isSpace, .char (isChar ':'), star isSpace], inLine⟩

def cookieCue : Cue := ⟨ofList [literalIgnoringCase "cookie", star isSpace, .char (isChar ':'), star isSpace], inLine⟩

/-- `bearer`, white space, and a character that is neither a quote nor a separator -/
def bearerCue : Cue := ⟨ofList [literalIgnoringCase "bearer", plus isSpace], inToken⟩

/-- A name with a keyword at its front, an equals sign or a colon, and a character that is no separator -/
def assignmentCue : Cue :=
  ⟨ofList [keyword, star (isNamePart words), star isSpace, .char fun c => c == '=' || c == ':', star isSpace], inValue⟩

/-- A keyword, white space, and a character that is no separator -/
def valueCue : Cue := ⟨ofList [keyword, plus isSpace], inValue⟩

/-- An expression matches where its cue stands, and nowhere else. -/
structure Cued (inline : Inline) (cue : Cue) : Prop where
  leadPlain : inline.lead.plain = true
  secretPlain : inline.secret.plain = true
  filled : [] ∉ inline.secret.language
  found : ∀ first ∈ inline.lead.language, ∀ second ∈ inline.secret.language, ∃ piece ∈ cue.pattern.language,
    piece <:+: first ++ second
  long : 1 ≤ cue.front.least
  bracket : cue.front.rejects '[' = true
  fires : ∀ piece ∈ cue.pattern.language, run piece inline.regex ⟨none, piece, 0⟩ [] conclude ≠ none

theorem Cue.mem_pattern {cue : Cue} {piece : List Char} :
    piece ∈ cue.pattern.language ↔ ∃ word ∈ cue.front.language, ∃ c, cue.tail c = true ∧ piece = word ++ [c] := by
  constructor
  · intro member
    obtain ⟨word, inFront, _, ⟨c, ends, rfl⟩, rfl⟩ := Language.mem_mul.mp member
    exact ⟨word, inFront, c, ends, rfl⟩
  · rintro ⟨word, inFront, c, ends, rfl⟩
    exact Language.mem_mul.mpr ⟨word, inFront, [c], ⟨c, ends, rfl⟩, rfl⟩

/-- A cue stands where what is kept ends with its front and what is redacted begins with its tail. -/
theorem Cue.stands {cue : Cue} (before : List Char) {word second : List Char} (inFront : word ∈ cue.front.language)
    (begins : ∃ c ∈ second.head?, cue.tail c = true) : ∃ piece ∈ cue.pattern.language, piece <:+: before ++ word ++ second := by
  obtain ⟨c, member, ends⟩ := begins
  cases second with
  | nil => cases member
  | cons d more =>
    obtain rfl : d = c := Option.some.inj member
    exact ⟨word ++ [d], Cue.mem_pattern.mpr ⟨word, inFront, d, ends, rfl⟩, before, more, by simp⟩

section Secrets

theorem begins_plus {accepts : Char → Bool} {word : List Char} (member : word ∈ (plus accepts).language) :
    ∃ c ∈ word.head?, accepts c = true := by
  obtain ⟨filled, all⟩ := mem_plus.mp member
  obtain ⟨c, rest, rfl⟩ := List.exists_cons_of_ne_nil filled
  exact ⟨c, rfl, all c List.mem_cons_self⟩

theorem mem_quotedBy {quote : Char} {word : List Char} (member : word ∈ (quotedBy quote).language) :
    ∃ body, word = quote :: (body ++ [quote]) := by
  obtain ⟨before, ⟨_, ⟨c, opened, rfl⟩, body, -, rfl⟩, _, ⟨d, closed, rfl⟩, rfl⟩ := member
  obtain rfl : c = quote := beq_iff_eq.mp opened
  obtain rfl : d = c := beq_iff_eq.mp closed
  exact ⟨body, rfl⟩

theorem begins_secretText {word : List Char} (member : word ∈ secretText.language) : ∃ c ∈ word.head?, inValue c = true := by
  rcases member with (quoted | quoted) | plain
  · obtain ⟨body, rfl⟩ := mem_quotedBy quoted
    exact ⟨'"', rfl, by decide⟩
  · obtain ⟨body, rfl⟩ := mem_quotedBy quoted
    exact ⟨'\'', rfl, by decide⟩
  · exact begins_plus plain

end Secrets

section Keywords

/-- Every text of the expression begins and ends with a word character. -/
def Spelled (pattern : Pattern) : Prop :=
  ∀ word ∈ pattern.language, word.head?.any words.isWord = true ∧ word.getLast?.any words.isWord = true

variable {words}

theorem isLetter_of_same {c d : Char} (lower : c.isLower = true) (same : sameIgnoringCase c d = true) :
    isLetterIgnoringCase d = true := by
  have own : d.toLower = c.toLower → d.isAlpha = true := by
    intro lowered
    rw [Characters.toLower_of_not_isUpper (Characters.not_isUpper_of_isLower lower)] at lowered
    rw [Characters.isAlpha_eq, Bool.or_eq_true]
    by_cases upper : d.isUpper = true
    · exact Or.inl upper
    · rw [Characters.toLower_of_not_isUpper upper] at lowered
      exact Or.inr (lowered ▸ lower)
  simp only [sameIgnoringCase, Bool.or_eq_true, Bool.and_eq_true, beq_iff_eq] at same
  simp only [isLetterIgnoringCase, Bool.or_eq_true, beq_iff_eq]
  rcases same with ((lowered | ⟨-, dotted | dotless⟩) | ⟨-, long⟩) | ⟨-, kelvin⟩
  · exact Or.inl (Or.inl (Or.inl (Or.inl (own lowered))))
  · exact Or.inl (Or.inl (Or.inl (Or.inr dotted)))
  · exact Or.inl (Or.inl (Or.inr dotless))
  · exact Or.inl (Or.inr long)
  · exact Or.inr kelvin

theorem letters_of_literal {text : String} (lower : ∀ c ∈ text.toList, c.isLower = true) {word : List Char}
    (member : word ∈ (literalIgnoringCase text).language) : ∀ c ∈ word, isLetterIgnoringCase c = true := by
  have pairs := mem_literalIgnoringCase.mp member
  clear member
  generalize text.toList = known at lower pairs
  induction pairs with
  | nil => exact nofun
  | cons same pairs ih =>
    obtain ⟨own, others⟩ := List.forall_mem_cons.mp lower
    exact List.forall_mem_cons.mpr ⟨isLetter_of_same own same, ih others⟩

theorem spelled_literal {text : String} (lower : ∀ c ∈ text.toList, c.isLower = true)
    (filled : 1 ≤ (literalIgnoringCase text).least) : Spelled words (literalIgnoringCase text) := by
  intro word member
  have letters := letters_of_literal lower member
  have nonempty : word ≠ [] := List.ne_nil_of_length_pos (filled.trans (least_le_length member))
  rw [List.head?_eq_some_head nonempty, List.getLast?_eq_some_getLast nonempty]
  exact ⟨words.letters _ (letters _ (List.head_mem nonempty)), words.letters _ (letters _ (List.getLast_mem nonempty))⟩

theorem spelled_either {first second : Pattern} (left : Spelled words first) (right : Spelled words second) :
    Spelled words (.either first second) :=
  fun word member => member.elim (left word) (right word)

theorem spelled_between {first middle last : Pattern} (begins : Spelled words first) (ends : Spelled words last) :
    Spelled words (.seq (.seq first middle) last) := by
  rintro _ ⟨_, ⟨one, inFirst, two, -, rfl⟩, three, inLast, rfl⟩
  have head := (begins one inFirst).1
  have last := (ends three inLast).2
  cases one with
  | nil => cases head
  | cons c one =>
    refine ⟨head, ?_⟩
    cases three using List.reverseRecOn with
    | nil => cases last
    | append_singleton three d =>
      rw [List.getLast?_concat] at last
      simp only [← List.append_assoc, List.getLast?_concat]
      exact last

theorem spelled_keyword : Spelled words keyword :=
  spelled_either (spelled_either (spelled_either (spelled_either
    (spelled_between (spelled_literal (by decide) (by decide)) (spelled_literal (by decide) (by decide)))
    (spelled_literal (by decide) (by decide))) (spelled_literal (by decide) (by decide)))
    (spelled_literal (by decide) (by decide))) (spelled_literal (by decide) (by decide))

/-- What begins with a word character at the front of a text begins at a boundary. -/
theorem reads_front {word : List Char} (begins : word.head?.any words.isWord = true) {cursor later : Cursor}
    (fresh : cursor.previous = none) (moves : Moves cursor word later) : (boundary words).Reads cursor cursor := by
  refine ⟨?_, rfl⟩
  show (cursor.previous.any words.isWord != cursor.rest.head?.any words.isWord) = true
  cases word with
  | nil => cases begins
  | cons c word => simpa [fresh, moves.rest] using begins

/-- A word character before something else is at a boundary. -/
theorem reads_behind {cursor : Cursor} (ends : cursor.previous.any words.isWord = true)
    (follows : cursor.rest.head?.any words.isWord = false) : (boundary words).Reads cursor cursor := by
  refine ⟨?_, rfl⟩
  show (cursor.previous.any words.isWord != cursor.rest.head?.any words.isWord) = true
  rw [ends, follows]
  rfl

/-- A keyword between boundaries is read at the front of a text where no word character follows. -/
theorem reads_spelled {spelled : Pattern} {parts : List Pattern} (free : spelled.free = true)
    (partsFree : parts.all Pattern.free = true) {one two : List Char} {cursor later : Cursor} (inSpelled : one ∈ spelled.language)
    (edges : one.head?.any words.isWord = true ∧ one.getLast?.any words.isWord = true)
    (inParts : two ∈ (parts.map Pattern.language).prod) (follows : (two ++ later.rest).head?.any words.isWord = false)
    (fresh : cursor.previous = none) (moves : Moves cursor (one ++ two) later) :
    (ofList (boundary words :: spelled :: boundary words :: parts)).Reads cursor later := by
  obtain ⟨begins, ends⟩ := edges
  obtain ⟨before, behind⟩ := moves.append
  have closed : (one.getLast?.or cursor.previous).any words.isWord = true := by
    rwa [fresh, Option.or_none]
  exact reads_ofList ⟨cursor, reads_front begins fresh before, _, reads_of_language free inSpelled before,
    _, reads_behind closed follows, readsAll_of_language partsFree inParts behind⟩

/-- The same of a keyword that only begins at a boundary. -/
theorem reads_begun {parts : List Pattern} (free : parts.all Pattern.free = true) {word : List Char} {cursor later : Cursor}
    (member : word ∈ (parts.map Pattern.language).prod) (begins : word.head?.any words.isWord = true)
    (fresh : cursor.previous = none) (moves : Moves cursor word later) : (ofList (boundary words :: parts)).Reads cursor later :=
  reads_ofList ⟨cursor, reads_front begins fresh moves, readsAll_of_language free member moves⟩

/-- An expression matches its cue where its front is read up to the last character, and its secret there. -/
theorem fires_of_reads {inline : Inline} (advances : inline.regex.advances = true) (free : inline.secret.free = true)
    {word : List Char} {c : Char} (begins : [c] ∈ inline.secret.language)
    (reads : ∀ middle, Moves ⟨none, word ++ [c], 0⟩ word middle → middle.rest = [c] →
      inline.lead.Reads ⟨none, word ++ [c], 0⟩ middle) :
    run (word ++ [c]) inline.regex ⟨none, word ++ [c], 0⟩ [] conclude ≠ none := by
  have moves : Moves ⟨none, word ++ [c], 0⟩ word (Cursor.behind ⟨none, word ++ [c], 0⟩ word [c]) := ⟨rfl, rfl, rfl⟩
  have ends : Moves (Cursor.behind ⟨none, word ++ [c], 0⟩ word [c]) [c]
      (Cursor.behind (Cursor.behind ⟨none, word ++ [c], 0⟩ word [c]) [c] []) := ⟨rfl, rfl, rfl⟩
  exact run_complete advances _ _ conclude ⟨_, reads _ moves rfl, reads_of_language free begins ends⟩
    (fun _ => Option.some_ne_none _) []

end Keywords

section Matching

variable {words}

theorem language_begun (parts : List Pattern) :
    (ofList (boundary words :: parts)).language = (parts.map Pattern.language).prod := by
  rw [language_ofList, List.map_cons, List.prod_cons]
  exact one_mul _

theorem language_spelled (spelled : Pattern) (parts : List Pattern) :
    (ofList (boundary words :: spelled :: boundary words :: parts)).language =
      spelled.language * (parts.map Pattern.language).prod := by
  rw [language_begun, List.map_cons, List.map_cons, List.prod_cons, List.prod_cons]
  exact congrArg (spelled.language * ·) (one_mul _)

theorem mem_front {first : Pattern} {parts : List Pattern} {word : List Char} :
    word ∈ (ofList (first :: parts)).language ↔
      ∃ one ∈ first.language, ∃ two ∈ (parts.map Pattern.language).prod, one ++ two = word := by
  rw [language_ofList, List.map_cons, List.prod_cons, Language.mem_mul]

theorem begins_front {first : Pattern} {parts : List Pattern} (edges : Spelled words first) {word : List Char}
    (member : word ∈ (ofList (first :: parts)).language) : word.head?.any words.isWord = true := by
  obtain ⟨one, inFirst, two, -, rfl⟩ := mem_front.mp member
  have begins := (edges one inFirst).1
  cases one with
  | nil => cases begins
  | cons c one => exact begins

/-- No word character follows where white space and a colon do. -/
theorem follows_colon {two : List Char}
    (member : two ∈ ([star isSpace, .char (isChar ':'), star isSpace].map Pattern.language).prod) (rest : List Char) : (two ++ rest).head?.any words.isWord = false := by
  obtain ⟨spaces, white, _, ⟨_, ⟨c, colon, rfl⟩, others, -, rfl⟩, rfl⟩ := member
  obtain rfl : c = ':' := beq_iff_eq.mp colon
  cases spaces with
  | nil => exact words.ascii ':' (by decide)
  | cons d spaces => exact words.space d (mem_star.mp white d List.mem_cons_self)

theorem authorization_cued : Cued (inlineAuthorization words) authorizationCue where
  leadPlain := rfl
  secretPlain := rfl
  filled := fun member => (mem_plus.mp member).1 rfl
  found := by
    intro first inLead second inSecret
    rw [inlineAuthorization, language_spelled] at inLead
    exact Cue.stands [] (mem_front.mpr inLead) (begins_plus inSecret)
  long := by decide
  bracket := by decide
  fires := by
    intro piece member
    obtain ⟨word, inFront, c, ends, rfl⟩ := Cue.mem_pattern.mp member
    obtain ⟨one, inSpelled, two, inParts, rfl⟩ := mem_front.mp inFront
    refine fires_of_reads rfl rfl (mem_plus.mpr ⟨nofun, List.forall_mem_singleton.mpr ends⟩) fun middle moves rest => ?_
    exact reads_spelled rfl rfl inSpelled (spelled_literal (by decide) (by decide) one inSpelled) inParts
      (follows_colon inParts _) rfl moves

theorem cookie_cued : Cued (inlineCookie words) cookieCue where
  leadPlain := rfl
  secretPlain := rfl
  filled := fun member => (mem_plus.mp member).1 rfl
  found := by
    intro first inLead second inSecret
    rw [inlineCookie, language_spelled] at inLead
    obtain ⟨one, named, two, inParts, rfl⟩ := Language.mem_mul.mp inLead
    rcases named with own | set
    · exact Cue.stands [] (mem_front.mpr ⟨one, own, two, inParts, rfl⟩) (begins_plus inSecret)
    · have parts : "set-cookie".toList = "set-".toList ++ "cookie".toList := by decide
      rw [language_literalIgnoringCase, parts, List.map_append, List.prod_append] at set
      obtain ⟨before, -, own, inCookie, rfl⟩ := Language.mem_mul.mp set
      rw [← language_literalIgnoringCase] at inCookie
      rw [List.append_assoc before own two]
      exact Cue.stands before (mem_front.mpr ⟨own, inCookie, two, inParts, rfl⟩) (begins_plus inSecret)
  long := by decide
  bracket := by decide
  fires := by
    intro piece member
    obtain ⟨word, inFront, c, ends, rfl⟩ := Cue.mem_pattern.mp member
    obtain ⟨one, inSpelled, two, inParts, rfl⟩ := mem_front.mp inFront
    refine fires_of_reads rfl rfl (mem_plus.mpr ⟨nofun, List.forall_mem_singleton.mpr ends⟩) fun middle moves rest => ?_
    exact reads_spelled rfl rfl (Or.inl inSpelled) (spelled_literal (by decide) (by decide) one inSpelled) inParts
      (follows_colon inParts _) rfl moves

theorem bearer_cued : Cued (inlineBearer words) bearerCue where
  leadPlain := rfl
  secretPlain := rfl
  filled := fun member => (mem_plus.mp member).1 rfl
  found := by
    intro first inLead second inSecret
    rw [inlineBearer, language_begun, ← language_ofList] at inLead
    exact Cue.stands [] inLead (begins_plus inSecret)
  long := by decide
  bracket := by decide
  fires := by
    intro piece member
    obtain ⟨word, inFront, c, ends, rfl⟩ := Cue.mem_pattern.mp member
    refine fires_of_reads rfl rfl (mem_plus.mpr ⟨nofun, List.forall_mem_singleton.mpr ends⟩) fun middle moves rest => ?_
    have begins : word.head?.any words.isWord = true := begins_front (spelled_literal (by decide) (by decide)) inFront
    exact reads_begun rfl (language_ofList _ ▸ inFront) begins rfl moves

theorem inValue_of_letter {c : Char} (letter : isLetterIgnoringCase c = true) : inValue c = true := by
  simp only [isLetterIgnoringCase, Characters.isAlpha_eq, Bool.or_eq_true, Characters.isUpper_iff, Characters.isLower_iff,
    beq_iff_eq] at letter
  have away : ∀ d : Char, d.toNat < 65 → (c != d) = true := by
    intro d small
    refine bne_iff_ne.mpr fun same => ?_
    rw [same] at letter
    omega
  have shown : isSpace c = false := by
    simp only [isSpace, Bool.or_eq_false_iff, Bool.and_eq_false_iff, decide_eq_false_iff_not, beq_eq_false_iff_ne]
    omega
  simp only [inValue, shown, away ',' (by decide), away ';' (by decide), away '&' (by decide), Bool.not_false, Bool.and_true]

theorem namePart_bracket : (star (isNamePart words)).rejects '[' = true := by
  have outside : words.isWord '[' = false := words.ascii '[' (by decide)
  show (!(words.isWord '[' || '[' == '.' || '[' == '-')) = true
  rw [outside]
  decide

theorem assignment_cued : Cued (inlineSecretAssignment words) (assignmentCue words) where
  leadPlain := rfl
  secretPlain := rfl
  filled := fun member => by
    obtain ⟨c, begins, -⟩ := begins_secretText member
    cases begins
  found := by
    intro first inLead second inSecret
    rw [inlineSecretAssignment, language_begun, List.map_cons, List.prod_cons, ← language_ofList] at inLead
    obtain ⟨before, -, word, inFront, rfl⟩ := Language.mem_mul.mp inLead
    exact Cue.stands before inFront (begins_secretText inSecret)
  long := of_decide_eq_true rfl
  bracket := by
    have front : ∀ name : Pattern, name.rejects '[' = true → (ofList [keyword, name, star isSpace,
        .char fun c => c == '=' || c == ':', star isSpace]).rejects '[' = true := by
      intro name free
      show (((_ && name.rejects '[') && _) && _ && _) = true
      rw [free]
      decide
    exact front _ namePart_bracket
  fires := by
    intro piece member
    obtain ⟨word, inFront, c, ends, rfl⟩ := Cue.mem_pattern.mp member
    refine fires_of_reads rfl rfl (Or.inr (mem_plus.mpr ⟨nofun, List.forall_mem_singleton.mpr ends⟩)) fun middle moves rest => ?_
    have inParts : word ∈ (star (isNamePart words)).language * (assignmentCue words).front.language :=
      Language.mem_mul.mpr ⟨[], mem_star.mpr nofun, word, inFront, rfl⟩
    rw [assignmentCue, language_ofList] at inParts
    exact reads_begun rfl inParts (begins_front spelled_keyword inFront) rfl moves

theorem begins_append {accepts : Char → Bool} {first second : List Char} (own : ∀ c ∈ first.head?, accepts c = true)
    (others : ∃ c ∈ second.head?, accepts c = true) : ∃ c ∈ (first ++ second).head?, accepts c = true := by
  cases first with
  | nil => exact others
  | cons c first => exact ⟨c, rfl, own c rfl⟩

theorem value_cued : Cued (inlineSecretValue words) valueCue where
  leadPlain := rfl
  secretPlain := rfl
  filled := fun member => by
    obtain ⟨c, begins, -⟩ := begins_secretText member
    cases begins
  found := by
    intro first inLead second inSecret
    rw [inlineSecretValue, language_spelled] at inLead
    obtain ⟨one, inKeyword, _, ⟨spaces, white, _, ⟨verb, isVerb, _, ⟨sign, isSign, _, rfl, rfl⟩, rfl⟩, rfl⟩, rfl⟩ := inLead
    have inFront : one ++ spaces ∈ valueCue.front.language :=
      mem_front.mpr ⟨one, inKeyword, spaces, Language.mem_mul.mpr ⟨spaces, white, [], rfl, List.append_nil _⟩, rfl⟩
    have verbBegins : ∀ c ∈ verb.head?, inValue c = true := by
      rcases mem_optional.mp isVerb with rfl | ⟨word, verbal, others, -, rfl⟩
      · exact nofun
      have letters : ∀ d ∈ word, isLetterIgnoringCase d = true :=
        verbal.elim (letters_of_literal (by decide)) (letters_of_literal (by decide))
      have filled : 1 ≤ word.length := le_trans (by decide) (least_le_length verbal)
      cases word with
      | nil => cases filled
      | cons d word =>
        intro c member
        obtain rfl : d = c := Option.some.inj member
        exact inValue_of_letter (letters d List.mem_cons_self)
    have signBegins : ∀ c ∈ sign.head?, inValue c = true := by
      rcases mem_optional.mp isSign with rfl | ⟨_, ⟨d, known, rfl⟩, others, -, rfl⟩
      · exact nofun
      simp only [Bool.or_eq_true, beq_iff_eq] at known
      intro c member
      obtain rfl : d = c := Option.some.inj member
      rcases known with ((rfl | rfl) | rfl) | rfl <;> decide
    have begins := begins_append verbBegins (begins_append signBegins (begins_secretText inSecret))
    simpa using Cue.stands [] inFront begins
  long := by decide
  bracket := by decide
  fires := by
    intro piece member
    obtain ⟨word, inFront, c, ends, rfl⟩ := Cue.mem_pattern.mp member
    obtain ⟨one, inSpelled, two, inParts, rfl⟩ := mem_front.mp inFront
    refine fires_of_reads rfl rfl (Or.inr (mem_plus.mpr ⟨nofun, List.forall_mem_singleton.mpr ends⟩)) fun middle moves rest => ?_
    obtain ⟨spaces, white, _, rfl, rfl⟩ := inParts
    have follows : (spaces ++ [] ++ middle.rest).head?.any words.isWord = false := by
      obtain ⟨filled, all⟩ := mem_plus.mp white
      cases spaces with
      | nil => exact absurd rfl filled
      | cons d spaces => exact words.space d (all d List.mem_cons_self)
    exact reads_spelled rfl rfl inSpelled (spelled_keyword one inSpelled) ⟨spaces, white, _,
      ⟨[], mem_optional.mpr (Or.inl rfl), _, ⟨[], mem_optional.mpr (Or.inl rfl), [], rfl, rfl⟩, rfl⟩, rfl⟩ follows rfl moves

end Matching

end Cues

section Stages

variable (words : WordChars)

/-- One of the substitutions, with the texts that it finds. -/
structure Stage where
  regex : Pattern
  expand : List Char → Groups → List Char
  cue : Language Char

def Stage.redact (stage : Stage) (text : List Char) : List Char := sub stage.regex (stage.expand text) text

def Inline.stage (inline : Inline) (cue : Cue) : Stage := ⟨inline.regex, keepLead, cue.pattern.language⟩

def stages : List Stage :=
  [(inlineAuthorization words).stage authorizationCue, (inlineCookie words).stage cookieCue, (inlineBearer words).stage bearerCue,
    (inlineSecretAssignment words).stage (assignmentCue words), (inlineSecretValue words).stage valueCue,
    ⟨privateKeyBlock, fun _ _ => "[redacted-private-key]".toList, privateKeyBlock.language⟩]

def redactStages (stages : List Stage) (text : List Char) : List Char := stages.foldl (fun text stage => stage.redact text) text

theorem redactStages_eq (text : List Char) :
    redactStages (stages words) text = redactBlocks (redactInlines (inlines words) text) := by
  simp only [redactStages, redactInlines, stages, inlines, List.foldl_cons, List.foldl_nil, Stage.redact, Inline.stage,
    Inline.redact, redactBlocks]

/-- Where a redaction has come last -/
def Sealed (text : List Char) : Prop := '[' ∈ text ∧ [']'] <:+ text

/-- A stage finds its cue wherever it matches and seals what it finds; a cue that stands alone is matched. -/
structure Stage.Finds (stage : Stage) : Prop where
  found : ∀ text front cursor later groups, Moves ⟨none, text, 0⟩ front cursor →
    run text stage.regex cursor [] conclude = some (later, groups) →
      ∃ word, word ≠ [] ∧ Moves cursor word later ∧ (∃ piece ∈ stage.cue, piece <:+: word) ∧ Sealed (stage.expand text groups)
  fires : ∀ piece ∈ stage.cue, run piece stage.regex ⟨none, piece, 0⟩ [] conclude ≠ none
  unsealed : ∀ piece ∈ stage.cue, ¬ Sealed (visible piece)
  long : ∀ piece ∈ stage.cue, 2 ≤ piece.length

theorem sealed_append (text : List Char) {ending : List Char} (closed : Sealed ending) : Sealed (text ++ ending) :=
  ⟨List.mem_append_right text closed.1, closed.2.trans (List.suffix_append text ending)⟩

theorem sealed_marker : Sealed marker := ⟨by decide, by decide⟩

/-- What ends with another character is not sealed. -/
theorem not_sealed_concat {c : Char} (other : c ≠ ']') (text : List Char) : ¬ Sealed (text ++ [c]) := by
  rintro ⟨-, front, same⟩
  exact other (List.singleton_inj.mp (List.append_inj' same rfl).2).symm

theorem Cued.finds {inline : Inline} {cue : Cue} (cued : Cued inline cue) : (inline.stage cue).Finds where
  found := by
    intro text front cursor later groups before found
    obtain ⟨first, middle, second, inLead, moves, inSecret, onward, rfl⟩ :=
      run_captured cued.leadPlain cued.secretPlain found
    obtain ⟨piece, member, within⟩ := cued.found first inLead second inSecret
    refine ⟨first ++ second, fun empty => ?_, moves.trans onward, ⟨piece, member, within⟩, sealed_append _ sealed_marker⟩
    exact cued.filled ((List.append_eq_nil_iff.mp empty).2 ▸ inSecret)
  fires := cued.fires
  unsealed := by
    intro piece member
    obtain ⟨word, inFront, c, ends, rfl⟩ := Cue.mem_pattern.mp member
    have free := not_mem_of_rejects cued.bracket inFront
    rintro ⟨opens, closes⟩
    obtain rfl : '[' = c := by
      rcases List.mem_append.mp (List.mem_filter.mp opens).1 with inside | last
      · exact absurd inside free
      · exact List.mem_singleton.mp last
    rw [visible_append] at opens closes
    exact not_sealed_concat (by decide) (visible word) ⟨opens, closes⟩
  long := by
    intro piece member
    exact (Nat.succ_le_succ cued.long).trans (least_le_length member)

theorem block_finds : Stage.Finds ⟨privateKeyBlock, fun _ _ => "[redacted-private-key]".toList, privateKeyBlock.language⟩ where
  found := by
    intro text front cursor later groups before found
    obtain ⟨ending, reads, ended⟩ := run_sound (by rfl) _ _ _ _ found
    obtain ⟨rfl, -⟩ := Prod.mk.inj (Option.some.inj ended)
    obtain ⟨word, member, moves⟩ := reads_moves reads
    have long : 1 ≤ word.length := le_trans (by decide) (least_le_length member)
    have closed : Sealed "[redacted-private-key]".toList := ⟨by decide, by decide⟩
    exact ⟨word, List.ne_nil_of_length_pos long, moves, ⟨word, member, List.infix_rfl⟩, closed⟩
  fires := by
    intro piece member
    have moves : Moves ⟨none, piece, 0⟩ piece (Cursor.behind ⟨none, piece, 0⟩ piece []) :=
      ⟨(List.append_nil piece).symm, rfl, rfl⟩
    exact run_complete (by rfl) _ _ conclude (reads_of_language (by rfl) member moves) (fun _ => Option.some_ne_none _) []
  unsealed := by
    rintro _ ⟨front, -, last, closes, rfl⟩
    have dashed : "PRIVATE KEY-----".toList = "PRIVATE KEY----".toList ++ ['-'] := by decide
    rw [mem_literal.mp closes, dashed]
    simp only [← List.append_assoc]
    rw [visible_append]
    exact not_sealed_concat (by decide) _
  long := fun piece member => le_trans (by decide) (least_le_length member)

theorem stages_find : ∀ stage ∈ stages words, stage.Finds :=
  List.forall_mem_cons.mpr ⟨authorization_cued.finds, List.forall_mem_cons.mpr ⟨cookie_cued.finds,
    List.forall_mem_cons.mpr ⟨bearer_cued.finds, List.forall_mem_cons.mpr ⟨assignment_cued.finds,
      List.forall_mem_cons.mpr ⟨value_cued.finds, List.forall_mem_singleton.mpr block_finds⟩⟩⟩⟩⟩

variable {stage : Stage} {text : List Char}

theorem Stage.Finds.marks (finds : stage.Finds) : Marks stage.regex (stage.expand text) text ']' := by
  intro front cursor later groups before found
  obtain ⟨word, filled, moves, -, closed⟩ := finds.found text front cursor later groups before found
  exact ⟨word, filled, moves, closed.2⟩

/-- A stage leaves a text alone or leaves a redaction in it. -/
theorem Stage.Finds.opens (finds : stage.Finds) : stage.redact text = text ∨ '[' ∈ stage.redact text := by
  rcases subFrom_cases (text.length + 1) ⟨none, text, 0⟩ (Nat.lt_succ_self _) with same | ⟨front, middle, later, groups,
    behind, moves, found, same, -⟩
  · exact Or.inl same
  · obtain ⟨word, -, -, -, closed⟩ := finds.found text front middle later groups moves found
    refine Or.inr ?_
    rw [Stage.redact, sub, same]
    exact List.mem_append_left _ (List.mem_append_right _ closed.1)

theorem Stage.Finds.keeps_sealed (finds : stage.Finds) (closed : Sealed text) : Sealed (stage.redact text) := by
  refine ⟨?_, finds.marks.suffix _ [] _ (Moves.refl _) (Nat.lt_succ_self _) closed.2⟩
  rcases finds.opens with same | opened
  · rw [same]
    exact closed.1
  · exact opened

/-- A stage leaves a text without a cue alone. -/
theorem Stage.Finds.same_of_quiet (finds : stage.Finds) (quiet : ∀ piece ∈ stage.cue, ¬ piece <:+: text) :
    stage.redact text = text := by
  rcases subFrom_cases (text.length + 1) ⟨none, text, 0⟩ (Nat.lt_succ_self _) with same | ⟨front, middle, later, groups,
    behind, moves, found, -, -⟩
  · exact same
  · obtain ⟨word, -, onward, ⟨piece, member, within⟩, -⟩ := finds.found text front middle later groups moves found
    have whole : text = front ++ word ++ later.rest := (moves.trans onward).rest
    exact absurd (within.trans ⟨front, later.rest, whole.symm⟩) (quiet piece member)

/-- In a text that is itself the only cue in it, what is matched is the whole text. -/
theorem Stage.Finds.whole_of_least (finds : stage.Finds) (least : ∀ piece ∈ stage.cue, piece <:+: text → piece = text)
    {front : List Char} {cursor later : Cursor} {groups : Groups} (before : Moves ⟨none, text, 0⟩ front cursor)
    (found : run text stage.regex cursor [] conclude = some (later, groups)) :
    front = [] ∧ later.rest = [] ∧ later.position ≠ cursor.position := by
  obtain ⟨word, filled, moves, ⟨piece, member, within⟩, -⟩ := finds.found text front cursor later groups before found
  have whole : text = front ++ word ++ later.rest := (before.trans moves).rest
  have same := least piece member (within.trans ⟨front, later.rest, whole.symm⟩)
  have short := within.length_le
  have long := List.length_pos_iff.mpr filled
  have far := moves.position
  rw [same, whole, List.length_append, List.length_append] at short
  exact ⟨List.length_eq_zero_iff.mp (by omega), List.length_eq_zero_iff.mp (by omega), by omega⟩

theorem Stage.Finds.seals_least (finds : stage.Finds) (least : ∀ piece ∈ stage.cue, piece <:+: text → piece = text) :
    stage.redact text = text ∨ Sealed (stage.redact text) := by
  rcases subFrom_cases (text.length + 1) ⟨none, text, 0⟩ (Nat.lt_succ_self _) with same | ⟨front, middle, later, groups,
    behind, moves, found, same, next⟩
  · exact Or.inl same
  · obtain ⟨rfl, ended, moved⟩ := finds.whole_of_least least moves found
    obtain ⟨word, -, onward, -, closed⟩ := finds.found text [] middle later groups moves found
    obtain ⟨fuel, rfl⟩ := next moved
    refine Or.inr ?_
    rw [Stage.redact, sub, same, finds.marks.closed (moves.trans onward) ended, List.append_nil]
    exact closed

/-- A cue in which there is no other is sealed. -/
theorem Stage.Finds.seals_cue (finds : stage.Finds) (least : ∀ piece ∈ stage.cue, piece <:+: text → piece = text)
    (member : text ∈ stage.cue) : Sealed (stage.redact text) := by
  obtain ⟨⟨later, groups⟩, found⟩ := Option.ne_none_iff_exists'.mp (finds.fires text member)
  obtain ⟨-, ended, moved⟩ := finds.whole_of_least least (Moves.refl _) found
  obtain ⟨word, -, onward, -, closed⟩ := finds.found text [] _ later groups (Moves.refl _) found
  obtain ⟨fuel, same⟩ : ∃ fuel, stage.redact text = _ := sub_of_found found moved
  rw [same, finds.marks.closed onward ended, List.append_nil]
  exact closed

variable {stages : List Stage} (finds : ∀ stage ∈ stages, stage.Finds)

include finds

theorem redactStages_opens : redactStages stages text = text ∨ '[' ∈ redactStages stages text := by
  induction stages generalizing text with
  | nil => exact Or.inl rfl
  | cons stage stages ih =>
    obtain ⟨own, others⟩ := List.forall_mem_cons.mp finds
    have first : stage.redact text = text ∨ '[' ∈ stage.redact text := own.opens
    have rest : redactStages stages (stage.redact text) = stage.redact text ∨ '[' ∈ redactStages stages (stage.redact text) :=
      ih others
    rcases rest with same | opened
    · exact first.imp same.trans fun opened => same.symm ▸ opened
    · exact Or.inr opened

theorem redactStages_sealed (closed : Sealed text) : Sealed (redactStages stages text) := by
  induction stages generalizing text with
  | nil => exact closed
  | cons stage stages ih =>
    obtain ⟨own, others⟩ := List.forall_mem_cons.mp finds
    exact ih others (own.keeps_sealed closed)

theorem redactStages_quiet (quiet : ∀ stage ∈ stages, ∀ piece ∈ stage.cue, ¬ piece <:+: text) :
    redactStages stages text = text := by
  induction stages with
  | nil => rfl
  | cons stage stages ih =>
    obtain ⟨own, others⟩ := List.forall_mem_cons.mp finds
    obtain ⟨first, rest⟩ := List.forall_mem_cons.mp quiet
    have same : redactStages (stage :: stages) text = redactStages stages (stage.redact text) := rfl
    rw [same, own.same_of_quiet first]
    exact ih others rest

theorem redactStages_cue (least : ∀ stage ∈ stages, ∀ piece ∈ stage.cue, piece <:+: text → piece = text)
    (member : ∃ stage ∈ stages, text ∈ stage.cue) : Sealed (redactStages stages text) := by
  induction stages with
  | nil =>
    obtain ⟨stage, none, -⟩ := member
    cases none
  | cons stage stages ih =>
    obtain ⟨own, others⟩ := List.forall_mem_cons.mp finds
    obtain ⟨first, rest⟩ := List.forall_mem_cons.mp least
    have same : redactStages (stage :: stages) text = redactStages stages (stage.redact text) := rfl
    rcases own.seals_least first with unchanged | closed
    · obtain ⟨other, among, inCue⟩ := member
      rcases List.mem_cons.mp among with rfl | among
      · rw [same]
        exact redactStages_sealed others (own.seals_cue first inCue)
      · rw [same, unchanged]
        exact ih others rest ⟨other, among, inCue⟩
    · rw [same]
      exact redactStages_sealed others closed

end Stages

section Strings

variable (words : WordChars)

/-- What a redaction can find -/
def cues : List (Language Char) :=
  [authorizationCue.pattern.language, cookieCue.pattern.language, bearerCue.pattern.language,
    (assignmentCue words).pattern.language, valueCue.pattern.language, privateKeyBlock.language]

/-- A text that redaction can change. -/
def Triggers (text : List Char) : Prop := isData text = true ∨ (∃ cue ∈ cues words, text ∈ cue) ∨ maxStringChars < text.length

/-- Nothing in the text could be redacted. -/
def Quiet (text : List Char) : Prop := ∀ piece, piece <:+: text → ¬ Triggers words piece

variable {words} {text : List Char}

theorem Quiet.inside (quiet : Quiet words text) {piece : List Char} (within : piece <:+: text) : Quiet words piece :=
  fun other inside => quiet other (inside.trans within)

theorem triggers_of_stage {stage : Stage} (among : stage ∈ stages words) (member : text ∈ stage.cue) : Triggers words text :=
  Or.inr (Or.inl ⟨stage.cue, List.mem_map.mpr ⟨stage, among, rfl⟩, member⟩)

theorem stage_of_cue {cue : Language Char} (among : cue ∈ cues words) : ∃ stage ∈ stages words, stage.cue = cue :=
  List.mem_map.mp (show cue ∈ (stages words).map Stage.cue from among)

theorem long_of_triggers (triggers : Triggers words text) : 2 ≤ text.length := by
  rcases triggers with data | ⟨cue, among, member⟩ | long
  · have lowered := congrArg List.length (of_decide_eq_true data)
    have five : "data:".toList.length = 5 := by decide
    rw [List.length_map, List.length_take, five] at lowered
    omega
  · obtain ⟨stage, inStages, rfl⟩ := stage_of_cue among
    exact (stages_find words stage inStages).long text member
  · exact (show 2 ≤ maxStringChars by decide).trans long.le

theorem quiet_of_short (short : text.length ≤ 1) : Quiet words text := by
  intro piece within triggers
  have long := long_of_triggers triggers
  have less := within.length_le
  omega

theorem redactString_of_not_isData (other : isData text = false) :
    redactString words text = truncated (redactStages (stages words) text) := by
  rw [redactStages_eq, redactString, if_neg (Bool.eq_false_iff.mp other)]

theorem redactString_of_quiet (quiet : Quiet words text) : redactString words text = text := by
  have own := quiet text List.infix_rfl
  have other : isData text = false := Bool.eq_false_iff.mpr fun data => own (Or.inl data)
  have same : redactStages (stages words) text = text :=
    redactStages_quiet (stages_find words) fun stage among piece member within =>
      quiet piece within (triggers_of_stage among member)
  rw [redactString_of_not_isData other, same, truncated, if_neg fun long => own (Or.inr (Or.inr long))]

theorem sealed_redactData : Sealed (redactData text) := by
  obtain ⟨front, same⟩ : ∃ front, redactData text = front ++ marker := by
    by_cases encoded : ";base64,".toList <:+: text
    · exact ⟨_, if_pos encoded⟩
    · exact ⟨(split [','] text).headD [] ++ [','], (if_neg encoded).trans (List.append_cons _ _ _)⟩
  rw [same]
  exact sealed_append front sealed_marker

theorem truncated_of_lt (long : maxStringChars < text.length) : ∃ count : List Char,
    truncated text = text.take maxStringChars ++ ("...[truncated ".toList ++ count ++ " chars]".toList) := by
  refine ⟨(toString (text.length - maxStringChars)).toList, ?_⟩
  rw [truncated, if_pos long, String.toList_append, String.toList_append]

theorem sealed_truncation (count : List Char) : Sealed ("...[truncated ".toList ++ count ++ " chars]".toList) := by
  have opens : '[' ∈ "...[truncated ".toList := by decide
  have ends : [']'] <:+ " chars]".toList := by decide
  exact ⟨List.mem_append_left _ (List.mem_append_left _ opens), ends.trans (List.suffix_append _ _)⟩

theorem truncated_cases : truncated text = text ∨ Sealed (truncated text) := by
  by_cases long : maxStringChars < text.length
  · obtain ⟨count, same⟩ := truncated_of_lt long
    rw [same]
    exact Or.inr (sealed_append _ (sealed_truncation count))
  · exact Or.inl (if_neg long)

theorem Sealed.visible (closed : Sealed text) : Sealed (visible text) := by
  obtain ⟨opens, front, rfl⟩ := closed
  refine ⟨List.mem_filter.mpr ⟨opens, by decide⟩, ?_⟩
  rw [visible_append]
  exact List.suffix_append _ _

/-- Redaction leaves a text alone or leaves a bracket in it. -/
theorem redactString_opens : redactString words text = text ∨ '[' ∈ redactString words text := by
  cases data : isData text with
  | true =>
    rw [redactString, if_pos data]
    exact Or.inr sealed_redactData.1
  | false =>
    rw [redactString_of_not_isData data]
    rcases truncated_cases with same | closed
    · rw [same]
      exact redactStages_opens (stages_find words)
    · exact Or.inr closed.1

theorem visible_redactString (shown : visible text ≠ []) : visible (redactString words text) ≠ [] := by
  have cases : redactString words text = text ∨ '[' ∈ redactString words text := redactString_opens
  rcases cases with same | opened
  · rwa [same]
  · exact List.ne_nil_of_mem (List.mem_filter.mpr ⟨opened, by decide⟩)

theorem bracket_not_mem_of_isData (data : isData text = true) (short : text.take 5 = text) : '[' ∉ text := by
  have lowered : text.map Char.toLower = "data:".toList := short ▸ of_decide_eq_true data
  intro inside
  have mapped : '[' ∈ text.map Char.toLower := List.mem_map.mpr ⟨'[', inside, by decide⟩
  rw [lowered] at mapped
  exact absurd mapped (by decide)

/-- The note on what has been cut is longer than the one character that it stands for. -/
theorem visible_truncated_ne (long : maxStringChars < text.length) (short : text.take (maxStringChars + 1) = text) :
    visible (truncated text) ≠ visible text := by
  intro same
  obtain ⟨count, cut⟩ := truncated_of_lt long
  have parts : visible text = visible (text.take maxStringChars) ++ visible (text.drop maxStringChars) := by
    rw [← visible_append, List.take_append_drop]
  rw [cut, visible_append, parts] at same
  have note := congrArg List.length (List.append_cancel_left same)
  have opening : (visible "...[truncated ".toList).length = 13 := by decide
  have rest : (visible (text.drop maxStringChars)).length ≤ (text.drop maxStringChars).length := List.length_filter_le _ _
  have whole := congrArg List.length short
  rw [visible_append, visible_append, List.length_append, List.length_append, opening] at note
  rw [List.length_take] at whole
  rw [List.length_drop] at rest
  omega

/-- A text that can be redacted, with nothing less in it that can, is changed for everyone to see. -/
theorem visible_redactString_ne (triggers : Triggers words text)
    (least : ∀ piece, piece <:+: text → Triggers words piece → piece = text) :
    visible (redactString words text) ≠ visible text := by
  intro same
  cases data : isData text with
  | true =>
    have redacted : Sealed (redactString words text) := by
      rw [redactString, if_pos data]
      exact sealed_redactData
    have opens := (same ▸ redacted.visible).1
    have short : text.take 5 = text := by
      refine least _ (List.take_prefix 5 text).isInfix (Or.inl ?_)
      rwa [isData, List.take_take, Nat.min_self]
    exact bracket_not_mem_of_isData data short (List.mem_filter.mp opens).1
  | false =>
    rw [redactString_of_not_isData data] at same
    by_cases cued : ∃ stage ∈ stages words, text ∈ stage.cue
    · have closed : Sealed (redactStages (stages words) text) :=
        redactStages_cue (stages_find words) (fun stage among piece member within =>
          least piece within (triggers_of_stage among member)) cued
      have redacted : Sealed (truncated (redactStages (stages words) text)) := by
        rcases truncated_cases with unchanged | cut
        · rwa [unchanged]
        · exact cut
      obtain ⟨stage, among, member⟩ := cued
      exact (stages_find words stage among).unsealed text member (same ▸ redacted.visible)
    · have unchanged : redactStages (stages words) text = text := by
        refine redactStages_quiet (stages_find words) fun stage among piece member within => cued ?_
        exact ⟨stage, among, least piece within (triggers_of_stage among member) ▸ member⟩
      have long : maxStringChars < text.length := by
        rcases triggers with isData | ⟨cue, among, member⟩ | long
        · rw [isData] at data
          cases data
        · obtain ⟨stage, inStages, rfl⟩ := stage_of_cue among
          exact absurd ⟨stage, inStages, member⟩ cued
        · exact long
      have short : text.take (maxStringChars + 1) = text := by
        refine least _ (List.take_prefix _ text).isInfix (Or.inr (Or.inr ?_))
        rw [List.length_take]
        omega
      rw [unchanged] at same
      exact visible_truncated_ne long short same

end Strings

end OpenTulpa.DeepAgent.LangfuseRedaction
