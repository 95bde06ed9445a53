import OpenTulpa.Library.Spaces
import OpenTulpa.Library.Substitution

/-! Markdown as it is turned into the HTML of Telegram messages. Code and links are set aside under placeholders, the
rest is escaped and rewritten one style of emphasis and one line at a time, and what was set aside is put back. -/

namespace OpenTulpa.Telegram.Formatting

open Library.Text Library.Spaces Library.Splitting Library.Substitution

section Patterns

/-- The run of characters up to the first one that is not accepted, when it is not empty. -/
def run (accepts : Char → Bool) (text : List Char) : Option (List Char) :=
  let found := text.takeWhile accepts
  if found.isEmpty then none else some found

theorem run_split {accepts : Char → Bool} {text found : List Char} (some_ : run accepts text = some found) :
    found <+: text ∧ found ≠ [] ∧ ∀ c ∈ found, accepts c = true := by
  rw [run] at some_
  split at some_
  · cases some_
  · rename_i filled
    obtain rfl := Option.some.inj some_
    exact ⟨List.takeWhile_prefix _, by simpa using filled, fun c member => List.mem_takeWhile_imp member⟩

/-- What `rest` is behind a text that stands in front. -/
def behind (front text : List Char) : Option (List Char) := if front.isPrefixOf text then some (text.drop front.length) else none

theorem behind_eq_some {front text rest : List Char} : behind front text = some rest ↔ text = front ++ rest := by
  rw [behind]
  split
  · rename_i stands
    obtain ⟨left, same⟩ := List.isPrefixOf_iff_prefix.mp stands
    rw [← same, List.drop_left, Option.some.injEq, List.append_cancel_left_eq]
  · rename_i apart
    refine ⟨nofun, fun same => absurd (List.isPrefixOf_iff_prefix.mpr ⟨rest, same.symm⟩) apart⟩

def fence : List Char := ['`', '`', '`']

/-- A fenced block: the name of a language, and the code. -/
structure Fenced where
  language : List Char
  code : List Char
  deriving DecidableEq

def Fenced.text (block : Fenced) : List Char := fence ++ block.language ++ '\n' :: block.code ++ fence

def fencedAt (word : Char → Bool) (text : List Char) : Option Fenced := do
  let opened ← behind fence text
  let language := opened.takeWhile word
  let body ← behind ['\n'] (opened.drop language.length)
  let sides ← cut fence body
  return ⟨language, sides.1⟩

/-- Inline code between two backticks. -/
def quoted (code : List Char) : List Char := '`' :: code ++ ['`']

def inlineAt (text : List Char) : Option (List Char) := do
  let opened ← behind ['`'] text
  let code ← run (fun c => c != '`' && c != '\n') opened
  let _ ← behind ['`'] (opened.drop code.length)
  return code

structure Linked where
  label : List Char
  url : List Char
  deriving DecidableEq

def Linked.text (link : Linked) : List Char := '[' :: link.label ++ [']', '('] ++ link.url ++ [')']

/-- `https?://` -/
def scheme (text : List Char) : Option (List Char) :=
  if "https://".toList.isPrefixOf text then some "https://".toList
  else if "http://".toList.isPrefixOf text then some "http://".toList
  else none

def linkAt (text : List Char) : Option Linked := do
  let opened ← behind ['['] text
  let label ← run (fun c => c != ']' && c != '\n') opened
  let address ← behind [']', '('] (opened.drop label.length)
  let protocol ← scheme address
  let place ← run (fun c => !isSpace c && c != ')') (address.drop protocol.length)
  let _ ← behind [')'] (address.drop (protocol.length + place.length))
  return ⟨label, protocol ++ place⟩

/-- Text between two marks that both have two characters: at least one character, up to the next mark in the line. -/
def doubledAt (mark text : List Char) : Option (List Char) := do
  let opened ← behind mark text
  let first ← opened.head?
  let sides ← cut mark opened.tail
  if '\n' ∈ first :: sides.1 then none else some (first :: sides.1)

def doubled (mark content : List Char) : List Char := mark ++ content ++ mark

/-- Text between two single marks, neither of them next to a character of the given kind on its outer side. -/
def singleAt (mark : Char) (near : Char → Bool) (before : Option Char) (text : List Char) : Option (List Char) := do
  let opened ← behind [mark] text
  let content ← run (fun c => c != mark && c != '\n') opened
  let after ← behind [mark] (opened.drop content.length)
  if before.any near || after.head?.any near then none else some content

def single (mark : Char) (content : List Char) : List Char := mark :: content ++ [mark]

theorem drop_behind {front text left : List Char} (stands : front <+: text) (same : text.drop front.length = left) :
    text = front ++ left := by
  obtain ⟨rest, rfl⟩ := stands
  rw [← same, List.drop_left]

theorem fencedAt_eq_some {word : Char → Bool} {text : List Char} {block : Fenced} (found : fencedAt word text = some block) :
    ∃ rest, text = block.text ++ rest := by
  simp only [fencedAt, Option.bind_eq_bind, Option.bind_eq_some_iff, Option.pure_def, Option.some.injEq] at found
  obtain ⟨opened, first, body, second, sides, third, rfl⟩ := found
  have named := drop_behind (List.takeWhile_prefix word) (behind_eq_some.mp second)
  refine ⟨sides.2, ?_⟩
  rw [behind_eq_some.mp first]
  generalize opened.takeWhile word = language at named
  rw [named, cut_eq_some third]
  simp [Fenced.text]

theorem inlineAt_eq_some {text code : List Char} (found : inlineAt text = some code) : ∃ rest, text = quoted code ++ rest := by
  simp only [inlineAt, Option.bind_eq_bind, Option.bind_eq_some_iff, Option.pure_def, Option.some.injEq] at found
  obtain ⟨opened, first, inside, second, rest, third, rfl⟩ := found
  refine ⟨rest, ?_⟩
  rw [behind_eq_some.mp first, drop_behind (run_split second).1 (behind_eq_some.mp third)]
  simp [quoted]

theorem scheme_prefix {text protocol : List Char} (found : scheme text = some protocol) : protocol <+: text := by
  rw [scheme] at found
  split at found
  · rename_i stands
    obtain rfl := Option.some.inj found
    exact List.isPrefixOf_iff_prefix.mp stands
  · split at found
    · rename_i stands
      obtain rfl := Option.some.inj found
      exact List.isPrefixOf_iff_prefix.mp stands
    · cases found

theorem linkAt_eq_some {text : List Char} {link : Linked} (found : linkAt text = some link) :
    ∃ rest, text = link.text ++ rest := by
  simp only [linkAt, Option.bind_eq_bind, Option.bind_eq_some_iff, Option.pure_def, Option.some.injEq] at found
  obtain ⟨opened, first, label, second, address, third, protocol, fourth, place, fifth, rest, sixth, rfl⟩ := found
  have labelled := drop_behind (run_split second).1 (behind_eq_some.mp third)
  obtain ⟨tail, whole⟩ := scheme_prefix fourth
  have left : address.drop (protocol.length + place.length) = tail.drop place.length := by
    rw [← whole, ← List.drop_drop, List.drop_left]
  rw [← whole, List.drop_left] at fifth
  rw [left] at sixth
  refine ⟨rest, ?_⟩
  rw [behind_eq_some.mp first, labelled, ← whole, drop_behind (run_split fifth).1 (behind_eq_some.mp sixth)]
  simp [Linked.text]

theorem doubledAt_eq_some {mark text content : List Char} (found : doubledAt mark text = some content) :
    ∃ rest, text = doubled mark content ++ rest := by
  simp only [doubledAt, Option.bind_eq_bind, Option.bind_eq_some_iff] at found
  obtain ⟨opened, first, c, head, sides, third, last⟩ := found
  split at last
  · cases last
  · obtain rfl := Option.some.inj last
    refine ⟨sides.2, ?_⟩
    rw [behind_eq_some.mp first, ← List.cons_head?_tail head, cut_eq_some third]
    simp [doubled]

theorem singleAt_eq_some {mark : Char} {near : Char → Bool} {before : Option Char} {text content : List Char}
    (found : singleAt mark near before text = some content) :
    ∃ rest, text = single mark content ++ rest ∧ before.any near = false ∧ rest.head?.any near = false := by
  simp only [singleAt, Option.bind_eq_bind, Option.bind_eq_some_iff] at found
  obtain ⟨opened, first, inside, second, rest, third, last⟩ := found
  split at last
  · cases last
  · rename_i apart
    obtain rfl := Option.some.inj last
    simp only [Bool.or_eq_true, not_or, Bool.not_eq_true] at apart
    refine ⟨rest, ?_, apart⟩
    rw [behind_eq_some.mp first, drop_behind (run_split second).1 (behind_eq_some.mp third)]
    simp [single]

/-- `r"```(\w+)?\n(.*?)```"` with `DOTALL` -/
def fencedPattern (word : Char → Bool) : Pattern Fenced where
  find _ text := fencedAt word text
  spells := Fenced.text
  filled _ := List.cons_ne_nil _ _
  reads found := (fencedAt_eq_some found).imp fun _ same => same.symm

def inlinePattern : Pattern (List Char) where
  find _ text := inlineAt text
  spells := quoted
  filled _ := List.cons_ne_nil _ _
  reads found := (inlineAt_eq_some found).imp fun _ same => same.symm

def linkPattern : Pattern Linked where
  find _ text := linkAt text
  spells := Linked.text
  filled _ := List.cons_ne_nil _ _
  reads found := (linkAt_eq_some found).imp fun _ same => same.symm

def doubledPattern (first second : Char) : Pattern (List Char) where
  find _ text := doubledAt [first, second] text
  spells := doubled [first, second]
  filled _ := List.cons_ne_nil _ _
  reads found := (doubledAt_eq_some found).imp fun _ same => same.symm

def singlePattern (mark : Char) (near : Char → Bool) : Pattern (List Char) where
  find before text := singleAt mark near before text
  spells := single mark
  filled _ := List.cons_ne_nil _ _
  reads found := (singleAt_eq_some found).imp fun _ same => same.1.symm

end Patterns

section Conversion

def entity : Char → Option (List Char)
  | '&' => some "&amp;".toList
  | '<' => some "&lt;".toList
  | '>' => some "&gt;".toList
  | '"' => some "&quot;".toList
  | '\'' => some "&#x27;".toList
  | _ => none

def escapeChar (c : Char) : List Char := (entity c).getD [c]

def escape (text : List Char) : List Char := text.flatMap escapeChar

def tagged (tag content : List Char) : List Char := '<' :: tag ++ '>' :: content ++ '<' :: '/' :: tag ++ ['>']

inductive Kind where
  | codeBlock
  | inlineCode
  | link
  deriving DecidableEq

def Kind.name : Kind → List Char
  | .codeBlock => "CODEBLOCK_".toList
  | .inlineCode => "INLINECODE_".toList
  | .link => "LINK_".toList

def placeholder (kind : Kind) (number : Nat) : List Char :=
  '%' :: '%' :: kind.name ++ Nat.toDigits 10 number ++ ['%', '%']

def codeBlockHtml (block : Fenced) : List Char := tagged "pre".toList (tagged "code".toList (escape block.code))

def inlineCodeHtml (code : List Char) : List Char := tagged "code".toList (escape code)

def linkHtml (link : Linked) : List Char :=
  "<a href=\"".toList ++ escape (stripChars link.url) ++ "\">".toList ++ escape (stripChars link.label) ++ "</a>".toList

/-- The text with placeholders, and what they stand for. -/
structure Stash where
  working : List Char
  codeBlocks : List Fenced
  inlineCodes : List (List Char)
  links : List Linked

def setAside (word : Char → Bool) (source : List Char) : Stash :=
  let blocks := (fencedPattern word).scan source
  let codes := inlinePattern.scan (nameFrom (placeholder .codeBlock) 0 blocks)
  let links := linkPattern.scan (nameFrom (placeholder .inlineCode) 0 codes)
  ⟨nameFrom (placeholder .link) 0 links, matches_ blocks, matches_ codes, matches_ links⟩

def emphasize (word : Char → Bool) (working : List Char) : List Char :=
  let bold := (doubledPattern '*' '*').sub (tagged ['b']) working
  let bolder := (doubledPattern '_' '_').sub (tagged ['b']) bold
  let struck := (doubledPattern '~' '~').sub (tagged ['s']) bolder
  let starred := (singlePattern '*' (· == '*')).sub (tagged ['i']) struck
  let slanted := (singlePattern '_' word).sub (tagged ['i']) starred
  replaceAll ['*', '*'] [] slanted

def isRuleMark (c : Char) : Bool := c == '-' || c == '*' || c == '_'

/-- `re.fullmatch(r"\s*([-*_]\s*)\x7b3,\x7d\s*", line)` -/
def isRule (line : List Char) : Bool := line.all (fun c => isSpace c || isRuleMark c) && decide (3 ≤ line.countP isRuleMark)

/-- The stripped title of a heading. Behind the marks a single white space is no title, and two of them are an empty one. -/
def heading (line : List Char) : Option (List Char) :=
  let opened := line.dropWhile isSpace
  let marks := opened.takeWhile (· == '#')
  let after := opened.dropWhile (· == '#')
  let blanks := after.takeWhile isSpace
  let title := after.dropWhile isSpace
  if marks.isEmpty || decide (6 < marks.length) || blanks.isEmpty || (title.isEmpty && blanks.length == 1) then none
  else some (stripChars title)

/-- `re.sub(r"^\s*>\s?", "│ ", line)` -/
def barred (line : List Char) : List Char :=
  match line.dropWhile isSpace with
  | '>' :: rest => '│' :: ' ' :: if rest.head?.any isSpace then rest.tail else rest
  | _ => line

/-- `re.sub(r"^\s*[*-]\s+", "• ", line)` -/
def bulleted (line : List Char) : List Char :=
  match line.dropWhile isSpace with
  | c :: rest => if (c == '*' || c == '-') && rest.head?.any isSpace then '•' :: ' ' :: rest.dropWhile isSpace else line
  | [] => line

def lineOut (line : List Char) : Option (List Char) :=
  if isRule line then none
  else
    match heading line with
    | some title => some (tagged ['b'] title)
    | none => some (bulleted (barred line))

def formatLines (working : List Char) : List Char := ['\n'].intercalate ((splitlines working).filterMap lineOut)

def restoreFrom (kind : Kind) : Nat → List (List Char) → List Char → List Char
  | _, [], working => working
  | number, html :: kept, working => restoreFrom kind (number + 1) kept (replaceAll (placeholder kind number) html working)

/-- The text before what was set aside is put back. -/
def formatted (word : Char → Bool) (aside : Stash) : List Char := formatLines (emphasize word (escape aside.working))

/-- `word` is the class `\w` of the regular expressions. -/
def markdownishToHtml (word : Char → Bool) (source : List Char) : List Char :=
  let aside := setAside word source
  let coded := restoreFrom .inlineCode 0 (aside.inlineCodes.map inlineCodeHtml) (formatted word aside)
  let blocked := restoreFrom .codeBlock 0 (aside.codeBlocks.map codeBlockHtml) coded
  restoreFrom .link 0 (aside.links.map linkHtml) blocked

def tagAt (text : List Char) : Option (List Char) := do
  let opened ← behind ['<'] text
  let content ← run (· != '>') opened
  let _ ← behind ['>'] (opened.drop content.length)
  return content

theorem tagAt_eq_some {text content : List Char} (found : tagAt text = some content) :
    ∃ rest, text = '<' :: content ++ ['>'] ++ rest := by
  simp only [tagAt, Option.bind_eq_bind, Option.bind_eq_some_iff, Option.pure_def, Option.some.injEq] at found
  obtain ⟨opened, first, inside, second, rest, third, rfl⟩ := found
  refine ⟨rest, ?_⟩
  rw [behind_eq_some.mp first, drop_behind (run_split second).1 (behind_eq_some.mp third)]
  simp

def tagPattern : Pattern (List Char) where
  find _ text := tagAt text
  spells content := '<' :: content ++ ['>']
  filled _ := List.cons_ne_nil _ _
  reads found := (tagAt_eq_some found).imp fun _ same => same.symm

theorem escapeChar_ne_nil (c : Char) : escapeChar c ≠ [] := by
  rw [escapeChar]
  unfold entity
  split <;> exact List.cons_ne_nil _ _

/-- The entities that `escape` writes; no other ones come from the conversion. -/
def entityPattern : Pattern Char where
  find _ text := ['&', '<', '>', '"', '\''].find? fun c => (escapeChar c).isPrefixOf text
  spells := escapeChar
  filled := escapeChar_ne_nil
  reads found := by
    have stands := List.find?_some found
    exact List.isPrefixOf_iff_prefix.mp stands

def telegramHtmlToPlain (text : List Char) : List Char :=
  entityPattern.sub (fun c => [c]) (tagPattern.sub (fun _ => []) text)

end Conversion

section Escaping

theorem escape_cons (c : Char) (text : List Char) : escape (c :: text) = escapeChar c ++ escape text := List.flatMap_cons

theorem entity_shape {c : Char} {name : List Char} (special : entity c = some name) :
    c ∈ ['&', '<', '>', '"', '\''] ∧ ∃ rest, name = '&' :: rest ∧ ∀ d ∈ rest, d ≠ '<' ∧ d ≠ '>' ∧ d ≠ '&' ∧ d ≠ '%' := by
  unfold entity at special
  split at special
  case h_6 => cases special
  all_goals
    obtain rfl := Option.some.inj special
    exact ⟨by decide, _, rfl, by decide⟩

theorem length_escape_le (text : List Char) : (escape text).length ≤ 6 * text.length := by
  induction text with
  | nil => exact Nat.le_refl 0
  | cons c text ih =>
    have one : (escapeChar c).length ≤ 6 := by
      rw [escapeChar]
      unfold entity
      split
      case h_6 => exact Nat.le_of_ble_eq_true rfl
      all_goals decide
    rw [escape_cons, List.length_append, List.length_cons]
    omega

theorem not_mem_escape (text : List Char) : '<' ∉ escape text ∧ '>' ∉ escape text := by
  have one (c : Char) : ∀ d ∈ escapeChar c, d ≠ '<' ∧ d ≠ '>' := by
    intro d member
    rw [escapeChar] at member
    cases special : entity c with
    | none =>
      obtain rfl : d = c := by simpa [special] using member
      constructor <;> rintro rfl <;> cases special
    | some name =>
      rw [special, Option.getD_some] at member
      obtain ⟨_, rest, rfl, clean⟩ := entity_shape special
      rcases List.mem_cons.mp member with rfl | inside
      · decide
      · exact ⟨(clean d inside).1, (clean d inside).2.1⟩
  constructor <;> intro member <;> obtain ⟨c, _, inside⟩ := List.mem_flatMap.mp member
  · exact (one c _ inside).1 rfl
  · exact (one c _ inside).2 rfl

theorem find_entity {c : Char} {name : List Char} (special : entity c = some name) (before : Option Char) (rest : List Char) :
    entityPattern.find before (name ++ rest) = some c := by
  unfold entity at special
  split at special
  case h_6 => cases special
  all_goals
    obtain rfl := Option.some.inj special
    rfl

theorem find_plain {c : Char} (plain : entity c = none) (before : Option Char) (rest : List Char) :
    entityPattern.find before (c :: rest) = none := by
  refine List.find?_eq_none.mpr fun d member stands => ?_
  obtain ⟨tail, same⟩ := List.isPrefixOf_iff_prefix.mp stands
  have started : c = '&' := by
    simp only [List.mem_cons, List.not_mem_nil, or_false] at member
    rcases member with rfl | rfl | rfl | rfl | rfl <;> exact (List.cons.inj same).1.symm
  rw [started] at plain
  cases plain

theorem sub_entity_escape (text : List Char) : entityPattern.sub (fun c => [c]) (escape text) = text := by
  suffices general : ∀ before, spell (fun c => [c]) (entityPattern.scanFrom 0 before (escape text)) = text from general none
  induction text with
  | nil => exact fun _ => rfl
  | cons c text ih =>
    intro before
    rw [escape_cons]
    cases special : entity c with
    | none =>
      have plain : escapeChar c = [c] := by rw [escapeChar, special, Option.getD_none]
      rw [plain, List.singleton_append, entityPattern.scanFrom_none (find_plain special before _)]
      exact congrArg (c :: ·) (ih (some c))
    | some name =>
      have named : escapeChar c = name := by rw [escapeChar, special, Option.getD_some]
      rw [named, entityPattern.scanFrom_some (find_entity special before _) (by rw [← named]; rfl)]
      exact congrArg (c :: ·) (ih _)

/-- Escaped text is read as what it was. -/
theorem telegramHtmlToPlain_escape (text : List Char) : telegramHtmlToPlain (escape text) = text := by
  have untagged : tagPattern.sub (fun _ => []) (escape text) = escape text := by
    refine tagPattern.sub_quiet _ fun before rest ends => ?_
    cases found : tagPattern.find before rest with
    | none => rfl
    | some content =>
      obtain ⟨later, same⟩ := tagAt_eq_some found
      exact absurd (ends.subset (by rw [same]; exact List.mem_cons_self)) (not_mem_escape text).1
  rw [telegramHtmlToPlain, untagged, sub_entity_escape]

theorem length_telegramHtmlToPlain_le (text : List Char) : (telegramHtmlToPlain text).length ≤ text.length := by
  have decoded := entityPattern.length_sub_le (fun c => [c]) (fun c => List.length_pos_iff.mpr (escapeChar_ne_nil c))
    (tagPattern.sub (fun _ => []) text)
  exact decoded.trans (tagPattern.length_sub_le (fun _ => []) (fun _ => Nat.zero_le _) text)

end Escaping

end OpenTulpa.Telegram.Formatting
