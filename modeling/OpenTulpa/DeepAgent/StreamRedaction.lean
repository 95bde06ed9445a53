import OpenTulpa.DeepAgent.LangfuseRedaction

/-! The answer of a run as it is persisted. Every chunk of it is redacted on its own when its event is appended, and the
joined text is redacted when the run is completed; the two agree only where nothing in the text could be taken for a secret. -/

namespace OpenTulpa.DeepAgent.StreamRedaction

open Library Text Spaces Regex LangfuseRedaction

section Stream

variable (words : WordChars)

/-- What a run leaves of its answer: the data of its `message.delta` events, its final text, and the data of `run.completed`. -/
structure Persisted where
  deltas : List (List (String × List Char))
  finalText : List Char
  completed : List (String × List Char)

/-- `_last_ai_text` of the texts of the model's messages in the state -/
def lastAiText (messages : List (List Char)) : List Char :=
  ((messages.reverse.map stripChars).find? fun text => text ≠ []).getD []

/-- `_stream_graph` of a run that completes: the events of the chunks that have a text, and the text that completes the run,
which is taken from the messages in the state where the chunks have left none. -/
def streamGraph (messages chunks : List (List Char)) : Persisted :=
  let finalParts := chunks.filter fun text => text ≠ []
  let joined := stripChars finalParts.flatten
  let finalText := if joined = [] then lastAiText messages else joined
  { deltas := finalParts.map fun text => redactForLangfuse words [("text", text)]
    finalText := publicText words finalText
    completed := redactForLangfuse words [("text", finalText)] }

/-- The text of an event -/
def textOf (data : List (String × List Char)) : List Char := (data.lookup "text").getD []

end Stream

section Answers

variable (words : WordChars)

/-- The answer that the deltas make up -/
def Persisted.streamed (run : Persisted) : List Char := (run.deltas.map textOf).flatten

/-- No expression of the redaction matches in the text. -/
def Unmatched (text : List Char) : Prop :=
  isData text = false ∧ search privateKeyBlock text = none ∧ ∀ inline ∈ inlines words, search inline.regex text = none

/-- However the text is cut into chunks, the answer that is streamed is the one that completes the run. -/
structure Agrees (messages : List (List Char)) (text : List Char) : Prop where
  completed : ∀ chunks : List (List Char), chunks.flatten = text →
    textOf (streamGraph words messages chunks).completed = (streamGraph words messages chunks).finalText
  streamed : ∀ chunks : List (List Char), chunks.flatten = text →
    stripChars (streamGraph words messages chunks).streamed = stripChars (streamGraph words messages chunks).finalText
  alike : ∀ chunks others : List (List Char), chunks.flatten = text → others.flatten = text →
    stripChars (streamGraph words messages chunks).streamed = stripChars (streamGraph words messages others).streamed ∧
      (streamGraph words messages chunks).finalText = (streamGraph words messages others).finalText
  unmatched : Unmatched words text → ∀ chunks : List (List Char), chunks.flatten = text →
    stripChars (streamGraph words messages chunks).finalText = stripChars text

variable {words} {messages : List (List Char)} {text : List Char}

theorem textOf_redact (text : List Char) : textOf (redactForLangfuse words [("text", text)]) = redactString words text := by
  have shown : (search secretKey "text".toList).isSome = false := by decide +kernel
  have silent : ¬ (stripChars ((List.lookup "type" [("text", text)]).getD []) = "input_audio".toList ∧
      (List.lookup "data" [("text", text)]).isSome = true) := fun audio => Bool.false_ne_true audio.2
  simp only [redactForLangfuse, if_neg silent, List.map_cons, List.map_nil, shown, Bool.false_eq_true, if_false]
  rfl

/-- What completes a run, before it is redacted -/
def answer (messages : List (List Char)) (text : List Char) : List Char :=
  if stripChars text = [] then lastAiText messages else stripChars text

theorem finalText_eq (chunks : List (List Char)) :
    (streamGraph words messages chunks).finalText = redactString words (answer messages chunks.flatten) := by
  simp only [streamGraph, List.flatten_filter_ne_nil]
  rfl

theorem completed_eq (chunks : List (List Char)) :
    textOf (streamGraph words messages chunks).completed = redactString words (answer messages chunks.flatten) := by
  simp only [streamGraph, List.flatten_filter_ne_nil]
  exact textOf_redact _

theorem streamed_eq (chunks : List (List Char)) :
    (streamGraph words messages chunks).streamed = (chunks.map (redactString words)).flatten := by
  have empty : redactString words [] = [] := redactString_of_quiet (quiet_of_short (Nat.zero_le 1))
  simp only [Persisted.streamed, streamGraph, List.map_map, Function.comp_def, textOf_redact]
  induction chunks with
  | nil => rfl
  | cons chunk chunks ih =>
    rw [List.map_cons, List.flatten_cons, ← ih]
    by_cases filled : chunk = []
    · rw [List.filter_cons_of_neg (by simpa using filled), filled, empty, List.nil_append]
    · rw [List.filter_cons_of_pos (by simpa using filled), List.map_cons, List.flatten_cons]

theorem stripped_within (text : List Char) : stripChars text <:+: text :=
  (List.rdropWhile_prefix isSpace _).isInfix.trans (List.dropWhile_suffix isSpace).isInfix

/-- A quiet text is streamed as it is, and completes the run but for the white space around it. -/
theorem agrees_of_quiet (quiet : Quiet words text) (known : stripChars text = [] → lastAiText messages = []) :
    Agrees words messages text := by
  have final : ∀ chunks : List (List Char), chunks.flatten = text →
      (streamGraph words messages chunks).finalText = stripChars text := by
    rintro chunks rfl
    have same : answer messages chunks.flatten = stripChars chunks.flatten := by
      by_cases blank : stripChars chunks.flatten = []
      · rw [answer, if_pos blank, known blank, blank]
      · exact if_neg blank
    rw [finalText_eq, same, redactString_of_quiet (quiet.inside (stripped_within _))]
  have stream : ∀ chunks : List (List Char), chunks.flatten = text → (streamGraph words messages chunks).streamed = text := by
    rintro chunks rfl
    have same : chunks.map (redactString words) = chunks.map id := by
      refine List.map_congr_left fun chunk member => redactString_of_quiet (quiet.inside ?_)
      obtain ⟨before, after, rfl⟩ := List.append_of_mem member
      exact ⟨before.flatten, after.flatten, by rw [List.flatten_append, List.flatten_cons, List.append_assoc]⟩
    rw [streamed_eq, same, List.map_id]
  exact {
    completed := fun chunks _ => (completed_eq chunks).trans (finalText_eq chunks).symm
    streamed := fun chunks same => by rw [stream chunks same, final chunks same, stripChars_idem]
    alike := fun chunks others same also => by
      rw [stream chunks same, stream others also, final chunks same, final others also]
      exact ⟨rfl, rfl⟩
    unmatched := fun _ chunks same => by rw [final chunks same, stripChars_idem] }

/-- A chunk for every character -/
def singles (text : List Char) : List (List Char) := text.map fun c => [c]

theorem flatten_singles (text : List Char) : (singles text).flatten = text := by
  induction text with
  | nil => rfl
  | cons c text ih => exact congrArg (c :: ·) ih

/-- A character alone is never redacted. -/
theorem redacted_singles (text : List Char) : ((singles text).map (redactString words)).flatten = text := by
  have same : (singles text).map (redactString words) = singles text := by
    rw [singles, List.map_map]
    exact List.map_congr_left fun c _ => redactString_of_quiet (quiet_of_short le_rfl)
  rw [same, flatten_singles]

/-- Where the answers agree nothing in the text can be redacted: the least piece that can would be a chunk of its own. -/
theorem Agrees.quiet (agrees : Agrees words messages text) : Quiet words text := by
  intro piece inside triggers
  obtain ⟨least, ⟨⟨front, back, whole⟩, changes⟩, smallest⟩ := WellFounded.has_min (measure List.length).wf
    {piece | piece <:+: text ∧ Triggers words piece} ⟨piece, inside, triggers⟩
  have only : ∀ other, other <:+: least → Triggers words other → other = least := by
    intro other within also
    have small : ¬ other.length < least.length := smallest other ⟨within.trans ⟨front, back, whole⟩, also⟩
    exact within.eq_of_length_le (Nat.not_lt.mp small)
  have apart : (singles front ++ [least] ++ singles back).flatten = text := by
    rw [List.flatten_append, List.flatten_append, flatten_singles, flatten_singles, List.flatten_singleton, whole]
  have same := congrArg visible (agrees.alike _ _ apart (flatten_singles text)).1
  rw [visible_stripChars, visible_stripChars, streamed_eq, streamed_eq, redacted_singles, List.map_append, List.map_append,
    List.flatten_append, List.flatten_append, redacted_singles, redacted_singles, List.map_singleton, List.flatten_singleton,
    ← whole, visible_append, visible_append, visible_append, visible_append] at same
  exact visible_redactString_ne changes only (List.append_cancel_left (List.append_cancel_right same))

theorem stripChars_lastAiText (messages : List (List Char)) : stripChars (lastAiText messages) = lastAiText messages := by
  rw [lastAiText]
  cases found : (messages.reverse.map stripChars).find? fun text => text ≠ [] with
  | none => rfl
  | some text =>
    obtain ⟨message, -, rfl⟩ := List.mem_map.mp (List.mem_of_find?_eq_some found)
    exact stripChars_idem message

/-- Where the answers agree a blank text has not been replaced by what the state holds. -/
theorem Agrees.known (agrees : Agrees words messages text) (blank : stripChars text = []) : lastAiText messages = [] := by
  have same := agrees.streamed _ (flatten_singles text)
  rw [streamed_eq, redacted_singles, finalText_eq, flatten_singles, answer, if_pos blank, blank] at same
  have hidden : visible (redactString words (lastAiText messages)) = [] := stripChars_eq_nil.mp same.symm
  have unshown : visible (lastAiText messages) = [] := by
    by_contra shown
    exact visible_redactString shown hidden
  rw [← stripChars_lastAiText]
  exact stripChars_eq_nil.mpr unshown

/-- The answers agree exactly where nothing in the text can be redacted, and the state holds no answer in place of a blank one. -/
theorem agrees_iff : Agrees words messages text ↔ Quiet words text ∧ (stripChars text = [] → lastAiText messages = []) :=
  ⟨fun agrees => ⟨agrees.quiet, agrees.known⟩, fun both => agrees_of_quiet both.1 both.2⟩

end Answers

section Samples

/-- The word characters of ASCII, and the letters that `IGNORECASE` relates to them. -/
def isPlainWord (c : Char) : Bool := c.isAlphanum || c == '_' || (128 ≤ c.toNat && isLetterIgnoringCase c)

theorem isPlainWord_ascii (c : Char) (small : c.toNat < 128) : isPlainWord c = (c.isAlphanum || c == '_') := by
  have low : decide (128 ≤ c.toNat) = false := decide_eq_false (Nat.not_le.mpr small)
  rw [isPlainWord, low, Bool.false_and, Bool.or_false]

theorem isPlainWord_letter (c : Char) (letter : isLetterIgnoringCase c = true) : isPlainWord c = true := by
  rw [isPlainWord]
  by_cases high : 128 ≤ c.toNat
  · rw [decide_eq_true high, letter]
    exact Bool.or_true _
  · have plain : c.isAlpha = true := by
      simp only [isLetterIgnoringCase, Bool.or_eq_true, beq_iff_eq] at letter
      rcases letter with (((alpha | dotted) | dotless) | long) | kelvin
      · exact alpha
      all_goals omega
    simp only [Char.isAlphanum, plain, Bool.true_or]

theorem isPlainWord_space (c : Char) (white : isSpace c = true) : isPlainWord c = false := by
  have plain : c.isAlphanum = false := Bool.eq_false_iff.mpr fun alphanumeric => by
    rw [isSpace_of_isAlphanum alphanumeric] at white
    cases white
  have under : (c == '_') = false := Bool.eq_false_iff.mpr fun same => by
    rw [beq_iff_eq.mp same] at white
    exact absurd white (by decide)
  have letter : isLetterIgnoringCase c = false := Bool.eq_false_iff.mpr fun letter => by
    have shown := inValue_of_letter letter
    rw [inValue, white] at shown
    cases shown
  rw [isPlainWord, plain, under, letter, Bool.and_false]
  rfl

def plainWords : WordChars := ⟨isPlainWord, isPlainWord_ascii, isPlainWord_letter, isPlainWord_space⟩

/-- A secret that is cut in two shows its end in the deltas. -/
theorem cut_secret_leaks :
    (streamGraph plainWords [] ["password: hun".toList, "ter2".toList]).streamed = "password: [redacted]ter2".toList ∧
      (streamGraph plainWords [] ["password: hun".toList, "ter2".toList]).finalText = "password: [redacted]".toList ∧
      ¬ Agrees plainWords [] "password: hunter2".toList := by
  have streamed : (streamGraph plainWords [] ["password: hun".toList, "ter2".toList]).streamed =
      "password: [redacted]ter2".toList := by decide +kernel
  have final : (streamGraph plainWords [] ["password: hun".toList, "ter2".toList]).finalText = "password: [redacted]".toList := by
    decide +kernel
  refine ⟨streamed, final, fun agrees => ?_⟩
  have same := agrees.streamed ["password: hun".toList, "ter2".toList] (by decide)
  rw [streamed, final] at same
  exact absurd same (by decide)

end Samples

end OpenTulpa.DeepAgent.StreamRedaction
