import Mathlib.Algebra.BigOperators.Ring.List
import Mathlib.Algebra.Order.BigOperators.Group.List
import Mathlib.Algebra.Order.Ring.Nat
import OpenTulpa.Telegram.Formatting

/-! A text as it is cut into messages. Pieces whose HTML is too long are halved until it fits, a short piece that stays
too long is sent as plain text, and whatever the pieces are, they keep every visible character of the text. -/

namespace OpenTulpa.Telegram.Chunks

open Library.Text Library.Spaces Library.Substitution Formatting

section Cutting

def telegramTextCharLimit : Nat := 3800

/-- `str.rfind` from a floor on. -/
def rfind (mark text : List Char) (floor : Nat) : Option Nat :=
  ((List.range text.length).filter fun start => decide (floor ≤ start) && mark.isPrefixOf (text.drop start)).getLast?

/-- The last place where one of the marks stands, and 0 when there is none. -/
def bestCut (marks : List (List Char)) (text : List Char) (floor : Nat) : Nat :=
  (marks.filterMap fun mark => rfind mark text floor).foldl max 0

def sentenceMarks : List (List Char) := [['\n', '\n'], ['\n'], ['.', ' '], ['!', ' '], ['?', ' ']]

def splitMarks : List (List Char) := sentenceMarks ++ [[';', ' '], [',', ' '], [' ']]

def truncationNote : List Char := "\n\n[Truncated to fit Telegram.]".toList

def truncatePlainText (maxChars : Nat) (text : List Char) : List Char :=
  let raw := stripChars text
  if raw.length ≤ maxChars then raw
  else
    let keep := max 120 (maxChars - truncationNote.length)
    let clipped := rstrip (raw.take keep)
    let cut := bestCut sentenceMarks clipped (keep * 6 / 10)
    (if 0 < cut then rstrip (clipped.take cut) else clipped) ++ truncationNote

/-- Where the loop of `split_text_for_telegram` cuts what remains. -/
def cutAt (limit : Nat) (remaining : List Char) : Nat :=
  let cut := bestCut splitMarks (rstrip (remaining.take limit)) (limit * 55 / 100)
  if cut = 0 then limit else cut

theorem cutAt_pos (limit : Nat) (positive : 0 < limit) (remaining : List Char) : 0 < cutAt limit remaining := by
  simp only [cutAt]
  split <;> omega

theorem length_stripChars_le (text : List Char) : (stripChars text).length ≤ text.length :=
  by
  have back := (List.rdropWhile_prefix isSpace (l := text.dropWhile isSpace)).length_le
  exact back.trans (List.dropWhile_suffix isSpace).length_le

theorem length_rstrip_le (text : List Char) : (rstrip text).length ≤ text.length := by
  have back := List.rdropWhile_prefix isSpace (l := text)
  exact back.length_le

/-- The loop of `split_text_for_telegram`. -/
def splitRemaining (maxChars : Nat) (remaining : List Char) : List (List Char) :=
  let limit := max 120 maxChars
  if remaining = [] then []
  else if remaining.length ≤ limit then [stripChars remaining]
  else
    let cut := cutAt limit remaining
    let chunk := stripChars (remaining.take cut)
    (if chunk.isEmpty then [] else [chunk]) ++ splitRemaining maxChars (stripChars (remaining.drop cut))
termination_by remaining.length
decreasing_by
  have shorter := length_stripChars_le (remaining.drop (cutAt (max 120 maxChars) remaining))
  have moved := cutAt_pos (max 120 maxChars) (by omega) remaining
  rw [List.length_drop] at shorter
  omega

def splitTextForTelegram (maxChars : Nat) (text : List Char) : List (List Char) := splitRemaining maxChars (stripChars text)

theorem visible_ne_nil_of_stripped {text : List Char} (stripped : stripChars text = text) (filled : text ≠ []) :
    visible text ≠ [] := fun blank => filled (stripped.symm.trans (stripChars_eq_nil.mpr blank))

/-- A piece of a text that has been cut. -/
structure Piece (limit : Nat) (piece : List Char) : Prop where
  stripped : stripChars piece = piece
  shown : visible piece ≠ []
  fits : piece.length ≤ limit

theorem Piece.of_part {limit : Nat} {part : List Char} (shown : visible part ≠ []) (fits : part.length ≤ limit) :
    Piece limit (stripChars part) where
  stripped := stripChars_idem part
  shown := by rwa [visible_stripChars]
  fits := (length_stripChars_le part).trans fits

/-- The part cut off, when anything of it is visible. -/
theorem chunk_pieces {limit : Nat} {part : List Char} (fits : part.length ≤ limit) :
    ∀ piece ∈ (if (stripChars part).isEmpty then [] else [stripChars part]), Piece limit piece := by
  intro piece member
  split at member
  · cases member
  · rename_i filled
    obtain rfl := List.mem_singleton.mp member
    refine Piece.of_part (fun blank => filled ?_) fits
    rw [stripChars_eq_nil.mpr blank]
    rfl

theorem chunk_visible (part : List Char) :
    (if (stripChars part).isEmpty then [] else [stripChars part]).flatMap visible = visible part := by
  split
  · rename_i empty
    exact (stripChars_eq_nil.mp (List.isEmpty_iff.mp empty)).symm
  · rw [List.flatMap_singleton, visible_stripChars]

theorem chunk_length_le (part : List Char) :
    ((if (stripChars part).isEmpty then [] else [stripChars part]).map List.length).sum ≤ part.length := by
  split
  · exact Nat.zero_le _
  · simpa using length_stripChars_le part

theorem lt_of_mem_rfind {mark text : List Char} {floor cut : Nat} (found : rfind mark text floor = some cut) :
    cut < text.length := by
  have member := List.mem_of_getLast? found
  exact List.mem_range.mp (List.mem_filter.mp member).1

theorem bestCut_lt {marks : List (List Char)} {text : List Char} {floor : Nat} (positive : 0 < bestCut marks text floor) :
    bestCut marks text floor < text.length := by
  have largest : ∀ (cuts : List Nat) (start : Nat), cuts.foldl max start = start ∨ cuts.foldl max start ∈ cuts := by
    intro cuts
    induction cuts with
    | nil => exact fun start => Or.inl rfl
    | cons cut cuts ih =>
      intro start
      rcases ih (max start cut) with same | later
      · rcases Nat.le_total start cut with below | above
        · exact Or.inr (by rw [List.foldl_cons, same, Nat.max_eq_right below]; exact List.mem_cons_self)
        · exact Or.inl (by rw [List.foldl_cons, same, Nat.max_eq_left above])
      · exact Or.inr (List.mem_cons_of_mem _ later)
  rcases largest (marks.filterMap fun mark => rfind mark text floor) 0 with none | member
  · exact absurd (Nat.lt_of_lt_of_eq positive none) (Nat.lt_irrefl 0)
  · obtain ⟨mark, _, found⟩ := List.mem_filterMap.mp member
    exact lt_of_mem_rfind found

theorem cutAt_le (limit : Nat) (remaining : List Char) : cutAt limit remaining ≤ limit := by
  simp only [cutAt]
  split
  · exact Nat.le_refl limit
  · rename_i found
    have inside := bestCut_lt (Nat.pos_of_ne_zero found)
    have clipped : (rstrip (remaining.take limit)).length ≤ limit := by
      have shorter := (List.rdropWhile_prefix isSpace (l := remaining.take limit)).length_le
      have taken := List.length_take_le limit remaining
      rw [rstrip]
      omega
    omega

theorem splitRemaining_piece (maxChars : Nat) {remaining : List Char} (stripped : stripChars remaining = remaining) :
    ∀ piece ∈ splitRemaining maxChars remaining, Piece (max 120 maxChars) piece := by
  induction remaining using splitRemaining.induct maxChars with
  | case1 => simp [splitRemaining]
  | case2 remaining limit filled short =>
    rw [splitRemaining, if_neg filled, if_pos short]
    intro piece member
    obtain rfl := List.mem_singleton.mp member
    exact Piece.of_part (visible_ne_nil_of_stripped stripped filled) short
  | case3 remaining limit filled long cut ih =>
    rw [splitRemaining, if_neg filled, if_neg long]
    have part : (remaining.take cut).length ≤ limit := (List.length_take_le _ _).trans (cutAt_le limit remaining)
    intro piece member
    rcases List.mem_append.mp member with first | later
    · exact chunk_pieces part piece first
    · exact ih (stripChars_idem _) piece later

theorem splitRemaining_visible (maxChars : Nat) (remaining : List Char) :
    (splitRemaining maxChars remaining).flatMap visible = visible remaining := by
  induction remaining using splitRemaining.induct maxChars with
  | case1 => simp [splitRemaining, visible]
  | case2 remaining limit filled short =>
    rw [splitRemaining, if_neg filled, if_pos short, List.flatMap_singleton, visible_stripChars]
  | case3 remaining limit filled long cut ih =>
    rw [splitRemaining, if_neg filled, if_neg long]
    simp only [List.flatMap_append]
    rw [chunk_visible, ih, visible_stripChars, ← visible_append, List.take_append_drop]

theorem splitRemaining_length_le (maxChars : Nat) (remaining : List Char) :
    ((splitRemaining maxChars remaining).map List.length).sum ≤ remaining.length := by
  induction remaining using splitRemaining.induct maxChars with
  | case1 => simp [splitRemaining]
  | case2 remaining limit filled short =>
    rw [splitRemaining, if_neg filled, if_pos short]
    simpa using length_stripChars_le remaining
  | case3 remaining limit filled long cut ih =>
    rw [splitRemaining, if_neg filled, if_neg long]
    have first := chunk_length_le (remaining.take cut)
    have later := length_stripChars_le (remaining.drop cut)
    simp only [List.map_append, List.sum_append]
    calc
      _ ≤ (remaining.take cut).length + (remaining.drop cut).length := Nat.add_le_add first (ih.trans later)
      _ = remaining.length := by rw [← List.length_append, List.take_append_drop]

theorem split_piece (maxChars : Nat) (text : List Char) :
    ∀ piece ∈ splitTextForTelegram maxChars text, Piece (max 120 maxChars) piece :=
  splitRemaining_piece maxChars (stripChars_idem text)

theorem split_visible (maxChars : Nat) (text : List Char) :
    (splitTextForTelegram maxChars text).flatMap visible = visible text := by
  rw [splitTextForTelegram, splitRemaining_visible, visible_stripChars]

theorem split_length_le (maxChars : Nat) (text : List Char) :
    ((splitTextForTelegram maxChars text).map List.length).sum ≤ text.length :=
  (splitRemaining_length_le maxChars _).trans (length_stripChars_le text)

end Cutting

section Formatting

variable (word : Char → Bool)

/-- The size of the work that is left in the loop of `prepare_text_chunks_and_mode`. -/
def weight (pending : List (List Char)) : Nat := (pending.map fun chunk => chunk.length * chunk.length + 1).sum

/-- Cutting a long piece into shorter ones takes work away. -/
theorem weight_split_lt {chunk : List Char} (long : 120 < chunk.length) :
    weight (splitTextForTelegram (max 120 (chunk.length / 2)) chunk) < chunk.length * chunk.length + 1 := by
  have part : ∀ piece ∈ splitTextForTelegram (max 120 (chunk.length / 2)) chunk, piece.length * piece.length + 1 ≤
      chunk.length * piece.length := by
    intro piece member
    obtain ⟨_, shown, fits⟩ := split_piece _ chunk piece member
    have some_ : 0 < piece.length := List.length_pos_iff.mpr fun empty => shown (by rw [empty]; rfl)
    have shorter : piece.length + 1 ≤ chunk.length := by omega
    calc
      piece.length * piece.length + 1 ≤ piece.length * piece.length + piece.length := by omega
      _ = (piece.length + 1) * piece.length := by rw [Nat.add_mul, Nat.one_mul]
      _ ≤ chunk.length * piece.length := Nat.mul_le_mul_right _ shorter
  have total := split_length_le (max 120 (chunk.length / 2)) chunk
  generalize splitTextForTelegram (max 120 (chunk.length / 2)) chunk = pieces at part total
  refine Nat.lt_succ_of_le ?_
  calc
    weight pieces ≤ (pieces.map fun piece => chunk.length * piece.length).sum := List.sum_le_sum part
    _ = chunk.length * (pieces.map List.length).sum := by rw [List.sum_map_mul_left]
    _ ≤ chunk.length * chunk.length := Nat.mul_le_mul_left _ total

/-- The loop of `prepare_text_chunks_and_mode`: each plain piece with what is sent for it. -/
def formatPending : List (List Char) → List (List Char × List Char)
  | [] => []
  | chunk :: pending =>
    if (markdownishToHtml word chunk).length ≤ telegramTextCharLimit then
      (chunk, markdownishToHtml word chunk) :: formatPending pending
    else if chunk.length ≤ 120 then
      (chunk, escape (truncatePlainText (telegramTextCharLimit - 32) chunk)) :: formatPending pending
    else formatPending (splitTextForTelegram (max 120 (chunk.length / 2)) chunk ++ pending)
termination_by pending => weight pending
decreasing_by
  · simp [weight]
  · simp [weight]
  · rename_i long
    have less := weight_split_lt (Nat.lt_of_not_le long)
    simp only [weight, List.map_append, List.sum_append, List.map_cons, List.sum_cons] at less ⊢
    omega

/-- The plain pieces of a text and the messages made of them. -/
def preparedPieces (text : List Char) : List (List Char × List Char) :=
  let raw := stripChars text
  let html := markdownishToHtml word raw
  if raw.isEmpty then []
  else if html.length ≤ telegramTextCharLimit then [(raw, html)]
  else formatPending word (splitTextForTelegram (telegramTextCharLimit - 700) raw)

def isHtml (parseMode : Option (List Char)) : Bool :=
  match parseMode with
  | none => true
  | some mode => mode.isEmpty || mode.map Char.toUpper == "HTML".toList

def html : List Char := "HTML".toList

def prepareTextChunksAndMode (text : List Char) (parseMode : Option (List Char)) : List (List Char) × Option (List Char) :=
  let raw := stripChars text
  if raw.isEmpty then ([], parseMode)
  else if isHtml parseMode then ((preparedPieces word text).map Prod.snd, some html)
  else (splitTextForTelegram telegramTextCharLimit raw, parseMode)

def prepareTextAndMode (text : List Char) (parseMode : Option (List Char)) : List Char × Option (List Char) :=
  let raw := truncatePlainText telegramTextCharLimit (stripChars text)
  if raw.isEmpty then ([], parseMode)
  else if isHtml parseMode then
    let formatted := markdownishToHtml word raw
    if formatted.length ≤ telegramTextCharLimit then (formatted, some html)
    else (escape (truncatePlainText (telegramTextCharLimit - 32) raw), some html)
  else (truncatePlainText telegramTextCharLimit raw, parseMode)

end Formatting

section Sending

variable (word : Char → Bool)

/-- A message that is neither empty nor too long. -/
structure Sendable (message : List Char) : Prop where
  shows : visible (telegramHtmlToPlain message) ≠ []
  fits : message.length ≤ telegramTextCharLimit

/-- A text that is sent whole in its messages, and of which an edit of a message shows something. -/
structure Sent (text : List Char) : Prop where
  messages : (prepareTextChunksAndMode word text (some html)).1 = (preparedPieces word text).map Prod.snd
  some_ : (prepareTextChunksAndMode word text (some html)).1 ≠ []
  sendable : ∀ message ∈ (prepareTextChunksAndMode word text (some html)).1, Sendable message
  whole : visible ((preparedPieces word text).map Prod.fst).flatten = visible text
  shows : visible (telegramHtmlToPlain (prepareTextAndMode word text (some html)).1) ≠ []
  fits : (telegramHtmlToPlain (prepareTextAndMode word text (some html)).1).length ≤ telegramTextCharLimit

/-- A text whose HTML fits into a message and shows nothing. -/
def MarkupAlone (text : List Char) : Prop :=
  (markdownishToHtml word text).length ≤ telegramTextCharLimit ∧ visible (telegramHtmlToPlain (markdownishToHtml word text)) = []

instance decidableMarkupAlone (text : List Char) : Decidable (MarkupAlone word text) := inferInstanceAs (Decidable (_ ∧ _))

/-- How a plain piece is sent: as its HTML, or escaped when that is too long. -/
inductive Prepared (piece : List Char) : List Char → Prop
  | html (fits : (markdownishToHtml word piece).length ≤ telegramTextCharLimit) : Prepared piece (markdownishToHtml word piece)
  | plain (long : telegramTextCharLimit < (markdownishToHtml word piece).length) (shown : visible piece ≠ [])
      (short : 6 * piece.length ≤ telegramTextCharLimit) : Prepared piece (escape piece)

variable {word}

theorem Prepared.sendable_iff {piece message : List Char} (prepared : Prepared word piece message) :
    Sendable message ↔ ¬ MarkupAlone word piece := by
  cases prepared with
  | html fits => exact ⟨fun sendable alone => sendable.shows alone.2, fun shows => ⟨fun blank => shows ⟨fits, blank⟩, fits⟩⟩
  | plain long shown short =>
    have sendable : Sendable (escape piece) :=
      ⟨by rwa [telegramHtmlToPlain_escape], (length_escape_le piece).trans short⟩
    exact iff_of_true sendable fun alone => absurd alone.1 (Nat.not_le_of_lt long)

theorem truncate_short {maxChars : Nat} {text : List Char} (stripped : stripChars text = text)
    (short : text.length ≤ maxChars) : truncatePlainText maxChars text = text := by
  rw [truncatePlainText, stripped]
  exact if_pos short

theorem truncate_shown (maxChars : Nat) {text : List Char} (shown : visible text ≠ []) :
    visible (truncatePlainText maxChars text) ≠ [] := by
  simp only [truncatePlainText]
  split
  · rwa [visible_stripChars]
  · rw [visible_append]
    exact List.append_ne_nil_of_right_ne_nil _ (by decide)

theorem length_truncate_le (maxChars : Nat) (enough : 150 ≤ maxChars) (text : List Char) :
    (truncatePlainText maxChars text).length ≤ maxChars := by
  have note : truncationNote.length = 30 := by decide
  simp only [truncatePlainText]
  split
  · assumption
  · have clipped := length_rstrip_le ((stripChars text).take (max 120 (maxChars - truncationNote.length)))
    have taken := List.length_take_le (max 120 (maxChars - truncationNote.length)) (stripChars text)
    generalize rstrip ((stripChars text).take (max 120 (maxChars - truncationNote.length))) = kept at clipped ⊢
    rw [note] at clipped taken
    rw [List.length_append, note]
    split
    · refine Nat.le_trans (Nat.add_le_add_right (Nat.le_trans (length_rstrip_le _) (List.length_take_le' _ kept)) 30) ?_
      omega
    · omega

theorem formatPending_prepared {limit : Nat} (pending : List (List Char)) (pieces : ∀ chunk ∈ pending, Piece limit chunk) :
    ∀ piece ∈ formatPending word pending, Prepared word piece.1 piece.2 := by
  induction pending using formatPending.induct word generalizing limit with
  | case1 => simp [formatPending]
  | case2 chunk pending fits ih =>
    rw [formatPending, if_pos fits]
    intro piece member
    rcases List.mem_cons.mp member with rfl | later
    · exact .html fits
    · exact ih (fun chunk member => pieces chunk (List.mem_cons_of_mem _ member)) piece later
  | case3 chunk pending long short ih =>
    have first := pieces chunk List.mem_cons_self
    rw [formatPending, if_neg long, if_pos short]
    intro piece member
    rcases List.mem_cons.mp member with rfl | later
    · have bound : chunk.length ≤ telegramTextCharLimit - 32 := short.trans (by decide)
      have six : 6 * chunk.length ≤ telegramTextCharLimit := (Nat.mul_le_mul_left 6 short).trans (by decide)
      rw [truncate_short first.stripped bound]
      exact .plain (Nat.lt_of_not_le long) first.shown six
    · exact ih (fun chunk member => pieces chunk (List.mem_cons_of_mem _ member)) piece later
  | case4 chunk pending long rest ih =>
    rw [formatPending, if_neg long, if_neg rest]
    refine @ih (max (max 120 (max 120 (chunk.length / 2))) limit) fun piece member => ?_
    rcases List.mem_append.mp member with cut | later
    · obtain ⟨stripped, shown, fits⟩ := split_piece _ chunk piece cut
      exact ⟨stripped, shown, fits.trans (Nat.le_max_left _ _)⟩
    · obtain ⟨stripped, shown, fits⟩ := pieces piece (List.mem_cons_of_mem _ later)
      exact ⟨stripped, shown, fits.trans (Nat.le_max_right _ _)⟩

theorem formatPending_visible (pending : List (List Char)) :
    visible ((formatPending word pending).map Prod.fst).flatten = pending.flatMap visible := by
  induction pending using formatPending.induct word with
  | case1 => simp [formatPending, visible]
  | case2 chunk pending fits ih =>
    rw [formatPending, if_pos fits, List.map_cons, List.flatten_cons, visible_append, ih, List.flatMap_cons]
  | case3 chunk pending long short ih =>
    rw [formatPending, if_neg long, if_pos short, List.map_cons, List.flatten_cons, visible_append, ih, List.flatMap_cons]
  | case4 chunk pending long rest ih =>
    rw [formatPending, if_neg long, if_neg rest, ih, List.flatMap_append, split_visible, List.flatMap_cons]

theorem preparedPieces_prepared (text : List Char) :
    ∀ piece ∈ preparedPieces word text, Prepared word piece.1 piece.2 := by
  rw [preparedPieces]
  split
  · exact nofun
  · split
    · rename_i fits
      intro piece member
      obtain rfl := List.mem_singleton.mp member
      exact .html fits
    · exact formatPending_prepared _ (split_piece _ _)

theorem preparedPieces_visible (text : List Char) :
    visible ((preparedPieces word text).map Prod.fst).flatten = visible text := by
  rw [preparedPieces]
  split
  · rename_i empty
    rw [stripChars_eq_nil.mp (List.isEmpty_iff.mp empty)]
    rfl
  · split
    · simp [visible_stripChars]
    · rw [formatPending_visible, split_visible, visible_stripChars]

theorem stripChars_filled {text : List Char} (shown : visible text ≠ []) : (stripChars text).isEmpty = false :=
  List.isEmpty_eq_false_iff.mpr fun empty => shown (stripChars_eq_nil.mp empty)

theorem prepareTextChunks_html {text : List Char} (shown : visible text ≠ []) :
    (prepareTextChunksAndMode word text (some html)).1 = (preparedPieces word text).map Prod.snd := by
  have mode : isHtml (some html) = true := by decide
  simp only [prepareTextChunksAndMode, stripChars_filled shown, mode, Bool.false_eq_true, if_false, if_true]

/-- An edit of a message shows the HTML of the shortened text when that fits, and the shortened text itself when not. -/
theorem prepareText_html {text : List Char} (shown : visible text ≠ []) :
    visible (telegramHtmlToPlain (prepareTextAndMode word text (some html)).1) ≠ [] ∧
        (telegramHtmlToPlain (prepareTextAndMode word text (some html)).1).length ≤ telegramTextCharLimit ↔
      ¬ MarkupAlone word (truncatePlainText telegramTextCharLimit text) := by
  have mode : isHtml (some html) = true := by decide
  have again : truncatePlainText telegramTextCharLimit (stripChars text) = truncatePlainText telegramTextCharLimit text := by
    rw [truncatePlainText, stripChars_idem, ← truncatePlainText]
  have left := truncate_shown telegramTextCharLimit shown
  have filled : (truncatePlainText telegramTextCharLimit text).isEmpty = false :=
    List.isEmpty_eq_false_iff.mpr fun empty => left (by rw [empty]; rfl)
  simp only [prepareTextAndMode, again, filled, mode, Bool.false_eq_true, if_false, if_true]
  split
  · rename_i fits
    have short := (length_telegramHtmlToPlain_le _).trans fits
    exact ⟨fun sent alone => sent.1 alone.2, fun shows => ⟨fun blank => shows ⟨fits, blank⟩, short⟩⟩
  · rename_i long
    rw [telegramHtmlToPlain_escape]
    have bound := length_truncate_le (telegramTextCharLimit - 32) (by decide)
      (truncatePlainText telegramTextCharLimit text)
    exact iff_of_true ⟨truncate_shown _ left, bound.trans (Nat.sub_le _ _)⟩ fun alone => long alone.1

/-- The class `\w` on ASCII characters. -/
def asciiWord (c : Char) : Bool := c.isAlphanum || c == '_'

end Sending

end OpenTulpa.Telegram.Chunks
