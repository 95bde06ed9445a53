import OpenTulpa.Tui.EventStream

/-! What the incremental parser makes of the frames of a server, whatever pieces they come in. Line ends are normalized
piece by piece, so a CRLF that is cut in two stays as it is and an empty line may be missed; two frames that are taken
for one are then refused, and the events read are still the first ones sent. -/

namespace OpenTulpa.Tui.Reading

open Library EventStream

section Pieces

/-- Every line followed by its line end. -/
@[grind =] def terminated (eol : List Char) (lines : List (List Char)) : List Char := lines.flatMap (· ++ eol)

/-- A line without line ends inside. -/
def Plain (line : List Char) : Prop := ∀ c ∈ line, c ≠ '\n' ∧ c ≠ '\r'

/-- What normalization piece by piece may leave of a text: a CRLF becomes LF or, when it was cut, stays. -/
inductive Loose : List Char → List Char → Prop
  | nil : Loose [] []
  | keep {c : Char} {raw text : List Char} (visible : c ≠ '\r') (rest : Loose raw text) : Loose (c :: raw) (c :: text)
  | joined {raw text : List Char} (rest : Loose raw text) : Loose ('\r' :: '\n' :: raw) ('\n' :: text)
  | cut {raw text : List Char} (rest : Loose raw text) : Loose ('\r' :: '\n' :: raw) ('\r' :: '\n' :: text)
  | last : Loose ['\r'] ['\r']

/-- A carriage return is followed by a line feed or comes last. -/
def Paired (raw : List Char) : Prop := ∀ before after, raw = before ++ '\r' :: after → after = [] ∨ ∃ rest, after = '\n' :: rest

theorem Paired.right (first : List Char) {second : List Char} (paired : Paired (first ++ second)) : Paired second := by
  intro before after split
  exact paired (first ++ before) after (by rw [split, List.append_assoc])

theorem Paired.left {first second : List Char} (paired : Paired (first ++ second)) : Paired first := by
  intro before after split
  rcases paired before (after ++ second) (by rw [split]; simp) with none | ⟨rest, next⟩
  · exact Or.inl (List.append_eq_nil_iff.mp none).1
  · cases after with
    | nil => exact Or.inl rfl
    | cons c after =>
      cases next
      exact Or.inr ⟨after, rfl⟩

theorem normalize_cons {c : Char} {rest : List Char} (visible : c ≠ '\r') : normalize (c :: rest) = c :: normalize rest := by
  rw [EventStream.normalize]
  rintro later rfl
  exact absurd rfl visible

theorem loose_normalize (raw : List Char) (paired : Paired raw) : Loose raw (normalize raw) := by
  induction raw using normalize.induct with
  | case1 rest ih => exact .joined (ih (Paired.right ['\r', '\n'] paired))
  | case2 c rest other ih =>
    have later : Paired rest := Paired.right [c] paired
    by_cases visible : c = '\r'
    · subst visible
      rcases paired [] rest rfl with rfl | ⟨tail, rfl⟩
      · exact .last
      · exact absurd rfl (other tail rfl)
    · rw [normalize_cons visible]
      exact .keep visible (ih later)
  | case3 => exact .nil

theorem Loose.append {first second text more : List Char} (loose : Loose first text) (later : Loose second more)
    (paired : Paired (first ++ second)) : Loose (first ++ second) (text ++ more) := by
  induction loose with
  | nil => exact later
  | @keep c raw text visible rest ih => exact .keep visible (ih (Paired.right [c] paired))
  | joined rest ih => exact .joined (ih (Paired.right ['\r', '\n'] paired))
  | cut rest ih => exact .cut (ih (Paired.right ['\r', '\n'] paired))
  | last =>
    rcases paired [] second rfl with rfl | ⟨tail, rfl⟩
    · cases later
      exact .last
    · cases later with
      | keep visible rest => exact .cut rest

/-- Whatever the pieces, their normalized texts are what is left of the whole. -/
theorem loose_pieces (pieces : List (List Char)) (paired : Paired pieces.flatten) :
    Loose pieces.flatten (pieces.flatMap normalize) := by
  induction pieces with
  | nil => exact .nil
  | cons piece pieces ih =>
    rw [List.flatten_cons] at paired ⊢
    rw [List.flatMap_cons]
    exact (loose_normalize piece paired.left).append (ih (Paired.right piece paired)) paired

theorem Loose.of_cons {c : Char} {raw text : List Char} (visible : c ≠ '\r') (loose : Loose (c :: raw) text) :
    ∃ more, text = c :: more ∧ Loose raw more := by
  cases loose with
  | keep _ rest => exact ⟨_, rfl, rest⟩
  | joined => exact absurd rfl visible
  | cut => exact absurd rfl visible
  | last => exact absurd rfl visible

theorem Loose.plain_append {line raw text : List Char} (plain : Plain line) (loose : Loose (line ++ raw) text) :
    ∃ more, text = line ++ more ∧ Loose raw more := by
  induction line generalizing text with
  | nil => exact ⟨text, rfl, loose⟩
  | cons c line ih =>
    obtain ⟨later, rfl, next⟩ := loose.of_cons (plain c List.mem_cons_self).2
    obtain ⟨more, rfl, rest⟩ := ih (fun d member => plain d (List.mem_cons_of_mem _ member)) next
    exact ⟨more, rfl, rest⟩

theorem Loose.eq_of_plain {raw text : List Char} (plain : Plain raw) (loose : Loose raw text) : text = raw := by
  rw [← List.append_nil raw] at loose
  obtain ⟨more, rfl, rest⟩ := loose.plain_append plain
  cases rest
  simp

/-- The line end of a connection. -/
def LineEnd (eol : List Char) : Prop := eol = ['\n'] ∨ eol = ['\r', '\n']

theorem Loose.eol_append {eol raw text : List Char} (ends : LineEnd eol) (loose : Loose (eol ++ raw) text) :
    ∃ more, (text = '\n' :: more ∨ text = '\r' :: '\n' :: more) ∧ Loose raw more := by
  rcases ends with rfl | rfl
  · cases loose with
    | keep _ rest => exact ⟨_, Or.inl rfl, rest⟩
  · cases loose with
    | keep visible rest => exact absurd rfl visible
    | joined rest => exact ⟨_, Or.inl rfl, rest⟩
    | cut rest => exact ⟨_, Or.inr rfl, rest⟩

/-- A line as it may be shown: as it is, or with the carriage return of its line end. -/
def Variant (line shown : List Char) : Prop := shown = line ∨ shown = line ++ ['\r']

/-- A text that shows the first of the lines, the last one it has perhaps not to its end. -/
inductive Shows : List (List Char) → List Char → Prop
  | none : Shows [] []
  | cut {line shown : List Char} (rest : List (List Char)) (first : shown <+: line ++ ['\r']) : Shows (line :: rest) shown
  | line {line shown : List Char} {rest : List (List Char)} {text : List Char} (variant : Variant line shown)
      (later : Shows rest text) : Shows (line :: rest) (shown ++ '\n' :: text)

/-- A text that shows all of the lines. -/
inductive Whole : List (List Char) → List Char → Prop
  | none : Whole [] []
  | line {line shown : List Char} {rest : List (List Char)} {text : List Char} (variant : Variant line shown)
      (later : Whole rest text) : Whole (line :: rest) (shown ++ '\n' :: text)

theorem paired_plain_append {line raw : List Char} (plain : Plain line) (paired : Paired raw) : Paired (line ++ raw) := by
  induction line with
  | nil => exact paired
  | cons c line ih =>
    intro before after split
    cases before with
    | nil =>
      cases split
      exact absurd rfl (plain '\r' List.mem_cons_self).2
    | cons d before =>
      exact ih (fun d member => plain d (List.mem_cons_of_mem _ member)) before after (List.cons.inj split).2

theorem paired_eol_append {eol raw : List Char} (ends : LineEnd eol) (paired : Paired raw) : Paired (eol ++ raw) := by
  have fed : Paired ('\n' :: raw) := by
    intro before after split
    cases before with
    | nil => cases split
    | cons d before => exact paired before after (List.cons.inj split).2
  rcases ends with rfl | rfl
  · exact fed
  · intro before after split
    cases before with
    | nil =>
      cases split
      exact Or.inr ⟨raw, rfl⟩
    | cons d before => exact fed before after (List.cons.inj split).2

theorem paired_terminated {eol : List Char} (ends : LineEnd eol) {lines : List (List Char)}
    (plain : ∀ line ∈ lines, Plain line) : Paired (terminated eol lines) := by
  induction lines with
  | nil =>
    intro before after split
    simp [terminated] at split
  | cons line lines ih =>
    rw [terminated, List.flatMap_cons, List.append_assoc]
    exact paired_plain_append (plain line List.mem_cons_self)
      (paired_eol_append ends (ih fun other member => plain other (List.mem_cons_of_mem _ member)))

theorem loose_whole {eol : List Char} (ends : LineEnd eol) {lines : List (List Char)} (plain : ∀ line ∈ lines, Plain line)
    {text : List Char} (loose : Loose (terminated eol lines) text) : Whole lines text := by
  induction lines generalizing text with
  | nil =>
    cases loose
    exact .none
  | cons line lines ih =>
    rw [terminated, List.flatMap_cons, List.append_assoc] at loose
    obtain ⟨more, rfl, ended⟩ := loose.plain_append (plain line List.mem_cons_self)
    obtain ⟨later, shown, after⟩ := ended.eol_append ends
    have whole := ih (fun other member => plain other (List.mem_cons_of_mem _ member)) after
    rcases shown with rfl | rfl
    · exact .line (Or.inl rfl) whole
    · have shown : Whole (line :: lines) ((line ++ ['\r']) ++ '\n' :: later) := .line (Or.inr rfl) whole
      simpa using shown

theorem shows_nil (lines : List (List Char)) : Shows lines [] := by
  cases lines with
  | nil => exact .none
  | cons line lines => exact .cut lines List.nil_prefix

theorem Whole.shows {lines : List (List Char)} {text : List Char} (whole : Whole lines text) : Shows lines text := by
  induction whole with
  | none => exact .none
  | line variant later ih => exact .line variant ih

/-- A line that has come to its end, and what follows it. -/
theorem shows_line {eol line raw text : List Char} (ends : LineEnd eol) (plain : Plain line) {rest : List (List Char)}
    (loose : Loose (line ++ (eol ++ raw)) text) (later : ∀ {more}, Loose raw more → Shows rest more) :
    Shows (line :: rest) text := by
  obtain ⟨more, rfl, ended⟩ := loose.plain_append plain
  obtain ⟨tail, shown, after⟩ := ended.eol_append ends
  rcases shown with rfl | rfl
  · exact .line (Or.inl rfl) (later after)
  · have shown : Shows (line :: rest) ((line ++ ['\r']) ++ '\n' :: tail) := .line (Or.inr rfl) (later after)
    simpa using shown

/-- A line of which only a part has come. -/
theorem shows_part {line raw text : List Char} (plain : Plain line) (rest : List (List Char))
    (part : raw <+: line ++ ['\r']) (loose : Loose raw text) : Shows (line :: rest) text := by
  refine .cut rest ?_
  rcases List.prefix_concat_iff.mp part with whole | within
  · rw [whole] at loose
    obtain ⟨more, rfl, after⟩ := loose.plain_append plain
    cases after with
    | keep visible => exact absurd rfl visible
    | last => exact List.prefix_rfl
  · have same := loose.eq_of_plain fun c member => plain c (within.subset member)
    rw [same]
    exact within.trans (List.prefix_append line _)

theorem loose_shows {eol : List Char} (ends : LineEnd eol) {lines : List (List Char)} (plain : ∀ line ∈ lines, Plain line)
    {raw text : List Char} (first : raw <+: terminated eol lines) (loose : Loose raw text) : Shows lines text := by
  induction lines generalizing raw text with
  | nil =>
    obtain rfl : raw = [] := List.prefix_nil.mp first
    cases loose
    exact .none
  | cons line lines ih =>
    have here := plain line List.mem_cons_self
    have later : ∀ {raw more : List Char}, raw <+: terminated eol lines → Loose raw more → Shows lines more :=
      fun within loose => ih (fun other member => plain other (List.mem_cons_of_mem _ member)) within loose
    rw [terminated, List.flatMap_cons] at first
    rcases List.prefix_or_prefix_of_prefix first (List.prefix_append (line ++ eol) _) with within | ⟨tail, rfl⟩
    · rcases ends with rfl | rfl
      · rcases List.prefix_concat_iff.mp within with rfl | part
        · rw [← List.append_nil ['\n']] at loose
          exact shows_line (Or.inl rfl) here loose fun rest => later List.nil_prefix rest
        · exact shows_part here lines (part.trans (List.prefix_append line _)) loose
      · have split : line ++ ['\r', '\n'] = (line ++ ['\r']) ++ ['\n'] := by simp
        rw [split] at within
        rcases List.prefix_concat_iff.mp within with rfl | part
        · rw [← split, ← List.append_nil ['\r', '\n']] at loose
          exact shows_line (Or.inr rfl) here loose fun rest => later List.nil_prefix rest
        · exact shows_part here lines part loose
    · rw [List.append_assoc] at loose
      exact shows_line ends here loose fun rest => later ((List.prefix_append_right_inj _).mp first) rest

end Pieces

section Frames

/-- The first frame of a buffer ends at its first empty line, whatever follows. -/
theorem frames_split {text frame : List Char} {later : List (List Char)} {buffer : List Char}
    (split : frames text = (frame :: later, buffer)) :
    ∃ tail, text = frame ++ '\n' :: '\n' :: tail ∧ frames tail = (later, buffer) ∧
      ∀ other, frames (frame ++ '\n' :: '\n' :: other) = (frame :: (frames other).1, (frames other).2) := by
  induction text using frames.induct generalizing frame later buffer with
  | case1 rest ih =>
    rw [frames] at split
    cases split
    exact ⟨rest, rfl, rfl, fun other => by rw [List.nil_append, frames]⟩
  | case2 c rest other first after tail found ih =>
    rw [frames] at split
    · rw [found] at split
      cases split
      obtain ⟨behind, rfl, parsed, always⟩ := ih found
      refine ⟨behind, rfl, parsed, fun more => ?_⟩
      rw [List.cons_append, frames]
      · rw [always]
      · intro tail newline shape
        cases first with
        | nil => exact other _ newline rfl
        | cons d first => exact other _ newline (by rw [List.cons_append] at shape ⊢; cases shape; rfl)
    · exact other
  | case3 c rest other tail found ih =>
    rw [frames] at split
    · rw [found] at split
      cases split
    · exact other
  | case4 => cases split

theorem frames_none {text : List Char} (pending : (frames text).1 = []) : (frames text).2 = text := by
  induction text using frames.induct with
  | case1 rest ih =>
    rw [frames] at pending
    cases pending
  | case2 c rest other first after tail found ih =>
    rw [frames] at pending
    · rw [found] at pending
      cases pending
    · exact other
  | case3 c rest other tail found ih =>
    rw [found] at ih
    have kept : tail = rest := ih rfl
    rw [frames]
    · rw [found, kept]
    · exact other
  | case4 => rfl

theorem frames_append (text more : List Char) :
    frames (text ++ more) =
      ((frames text).1 ++ (frames ((frames text).2 ++ more)).1, (frames ((frames text).2 ++ more)).2) := by
  cases parsed : frames text with
  | mk found buffer =>
    induction found generalizing text with
    | nil =>
      have kept : buffer = text := by
        have same : (frames text).2 = text := frames_none (by rw [parsed])
        rwa [parsed] at same
      rw [kept]
      rfl
    | cons frame later ih =>
      obtain ⟨tail, rfl, rest, always⟩ := frames_split parsed
      have shifted : (frame ++ '\n' :: '\n' :: tail) ++ more = frame ++ '\n' :: '\n' :: (tail ++ more) := by simp
      rw [shifted, always, ih tail rest]
      rfl

theorem frames_rest (text : List Char) : frames (frames text).2 = ([], (frames text).2) := by
  cases parsed : frames text with
  | mk found buffer =>
    induction found generalizing text with
    | nil =>
      have kept : buffer = text := by
        have same : (frames text).2 = text := frames_none (by rw [parsed])
        rwa [parsed] at same
      rw [kept] at parsed ⊢
      exact parsed
    | cons frame later ih =>
      obtain ⟨tail, rfl, rest, always⟩ := frames_split parsed
      exact ih tail rest

end Frames

section Chunks

variable (parse : List Char → Option AgentEvent)

theorem frames_reader_append (reader : Reader) (first second : List (List Char)) :
    reader.frames parse (first ++ second) =
      match reader.frames parse first with
      | (next, false) => next.frames parse second
      | (next, true) => (next, true) := by
  induction first generalizing reader with
  | nil => rfl
  | cons frame first ih =>
    rw [List.cons_append, Reader.frames, Reader.frames]
    cases reader.frame parse frame with
    | none => rfl
    | some next => exact ih next

theorem frame_buffer (reader : Reader) (buffer frame : List Char) :
    ({ reader with buffer := buffer } : Reader).frame parse frame =
      (reader.frame parse frame).map fun next => { next with buffer := buffer } := by
  rw [Reader.frame, Reader.frame]
  split
  · rfl
  · cases parse (frameData frame) <;> rfl

/-- The buffer plays no part in the frames that were cut off from it. -/
theorem frames_buffer (reader : Reader) (buffer : List Char) (texts : List (List Char)) :
    ({ reader with buffer := buffer } : Reader).frames parse texts =
      ({ (reader.frames parse texts).1 with buffer := buffer }, (reader.frames parse texts).2) := by
  induction texts generalizing reader with
  | nil => rfl
  | cons frame texts ih =>
    rw [Reader.frames, Reader.frames, frame_buffer]
    cases reader.frame parse frame with
    | none => rfl
    | some next => exact ih next

/-- Reading in pieces is reading the frames of the whole normalized text. -/
theorem chunks_spec (reader : Reader) (pieces : List (List Char)) (pending : (frames reader.buffer).1 = []) :
    ∃ buffer, reader.chunks parse pieces =
        ({ (reader.frames parse (frames (reader.buffer ++ pieces.flatMap normalize)).1).1 with buffer := buffer },
          (reader.frames parse (frames (reader.buffer ++ pieces.flatMap normalize)).1).2) ∧
      ((reader.frames parse (frames (reader.buffer ++ pieces.flatMap normalize)).1).2 = false →
        buffer = (frames (reader.buffer ++ pieces.flatMap normalize)).2) := by
  induction pieces generalizing reader with
  | nil =>
    refine ⟨reader.buffer, ?_, ?_⟩
    · rw [List.flatMap_nil, List.append_nil, pending]
      rfl
    · intro _
      rw [List.flatMap_nil, List.append_nil, frames_none pending]
  | cons piece pieces ih =>
    rw [List.flatMap_cons, ← List.append_assoc, frames_append, frames_reader_append]
    have chunk : reader.chunk parse piece =
        ({ (reader.frames parse (frames (reader.buffer ++ normalize piece)).1).1 with
            buffer := (frames (reader.buffer ++ normalize piece)).2 },
          (reader.frames parse (frames (reader.buffer ++ normalize piece)).1).2) := frames_buffer parse reader _ _
    rw [Reader.chunks, chunk]
    cases read : reader.frames parse (frames (reader.buffer ++ normalize piece)).1 with
    | mk next raised =>
      cases raised with
      | true => exact ⟨_, rfl, nofun⟩
      | false =>
        obtain ⟨buffer, whole, kept⟩ := ih { next with buffer := (frames (reader.buffer ++ normalize piece)).2 }
          (by rw [frames_rest])
        simp only [frames_buffer] at whole kept
        exact ⟨buffer, whole, kept⟩

end Chunks

section Lines

def join (lines : List (List Char)) : List Char := ['\n'].intercalate lines

theorem join_cons (line : List Char) {rest : List (List Char)} (more : rest ≠ []) :
    join (line :: rest) = line ++ '\n' :: join rest := by
  cases rest with
  | nil => exact absurd rfl more
  | cons next rest => simp [join, List.intercalate]

@[simp] theorem join_singleton (line : List Char) : join [line] = line := by
  simp [join, List.intercalate]

theorem terminated_append (lines : List (List Char)) (part : List Char) :
    terminated ['\n'] lines ++ part = join (lines ++ [part]) := by
  induction lines with
  | nil => simp [terminated]
  | cons line lines ih =>
    rw [List.cons_append, join_cons line (by simp), ← ih]
    simp [terminated]

/-- Lines as they stand between line ends. -/
def Unbroken (line : List Char) : Prop := '\n' ∉ line

theorem lines_append_newline {line : List Char} (unbroken : Unbroken line) (rest : List Char) :
    lines (line ++ '\n' :: rest) = line :: lines rest := by
  induction line with
  | nil => simp [lines]
  | cons c line ih =>
    have visible : c ≠ '\n' := fun same => unbroken (by simp [same])
    rw [List.cons_append, lines, if_neg visible, ih fun member => unbroken (List.mem_cons_of_mem _ member)]

theorem lines_unbroken {line : List Char} (unbroken : Unbroken line) : lines line = [line] := by
  induction line with
  | nil => rfl
  | cons c line ih =>
    have visible : c ≠ '\n' := fun same => unbroken (by simp [same])
    rw [lines, if_neg visible, ih fun member => unbroken (List.mem_cons_of_mem _ member)]

theorem lines_join {texts : List (List Char)} (filled : texts ≠ []) (unbroken : ∀ line ∈ texts, Unbroken line) :
    lines (join texts) = texts := by
  induction texts with
  | nil => exact absurd rfl filled
  | cons line texts ih =>
    have here := unbroken line List.mem_cons_self
    cases texts with
    | nil => rw [join_singleton, lines_unbroken here]
    | cons next texts =>
      rw [join_cons line (by simp), lines_append_newline here,
        ih (by simp) fun other member => unbroken other (List.mem_cons_of_mem _ member)]

/-- A text in front of what was cut into frames. -/
@[grind =] def push (text : List Char) : List (List Char) × List Char → List (List Char) × List Char
  | (frame :: later, buffer) => ((text ++ frame) :: later, buffer)
  | ([], buffer) => ([], text ++ buffer)

theorem push_push (first second : List Char) (cut : List (List Char) × List Char) :
    push first (push second cut) = push (first ++ second) cut := by
  obtain ⟨found, buffer⟩ := cut
  cases found <;> simp [push]

theorem frames_cons {c : Char} {rest : List Char} (other : c = '\n' → ∀ tail, rest ≠ '\n' :: tail) :
    frames (c :: rest) = push [c] (frames rest) := by
  rw [frames]
  · cases frames rest with
    | mk found buffer => cases found <;> rfl
  · intro tail newline next
    exact other newline tail next

theorem frames_line {line : List Char} (unbroken : Unbroken line) (rest : List Char) :
    frames (line ++ rest) = push line (frames rest) := by
  induction line with
  | nil =>
    rw [List.nil_append]
    cases frames rest with
    | mk found buffer => cases found <;> rfl
  | cons c line ih =>
    have visible : c ≠ '\n' := fun same => unbroken (by simp [same])
    rw [List.cons_append, frames_cons fun same => absurd same visible,
      ih fun member => unbroken (List.mem_cons_of_mem _ member), push_push]
    rfl

/-- A line that can be followed by another without ending a frame. -/
def Solid (line : List Char) : Prop := line ≠ [] ∧ Unbroken line

theorem frames_newline {line : List Char} (solid : Solid line) (rest : List Char) :
    frames ('\n' :: (line ++ rest)) = push ['\n'] (frames (line ++ rest)) := by
  refine frames_cons fun _ tail next => ?_
  obtain ⟨nonempty, unbroken⟩ := solid
  cases line with
  | nil => exact nonempty rfl
  | cons c line =>
    cases next
    exact unbroken List.mem_cons_self

/-- Solid lines and an empty one make a frame. -/
theorem frames_group {group : List (List Char)} (filled : group ≠ []) (solid : ∀ line ∈ group, Solid line)
    (rest : List Char) :
    frames (join group ++ '\n' :: '\n' :: rest) = (join group :: (frames rest).1, (frames rest).2) := by
  induction group with
  | nil => exact absurd rfl filled
  | cons line group ih =>
    have here := (solid line List.mem_cons_self).2
    cases group with
    | nil =>
      rw [join_singleton, frames_line here, frames]
      simp [push]
    | cons next group =>
      have later : ∀ other ∈ next :: group, Solid other := fun other member => solid other (List.mem_cons_of_mem _ member)
      have split : join (next :: group) ++ '\n' :: '\n' :: rest =
          next ++ ((join (next :: group) ++ '\n' :: '\n' :: rest).drop next.length) := by
        cases group with
        | nil => simp
        | cons third group => simp [join_cons next (show third :: group ≠ [] by simp)]
      rw [join_cons line (by simp), List.append_assoc, List.cons_append, frames_line here, split,
        frames_newline (later next List.mem_cons_self), ← split, ih (by simp) later]
      simp [push]

theorem head_terminated {group : List (List Char)} (solid : ∀ line ∈ group, Solid line) {part : List Char}
    (unbroken : Unbroken part) (tail : List Char) : terminated ['\n'] group ++ part ≠ '\n' :: tail := by
  intro same
  cases group with
  | nil =>
    have whole : part = '\n' :: tail := by simpa [terminated] using same
    exact unbroken (by simp [whole])
  | cons line group =>
    obtain ⟨nonempty, closed⟩ := solid line List.mem_cons_self
    cases line with
    | nil => exact nonempty rfl
    | cons c line =>
      simp only [terminated, List.flatMap_cons, List.cons_append, List.cons.injEq] at same
      exact closed (by simp [same.1])

/-- Solid lines and an unfinished one make none. -/
theorem frames_open {group : List (List Char)} (solid : ∀ line ∈ group, Solid line) {part : List Char}
    (unbroken : Unbroken part) :
    frames (terminated ['\n'] group ++ part) = ([], terminated ['\n'] group ++ part) := by
  induction group with
  | nil =>
    have alone := frames_line unbroken []
    rw [List.append_nil] at alone
    simpa [terminated, push, frames] using alone
  | cons line group ih =>
    have later : ∀ other ∈ group, Solid other := fun other member => solid other (List.mem_cons_of_mem _ member)
    have split : terminated ['\n'] (line :: group) ++ part = line ++ '\n' :: (terminated ['\n'] group ++ part) := by
      simp [terminated]
    rw [split, frames_line (solid line List.mem_cons_self).2,
      frames_cons fun _ => head_terminated later unbroken, ih later]
    simp [push]

end Lines

section Codec

/-- How a server writes the events of a run and the client reads them: `json.dumps` on one line, `JSON.parse` with the
checks of `event`. White space behind a value is read over, and a second object is refused. -/
structure Codec (events : List AgentEvent) where
  name : EventType → List Char
  encode : AgentEvent → List Char
  parse : List Char → Option AgentEvent
  plainName : ∀ event ∈ events, Plain (name event.type)
  plain : ∀ event ∈ events, Plain (encode event)
  opens : ∀ event ∈ events, ∃ rest, encode event = '\x7b' :: rest
  reads : ∀ event ∈ events, ∀ shown, Variant (encode event) shown → parse shown = some event
  refuses : ∀ event ∈ events, ∀ rest, '\x7b' ∈ rest → parse (encode event ++ rest) = none

variable {events : List AgentEvent} (codec : Codec events)

def Codec.eventLine (event : AgentEvent) : List Char := ['e', 'v', 'e', 'n', 't', ':', ' '] ++ codec.name event.type

def idLine (event : AgentEvent) : List Char := ['i', 'd', ':', ' '] ++ (toString event.sequence).toList

def Codec.dataLine (event : AgentEvent) : List Char := dataField ++ ' ' :: codec.encode event

/-- The lines of `_sse`. -/
def Codec.frameLines (event : AgentEvent) : List (List Char) :=
  [codec.eventLine event, idLine event, codec.dataLine event, []]

def Codec.sentLines (sent : List AgentEvent) : List (List Char) := sent.flatMap codec.frameLines

/-- The text of a response with these events. -/
def Codec.text (eol : List Char) (sent : List AgentEvent) : List Char := terminated eol (codec.sentLines sent)

theorem plain_of_all {text : List Char} (all : text.all (fun c => c != '\n' && c != '\r') = true) : Plain text := by
  intro c member
  have here := List.all_eq_true.mp all c member
  simpa using here

theorem plain_append {first second : List Char} (left : Plain first) (right : Plain second) : Plain (first ++ second) := by
  intro c member
  rcases List.mem_append.mp member with here | there
  · exact left c here
  · exact right c there

theorem plain_idLine (event : AgentEvent) : Plain (idLine event) := by
  refine plain_append (plain_of_all (by decide)) ?_
  intro c member
  have digits : (toString event.sequence).toList = Nat.toDigits 10 event.sequence := by
    simp [toString, Nat.repr]
  rw [digits] at member
  have digit : c.isDigit = true := Nat.isDigit_of_mem_toDigits (by decide) (by decide) member
  constructor <;> rintro rfl <;> revert digit <;> decide

theorem Codec.plain_lines {sent : List AgentEvent} (known : ∀ event ∈ sent, event ∈ events) :
    ∀ line ∈ codec.sentLines sent, Plain line := by
  intro line member
  obtain ⟨event, among, here⟩ := List.mem_flatMap.mp member
  have listed := known event among
  simp only [Codec.frameLines, List.mem_cons, List.not_mem_nil, or_false] at here
  rcases here with rfl | rfl | rfl | rfl
  · exact plain_append (plain_of_all (by decide)) (codec.plainName event listed)
  · exact plain_idLine event
  · refine plain_append (plain_of_all (by decide)) ?_
    intro c member
    rcases List.mem_cons.mp member with rfl | inside
    · decide
    · exact codec.plain event listed c inside
  · exact nofun

end Codec

section Groups

variable {events : List AgentEvent} (codec : Codec events)

/-- The lines of an event as they are shown. -/
structure ShownEvent (event : AgentEvent) (shown : List (List Char)) : Prop where
  lines : ∃ first second third, shown = [first, second, third] ∧ Variant (codec.eventLine event) first ∧
    Variant (idLine event) second ∧ Variant (codec.dataLine event) third

/-- Events whose empty lines were missed, with their lines as they stand in the buffer. -/
inductive Missed : List AgentEvent → List (List Char) → Prop
  | none : Missed [] []
  | event {missed : List AgentEvent} {group shown : List (List Char)} {event : AgentEvent} (earlier : Missed missed group)
      (here : ShownEvent codec event shown) : Missed (missed ++ [event]) (group ++ shown ++ [['\r']])

theorem unbroken_of_plain {line : List Char} (plain : Plain line) : Unbroken line := fun member => (plain _ member).1 rfl

theorem Variant.solid {line shown : List Char} (variant : Variant line shown) (filled : line ≠ []) (plain : Plain line) :
    Solid shown := by
  rcases variant with rfl | rfl
  · exact ⟨filled, unbroken_of_plain plain⟩
  · refine ⟨by simp, fun member => ?_⟩
    rcases List.mem_append.mp member with here | last
    · exact unbroken_of_plain plain here
    · simp at last

variable {codec} {event : AgentEvent} {shown : List (List Char)}

theorem plain_frameLine (codec : Codec events) (known : event ∈ events) {line : List Char} (member : line ∈ codec.frameLines event) : Plain line := by
  have sent : ∀ other ∈ [event], other ∈ events := by simpa using known
  exact codec.plain_lines sent line (by simpa [Codec.sentLines] using member)

theorem ShownEvent.solid (known : event ∈ events) (here : ShownEvent codec event shown) : ∀ line ∈ shown, Solid line := by
  obtain ⟨first, second, third, rfl, one, two, three⟩ := here.lines
  intro line member
  simp only [List.mem_cons, List.not_mem_nil, or_false] at member
  rcases member with rfl | rfl | rfl
  · exact one.solid (by simp [Codec.eventLine]) (plain_frameLine codec known (by simp [Codec.frameLines]))
  · exact two.solid (by simp [idLine]) (plain_idLine event)
  · exact three.solid (by simp [Codec.dataLine, dataField]) (plain_frameLine codec known (by simp [Codec.frameLines]))

theorem solid_return : Solid ['\r'] := ⟨by simp, by simp [Unbroken]⟩

theorem Missed.solid {missed : List AgentEvent} {group : List (List Char)} (gone : Missed codec missed group)
    (known : ∀ event ∈ missed, event ∈ events) : ∀ line ∈ group, Solid line := by
  induction gone with
  | none => exact nofun
  | event earlier here ih =>
    intro line member
    simp only [List.mem_append, List.mem_singleton] at member
    rcases member with (before | lines) | rfl
    · exact ih (fun event member => known event (List.mem_append_left _ member)) line before
    · exact here.solid (known _ (by simp)) line lines
    · exact solid_return

theorem Missed.eq_nil {missed : List AgentEvent} {group : List (List Char)} (gone : Missed codec missed group)
    (empty : missed = []) : group = [] := by
  cases gone with
  | none => rfl
  | event => simp at empty

/-- The data lines among some lines. -/
def dataLines (texts : List (List Char)) : List (List Char) :=
  (texts.filter fun line => dataField.isPrefixOf line).map fun line => (line.drop 5).dropWhile isJsSpace

theorem frameData_join {texts : List (List Char)} (filled : texts ≠ []) (unbroken : ∀ line ∈ texts, Unbroken line) :
    frameData (join texts) = join (dataLines texts) := by
  rw [frameData, lines_join filled unbroken]
  rfl

theorem dataLines_append (first second : List (List Char)) :
    dataLines (first ++ second) = dataLines first ++ dataLines second := by
  simp [dataLines]

theorem notData_cons {c : Char} (other : ('d' == c) = false) (rest : List Char) :
    dataField.isPrefixOf (c :: rest) = false := by
  rw [dataField, List.isPrefixOf, other, Bool.false_and]

theorem dataLines_shown (known : event ∈ events) (here : ShownEvent codec event shown) :
    ∃ data, dataLines shown = [data] ∧ Variant (codec.encode event) data := by
  obtain ⟨first, second, third, rfl, one, two, three⟩ := here.lines
  have notFirst : dataField.isPrefixOf first = false := by
    rcases one with rfl | rfl
    · exact notData_cons (by decide) _
    · exact notData_cons (by decide) _
  have notSecond : dataField.isPrefixOf second = false := by
    rcases two with rfl | rfl
    · exact notData_cons (by decide) _
    · exact notData_cons (by decide) _
  obtain ⟨rest, opens⟩ := codec.opens event known
  have stripped : ∀ tail, ((dataField ++ ' ' :: (codec.encode event ++ tail)).drop 5).dropWhile isJsSpace =
      codec.encode event ++ tail := by
    intro tail
    rw [opens]
    rfl
  have only : ∀ tail, dataLines [first, second, dataField ++ ' ' :: (codec.encode event ++ tail)] =
      [codec.encode event ++ tail] := by
    intro tail
    have isData : dataField.isPrefixOf (dataField ++ ' ' :: (codec.encode event ++ tail)) = true :=
      List.isPrefixOf_iff_prefix.mpr (List.prefix_append _ _)
    rw [dataLines, List.filter_cons_of_neg (by simp [notFirst]), List.filter_cons_of_neg (by simp [notSecond]),
      List.filter_cons_of_pos isData, List.filter_nil, List.map_cons, List.map_nil, stripped]
  rcases three with rfl | rfl
  · have here := only []
    rw [List.append_nil] at here
    exact ⟨codec.encode event, here, Or.inl rfl⟩
  · exact ⟨codec.encode event ++ ['\r'], only ['\r'], Or.inr rfl⟩

theorem dataLines_return : dataLines [['\r']] = [] := by decide

/-- The data of missed events, one line an event. -/
theorem dataLines_missed {missed : List AgentEvent} {group : List (List Char)} (gone : Missed codec missed group)
    (known : ∀ event ∈ missed, event ∈ events) :
    List.Forall₂ (fun event data => Variant (codec.encode event) data) missed (dataLines group) := by
  induction gone with
  | none => exact .nil
  | event earlier here ih =>
    obtain ⟨data, same, variant⟩ := dataLines_shown (known _ (by simp)) here
    rw [dataLines_append, dataLines_append, dataLines_return, same, List.append_nil]
    exact List.rel_append (ih fun event member => known event (List.mem_append_left _ member)) (.cons variant .nil)

end Groups

section Events

variable {events : List AgentEvent} {codec : Codec events} {event : AgentEvent} {shown : List (List Char)}

theorem shows_cons {line text : List Char} {rest : List (List Char)} (plain : Plain line) (showing : Shows (line :: rest) text) :
    Unbroken text ∨ ∃ first later, text = first ++ '\n' :: later ∧ Variant line first ∧ Shows rest later := by
  cases showing with
  | cut _ part =>
    left
    intro member
    rcases List.mem_append.mp (part.subset member) with inside | last
    · exact unbroken_of_plain plain inside
    · simp at last
  | line variant later => exact Or.inr ⟨_, _, rfl, variant, later⟩

/-- An event of which a part was shown, or all with its empty line, which may have been missed. -/
theorem shows_event (known : event ∈ events) {rest : List (List Char)} {text : List Char}
    (showing : Shows (codec.frameLines event ++ rest) text) :
    (∃ group part, (∀ line ∈ group, Solid line) ∧ Unbroken part ∧ text = terminated ['\n'] group ++ part) ∨
      ∃ shown later, ShownEvent codec event shown ∧ Shows rest later ∧
        (text = terminated ['\n'] shown ++ '\n' :: later ∨ text = terminated ['\n'] (shown ++ [['\r']]) ++ later) := by
  have plain : ∀ {line}, line ∈ codec.frameLines event → Plain line := fun member => plain_frameLine codec known member
  rcases shows_cons (plain (by simp [Codec.frameLines])) showing with part | ⟨first, text, rfl, one, showing⟩
  · exact Or.inl ⟨[], text, nofun, part, by simp [terminated]⟩
  have oneSolid := one.solid (by simp [Codec.eventLine]) (plain (by simp [Codec.frameLines]))
  rcases shows_cons (plain_idLine event) showing with part | ⟨second, text, rfl, two, showing⟩
  · exact Or.inl ⟨[first], text, by simpa using oneSolid, part, by simp [terminated]⟩
  have twoSolid := two.solid (by simp [idLine]) (plain_idLine event)
  rcases shows_cons (plain (by simp [Codec.frameLines])) showing with part | ⟨third, text, rfl, three, showing⟩
  · exact Or.inl ⟨[first, second], text, by simpa using ⟨oneSolid, twoSolid⟩, part, by simp [terminated]⟩
  have threeSolid := three.solid (by simp [Codec.dataLine, dataField]) (plain (by simp [Codec.frameLines]))
  rcases shows_cons (plain (by simp [Codec.frameLines])) showing with part | ⟨fourth, text, rfl, four, showing⟩
  · exact Or.inl ⟨[first, second, third], text, by simpa using ⟨oneSolid, twoSolid, threeSolid⟩, part, by simp [terminated]⟩
  refine Or.inr ⟨[first, second, third], text, ⟨first, second, third, rfl, one, two, three⟩, showing, ?_⟩
  rcases four with rfl | rfl
  · exact Or.inl (by simp [terminated])
  · exact Or.inr (by simp [terminated])

theorem encode_ne_nil (codec : Codec events) (known : event ∈ events) {data : List Char}
    (variant : Variant (codec.encode event) data) : data ≠ [] ∧ '\x7b' ∈ data := by
  obtain ⟨rest, opens⟩ := codec.opens event known
  rcases variant with rfl | rfl <;> simp [opens]

/-- The frame of one event is read. -/
theorem frame_event (reader : Reader) (known : event ∈ events) (here : ShownEvent codec event shown) {group : List (List Char)}
    (alone : dataLines group = dataLines shown) (filled : group ≠ []) (unbroken : ∀ line ∈ group, Unbroken line) :
    reader.frame codec.parse (join group) = some (reader.yield event) := by
  obtain ⟨data, same, variant⟩ := dataLines_shown known here
  have whole : frameData (join group) = data := by rw [frameData_join filled unbroken, alone, same, join_singleton]
  have nonempty := (encode_ne_nil codec known variant).1
  rw [Reader.frame, whole, if_neg (by simpa using nonempty), codec.reads event known data variant]
  rfl

theorem mem_join {lines : List (List Char)} {line : List Char} {c : Char} (among : line ∈ lines) (member : c ∈ line) :
    c ∈ join lines := by
  induction lines with
  | nil => cases among
  | cons first lines ih =>
    cases lines with
    | nil =>
      obtain rfl : line = first := by simpa using among
      simpa using member
    | cons next lines =>
      rw [join_cons first (by simp), List.mem_append, List.mem_cons]
      rcases List.mem_cons.mp among with rfl | later
      · exact Or.inl member
      · exact Or.inr (Or.inr (ih later))

/-- Two objects on their lines are refused. -/
theorem frame_two (reader : Reader) {first second : AgentEvent} (known : first ∈ events) (other : second ∈ events)
    {one two : List Char} (data : Variant (codec.encode first) one) (more : Variant (codec.encode second) two)
    {texts rest : List (List Char)} (filled : texts ≠ []) (unbroken : ∀ line ∈ texts, Unbroken line)
    (same : dataLines texts = one :: rest) (among : two ∈ rest) : reader.frame codec.parse (join texts) = none := by
  have brace : '\x7b' ∈ join rest := mem_join among (encode_ne_nil codec other more).2
  have whole : frameData (join texts) = one ++ '\n' :: join rest := by
    rw [frameData_join filled unbroken, same, join_cons one (by rintro rfl; cases among)]
  have refused : codec.parse (one ++ '\n' :: join rest) = none := by
    rcases data with rfl | rfl
    · exact codec.refuses first known _ (List.mem_cons_of_mem _ brace)
    · rw [List.append_assoc]
      exact codec.refuses first known _ (by simp [brace])
  rw [Reader.frame, whole, if_neg (by simp), refused]
  rfl

theorem dataLines_first {missed : List AgentEvent} {group : List (List Char)} (gone : Missed codec missed group)
    (behind : missed ≠ []) (known : ∀ event ∈ missed, event ∈ events) :
    ∃ first one rest, first ∈ events ∧ Variant (codec.encode first) one ∧ dataLines group = one :: rest := by
  have listed := dataLines_missed gone known
  cases missed with
  | nil => exact absurd rfl behind
  | cons first missed =>
    cases found : dataLines group with
    | nil =>
      rw [found] at listed
      cases listed
    | cons one rest =>
      rw [found] at listed
      cases listed with
      | cons variant _ => exact ⟨first, one, rest, known first List.mem_cons_self, variant, rfl⟩

/-- A frame that starts with missed events is refused. -/
theorem frame_missed (reader : Reader) {missed : List AgentEvent} {group : List (List Char)} (gone : Missed codec missed group)
    (behind : missed ≠ []) (earlier : ∀ other ∈ missed, other ∈ events) (now : event ∈ events)
    (here : ShownEvent codec event shown) : reader.frame codec.parse (join (group ++ shown)) = none := by
  obtain ⟨data, same, variant⟩ := dataLines_shown now here
  obtain ⟨first, one, rest, known, shownFirst, found⟩ := dataLines_first gone behind earlier
  have solid : ∀ line ∈ group ++ shown, Solid line := by
    intro line member
    rcases List.mem_append.mp member with before | lines
    · exact gone.solid earlier line before
    · exact here.solid now line lines
  have filled : group ++ shown ≠ [] := by
    obtain ⟨first, second, third, rfl, _⟩ := here.lines
    simp
  have datas : dataLines (group ++ shown) = one :: (rest ++ [data]) := by
    rw [dataLines_append, same, found, List.cons_append]
  exact frame_two reader known now shownFirst variant filled (fun line member => (solid line member).2) datas (by simp)

/-- Solid lines, and all lines of an event behind them. -/
theorem terminated_group (group shown : List (List Char)) (rest : List Char) :
    terminated ['\n'] group ++ (terminated ['\n'] shown ++ rest) = terminated ['\n'] (group ++ shown) ++ rest := by
  simp [terminated]

theorem join_newline (group : List (List Char)) (filled : group ≠ []) (rest : List Char) :
    terminated ['\n'] group ++ '\n' :: rest = join group ++ '\n' :: '\n' :: rest := by
  rw [terminated_append]
  obtain ⟨front, last, rfl⟩ := List.eq_nil_or_concat' group |>.resolve_left filled
  induction front with
  | nil => simp [join_cons last (show [('\n' :: rest)] ≠ [] by simp)]
  | cons first front ih =>
    rw [List.cons_append, List.cons_append, join_cons first (by simp), join_cons first (by simp),
      ih (by simp), List.append_assoc, List.cons_append]

/-- The events read from a text are the first ones sent, and none behind a missed empty line. -/
theorem read_shows {sent missed : List AgentEvent} {group : List (List Char)} {text : List Char} (reader : Reader)
    (known : ∀ event ∈ missed ++ sent, event ∈ events) (gone : Missed codec missed group)
    (showing : Shows (codec.sentLines sent) text) :
    ∃ read, (reader.frames codec.parse (frames (terminated ['\n'] group ++ text)).1).1 = read.foldl Reader.yield reader ∧
      read <+: sent ∧ (missed ≠ [] → read = []) := by
  have earlier : ∀ event ∈ missed, event ∈ events := fun event member => known event (List.mem_append_left _ member)
  induction sent generalizing missed group text reader with
  | nil =>
    cases showing
    rw [frames_open (gone.solid earlier) (show Unbroken [] by simp [Unbroken])]
    exact ⟨[], rfl, List.prefix_rfl, fun _ => rfl⟩
  | cons event sent ih =>
    have now : event ∈ events := known event (by simp)
    rw [Codec.sentLines, List.flatMap_cons] at showing
    rcases shows_event now showing with ⟨more, part, solid, unbroken, rfl⟩ | ⟨shown, later, here, after, shape⟩
    · rw [terminated_group, frames_open _ unbroken]
      · exact ⟨[], rfl, List.nil_prefix, fun _ => rfl⟩
      · intro line member
        rcases List.mem_append.mp member with before | after
        · exact gone.solid earlier line before
        · exact solid line after
    · have filled : group ++ shown ≠ [] := by
        obtain ⟨first, second, third, rfl, _⟩ := here.lines
        simp
      have solid : ∀ line ∈ group ++ shown, Solid line := by
        intro line member
        rcases List.mem_append.mp member with before | lines
        · exact gone.solid earlier line before
        · exact here.solid now line lines
      rcases shape with rfl | rfl
      · rw [terminated_group, join_newline _ filled, frames_group filled solid, Reader.frames]
        cases missed with
        | nil =>
          obtain rfl := gone.eq_nil rfl
          rw [List.nil_append] at filled solid ⊢
          rw [frame_event reader now here rfl filled fun line member => (solid line member).2]
          obtain ⟨read, same, first, _⟩ := ih (reader.yield event) (fun other member => known other (by simp_all))
            gone after nofun
          exact ⟨event :: read, same, List.cons_prefix_cons.mpr ⟨rfl, first⟩, fun behind => absurd rfl behind⟩
        | cons first missed =>
          rw [frame_missed reader gone (by simp) earlier now here]
          exact ⟨[], rfl, List.nil_prefix, fun _ => rfl⟩
      · rw [terminated_group, ← List.append_assoc]
        have grown : Missed codec (missed ++ [event]) (group ++ shown ++ [['\r']]) := .event gone here
        obtain ⟨read, same, _, none⟩ := ih reader (fun other member => known other (by simp_all)) grown after
          (fun other member => known other (by simp_all; tauto))
        have empty := none (by simp)
        exact ⟨[], by rw [same, empty], List.nil_prefix, fun _ => rfl⟩

theorem Whole.of_cons {line text : List Char} {rest : List (List Char)} (whole : Whole (line :: rest) text) :
    ∃ first later, text = first ++ '\n' :: later ∧ Variant line first ∧ Whole rest later := by
  cases whole with
  | line variant later => exact ⟨_, _, rfl, variant, later⟩

theorem whole_event {rest : List (List Char)} {text : List Char} (whole : Whole (codec.frameLines event ++ rest) text) :
    ∃ shown later, ShownEvent codec event shown ∧ Whole rest later ∧
      (text = terminated ['\n'] shown ++ '\n' :: later ∨ text = terminated ['\n'] (shown ++ [['\r']]) ++ later) := by
  obtain ⟨first, text, rfl, one, whole⟩ := whole.of_cons
  obtain ⟨second, text, rfl, two, whole⟩ := whole.of_cons
  obtain ⟨third, text, rfl, three, whole⟩ := whole.of_cons
  obtain ⟨fourth, text, rfl, four, whole⟩ := whole.of_cons
  refine ⟨[first, second, third], text, ⟨first, second, third, rfl, one, two, three⟩, whole, ?_⟩
  rcases four with rfl | rfl
  · exact Or.inl (by simp [terminated])
  · exact Or.inr (by simp [terminated])

/-- Of a whole text all events are read but the last ones whose empty lines were missed. -/
theorem read_whole {sent missed : List AgentEvent} {group : List (List Char)} {text : List Char} (reader : Reader)
    (known : ∀ event ∈ missed ++ sent, event ∈ events) (gone : Missed codec missed group)
    (whole : Whole (codec.sentLines sent) text)
    (fine : (reader.frames codec.parse (frames (terminated ['\n'] group ++ text)).1).2 = false) :
    ∃ read left lines,
      (reader.frames codec.parse (frames (terminated ['\n'] group ++ text)).1).1 = read.foldl Reader.yield reader ∧
        (frames (terminated ['\n'] group ++ text)).2 = terminated ['\n'] lines ∧ Missed codec left lines ∧
          read ++ left = missed ++ sent := by
  have earlier : ∀ event ∈ missed, event ∈ events := fun event member => known event (List.mem_append_left _ member)
  induction sent generalizing missed group text reader with
  | nil =>
    cases whole
    rw [frames_open (gone.solid earlier) (show Unbroken [] by simp [Unbroken])]
    exact ⟨[], missed, group, rfl, by simp, gone, by simp⟩
  | cons event sent ih =>
    have now : event ∈ events := known event (by simp)
    rw [Codec.sentLines, List.flatMap_cons] at whole
    obtain ⟨shown, later, here, after, shape⟩ := whole_event whole
    have filled : group ++ shown ≠ [] := by
      obtain ⟨first, second, third, rfl, _⟩ := here.lines
      simp
    have solid : ∀ line ∈ group ++ shown, Solid line := by
      intro line member
      rcases List.mem_append.mp member with before | lines
      · exact gone.solid earlier line before
      · exact here.solid now line lines
    rcases shape with rfl | rfl
    · rw [terminated_group, join_newline _ filled, frames_group filled solid, Reader.frames] at fine ⊢
      cases missed with
      | nil =>
        obtain rfl := gone.eq_nil rfl
        rw [List.nil_append] at filled solid fine ⊢
        rw [frame_event reader now here rfl filled fun line member => (solid line member).2] at fine ⊢
        obtain ⟨read, left, lines, same, rest, still, all⟩ := ih (reader.yield event)
          (fun other member => known other (by simp_all)) gone after fine nofun
        exact ⟨event :: read, left, lines, same, rest, still, by rw [List.cons_append, all, List.nil_append, List.nil_append]⟩
      | cons first missed =>
        rw [frame_missed reader gone (by simp) earlier now here] at fine
        cases fine
    · rw [terminated_group, ← List.append_assoc] at fine ⊢
      have grown : Missed codec (missed ++ [event]) (group ++ shown ++ [['\r']]) := .event gone here
      obtain ⟨read, left, lines, same, rest, still, all⟩ := ih reader (fun other member => known other (by simp_all)) grown
        after fine (fun other member => known other (by simp_all; tauto))
      exact ⟨read, left, lines, same, rest, still, by rw [all, List.append_assoc, List.singleton_append]⟩

theorem dataLines_empty : dataLines [[]] = [] := by decide

/-- What was missed at the end of a body: nothing, one event, which is read from the buffer, or more, which are
refused. -/
theorem leftover_missed (reader : Reader) {missed : List AgentEvent} {group : List (List Char)}
    (gone : Missed codec missed group) (known : ∀ event ∈ missed, event ∈ events) :
    missed = [] ∧ group = [] ∨
      (terminated ['\n'] group).all isJsSpace = false ∧
        ((∃ event, missed = [event] ∧ reader.frame codec.parse (terminated ['\n'] group) = some (reader.yield event)) ∨
          reader.frame codec.parse (terminated ['\n'] group) = none) := by
  cases gone with
  | none => exact Or.inl ⟨rfl, rfl⟩
  | @event missed group shown event earlier here =>
    right
    have now : event ∈ events := known event (by simp)
    have before : ∀ other ∈ missed, other ∈ events := fun other member => known other (List.mem_append_left _ member)
    have text : terminated ['\n'] (group ++ shown ++ [['\r']]) = join (group ++ shown ++ [['\r']] ++ [[]]) := by
      rw [← terminated_append, List.append_nil]
    have solid : ∀ line ∈ group ++ shown ++ [['\r']], Solid line := (Missed.event earlier here).solid known
    have unbroken : ∀ line ∈ group ++ shown ++ [['\r']] ++ [[]], Unbroken line := by
      intro line member
      rcases List.mem_append.mp member with among | last
      · exact (solid line among).2
      · obtain rfl : line = [] := by simpa using last
        simp [Unbroken]
    obtain ⟨data, same, variant⟩ := dataLines_shown now here
    have datas : dataLines (group ++ shown ++ [['\r']] ++ [[]]) = dataLines group ++ [data] := by
      rw [dataLines_append, dataLines_append, dataLines_append, dataLines_return, dataLines_empty, same]
      simp
    have brace : '\x7b' ∈ terminated ['\n'] (group ++ shown ++ [['\r']]) := by
      obtain ⟨first, second, third, rfl, one, two, three⟩ := here.lines
      obtain ⟨rest, opens⟩ := codec.opens event now
      have member : '\x7b' ∈ third := by rcases three with rfl | rfl <;> simp [Codec.dataLine, opens]
      simp [terminated, member]
    refine ⟨?_, ?_⟩
    · rw [List.all_eq_false]
      exact ⟨'\x7b', brace, by decide⟩
    · rw [text]
      cases missed with
      | nil =>
        obtain rfl := earlier.eq_nil rfl
        refine Or.inl ⟨event, rfl, frame_event reader now here ?_ (by simp) unbroken⟩
        rw [datas, same]
        rfl
      | cons first missed =>
        right
        obtain ⟨first, one, rest, known, shownFirst, found⟩ := dataLines_first earlier (by simp) before
        rw [found, List.cons_append] at datas
        exact frame_two reader known now shownFirst variant (by simp) unbroken datas (by simp)

end Events

end OpenTulpa.Tui.Reading
