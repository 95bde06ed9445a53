import Mathlib.Algebra.GroupWithZero.Nat
import Mathlib.Data.List.Range

/-! Spans of a text replaced one after the other at their offsets in the text as it was given.
Spans that follow one another are replaced where they stand when the last of them goes first. -/

namespace OpenTulpa.Library.Splice

section Splicing

variable {α β : Type}

/-- `text[:start] + inserted + text[stop:]` -/
def splice (text : List α) (replacement : (Nat × Nat) × List α) : List α :=
  text.take replacement.1.1 ++ replacement.2 ++ text.drop replacement.1.2

/-- The replacements in reverse, each at its offsets in the text as it was given. -/
def spliceAll (text : List α) (replacements : List ((Nat × Nat) × List α)) : List α :=
  replacements.foldr (fun replacement text => splice text replacement) text

def slice (text : List α) (start stop : Nat) : List α := (text.take stop).drop start

/-- The text from an offset on, with each span replaced where it stands. -/
def weave (text : List α) (start : Nat) : List ((Nat × Nat) × List α) → List α
  | [] => text.drop start
  | (span, inserted) :: rest => slice text start span.1 ++ inserted ++ weave text span.2 rest

/-- The spans follow one another from an offset to a limit. -/
def Ordered (limit : Nat) : Nat → List (Nat × Nat) → Prop
  | start, [] => start ≤ limit
  | start, span :: rest => start ≤ span.1 ∧ span.1 ≤ span.2 ∧ Ordered limit span.2 rest

def covered (spans : List (Nat × Nat)) (position : Nat) : Bool :=
  spans.any fun span => span.1 ≤ position && position < span.2

theorem covered_iff {spans : List (Nat × Nat)} {position : Nat} :
    covered spans position = true ↔ ∃ span ∈ spans, span.1 ≤ position ∧ position < span.2 := by
  simp [covered]

theorem Ordered.le_limit {limit start : Nat} {spans : List (Nat × Nat)} (ordered : Ordered limit start spans) :
    start ≤ limit := by
  induction spans generalizing start with
  | nil => exact ordered
  | cons span rest ih => exact ordered.1.trans (ordered.2.1.trans (ih ordered.2.2))

theorem Ordered.mem {limit start : Nat} {spans : List (Nat × Nat)} (ordered : Ordered limit start spans)
    {span : Nat × Nat} (member : span ∈ spans) : start ≤ span.1 ∧ span.1 ≤ span.2 ∧ span.2 ≤ limit := by
  induction spans generalizing start with
  | nil => cases member
  | cons first rest ih =>
    obtain ⟨above, forward, later⟩ := ordered
    rcases List.mem_cons.mp member with rfl | inside
    · exact ⟨above, forward, later.le_limit⟩
    · obtain ⟨behind, rest⟩ := ih later inside
      exact ⟨above.trans (forward.trans behind), rest⟩

theorem Ordered.mono {limit start before : Nat} {spans : List (Nat × Nat)} (ordered : Ordered limit start spans)
    (le : before ≤ start) : Ordered limit before spans := by
  cases spans with
  | nil => exact le.trans ordered
  | cons span rest => exact ⟨le.trans ordered.1, ordered.2⟩

theorem Ordered.limit_mono {limit further start : Nat} {spans : List (Nat × Nat)} (ordered : Ordered limit start spans)
    (le : limit ≤ further) : Ordered further start spans := by
  induction spans generalizing start with
  | nil => exact ordered.trans le
  | cons span rest ih => exact ⟨ordered.1, ordered.2.1, ih ordered.2.2⟩

theorem Ordered.within {limit nearer start : Nat} {spans : List (Nat × Nat)} (ordered : Ordered limit start spans)
    (low : start ≤ nearer) (inside : ∀ span ∈ spans, span.2 ≤ nearer) : Ordered nearer start spans := by
  induction spans generalizing start with
  | nil => exact low
  | cons span rest ih =>
    exact ⟨ordered.1, ordered.2.1, ih ordered.2.2 (inside span List.mem_cons_self) fun other member =>
      inside other (List.mem_cons_of_mem _ member)⟩

theorem spliceAll_cons (text : List α) (replacement : (Nat × Nat) × List α) (rest : List ((Nat × Nat) × List α)) :
    spliceAll text (replacement :: rest) = splice (spliceAll text rest) replacement := rfl

theorem spliceAll_append (text : List α) (later earlier : List ((Nat × Nat) × List α)) :
    spliceAll text (later ++ earlier) = spliceAll (spliceAll text earlier) later :=
  List.foldr_append

theorem spliceAll_map (f : α → β) (text : List α) (replacements : List ((Nat × Nat) × List α)) :
    (spliceAll text replacements).map f =
      spliceAll (text.map f) (replacements.map fun replacement => (replacement.1, replacement.2.map f)) := by
  induction replacements with
  | nil => rfl
  | cons replacement rest ih =>
    rw [List.map_cons, spliceAll_cons, spliceAll_cons, ← ih]
    simp only [splice, List.map_append, List.map_take, List.map_drop]

/-- What the splices make of a text is a part of it or of what they insert. -/
theorem mem_spliceAll {text : List α} {replacements : List ((Nat × Nat) × List α)} {x : α}
    (member : x ∈ spliceAll text replacements) :
    x ∈ text ∨ ∃ replacement ∈ replacements, x ∈ replacement.2 := by
  induction replacements with
  | nil => exact Or.inl member
  | cons replacement rest ih =>
    have before : x ∈ spliceAll text rest → x ∈ text ∨ ∃ other ∈ replacement :: rest, x ∈ other.2 := by
      intro inside
      rcases ih inside with given | ⟨other, present, inserted⟩
      · exact Or.inl given
      · exact Or.inr ⟨other, List.mem_cons_of_mem _ present, inserted⟩
    simp only [spliceAll_cons, splice, List.mem_append] at member
    rcases member with (left | inserted) | right
    · exact before (List.mem_of_mem_take left)
    · exact Or.inr ⟨replacement, List.mem_cons_self, inserted⟩
    · exact before (List.mem_of_mem_drop right)

/-- Spans that follow one another are replaced where they stand. -/
theorem spliceAll_eq_weave {text : List α} {start : Nat} {replacements : List ((Nat × Nat) × List α)}
    (ordered : Ordered text.length start (replacements.map Prod.fst)) :
    spliceAll text replacements = text.take start ++ weave text start replacements := by
  induction replacements generalizing start with
  | nil => exact (List.take_append_drop start text).symm
  | cons replacement rest ih =>
    obtain ⟨span, inserted⟩ := replacement
    obtain ⟨above, forward, later⟩ :
      start ≤ span.1 ∧ span.1 ≤ span.2 ∧ Ordered text.length span.2 (rest.map Prod.fst) := ordered
    have inside : span.2 ≤ text.length := later.le_limit
    have front : (text.take span.2 ++ weave text span.2 rest).take span.1 = text.take span.1 := by
      rw [List.take_append_of_le_length (by simp; omega), List.take_take, Nat.min_eq_left forward]
    have back : (text.take span.2 ++ weave text span.2 rest).drop span.2 = weave text span.2 rest :=
      List.drop_left' (by simp [inside])
    have split : text.take span.1 = text.take start ++ slice text start span.1 := by
      have whole := List.take_append_drop start (text.take span.1)
      rw [List.take_take, Nat.min_eq_left above] at whole
      exact whole.symm
    rw [spliceAll_cons, ih later, splice, front, back, split, weave]
    simp only [List.append_assoc]

end Splicing

section Weaving

variable {α : Type} {text : List α}

theorem getElem?_slice {start stop i : Nat} (inside : start + i < stop) : (slice text start stop)[i]? = text[start + i]? := by
  rw [slice, List.getElem?_drop, List.getElem?_take_of_lt inside]

theorem length_slice {start stop : Nat} (inside : stop ≤ text.length) : (slice text start stop).length = stop - start := by
  simp [slice, Nat.min_eq_left inside]

theorem mem_slice {start stop : Nat} {x : α} (member : x ∈ slice text start stop) :
    ∃ i, start ≤ i ∧ i < stop ∧ text[i]? = some x := by
  obtain ⟨i, found⟩ := List.mem_iff_getElem?.mp member
  have short : start + i < stop := by
    by_contra long
    rw [slice, List.getElem?_drop, List.getElem?_take_eq_none (by omega)] at found
    cases found
  exact ⟨start + i, by omega, short, by rwa [getElem?_slice short] at found⟩

/-- Each part of a woven text stands for a position of the text that no span covers or was put
there for a span. -/
theorem mem_weave {start : Nat} {replacements : List ((Nat × Nat) × List α)} {x : α}
    (ordered : Ordered text.length start (replacements.map Prod.fst)) (member : x ∈ weave text start replacements) :
    (∃ replacement ∈ replacements, x ∈ replacement.2) ∨
      ∃ i, start ≤ i ∧ covered (replacements.map Prod.fst) i = false ∧ text[i]? = some x := by
  induction replacements generalizing start with
  | nil =>
    obtain ⟨i, found⟩ := List.mem_iff_getElem?.mp member
    exact Or.inr ⟨start + i, by omega, rfl, by rwa [weave, List.getElem?_drop] at found⟩
  | cons replacement rest ih =>
    obtain ⟨span, inserted⟩ := replacement
    obtain ⟨above, forward, later⟩ :
      start ≤ span.1 ∧ span.1 ≤ span.2 ∧ Ordered text.length span.2 (rest.map Prod.fst) := ordered
    simp only [weave, List.mem_append] at member
    rcases member with (left | put) | right
    · obtain ⟨i, low, high, found⟩ := mem_slice left
      refine Or.inr ⟨i, low, ?_, found⟩
      rw [← Bool.not_eq_true, covered_iff]
      rintro ⟨other, present, below, _⟩
      rcases List.mem_cons.mp present with rfl | after
      · exact absurd high (Nat.not_lt.mpr below)
      · have behind := (later.mem after).1
        omega
    · exact Or.inl ⟨_, List.mem_cons_self, put⟩
    · rcases ih later right with ⟨other, present, put⟩ | ⟨i, low, outside, found⟩
      · exact Or.inl ⟨other, List.mem_cons_of_mem _ present, put⟩
      · refine Or.inr ⟨i, above.trans (forward.trans low), ?_, found⟩
        simp only [List.map_cons, covered, List.any_cons, Bool.or_eq_false_iff] at outside ⊢
        exact ⟨by simp; omega, outside⟩

theorem mem_weave_of_put {start : Nat} {replacements : List ((Nat × Nat) × List α)} {replacement : (Nat × Nat) × List α}
    {x : α} (member : replacement ∈ replacements) (put : x ∈ replacement.2) : x ∈ weave text start replacements := by
  induction replacements generalizing start with
  | nil => cases member
  | cons first rest ih =>
    rw [weave, List.mem_append, List.mem_append]
    rcases List.mem_cons.mp member with rfl | later
    · exact Or.inl (Or.inr put)
    · exact Or.inr (ih later)

theorem uncovered_before {start i : Nat} {spans : List (Nat × Nat)} (ordered : Ordered text.length start spans)
    (before : i < start) : covered spans i = false := by
  rw [← Bool.not_eq_true, covered_iff]
  rintro ⟨span, member, below, _⟩
  have above := (ordered.mem member).1
  omega

theorem covered_cons {span : Nat × Nat} {spans : List (Nat × Nat)} {i : Nat} (behind : span.2 ≤ i) :
    covered (span :: spans) i = covered spans i := by
  have missed : ¬i < span.2 := by omega
  simp [covered, missed]

theorem filterMap_slice {β : Type} (read : α → Option β) {start stop : Nat} (inside : stop ≤ text.length) :
    (slice text start stop).filterMap read =
      (List.range' start (stop - start)).filterMap fun i => text[i]?.bind read := by
  have same : (slice text start stop).map some = (List.range' start (stop - start)).map fun i => text[i]? := by
    apply List.ext_getElem?
    intro i
    by_cases short : start + i < stop
    · have bound : start + i < text.length := by omega
      rw [List.getElem?_map, getElem?_slice short, List.getElem?_map, List.getElem?_range' (by omega)]
      simp [bound]
    · rw [List.getElem?_eq_none (by rw [List.length_map, length_slice inside]; omega),
        List.getElem?_eq_none (by simp; omega)]
  have parts := congrArg (List.filterMap fun x : Option α => x.bind read) same
  simpa [List.filterMap_map, Function.comp_def] using parts

/-- The parts of a woven text that a reading knows, when it knows nothing of what is inserted. -/
theorem filterMap_weave {β : Type} {read : α → Option β} {start : Nat} {replacements : List ((Nat × Nat) × List α)}
    (ordered : Ordered text.length start (replacements.map Prod.fst))
    (unread : ∀ replacement ∈ replacements, ∀ x ∈ replacement.2, read x = none) :
    (weave text start replacements).filterMap read =
      ((List.range' start (text.length - start)).filter fun i => !covered (replacements.map Prod.fst) i).filterMap
        fun i => text[i]?.bind read := by
  induction replacements generalizing start with
  | nil =>
    have whole : (slice text start text.length).filterMap read = _ := filterMap_slice read le_rfl
    rw [slice, List.take_length] at whole
    simpa [weave, covered] using whole
  | cons replacement rest ih =>
    obtain ⟨span, inserted⟩ := replacement
    obtain ⟨above, forward, later⟩ :
      start ≤ span.1 ∧ span.1 ≤ span.2 ∧ Ordered text.length span.2 (rest.map Prod.fst) := ordered
    have inside : span.2 ≤ text.length := later.le_limit
    have nothing : inserted.filterMap read = [] :=
      List.filterMap_eq_nil_iff.mpr (unread _ List.mem_cons_self)
    have parts : List.range' start (text.length - start) =
        List.range' start (span.1 - start) ++
          (List.range' span.1 (span.2 - span.1) ++ List.range' span.2 (text.length - span.2)) := by
      rw [show text.length - start = (span.1 - start) + ((span.2 - span.1) + (text.length - span.2)) by omega,
        ← List.range'_append_1, ← List.range'_append_1]
      congr 3 <;> omega
    have left : (List.range' start (span.1 - start)).filter (fun i => !covered (span :: rest.map Prod.fst) i) =
        List.range' start (span.1 - start) := by
      refine List.filter_eq_self.mpr fun i member => ?_
      obtain ⟨_, high⟩ := List.mem_range'_1.mp member
      have first : ¬span.1 ≤ i := by omega
      have outside := uncovered_before later (show i < span.2 by omega)
      simpa [covered, first] using outside
    have middle : (List.range' span.1 (span.2 - span.1)).filter (fun i => !covered (span :: rest.map Prod.fst) i) = [] := by
      refine List.filter_eq_nil_iff.mpr fun i member => ?_
      obtain ⟨low, high⟩ := List.mem_range'_1.mp member
      have within : span.1 ≤ i ∧ i < span.2 := by omega
      simp [covered, within]
    have right : (List.range' span.2 (text.length - span.2)).filter (fun i => !covered (span :: rest.map Prod.fst) i) =
        (List.range' span.2 (text.length - span.2)).filter fun i => !covered (rest.map Prod.fst) i := by
      refine List.filter_congr fun i member => ?_
      rw [covered_cons (List.mem_range'_1.mp member).1]
    rw [weave, List.filterMap_append, List.filterMap_append, nothing, filterMap_slice read (forward.trans inside),
      ih later fun other present => unread other (List.mem_cons_of_mem _ present), List.map_cons, parts,
      List.filter_append, List.filter_append, left, middle, right, List.filterMap_append]
    simp

/-- The length of the spans that end by an offset. -/
def removedBefore (spans : List (Nat × Nat)) (position : Nat) : Nat :=
  ((spans.filter fun span => span.2 ≤ position).map fun span => span.2 - span.1).sum

/-- The length of what stands in place of the spans that end by an offset. -/
def insertedBefore (sizes : List ((Nat × Nat) × Nat)) (position : Nat) : Nat :=
  ((sizes.filter fun size => size.1.2 ≤ position).map Prod.snd).sum

def sizes (replacements : List ((Nat × Nat) × List α)) : List ((Nat × Nat) × Nat) :=
  replacements.map fun replacement => (replacement.1, replacement.2.length)

theorem removedBefore_of_ordered {start position : Nat} {spans : List (Nat × Nat)}
    (ordered : Ordered text.length start spans) (before : position < start) : removedBefore spans position = 0 := by
  have none : spans.filter (fun span => span.2 ≤ position) = [] := by
    refine List.filter_eq_nil_iff.mpr fun span member => ?_
    obtain ⟨above, forward, _⟩ := ordered.mem member
    simp only [decide_eq_true_eq]
    omega
  rw [removedBefore, none]
  rfl

theorem insertedBefore_of_ordered {start position : Nat} {replacements : List ((Nat × Nat) × List α)}
    (ordered : Ordered text.length start (replacements.map Prod.fst)) (before : position < start) :
    insertedBefore (sizes replacements) position = 0 := by
  have none : (sizes replacements).filter (fun size => size.1.2 ≤ position) = [] := by
    refine List.filter_eq_nil_iff.mpr fun size member => ?_
    obtain ⟨replacement, present, rfl⟩ := List.mem_map.mp member
    obtain ⟨above, forward, _⟩ := ordered.mem (List.mem_map_of_mem present)
    simp only [decide_eq_true_eq]
    omega
  rw [insertedBefore, none]
  rfl

/-- A position that no span covers moves by what was inserted and removed before it. -/
theorem getElem?_weave {start position : Nat} {replacements : List ((Nat × Nat) × List α)}
    (ordered : Ordered text.length start (replacements.map Prod.fst)) (above : start ≤ position)
    (outside : covered (replacements.map Prod.fst) position = false) :
    ∃ i, (weave text start replacements)[i]? = text[position]? ∧
      start + i + removedBefore (replacements.map Prod.fst) position =
        position + insertedBefore (sizes replacements) position := by
  induction replacements generalizing start with
  | nil =>
    refine ⟨position - start, ?_, ?_⟩
    · rw [weave, List.getElem?_drop, Nat.add_sub_cancel' above]
    · simp only [List.map_nil, removedBefore, sizes, insertedBefore, List.filter_nil, List.sum_nil]
      omega
  | cons replacement rest ih =>
    obtain ⟨span, inserted⟩ := replacement
    obtain ⟨low, forward, later⟩ :
      start ≤ span.1 ∧ span.1 ≤ span.2 ∧ Ordered text.length span.2 (rest.map Prod.fst) := ordered
    have inside : span.1 ≤ text.length := forward.trans later.le_limit
    have size : (slice text start span.1).length = span.1 - start := length_slice inside
    by_cases left : position < span.1
    · refine ⟨position - start, ?_, ?_⟩
      · rw [weave, List.append_assoc, List.getElem?_append_left (by omega), getElem?_slice (by omega),
          Nat.add_sub_cancel' above]
      · have whole : Ordered text.length span.1 (((span, inserted) :: rest).map Prod.fst) := ⟨le_rfl, forward, later⟩
        rw [removedBefore_of_ordered whole left, insertedBefore_of_ordered whole left]
        omega
    · have behind : span.2 ≤ position := by
        simp only [List.map_cons, covered, List.any_cons, Bool.or_eq_false_iff, Bool.and_eq_false_iff,
          decide_eq_false_iff_not] at outside
        omega
      rw [List.map_cons, covered_cons behind] at outside
      obtain ⟨i, found, moved⟩ := ih later behind outside
      refine ⟨span.1 - start + inserted.length + i, ?_, ?_⟩
      · rw [weave, List.getElem?_append_right (by rw [List.length_append]; omega), ← found]
        congr 1
        rw [List.length_append]
        omega
      · simp only [removedBefore, insertedBefore, sizes, List.map_cons, List.filter_cons, behind, decide_true,
          if_true, List.sum_cons] at moved ⊢
        omega

/-- A text in order stays in order when what is inserted for a span has its place. -/
theorem weave_pairwise {place : α → Nat} {start : Nat} {replacements : List ((Nat × Nat) × List α)}
    (ordered : Ordered text.length start (replacements.map Prod.fst)) (sorted : text.Pairwise fun x y => place x ≤ place y)
    (placed : ∀ replacement ∈ replacements, ∀ x ∈ replacement.2,
      ∃ y, text[replacement.1.1]? = some y ∧ place x = place y) :
    (weave text start replacements).Pairwise fun x y => place x ≤ place y := by
  have monotone : ∀ {i j : Nat} {x y : α}, i ≤ j → text[i]? = some x → text[j]? = some y → place x ≤ place y := by
    intro i j x y le first second
    obtain ⟨_, rfl⟩ := List.getElem?_eq_some_iff.mp first
    obtain ⟨_, rfl⟩ := List.getElem?_eq_some_iff.mp second
    rcases Nat.lt_or_eq_of_le le with before | rfl
    · exact List.pairwise_iff_getElem.mp sorted _ _ _ _ before
    · exact le_rfl
  have stands : ∀ {start : Nat} {replacements : List ((Nat × Nat) × List α)} {x : α},
      Ordered text.length start (replacements.map Prod.fst) →
      (∀ replacement ∈ replacements, ∀ x ∈ replacement.2, ∃ y, text[replacement.1.1]? = some y ∧ place x = place y) →
      x ∈ weave text start replacements → ∃ i y, start ≤ i ∧ text[i]? = some y ∧ place x = place y := by
    intro start replacements x ordered placed member
    rcases mem_weave ordered member with ⟨replacement, present, inserted⟩ | ⟨i, low, _, found⟩
    · obtain ⟨y, found, same⟩ := placed replacement present x inserted
      exact ⟨_, y, (ordered.mem (List.mem_map_of_mem present)).1, found, same⟩
    · exact ⟨i, x, low, found, rfl⟩
  induction replacements generalizing start with
  | nil => exact sorted.drop
  | cons replacement rest ih =>
    obtain ⟨span, inserted⟩ := replacement
    obtain ⟨low, forward, later⟩ :
      start ≤ span.1 ∧ span.1 ≤ span.2 ∧ Ordered text.length span.2 (rest.map Prod.fst) := ordered
    have others := fun other present => placed other (List.mem_cons_of_mem _ present)
    have here := placed _ List.mem_cons_self
    rw [weave, List.append_assoc]
    refine List.pairwise_append.mpr ⟨(sorted.take).drop, List.pairwise_append.mpr ⟨?_, ih later others, ?_⟩, ?_⟩
    · refine List.pairwise_of_forall_mem_list fun x first y second => ?_
      obtain ⟨a, foundA, sameA⟩ := here x first
      obtain ⟨b, foundB, sameB⟩ := here y second
      rw [sameA, sameB, Option.some.inj (foundA.symm.trans foundB)]
    · intro x first y second
      obtain ⟨a, foundA, sameA⟩ := here x first
      obtain ⟨i, b, behind, foundB, sameB⟩ := stands later others second
      rw [sameA, sameB]
      exact monotone (forward.trans behind) foundA foundB
    · intro x first y second
      obtain ⟨i, _, before, foundA⟩ := mem_slice first
      rcases List.mem_append.mp second with put | right
      · obtain ⟨b, foundB, sameB⟩ := here y put
        rw [sameB]
        exact monotone before.le foundA foundB
      · obtain ⟨j, b, behind, foundB, sameB⟩ := stands later others right
        rw [sameB]
        exact monotone (before.le.trans (forward.trans behind)) foundA foundB

end Weaving

section Outside

variable {α : Type} {text : List α} {limit : Nat} {replacements : List ((Nat × Nat) × List α)}

/-- Nothing changes before the spans, even where they reach beyond the text. -/
theorem take_spliceAll {start : Nat} (ordered : Ordered limit start (replacements.map Prod.fst)) (inside : start ≤ text.length) :
    (spliceAll text replacements).take start = text.take start := by
  induction replacements generalizing start with
  | nil => rfl
  | cons replacement rest ih =>
    obtain ⟨span, inserted⟩ := replacement
    obtain ⟨low, forward, later⟩ :
      start ≤ span.1 ∧ span.1 ≤ span.2 ∧ Ordered limit span.2 (rest.map Prod.fst) := ordered
    have same := ih (later.mono (low.trans forward)) inside
    have long : start ≤ (spliceAll text rest).length := by
      have size := congrArg List.length same
      rw [List.length_take, List.length_take] at size
      omega
    have reach : start ≤ ((spliceAll text rest).take span.1).length := by
      rw [List.length_take]
      omega
    rw [spliceAll_cons, splice, List.append_assoc, List.take_append_of_le_length reach, List.take_take,
      Nat.min_eq_left low, same]

/-- What stands outside the spans survives, even where they reach beyond the text. -/
theorem survives_of_uncovered {start position : Nat} {x : α} (ordered : Ordered limit start (replacements.map Prod.fst))
    (above : start ≤ position) (outside : covered (replacements.map Prod.fst) position = false)
    (found : text[position]? = some x) : x ∈ (spliceAll text replacements).drop start := by
  have inside : position < text.length := (List.getElem?_eq_some_iff.mp found).1
  induction replacements generalizing start with
  | nil =>
    refine List.mem_iff_getElem?.mpr ⟨position - start, ?_⟩
    rw [List.getElem?_drop, Nat.add_sub_cancel' above]
    exact found
  | cons replacement rest ih =>
    obtain ⟨span, inserted⟩ := replacement
    obtain ⟨low, forward, later⟩ :
      start ≤ span.1 ∧ span.1 ≤ span.2 ∧ Ordered limit span.2 (rest.map Prod.fst) := ordered
    rw [spliceAll_cons, splice]
    by_cases left : position < span.1
    · have same : (spliceAll text rest)[position]? = some x := by
        have front := take_spliceAll (later.mono (show position + 1 ≤ span.2 by omega)) inside
        have read := congrArg (fun list => list[position]?) front
        simpa [List.getElem?_take_of_lt, found] using read
      refine List.mem_iff_getElem?.mpr ⟨position - start, ?_⟩
      have short : position < ((spliceAll text rest).take span.1).length := by
        have bound := (List.getElem?_eq_some_iff.mp same).1
        rw [List.length_take]
        omega
      rw [List.getElem?_drop, Nat.add_sub_cancel' above, List.append_assoc, List.getElem?_append_left short,
        List.getElem?_take_of_lt left, same]
    · have behind : span.2 ≤ position := by
        simp only [List.map_cons, covered, List.any_cons, Bool.or_eq_false_iff, Bool.and_eq_false_iff,
          decide_eq_false_iff_not] at outside
        omega
      rw [List.map_cons, covered_cons behind] at outside
      have kept := ih later behind outside
      have long : start ≤ ((spliceAll text rest).take span.1).length := by
        have size := congrArg List.length (take_spliceAll later (behind.trans inside.le))
        rw [List.length_take, List.length_take] at size
        rw [List.length_take]
        omega
      rw [List.append_assoc, List.drop_append_of_le_length long]
      exact List.mem_append_right _ (List.mem_append_right _ kept)

end Outside

end OpenTulpa.Library.Splice
