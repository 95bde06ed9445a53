import Mathlib.Data.Finset.Sort
import Mathlib.Logic.Relation
import OpenTulpa.Library.Splice

/-! Where the parts of a spliced text come from. A splice moves everything behind it, so a second
pass over the same offsets takes out what it should exactly if the first pass has left the text
before each of its spans as long as it was. -/

namespace OpenTulpa.Library.Provenance

open Splice

/-- Where a part of the outcome comes from: a position of the text, or what replaces a span. -/
inductive Origin where
  | kept (position : Nat)
  | put (span : Nat × Nat)
  deriving DecidableEq

def Origin.place : Origin → Nat
  | .kept position => position
  | .put span => span.1

def Origin.position? : Origin → Option Nat
  | .kept position => some position
  | .put _ => none

section Tracing

variable {α : Type}

/-- The splices on a text whose parts carry their origins. -/
def traced (text : List α) (replacements : List ((Nat × Nat) × List α)) : List (α × Origin) :=
  spliceAll (text.zipIdx.map fun part => (part.1, .kept part.2))
    (replacements.map fun replacement => (replacement.1, replacement.2.map fun x => (x, .put replacement.1)))

def given (length : Nat) : List Origin := (List.range length).map .kept

def puts (sizes : List ((Nat × Nat) × Nat)) : List ((Nat × Nat) × List Origin) :=
  sizes.map fun size => (size.1, List.replicate size.2 (.put size.1))

/-- The origins alone, which depend on the text and on what is inserted only by their lengths. -/
def origins (length : Nat) (sizes : List ((Nat × Nat) × Nat)) : List Origin := spliceAll (given length) (puts sizes)

theorem traced_fst (text : List α) (replacements : List ((Nat × Nat) × List α)) :
    (traced text replacements).map Prod.fst = spliceAll text replacements := by
  rw [traced, spliceAll_map]
  simp [Function.comp_def, List.zipIdx_map_fst]

theorem traced_snd (text : List α) (replacements : List ((Nat × Nat) × List α)) :
    (traced text replacements).map Prod.snd = origins text.length (sizes replacements) := by
  have kept : (text.zipIdx.map fun part => Origin.kept part.2) = (List.range text.length).map .kept := by
    rw [List.range_eq_range', ← List.zipIdx_map_snd 0 text, List.map_map]
    rfl
  rw [traced, spliceAll_map, origins, given, puts, sizes, ← kept]
  simp [Function.comp_def, List.map_const']

/-- A part with the origin of a position is what the text has there, and one that was put in
place of a span is of its replacement. -/
theorem mem_traced {text : List α} {replacements : List ((Nat × Nat) × List α)} {x : α} {origin : Origin}
    (member : (x, origin) ∈ traced text replacements) :
    (∃ position, origin = .kept position ∧ text[position]? = some x) ∨
      ∃ replacement ∈ replacements, origin = .put replacement.1 ∧ x ∈ replacement.2 := by
  rcases mem_spliceAll member with inside | ⟨other, present, inserted⟩
  · obtain ⟨⟨y, position⟩, found, same⟩ := List.mem_map.mp inside
    cases same
    exact Or.inl ⟨position, rfl, List.mem_zipIdx_iff_getElem?.mp found⟩
  · obtain ⟨replacement, given, rfl⟩ := List.mem_map.mp present
    obtain ⟨y, chosen, same⟩ := List.mem_map.mp inserted
    cases same
    exact Or.inr ⟨replacement, given, rfl, chosen⟩

end Tracing

/-- Two of the spans share a position. -/
def Meets (spans : List (Nat × Nat)) (span other : Nat × Nat) : Prop :=
  span ∈ spans ∧ other ∈ spans ∧ span.1 < other.2 ∧ other.1 < span.2

/-- What no span covers survives once and in order, nothing else survives, and for each union of
spans that meet something stands in its place. -/
structure Redacts (length : Nat) (spans : List (Nat × Nat)) (origins : List Origin) : Prop where
  survivors : origins.filterMap Origin.position? = (List.range length).filter fun position => !covered spans position
  inPlace : origins.Pairwise fun x y => x.place ≤ y.place
  replaced : ∀ span ∈ spans, ∃ other, Relation.ReflTransGen (Meets spans) span other ∧ .put other ∈ origins

/-- Spans in the order of their starts that share no position, unless both run to the end. -/
structure Apart (length : Nat) (spans : List (Nat × Nat)) : Prop where
  proper : ∀ span ∈ spans, span.1 < span.2 ∧ span.2 ≤ length
  sorted : spans.Pairwise fun span other => span.1 ≤ other.1
  disjoint : spans.Pairwise fun span other => span.2 ≤ other.1 ∨ span.2 = length ∧ other.2 = length

theorem Apart.tail {length : Nat} {span : Nat × Nat} {spans : List (Nat × Nat)} (apart : Apart length (span :: spans)) :
    Apart length spans :=
  ⟨fun other member => apart.proper other (List.mem_cons_of_mem _ member), (List.pairwise_cons.mp apart.sorted).2,
    (List.pairwise_cons.mp apart.disjoint).2⟩

section FirstPass

variable {length : Nat}

theorem getElem?_given {position : Nat} (inside : position < length) : (given length)[position]? = some (.kept position) := by
  simp [given, inside]

theorem given_sorted : (given length).Pairwise fun x y => x.place ≤ y.place := by
  rw [given, List.pairwise_map]
  exact List.pairwise_lt_range.imp le_of_lt

/-- The spans that run to the end leave the text before the first of them and only what is put. -/
theorem origins_of_tail {first : (Nat × Nat) × Nat} {rest : List ((Nat × Nat) × Nat)}
    (apart : Apart length ((first :: rest).map Prod.fst)) (ends : ∀ size ∈ first :: rest, size.1.2 = length)
    (shown : ∀ size ∈ first :: rest, 0 < size.2) :
    ∃ tail, origins length (first :: rest) = (given length).take first.1.1 ++ tail ∧
      (tail.Pairwise fun x y => x.place ≤ y.place) ∧ (∀ x ∈ tail, ∃ size ∈ first :: rest, x = .put size.1) ∧
      .put first.1 ∈ tail := by
  induction rest generalizing first with
  | nil =>
    refine ⟨List.replicate first.2 (.put first.1), ?_, ?_, ?_, ?_⟩
    · rw [origins, puts, List.map_singleton, spliceAll_cons, splice, ends first List.mem_cons_self]
      simp [spliceAll, given]
    · exact List.pairwise_replicate.mpr (Or.inr le_rfl)
    · exact fun x member => ⟨first, List.mem_cons_self, List.eq_of_mem_replicate member⟩
    · exact List.mem_replicate.mpr ⟨(shown first List.mem_cons_self).ne', rfl⟩
  | cons second rest ih =>
    have starts : ∀ size ∈ second :: rest, first.1.1 ≤ size.1.1 := fun size member =>
      (List.pairwise_cons.mp apart.sorted).1 size.1 (List.mem_map_of_mem member)
    obtain ⟨tail, cut, sorted, only, _⟩ := ih apart.tail (fun size member => ends size (List.mem_cons_of_mem _ member))
      fun size member => shown size (List.mem_cons_of_mem _ member)
    have low : first.1.1 ≤ second.1.1 := starts second List.mem_cons_self
    have high : second.1.1 < length := by
      have proper := apart.proper second.1 (by simp)
      omega
    have front : (origins length (second :: rest)).take first.1.1 = (given length).take first.1.1 := by
      rw [cut, List.take_append_of_le_length (by simp [given]; omega), List.take_take, Nat.min_eq_left low]
    have back : (origins length (second :: rest)).drop length = tail.drop (length - second.1.1) := by
      rw [cut, List.drop_append, List.drop_of_length_le (by simp [given]), List.nil_append]
      simp [given, Nat.min_eq_left high.le]
    refine ⟨List.replicate first.2 (.put first.1) ++ tail.drop (length - second.1.1), ?_, ?_, ?_, ?_⟩
    · rw [origins, puts, List.map_cons, spliceAll_cons, ← puts, ← origins, splice, ends first List.mem_cons_self, front,
        back, List.append_assoc]
    · refine List.pairwise_append.mpr ⟨List.pairwise_replicate.mpr (Or.inr le_rfl), sorted.drop, ?_⟩
      intro x put y dropped
      obtain ⟨size, member, rfl⟩ := only y (List.mem_of_mem_drop dropped)
      rw [List.eq_of_mem_replicate put]
      exact starts size member
    · intro x member
      rcases List.mem_append.mp member with put | dropped
      · exact ⟨first, List.mem_cons_self, List.eq_of_mem_replicate put⟩
      · obtain ⟨size, present, same⟩ := only x (List.mem_of_mem_drop dropped)
        exact ⟨size, List.mem_cons_of_mem _ present, same⟩
    · exact List.mem_append_left _ (List.mem_replicate.mpr ⟨(shown first List.mem_cons_self).ne', rfl⟩)

/-- The spans that follow one another, and after them those that run to the end. -/
theorem Apart.split {start : Nat} {sizes : List ((Nat × Nat) × Nat)} (apart : Apart length (sizes.map Prod.fst))
    (above : ∀ size ∈ sizes, start ≤ size.1.1) (low : start ≤ length) :
    ∃ front tail limit, sizes = front ++ tail ∧ Ordered limit start (front.map Prod.fst) ∧ limit ≤ length ∧
      (∀ size ∈ tail, size.1.2 = length) ∧ (tail = [] ∧ limit = length ∨ ∃ first, tail.head? = some first ∧ limit = first.1.1) := by
  induction sizes generalizing start with
  | nil => exact ⟨[], [], length, rfl, low, le_rfl, by simp, Or.inl ⟨rfl, rfl⟩⟩
  | cons size rest ih =>
    have proper := apart.proper size.1 (by simp)
    have pairs := (List.pairwise_cons.mp apart.disjoint).1
    by_cases last : size.1.2 = length
    · refine ⟨[], size :: rest, size.1.1, rfl, above size List.mem_cons_self, by omega, ?_, Or.inr ⟨size, rfl, rfl⟩⟩
      intro other member
      rcases List.mem_cons.mp member with rfl | after
      · exact last
      · rcases pairs other.1 (List.mem_map_of_mem after) with behind | both
        · have inside := apart.tail.proper other.1 (List.mem_map_of_mem after)
          omega
        · exact both.2
    · have behind : ∀ other ∈ rest, size.1.2 ≤ other.1.1 := by
        intro other member
        rcases pairs other.1 (List.mem_map_of_mem member) with behind | both
        · exact behind
        · exact absurd both.1 last
      obtain ⟨front, tail, limit, rfl, ordered, rest⟩ := ih apart.tail behind proper.2
      exact ⟨size :: front, tail, limit, rfl, ⟨above size List.mem_cons_self, proper.1.le, ordered⟩, rest⟩

/-- What is left of the tail: the text up to a limit, then only what is put for spans that meet. -/
theorem origins_of_ends {tail : List ((Nat × Nat) × Nat)} {limit : Nat} (apart : Apart length (tail.map Prod.fst))
    (ends : ∀ size ∈ tail, size.1.2 = length) (shown : ∀ size ∈ tail, 0 < size.2)
    (starts : tail = [] ∧ limit = length ∨ ∃ first, tail.head? = some first ∧ limit = first.1.1) :
    ∃ cells, origins length tail = (given length).take limit ++ cells ∧
      (cells.Pairwise fun x y => x.place ≤ y.place) ∧ (∀ x ∈ cells, limit ≤ x.place ∧ x.position? = none) ∧
      ∀ size ∈ tail, ∃ other ∈ tail, .put other.1 ∈ cells ∧ size.1.1 < other.1.2 ∧ other.1.1 < size.1.2 := by
  cases tail with
  | nil =>
    rcases starts with ⟨_, rfl⟩ | ⟨_, impossible, _⟩
    · exact ⟨[], by simp [origins, puts, spliceAll, given], List.Pairwise.nil, by simp, by simp⟩
    · cases impossible
  | cons first rest =>
    rcases starts with ⟨impossible, _⟩ | ⟨_, opened, rfl⟩
    · cases impossible
    cases opened
    obtain ⟨cells, cut, sorted, only, present⟩ := origins_of_tail apart ends shown
    refine ⟨cells, cut, sorted, ?_, ?_⟩
    · intro x member
      obtain ⟨size, inside, rfl⟩ := only x member
      refine ⟨?_, rfl⟩
      rcases List.mem_cons.mp inside with rfl | after
      · exact le_rfl
      · exact (List.pairwise_cons.mp apart.sorted).1 size.1 (List.mem_map_of_mem after)
    · intro size member
      have proper := apart.proper size.1 (List.mem_map_of_mem member)
      have opening := apart.proper first.1 (by simp)
      rw [ends size member] at proper
      rw [ends first List.mem_cons_self] at opening
      refine ⟨first, List.mem_cons_self, present, ?_, ?_⟩
      · rw [ends first List.mem_cons_self]
        exact proper.1
      · rw [ends size member]
        exact opening.1

theorem covered_ends {tail : List ((Nat × Nat) × Nat)} {limit position : Nat} (apart : Apart length (tail.map Prod.fst))
    (ends : ∀ size ∈ tail, size.1.2 = length)
    (starts : tail = [] ∧ limit = length ∨ ∃ first, tail.head? = some first ∧ limit = first.1.1)
    (inside : position < length) : covered (tail.map Prod.fst) position = decide (limit ≤ position) := by
  cases tail with
  | nil =>
    rcases starts with ⟨_, rfl⟩ | ⟨_, impossible, _⟩
    · simp [covered, inside]
    · cases impossible
  | cons first rest =>
    rcases starts with ⟨impossible, _⟩ | ⟨_, opened, rfl⟩
    · cases impossible
    cases opened
    by_cases behind : first.1.1 ≤ position
    · rw [decide_eq_true behind, covered_iff]
      exact ⟨first.1, by simp, behind, by rw [ends first List.mem_cons_self]; exact inside⟩
    · rw [decide_eq_false behind, ← Bool.not_eq_true, covered_iff]
      rintro ⟨span, member, below, _⟩
      rcases List.mem_cons.mp member with rfl | after
      · exact behind below
      · exact behind (((List.pairwise_cons.mp apart.sorted).1 span after).trans below)

/-- What the first pass leaves: the positions that no span covers, in order, each moved by what was
put and removed before it, and something in place of the spans. -/
structure Settled (length : Nat) (sizes : List ((Nat × Nat) × Nat)) (cells : List Origin) : Prop where
  redacts : Redacts length (sizes.map Prod.fst) cells
  moved : ∀ position < length, covered (sizes.map Prod.fst) position = false →
    ∃ i, cells[i]? = some (.kept position) ∧
      i + removedBefore (sizes.map Prod.fst) position = position + insertedBefore sizes position

theorem puts_fst (sizes : List ((Nat × Nat) × Nat)) : (puts sizes).map Prod.fst = sizes.map Prod.fst := by
  simp [puts, Function.comp_def]

theorem sizes_puts (list : List ((Nat × Nat) × Nat)) : sizes (puts list) = list := by
  simp [sizes, puts, Function.comp_def]

theorem covered_append (front tail : List (Nat × Nat)) (position : Nat) :
    covered (front ++ tail) position = (covered front position || covered tail position) :=
  List.any_append

/-- The spans in two parts: those that follow one another, and those that run to the end and leave
the text up to a limit and the cells behind it. -/
structure Parted (length : Nat) (front tail : List ((Nat × Nat) × Nat)) (limit : Nat) (cells : List Origin) : Prop where
  ordered : Ordered limit 0 (front.map Prod.fst)
  proper : ∀ size ∈ front, size.1.1 < size.1.2 ∧ 0 < size.2
  ends : ∀ size ∈ tail, size.1.2 = length
  bound : limit ≤ length
  cut : origins length tail = (given length).take limit ++ cells
  sorted : cells.Pairwise fun x y => x.place ≤ y.place
  hidden : ∀ x ∈ cells, limit ≤ x.place ∧ x.position? = none
  ended : ∀ size ∈ tail, ∃ other ∈ tail, .put other.1 ∈ cells ∧ size.1.1 < other.1.2 ∧ other.1.1 < size.1.2
  covers : ∀ position < length, covered (tail.map Prod.fst) position = decide (limit ≤ position)

theorem Apart.parted {list : List ((Nat × Nat) × Nat)} (apart : Apart length (list.map Prod.fst))
    (shown : ∀ size ∈ list, 0 < size.2) : ∃ front tail limit cells, list = front ++ tail ∧ Parted length front tail limit cells := by
  obtain ⟨front, tail, limit, rfl, ordered, bound, ends, starts⟩ := apart.split (fun _ _ => Nat.zero_le _) (Nat.zero_le _)
  have apartTail : Apart length (tail.map Prod.fst) := by
    rw [List.map_append] at apart
    exact ⟨fun span member => apart.proper span (List.mem_append_right _ member),
      (List.pairwise_append.mp apart.sorted).2.1, (List.pairwise_append.mp apart.disjoint).2.1⟩
  obtain ⟨cells, cut, sorted, hidden, ended⟩ :=
    origins_of_ends apartTail ends (fun size member => shown size (List.mem_append_right _ member)) starts
  have proper : ∀ size ∈ front, size.1.1 < size.1.2 ∧ 0 < size.2 := by
    intro size member
    have inside : size ∈ front ++ tail := List.mem_append_left _ member
    exact ⟨(apart.proper size.1 (List.mem_map_of_mem inside)).1, shown size inside⟩
  exact ⟨front, tail, limit, cells, rfl, ordered, proper, ends, bound, cut, sorted, hidden, ended,
    fun position inside => covered_ends apartTail ends starts inside⟩

variable {front tail : List ((Nat × Nat) × Nat)} {limit : Nat} {cells : List Origin}

theorem Parted.kept (parted : Parted length front tail limit cells) {position : Nat} (below : position < limit) :
    (origins length tail)[position]? = some (.kept position) := by
  have size : ((given length).take limit).length = limit := by simp [given, parted.bound]
  rw [parted.cut, List.getElem?_append_left (by omega), List.getElem?_take_of_lt below,
    getElem?_given (below.trans_le parted.bound)]

theorem Parted.behind (parted : Parted length front tail limit cells) {position : Nat} (behind : limit ≤ position) :
    (origins length tail)[position]?.bind Origin.position? = none := by
  have size : ((given length).take limit).length = limit := by simp [given, parted.bound]
  rw [parted.cut, List.getElem?_append_right (by omega)]
  cases found : cells[position - ((given length).take limit).length]? with
  | none => rfl
  | some x => exact (parted.hidden x (List.mem_of_getElem? found)).2

theorem Parted.limit_le (parted : Parted length front tail limit cells) : limit ≤ (origins length tail).length := by
  have size : ((given length).take limit).length = limit := by simp [given, parted.bound]
  rw [parted.cut, List.length_append]
  omega

theorem Parted.spans (parted : Parted length front tail limit cells) :
    Ordered (origins length tail).length 0 ((puts front).map Prod.fst) := by
  rw [puts_fst]
  exact parted.ordered.limit_mono parted.limit_le

theorem Parted.woven (parted : Parted length front tail limit cells) :
    origins length (front ++ tail) = weave (origins length tail) 0 (puts front) := by
  have parts := spliceAll_append (given length) (puts front) (puts tail)
  rw [← origins, spliceAll_eq_weave parted.spans, List.take_zero, List.nil_append] at parts
  rw [← parts, origins, puts, List.map_append]
  rfl

theorem Parted.tail_sorted (parted : Parted length front tail limit cells) :
    (origins length tail).Pairwise fun x y => x.place ≤ y.place := by
  rw [parted.cut]
  refine List.pairwise_append.mpr ⟨given_sorted.take, parted.sorted, ?_⟩
  intro x before y after
  obtain ⟨i, found⟩ := List.mem_iff_getElem?.mp before
  obtain ⟨short, rfl⟩ := List.getElem?_eq_some_iff.mp found
  have low : i < limit := by
    rw [List.length_take] at short
    omega
  have place : ((given length).take limit)[i].place = i := by simp [given, Origin.place]
  rw [place]
  exact low.le.trans (parted.hidden y after).1

theorem Parted.survivors (parted : Parted length front tail limit cells) :
    (origins length (front ++ tail)).filterMap Origin.position? =
      (List.range length).filter fun position => !covered ((front ++ tail).map Prod.fst) position := by
  have unread : ∀ replacement ∈ puts front, ∀ x ∈ replacement.2, x.position? = none := by
    intro replacement member x inserted
    obtain ⟨size, _, rfl⟩ := List.mem_map.mp member
    rw [List.eq_of_mem_replicate inserted]
    rfl
  have bound := parted.bound
  have long := parted.limit_le
  have whole : ∀ stop, limit ≤ stop →
      List.range' 0 stop = List.range' 0 limit ++ List.range' limit (stop - limit) := by
    intro stop reach
    have joined : List.range' 0 limit ++ List.range' (0 + limit) (stop - limit) = List.range' 0 (limit + (stop - limit)) :=
      List.range'_append_1
    rw [Nat.zero_add, Nat.add_sub_cancel' reach] at joined
    exact joined.symm
  have near : ((List.range' 0 limit).filter fun i => !covered (front.map Prod.fst) i).filterMap
      (fun i => (origins length tail)[i]?.bind Origin.position?) =
      (List.range' 0 limit).filter fun i => !covered (front.map Prod.fst) i := by
    refine (List.filterMap_congr fun i member => ?_).trans List.filterMap_some
    have low := (List.mem_range'_1.mp (List.mem_filter.mp member).1).2
    rw [parted.kept (by omega)]
    rfl
  have far : ((List.range' limit ((origins length tail).length - limit)).filter
      fun i => !covered (front.map Prod.fst) i).filterMap (fun i => (origins length tail)[i]?.bind Origin.position?) = [] := by
    refine List.filterMap_eq_nil_iff.mpr fun i member => ?_
    exact parted.behind (List.mem_range'_1.mp (List.mem_filter.mp member).1).1
  rw [parted.woven, filterMap_weave parted.spans unread, puts_fst, Nat.sub_zero, whole _ long, List.filter_append,
    List.filterMap_append, near, far, List.append_nil, List.range_eq_range', whole _ bound, List.filter_append]
  have same : (List.range' 0 limit).filter (fun i => !covered ((front ++ tail).map Prod.fst) i) =
      (List.range' 0 limit).filter fun i => !covered (front.map Prod.fst) i := by
    refine List.filter_congr fun i member => ?_
    have low := (List.mem_range'_1.mp member).2
    have free : ¬limit ≤ i := by omega
    rw [List.map_append, covered_append, parted.covers i (by omega), decide_eq_false free, Bool.or_false]
  have nothing : (List.range' limit (length - limit)).filter (fun i => !covered ((front ++ tail).map Prod.fst) i) = [] := by
    refine List.filter_eq_nil_iff.mpr fun i member => ?_
    obtain ⟨low, high⟩ := List.mem_range'_1.mp member
    rw [List.map_append, covered_append, parted.covers i (by omega), decide_eq_true low, Bool.or_true]
    simp
  rw [same, nothing, List.append_nil]

theorem Parted.moved (parted : Parted length front tail limit cells) {position : Nat} (inside : position < length)
    (outside : covered ((front ++ tail).map Prod.fst) position = false) :
    ∃ i, (origins length (front ++ tail))[i]? = some (.kept position) ∧
      i + removedBefore ((front ++ tail).map Prod.fst) position = position + insertedBefore (front ++ tail) position := by
  rw [List.map_append, covered_append, Bool.or_eq_false_iff, parted.covers position inside,
    decide_eq_false_iff_not] at outside
  obtain ⟨free, before⟩ := outside
  have none : tail.filter (fun size => size.1.2 ≤ position) = [] := by
    refine List.filter_eq_nil_iff.mpr fun size member => ?_
    rw [decide_eq_true_eq, parted.ends size member]
    omega
  have noSpan : (tail.map Prod.fst).filter (fun span => span.2 ≤ position) = [] := by
    rw [List.filter_map, Function.comp_def, none, List.map_nil]
  obtain ⟨i, found, shifted⟩ := getElem?_weave parted.spans (Nat.zero_le position) (by rwa [puts_fst])
  refine ⟨i, ?_, ?_⟩
  · rw [parted.woven, found, parted.kept (by omega)]
  · rw [puts_fst, sizes_puts, Nat.zero_add] at shifted
    rw [removedBefore, insertedBefore, List.map_append, List.filter_append, List.filter_append, none, noSpan,
      List.append_nil, List.append_nil]
    exact shifted

theorem Parted.inPlace (parted : Parted length front tail limit cells) :
    (origins length (front ++ tail)).Pairwise fun x y => x.place ≤ y.place := by
  rw [parted.woven]
  refine weave_pairwise parted.spans parted.tail_sorted ?_
  intro replacement member x inserted
  obtain ⟨size, present, rfl⟩ := List.mem_map.mp member
  have inside := (parted.ordered.mem (List.mem_map_of_mem present)).2.2
  have proper := (parted.proper size present).1
  refine ⟨.kept size.1.1, parted.kept (proper.trans_le inside), ?_⟩
  rw [List.eq_of_mem_replicate inserted]
  rfl

theorem Parted.replaced (parted : Parted length front tail limit cells) {span : Nat × Nat}
    (member : span ∈ (front ++ tail).map Prod.fst) :
    ∃ other, Relation.ReflTransGen (Meets ((front ++ tail).map Prod.fst)) span other ∧
      .put other ∈ origins length (front ++ tail) := by
  obtain ⟨size, present, rfl⟩ := List.mem_map.mp member
  rw [parted.woven]
  rcases List.mem_append.mp present with before | after
  · refine ⟨size.1, .refl, mem_weave_of_put (List.mem_map_of_mem before) ?_⟩
    exact List.mem_replicate.mpr ⟨(parted.proper size before).2.ne', rfl⟩
  · obtain ⟨other, ended, put, first, second⟩ := parted.ended size after
    have inside : other.1 ∈ (front ++ tail).map Prod.fst := List.mem_map_of_mem (List.mem_append_right _ ended)
    refine ⟨other.1, .single ⟨member, inside, first, second⟩, ?_⟩
    obtain ⟨i, found⟩ := List.mem_iff_getElem?.mp put
    have size : ((given length).take limit).length = limit := by simp [given, parted.bound]
    have stands : (origins length tail)[limit + i]? = some (.put other.1) := by
      rw [parted.cut, List.getElem?_append_right (by omega), size, Nat.add_sub_cancel_left, found]
    have free : covered ((puts front).map Prod.fst) (limit + i) = false := by
      rw [puts_fst, ← Bool.not_eq_true, covered_iff]
      rintro ⟨span, inFront, _, above⟩
      have stop := (parted.ordered.mem inFront).2.2
      omega
    obtain ⟨j, moved, _⟩ := getElem?_weave parted.spans (Nat.zero_le _) free
    exact List.mem_of_getElem? (moved.trans stands)

theorem first_pass {list : List ((Nat × Nat) × Nat)} (apart : Apart length (list.map Prod.fst))
    (shown : ∀ size ∈ list, 0 < size.2) : Settled length list (origins length list) := by
  obtain ⟨front, tail, limit, cells, rfl, parted⟩ := apart.parted shown
  exact ⟨⟨parted.survivors, parted.inPlace, fun span member => parted.replaced member⟩,
    fun position inside outside => parted.moved inside outside⟩

end FirstPass

section SecondPass

/-- A strictly increasing map of a finite set of numbers into itself moves none of them. -/
theorem eq_self_of_increasing {positions : Finset Nat} {move : Nat → Nat} (inside : ∀ q ∈ positions, move q ∈ positions)
    (increasing : ∀ q ∈ positions, ∀ r ∈ positions, q < r → move q < move r) {q : Nat} (member : q ∈ positions) :
    move q = q := by
  let listed := positions.orderEmbOfFin rfl
  have same : move ∘ listed = listed := by
    refine Finset.orderEmbOfFin_unique rfl (fun i => inside _ (Finset.orderEmbOfFin_mem _ _ i)) ?_
    intro i j less
    exact increasing _ (Finset.orderEmbOfFin_mem _ _ i) _ (Finset.orderEmbOfFin_mem _ _ j)
      (listed.strictMono less)
  have reached : q ∈ Set.range listed := by
    rw [Finset.range_orderEmbOfFin]
    exact member
  obtain ⟨i, rfl⟩ := reached
  exact congrFun same i

/-- Two passes over one text: spans that are apart, then spans that follow one another and meet none
of the first, all of them at their offsets in the text as it was given. -/
structure Passes (length : Nat) (later earlier : List ((Nat × Nat) × Nat)) : Prop where
  ordered : Ordered length 0 (later.map Prod.fst)
  proper : ∀ size ∈ later, size.1.1 < size.1.2 ∧ 0 < size.2
  apart : Apart length (earlier.map Prod.fst)
  shown : ∀ size ∈ earlier, 0 < size.2
  across : ∀ size ∈ later, ∀ other ∈ earlier, size.1.2 ≤ other.1.1 ∨ other.1.2 ≤ size.1.1

/-- Where the first pass moves a position. -/
def moved (earlier : List ((Nat × Nat) × Nat)) (position : Nat) : Nat :=
  position + insertedBefore earlier position - removedBefore (earlier.map Prod.fst) position

variable {length : Nat} {later earlier : List ((Nat × Nat) × Nat)}

theorem covered_sizes {list : List ((Nat × Nat) × Nat)} {position : Nat} :
    covered (list.map Prod.fst) position = true ↔ ∃ size ∈ list, size.1.1 ≤ position ∧ position < size.1.2 := by
  rw [covered_iff]
  constructor
  · rintro ⟨span, member, within⟩
    obtain ⟨size, present, rfl⟩ := List.mem_map.mp member
    exact ⟨size, present, within⟩
  · rintro ⟨size, present, within⟩
    exact ⟨size.1, List.mem_map_of_mem present, within⟩

theorem Passes.settled (passes : Passes length later earlier) : Settled length earlier (origins length earlier) :=
  first_pass passes.apart passes.shown

theorem Passes.below (passes : Passes length later earlier) {position : Nat}
    (inside : covered (later.map Prod.fst) position = true) : position < length := by
  obtain ⟨size, member, _, high⟩ := covered_sizes.mp inside
  exact high.trans_le (passes.ordered.mem (List.mem_map_of_mem member)).2.2

theorem Passes.free (passes : Passes length later earlier) {position : Nat}
    (inside : covered (later.map Prod.fst) position = true) : covered (earlier.map Prod.fst) position = false := by
  obtain ⟨size, member, low, high⟩ := covered_sizes.mp inside
  rw [← Bool.not_eq_true, covered_sizes]
  rintro ⟨other, present, first, second⟩
  have apart := passes.across size member other present
  omega

theorem Passes.stands (passes : Passes length later earlier) {position : Nat} (inside : position < length)
    (outside : covered (earlier.map Prod.fst) position = false) :
    (origins length earlier)[moved earlier position]? = some (.kept position) := by
  obtain ⟨i, found, shifted⟩ := passes.settled.moved position inside outside
  rw [moved, ← shifted, Nat.add_sub_cancel]
  exact found

theorem Passes.unique (passes : Passes length later earlier) {i j position : Nat}
    (first : (origins length earlier)[i]? = some (.kept position))
    (second : (origins length earlier)[j]? = some (.kept position)) : i = j := by
  have nodup : ((origins length earlier).filterMap Origin.position?).Nodup := by
    rw [passes.settled.redacts.survivors]
    exact List.nodup_range.filter _
  have pairs := List.pairwise_filterMap.mp nodup
  obtain ⟨low, same⟩ := List.getElem?_eq_some_iff.mp first
  obtain ⟨high, equal⟩ := List.getElem?_eq_some_iff.mp second
  have known : ∀ {k} (short : k < (origins length earlier).length), (origins length earlier)[k] = .kept position →
      (origins length earlier)[k].position? = some position := by
    intro k short kept
    rw [kept]
    rfl
  rcases Nat.lt_trichotomy i j with less | same | more
  · exact absurd rfl (List.pairwise_iff_getElem.mp pairs i j low high less _ (known low same) _ (known high equal))
  · exact same
  · exact absurd rfl (List.pairwise_iff_getElem.mp pairs j i high low more _ (known high equal) _ (known low same))

theorem Passes.increasing (passes : Passes length later earlier) {position other : Nat} (less : position < other)
    (inside : other < length) (outside : covered (earlier.map Prod.fst) position = false)
    (free : covered (earlier.map Prod.fst) other = false) : moved earlier position < moved earlier other := by
  have first := passes.stands (less.trans inside) outside
  have second := passes.stands inside free
  obtain ⟨low, same⟩ := List.getElem?_eq_some_iff.mp first
  obtain ⟨high, equal⟩ := List.getElem?_eq_some_iff.mp second
  rcases Nat.lt_trichotomy (moved earlier position) (moved earlier other) with fine | collide | more
  · exact fine
  · rw [collide] at first
    cases first.symm.trans second
    exact absurd less (Nat.lt_irrefl _)
  · have order := List.pairwise_iff_getElem.mp passes.settled.redacts.inPlace _ _ high low more
    rw [same, equal] at order
    exact absurd less (Nat.not_lt.mpr order)

theorem Passes.split (_ : Passes length later earlier) :
    origins length (later ++ earlier) = spliceAll (origins length earlier) (puts later) := by
  have parts := spliceAll_append (given length) (puts later) (puts earlier)
  rw [← origins] at parts
  rw [← parts, origins, puts, List.map_append]
  rfl

/-- Where the passes take out what they should, the second one finds its spans where they were. -/
theorem Passes.unmoved (passes : Passes length later earlier)
    (redacts : Redacts length ((later ++ earlier).map Prod.fst) (origins length (later ++ earlier))) {position : Nat}
    (inside : covered (later.map Prod.fst) position = true) : moved earlier position = position := by
  let positions := (Finset.range length).filter fun q => covered (later.map Prod.fst) q = true
  have member : ∀ {q}, q ∈ positions ↔ covered (later.map Prod.fst) q = true := by
    intro q
    rw [Finset.mem_filter, Finset.mem_range]
    exact ⟨And.right, fun inside => ⟨passes.below inside, inside⟩⟩
  refine @eq_self_of_increasing positions (moved earlier) ?_ ?_ position (member.mpr inside)
  · intro q chosen
    have within := member.mp chosen
    refine member.mpr ?_
    by_contra outside
    have stands := passes.stands (passes.below within) (passes.free within)
    have spans : Ordered length 0 ((puts later).map Prod.fst) := by
      rw [puts_fst]
      exact passes.ordered
    have survives := survives_of_uncovered spans (Nat.zero_le _)
      (by rw [puts_fst]; exact Bool.not_eq_true _ ▸ outside) stands
    rw [← passes.split, List.drop_zero] at survives
    have listed : q ∈ (origins length (later ++ earlier)).filterMap Origin.position? :=
      List.mem_filterMap.mpr ⟨_, survives, rfl⟩
    rw [redacts.survivors, List.mem_filter, List.map_append, covered_append, within] at listed
    simp at listed
  · intro q first r second less
    exact passes.increasing less (passes.below (member.mp second)) (passes.free (member.mp first))
      (passes.free (member.mp second))

theorem Passes.same_before (passes : Passes length later earlier) {size : (Nat × Nat) × Nat} (member : size ∈ later)
    {position : Nat} (low : size.1.1 ≤ position) (high : position < size.1.2) :
    removedBefore (earlier.map Prod.fst) position = removedBefore (earlier.map Prod.fst) size.1.1 ∧
      insertedBefore earlier position = insertedBefore earlier size.1.1 := by
  have same : ∀ other ∈ earlier, decide (other.1.2 ≤ position) = decide (other.1.2 ≤ size.1.1) := by
    intro other present
    have apart := passes.across size member other present
    have proper := (passes.apart.proper other.1 (List.mem_map_of_mem present)).1
    rw [decide_eq_decide]
    omega
  constructor
  · rw [removedBefore, removedBefore, List.filter_map, List.filter_map]
    exact congrArg (fun list => ((list.map Prod.fst).map fun span : Nat × Nat => span.2 - span.1).sum)
      (List.filter_congr same)
  · rw [insertedBefore, insertedBefore, List.filter_congr same]

/-- What is put and what is removed before a span of the second pass have one length. -/
def Balanced (later earlier : List ((Nat × Nat) × Nat)) : Prop :=
  ∀ size ∈ later, removedBefore (earlier.map Prod.fst) size.1.1 = insertedBefore earlier size.1.1

theorem Passes.at (passes : Passes length later earlier) (balanced : Balanced later earlier) {position : Nat}
    (inside : covered (later.map Prod.fst) position = true) :
    (origins length earlier)[position]? = some (.kept position) := by
  obtain ⟨size, member, low, high⟩ := covered_sizes.mp inside
  obtain ⟨removed, inserted⟩ := passes.same_before member low high
  have stays : moved earlier position = position := by
    rw [moved, removed, inserted, balanced size member, Nat.add_sub_cancel]
  have stands := passes.stands (passes.below inside) (passes.free inside)
  rwa [stays] at stands

theorem Passes.spans (passes : Passes length later earlier) (balanced : Balanced later earlier) :
    Ordered (origins length earlier).length 0 ((puts later).map Prod.fst) := by
  rw [puts_fst]
  refine passes.ordered.within (Nat.zero_le _) ?_
  intro span member
  obtain ⟨size, present, rfl⟩ := List.mem_map.mp member
  have proper := (passes.proper size present).1
  have last := passes.at balanced (covered_sizes.mpr ⟨size, present, Nat.le_sub_one_of_lt proper, by omega⟩)
  have short := (List.getElem?_eq_some_iff.mp last).1
  omega

theorem Passes.woven (passes : Passes length later earlier) (balanced : Balanced later earlier) :
    origins length (later ++ earlier) = weave (origins length earlier) 0 (puts later) := by
  rw [passes.split, spliceAll_eq_weave (passes.spans balanced), List.take_zero, List.nil_append]

theorem Passes.covered_iff (passes : Passes length later earlier) (balanced : Balanced later earlier) {i position : Nat}
    (found : (origins length earlier)[i]? = some (.kept position)) :
    covered (later.map Prod.fst) i = covered (later.map Prod.fst) position := by
  rw [Bool.eq_iff_iff]
  constructor
  · intro inside
    cases found.symm.trans (passes.at balanced inside)
    exact inside
  · intro inside
    rw [passes.unique found (passes.at balanced inside)]
    exact inside

theorem Passes.survivors (passes : Passes length later earlier) (balanced : Balanced later earlier) :
    (origins length (later ++ earlier)).filterMap Origin.position? =
      (List.range length).filter fun position => !covered ((later ++ earlier).map Prod.fst) position := by
  have unread : ∀ replacement ∈ puts later, ∀ x ∈ replacement.2, x.position? = none := by
    intro replacement member x inserted
    obtain ⟨size, _, rfl⟩ := List.mem_map.mp member
    rw [List.eq_of_mem_replicate inserted]
    rfl
  have whole : (origins length earlier).filterMap Origin.position? =
      (List.range' 0 (origins length earlier).length).filterMap
        fun i => (origins length earlier)[i]?.bind Origin.position? := by
    have all : (slice (origins length earlier) 0 (origins length earlier).length).filterMap Origin.position? = _ :=
      filterMap_slice Origin.position? le_rfl
    rwa [slice, List.take_length, List.drop_zero] at all
  have split : (fun position => !covered ((later ++ earlier).map Prod.fst) position) =
      fun position => !covered (later.map Prod.fst) position && !covered (earlier.map Prod.fst) position := by
    funext position
    rw [List.map_append, covered_append, Bool.not_or]
  rw [passes.woven balanced, filterMap_weave (passes.spans balanced) unread, puts_fst, split, ← List.filter_filter,
    ← passes.settled.redacts.survivors, whole, List.filterMap_filter, List.filter_filterMap]
  refine List.filterMap_congr fun i _ => ?_
  cases found : (origins length earlier)[i]? with
  | none => simp
  | some origin =>
    cases origin with
    | put span => simp [Origin.position?]
    | kept position =>
      rw [passes.covered_iff balanced found]
      cases inside : covered (later.map Prod.fst) position <;> simp [Origin.position?, Option.filter, inside]

theorem Passes.inPlace (passes : Passes length later earlier) (balanced : Balanced later earlier) :
    (origins length (later ++ earlier)).Pairwise fun x y => x.place ≤ y.place := by
  rw [passes.woven balanced]
  refine weave_pairwise (passes.spans balanced) passes.settled.redacts.inPlace ?_
  intro replacement member x inserted
  obtain ⟨size, present, rfl⟩ := List.mem_map.mp member
  have proper := (passes.proper size present).1
  refine ⟨.kept size.1.1, passes.at balanced (covered_sizes.mpr ⟨size, present, le_rfl, proper⟩), ?_⟩
  rw [List.eq_of_mem_replicate inserted]
  rfl

theorem Passes.replaced (passes : Passes length later earlier) (balanced : Balanced later earlier) {span : Nat × Nat}
    (member : span ∈ (later ++ earlier).map Prod.fst) :
    ∃ other, Relation.ReflTransGen (Meets ((later ++ earlier).map Prod.fst)) span other ∧
      .put other ∈ origins length (later ++ earlier) := by
  rw [passes.woven balanced]
  have widen : ∀ {span}, span ∈ earlier.map Prod.fst → span ∈ (later ++ earlier).map Prod.fst := by
    intro span present
    rw [List.map_append]
    exact List.mem_append_right _ present
  rw [List.map_append, List.mem_append] at member
  rcases member with second | first
  · obtain ⟨size, present, rfl⟩ := List.mem_map.mp second
    refine ⟨size.1, .refl, mem_weave_of_put (List.mem_map_of_mem present) ?_⟩
    exact List.mem_replicate.mpr ⟨(passes.proper size present).2.ne', rfl⟩
  · obtain ⟨other, joined, put⟩ := passes.settled.redacts.replaced span first
    refine ⟨other, Relation.ReflTransGen.mono (fun a b meets => ⟨widen meets.1, widen meets.2.1, meets.2.2⟩) _ _ joined, ?_⟩
    obtain ⟨i, found⟩ := List.mem_iff_getElem?.mp put
    have free : covered ((puts later).map Prod.fst) i = false := by
      rw [puts_fst, ← Bool.not_eq_true]
      intro inside
      cases found.symm.trans (passes.at balanced inside)
    obtain ⟨j, stands, _⟩ := getElem?_weave (passes.spans balanced) (Nat.zero_le i) free
    exact List.mem_of_getElem? (stands.trans found)

/-- The passes take out what their spans cover and nothing else exactly if the first one does not
move the spans of the second. -/
theorem Passes.redacts_iff (passes : Passes length later earlier) :
    Redacts length ((later ++ earlier).map Prod.fst) (origins length (later ++ earlier)) ↔ Balanced later earlier := by
  constructor
  · intro redacts size member
    have proper := (passes.proper size member).1
    have inside := covered_sizes.mpr ⟨size, member, le_rfl, proper⟩
    have stays := passes.unmoved redacts inside
    obtain ⟨i, found, shifted⟩ := passes.settled.moved _ (passes.below inside) (passes.free inside)
    have same := passes.unique found (passes.stands (passes.below inside) (passes.free inside))
    omega
  · exact fun balanced => ⟨passes.survivors balanced, passes.inPlace balanced, fun span member =>
      passes.replaced balanced member⟩

end SecondPass

end OpenTulpa.Library.Provenance
