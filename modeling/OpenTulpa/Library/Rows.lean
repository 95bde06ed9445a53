import Mathlib.Data.List.Forall2
import Mathlib.Data.List.MinMax
import Mathlib.Data.List.Nodup

/-! Tables as lists of rows: the conditional update of a table, keyed lookup, and
the row that comes first under a descending order. -/

namespace OpenTulpa.Library.Rows

variable {α κ : Type*}

/-- `UPDATE rows SET change WHERE chosen`. -/
def update (chosen : α → Bool) (change : α → α) (rows : List α) : List α :=
  rows.map fun row => if chosen row then change row else row

@[simp] theorem update_nil (chosen : α → Bool) (change : α → α) : update chosen change [] = [] := rfl

theorem mem_update {chosen : α → Bool} {change : α → α} {rows : List α} {row : α} :
    row ∈ update chosen change rows ↔
      (∃ old ∈ rows, chosen old = true ∧ row = change old) ∨ (row ∈ rows ∧ chosen row = false) := by
  simp only [update, List.mem_map]
  constructor
  · rintro ⟨old, member, rfl⟩
    cases found : chosen old with
    | true => exact Or.inl ⟨old, member, found, by simp⟩
    | false => exact Or.inr ⟨by simpa [found] using member, by simp [found]⟩
  · rintro (⟨old, member, found, rfl⟩ | ⟨member, missed⟩)
    · exact ⟨old, member, by simp [found]⟩
    · exact ⟨row, member, by simp [missed]⟩

theorem map_update {chosen : α → Bool} {change : α → α} (key : α → κ)
    (kept : ∀ row, chosen row = true → key (change row) = key row) (rows : List α) :
    (update chosen change rows).map key = rows.map key := by
  simp only [update, List.map_map]
  apply List.map_congr_left
  intro row _
  by_cases found : chosen row = true
  · simp [found, kept row found]
  · simp [found]

/-- An update whose condition selects no row changes nothing. -/
theorem update_of_none {chosen : α → Bool} {change : α → α} {rows : List α}
    (missed : ∀ row ∈ rows, chosen row = false) : update chosen change rows = rows := by
  simp only [update]
  conv_rhs => rw [← List.map_id rows]
  apply List.map_congr_left
  intro row member
  simp [missed row member]

theorem filter_update (keep chosen : α → Bool) (change : α → α) (rows : List α)
    (stable : ∀ row, chosen row = true → keep (change row) = keep row) :
    (update chosen change rows).filter keep = update chosen change (rows.filter keep) := by
  induction rows with
  | nil => rfl
  | cons row rows ih =>
    simp only [update, List.map_cons, List.filter_cons] at ih ⊢
    by_cases found : chosen row = true
    · simp only [found, if_true, stable row found, ih]
      split <;> simp [found]
    · simp only [found, Bool.false_eq_true, if_false, ih]
      split <;> simp [found]

/-- An update that brings no row into a selection does not enlarge it. -/
theorem length_filter_update_le (keep chosen : α → Bool) (change : α → α) (rows : List α)
    (shrinks : ∀ row, chosen row = true → keep (change row) = true → keep row = true) :
    ((update chosen change rows).filter keep).length ≤ (rows.filter keep).length := by
  induction rows with
  | nil => simp
  | cons row rows ih =>
    simp only [update, List.map_cons, List.filter_cons] at ih ⊢
    by_cases found : chosen row = true
    · simp only [found, if_true]
      cases after : keep (change row) with
      | true => simp [shrinks row found after, ih]
      | false => cases before : keep row <;> simp <;> omega
    · simp only [found, Bool.false_eq_true, if_false]
      cases before : keep row <;> simp [ih]

theorem find_update (wanted chosen : α → Bool) (change : α → α) (rows : List α)
    (stable : ∀ row, chosen row = true → wanted (change row) = wanted row) :
    (update chosen change rows).find? wanted =
      (rows.find? wanted).map fun row => if chosen row then change row else row := by
  rw [update, List.find?_map]
  congr 2
  funext row
  by_cases found : chosen row = true
  · simp [found, stable row found]
  · simp [found]

theorem eq_of_key_eq {key : α → κ} {rows : List α} (distinct : (rows.map key).Nodup) {first second : α}
    (left : first ∈ rows) (right : second ∈ rows) (same : key first = key second) : first = second :=
  List.inj_on_of_nodup_map distinct left right same

section Lookup

variable [BEq κ] [LawfulBEq κ] {key : α → κ}

theorem find_of_mem {rows : List α} (distinct : (rows.map key).Nodup) {row : α} (member : row ∈ rows) :
    rows.find? (fun other => key other == key row) = some row := by
  induction rows with
  | nil => cases member
  | cons head rows ih =>
    simp only [List.map_cons, List.nodup_cons] at distinct
    rcases List.mem_cons.mp member with same | later
    · subst same
      simp
    · have different : key head ≠ key row := by
        intro same
        exact distinct.1 (same ▸ List.mem_map_of_mem later)
      simp [different, ih distinct.2 later]

/-- The row count of a statement about one key: the row of the key, if it meets the condition. -/
theorem countP_key {rows : List α} (distinct : (rows.map key).Nodup) (wanted : κ) (condition : α → Bool) :
    rows.countP (fun row => key row == wanted && condition row) =
      if (rows.find? fun row => key row == wanted).any condition then 1 else 0 := by
  induction rows with
  | nil => rfl
  | cons head rows ih =>
    simp only [List.map_cons, List.nodup_cons] at distinct
    rw [List.countP_cons, ih distinct.2, List.find?_cons]
    by_cases here : key head = wanted
    · have later : rows.find? (fun row => key row == wanted) = none := by
        rw [List.find?_eq_none]
        intro row member same
        exact distinct.1 (by rw [here, ← beq_iff_eq.mp same]; exact List.mem_map_of_mem member)
      simp [here, later]
    · have apart : (key head == wanted) = false := by simpa using here
      simp [apart]

end Lookup

section Upsert

variable [BEq κ] [LawfulBEq κ] {key : α → κ}

/-- `INSERT INTO rows VALUES row ON CONFLICT(key) DO UPDATE SET change`. -/
def upsert (key : α → κ) (row : α) (change : α → α) (rows : List α) : List α :=
  if rows.any fun other => key other == key row then update (fun other => key other == key row) change rows
  else rows ++ [row]

theorem find_upsert_self (rows : List α) (row : α) {change : α → α}
    (kept : ∀ other, key other = key row → key (change other) = key row) :
    ((upsert key row change rows).find? fun other => key other == key row) =
      some (((rows.find? fun other => key other == key row).map change).getD row) := by
  rw [upsert]
  split
  · rename_i found
    rw [find_update]
    · obtain ⟨old, member, same⟩ := List.any_eq_true.mp found
      cases first : rows.find? fun other => key other == key row with
      | none => exact absurd same (List.find?_eq_none.mp first old member)
      | some other => simp [List.find?_some first]
    · intro other same
      rw [kept other (beq_iff_eq.mp same), beq_iff_eq.mp same]
  · rename_i missing
    have none : (rows.find? fun other => key other == key row) = none := by
      rw [List.find?_eq_none]
      exact fun other member same => missing (List.any_eq_true.mpr ⟨other, member, same⟩)
    rw [List.find?_append, none]
    simp

theorem find_upsert_of_ne {row : α} {change : α → α} {rows : List α} {wanted : κ}
    (kept : ∀ other, key other = key row → key (change other) = key row) (apart : wanted ≠ key row) :
    ((upsert key row change rows).find? fun other => key other == wanted) =
      rows.find? fun other => key other == wanted := by
  rw [upsert]
  split
  · rw [find_update]
    · cases first : rows.find? fun other => key other == wanted with
      | none => rfl
      | some other =>
        have here : key other = wanted := by simpa using List.find?_some first
        simp [here, apart]
    · intro other same
      rw [kept other (beq_iff_eq.mp same), beq_iff_eq.mp same]
  · rw [List.find?_append]
    simp [apart.symm]

end Upsert

/-- `ORDER BY rank DESC LIMIT 1` over rows of pairwise distinct rank. -/
theorem argmax_eq_of_forall_lt {β : Type*} [LinearOrder β] {rank : α → β} {rows : List α} {top : α}
    (member : top ∈ rows) (above : ∀ row ∈ rows, row ≠ top → rank row < rank top) :
    rows.argmax rank = some top := by
  cases found : rows.argmax rank with
  | none => simp [List.argmax_eq_none.mp found] at member
  | some row =>
    by_contra different
    have other : row ≠ top := fun same => different (by rw [same])
    exact List.not_lt_of_mem_argmax member (Option.mem_def.mpr found)
      (above row (List.argmax_mem (Option.mem_def.mpr found)) other)

section Numbered

variable {rank : α → Nat} {rows : List α}

theorem numbered_concat {last : α} (numbered : (rows ++ [last]).map rank = List.range' 1 (rows ++ [last]).length) :
    rows.map rank = List.range' 1 rows.length ∧ rank last = rows.length + 1 := by
  simp only [List.map_append, List.map_cons, List.map_nil, List.length_append, List.length_cons, List.length_nil,
    List.range'_concat, Nat.one_mul, Nat.zero_add] at numbered
  obtain ⟨front, back⟩ := List.append_inj numbered (by simp)
  simp only [List.cons.injEq, and_true] at back
  exact ⟨front, by omega⟩

theorem rank_of_numbered (numbered : rows.map rank = List.range' 1 rows.length) {row : α} (member : row ∈ rows) :
    1 ≤ rank row ∧ rank row ≤ rows.length := by
  have within : rank row ∈ List.range' 1 rows.length := numbered ▸ List.mem_map_of_mem member
  have bounds := List.mem_range'_1.mp within
  omega

/-- The latest of the rows that are numbered from one. -/
theorem argmax_of_numbered (numbered : rows.map rank = List.range' 1 rows.length) :
    rows.argmax rank = rows.getLast? := by
  rcases List.eq_nil_or_concat' rows with rfl | ⟨front, last, rfl⟩
  · rfl
  · obtain ⟨earlier, top⟩ := numbered_concat numbered
    rw [List.getLast?_concat]
    refine argmax_eq_of_forall_lt (by simp) ?_
    intro row member different
    have before : row ∈ front := by simpa [different] using member
    have bounds := rank_of_numbered earlier before
    omega

theorem rank_getLast (numbered : rows.map rank = List.range' 1 rows.length) {last : α} (top : last ∈ rows.getLast?) :
    rank last = rows.length := by
  rcases List.eq_nil_or_concat' rows with rfl | ⟨front, other, rfl⟩
  · cases top
  · obtain rfl : other = last := by simpa using top
    simpa using (numbered_concat numbered).2

/-- The row of the highest number is the last one. -/
theorem find_of_numbered (numbered : rows.map rank = List.range' 1 rows.length) :
    rows.find? (fun row => rank row == rows.length) = rows.getLast? := by
  rcases List.eq_nil_or_concat' rows with rfl | ⟨front, last, rfl⟩
  · rfl
  · have distinct : ((front ++ [last]).map rank).Nodup := numbered ▸ List.nodup_range'
    have top := rank_getLast numbered (List.getLast?_concat (a := last))
    rw [← top, find_of_mem distinct (by simp), List.getLast?_concat]

theorem numbered_append {row : α} (numbered : rows.map rank = List.range' 1 rows.length)
    (next : rank row = rows.length + 1) : (rows ++ [row]).map rank = List.range' 1 (rows ++ [row]).length := by
  simp only [List.map_append, numbered, List.map_cons, List.map_nil, next, List.length_append, List.length_cons,
    List.length_nil, List.range'_concat, Nat.one_mul, Nat.zero_add]
  rw [Nat.add_comm]

/-- `WHERE rank > ?` of numbered rows leaves the later ones. -/
theorem drop_of_numbered (numbered : rows.map rank = List.range' 1 rows.length) (k : Nat) :
    (rows.filter fun row => decide (k < rank row)) = rows.drop k := by
  induction rows using List.reverseRecOn with
  | nil => simp
  | append_singleton front last ih =>
    obtain ⟨earlier, top⟩ := numbered_concat numbered
    rw [List.filter_append, ih earlier, List.filter_singleton, top]
    by_cases behind : k ≤ front.length
    · rw [List.drop_append_of_le_length behind]
      simp [Nat.lt_succ_of_le behind]
    · have beyond : front.length + 1 ≤ k := Nat.lt_of_not_le behind
      have none : ¬ k < front.length + 1 := Nat.not_lt.mpr beyond
      rw [List.drop_eq_nil_of_le (by omega), List.drop_eq_nil_of_le (by simpa using beyond)]
      simp [none]

theorem pairwise_of_numbered (numbered : rows.map rank = List.range' 1 rows.length) :
    rows.Pairwise fun first second => rank first ≤ rank second := by
  have ordered : (rows.map rank).Pairwise (· ≤ ·) := by
    rw [numbered]
    exact List.pairwise_le_range'
  exact List.pairwise_map.mp ordered

theorem rank_getElem (numbered : rows.map rank = List.range' 1 rows.length) {i : Nat} (inside : i < rows.length) :
    rank rows[i] = i + 1 := by
  have same : (rows.map rank)[i]? = some (i + 1) := by
    rw [numbered, List.getElem?_range' inside, Nat.one_mul, Nat.add_comm]
  simpa [inside] using same

end Numbered

section Related

variable {β : Type*} {R : α → β → Prop} {rows : List α} {images : List β}

/-- Two tables whose rows correspond are updated alike by corresponding updates. -/
theorem forall₂_update {chosen : α → Bool} {change : α → α} {picked : β → Bool} {alter : β → β}
    (related : List.Forall₂ R rows images) (same : ∀ row image, R row image → chosen row = picked image)
    (kept : ∀ row image, R row image → R (change row) (alter image)) :
    List.Forall₂ R (update chosen change rows) (update picked alter images) := by
  rw [update, update, List.forall₂_map_left_iff, List.forall₂_map_right_iff]
  apply related.imp
  intro row image here
  rw [same row image here]
  split
  · exact kept row image here
  · exact here

theorem find_related {wanted : α → Bool} {sought : β → Bool} (related : List.Forall₂ R rows images)
    (same : ∀ row image, R row image → wanted row = sought image) :
    Option.Rel R (rows.find? wanted) (images.find? sought) := by
  induction related with
  | nil => exact .none
  | cons here _ ih =>
    rw [List.find?_cons, List.find?_cons, same _ _ here]
    split
    · exact .some here
    · exact ih

theorem countP_related {wanted : α → Bool} {sought : β → Bool} (related : List.Forall₂ R rows images)
    (same : ∀ row image, R row image → wanted row = sought image) : rows.countP wanted = images.countP sought := by
  induction related with
  | nil => rfl
  | cons here _ ih => rw [List.countP_cons, List.countP_cons, ih, same _ _ here]

end Related

end OpenTulpa.Library.Rows
