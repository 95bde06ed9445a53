import Mathlib.Data.List.Infix
import Mathlib.Data.List.Flatten

/-! Replacement of words by a marker, one word after the other. The cells of a text may say whether they were put in, so
that a word which still stands there untouched can be told from one that a marker has a part in. -/

namespace OpenTulpa.Library.Masking

section Replacement

variable {α β : Type*} [DecidableEq β] (read : α → β)

/-- The leftmost occurrences of a word replaced; a number of cells is still to be passed. -/
@[grind =] def replaceFrom (old : List β) (new : List α) : Nat → List α → List α
  | _, [] => []
  | skip + 1, _ :: rest => replaceFrom old new skip rest
  | 0, cell :: rest =>
    if old.isPrefixOf ((cell :: rest).map read) then new ++ replaceFrom old new (old.length - 1) rest
    else cell :: replaceFrom old new 0 rest

/-- `replace`; the empty word is left alone. -/
def replace (old : List β) (new text : List α) : List α := if old.isEmpty then text else replaceFrom read old new 0 text

def mask (words : List (List β)) (marker text : List α) : List α :=
  words.foldl (fun text word => replace read word marker text) text

variable {read}

/-- A replacement reads the cells and nothing else of them. -/
theorem map_replaceFrom {γ : Type*} {other : γ → β} {f : α → γ} (same : ∀ cell, other (f cell) = read cell) (old : List β)
    (new : List α) (skip : Nat) (text : List α) :
    (replaceFrom read old new skip text).map f = replaceFrom other old (new.map f) skip (text.map f) := by
  have reads (cells : List α) : (cells.map f).map other = cells.map read := by
    rw [List.map_map]
    exact List.map_congr_left fun cell _ => same cell
  induction text generalizing skip with
  | nil => cases skip <;> rfl
  | cons cell rest ih =>
    cases skip with
    | succ skip => exact ih skip
    | zero =>
      simp only [replaceFrom, List.map_cons, same, reads]
      split
      · rw [List.map_append, ih]
      · rw [List.map_cons, ih]

theorem map_replace {γ : Type*} {other : γ → β} {f : α → γ} (same : ∀ cell, other (f cell) = read cell) (old : List β)
    (new text : List α) : (replace read old new text).map f = replace other old (new.map f) (text.map f) := by
  unfold replace
  split
  · rfl
  · exact map_replaceFrom same old new 0 text

theorem map_mask {γ : Type*} {other : γ → β} {f : α → γ} (same : ∀ cell, other (f cell) = read cell)
    (words : List (List β)) (marker text : List α) :
    (mask read words marker text).map f = mask other words (marker.map f) (text.map f) := by
  induction words generalizing text with
  | nil => rfl
  | cons word words ih =>
    exact (ih _).trans (congrArg (mask other words (marker.map f)) (map_replace same word marker text))

end Replacement

section Marked

variable {β : Type*} [DecidableEq β]

def kept (text : List β) : List (β × Bool) := text.map fun x => (x, false)

def put (marker : List β) : List (β × Bool) := marker.map fun x => (x, true)

/-- The word stands in the text without a cell that was put in. -/
def Shown (word : List β) (cells : List (β × Bool)) : Prop := kept word <:+: cells

instance decidableShown (word : List β) (cells : List (β × Bool)) : Decidable (Shown word cells) :=
  inferInstanceAs (Decidable (kept word <:+: cells))

variable {old marker word : List β}

omit [DecidableEq β] in
theorem map_kept (text : List β) : (kept text).map Prod.fst = text := by
  rw [kept, List.map_map]
  exact List.map_id text

omit [DecidableEq β] in
theorem shown_kept {word text : List β} : Shown word (kept text) ↔ word <:+: text := by
  constructor
  · intro shown
    have read := shown.map Prod.fst
    rwa [map_kept, map_kept] at read
  · exact fun inside => inside.map _

omit [DecidableEq β] in
theorem kept_prefix_put (filled : marker ≠ []) {rest : List (β × Bool)} (stands : kept word <+: put marker ++ rest) :
    word = [] := by
  obtain ⟨x, marker, rfl⟩ := List.exists_cons_of_ne_nil filled
  cases word with
  | nil => rfl
  | cons y word => exact absurd (congrArg Prod.snd (List.cons_prefix_cons.mp stands).1) (by simp)

omit [DecidableEq β] in
theorem kept_infix_put {rest : List (β × Bool)} (stands : kept word <:+: put marker ++ rest) : kept word <:+: rest := by
  induction marker with
  | nil => exact stands
  | cons x marker ih =>
    rcases List.infix_cons_iff.mp stands with starts | later
    · have empty : word = [] := kept_prefix_put (List.cons_ne_nil x marker) starts
      rw [empty]
      exact List.nil_infix
    · exact ih later

/-- What is left standing at the start of the result stood there before. -/
theorem kept_prefix_replaceFrom (filled : marker ≠ []) {skip : Nat} {cells : List (β × Bool)}
    (stands : kept word <+: replaceFrom Prod.fst old (put marker) skip cells) : kept word <+: cells.drop skip := by
  induction cells generalizing skip word with
  | nil =>
    cases skip <;> exact stands
  | cons cell rest ih =>
    cases skip with
    | succ skip => exact ih stands
    | zero =>
      rw [replaceFrom] at stands
      split at stands
      · rw [kept_prefix_put filled stands]
        exact List.nil_prefix
      · cases word with
        | nil => exact List.nil_prefix
        | cons y word =>
          obtain ⟨same, later⟩ := List.cons_prefix_cons.mp stands
          exact List.cons_prefix_cons.mpr ⟨same, ih later⟩

/-- No word comes to stand in the result that did not stand in the text. -/
theorem shown_of_replaceFrom (filled : marker ≠ []) {skip : Nat} {cells : List (β × Bool)}
    (shown : Shown word (replaceFrom Prod.fst old (put marker) skip cells)) : Shown word (cells.drop skip) := by
  induction cells generalizing skip with
  | nil => cases skip <;> exact shown
  | cons cell rest ih =>
    cases skip with
    | succ skip => exact ih shown
    | zero =>
      rw [replaceFrom] at shown
      split at shown
      · have later := ih (kept_infix_put shown)
        exact (later.trans (List.drop_suffix _ _).isInfix).trans (List.infix_cons_iff.mpr (Or.inr List.infix_rfl))
      · rename_i apart
        rcases List.infix_cons_iff.mp shown with starts | inside
        · have whole : kept word <+: replaceFrom Prod.fst old (put marker) 0 (cell :: rest) := by
            rw [replaceFrom, if_neg apart]
            exact starts
          exact (kept_prefix_replaceFrom filled whole).isInfix
        · exact List.infix_cons_iff.mpr (Or.inr (ih inside))

/-- A word that was replaced is not left standing. -/
theorem not_shown_replaceFrom (word_ : old ≠ []) (filled : marker ≠ []) (skip : Nat) (cells : List (β × Bool)) :
    ¬ Shown old (replaceFrom Prod.fst old (put marker) skip cells) := by
  induction cells generalizing skip with
  | nil =>
    intro shown
    have none : kept old = [] := by
      cases skip <;> exact List.eq_nil_of_infix_nil shown
    exact word_ (List.map_eq_nil_iff.mp none)
  | cons cell rest ih =>
    cases skip with
    | succ skip => exact ih skip
    | zero =>
      intro shown
      rw [replaceFrom] at shown
      split at shown
      · exact ih _ (kept_infix_put shown)
      · rename_i apart
        rcases List.infix_cons_iff.mp shown with starts | inside
        · have whole : kept old <+: replaceFrom Prod.fst old (put marker) 0 (cell :: rest) := by
            rw [replaceFrom, if_neg apart]
            exact starts
          have read := (kept_prefix_replaceFrom filled whole).map Prod.fst
          rw [map_kept, List.drop_zero] at read
          exact apart (List.isPrefixOf_iff_prefix.mpr read)
        · exact ih 0 inside

theorem shown_of_replace (filled : marker ≠ []) {cells : List (β × Bool)}
    (shown : Shown word (replace Prod.fst old (put marker) cells)) : Shown word cells := by
  unfold replace at shown
  split at shown
  · exact shown
  · exact shown_of_replaceFrom filled shown

theorem not_shown_replace (some_ : old ≠ []) (filled : marker ≠ []) (cells : List (β × Bool)) :
    ¬ Shown old (replace Prod.fst old (put marker) cells) := by
  unfold replace
  rw [if_neg (by simpa using some_)]
  exact not_shown_replaceFrom some_ filled 0 cells

/-- No word of the list is left standing. -/
theorem not_shown_mask (filled : marker ≠ []) {words : List (List β)} (member : word ∈ words) (some_ : word ≠ [])
    (cells : List (β × Bool)) : ¬ Shown word (mask Prod.fst words (put marker) cells) := by
  have stays (words : List (List β)) (cells : List (β × Bool)) (hidden : ¬ Shown word cells) :
      ¬ Shown word (mask Prod.fst words (put marker) cells) := by
    induction words generalizing cells with
    | nil => exact hidden
    | cons other words ih =>
      exact ih _ fun shown => hidden (shown_of_replace filled shown)
  induction words generalizing cells with
  | nil => cases member
  | cons other words ih =>
    rcases List.mem_cons.mp member with rfl | later
    · exact stays words _ (not_shown_replace some_ filled cells)
    · exact ih later _

/-- The cells that were not put in. -/
def remaining (cells : List (β × Bool)) : List β := (cells.filter fun cell => !cell.2).map Prod.fst

omit [DecidableEq β] in
theorem remaining_append (first second : List (β × Bool)) : remaining (first ++ second) = remaining first ++ remaining second := by
  rw [remaining, List.filter_append, List.map_append, remaining, remaining]

omit [DecidableEq β] in
theorem remaining_put (marker : List β) : remaining (put marker) = [] := by
  simp [remaining, put, List.filter_map]

omit [DecidableEq β] in
theorem remaining_kept (text : List β) : remaining (kept text) = text := by
  simp [remaining, kept, List.filter_map, Function.comp_def]

/-- A replacement takes cells away and moves none of the others. -/
theorem remaining_replaceFrom (old marker : List β) (skip : Nat) (cells : List (β × Bool)) :
    (remaining (replaceFrom Prod.fst old (put marker) skip cells)).Sublist (remaining cells) := by
  induction cells generalizing skip with
  | nil => cases skip <;> exact List.Sublist.refl _
  | cons cell rest ih =>
    have later : (remaining rest).Sublist (remaining (cell :: rest)) := by
      rw [← List.singleton_append, remaining_append]
      exact List.sublist_append_right _ _
    cases skip with
    | succ skip => exact (ih skip).trans later
    | zero =>
      rw [replaceFrom]
      split
      · rw [remaining_append, remaining_put, List.nil_append]
        exact (ih _).trans later
      · rw [← List.singleton_append, remaining_append, ← List.singleton_append (l := rest), remaining_append]
        exact (List.append_sublist_append_left _).mpr (ih 0)

theorem remaining_mask (words : List (List β)) (marker : List β) (cells : List (β × Bool)) :
    (remaining (mask Prod.fst words (put marker) cells)).Sublist (remaining cells) := by
  induction words generalizing cells with
  | nil => exact List.Sublist.refl _
  | cons word words ih =>
    have once : (remaining (replace Prod.fst word (put marker) cells)).Sublist (remaining cells) := by
      unfold replace
      split
      · exact List.Sublist.refl _
      · exact remaining_replaceFrom word marker 0 cells
    exact (ih _).trans once

omit [DecidableEq β] in
/-- Where a word that is not left standing occurs, it overlaps something that was put in. -/
theorem overlaps_of_not_shown {cells : List (β × Bool)} (hidden : ¬ Shown word cells) {before after : List β}
    (occurs : cells.map Prod.fst = before ++ word ++ after) :
    ∃ cell ∈ (cells.drop before.length).take word.length, cell.2 = true := by
  by_contra untouched
  have flags : ∀ cell ∈ (cells.drop before.length).take word.length, cell.2 = false := fun cell member =>
    Bool.eq_false_iff.mpr fun put => untouched ⟨cell, member, put⟩
  have reads : ((cells.drop before.length).take word.length).map Prod.fst = word := by
    rw [List.map_take, List.map_drop, occurs, List.append_assoc, List.drop_left, List.take_left]
  have stands : kept word = (cells.drop before.length).take word.length := by
    conv_lhs => rw [← reads]
    rw [kept, List.map_map]
    conv_rhs => rw [← List.map_id ((cells.drop before.length).take word.length)]
    exact List.map_congr_left fun cell member => Prod.ext rfl (flags cell member).symm
  refine hidden ?_
  rw [Shown, stands]
  exact (List.take_prefix _ _).isInfix.trans (List.drop_suffix _ _).isInfix

end Marked

end OpenTulpa.Library.Masking
