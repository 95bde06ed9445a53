import Mathlib.Data.List.Induction
import OpenTulpa.Library.Run

/-! What is held along a run: it is acquired by one operation and kept until another one ends it. -/

namespace OpenTulpa.Library.Tenure

variable {σ ι α : Type*} {step : σ → ι → σ} {Holds : σ → α → Prop} {Gives Ends : σ → ι → α → Prop}

/-- The last of the run's operations that gave it is followed by none that ends it. -/
def Tenured (step : σ → ι → σ) (Gives Ends : σ → ι → α → Prop) (start : σ) (ops : List ι) (x : α) : Prop :=
  ∃ before op after, ops = before ++ op :: after ∧ Gives (Run.exec step start before) op x ∧
    ∀ middle next rest, after = middle ++ next :: rest →
      ¬ Ends (Run.exec step start (before ++ op :: middle)) next x

/-- Induction on the run, from its last operation. -/
theorem holds_iff (steps : ∀ s op x, Holds (step s op) x ↔ Gives s op x ∨ (Holds s x ∧ ¬ Ends s op x))
    {start : σ} (nothing : ∀ x, ¬ Holds start x) (ops : List ι) (x : α) :
    Holds (Run.exec step start ops) x ↔ Tenured step Gives Ends start ops x := by
  induction ops using List.reverseRecOn with
  | nil =>
    refine ⟨fun held => absurd held (nothing x), ?_⟩
    rintro ⟨before, op, after, split, _⟩
    simp at split
  | append_singleton ops last ih =>
    rw [Run.exec_append, Run.exec_cons, Run.exec_nil, steps]
    constructor
    · rintro (given | ⟨held, kept⟩)
      · refine ⟨ops, last, [], rfl, given, fun middle next rest impossible => ?_⟩
        simp at impossible
      · obtain ⟨before, op, after, rfl, given, stays⟩ := ih.mp held
        refine ⟨before, op, after ++ [last], by simp, given, fun middle next rest split => ?_⟩
        rcases List.eq_nil_or_concat' rest with rfl | ⟨front, final, rfl⟩
        · obtain ⟨rfl, same⟩ := List.append_inj' split rfl
          cases same
          exact kept
        · rw [← List.cons_append, ← List.append_assoc] at split
          obtain ⟨same, _⟩ := List.append_inj' split rfl
          exact stays middle next front same
    · rintro ⟨before, op, after, split, given, stays⟩
      rcases List.eq_nil_or_concat' after with rfl | ⟨front, final, rfl⟩
      · obtain ⟨rfl, same⟩ := List.append_inj' split rfl
        cases same
        exact Or.inl given
      · rw [← List.cons_append, ← List.append_assoc] at split
        obtain ⟨rfl, same⟩ := List.append_inj' split rfl
        cases same
        refine Or.inr ⟨ih.mpr ⟨before, op, front, rfl, given, fun middle next rest cut => ?_⟩, ?_⟩
        · exact stays middle next (rest ++ [last]) (by rw [cut]; simp)
        · exact stays front last [] (by simp)

end OpenTulpa.Library.Tenure
