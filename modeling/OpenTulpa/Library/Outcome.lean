import Mathlib.Data.List.Basic

/-! Fallible computations: how a sequence of them unfolds, and the state a transaction leaves. -/

namespace OpenTulpa.Library.Outcome

variable {ε σ α β : Type}

@[simp] theorem ok_bind (value : α) (next : α → Except ε β) : (Except.ok value >>= next) = next value := rfl

@[simp] theorem error_bind (error : ε) (next : α → Except ε β) :
    (Except.error error >>= next) = .error error := rfl

@[simp] theorem pure_eq_ok (value : α) : (pure value : Except ε α) = .ok value := rfl

theorem bind_eq_ok {first : Except ε α} {next : α → Except ε β} {result : β}
    (done : (first >>= next) = .ok result) : ∃ value, first = .ok value ∧ next value = .ok result := by
  cases first with
  | error error => cases done
  | ok value => exact ⟨value, rfl, done⟩

/-- What a transaction leaves: its writes, or nothing of them when it raised. -/
def committed (state : σ) : Except ε (σ × α) → σ
  | .ok (stored, _) => stored
  | .error _ => state

@[simp] theorem committed_ok (state stored : σ) (value : α) :
    committed state (.ok (stored, value) : Except ε (σ × α)) = stored := rfl

@[simp] theorem committed_error (state : σ) (error : ε) :
    committed state (.error error : Except ε (σ × α)) = state := rfl

end OpenTulpa.Library.Outcome
