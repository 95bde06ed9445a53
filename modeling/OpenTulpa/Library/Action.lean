import Mathlib.Order.Defs.Unbundled

/-! Stateful actions that may raise. Unlike a transaction, an action keeps what it did to the
state when it raises, the way a handler finds it. -/

namespace OpenTulpa.Library

/-- From a state to an outcome and the state left behind. -/
def Action (σ ε α : Type) : Type := σ → Except ε α × σ

namespace Action

variable {σ ε α β : Type}

def run (action : Action σ ε α) (state : σ) : Except ε α × σ := action state

instance : Monad (Action σ ε) where
  pure value := fun state => (.ok value, state)
  bind first next := fun state =>
    match first state with
    | (.ok value, after) => next value after
    | (.error error, after) => (.error error, after)

def raise (error : ε) : Action σ ε α := fun state => (.error error, state)

def read : Action σ ε σ := fun state => (.ok state, state)

def modify (change : σ → σ) : Action σ ε Unit := fun state => (.ok (), change state)

/-- A computation on the state that changes nothing and may raise. -/
def lift (compute : σ → Except ε α) : Action σ ε α := fun state => (compute state, state)

/-- `try: ... except: handler`. -/
def handle (action : Action σ ε α) (handler : ε → Action σ ε α) : Action σ ε α := fun state =>
  match action state with
  | (.ok value, after) => (.ok value, after)
  | (.error error, after) => handler error after

/-- Runs the action and hands its outcome on. -/
def attempt (action : Action σ ε α) : Action σ ε (Except ε α) := fun state =>
  (.ok (action state).1, (action state).2)

@[simp] theorem run_pure (value : α) (state : σ) : (pure value : Action σ ε α).run state = (.ok value, state) := rfl

@[simp] theorem run_raise (error : ε) (state : σ) :
    (raise error : Action σ ε α).run state = (.error error, state) := rfl

@[simp] theorem run_read (state : σ) : (read : Action σ ε σ).run state = (.ok state, state) := rfl

@[simp] theorem run_modify (change : σ → σ) (state : σ) :
    (modify change : Action σ ε Unit).run state = (.ok (), change state) := rfl

@[simp] theorem run_lift (compute : σ → Except ε α) (state : σ) :
    (lift compute).run state = (compute state, state) := rfl

theorem run_bind (first : Action σ ε α) (next : α → Action σ ε β) (state : σ) :
    (first >>= next).run state =
      match first.run state with
      | (.ok value, after) => (next value).run after
      | (.error error, after) => (.error error, after) := rfl

theorem bind_assoc {γ : Type} (first : Action σ ε α) (second : α → Action σ ε β) (third : β → Action σ ε γ) :
    first >>= second >>= third = first >>= fun value => second value >>= third := by
  funext state
  change ((first >>= second >>= third).run state) = ((first >>= fun value => second value >>= third).run state)
  rw [run_bind, run_bind, run_bind]
  rcases first.run state with ⟨outcome, after⟩
  cases outcome <;> rfl

theorem run_handle (action : Action σ ε α) (handler : ε → Action σ ε α) (state : σ) :
    (action.handle handler).run state =
      match action.run state with
      | (.ok value, after) => (.ok value, after)
      | (.error error, after) => (handler error).run after := rfl

/-- What holds of the outcome and the state left behind. -/
def Ends (action : Action σ ε α) (state : σ) (Post : Except ε α → σ → Prop) : Prop :=
  Post (action.run state).1 (action.run state).2

theorem ends_pure {value : α} {state : σ} {Post : Except ε α → σ → Prop} (post : Post (.ok value) state) :
    Ends (pure value) state Post := post

theorem ends_raise {error : ε} {state : σ} {Post : Except ε α → σ → Prop} (post : Post (.error error) state) :
    Ends (raise error) state Post := post

theorem ends_of_run {action : Action σ ε α} {state after : σ} {outcome : Except ε α} {Post : Except ε α → σ → Prop}
    (ran : action.run state = (outcome, after)) (post : Post outcome after) : Ends action state Post := by
  unfold Ends
  rw [ran]
  exact post

theorem Ends.mono {action : Action σ ε α} {state : σ} {Post Weaker : Except ε α → σ → Prop}
    (ends : Ends action state Post) (weaken : ∀ outcome after, Post outcome after → Weaker outcome after) :
    Ends action state Weaker := weaken _ _ ends

theorem Ends.and {action : Action σ ε α} {state : σ} {First Second : Except ε α → σ → Prop}
    (left : Ends action state First) (right : Ends action state Second) :
    Ends action state fun outcome after => First outcome after ∧ Second outcome after := ⟨left, right⟩

/-- A sequence ends as its first part when that raises, and as its second part otherwise. -/
theorem ends_bind {first : Action σ ε α} {next : α → Action σ ε β} {state : σ} {Post : Except ε β → σ → Prop}
    (ends : Ends first state fun outcome after =>
      match outcome with
      | .ok value => Ends (next value) after Post
      | .error error => Post (.error error) after) : Ends (first >>= next) state Post := by
  unfold Ends at ends ⊢
  rw [run_bind]
  rcases done : first.run state with ⟨outcome, after⟩
  rw [done] at ends
  cases outcome with
  | ok value => exact ends
  | error error => exact ends

theorem ends_handle {action : Action σ ε α} {handler : ε → Action σ ε α} {state : σ}
    {Post : Except ε α → σ → Prop}
    (ends : Ends action state fun outcome after =>
      match outcome with
      | .ok value => Post (.ok value) after
      | .error error => Ends (handler error) after Post) : Ends (action.handle handler) state Post := by
  unfold Ends at ends ⊢
  rw [run_handle]
  rcases done : action.run state with ⟨outcome, after⟩
  rw [done] at ends
  cases outcome with
  | ok value => exact ends
  | error error => exact ends

theorem ends_lift {compute : σ → Except ε α} {state : σ} {Post : Except ε α → σ → Prop}
    (post : Post (compute state) state) : Ends (lift compute) state Post := post

theorem ends_modify {change : σ → σ} {state : σ} {Post : Except ε Unit → σ → Prop}
    (post : Post (.ok ()) (change state)) : Ends (modify change) state Post := post

/-- Binding a computation that changes nothing: it raises here, or its value goes on. -/
theorem ends_bind_lift {compute : σ → Except ε α} {next : α → Action σ ε β} {state : σ}
    {Post : Except ε β → σ → Prop} (raised : ∀ error, compute state = .error error → Post (.error error) state)
    (goes : ∀ value, compute state = .ok value → Ends (next value) state Post) :
    Ends (lift compute >>= next) state Post := by
  apply ends_bind
  apply ends_lift
  cases done : compute state with
  | ok value => exact goes value done
  | error error => exact raised error done

theorem ends_bind_read {next : σ → Action σ ε β} {state : σ} {Post : Except ε β → σ → Prop}
    (ends : Ends (next state) state Post) : Ends (read >>= next) state Post := ends

theorem ends_bind_modify {change : σ → σ} {next : Unit → Action σ ε β} {state : σ}
    {Post : Except ε β → σ → Prop} (ends : Ends (next ()) (change state) Post) :
    Ends (modify change >>= next) state Post := ends

theorem ends_bind_pure {value : α} {next : α → Action σ ε β} {state : σ} {Post : Except ε β → σ → Prop}
    (ends : Ends (next value) state Post) : Ends (pure value >>= next) state Post := ends

/-- Binding an attempt: the rest sees the outcome, and the state it left. -/
theorem ends_bind_attempt {action : Action σ ε α} {next : Except ε α → Action σ ε β} {state : σ}
    {Post : Except ε β → σ → Prop} (ends : Ends action state fun outcome after => Ends (next outcome) after Post) :
    Ends (attempt action >>= next) state Post := ends

/-- An action on a component of the state. -/
def zoom {τ : Type} (get : τ → σ) (put : σ → τ → τ) (action : Action σ ε α) : Action τ ε α := fun state =>
  ((action (get state)).1, put (action (get state)).2 state)

@[simp] theorem run_zoom {τ : Type} (get : τ → σ) (put : σ → τ → τ) (action : Action σ ε α) (state : τ) :
    (zoom get put action).run state = ((action.run (get state)).1, put (action.run (get state)).2 state) := rfl

theorem ends_zoom {τ : Type} {get : τ → σ} {put : σ → τ → τ} {action : Action σ ε α} {state : τ}
    {Post : Except ε α → τ → Prop}
    (ends : Ends action (get state) fun outcome after => Post outcome (put after state)) :
    Ends (zoom get put action) state Post := ends

section Respects

variable {R : σ → σ → Prop}

/-- Whatever the outcome, the state left behind is related to the one before. -/
def Respects (R : σ → σ → Prop) (action : Action σ ε α) : Prop := ∀ state, R state (action.run state).2

theorem respects_modify {change : σ → σ} (related : ∀ state, R state (change state)) :
    Respects R (modify change : Action σ ε Unit) := related

theorem respects_pure [Std.Refl R] (value : α) : Respects R (pure value : Action σ ε α) := fun state =>
  Std.Refl.refl state

theorem respects_raise [Std.Refl R] (error : ε) : Respects R (raise error : Action σ ε α) := fun state =>
  Std.Refl.refl state

theorem respects_lift [Std.Refl R] (compute : σ → Except ε α) : Respects R (lift compute) := fun state =>
  Std.Refl.refl state

variable [IsTrans σ R]

theorem respects_bind {first : Action σ ε α} {next : α → Action σ ε β} (head : Respects R first)
    (tail : ∀ state value, (first.run state).1 = .ok value → Respects R (next value)) :
    Respects R (first >>= next) := by
  intro state
  rw [run_bind]
  have before := head state
  have after := tail state
  rcases done : first.run state with ⟨outcome, middle⟩
  rw [done] at before after
  cases outcome with
  | ok value => exact IsTrans.trans _ _ _ before (after value rfl middle)
  | error error => exact before

theorem respects_bind_lift [Std.Refl R] {compute : σ → Except ε α} {next : α → Action σ ε β}
    (tail : ∀ state value, compute state = .ok value → Respects R (next value)) :
    Respects R (lift compute >>= next) :=
  respects_bind (respects_lift compute) tail

theorem respects_handle {action : Action σ ε α} {handler : ε → Action σ ε α} (head : Respects R action)
    (tail : ∀ error, Respects R (handler error)) : Respects R (action.handle handler) := by
  intro state
  rw [run_handle]
  have before := head state
  rcases done : action.run state with ⟨outcome, middle⟩
  rw [done] at before
  cases outcome with
  | ok value => exact before
  | error error => exact IsTrans.trans _ _ _ before (tail error middle)

end Respects

section Yields

variable {P : α → Prop}

/-- Every value the action returns has the property. -/
def Yields (P : α → Prop) (action : Action σ ε α) : Prop := ∀ state value, (action.run state).1 = .ok value → P value

theorem yields_pure {value : α} (holds : P value) : Yields P (pure value : Action σ ε α) := by
  rintro _ _ ⟨rfl⟩
  exact holds

theorem yields_raise (error : ε) : Yields P (raise error : Action σ ε α) := by
  rintro _ _ ⟨⟩

theorem yields_bind {first : Action σ ε β} {next : β → Action σ ε α}
    (tail : ∀ state value, (first.run state).1 = .ok value → Yields P (next value)) :
    Yields P (first >>= next) := by
  intro state value done
  rw [run_bind] at done
  have after := tail state
  rcases ran : first.run state with ⟨outcome, middle⟩
  rw [ran] at done after
  cases outcome with
  | ok found => exact after found rfl middle value done
  | error error => cases done

theorem yields_handle {action : Action σ ε α} {handler : ε → Action σ ε α} (head : Yields P action)
    (tail : ∀ error, Yields P (handler error)) : Yields P (action.handle handler) := by
  intro state value done
  rw [run_handle] at done
  have before := head state
  rcases ran : action.run state with ⟨outcome, middle⟩
  rw [ran] at done before
  cases outcome with
  | ok found => exact before value done
  | error error => exact tail error middle value done

end Yields

end Action

end OpenTulpa.Library
