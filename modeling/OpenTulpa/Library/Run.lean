import Mathlib.Data.List.Basic

/-! Runs of a total step function. An operation that raises leaves the state as it
was, so a run is the fold of the step function over the operations performed. -/

namespace OpenTulpa.Library.Run

variable {σ ι : Type*}

def exec (step : σ → ι → σ) (start : σ) (ops : List ι) : σ :=
  ops.foldl step start

@[simp] theorem exec_nil (step : σ → ι → σ) (start : σ) : exec step start [] = start := rfl

@[simp] theorem exec_cons (step : σ → ι → σ) (start : σ) (op : ι) (ops : List ι) :
    exec step start (op :: ops) = exec step (step start op) ops := rfl

theorem exec_append (step : σ → ι → σ) (start : σ) (first second : List ι) :
    exec step start (first ++ second) = exec step (exec step start first) second :=
  List.foldl_append

/-- Every operation of the run meets `Ok` in the state it is applied to. -/
def Guarded (step : σ → ι → σ) (Ok : σ → ι → Prop) : σ → List ι → Prop
  | _, [] => True
  | start, op :: ops => Ok start op ∧ Guarded step Ok (step start op) ops

instance decidableGuarded (step : σ → ι → σ) (Ok : σ → ι → Prop) [∀ s op, Decidable (Ok s op)] :
    ∀ start ops, Decidable (Guarded step Ok start ops)
  | _, [] => isTrue trivial
  | start, op :: ops =>
      haveI := decidableGuarded step Ok (step start op) ops
      inferInstanceAs (Decidable (Ok start op ∧ Guarded step Ok (step start op) ops))

theorem Guarded.take {step : σ → ι → σ} {Ok : σ → ι → Prop} {start : σ} {ops : List ι}
    (guarded : Guarded step Ok start ops) (n : Nat) : Guarded step Ok start (ops.take n) := by
  induction ops generalizing start n with
  | nil => simpa using guarded
  | cons op ops ih =>
    cases n with
    | zero => trivial
    | succ n => exact ⟨guarded.1, ih guarded.2 n⟩

theorem Guarded.of_forall {step : σ → ι → σ} {Ok : σ → ι → Prop} (ok : ∀ s op, Ok s op) :
    ∀ start ops, Guarded step Ok start ops
  | _, [] => trivial
  | start, op :: ops => ⟨ok start op, Guarded.of_forall ok (step start op) ops⟩

theorem Guarded.of_forall_mem {step : σ → ι → σ} {Ok : ι → Prop} {ops : List ι} (ok : ∀ op ∈ ops, Ok op) (start : σ) :
    Guarded step (fun _ op => Ok op) start ops := by
  induction ops generalizing start with
  | nil => trivial
  | cons op ops ih =>
    exact ⟨ok op List.mem_cons_self, ih (fun other member => ok other (List.mem_cons_of_mem _ member)) _⟩

theorem Guarded.and {step : σ → ι → σ} {First Second : σ → ι → Prop} {start : σ} {ops : List ι}
    (left : Guarded step First start ops) (right : Guarded step Second start ops) :
    Guarded step (fun s op => First s op ∧ Second s op) start ops := by
  induction ops generalizing start with
  | nil => trivial
  | cons op ops ih => exact ⟨⟨left.1, right.1⟩, ih left.2 right.2⟩

theorem Guarded.invariant {step : σ → ι → σ} {Ok : σ → ι → Prop} {Inv : σ → Prop}
    (preserved : ∀ s op, Inv s → Ok s op → Inv (step s op)) {start : σ} {ops : List ι}
    (guarded : Guarded step Ok start ops) (initial : Inv start) : Inv (exec step start ops) := by
  induction ops generalizing start with
  | nil => exact initial
  | cons op ops ih => exact ih guarded.2 (preserved start op initial guarded.1)

/-- A guard that another one implies where the invariant holds is met by the runs of the other. -/
theorem Guarded.weaken {step : σ → ι → σ} {First Second : σ → ι → Prop} {Inv : σ → Prop}
    (implied : ∀ s op, Inv s → First s op → Second s op) (preserved : ∀ s op, Inv s → First s op → Inv (step s op))
    {start : σ} {ops : List ι} (guarded : Guarded step First start ops) (initial : Inv start) :
    Guarded step Second start ops := by
  induction ops generalizing start with
  | nil => trivial
  | cons op ops ih =>
    exact ⟨implied start op initial guarded.1, ih guarded.2 (preserved start op initial guarded.1)⟩

/-- Two guards that agree where the invariant holds are met by the same runs. -/
theorem guarded_iff {step : σ → ι → σ} {First Second : σ → ι → Prop} {Inv : σ → Prop}
    (agree : ∀ s op, Inv s → (First s op ↔ Second s op))
    (preserved : ∀ s op, Inv s → Second s op → Inv (step s op)) {start : σ} (initial : Inv start) (ops : List ι) :
    Guarded step First start ops ↔ Guarded step Second start ops := by
  induction ops generalizing start with
  | nil => exact Iff.rfl
  | cons op ops ih =>
    constructor
    · rintro ⟨first, rest⟩
      have second := (agree start op initial).mp first
      exact ⟨second, (ih (preserved start op initial second)).mp rest⟩
    · rintro ⟨second, rest⟩
      exact ⟨(agree start op initial).mpr second, (ih (preserved start op initial second)).mpr rest⟩

/-- Each operation of a guarded run finds the invariant and its own guard. -/
theorem Guarded.reached {step : σ → ι → σ} {Ok : σ → ι → Prop} {Inv : σ → Prop}
    (preserved : ∀ s op, Inv s → Ok s op → Inv (step s op)) {start : σ} {ops : List ι}
    (guarded : Guarded step Ok start ops) (initial : Inv start) {n : Nat} {op : ι} (now : ops[n]? = some op) :
    Inv (exec step start (ops.take n)) ∧ Ok (exec step start (ops.take n)) op := by
  induction ops generalizing start n with
  | nil => simp at now
  | cons first ops ih =>
    cases n with
    | zero =>
      obtain rfl : first = op := by simpa using now
      exact ⟨initial, guarded.1⟩
    | succ n => exact ih guarded.2 (preserved start first initial guarded.1) (by simpa using now)

theorem exec_take_succ (step : σ → ι → σ) (start : σ) {ops : List ι} {n : Nat} {op : ι}
    (now : ops[n]? = some op) : exec step start (ops.take (n + 1)) = step (exec step start (ops.take n)) op := by
  rw [List.take_add_one, now, exec_append]
  rfl

/-- The property holds at the start and after every operation. -/
def Always (step : σ → ι → σ) (P : σ → Prop) : σ → List ι → Prop
  | start, [] => P start
  | start, op :: ops => P start ∧ Always step P (step start op) ops

theorem Always.take {step : σ → ι → σ} {P : σ → Prop} {start : σ} {ops : List ι} (always : Always step P start ops)
    (n : Nat) : P (exec step start (ops.take n)) := by
  induction ops generalizing start n with
  | nil =>
    rw [List.take_nil]
    exact always
  | cons op ops ih =>
    cases n with
    | zero => exact always.1
    | succ n => exact ih always.2 n

theorem always_append {step : σ → ι → σ} {P : σ → Prop} {start : σ} {first second : List ι}
    (head : Always step P start first) (tail : Always step P (exec step start first) second) :
    Always step P start (first ++ second) := by
  induction first generalizing start with
  | nil => exact tail
  | cons op first ih => exact ⟨head.1, ih head.2 tail⟩

theorem always_of_preserved {step : σ → ι → σ} {P : σ → Prop} {start : σ} {ops : List ι} (initial : P start)
    (preserved : ∀ op ∈ ops, ∀ s, P s → P (step s op)) : Always step P start ops := by
  induction ops generalizing start with
  | nil => exact initial
  | cons op ops ih =>
    exact ⟨initial, ih (preserved op List.mem_cons_self start initial)
      fun other member => preserved other (List.mem_cons_of_mem _ member)⟩

/-- A projection of the state that every step follows is followed by a run. -/
theorem exec_map {τ : Type*} {step : σ → ι → σ} {image : τ → ι → τ} (f : σ → τ)
    (follows : ∀ s op, f (step s op) = image (f s) op) (start : σ) (ops : List ι) :
    f (exec step start ops) = exec image (f start) ops := by
  induction ops generalizing start with
  | nil => rfl
  | cons op ops ih => rw [exec_cons, exec_cons, ih, follows]

theorem exec_invariant {step : σ → ι → σ} {Inv : σ → Prop}
    (preserved : ∀ s op, Inv s → Inv (step s op)) {start : σ} (initial : Inv start)
    (ops : List ι) : Inv (exec step start ops) := by
  induction ops generalizing start with
  | nil => exact initial
  | cons op ops ih => exact ih (preserved start op initial)

/-- A reflexive and transitive relation that every step respects relates the two ends of a run. -/
theorem exec_related {step : σ → ι → σ} {Inv : σ → Prop} {R : σ → σ → Prop}
    (refl : ∀ s, R s s) (trans : ∀ a b c, R a b → R b c → R a c)
    (preserved : ∀ s op, Inv s → Inv (step s op)) (related : ∀ s op, Inv s → R s (step s op))
    {start : σ} (initial : Inv start) (ops : List ι) : R start (exec step start ops) := by
  induction ops generalizing start with
  | nil => exact refl start
  | cons op ops ih =>
    exact trans _ _ _ (related start op initial) (ih (preserved start op initial))

/-- The exact guard of a property: it holds after every prefix of a run whose steps all meet
`Base` if and only if the steps also meet `Ok`. The invariant implies the property, is kept
by a step that meets both guards, and makes `Ok` necessary for the property after the step. -/
theorem prefixes_iff_guarded {step : σ → ι → σ} {Inv Good : σ → Prop} {Base Ok : σ → ι → Prop}
    (holds : ∀ s, Inv s → Good s)
    (preserved : ∀ s op, Inv s → Base s op → Ok s op → Inv (step s op))
    (necessary : ∀ s op, Inv s → Base s op → Good (step s op) → Ok s op)
    {start : σ} (initial : Inv start) {ops : List ι} (based : Guarded step Base start ops) :
    (∀ n, Good (exec step start (ops.take n))) ↔ Guarded step Ok start ops := by
  induction ops generalizing start with
  | nil => exact ⟨fun _ => trivial, fun _ n => by simpa using holds start initial⟩
  | cons op ops ih =>
    constructor
    · intro good
      have ok : Ok start op := necessary start op initial based.1 (by simpa using good 1)
      refine ⟨ok, (ih (preserved start op initial based.1 ok) based.2).mp ?_⟩
      intro n
      simpa using good (n + 1)
    · rintro ⟨ok, rest⟩ n
      cases n with
      | zero => simpa using holds start initial
      | succ n => simpa using (ih (preserved start op initial based.1 ok) based.2).mpr rest n

end OpenTulpa.Library.Run
