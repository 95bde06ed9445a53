import OpenTulpa.Persistence.Idempotency

/-! Any number of concurrent calls of `execute`, interleaved at their claim, at the start of
the provider call and at the recording of its outcome, with owners' decisions in between and
callers that disappear at any point. -/

namespace OpenTulpa.Persistence.AtMostOnce

open Library Text Outcome Idempotency

/-- Where a call of `execute` stands. A call that created a claim remembers how many retries
of the key had been decided by then. -/
inductive Phase where
  | waiting
  | claimed (request : Resolved) (retriesBefore : Nat)
  | invoking (request : Resolved) (retriesBefore : Nat)
  | returned
  | raised (error : EffectError)
  | crashed
  deriving DecidableEq

structure Call where
  request : Request
  phase : Phase
  deriving DecidableEq

/-- The store, the calls in the order they arrived, and the key of every call of `invoke`. -/
structure State where
  store : EffectStore
  calls : List Call
  invocations : List EffectKey
  deriving DecidableEq

def State.start : State := ⟨.empty, [], []⟩

inductive Value where
  | object (fields : JsonObject)
  | other (text : String)
  deriving DecidableEq

def Value.result : Value → JsonObject
  | .object fields => fields
  | .other text => [("value", text)]

inductive InvokeOutcome where
  | value (value : Value)
  | exception (code : String)
  | unserializable
  deriving DecidableEq

inductive Op where
  | execute (request : Request)
  | claim (caller : Nat) (now : Nat)
  | invoke (caller : Nat)
  | finish (caller : Nat) (outcome : InvokeOutcome) (now : Nat)
  | crash (caller : Nat)
  | reconcile (request : ReconcileRequest) (now : Nat)
  deriving DecidableEq

/-- The call an operation is a step of. -/
def Op.caller : Op → Option Nat
  | .claim caller _ | .invoke caller | .finish caller _ _ | .crash caller => some caller
  | .execute _ | .reconcile _ _ => none

def State.enter (state : State) (caller : Nat) (call : Call) (phase : Phase) : State :=
  { state with calls := state.calls.set caller { call with phase := phase } }

def State.started (state : State) (key : EffectKey) : Nat := state.invocations.count key

def Phase.awaits (key : EffectKey) : Phase → Bool
  | .claimed request _ => request.key == key
  | _ => false

/-- The calls that hold a claim and are about to call the provider. -/
def State.waiting (state : State) (key : EffectKey) : Nat :=
  state.calls.countP fun call => call.phase.awaits key

section Step

variable (digest : String → String → String)

def claimStep (state : State) (caller : Nat) (call : Call) (now : Nat) : State :=
  match claim digest state.store call.request now with
  | .ok (stored, .created request) =>
    { state with store := stored }.enter caller call (.claimed request (state.store.retries request.key))
  | .ok (stored, .replayed _) => { state with store := stored }.enter caller call .returned
  | .error error => state.enter caller call (.raised error)

def recordOutcome (store : EffectStore) (request : Request) (outcome : InvokeOutcome) (now : Nat) :
    Except EffectError EffectStore :=
  match outcome with
  | .value value => complete store request.tenantId request.idempotencyKey value.result now
  | .exception code => fail store request.tenantId request.idempotencyKey code now
  | .unserializable => .error .unserializable

def finishStep (state : State) (caller : Nat) (call : Call) (outcome : InvokeOutcome) (now : Nat) : State :=
  match recordOutcome state.store call.request outcome now with
  | .ok stored =>
    { state with store := stored }.enter caller call (match outcome with
      | .exception code => .raised (.provider code)
      | _ => .returned)
  | .error error => state.enter caller call (.raised error)

def step (state : State) : Op → State
  | .execute request => { state with calls := state.calls ++ [⟨request, .waiting⟩] }
  | .claim caller now =>
    match state.calls[caller]? with
    | some call => if call.phase = .waiting then claimStep digest state caller call now else state
    | none => state
  | .invoke caller =>
    match state.calls[caller]? with
    | some call =>
      match call.phase with
      | .claimed request before =>
        { state with invocations := state.invocations ++ [request.key] }.enter caller call
          (.invoking request before)
      | _ => state
    | none => state
  | .finish caller outcome now =>
    match state.calls[caller]? with
    | some call =>
      match call.phase with
      | .invoking _ _ => finishStep state caller call outcome now
      | _ => state
    | none => state
  | .crash caller =>
    match state.calls[caller]? with
    | some call =>
      match call.phase with
      | .waiting | .claimed _ _ | .invoking _ _ => state.enter caller call .crashed
      | _ => state
    | none => state
  | .reconcile request now =>
    { state with store := (reconcilePending state.store request now).toOption.getD state.store }

end Step

/-- The request a key is bound to: the operation and the request hash in its row. -/
def bound (store : EffectStore) (key : EffectKey) : Option (String × String) :=
  (store.effect key).map fun row => (row.operation, row.requestHash)

theorem bound_resolvePending (store : EffectStore) (key other : EffectKey) (status : EffectStatus)
    (result : Option JsonObject) (now : Nat) :
    bound (store.resolvePending key status result now) other = bound store other := by
  have found : (store.resolvePending key status result now).effect other = (store.effect other).map fun row =>
      if row.key == key && row.status == .pending then finished status result now row else row :=
    Rows.find_update _ _ _ _ fun _ _ => rfl
  rw [bound, bound, found, Option.map_map]
  congr 1
  funext row
  simp only [Function.comp_apply]
  split <;> rfl

theorem claim_bound {digest : String → String → String} {store stored : EffectStore} {request : Request}
    {now : Nat} {outcome : IdempotencyClaim} (done : claim digest store request now = .ok (stored, outcome)) :
    stored.reconciliations = store.reconciliations ∧
      ((∃ result, outcome = .replayed result ∧ stored = store) ∨
        ∃ resolved, outcome = .created resolved ∧ bound store resolved.key = none ∧
          ∀ other, bound stored other =
            if other = resolved.key then some (resolved.operation, resolved.requestHash)
            else bound store other) := by
  unfold claim at done
  obtain ⟨resolved, _, done⟩ := bind_eq_ok done
  cases found : store.effect resolved.key with
  | none =>
    simp only [found, Except.ok.injEq, Prod.mk.injEq] at done
    obtain ⟨rfl, rfl⟩ := done
    refine ⟨rfl, Or.inr ⟨resolved, rfl, by simp [bound, found], fun other => ?_⟩⟩
    have appended : EffectStore.effect { store with effects := store.effects ++ [resolved.row now] } other =
        (store.effect other).or (if other = resolved.key then some (resolved.row now) else none) := by
      by_cases same : other = resolved.key
      · simp [EffectStore.effect, List.find?_append, Resolved.row, same]
      · have different : resolved.key ≠ other := fun equal => same equal.symm
        simp [EffectStore.effect, List.find?_append, Resolved.row, same, different]
    by_cases same : other = resolved.key
    · subst same
      rw [bound, appended, found]
      simp [Resolved.row]
    · rw [bound, appended]
      simp [bound, same]
  | some row =>
    simp only [found] at done
    split at done
    · cases done
    · cases status : row.status <;> simp only [status, reduceCtorEq, Except.ok.injEq, Prod.mk.injEq] at done
      obtain ⟨rfl, rfl⟩ := done
      exact ⟨rfl, Or.inl ⟨_, rfl, rfl⟩⟩

theorem finish_bound {store stored : EffectStore} {tenantId idempotencyKey : String} {status : EffectStatus}
    {result : JsonObject} {now : Nat} (done : finish store tenantId idempotencyKey status result now = .ok stored) :
    stored.reconciliations = store.reconciliations ∧ ∀ other, bound stored other = bound store other := by
  unfold finish at done
  obtain ⟨key, _, done⟩ := bind_eq_ok done
  split at done
  · cases done
  · cases done
    exact ⟨rfl, fun other => bound_resolvePending store key other status (some result) now⟩

theorem recordOutcome_bound {store stored : EffectStore} {request : Request} {outcome : InvokeOutcome} {now : Nat}
    (done : recordOutcome store request outcome now = .ok stored) :
    stored.reconciliations = store.reconciliations ∧ ∀ other, bound stored other = bound store other := by
  cases outcome with
  | value value => exact finish_bound done
  | exception code => exact finish_bound done
  | unserializable => cases done

@[simp] theorem bound_record (store : EffectStore) (reconciliation : Reconciliation) (key : EffectKey) :
    bound (store.record reconciliation) key = bound store key := rfl

theorem bound_delete (store : EffectStore) (key other : EffectKey) :
    bound { store with effects := store.effects.filter fun row => row.key != key } other =
      if other = key then none else bound store other := by
  simp only [bound, EffectStore.effect, List.find?_filter]
  by_cases same : other = key
  · subst same
    simp
  · have kept : (fun row : Effect => decide ((row.key != key) = true ∧ (row.key == other) = true)) =
        fun row => row.key == other := by
      funext row
      by_cases equal : row.key = other <;> simp [equal, same]
    simp only [same, if_false]
    exact congrArg (fun wanted => Option.map _ (List.find? wanted store.effects)) kept

theorem retries_record (store : EffectStore) (reconciliation : Reconciliation) (key : EffectKey) :
    (store.record reconciliation).retries key = store.retries key +
      if reconciliation.key = key ∧ reconciliation.decision = .retryNoEffect then 1 else 0 := by
  simp [EffectStore.retries, EffectStore.record, List.countP_append, List.countP_cons]

/-- A decision leaves every binding, or frees one bound key and is counted as its retry. -/
theorem reconcilePending_bound {store stored : EffectStore} {request : ReconcileRequest} {now : Nat}
    (done : reconcilePending store request now = .ok stored) :
    (∀ other, bound stored other = bound store other ∧ stored.retries other = store.retries other) ∨
      ∃ key, (bound store key).isSome ∧
        (∀ other, bound stored other = if other = key then none else bound store other) ∧
        ∀ other, stored.retries other = store.retries other + if other = key then 1 else 0 := by
  unfold reconcilePending at done
  obtain ⟨key, _, done⟩ := bind_eq_ok done
  obtain ⟨actor, _, done⟩ := bind_eq_ok done
  simp only at done
  split at done
  · cases done
  cases found : store.effect key with
  | none => simp [found] at done
  | some row =>
    simp only [found] at done
    split at done
    · split at done
      · cases done
        exact Or.inl fun other => ⟨rfl, rfl⟩
      · cases done
    · have same := Except.ok.inj done
      subst same
      cases decision : request.decision with
      | retryNoEffect =>
        refine Or.inr ⟨key, by simp [bound, found], fun other => ?_, fun other => ?_⟩
        · rw [bound_record, EffectStore.decide, decision]
          exact bound_delete store key other
        · rw [retries_record, EffectStore.decide, decision]
          simp [EffectStore.retries, eq_comm]
      | confirmApplied =>
        refine Or.inl fun other => ⟨?_, ?_⟩
        · rw [bound_record, EffectStore.decide, decision]
          exact bound_resolvePending store key other .completed request.result now
        · rw [retries_record, EffectStore.decide, decision]
          simp [EffectStore.retries, EffectStore.resolvePending]
      | reject =>
        refine Or.inl fun other => ⟨?_, ?_⟩
        · rw [bound_record, EffectStore.decide, decision]
          exact bound_resolvePending store key other .failed _ now
        · rw [retries_record, EffectStore.decide, decision]
          simp [EffectStore.retries, EffectStore.resolvePending]

def Phase.holds : Phase → Option (Resolved × Nat)
  | .claimed request before | .invoking request before => some (request, before)
  | _ => none

/-- Provider calls made or about to be made are covered by the claims created so far, and a
call in progress still owns its row unless a retry has been decided since its claim. -/
structure Fenced (state : State) : Prop where
  covered : ∀ key, state.started key + state.waiting key ≤
    state.store.retries key + if (bound state.store key).isSome then 1 else 0
  owned : ∀ call ∈ state.calls, ∀ request before, call.phase.holds = some (request, before) →
    before ≤ state.store.retries request.key ∧
      (before = state.store.retries request.key →
        bound state.store request.key = some (request.operation, request.requestHash))

theorem waiting_enter {state : State} {caller : Nat} {call : Call} (found : state.calls[caller]? = some call)
    (phase : Phase) (key : EffectKey) :
    (state.enter caller call phase).waiting key + (if call.phase.awaits key then 1 else 0) =
      state.waiting key + if phase.awaits key then 1 else 0 := by
  obtain ⟨inside, here⟩ := List.getElem?_eq_some_iff.mp found
  have count := List.countP_set (p := fun call => call.phase.awaits key) (a := { call with phase := phase }) inside
  have positive : call.phase.awaits key = true → 0 < state.waiting key := fun awaits =>
    List.countP_pos_iff.mpr ⟨call, List.mem_of_getElem? found, awaits⟩
  simp only [here] at count
  simp only [State.enter, State.waiting] at count positive ⊢
  rw [count]
  by_cases awaits : call.phase.awaits key = true
  · have some := positive awaits
    simp only [awaits, if_true]
    omega
  · simp [awaits]

theorem holds_enter {state : State} {caller : Nat} {call other : Call} {phase : Phase}
    (member : other ∈ (state.enter caller call phase).calls) :
    other ∈ state.calls ∨ other.phase = phase := by
  rcases List.mem_or_eq_of_mem_set member with old | new
  · exact Or.inl old
  · exact Or.inr (by rw [new])

/-- A call that ends, or crashes, gives up what it held. -/
theorem Fenced.enter_ended {state : State} (fenced : Fenced state) {caller : Nat} {call : Call}
    (found : state.calls[caller]? = some call) {phase : Phase} (ended : phase.holds = none) :
    Fenced (state.enter caller call phase) where
  covered := by
    intro key
    have idle : phase.awaits key = false := by
      cases phase <;> first | rfl | cases ended
    have count := waiting_enter found phase key
    have before := fenced.covered key
    simp only [idle, Bool.false_eq_true, if_false] at count
    exact le_trans (Nat.add_le_add_left (by omega) _) before
  owned := by
    intro other member request before held
    rcases holds_enter member with old | same
    · exact fenced.owned other old request before held
    · rw [same, ended] at held
      cases held

/-- A store with the same bindings and decisions is fenced by the same calls. -/
theorem Fenced.of_same {state : State} (fenced : Fenced state) {stored : EffectStore}
    (bindings : ∀ key, bound stored key = bound state.store key)
    (retries : ∀ key, stored.retries key = state.store.retries key) : Fenced { state with store := stored } where
  covered := by
    intro key
    rw [bindings, retries]
    exact fenced.covered key
  owned := by
    intro call member request before held
    rw [bindings, retries]
    exact fenced.owned call member request before held

theorem retries_of_same {store stored : EffectStore} (same : stored.reconciliations = store.reconciliations)
    (key : EffectKey) : stored.retries key = store.retries key := by
  rw [EffectStore.retries, same]
  rfl

section Fenced

variable (digest : String → String → String)

theorem claimStep_fenced {state : State} (fenced : Fenced state) {caller : Nat} {call : Call}
    (found : state.calls[caller]? = some call) (waiting : call.phase = .waiting) (now : Nat) :
    Fenced (claimStep digest state caller call now) := by
  unfold claimStep
  cases done : claim digest state.store call.request now with
  | error error => exact fenced.enter_ended found rfl
  | ok pair =>
    obtain ⟨stored, outcome⟩ := pair
    obtain ⟨same, ⟨result, rfl, rfl⟩ | ⟨resolved, rfl, free, bindings⟩⟩ := claim_bound done
    · exact fenced.enter_ended found rfl
    · have retries := retries_of_same same
      refine ⟨fun key => ?_, fun other member request before held => ?_⟩
      · have count := @waiting_enter { state with store := stored } caller call found
          (.claimed resolved (state.store.retries resolved.key)) key
        have before := fenced.covered key
        simp only [waiting, Phase.awaits, Bool.false_eq_true, if_false, Nat.add_zero, beq_iff_eq] at count
        change state.started key + State.waiting _ key ≤ stored.retries key + _
        rw [count, retries]
        change state.started key + (state.waiting key + _) ≤ _ + if (bound stored key).isSome = true then 1 else 0
        rw [bindings]
        by_cases here : key = resolved.key
        · subst here
          simp only [free, Option.isSome_none, Bool.false_eq_true, if_false, Nat.add_zero] at before
          simp only [if_true, Option.isSome_some]
          omega
        · simp only [here, Ne.symm here, if_false]
          omega
      · change _ ≤ stored.retries _ ∧ (_ = stored.retries _ → bound stored _ = _)
        rw [retries, bindings]
        rcases holds_enter member with old | fresh
        · obtain ⟨bounded, own⟩ := fenced.owned other old request before held
          refine ⟨bounded, fun current => ?_⟩
          have kept := own current
          by_cases here : request.key = resolved.key
          · rw [here, free] at kept
            cases kept
          · simpa [here] using kept
        · rw [fresh] at held
          cases held
          simp

theorem step_fenced (state : State) (op : Op) (fenced : Fenced state) : Fenced (step digest state op) := by
  cases op with
  | execute request =>
    refine ⟨fun key => ?_, fun call member request before held => ?_⟩
    · have idle : (step digest state (.execute request)).waiting key = state.waiting key := by
        have fresh : Phase.waiting.awaits key = false := rfl
        simp [step, State.waiting, List.countP_append, fresh]
      rw [idle]
      exact fenced.covered key
    · rcases List.mem_append.mp member with old | new
      · exact fenced.owned call old request before held
      · rw [List.mem_singleton.mp new] at held
        cases held
  | claim caller now =>
    simp only [step]
    split
    · rename_i call found
      split
      · rename_i waiting
        exact claimStep_fenced digest fenced found waiting now
      · exact fenced
    · exact fenced
  | invoke caller =>
    simp only [step]
    split
    · rename_i call found
      split
      · rename_i request before claimed
        refine ⟨fun key => ?_, fun other member named since held => ?_⟩
        · have count := @waiting_enter { state with invocations := state.invocations ++ [request.key] }
            caller call found (.invoking request before) key
          have covered := fenced.covered key
          simp only [claimed, Phase.awaits, Bool.false_eq_true, if_false, Nat.add_zero, beq_iff_eq] at count
          change (state.invocations ++ [request.key]).count key + State.waiting _ key ≤ _
          change _ + _ = state.waiting key at count
          simp only [List.count_append, List.count_singleton, beq_iff_eq]
          simp only [State.started] at covered
          change _ ≤ state.store.retries key + if (bound state.store key).isSome = true then 1 else 0
          omega
        · rcases holds_enter member with old | fresh
          · exact fenced.owned other old named since held
          · rw [fresh] at held
            exact fenced.owned call (List.mem_of_getElem? found) named since (by rw [claimed]; exact held)
      · exact fenced
    · exact fenced
  | finish caller outcome now =>
    simp only [step]
    split
    · rename_i call found
      split
      · unfold finishStep
        cases done : recordOutcome state.store call.request outcome now with
        | error error => exact fenced.enter_ended found rfl
        | ok stored =>
          obtain ⟨same, bindings⟩ := recordOutcome_bound done
          exact (fenced.of_same bindings (retries_of_same same)).enter_ended found (by cases outcome <;> rfl)
      · exact fenced
    · exact fenced
  | crash caller =>
    simp only [step]
    split
    · rename_i call found
      split <;> first | exact fenced.enter_ended found rfl | exact fenced
    · exact fenced
  | reconcile request now =>
    simp only [step]
    cases done : reconcilePending state.store request now with
    | error error => exact fenced
    | ok stored =>
      rcases reconcilePending_bound done with same | ⟨key, freed, bindings, retries⟩
      · exact fenced.of_same (fun other => (same other).1) (fun other => (same other).2)
      · refine ⟨fun other => ?_, fun call member held before holds => ?_⟩
        · change state.started other + state.waiting other ≤ stored.retries other +
            if (bound stored other).isSome = true then 1 else 0
          have covered := fenced.covered other
          rw [bindings, retries]
          by_cases here : other = key
          · subst here
            simp only [freed, if_true] at covered
            simp only [if_true, Option.isSome_none, Bool.false_eq_true, if_false]
            omega
          · simpa [here] using covered
        · change before ≤ stored.retries _ ∧ (before = stored.retries _ → bound stored _ = _)
          obtain ⟨bounded, own⟩ := fenced.owned call member held before holds
          rw [bindings, retries]
          by_cases here : held.key = key
          · simp only [here, if_true] at bounded ⊢
            omega
          · simpa [here] using ⟨bounded, own⟩

theorem run_fenced (ops : List Op) : Fenced (Run.exec (step digest) .start ops) := by
  have initial : Fenced .start := ⟨fun key => by simp [State.start, State.started, State.waiting],
    fun call member => by simp [State.start] at member⟩
  exact Run.exec_invariant (step_fenced digest) initial ops

/-- A step moves the call it is a step of, and only if that call has not raised. -/
theorem step_calls (state : State) (op : Op) :
    (step digest state op).calls = state.calls ∨
      (∃ call, (step digest state op).calls = state.calls ++ [call]) ∨
      ∃ caller call phase, state.calls[caller]? = some call ∧ (∀ error, call.phase ≠ .raised error) ∧
        (step digest state op).calls = state.calls.set caller { call with phase := phase } := by
  cases op with
  | execute request => exact Or.inr (Or.inl ⟨_, rfl⟩)
  | claim caller now =>
    simp only [step]
    split
    · rename_i call found
      split
      · rename_i waiting
        refine Or.inr (Or.inr ⟨caller, call, ?_⟩)
        simp only [claimStep]
        split <;> exact ⟨_, found, by simp [waiting], rfl⟩
      · exact Or.inl rfl
    · exact Or.inl rfl
  | invoke caller =>
    simp only [step]
    split
    · rename_i call found
      split
      · rename_i claimed
        exact Or.inr (Or.inr ⟨caller, call, _, found, by simp [claimed], rfl⟩)
      · exact Or.inl rfl
    · exact Or.inl rfl
  | finish caller outcome now =>
    simp only [step]
    split
    · rename_i call found
      split
      · rename_i invoking
        refine Or.inr (Or.inr ⟨caller, call, ?_⟩)
        simp only [finishStep]
        split <;> exact ⟨_, found, by simp [invoking], rfl⟩
      · exact Or.inl rfl
    · exact Or.inl rfl
  | crash caller =>
    simp only [step]
    split
    · rename_i call found
      split
      all_goals first
        | exact Or.inl rfl
        | (rename_i phase; exact Or.inr (Or.inr ⟨caller, call, _, found, by simp [phase], rfl⟩))
    · exact Or.inl rfl
  | reconcile request now => exact Or.inl rfl

/-- A call that has raised takes no further step, whatever the other calls do. -/
theorem step_raised {state : State} {caller : Nat} {call : Call} {error : EffectError}
    (found : state.calls[caller]? = some call) (raised : call.phase = .raised error) (op : Op) :
    (step digest state op).calls[caller]? = some call ∧
      (op.caller = some caller → step digest state op = state) := by
  constructor
  · rcases step_calls digest state op with same | ⟨arrived, appended⟩ | ⟨other, moved, phase, present, live, set⟩
    · rw [same, found]
    · rw [appended, List.getElem?_append_left (List.getElem?_eq_some_iff.mp found).1, found]
    · have apart : other ≠ caller := by
        rintro rfl
        rw [found, Option.some.injEq] at present
        exact live error (present ▸ raised)
      rw [set, List.getElem?_set_ne apart, found]
  · intro own
    cases op with
    | execute request => cases own
    | reconcile request now => cases own
    | claim other now | invoke other | finish other outcome now | crash other =>
      cases own
      simp [step, found, raised]

theorem run_raised {state : State} {caller : Nat} {call : Call} {error : EffectError}
    (found : state.calls[caller]? = some call) (raised : call.phase = .raised error) (ops : List Op) :
    (Run.exec (step digest) state ops).calls[caller]? = some call := by
  induction ops generalizing state with
  | nil => exact found
  | cons op ops ih => exact ih (step_raised digest found raised op).1

theorem claim_differentRequest {store : EffectStore} {request : Request} {resolved : Resolved} {row : Effect}
    (resolves : resolve digest request = .ok resolved) (present : store.effect resolved.key = some row)
    (different : row.operation ≠ resolved.operation ∨ row.requestHash ≠ resolved.requestHash) (now : Nat) :
    claim digest store request now = .error .differentRequest := by
  have unmatched : row.matches resolved = false := by
    rcases different with operation | hash
    · simp [Effect.matches, operation]
    · simp [Effect.matches, hash]
  simp [claim, resolves, present, unmatched]

theorem effects_run_at_most_once (ops : List Op) :
    let state := Run.exec (step digest) .start ops
    (∀ key, state.started key ≤ 1 + state.store.retries key) ∧
      -- a request that finds its key bound to another one raises and takes no step ever after
      (∀ caller call resolved row now, state.calls[caller]? = some call → call.phase = .waiting →
        resolve digest call.request = .ok resolved → state.store.effect resolved.key = some row →
        row.operation ≠ resolved.operation ∨ row.requestHash ≠ resolved.requestHash →
        let refused := step digest state (.claim caller now)
        refused.store = state.store ∧ refused.invocations = state.invocations ∧
          ∀ later op, op.caller = some caller →
            step digest (Run.exec (step digest) refused later) op = Run.exec (step digest) refused later) ∧
      -- a request in progress is the one its key is bound to, until the owner decides on a retry
      ∀ call ∈ state.calls, ∀ request before, call.phase.holds = some (request, before) →
        before < state.store.retries request.key ∨
          ∃ row, state.store.effect request.key = some row ∧ row.operation = request.operation ∧
            row.requestHash = request.requestHash := by
  intro state
  have fenced : Fenced state := run_fenced digest ops
  refine ⟨fun key => ?_, ?_, ?_⟩
  · have covered := fenced.covered key
    split at covered <;> omega
  · intro caller call resolved row now found waiting resolves present different refused
    have raised : refused = state.enter caller call (.raised .differentRequest) := by
      simp [refused, step, found, waiting, claimStep, claim_differentRequest digest resolves present different now]
    have there : refused.calls[caller]? = some { call with phase := .raised .differentRequest } := by
      rw [raised]
      simp [State.enter, (List.getElem?_eq_some_iff.mp found).1]
    refine ⟨by rw [raised]; rfl, by rw [raised]; rfl, fun later op own => ?_⟩
    exact (step_raised digest (run_raised digest there rfl later) rfl op).2 own
  · intro call member request before held
    obtain ⟨bounded, own⟩ := fenced.owned call member request before held
    rcases Nat.lt_or_eq_of_le bounded with later | current
    · exact Or.inl later
    · obtain ⟨row, present, same⟩ := Option.map_eq_some_iff.mp (own current)
      simp only [Prod.mk.injEq] at same
      exact Or.inr ⟨row, present, same⟩

end Fenced

end OpenTulpa.Persistence.AtMostOnce
