import OpenTulpa.Library.Outcome
import OpenTulpa.Library.Rows
import OpenTulpa.Library.Run
import OpenTulpa.Library.Text

/-! The durable idempotency records of external effects. A key is claimed before the provider
is called, finished after it, and an indeterminate claim is resolved by an owner's decision.
Each of these is one transaction. -/

namespace OpenTulpa.Persistence.Idempotency

open Library Text Outcome

inductive EffectStatus where
  | pending
  | completed
  | failed
  deriving DecidableEq

inductive Decision where
  | confirmApplied
  | retryNoEffect
  | reject
  deriving DecidableEq

/-- A tenant and an idempotency key, both trimmed. -/
abbrev EffectKey := String × String

structure Effect where
  key : EffectKey
  operation : String
  requestHash : String
  status : EffectStatus
  /-- `none` is SQL NULL, `some none` the JSON text `null`. -/
  result : Option (Option JsonObject)
  createdAt : Nat
  updatedAt : Nat
  deriving DecidableEq

structure Reconciliation where
  key : EffectKey
  decision : Decision
  actorId : String
  reason : String
  createdAt : Nat
  deriving DecidableEq

structure EffectStore where
  effects : List Effect
  reconciliations : List Reconciliation
  deriving DecidableEq

def EffectStore.empty : EffectStore := ⟨[], []⟩

inductive EffectError where
  | required (field : String)
  | tooLong (field : String)
  | differentRequest
  | pending
  | previousFailed
  | notPending
  | notFound
  | badReason
  | provider (code : String)
  | unserializable
  deriving DecidableEq

def EffectError.message : EffectError → String
  | .required field => field ++ " is required"
  | .tooLong field => field ++ " is too long"
  | .differentRequest => "idempotency key was already used for a different request"
  | .pending => "the external effect is pending or its outcome is indeterminate"
  | .previousFailed => "the previous external effect attempt failed; use a new idempotency key"
  | .notPending => "idempotency claim is not pending"
  | .notFound => "idempotency claim was not found"
  | .badReason => "reason is required and must not exceed 2000 characters"
  | .provider code => code
  | .unserializable => "Circular reference detected"

/-- `_required` -/
def required (value field : String) : Except EffectError String :=
  let safe := strip value
  if safe.isEmpty then .error (.required field)
  else if 300 < safe.length then .error (.tooLong field)
  else .ok safe

def requiredKey (tenantId idempotencyKey : String) : Except EffectError EffectKey := do
  let tenant ← required tenantId "tenant_id"
  let key ← required idempotencyKey "idempotency_key"
  return (tenant, key)

structure Request where
  tenantId : String
  operation : String
  idempotencyKey : String
  requestHash : String
  deriving DecidableEq

/-- What a claim compares with the row: the key, the operation and the digest of both the
operation and the caller's request hash. -/
structure Resolved where
  key : EffectKey
  operation : String
  requestHash : String
  deriving DecidableEq

def EffectStore.effect (store : EffectStore) (key : EffectKey) : Option Effect :=
  store.effects.find? fun row => row.key == key

def Effect.matches (row : Effect) (request : Resolved) : Bool :=
  row.operation == request.operation && row.requestHash == request.requestHash

def Effect.replay (row : Effect) : JsonObject := (row.result.getD none).getD []

inductive IdempotencyClaim where
  | created (request : Resolved)
  | replayed (result : JsonObject)
  deriving DecidableEq

section Claim

variable (digest : String → String → String)

def resolve (request : Request) : Except EffectError Resolved := do
  let key ← requiredKey request.tenantId request.idempotencyKey
  let operation ← required request.operation "operation"
  return ⟨key, operation, digest operation request.requestHash⟩

def Resolved.row (request : Resolved) (now : Nat) : Effect :=
  ⟨request.key, request.operation, request.requestHash, .pending, none, now, now⟩

def claim (store : EffectStore) (request : Request) (now : Nat) :
    Except EffectError (EffectStore × IdempotencyClaim) := do
  let resolved ← resolve digest request
  match store.effect resolved.key with
  | none => .ok ({ store with effects := store.effects ++ [resolved.row now] }, .created resolved)
  | some row =>
    if !row.matches resolved then .error .differentRequest
    else
      match row.status with
      | .pending => .error .pending
      | .failed => .error .previousFailed
      | .completed => .ok (store, .replayed row.replay)

end Claim

def finished (status : EffectStatus) (result : Option JsonObject) (now : Nat) (row : Effect) : Effect :=
  { row with status := status, result := some result, updatedAt := now }

/-- `UPDATE external_effects SET ... WHERE tenant_id = ? AND idempotency_key = ? AND status = 'pending'` -/
def EffectStore.resolvePending (store : EffectStore) (key : EffectKey) (status : EffectStatus)
    (result : Option JsonObject) (now : Nat) : EffectStore :=
  { store with
    effects := Rows.update (fun row => row.key == key && row.status == .pending)
      (finished status result now) store.effects }

/-- `_finish` -/
def finish (store : EffectStore) (tenantId idempotencyKey : String) (status : EffectStatus)
    (result : JsonObject) (now : Nat) : Except EffectError EffectStore := do
  let key ← requiredKey tenantId idempotencyKey
  if store.effects.countP (fun row => row.key == key && row.status == .pending) ≠ 1 then .error .notPending
  else .ok (store.resolvePending key status (some result) now)

def complete (store : EffectStore) (tenantId idempotencyKey : String) (result : JsonObject) (now : Nat) :
    Except EffectError EffectStore :=
  finish store tenantId idempotencyKey .completed result now

def failureResult (code : String) : JsonObject :=
  [("error.code", String.ofList ((if code.isEmpty then "external_effect_failed" else code).toList.take 100))]

def fail (store : EffectStore) (tenantId idempotencyKey code : String) (now : Nat) :
    Except EffectError EffectStore :=
  finish store tenantId idempotencyKey .failed (failureResult code) now

structure ReconcileRequest where
  tenantId : String
  idempotencyKey : String
  decision : Decision
  actorId : String
  reason : String
  result : Option JsonObject := none
  deriving DecidableEq

def EffectStore.decide (store : EffectStore) (key : EffectKey) (request : ReconcileRequest) (now : Nat) :
    EffectStore :=
  match request.decision with
  | .retryNoEffect => { store with effects := store.effects.filter fun row => row.key != key }
  | .confirmApplied => store.resolvePending key .completed request.result now
  | .reject => store.resolvePending key .failed (some [("error.code", "owner_rejected_effect")]) now

def EffectStore.record (store : EffectStore) (reconciliation : Reconciliation) : EffectStore :=
  { store with reconciliations := store.reconciliations ++ [reconciliation] }

def reconcilePending (store : EffectStore) (request : ReconcileRequest) (now : Nat) :
    Except EffectError EffectStore := do
  let key ← requiredKey request.tenantId request.idempotencyKey
  let actor ← required request.actorId "actor_id"
  let reason := strip request.reason
  if reason.isEmpty || 2000 < reason.length then .error .badReason
  else
    match store.effect key with
    | none => .error .notFound
    | some row =>
      if row.status ≠ .pending then
        if request.decision = .confirmApplied ∧ row.status = .completed then .ok store
        else .error .notPending
      else .ok ((store.decide key request now).record ⟨key, request.decision, actor, reason, now⟩)

/-- The committed decisions that a key may be tried again. -/
def EffectStore.retries (store : EffectStore) (key : EffectKey) : Nat :=
  store.reconciliations.countP fun entry => entry.key == key && entry.decision == .retryNoEffect

section Store

variable {store stored : EffectStore}

theorem effect_append (row : Effect) (key : EffectKey) :
    EffectStore.effect { store with effects := store.effects ++ [row] } key =
      (store.effect key).or (if row.key = key then some row else none) := by
  by_cases same : row.key = key
  · simp [EffectStore.effect, List.find?_append, same]
  · simp [EffectStore.effect, List.find?_append, same]

theorem effect_resolvePending (key other : EffectKey) (status : EffectStatus) (result : Option JsonObject) (now : Nat) :
    (store.resolvePending key status result now).effect other = (store.effect other).map fun row =>
      if row.key == key && row.status == .pending then finished status result now row else row :=
  Rows.find_update _ _ _ _ fun _ _ => rfl

theorem effect_key {key : EffectKey} {row : Effect} (found : store.effect key = some row) : row.key = key := by
  simpa using List.find?_some found

theorem claim_created {digest : String → String → String} {request : Request} {now : Nat} {resolved : Resolved}
    (done : claim digest store request now = .ok (stored, .created resolved)) :
    resolve digest request = .ok resolved ∧ store.effect resolved.key = none ∧
      stored = { store with effects := store.effects ++ [resolved.row now] } := by
  unfold claim at done
  obtain ⟨found, resolves, done⟩ := bind_eq_ok done
  cases present : store.effect found.key with
  | none =>
    simp only [present, Except.ok.injEq, Prod.mk.injEq, IdempotencyClaim.created.injEq] at done
    obtain ⟨rfl, rfl⟩ := done
    exact ⟨resolves, present, rfl⟩
  | some row =>
    simp only [present] at done
    split at done
    · cases done
    · cases status : row.status <;> simp [status] at done

/-- A claim that is not refused finds no row, or the completed one of the same request. -/
theorem claim_ok {digest : String → String → String} {request : Request} {now : Nat} {outcome : IdempotencyClaim}
    (done : claim digest store request now = .ok (stored, outcome)) :
    ∃ resolved, resolve digest request = .ok resolved ∧ ∀ row, store.effect resolved.key = some row →
      row.status = .completed ∧ row.matches resolved = true := by
  unfold claim at done
  obtain ⟨resolved, resolves, done⟩ := bind_eq_ok done
  refine ⟨resolved, resolves, ?_⟩
  intro row present
  simp only [present] at done
  split at done
  · cases done
  · rename_i same
    refine ⟨?_, by simpa using same⟩
    cases status : row.status with
    | completed => rfl
    | pending | failed => simp [status] at done

theorem required_error {value field : String} {error : EffectError} (refused : required value field = .error error) :
    error = .required field ∨ error = .tooLong field := by
  unfold required at refused
  dsimp only at refused
  split at refused
  · cases refused
    exact Or.inl rfl
  · split at refused
    · cases refused
      exact Or.inr rfl
    · cases refused

theorem resolve_error {digest : String → String → String} {request : Request} {error : EffectError}
    (refused : resolve digest request = .error error) :
    ∃ field, error = .required field ∨ error = .tooLong field := by
  unfold resolve requiredKey at refused
  cases tenant : required request.tenantId "tenant_id" with
  | error _ =>
    simp only [tenant, error_bind] at refused
    cases refused
    exact ⟨_, required_error tenant⟩
  | ok _ =>
    cases key : required request.idempotencyKey "idempotency_key" with
    | error _ =>
      simp only [tenant, key, ok_bind, error_bind] at refused
      cases refused
      exact ⟨_, required_error key⟩
    | ok _ =>
      cases operation : required request.operation "operation" with
      | error _ =>
        simp only [tenant, key, operation, ok_bind, error_bind, pure_eq_ok] at refused
        cases refused
        exact ⟨_, required_error operation⟩
      | ok _ =>
        simp only [tenant, key, operation, ok_bind, pure_eq_ok] at refused
        cases refused

/-- A claim that is refused with doubt finds a row other than the completed one of the same request. -/
theorem claim_doubt {digest : String → String → String} {request : Request} {now : Nat} {error : EffectError}
    (refused : claim digest store request now = .error error)
    (doubt : error = .pending ∨ error = .differentRequest ∨ error = .previousFailed) :
    ∃ resolved row, resolve digest request = .ok resolved ∧ store.effect resolved.key = some row ∧
      ¬ (row.status = .completed ∧ row.matches resolved = true) := by
  unfold claim at refused
  cases resolves : resolve digest request with
  | error other =>
    rw [resolves, error_bind] at refused
    cases refused
    obtain ⟨field, rfl | rfl⟩ := resolve_error resolves <;> simp at doubt
  | ok resolved =>
    rw [resolves, ok_bind] at refused
    cases found : store.effect resolved.key with
    | none => simp [found] at refused
    | some row =>
      refine ⟨resolved, row, rfl, found, ?_⟩
      rintro ⟨completed, same⟩
      simp [found, completed, same] at refused

/-- A row that is settled, but not as completed for the same request, refuses the claim with doubt. -/
theorem claim_settled {digest : String → String → String} {request : Request} {resolved : Resolved} {row : Effect}
    (resolves : resolve digest request = .ok resolved) (found : store.effect resolved.key = some row)
    (settled : row.status ≠ .pending) (other : ¬ (row.status = .completed ∧ row.matches resolved = true)) (now : Nat) :
    claim digest store request now = .error .differentRequest ∨ claim digest store request now = .error .previousFailed := by
  unfold claim
  rw [resolves, ok_bind]
  simp only [found]
  by_cases same : row.matches resolved = true
  · refine Or.inr ?_
    cases status : row.status with
    | pending => exact absurd status settled
    | completed => exact absurd ⟨status, same⟩ other
    | failed => simp [same]
  · refine Or.inl ?_
    simp [same]

theorem resolve_key {digest : String → String → String} {request : Request} {resolved : Resolved}
    (resolves : resolve digest request = .ok resolved) :
    requiredKey request.tenantId request.idempotencyKey = .ok resolved.key := by
  unfold resolve at resolves
  obtain ⟨key, named, resolves⟩ := bind_eq_ok resolves
  obtain ⟨operation, _, resolves⟩ := bind_eq_ok resolves
  cases resolves
  exact named

theorem effect_delete (key other : EffectKey) :
    EffectStore.effect { store with effects := store.effects.filter fun row => row.key != key } other =
      if other = key then none else store.effect other := by
  simp only [EffectStore.effect, List.find?_filter]
  by_cases same : other = key
  · subst same
    simp
  · have kept : (fun row : Effect => decide ((row.key != key) = true ∧ (row.key == other) = true)) =
        fun row => row.key == other := by
      funext row
      by_cases equal : row.key = other <;> simp [equal, same]
    simp only [same, if_false]
    exact congrArg (fun wanted => List.find? wanted store.effects) kept

theorem effect_resolvePending_none {key other : EffectKey} (free : store.effect other = none) (status : EffectStatus)
    (result : Option JsonObject) (now : Nat) : (store.resolvePending key status result now).effect other = none := by
  rw [effect_resolvePending, free, Option.map_none]

theorem complete_none {tenantId idempotencyKey : String} {result : JsonObject} {now : Nat}
    (done : complete store tenantId idempotencyKey result now = .ok stored) {other : EffectKey}
    (free : store.effect other = none) : stored.effect other = none := by
  unfold complete finish at done
  obtain ⟨key, _, done⟩ := bind_eq_ok done
  split at done
  · cases done
  · cases done
    exact effect_resolvePending_none free _ _ _

theorem reconcilePending_none {request : ReconcileRequest} {now : Nat}
    (done : reconcilePending store request now = .ok stored) {other : EffectKey} (free : store.effect other = none) :
    stored.effect other = none := by
  unfold reconcilePending at done
  obtain ⟨key, _, done⟩ := bind_eq_ok done
  obtain ⟨actor, _, done⟩ := bind_eq_ok done
  simp only at done
  split at done
  · cases done
  cases found : store.effect key with
  | none => simp [found] at done
  | some row =>
    simp only [found] at done
    split at done
    · split at done
      · cases done
        exact free
      · cases done
    · cases done
      change EffectStore.effect (store.decide key request now) other = none
      cases decision : request.decision with
      | retryNoEffect =>
        simp only [EffectStore.decide, decision]
        rw [effect_delete, free]
        simp
      | confirmApplied =>
        simp only [EffectStore.decide, decision]
        exact effect_resolvePending_none free _ _ _
      | reject =>
        simp only [EffectStore.decide, decision]
        exact effect_resolvePending_none free _ _ _

end Store

end OpenTulpa.Persistence.Idempotency
