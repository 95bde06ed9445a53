import OpenTulpa.Persistence.AtMostOnce
import Mathlib.Logic.Function.Basic

/-! Whose result a finished effect records. The row of a key does not say which call created its
claim, so the runs are followed by a record of it: the creator of the claim in the row, and the
call that finished it with the result it wrote. -/

namespace OpenTulpa.Persistence.ClaimOwnership

open Library Text Outcome Idempotency AtMostOnce

structure Origin where
  creator : Nat
  finisher : Option (Nat × JsonObject) := none
  deriving DecidableEq

structure Tracked where
  state : State
  origins : EffectKey → Option Origin

def Tracked.start : Tracked := ⟨.start, fun _ => none⟩

/-- What a call writes into the row of its key. -/
def recorded : InvokeOutcome → Option (EffectStatus × JsonObject)
  | .value value => some (.completed, value.result)
  | .exception code => some (.failed, failureResult code)
  | .unserializable => none

def Origin.finishBy (caller : Nat) (result : JsonObject) (origin : Origin) : Origin :=
  { origin with finisher := some (caller, result) }

section Track

variable (digest : String → String → String)

def originsAfter (tracked : Tracked) : Op → EffectKey → Option Origin
  | .claim caller now =>
    match tracked.state.calls[caller]? with
    | some call =>
      if call.phase = .waiting then
        match claim digest tracked.state.store call.request now with
        | .ok (_, .created request) => Function.update tracked.origins request.key (some ⟨caller, none⟩)
        | _ => tracked.origins
      else tracked.origins
    | none => tracked.origins
  | .finish caller outcome now =>
    match tracked.state.calls[caller]? with
    | some call =>
      match call.phase, recordOutcome tracked.state.store call.request outcome now, recorded outcome with
      | .invoking request _, .ok _, some (_, result) =>
        Function.update tracked.origins request.key
          ((tracked.origins request.key).map (Origin.finishBy caller result))
      | _, _, _ => tracked.origins
    | none => tracked.origins
  | _ => tracked.origins

/-- A step of the run, and the record that follows it. -/
def track (tracked : Tracked) (op : Op) : Tracked :=
  ⟨step digest tracked.state op, originsAfter digest tracked op⟩

end Track

/-- Every row that a call of `execute` finished holds the result of the call that created the
claim in it. -/
def OwnResults (tracked : Tracked) : Prop :=
  ∀ key origin caller result, tracked.origins key = some origin → origin.finisher = some (caller, result) →
    caller = origin.creator ∧
      ∃ row, tracked.state.store.effect key = some row ∧ row.status ≠ .pending ∧ row.result = some (some result)

/-- A call records its outcome only while no retry of its key was decided since its claim, or
while no claim of the key is pending. -/
def Unsuperseded (tracked : Tracked) : Op → Prop
  | .finish caller outcome _ =>
    ∀ call request before row, tracked.state.calls[caller]? = some call → call.phase = .invoking request before →
      outcome ≠ .unserializable → tracked.state.store.effect request.key = some row → row.status = .pending →
      before = tracked.state.store.retries request.key
  | _ => True

section Store

variable {store stored : EffectStore}

/-- What recording an outcome does to the store. -/
theorem recordOutcome_ok {digest : String → String → String} {request : Request} {resolved : Resolved}
    {outcome : InvokeOutcome} {now : Nat} (resolves : resolve digest request = .ok resolved)
    (done : recordOutcome store request outcome now = .ok stored) :
    ∃ status result, recorded outcome = some (status, result) ∧ status ≠ .pending ∧
      (∃ row ∈ store.effects, row.key = resolved.key ∧ row.status = .pending) ∧
      stored = store.resolvePending resolved.key status (some result) now := by
  have finishing : ∀ {status result}, finish store request.tenantId request.idempotencyKey status result now = .ok stored →
      (∃ row ∈ store.effects, row.key = resolved.key ∧ row.status = .pending) ∧
        stored = store.resolvePending resolved.key status (some result) now := by
    intro status result finished
    unfold finish at finished
    rw [resolve_key resolves, ok_bind] at finished
    split at finished
    · cases finished
    · rename_i one
      cases finished
      have some : 0 < store.effects.countP fun row => row.key == resolved.key && row.status == .pending := by omega
      obtain ⟨row, member, chosen⟩ := List.countP_pos_iff.mp some
      simp only [Bool.and_eq_true, beq_iff_eq] at chosen
      exact ⟨⟨row, member, chosen⟩, rfl⟩
  cases outcome with
  | value value => exact ⟨_, _, rfl, by simp, finishing done⟩
  | exception code => exact ⟨_, _, rfl, by simp, finishing done⟩
  | unserializable => cases done

/-- Recording an outcome succeeds when the one row of the key is pending. -/
theorem recordOutcome_pending {digest : String → String → String} {request : Request} {resolved : Resolved}
    {outcome : InvokeOutcome} {now : Nat} {row : Effect} (resolves : resolve digest request = .ok resolved)
    (serializable : outcome ≠ .unserializable) (distinct : (store.effects.map Effect.key).Nodup)
    (found : store.effect resolved.key = some row) (pending : row.status = .pending) :
    ∃ stored, recordOutcome store request outcome now = .ok stored := by
  have single : store.effects.countP (fun row => row.key == resolved.key && row.status == .pending) = 1 := by
    rw [Rows.countP_key distinct]
    change (if (store.effect resolved.key).any (fun row => row.status == .pending) then 1 else 0) = 1
    rw [found]
    simp [pending]
  have finishing : ∀ status result,
      ∃ stored, finish store request.tenantId request.idempotencyKey status result now = .ok stored := by
    intro status result
    refine ⟨store.resolvePending resolved.key status (some result) now, ?_⟩
    unfold finish
    rw [resolve_key resolves, ok_bind, if_neg (by simp [single])]
  cases outcome with
  | value value => exact finishing _ _
  | exception code => exact finishing _ _
  | unserializable => exact absurd rfl serializable

/-- What a decision does to the store. -/
inductive Decided (store : EffectStore) : EffectStore → Prop where
  | unchanged : Decided store store
  | resolved (key : EffectKey) (status : EffectStatus) (result : Option JsonObject) (now : Nat) (entry : Reconciliation)
      (final : status ≠ .pending) (kept : entry.decision ≠ .retryNoEffect) :
      Decided store ((store.resolvePending key status result now).record entry)
  | freed (key : EffectKey) (entry : Reconciliation) (own : entry.key = key) (retry : entry.decision = .retryNoEffect)
      (row : Effect) (found : store.effect key = some row) (pending : row.status = .pending) :
      Decided store
        (EffectStore.record { store with effects := store.effects.filter fun row => row.key != key } entry)

theorem reconcilePending_decided {request : ReconcileRequest} {now : Nat}
    (done : reconcilePending store request now = .ok stored) : Decided store stored := by
  unfold reconcilePending at done
  obtain ⟨key, _, done⟩ := bind_eq_ok done
  obtain ⟨actor, _, done⟩ := bind_eq_ok done
  simp only at done
  split at done
  · cases done
  cases found : store.effect key with
  | none => simp [found] at done
  | some row =>
    simp only [found] at done
    split at done
    · split at done
      · cases done
        exact .unchanged
      · cases done
    · rename_i pending
      simp only [ne_eq, not_not] at pending
      cases done
      cases decision : request.decision with
      | retryNoEffect =>
        simp only [EffectStore.decide, decision]
        exact .freed key _ rfl rfl row found pending
      | confirmApplied =>
        simp only [EffectStore.decide, decision]
        exact .resolved key _ _ now _ (by simp) (by simp)
      | reject =>
        simp only [EffectStore.decide, decision]
        exact .resolved key _ _ now _ (by simp) (by simp)

end Store

/-- A call that created a claim and has not ended. -/
def Held (state : State) (caller : Nat) (request : Resolved) (before : Nat) : Prop :=
  ∃ call, state.calls[caller]? = some call ∧ call.phase.holds = some (request, before)

section Owned

variable (digest : String → String → String)

structure Owned (tracked : Tracked) : Prop where
  keyed : (tracked.state.store.effects.map Effect.key).Nodup
  resolved : ∀ call ∈ tracked.state.calls, ∀ request before, call.phase.holds = some (request, before) →
    resolve digest call.request = .ok request
  bounded : ∀ caller request before, Held tracked.state caller request before →
    before ≤ tracked.state.store.retries request.key
  /-- a call whose claim was not removed is the creator of the claim in the row -/
  current : ∀ caller request before, Held tracked.state caller request before →
    before = tracked.state.store.retries request.key →
      (tracked.state.store.effect request.key).isSome ∧
        ∃ origin, tracked.origins request.key = some origin ∧ origin.creator = caller
  /-- and the creator of the claim in a row has seen every retry of the key -/
  created : ∀ key row, tracked.state.store.effect key = some row →
    ∃ origin, tracked.origins key = some origin ∧ ∀ request before, Held tracked.state origin.creator request before →
      request.key = key → before = tracked.state.store.retries key
  own : OwnResults tracked

variable {digest} {tracked : Tracked}

theorem enter_lookup {state : State} {caller : Nat} {call : Call} (found : state.calls[caller]? = some call)
    (phase : Phase) (other : Nat) :
    (state.enter caller call phase).calls[other]? =
      if other = caller then some { call with phase := phase } else state.calls[other]? := by
  obtain ⟨inside, _⟩ := List.getElem?_eq_some_iff.mp found
  by_cases same : other = caller
  · subst same
    simp [State.enter, inside]
  · simp [State.enter, List.getElem?_set_ne (Ne.symm same), same]

/-- Entering a phase that holds nothing new adds no holder. -/
theorem Held.of_enter {state : State} {caller other : Nat} {call : Call} {phase : Phase} {request : Resolved}
    {before : Nat} (found : state.calls[caller]? = some call)
    (kept : phase.holds = none ∨ phase.holds = call.phase.holds)
    (held : Held (state.enter caller call phase) other request before) : Held state other request before := by
  obtain ⟨now, present, holds⟩ := held
  rw [enter_lookup found] at present
  split at present
  · rename_i same
    cases present
    rcases kept with ended | still
    · simp only [ended] at holds
      cases holds
    · exact ⟨call, by rw [same]; exact found, by rw [← still]; exact holds⟩
  · exact ⟨now, present, holds⟩

/-- The state changes, but no call gains a claim, no row goes and the results stay. -/
theorem Owned.moved {state : State} {origins : EffectKey → Option Origin} (owned : Owned digest tracked)
    (keyed : (state.store.effects.map Effect.key).Nodup)
    (resolved : ∀ call ∈ state.calls, ∀ request before, call.phase.holds = some (request, before) →
      resolve digest call.request = .ok request)
    (held : ∀ caller request before, Held state caller request before → Held tracked.state caller request before)
    (retries : ∀ key, state.store.retries key = tracked.state.store.retries key)
    (rows : ∀ key, (state.store.effect key).isSome = (tracked.state.store.effect key).isSome)
    (creators : ∀ key, (origins key).map Origin.creator = (tracked.origins key).map Origin.creator)
    (own : OwnResults ⟨state, origins⟩) : Owned digest ⟨state, origins⟩ := by
  have creator : ∀ {key origin}, tracked.origins key = some origin →
      ∃ now, origins key = some now ∧ now.creator = origin.creator := by
    intro key origin known
    have same := creators key
    rw [known] at same
    obtain ⟨now, present, equal⟩ := Option.map_eq_some_iff.mp same
    exact ⟨now, present, equal⟩
  refine ⟨keyed, resolved, ?_, ?_, ?_, own⟩
  · intro caller request before holds
    rw [retries]
    exact owned.bounded caller request before (held _ _ _ holds)
  · intro caller request before holds current
    rw [retries] at current
    obtain ⟨present, origin, known, creates⟩ := owned.current caller request before (held _ _ _ holds) current
    obtain ⟨now, there, same⟩ := creator known
    exact ⟨by rw [rows]; exact present, now, there, same.trans creates⟩
  · intro key row found
    have present : (tracked.state.store.effect key).isSome := by
      rw [← rows, found]
      rfl
    obtain ⟨old, there⟩ := Option.isSome_iff_exists.mp present
    obtain ⟨origin, known, seen⟩ := owned.created key old there
    obtain ⟨now, here, same⟩ := creator known
    refine ⟨now, here, fun request before holds mine => ?_⟩
    rw [same] at holds
    rw [retries]
    exact seen request before (held _ _ _ holds) mine

theorem Owned.resolved_enter (owned : Owned digest tracked) {caller : Nat} {call : Call} {phase : Phase}
    (found : tracked.state.calls[caller]? = some call) (kept : phase.holds = none ∨ phase.holds = call.phase.holds)
    (member : Call) (inside : member ∈ (tracked.state.enter caller call phase).calls) (request : Resolved) (before : Nat)
    (holds : member.phase.holds = some (request, before)) : resolve digest member.request = .ok request := by
  rcases List.mem_or_eq_of_mem_set inside with old | new
  · exact owned.resolved member old request before holds
  · subst new
    rcases kept with ended | still
    · simp only [ended] at holds
      cases holds
    · exact owned.resolved call (List.mem_of_getElem? found) request before (by rw [← still]; exact holds)

/-- A call ends, or goes on with the claim it holds. -/
theorem Owned.enter (owned : Owned digest tracked) {caller : Nat} {call : Call} {phase : Phase}
    (found : tracked.state.calls[caller]? = some call) (kept : phase.holds = none ∨ phase.holds = call.phase.holds)
    (invocations : List EffectKey) :
    Owned digest ⟨{ tracked.state with invocations := invocations }.enter caller call phase, tracked.origins⟩ :=
  owned.moved owned.keyed (owned.resolved_enter found kept) (fun _ _ _ held => held.of_enter found kept)
    (fun _ => rfl) (fun _ => rfl) (fun _ => rfl) owned.own

theorem Owned.arrive (owned : Owned digest tracked) (request : Request) :
    Owned digest ⟨{ tracked.state with calls := tracked.state.calls ++ [⟨request, .waiting⟩] }, tracked.origins⟩ := by
  refine owned.moved owned.keyed ?_ ?_ (fun _ => rfl) (fun _ => rfl) (fun _ => rfl) owned.own
  · intro call member named before holds
    rcases List.mem_append.mp member with old | new
    · exact owned.resolved call old named before holds
    · rw [List.mem_singleton.mp new] at holds
      cases holds
  · rintro caller named before ⟨call, present, holds⟩
    rw [List.getElem?_append] at present
    split at present
    · exact ⟨call, present, holds⟩
    · have new := List.mem_of_getElem? present
      rw [List.mem_singleton.mp new] at holds
      cases holds

/-- A new claim: its key had no row, so nobody else holds it. -/
theorem Owned.claim (owned : Owned digest tracked) {caller : Nat} {call : Call} {request : Resolved} {now : Nat}
    {stored : EffectStore} (found : tracked.state.calls[caller]? = some call)
    (resolves : resolve digest call.request = .ok request) (free : tracked.state.store.effect request.key = none)
    (inserted : stored = { tracked.state.store with effects := tracked.state.store.effects ++ [request.row now] }) :
    Owned digest ⟨{ tracked.state with store := stored }.enter caller call
        (.claimed request (tracked.state.store.retries request.key)),
      Function.update tracked.origins request.key (some ⟨caller, none⟩)⟩ := by
  -- a holder is an earlier one, or the caller
  have holders : ∀ {other named before}, Held ({ tracked.state with store := stored }.enter caller call
        (.claimed request (tracked.state.store.retries request.key))) other named before →
      (other ≠ caller ∧ Held tracked.state other named before) ∨
        (other = caller ∧ named = request ∧ before = tracked.state.store.retries request.key) := by
    rintro other named before ⟨now, present, holds⟩
    have looked : (tracked.state.enter caller call
      (.claimed request (tracked.state.store.retries request.key))).calls[other]? = some now := present
    rw [enter_lookup found] at looked
    split at looked
    · rename_i same
      cases looked
      cases holds
      exact Or.inr ⟨same, rfl, rfl⟩
    · rename_i apart
      exact Or.inl ⟨apart, now, looked, holds⟩
  have appended : ∀ key, stored.effect key =
      if request.key = key then some (request.row now) else tracked.state.store.effect key := by
    intro key
    rw [inserted, effect_append]
    by_cases same : request.key = key
    · subst same
      simp [free, Resolved.row]
    · simp [same, Resolved.row]
  have retries : ∀ key, stored.retries key = tracked.state.store.retries key := by
    intro key
    rw [inserted]
    rfl
  refine ⟨?_, ?_, ?_, ?_, ?_, ?_⟩
  · change (stored.effects.map Effect.key).Nodup
    rw [inserted, List.map_append, List.map_singleton, List.nodup_append]
    refine ⟨owned.keyed, List.nodup_singleton _, ?_⟩
    rintro key member _ new rfl
    rw [List.mem_singleton] at new
    obtain ⟨row, inside, same⟩ := List.mem_map.mp member
    have absent := List.find?_eq_none.mp free row inside
    exact absent (by rw [same, new]; exact beq_self_eq_true _)
  · intro other member named before holds
    rcases List.mem_or_eq_of_mem_set member with old | new
    · exact owned.resolved other old named before holds
    · subst new
      cases holds
      exact resolves
  · intro other named before held
    rcases holders held with ⟨_, old⟩ | ⟨_, rfl, rfl⟩
    · exact (owned.bounded other named before old).trans (Nat.le_of_eq (retries _).symm)
    · exact Nat.le_of_eq (retries _).symm
  · intro other named before held current
    change (stored.effect named.key).isSome ∧ _
    change before = stored.retries named.key at current
    rw [retries] at current
    rw [appended]
    rcases holders held with ⟨_, old⟩ | ⟨rfl, rfl, rfl⟩
    · obtain ⟨present, origin, known, creates⟩ := owned.current other named before old current
      have apart : request.key ≠ named.key := by
        intro same
        rw [← same, free] at present
        cases present
      rw [if_neg apart]
      exact ⟨present, origin, (Function.update_of_ne (Ne.symm apart) _ _).trans known, creates⟩
    · exact ⟨by simp, _, Function.update_self _ _ _, rfl⟩
  · intro key row there
    change stored.effect key = _ at there
    rw [appended] at there
    change ∃ origin, _ ∧ ∀ named before, _ → _ → before = stored.retries key
    rw [retries]
    by_cases same : request.key = key
    · subst same
      refine ⟨_, Function.update_self _ _ _, fun named before held mine => ?_⟩
      rcases holders held with ⟨apart, _⟩ | ⟨_, _, rfl⟩
      · exact absurd rfl apart
      · rfl
    · rw [if_neg same] at there
      obtain ⟨origin, known, seen⟩ := owned.created key row there
      refine ⟨origin, (Function.update_of_ne (Ne.symm same) _ _).trans known, fun named before held mine => ?_⟩
      rcases holders held with ⟨_, old⟩ | ⟨_, rfl, _⟩
      · exact seen named before old mine
      · exact absurd mine same
  · intro key origin finisher result known finished
    by_cases same : key = request.key
    · subst same
      cases (Function.update_self _ _ _).symm.trans known
      cases finished
    · have before := (Function.update_of_ne same _ _).symm.trans known
      obtain ⟨mine, row, there, final, holds⟩ := owned.own key origin finisher result before finished
      refine ⟨mine, row, ?_, final, holds⟩
      change stored.effect key = _
      rw [appended, if_neg (Ne.symm same)]
      exact there

theorem keyed_resolvePending {store : EffectStore} (keyed : (store.effects.map Effect.key).Nodup) (key : EffectKey)
    (status : EffectStatus) (result : Option JsonObject) (now : Nat) :
    ((store.resolvePending key status result now).effects.map Effect.key).Nodup := by
  have same : (store.resolvePending key status result now).effects.map Effect.key = store.effects.map Effect.key := by
    apply Rows.map_update
    intro row _
    rfl
  rw [same]
  exact keyed

theorem isSome_resolvePending (store : EffectStore) (key other : EffectKey) (status : EffectStatus)
    (result : Option JsonObject) (now : Nat) :
    ((store.resolvePending key status result now).effect other).isSome = (store.effect other).isSome := by
  rw [effect_resolvePending, Option.isSome_map]

/-- A row that is not pending stays as it is. -/
theorem effect_resolvePending_of_final {store : EffectStore} {other : EffectKey} {row : Effect}
    (found : store.effect other = some row) (final : row.status ≠ .pending) (key : EffectKey) (status : EffectStatus)
    (result : Option JsonObject) (now : Nat) :
    (store.resolvePending key status result now).effect other = some row := by
  rw [effect_resolvePending, found]
  simp [final]

/-- A call that still owns the claim in the row records its own result there. -/
theorem Owned.finish (owned : Owned digest tracked) {caller : Nat} {call : Call} {request : Resolved} {before : Nat}
    {outcome : InvokeOutcome} {now : Nat} {stored : EffectStore} {status : EffectStatus} {result : JsonObject}
    {phase : Phase} (found : tracked.state.calls[caller]? = some call) (invoking : call.phase = .invoking request before)
    (ended : phase.holds = none) (final : status ≠ .pending)
    (pending : ∃ row ∈ tracked.state.store.effects, row.key = request.key ∧ row.status = .pending)
    (written : stored = tracked.state.store.resolvePending request.key status (some result) now)
    (serializable : outcome ≠ .unserializable) (allowed : Unsuperseded tracked (.finish caller outcome now)) :
    Owned digest ⟨{ tracked.state with store := stored }.enter caller call phase,
      Function.update tracked.origins request.key
        ((tracked.origins request.key).map (Origin.finishBy caller result))⟩ := by
  obtain ⟨row, member, named, waiting⟩ := pending
  have there : tracked.state.store.effect request.key = some row := by
    rw [← named]
    exact Rows.find_of_mem owned.keyed member
  have mine := allowed call request before row found invoking serializable there waiting
  obtain ⟨_, origin, known, creates⟩ :=
    owned.current caller request before ⟨call, found, by rw [invoking]; rfl⟩ mine
  subst written
  refine owned.moved ?_ (owned.resolved_enter found (Or.inl ended)) (fun _ _ _ held => held.of_enter found (Or.inl ended))
    (fun _ => rfl) ?_ ?_ ?_
  · exact keyed_resolvePending owned.keyed _ _ _ _
  · exact fun key => isSome_resolvePending _ _ _ _ _ _
  · intro key
    by_cases same : key = request.key
    · subst same
      rw [Function.update_self, known]
      rfl
    · rw [Function.update_of_ne same]
  · intro key now finisher wrote recordedBy finished
    by_cases same : key = request.key
    · subst same
      have updated := (Function.update_self _ _ _).symm.trans recordedBy
      rw [known] at updated
      cases updated
      cases finished
      refine ⟨creates.symm, _, (effect_resolvePending _ _ _ _ _).trans (congrArg _ there), ?_⟩
      simp [named, waiting, Idempotency.finished, final]
    · have earlier := (Function.update_of_ne same _ _).symm.trans recordedBy
      obtain ⟨own, row, present, done, holds⟩ := owned.own key now finisher wrote earlier finished
      exact ⟨own, row, effect_resolvePending_of_final present done _ _ _ _, done, holds⟩

theorem Owned.decide (owned : Owned digest tracked) {stored : EffectStore}
    (decided : Decided tracked.state.store stored) :
    Owned digest ⟨{ tracked.state with store := stored }, tracked.origins⟩ := by
  cases decided with
  | unchanged => exact owned
  | resolved key status result now entry final kept =>
    refine owned.moved ?_ owned.resolved (fun _ _ _ held => held) ?_ ?_ (fun _ => rfl) ?_
    · exact keyed_resolvePending owned.keyed _ _ _ _
    · intro other
      rw [retries_record]
      simp [kept, EffectStore.retries, EffectStore.resolvePending]
    · exact fun other => isSome_resolvePending _ _ _ _ _ _
    · intro other origin finisher wrote known finished
      obtain ⟨own, row, present, done, holds⟩ := owned.own other origin finisher wrote known finished
      exact ⟨own, row, effect_resolvePending_of_final present done _ _ _ _, done, holds⟩
  | freed key entry own retry row found pending =>
    have effects : ∀ other, (EffectStore.record { tracked.state.store with
        effects := tracked.state.store.effects.filter fun row => row.key != key } entry).effect other =
        if other = key then none else tracked.state.store.effect other := effect_delete key
    have retries : ∀ other, (EffectStore.record { tracked.state.store with
        effects := tracked.state.store.effects.filter fun row => row.key != key } entry).retries other =
        tracked.state.store.retries other + if key = other then 1 else 0 := by
      intro other
      rw [retries_record]
      simp [own, retry, EffectStore.retries]
    refine ⟨?_, owned.resolved, ?_, ?_, ?_, ?_⟩
    · exact (List.filter_sublist.map Effect.key).nodup owned.keyed
    · intro caller request before held
      have bounded := owned.bounded caller request before held
      change before ≤ EffectStore.retries _ _
      rw [retries]
      omega
    · intro caller request before held current
      have bounded := owned.bounded caller request before held
      change before = EffectStore.retries _ _ at current
      change (EffectStore.effect _ _).isSome ∧ _
      rw [retries] at current
      by_cases same : key = request.key
      · rw [if_pos same] at current
        omega
      · rw [if_neg same, Nat.add_zero] at current
        rw [effects, if_neg (Ne.symm same)]
        exact owned.current caller request before held current
    · intro other now present
      change EffectStore.effect _ _ = _ at present
      rw [effects] at present
      by_cases same : other = key
      · rw [if_pos same] at present
        cases present
      · rw [if_neg same] at present
        obtain ⟨origin, known, seen⟩ := owned.created other now present
        refine ⟨origin, known, fun request before held mine => ?_⟩
        rw [retries, if_neg (Ne.symm same), Nat.add_zero]
        exact seen request before held mine
    · intro other origin finisher wrote known finished
      obtain ⟨mine, now, present, done, holds⟩ := owned.own other origin finisher wrote known finished
      refine ⟨mine, now, ?_, done, holds⟩
      rw [effects, if_neg]
      · exact present
      · rintro rfl
        rw [found] at present
        cases present
        exact done pending

theorem start_owned : Owned digest .start where
  keyed := List.nodup_nil
  resolved := by
    intro call member
    cases member
  bounded := by
    rintro caller request before ⟨call, present, _⟩
    cases present
  current := by
    rintro caller request before ⟨call, present, _⟩
    cases present
  created := by
    intro key row found
    cases found
  own := by
    intro key origin caller result known
    cases known

theorem track_owned (op : Op) (owned : Owned digest tracked) (allowed : Unsuperseded tracked op) :
    Owned digest (track digest tracked op) := by
  cases op with
  | execute request => exact owned.arrive request
  | claim caller now =>
    simp only [track, step, originsAfter]
    cases found : tracked.state.calls[caller]? with
    | none => exact owned
    | some call =>
      by_cases waiting : call.phase = .waiting
      · simp only [waiting, if_true, claimStep]
        cases done : claim digest tracked.state.store call.request now with
        | error error => exact owned.enter found (Or.inl rfl) _
        | ok pair =>
          obtain ⟨stored, outcome⟩ := pair
          cases outcome with
          | created request =>
            obtain ⟨resolves, free, inserted⟩ := claim_created done
            exact owned.claim found resolves free inserted
          | replayed result =>
            obtain ⟨_, ⟨_, _, rfl⟩ | ⟨_, other, _⟩⟩ := claim_bound done
            · exact owned.enter found (Or.inl rfl) _
            · cases other
      · simp only [waiting, if_false]
        exact owned
  | invoke caller =>
    simp only [track, step, originsAfter]
    cases found : tracked.state.calls[caller]? with
    | none => exact owned
    | some call =>
      cases phase : call.phase with
      | claimed request before =>
        simp only [phase]
        exact owned.enter found (Or.inr (by rw [phase]; rfl)) _
      | waiting | invoking | returned | raised | crashed =>
        simp only [phase]
        exact owned
  | finish caller outcome now =>
    simp only [track, step, originsAfter]
    cases found : tracked.state.calls[caller]? with
    | none => exact owned
    | some call =>
      cases phase : call.phase with
      | invoking request before =>
        have resolves := owned.resolved call (List.mem_of_getElem? found) request before (by rw [phase]; rfl)
        simp only [phase, finishStep]
        cases done : recordOutcome tracked.state.store call.request outcome now with
        | error error => exact owned.enter found (Or.inl rfl) _
        | ok stored =>
          obtain ⟨status, result, writes, final, pending, written⟩ := recordOutcome_ok resolves done
          simp only [writes]
          refine owned.finish found phase ?_ final pending written ?_ allowed
          · cases outcome <;> rfl
          · rintro rfl
            cases writes
      | waiting | claimed | returned | raised | crashed =>
        simp only [phase]
        exact owned
  | crash caller =>
    simp only [track, step, originsAfter]
    cases found : tracked.state.calls[caller]? with
    | none => exact owned
    | some call =>
      cases phase : call.phase with
      | waiting | claimed | invoking =>
        simp only [phase]
        exact owned.enter found (Or.inl rfl) _
      | returned | raised | crashed =>
        simp only [phase]
        exact owned
  | reconcile request now =>
    simp only [track, step, originsAfter]
    cases done : reconcilePending tracked.state.store request now with
    | error error => exact owned
    | ok stored => exact owned.decide (reconcilePending_decided done)

/-- A superseded call that meets a pending claim finishes it in the place of its creator. -/
theorem unsuperseded_of_own (op : Op) (owned : Owned digest tracked) (own : OwnResults (track digest tracked op)) :
    Unsuperseded tracked op := by
  cases op with
  | finish caller outcome now =>
    intro call request before row found invoking serializable there pending
    have resolves := owned.resolved call (List.mem_of_getElem? found) request before (by rw [invoking]; rfl)
    obtain ⟨stored, done⟩ := @recordOutcome_pending tracked.state.store digest call.request request outcome now row resolves serializable owned.keyed there pending
    obtain ⟨status, result, writes, _⟩ := recordOutcome_ok resolves done
    obtain ⟨origin, known, seen⟩ := owned.created request.key row there
    have after : (track digest tracked (.finish caller outcome now)).origins request.key =
        some (origin.finishBy caller result) := by
      simp [track, originsAfter, found, invoking, done, writes, known]
    have mine : caller = origin.creator := (own request.key _ caller result after rfl).1
    exact seen request before ⟨call, by rw [← mine]; exact found, by rw [invoking]; rfl⟩ rfl
  | execute | claim | invoke | crash | reconcile => trivial

end Owned

/-- The run that is followed is the run of `execute` calls. -/
theorem exec_track_state (digest : String → String → String) (ops : List Op) :
    (Run.exec (track digest) .start ops).state = Run.exec (step digest) .start ops :=
  Run.exec_map Tracked.state (fun _ _ => rfl) .start ops

/-- Finished effects record the result of the call that created their claim exactly in the runs
where no superseded call meets the claim of another. -/
theorem finished_effects_are_own (digest : String → String → String) (ops : List Op) :
    (∀ n, OwnResults (Run.exec (track digest) .start (ops.take n))) ↔
      Run.Guarded (track digest) Unsuperseded .start ops :=
  @Run.prefixes_iff_guarded _ _ (track digest) (Owned digest) OwnResults (fun _ _ => True) Unsuperseded
    (fun _ owned => owned.own) (fun _ op owned _ allowed => track_owned op owned allowed)
    (fun _ op owned _ own => unsuperseded_of_own op owned own) _ start_owned ops
    (Run.Guarded.of_forall (fun _ _ => trivial) _ _)

def sampleDigest (operation requestHash : String) : String := operation ++ ":" ++ requestHash

def sampleRequest : Request := ⟨"owner", "send", "key", "hash"⟩

/-- The owner decides on a retry while the first call is still at the provider; it comes back
when the second one has claimed the key. -/
def supersededRun : List Op :=
  [.execute sampleRequest, .execute sampleRequest, .claim 0 1, .invoke 0,
    .reconcile ⟨"owner", "key", .retryNoEffect, "owner", "timed out", none⟩ 2, .claim 1 3, .invoke 1,
    .finish 0 (.value (.other "first")) 4]

theorem superseded_call_finishes_later_claim : ¬ OwnResults (Run.exec (track sampleDigest) .start supersededRun) := by
  intro own
  have finished : (Run.exec (track sampleDigest) .start supersededRun).origins ("owner", "key") =
      some ⟨1, some (0, [("value", "first")])⟩ := by decide +kernel
  exact absurd (own _ _ 0 _ finished rfl).1 (by decide)

end OpenTulpa.Persistence.ClaimOwnership
