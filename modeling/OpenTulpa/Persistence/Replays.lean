import OpenTulpa.Persistence.ClaimOwnership

/-! What a later call of `execute` is answered with once an effect is committed. The row of an object holds the object;
the row of any other value holds an object around it, and that is what comes back. -/

namespace OpenTulpa.Persistence.Replays

open Library Text Outcome Idempotency AtMostOnce ClaimOwnership

section Sound

variable (digest : String → String → String)

/-- There is one row for a key, and a call holds the claim that its request resolves to. -/
structure Sound (state : State) : Prop where
  keyed : (state.store.effects.map Effect.key).Nodup
  resolved : ∀ call ∈ state.calls, ∀ request before, call.phase.holds = some (request, before) →
    resolve digest call.request = .ok request

variable {digest} {state : State}

theorem Sound.enter (sound : Sound digest state) {caller : Nat} {call : Call} {phase : Phase}
    (own : ∀ request before, phase.holds = some (request, before) → resolve digest call.request = .ok request)
    {stored : EffectStore} (keyed : (stored.effects.map Effect.key).Nodup) (invocations : List EffectKey) :
    Sound digest (State.enter ⟨stored, state.calls, invocations⟩ caller call phase) := by
  refine ⟨keyed, fun other member request before holds => ?_⟩
  rcases List.mem_or_eq_of_mem_set member with old | rfl
  · exact sound.resolved other old request before holds
  · exact own request before holds

theorem Sound.ended (sound : Sound digest state) {caller : Nat} {call : Call} {phase : Phase} (none : phase.holds = none)
    (invocations : List EffectKey) : Sound digest (State.enter ⟨state.store, state.calls, invocations⟩ caller call phase) := by
  refine sound.enter (fun request before holds => ?_) sound.keyed invocations
  rw [none] at holds
  cases holds

theorem claim_replayed {store stored : EffectStore} {request : Request} {now : Nat} {fields : JsonObject}
    (done : claim digest store request now = .ok (stored, .replayed fields)) :
    stored = store ∧ ∃ resolved row, resolve digest request = .ok resolved ∧ store.effect resolved.key = some row ∧
      row.status = .completed ∧ row.matches resolved = true ∧ row.replay = fields := by
  unfold claim at done
  obtain ⟨resolved, resolves, done⟩ := bind_eq_ok done
  cases found : store.effect resolved.key with
  | none => simp [found] at done
  | some row =>
    simp only [found] at done
    split at done
    · cases done
    · rename_i same
      cases status : row.status with
      | pending | failed => simp [status] at done
      | completed =>
        simp only [status, Except.ok.injEq, Prod.mk.injEq, IdempotencyClaim.replayed.injEq] at done
        exact ⟨done.1.symm, resolved, row, resolves, found, status, by simpa using same, done.2⟩

theorem keyed_append {store : EffectStore} (keyed : (store.effects.map Effect.key).Nodup) {row : Effect}
    (free : store.effect row.key = none) : ((store.effects ++ [row]).map Effect.key).Nodup := by
  have absent : row.key ∉ store.effects.map Effect.key := by
    rintro member
    obtain ⟨other, inside, same⟩ := List.mem_map.mp member
    have apart := List.find?_eq_none.mp free other inside
    exact apart (by rw [same, beq_self_eq_true])
  rw [List.map_append, List.map_singleton]
  exact List.nodup_append.mpr ⟨keyed, List.nodup_singleton _, fun first left second right same =>
    absent (by rw [← List.mem_singleton.mp right, ← same]; exact left)⟩

theorem recordOutcome_keyed {store stored : EffectStore} (keyed : (store.effects.map Effect.key).Nodup) {request : Request}
    {resolved : Resolved} {outcome : InvokeOutcome} {now : Nat} (resolves : resolve digest request = .ok resolved)
    (done : recordOutcome store request outcome now = .ok stored) : (stored.effects.map Effect.key).Nodup := by
  obtain ⟨status, result, _, _, _, rfl⟩ := recordOutcome_ok resolves done
  exact keyed_resolvePending keyed _ _ _ _

theorem decided_keyed {store stored : EffectStore} (decided : Decided store stored)
    (keyed : (store.effects.map Effect.key).Nodup) : (stored.effects.map Effect.key).Nodup := by
  cases decided with
  | unchanged => exact keyed
  | resolved key status result now entry final kept => exact keyed_resolvePending keyed _ _ _ _
  | freed key entry own retry row found pending => exact keyed.sublist (List.filter_sublist.map _)

theorem recordOutcome_settled {store stored : EffectStore} {request : Request} {outcome : InvokeOutcome} {now : Nat}
    (done : recordOutcome store request outcome now = .ok stored) {key : EffectKey} {row : Effect}
    (found : store.effect key = some row) (settled : row.status ≠ .pending) : stored.effect key = some row := by
  have finishing {status : EffectStatus} {result : JsonObject}
      (done : finish store request.tenantId request.idempotencyKey status result now = .ok stored) :
      stored.effect key = some row := by
    unfold finish at done
    obtain ⟨named, _, done⟩ := bind_eq_ok done
    split at done
    · cases done
    · cases done
      exact effect_resolvePending_of_final found settled _ _ _ _
  cases outcome with
  | value value => exact finishing done
  | exception code => exact finishing done
  | unserializable => cases done

theorem decided_settled {store stored : EffectStore} (decided : Decided store stored) {key : EffectKey} {row : Effect}
    (found : store.effect key = some row) (settled : row.status ≠ .pending) : stored.effect key = some row := by
  cases decided with
  | unchanged => exact found
  | resolved other status result now entry final kept => exact effect_resolvePending_of_final found settled _ _ _ _
  | freed other entry own retry held there pending =>
    have apart : key ≠ other := by
      rintro rfl
      exact settled (Option.some.inj (found.symm.trans there) ▸ pending)
    exact (effect_delete other key).trans (by rw [if_neg apart, found])

theorem step_sound (state : State) (op : Op) (sound : Sound digest state) : Sound digest (step digest state op) := by
  cases op with
  | execute request =>
    refine ⟨sound.keyed, fun call member named before holds => ?_⟩
    rcases List.mem_append.mp member with old | new
    · exact sound.resolved call old named before holds
    · rw [List.mem_singleton.mp new] at holds
      cases holds
  | claim caller now =>
    simp only [step]
    split
    · rename_i call found
      split
      · simp only [claimStep]
        split
        · rename_i stored request done
          obtain ⟨resolves, free, rfl⟩ := claim_created done
          refine sound.enter (fun named before holds => ?_) (keyed_append sound.keyed free) _
          obtain ⟨rfl, _⟩ := Prod.mk.inj (Option.some.inj holds)
          exact resolves
        · rename_i stored fields done
          rw [(claim_replayed done).1]
          exact sound.ended rfl _
        · exact sound.ended rfl _
      · exact sound
    · exact sound
  | invoke caller =>
    simp only [step]
    split
    · rename_i call found
      split
      · rename_i request before claimed
        refine sound.enter (fun named earlier holds => ?_) sound.keyed _
        exact sound.resolved call (List.mem_of_getElem? found) named earlier (by rw [claimed]; exact holds)
      · exact sound
    · exact sound
  | finish caller outcome now =>
    simp only [step]
    split
    · rename_i call found
      split
      · rename_i request before invoking
        have resolves := sound.resolved call (List.mem_of_getElem? found) request before (by rw [invoking]; rfl)
        simp only [finishStep]
        split
        · rename_i stored done
          refine sound.enter (fun named earlier holds => ?_) (recordOutcome_keyed sound.keyed resolves done) _
          cases outcome <;> cases holds
        · exact sound.ended rfl _
      · exact sound
    · exact sound
  | crash caller =>
    simp only [step]
    split
    · rename_i call found
      split <;> first
        | exact sound
        | exact sound.ended rfl _
    · exact sound
  | reconcile request now =>
    rw [step]
    cases done : reconcilePending state.store request now with
    | error error => exact sound
    | ok stored =>
      exact ⟨decided_keyed (reconcilePending_decided done) sound.keyed, sound.resolved⟩

end Sound

section Replay

variable (digest : String → String → String)

/-- A call of the request returns the value and does not call the provider. -/
def AnswersWith (state : State) (request : Request) (value : Value) : Prop :=
  ∀ now, (∃ fields, claim digest state.store request now = .ok (state.store, .replayed fields) ∧ .object fields = value) ∧
    ∀ caller call, state.calls[caller]? = some call → call.phase = .waiting → call.request = request →
      step digest state (.claim caller now) = state.enter caller call .returned

variable {digest} {state : State}

/-- A settled row stays as it is. -/
theorem step_settled {key : EffectKey} {row : Effect} (found : state.store.effect key = some row)
    (settled : row.status ≠ .pending) (op : Op) : (step digest state op).store.effect key = some row := by
  cases op with
  | execute request => exact found
  | claim caller now =>
    simp only [step]
    split
    · split
      · simp only [claimStep]
        split
        · rename_i stored request done
          obtain ⟨_, _, rfl⟩ := claim_created done
          exact (effect_append _ key).trans (by rw [found, Option.some_or])
        · rename_i stored fields done
          rw [(claim_replayed done).1]
          exact found
        · exact found
      · exact found
    · exact found
  | invoke caller =>
    simp only [step]
    split
    · split <;> exact found
    · exact found
  | finish caller outcome now =>
    simp only [step]
    split
    · split
      · simp only [finishStep]
        split
        · rename_i call _ _ _ _ stored done
          exact (recordOutcome_settled done found settled)
        · exact found
      · exact found
    · exact found
  | crash caller =>
    simp only [step]
    split
    · split <;> exact found
    · exact found
  | reconcile request now =>
    rw [step]
    cases done : reconcilePending state.store request now with
    | error error => exact found
    | ok stored => exact decided_settled (reconcilePending_decided done) found settled

theorem exec_settled {key : EffectKey} {row : Effect} (found : state.store.effect key = some row)
    (settled : row.status ≠ .pending) (ops : List Op) : (Run.exec (step digest) state ops).store.effect key = some row := by
  induction ops generalizing state with
  | nil => exact found
  | cons op ops ih => exact ih (step_settled found settled op)

/-- What a completed row answers. -/
theorem answersWith_iff {request : Request} {resolved : Resolved} {row : Effect} (resolves : resolve digest request = .ok resolved)
    (found : state.store.effect resolved.key = some row) (completed : row.status = .completed) (value : Value) :
    AnswersWith digest state request value ↔ row.matches resolved = true ∧ .object row.replay = value := by
  constructor
  · intro replays
    obtain ⟨⟨fields, done, same⟩, _⟩ := replays 0
    obtain ⟨_, named, other, resolvesTo, there, _, fits, rfl⟩ := claim_replayed done
    obtain rfl : resolved = named := Except.ok.inj (resolves.symm.trans resolvesTo)
    obtain rfl : row = other := Option.some.inj (found.symm.trans there)
    exact ⟨fits, same⟩
  · rintro ⟨fits, same⟩ now
    have done : claim digest state.store request now = .ok (state.store, .replayed row.replay) := by
      simp [claim, resolves, found, completed, fits, ok_bind]
    refine ⟨⟨row.replay, done, same⟩, ?_⟩
    rintro caller call present waiting rfl
    simp only [step, present, if_pos waiting, claimStep, done]

theorem value_replays_iff {value : Value} : Value.object value.result = value ↔ ∃ fields, value = .object fields := by
  cases value with
  | object fields => exact ⟨fun _ => ⟨fields, rfl⟩, fun _ => rfl⟩
  | other text => exact ⟨nofun, nofun⟩

/-- A committed effect replays as it was returned exactly when an object was returned and the row that it was recorded in
is that of the request. -/
theorem committed_replays_iff (ops : List Op) {caller : Nat} {call : Call} {resolved : Resolved} {before now : Nat}
    {value : Value} (found : (Run.exec (step digest) .start ops).calls[caller]? = some call)
    (invoking : call.phase = .invoking resolved before)
    (committed : (step digest (Run.exec (step digest) .start ops) (.finish caller (.value value) now)).calls[caller]? =
      some { call with phase := .returned }) :
    (∀ later request, resolve digest request = resolve digest call.request →
      AnswersWith digest (Run.exec (step digest) (step digest (Run.exec (step digest) .start ops)
        (.finish caller (.value value) now)) later) request value) ↔
      (∃ fields, value = .object fields) ∧
        bound (Run.exec (step digest) .start ops).store resolved.key = some (resolved.operation, resolved.requestHash) := by
  have empty : Sound digest .start := ⟨List.nodup_nil, nofun⟩
  have sound : Sound digest (Run.exec (step digest) .start ops) := Run.exec_invariant step_sound empty ops
  generalize Run.exec (step digest) .start ops = state at *
  have resolves := sound.resolved call (List.mem_of_getElem? found) resolved before (by rw [invoking]; rfl)
  obtain ⟨row, there, pending, after⟩ : ∃ row, state.store.effect resolved.key = some row ∧ row.status = .pending ∧
      (step digest state (.finish caller (.value value) now)).store.effect resolved.key =
        some (finished .completed (some value.result) now row) := by
    simp only [step, found, invoking, finishStep] at committed ⊢
    cases done : recordOutcome state.store call.request (.value value) now with
    | error error =>
      simp [done, State.enter, (List.getElem?_eq_some_iff.mp found).1] at committed
    | ok stored =>
      obtain ⟨status, result, written, _, ⟨row, member, named, pending⟩, rfl⟩ := recordOutcome_ok resolves done
      obtain ⟨rfl, rfl⟩ := Prod.mk.inj (Option.some.inj written)
      have there : state.store.effect resolved.key = some row := by
        rw [← named]
        exact Rows.find_of_mem sound.keyed member
      refine ⟨row, there, pending, ?_⟩
      simp only [State.enter]
      rw [effect_resolvePending, there, Option.map_some, if_pos (by simp [named, pending])]
  have stays (later : List Op) : (Run.exec (step digest) (step digest state (.finish caller (.value value) now)) later).store.effect
      resolved.key = some (finished .completed (some value.result) now row) := exec_settled after (by simp [finished]) later
  have answered (later : List Op) {request : Request} (same : resolve digest request = resolve digest call.request) :=
    answersWith_iff (same.trans resolves) (stays later) rfl value
  have fits : (finished .completed (some value.result) now row).matches resolved = true ↔
      bound state.store resolved.key = some (resolved.operation, resolved.requestHash) := by
    rw [bound, there]
    simp [Effect.matches, finished]
  constructor
  · intro replays
    have first := (answered [] rfl).mp (replays [] call.request rfl)
    exact ⟨value_replays_iff.mp first.2, fits.mp first.1⟩
  · rintro ⟨object, own⟩ later request same
    exact (answered later same).mpr ⟨fits.mpr own, value_replays_iff.mpr object⟩

/-- A call up to the start of its provider. -/
def invokedRun : List Op := [.execute sampleRequest, .claim 0 1, .invoke 0]

def sampleCall : Call := ⟨sampleRequest, .invoking ⟨("owner", "key"), "send", "send:hash"⟩ 0⟩

def finishedRun (value : Value) : State :=
  step sampleDigest (Run.exec (step sampleDigest) .start invokedRun) (.finish 0 (.value value) 2)

theorem committed_replays_object : AnswersWith sampleDigest
    (Run.exec (step sampleDigest) (finishedRun (.object [("id", "7")])) [.execute sampleRequest]) sampleRequest
    (.object [("id", "7")]) := by
  have found : (Run.exec (step sampleDigest) .start invokedRun).calls[0]? = some sampleCall := by decide +kernel
  have committed : (finishedRun (.object [("id", "7")])).calls[0]? = some { sampleCall with phase := .returned } := by
    decide +kernel
  exact (committed_replays_iff invokedRun found rfl committed).mpr ⟨⟨_, rfl⟩, by decide +kernel⟩ [.execute sampleRequest]
    sampleRequest rfl

/-- The number that the provider returned comes back inside an object. -/
theorem number_replays_wrapped : (finishedRun (.other "3")).calls[0]? = some { sampleCall with phase := .returned } ∧
    claim sampleDigest (finishedRun (.other "3")).store sampleRequest 3 =
      .ok ((finishedRun (.other "3")).store, .replayed [("value", "3")]) ∧
    ¬ AnswersWith sampleDigest (finishedRun (.other "3")) sampleRequest (.other "3") := by
  refine ⟨by decide +kernel, by decide +kernel, fun answers => ?_⟩
  obtain ⟨⟨fields, _, same⟩, _⟩ := answers 3
  cases same

end Replay

end OpenTulpa.Persistence.Replays
