import OpenTulpa.Host.Journal

/-! What couples the pending attempt to the source state. Nothing in the schema states
it: a pending attempt was begun on the release that is still active, and the release
recorded as last good is the active one. -/

namespace OpenTulpa.Host.JournalInvariant

open Library Text Outcome Journal

inductive Op where
  | releaseForCommit (sourceCommit : String) (now : Nat)
  | initializeSource (sourceCommit : String) (now : Nat)
  | begin (request : BeginRequest) (now : Nat)
  | completeSuccess (activationId : String) (result : JsonObject) (now : Nat)
  | completeFailure (activationId : String) (rolledBack : Bool) (result : JsonObject) (now : Nat)
  | completeRecovery (failedReleaseId selectedReleaseId : String) (invalidatePending : Bool) (now : Nat)
  | markNotified (activationId : String) (now : Nat)
  deriving DecidableEq

section Step

variable (activationId : String → String → String)

def step (journal : ActivationJournal) : Op → ActivationJournal
  | .releaseForCommit source now => committed journal (releaseForCommit journal source now)
  | .initializeSource source now => committed journal (initializeSource journal source now)
  | .begin request now => committed journal (begin activationId journal request now)
  | .completeSuccess id result now => committed journal (completeSuccess journal id result now)
  | .completeFailure id rolledBack result now =>
      committed journal (completeFailure journal id rolledBack result now)
  | .completeRecovery failed selected invalidate now =>
      (completeRecovery journal failed selected invalidate now).toOption.getD journal
  | .markNotified id now => markNotified journal id now

end Step

theorem releaseForCommit_cases {journal stored : ActivationJournal} {source : String} {now : Nat}
    {release : Release} (done : releaseForCommit journal source now = .ok (stored, release)) :
    stored.state = journal.state ∧ stored.activations = journal.activations ∧
      journal.releases <+: stored.releases ∧ stored.release release.id = some release := by
  unfold releaseForCommit at done
  cases read : commit source with
  | error error => simp [read] at done
  | ok cleaned =>
    simp only [read] at done
    cases taken : journal.releases.any (fun row => row.id == releaseId cleaned || row.sourceCommit == cleaned) with
    | true =>
      simp only [taken, if_true] at done
      cases found : journal.release (releaseId cleaned) with
      | none => simp [found] at done
      | some row =>
        simp only [found] at done
        split at done
        · simp only [Except.ok.injEq, Prod.mk.injEq] at done
          obtain ⟨rfl, rfl⟩ := done
          have same : row.id = releaseId cleaned := by
            simpa using List.find?_some found
          exact ⟨rfl, rfl, List.prefix_refl _, by rw [same]; exact found⟩
        · cases done
    | false =>
      simp only [taken, Bool.false_eq_true, if_false] at done
      split at done
      · cases done
      · rename_i row found
        split at done
        · simp only [Except.ok.injEq, Prod.mk.injEq] at done
          obtain ⟨rfl, rfl⟩ := done
          have same : row.id = releaseId cleaned := by
            simpa using List.find?_some found
          exact ⟨rfl, rfl, List.prefix_append _ _, by rw [same]; exact found⟩
        · cases done

theorem initializeSource_cases {journal stored : ActivationJournal} {source : String} {now : Nat}
    {state : SourceState} (done : initializeSource journal source now = .ok (stored, state)) :
    stored.activations = journal.activations ∧ stored.state = some state ∧
      journal.releases <+: stored.releases ∧
      (journal.state = some state ∨
        (journal.state = none ∧ ∃ release, state = ⟨release, none, release, now⟩)) := by
  unfold initializeSource at done
  cases created : releaseForCommit journal source now with
  | error error => simp [created] at done
  | ok pair =>
    obtain ⟨middle, release⟩ := pair
    obtain ⟨sameState, sameRows, grown, _⟩ := releaseForCommit_cases created
    simp only [created] at done
    cases present : middle.state with
    | some current =>
      simp only [present, Except.ok.injEq, Prod.mk.injEq] at done
      obtain ⟨rfl, rfl⟩ := done
      exact ⟨sameRows, present, grown, Or.inl (sameState ▸ present)⟩
    | none =>
      simp only [present, Except.ok.injEq, Prod.mk.injEq] at done
      obtain ⟨rfl, rfl⟩ := done
      exact ⟨sameRows, rfl, grown, Or.inr ⟨sameState ▸ present, release.id, rfl⟩⟩

theorem begin_cases {activationId : String → String → String} {journal stored : ActivationJournal}
    {request : BeginRequest} {now : Nat} {row : Activation} {replayed : Bool}
    (done : begin activationId journal request now = .ok (stored, row, replayed)) :
    (stored = journal ∧ replayed = true) ∨
      (replayed = false ∧ ∃ state, journal.state = some state ∧
        state.activeReleaseId = request.previousReleaseId ∧
        row = request.row (activationId request.tenantId request.idempotencyKey) now ∧
        journal.admits row = true ∧
        stored = { journal with activations := journal.activations ++ [row] }) := by
  unfold begin at done
  split at done
  · split at done
    · cases done
    · simp only [Except.ok.injEq, Prod.mk.injEq] at done
      exact Or.inl ⟨done.1.symm, done.2.2.symm⟩
  · split at done
    · cases done
    · rename_i state present
      split at done
      · cases done
      · rename_i same
        dsimp only at done
        split at done
        · rename_i admitted
          simp only [Except.ok.injEq, Prod.mk.injEq] at done
          obtain ⟨rfl, rfl, rfl⟩ := done
          exact Or.inr ⟨rfl, state, present, not_not.mp same, rfl, admitted, rfl⟩
        · cases done

theorem completeSuccess_cases {journal stored : ActivationJournal} {id : String} {result : JsonObject}
    {now : Nat} {row : Activation} (done : completeSuccess journal id result now = .ok (stored, row)) :
    ∃ operation, journal.operation id = some operation ∧
      ((operation.status ≠ .preparing ∧ stored = journal ∧ row = operation) ∨
        (operation.status = .preparing ∧ stored = journal.install operation result now ∧
          row = succeeded result now operation ∧
          (journal.release operation.targetReleaseId).isSome ∧
          ∃ state, journal.state = some state ∧ state.activeReleaseId = operation.previousReleaseId)) := by
  unfold completeSuccess at done
  split at done
  · cases done
  · rename_i operation found
    refine ⟨operation, found, ?_⟩
    split at done
    · rename_i terminal
      simp only [Except.ok.injEq, Prod.mk.injEq] at done
      exact Or.inl ⟨terminal, done.1.symm, done.2.symm⟩
    · rename_i preparing
      split at done
      · cases done
      · rename_i state present
        split at done
        · cases done
        · rename_i same
          split at done
          · rename_i known
            simp only [Except.ok.injEq, Prod.mk.injEq] at done
            exact Or.inr ⟨not_not.mp preparing, done.1.symm, done.2.symm, known, state, present,
              not_not.mp same⟩
          · cases done

theorem completeFailure_cases {journal stored : ActivationJournal} {id : String} {rolledBack : Bool}
    {result : JsonObject} {now : Nat} {row : Activation}
    (done : completeFailure journal id rolledBack result now = .ok (stored, row)) :
    stored = journal.close id (if rolledBack then .rolledBack else .failed) result now ∧
      stored.operation id = some row := by
  simp only [completeFailure] at done
  split at done
  · cases done
  · rename_i operation found
    simp only [Except.ok.injEq, Prod.mk.injEq] at done
    obtain ⟨rfl, rfl⟩ := done
    exact ⟨rfl, found⟩

theorem completeRecovery_cases {journal stored : ActivationJournal} {failed selected : String}
    {invalidate : Bool} {now : Nat}
    (done : completeRecovery journal failed selected invalidate now = .ok stored) :
    stored = journal.recovered failed selected invalidate now ∧
      (journal.release selected).isSome ∧ (invalidate = false → journal.pending = []) ∧
      ∃ state, journal.state = some state ∧ state.activeReleaseId = failed ∧
        state.previousReleaseId.getD "" = selected := by
  unfold completeRecovery at done
  split at done
  · cases done
  · rename_i state present
    split at done
    · cases done
    · rename_i active
      split at done
      · cases done
      · rename_i previous
        split at done
        · cases done
        · rename_i free
          split at done
          · rename_i known
            simp only [Except.ok.injEq] at done
            refine ⟨done.symm, known, ?_, state, present, not_not.mp active, not_not.mp previous⟩
            intro kept
            simpa [kept] using free
          · cases done

/-- The coupling between the pending attempt and the source state. -/
structure Coupled (journal : ActivationJournal) : Prop where
  distinct : (journal.activations.map Activation.id).Nodup
  single : journal.pending.length ≤ 1
  idle : journal.state = none → journal.pending = []
  onActive : ∀ state, journal.state = some state →
    ∀ row ∈ journal.activations, row.status = .preparing → row.previousReleaseId = state.activeReleaseId
  lastGood : ∀ state, journal.state = some state → state.lastGoodReleaseId = state.activeReleaseId

theorem mem_pending {journal : ActivationJournal} {row : Activation} :
    row ∈ journal.pending ↔ row ∈ journal.activations ∧ row.status = .preparing := by
  simp [ActivationJournal.pending]

theorem coupled_empty : Coupled .empty where
  distinct := by simp [ActivationJournal.empty]
  single := by simp [ActivationJournal.empty, ActivationJournal.pending]
  idle := fun _ => rfl
  onActive := by simp [ActivationJournal.empty]
  lastGood := by simp [ActivationJournal.empty]

/-- An operation that only adds releases keeps the coupling. -/
theorem Coupled.of_same {journal stored : ActivationJournal} (coupled : Coupled journal)
    (sameState : stored.state = journal.state) (sameRows : stored.activations = journal.activations) :
    Coupled stored where
  distinct := by rw [sameRows]; exact coupled.distinct
  single := by rw [ActivationJournal.pending, sameRows]; exact coupled.single
  idle := by rw [ActivationJournal.pending, sameRows, sameState]; exact coupled.idle
  onActive := by rw [sameRows, sameState]; exact coupled.onActive
  lastGood := by rw [sameState]; exact coupled.lastGood

theorem Coupled.pending_eq {journal : ActivationJournal} (coupled : Coupled journal)
    {first second : Activation} (left : first ∈ journal.pending) (right : second ∈ journal.pending) :
    first = second := by
  have single := coupled.single
  match found : journal.pending, left, right, single with
  | [], left, _, _ => cases left
  | [only], left, right, _ =>
    rw [List.mem_singleton.mp left, List.mem_singleton.mp right]
  | _ :: _ :: _, _, _, single => simp at single

/-- An update that keeps the ids and lets no row become pending keeps the coupling. -/
theorem Coupled.of_update {journal : ActivationJournal} (coupled : Coupled journal)
    (chosen : Activation → Bool) (change : Activation → Activation)
    (sameId : ∀ row, (change row).id = row.id)
    (sameBase : ∀ row, (change row).previousReleaseId = row.previousReleaseId)
    (closes : ∀ row, chosen row = true → (change row).status = .preparing → row.status = .preparing) :
    Coupled { journal with activations := Rows.update chosen change journal.activations } where
  distinct := by
    rw [Rows.map_update Activation.id fun row _ => sameId row]
    exact coupled.distinct
  single := by
    refine le_trans (Rows.length_filter_update_le _ _ _ _ ?_) coupled.single
    intro row found after
    simpa using closes row found (by simpa using after)
  idle := by
    intro absent
    have fewer : (List.filter (fun row : Activation => row.status == .preparing)
        (Rows.update chosen change journal.activations)).length ≤ journal.pending.length := by
      apply Rows.length_filter_update_le
      intro row found after
      simpa using closes row found (by simpa using after)
    rw [coupled.idle absent] at fewer
    exact List.eq_nil_of_length_eq_zero (Nat.le_zero.mp fewer)
  onActive := by
    intro state present row member preparing
    rcases Rows.mem_update.mp member with ⟨old, kept, found, rfl⟩ | ⟨kept, _⟩
    · rw [sameBase]
      exact coupled.onActive state present old kept (closes old found preparing)
    · exact coupled.onActive state present row kept preparing
  lastGood := coupled.lastGood

/-- A journal without a pending attempt is coupled once its last good release is the active one. -/
theorem Coupled.of_settled {journal : ActivationJournal}
    (distinct : (journal.activations.map Activation.id).Nodup) (settled : journal.pending = [])
    (lastGood : ∀ state, journal.state = some state → state.lastGoodReleaseId = state.activeReleaseId) :
    Coupled journal where
  distinct := distinct
  single := by simp [settled]
  idle := fun _ => settled
  onActive := by
    intro state _ row member preparing
    have pending := mem_pending.mpr ⟨member, preparing⟩
    simp [settled] at pending
  lastGood := lastGood

theorem settled_of_forall {journal : ActivationJournal}
    (none : ∀ row ∈ journal.activations, row.status ≠ .preparing) : journal.pending = [] := by
  apply List.filter_eq_nil_iff.mpr
  intro row member
  simpa using none row member

theorem install_settled {journal : ActivationJournal} (coupled : Coupled journal) {operation : Activation}
    {result : JsonObject} {now : Nat} (member : operation ∈ journal.activations)
    (preparing : operation.status = .preparing) : (journal.install operation result now).pending = [] := by
  apply settled_of_forall
  intro row updated pending
  rcases Rows.mem_update.mp updated with ⟨old, _, _, rfl⟩ | ⟨kept, missed⟩
  · cases pending
  · have same := coupled.pending_eq (mem_pending.mpr ⟨kept, pending⟩) (mem_pending.mpr ⟨member, preparing⟩)
    simp [same, preparing] at missed

theorem recovered_settled {journal : ActivationJournal} (coupled : Coupled journal)
    {failed selected : String} {invalidate : Bool} {now : Nat} {state : SourceState}
    (present : journal.state = some state) (active : state.activeReleaseId = failed)
    (free : invalidate = false → journal.pending = []) :
    (journal.recovered failed selected invalidate now).pending = [] := by
  -- a row the marking left pending was pending before it
  have before : ∀ row ∈ Rows.update
      (fun row => some row.id == (journal.installing failed).map Activation.id)
      (closed .rolledBack (recoveryResult failed selected) now) journal.activations,
      row.status = .preparing → row ∈ journal.pending := by
    intro row marked pending
    rcases Rows.mem_update.mp marked with ⟨old, _, _, rfl⟩ | ⟨kept, _⟩
    · cases pending
    · exact mem_pending.mpr ⟨kept, pending⟩
  apply settled_of_forall
  intro row updated pending
  cases invalidate with
  | false =>
    have known := before row updated pending
    simp [free rfl] at known
  | true =>
    rcases Rows.mem_update.mp updated with ⟨old, _, _, rfl⟩ | ⟨kept, missed⟩
    · cases pending
    · obtain ⟨member, _⟩ := mem_pending.mp (before row kept pending)
      have base := coupled.onActive state present row member pending
      simp [pending, base, active] at missed

theorem recovered_ids {journal : ActivationJournal} {failed selected : String} {invalidate : Bool} {now : Nat} :
    (journal.recovered failed selected invalidate now).activations.map Activation.id =
      journal.activations.map Activation.id := by
  have kept : ∀ status result (row : Activation), (closed status result now row).id = row.id :=
    fun _ _ _ => rfl
  cases invalidate <;>
    simp only [ActivationJournal.recovered, if_true, Bool.false_eq_true, if_false,
      Rows.map_update Activation.id fun row _ => kept _ _ row]

theorem operation_mem {journal : ActivationJournal} {id : String} {operation : Activation}
    (found : journal.operation id = some operation) :
    operation ∈ journal.activations ∧ operation.id = id :=
  ⟨List.mem_of_find?_eq_some found, by simpa using List.find?_some found⟩

theorem completeSuccess_coupled {journal stored : ActivationJournal} (coupled : Coupled journal)
    {id : String} {result : JsonObject} {now : Nat} {row : Activation}
    (done : completeSuccess journal id result now = .ok (stored, row)) : Coupled stored := by
  obtain ⟨operation, found, ⟨_, rfl, _⟩ | ⟨preparing, rfl, _⟩⟩ := completeSuccess_cases done
  · exact coupled
  · apply Coupled.of_settled
    · simp only [ActivationJournal.install]
      rw [Rows.map_update Activation.id fun row _ => (rfl : (succeeded result now row).id = row.id)]
      exact coupled.distinct
    · exact install_settled coupled (operation_mem found).1 preparing
    · rintro state same
      cases same
      rfl

theorem begin_coupled {activationId : String → String → String} {journal stored : ActivationJournal}
    (coupled : Coupled journal) {request : BeginRequest} {now : Nat} {row : Activation} {replayed : Bool}
    (done : begin activationId journal request now = .ok (stored, row, replayed)) : Coupled stored := by
  obtain ⟨rfl, _⟩ | ⟨_, state, present, base, rowEq, admitted, rfl⟩ := begin_cases done
  · exact coupled
  · simp only [ActivationJournal.admits, Bool.and_eq_true, Bool.not_eq_true', List.any_eq_false,
      beq_iff_eq] at admitted
    obtain ⟨⟨⟨fresh, quiet⟩, _⟩, _⟩ := admitted
    have settled : journal.pending = [] := settled_of_forall quiet
    refine ⟨?_, ?_, ?_, ?_, ?_⟩
    · simp only [List.map_append, List.map_cons, List.map_nil]
      refine List.nodup_append.mpr ⟨coupled.distinct, by simp, ?_⟩
      intro first known second same equal
      obtain ⟨other, member, rfl⟩ := List.mem_map.mp known
      exact fresh other member (equal.trans (by simpa using same))
    · have before : journal.activations.filter (fun row => row.status == .preparing) = [] := settled
      simp only [ActivationJournal.pending, List.filter_append, before, List.nil_append]
      exact (List.length_filter_le _ _).trans (by simp)
    · intro absent
      simp [present] at absent
    · intro current same other member preparing
      have equal : current = state := by simpa [present] using same.symm
      rcases List.mem_append.mp member with kept | last
      · exact absurd preparing (quiet other kept)
      · rw [List.mem_singleton.mp last, rowEq, equal, base]
        rfl
    · intro current same
      exact coupled.lastGood current same

theorem step_coupled (activationId : String → String → String) (journal : ActivationJournal) (op : Op)
    (coupled : Coupled journal) : Coupled (step activationId journal op) := by
  cases op with
  | releaseForCommit source now =>
    cases done : releaseForCommit journal source now with
    | error error => simpa [step, done, committed] using coupled
    | ok pair =>
      obtain ⟨sameState, sameRows, _⟩ := releaseForCommit_cases done
      simpa [step, done, committed] using coupled.of_same sameState sameRows
  | initializeSource source now =>
    cases done : initializeSource journal source now with
    | error error => simpa [step, done, committed] using coupled
    | ok pair =>
      obtain ⟨stored, created⟩ := pair
      obtain ⟨sameRows, present, _, same | ⟨absent, release, rfl⟩⟩ := initializeSource_cases done
      · simpa [step, done, committed] using coupled.of_same (present.trans same.symm) sameRows
      · have settled : stored.pending = [] := by
          rw [ActivationJournal.pending, sameRows]
          exact coupled.idle absent
        simp only [step, done, committed]
        exact .of_settled (by rw [sameRows]; exact coupled.distinct) settled (by
          intro state same
          simp only [present, Option.some.injEq] at same
          simp [← same])
  | begin request now =>
    cases done : begin activationId journal request now with
    | error error => simpa [step, done, committed] using coupled
    | ok triple =>
      simpa [step, done, committed] using begin_coupled coupled done
  | completeSuccess id result now =>
    cases done : completeSuccess journal id result now with
    | error error => simpa [step, done, committed] using coupled
    | ok pair => simpa [step, done, committed] using completeSuccess_coupled coupled done
  | completeFailure id rolledBack result now =>
    cases done : completeFailure journal id rolledBack result now with
    | error error => simpa [step, done, committed] using coupled
    | ok pair =>
      obtain ⟨stored, _⟩ := completeFailure_cases done
      simp only [step, done, committed, stored]
      exact coupled.of_update _ _ (fun _ => rfl) (fun _ => rfl)
        (fun row found _ => by simp only [Bool.and_eq_true, beq_iff_eq] at found; exact found.2)
  | completeRecovery failed selected invalidate now =>
    cases done : completeRecovery journal failed selected invalidate now with
    | error error => simpa [step, done, Except.toOption] using coupled
    | ok stored =>
      obtain ⟨rfl, _, free, state, present, active, _⟩ := completeRecovery_cases done
      simp only [step, done, Except.toOption, Option.getD_some]
      refine .of_settled ?_ (recovered_settled coupled present active free) ?_
      · rw [recovered_ids]
        exact coupled.distinct
      · rintro current same
        cases same
        rfl
  | markNotified id now =>
    exact coupled.of_update _ _ (fun _ => rfl) (fun _ => rfl) (fun _ _ kept => kept)

theorem run_coupled (activationId : String → String → String) (ops : List Op) :
    Coupled (Run.exec (step activationId) .empty ops) :=
  Run.exec_invariant (step_coupled activationId) coupled_empty ops

/-- In a coupled journal a pending attempt still matches the active release, so completing it
does not find the source changed. -/
theorem Coupled.completeSuccess_ne {journal : ActivationJournal} (coupled : Coupled journal)
    {state : SourceState} (present : journal.state = some state) {id : String} {operation : Activation}
    (found : journal.operation id = some operation) (preparing : operation.status = .preparing)
    (result : JsonObject) (now : Nat) :
    completeSuccess journal id result now ≠ .error .changedDuringActivation := by
  have base := coupled.onActive state present operation (operation_mem found).1 preparing
  simp only [completeSuccess, found, preparing, ne_eq, not_true_eq_false, if_false, present, base]
  split <;> simp

theorem source_journal_invariant (activationId : String → String → String) (ops : List Op)
    (state : SourceState) (present : (Run.exec (step activationId) .empty ops).state = some state) :
    let journal := Run.exec (step activationId) .empty ops
    journal.pending.length ≤ 1 ∧
      (∀ row ∈ journal.activations, row.status = .preparing →
        row.previousReleaseId = state.activeReleaseId) ∧
      state.lastGoodReleaseId = state.activeReleaseId ∧
      (∀ id operation, journal.operation id = some operation → operation.status = .preparing →
        ∀ result now, completeSuccess journal id result now ≠ .error .changedDuringActivation) ∧
      (∀ failed selected invalidate now stored,
        completeRecovery journal failed selected invalidate now = .ok stored → stored.pending = []) := by
  intro journal
  have coupled : Coupled journal := run_coupled activationId ops
  refine ⟨coupled.single, coupled.onActive state present, coupled.lastGood state present, ?_, ?_⟩
  · intro id operation found preparing result now
    exact coupled.completeSuccess_ne present found preparing result now
  · intro failed selected invalidate now stored done
    obtain ⟨rfl, _, free, current, same, active, _⟩ := completeRecovery_cases done
    exact recovered_settled coupled same active free

def sampleId (tenantId idempotencyKey : String) : String :=
  "activation_" ++ tenantId ++ "/" ++ idempotencyKey

def sampleCommit (letter : Char) : String := String.ofList (List.replicate 40 letter)

def sampleBegin (key : String) (kind : Kind) (target previous : Char) : BeginRequest where
  tenantId := "owner"
  idempotencyKey := key
  requestHash := key
  kind := kind
  targetReleaseId := releaseId (sampleCommit target)
  previousReleaseId := releaseId (sampleCommit previous)
  reason := "update"
  audit := []

/-- An update from `a` to `b` that is still running. -/
def pendingRun : List Op :=
  [.initializeSource (sampleCommit 'a') 1, .releaseForCommit (sampleCommit 'b') 2,
    .begin (sampleBegin "first" .activate 'b' 'a') 3]

theorem source_journal_invariant_pending :
    let journal := Run.exec (step sampleId) .empty pendingRun
    journal.pending.length = 1 ∧
      (∀ row ∈ journal.activations, row.status = .preparing →
        row.previousReleaseId = releaseId (sampleCommit 'a')) := by
  have present : (Run.exec (step sampleId) .empty pendingRun).state =
      some ⟨releaseId (sampleCommit 'a'), none, releaseId (sampleCommit 'a'), 1⟩ := by decide +kernel
  exact ⟨by decide +kernel, (source_journal_invariant sampleId pendingRun _ present).2.1⟩

end OpenTulpa.Host.JournalInvariant
