import OpenTulpa.Host.JournalInvariant

/-! Which attempt recovery consults. The attempt that installed the active release is not
stored; it is read back as the most recently updated active row for that release. The
history below records who really moved the active pointer. -/

namespace OpenTulpa.Host.JournalRecovery

open Library Text Outcome Journal JournalInvariant

def Op.now : Op → Nat
  | .releaseForCommit _ now => now
  | .initializeSource _ now => now
  | .begin _ now => now
  | .completeSuccess _ _ now => now
  | .completeFailure _ _ _ now => now
  | .completeRecovery _ _ _ now => now
  | .markNotified _ now => now

/-- The journal with the attempt that installed the active release, `none` when the source
was initialized or recovered, and the time of the last operation. -/
structure History where
  journal : ActivationJournal
  installedBy : Option String
  clock : Nat
  deriving DecidableEq

def History.start : History := ⟨.empty, none, 0⟩

/-- `some author` when the operation moves the active pointer. -/
def moved (journal : ActivationJournal) : Op → Option (Option String)
  | .initializeSource source now =>
      if journal.state = none ∧ (initializeSource journal source now).toOption.isSome then some none
      else none
  | .completeSuccess id result now =>
      if (journal.operation id).any (fun row => row.status == .preparing) ∧
          (completeSuccess journal id result now).toOption.isSome then some (some id)
      else none
  | .completeRecovery failed selected invalidate now =>
      if (completeRecovery journal failed selected invalidate now).toOption.isSome then some none
      else none
  | _ => none

/-- Time stamps strictly increase. -/
def Later (history : History) (op : Op) : Prop := history.clock < Op.now op

instance (history : History) (op : Op) : Decidable (Later history op) :=
  inferInstanceAs (Decidable (history.clock < Op.now op))

/-- No other active attempt for the active release is marked than the one that installed it. -/
def SparesRivals (history : History) : Op → Prop
  | .markNotified id _ =>
      ∀ state ∈ history.journal.state, ∀ author ∈ history.installedBy,
        ∀ row ∈ history.journal.operation id,
          row.status = .active → row.targetReleaseId = state.activeReleaseId → row.id = author
  | _ => True

instance (history : History) : ∀ op, Decidable (SparesRivals history op)
  | .markNotified id _ => inferInstanceAs (Decidable (∀ state ∈ history.journal.state,
      ∀ author ∈ history.installedBy, ∀ row ∈ history.journal.operation id,
        row.status = .active → row.targetReleaseId = state.activeReleaseId → row.id = author))
  | .releaseForCommit _ _ | .initializeSource _ _ | .begin _ _ | .completeSuccess _ _ _
  | .completeFailure _ _ _ _ | .completeRecovery _ _ _ _ => isTrue trivial

section Trace

variable (activationId : String → String → String)

def trace (history : History) (op : Op) : History where
  journal := step activationId history.journal op
  installedBy := (moved history.journal op).getD history.installedBy
  clock := Op.now op

@[simp] theorem trace_journal (history : History) (op : Op) :
    (trace activationId history op).journal = step activationId history.journal op := rfl

@[simp] theorem trace_installedBy (history : History) (op : Op) :
    (trace activationId history op).installedBy = (moved history.journal op).getD history.installedBy := rfl

@[simp] theorem trace_clock (history : History) (op : Op) :
    (trace activationId history op).clock = Op.now op := rfl

theorem trace_coupled {history : History} (coupled : Coupled history.journal) (op : Op) :
    Coupled (trace activationId history op).journal := by
  rw [trace_journal]
  exact step_coupled activationId history.journal op coupled

end Trace

/-- The row recovery reads, and marks, is the attempt that installed the active release; a
release installed by a rollback is never left for the one before it. -/
def ConsultsInstaller (history : History) : Prop :=
  ∀ state id, history.journal.state = some state → history.installedBy = some id →
    ∃ row, history.journal.operation id = some row ∧
      history.journal.installing state.activeReleaseId = some row ∧
      (row.kind = .rollback → ∀ failedCommit allowPending,
        (recoveryCandidate history.journal failedCommit allowPending).toOption.join = none)

theorem recoveryCandidate_rollback {journal : ActivationJournal} {state : SourceState} {row : Activation}
    (present : journal.state = some state) (newest : journal.installing state.activeReleaseId = some row)
    (rollback : row.kind = .rollback) (failedCommit : String) (allowPending : Bool) :
    (recoveryCandidate journal failedCommit allowPending).toOption.join = none := by
  unfold recoveryCandidate
  cases commit failedCommit with
  | error error => rfl
  | ok failed =>
    simp only [present, newest, Option.any_some, rollback, beq_self_eq_true, if_true]
    repeat' split
    all_goals rfl

/-- The attempt that installed the active release outranks every other active row of it. -/
structure Installed (history : History) (state : SourceState) (row : Activation) : Prop where
  member : row ∈ history.journal.activations
  author : history.installedBy = some row.id
  active : row.status = .active
  target : row.targetReleaseId = state.activeReleaseId
  newest : ∀ other ∈ history.journal.activations, other.status = .active →
    other.targetReleaseId = state.activeReleaseId → other ≠ row → other.updatedAt < row.updatedAt

structure Tracked (history : History) : Prop where
  coupled : Coupled history.journal
  stamped : ∀ row ∈ history.journal.activations, row.updatedAt ≤ history.clock
  unset : history.journal.state = none → history.installedBy = none
  fresh : ∀ state, history.journal.state = some state → state.previousReleaseId = none →
    history.installedBy = none
  installed : ∀ state, history.journal.state = some state → state.previousReleaseId ≠ none →
    ∃ row, Installed history state row

theorem Installed.installing {history : History} {state : SourceState} {row : Activation}
    (installed : Installed history state row) :
    history.journal.installing state.activeReleaseId = some row := by
  apply Rows.argmax_eq_of_forall_lt
  · simp [installed.member, installed.target, installed.active]
  · intro other member different
    simp only [List.mem_filter, Bool.and_eq_true, beq_iff_eq] at member
    exact Prod.Lex.toLex_lt_toLex.mpr (Or.inl (installed.newest other member.1 member.2.2 member.2.1 different))

theorem Tracked.consults {history : History} (tracked : Tracked history) : ConsultsInstaller history := by
  intro state id present author
  have previous : state.previousReleaseId ≠ none := by
    intro absent
    simp [tracked.fresh state present absent] at author
  obtain ⟨row, installed⟩ := tracked.installed state present previous
  have same : row.id = id := by simpa [installed.author] using author
  refine ⟨row, ?_, installed.installing, fun rollback failedCommit allowPending =>
    recoveryCandidate_rollback present installed.installing rollback failedCommit allowPending⟩
  rw [← same]
  exact Rows.find_of_mem tracked.coupled.distinct installed.member

theorem tracked_start : Tracked .start where
  coupled := coupled_empty
  stamped := by simp [History.start, ActivationJournal.empty]
  unset := fun _ => rfl
  fresh := fun _ _ _ => rfl
  installed := by simp [History.start, ActivationJournal.empty]

/-- Nothing the history depends on has changed. -/
theorem Tracked.of_same {history next : History} (tracked : Tracked history)
    (sameState : next.journal.state = history.journal.state)
    (sameRows : next.journal.activations = history.journal.activations)
    (sameAuthor : next.installedBy = history.installedBy) (later : history.clock ≤ next.clock) :
    Tracked next where
  coupled := tracked.coupled.of_same sameState sameRows
  stamped := by
    intro row member
    rw [sameRows] at member
    exact (tracked.stamped row member).trans later
  unset := by rw [sameState, sameAuthor]; exact tracked.unset
  fresh := by rw [sameState, sameAuthor]; exact tracked.fresh
  installed := by
    intro state present previous
    obtain ⟨row, installed⟩ := tracked.installed state (sameState ▸ present) previous
    exact ⟨row, sameRows ▸ installed.member, sameAuthor ▸ installed.author, installed.active,
      installed.target, sameRows ▸ installed.newest⟩

/-- Rows may be added or rewritten as long as no active row for the release appears: the
installing attempt is kept and stays the newest. -/
theorem Tracked.of_rows {history next : History} (tracked : Tracked history)
    (coupled : Coupled next.journal) (sameState : next.journal.state = history.journal.state)
    (sameAuthor : next.installedBy = history.installedBy)
    (stamped : ∀ row ∈ next.journal.activations, row.updatedAt ≤ next.clock)
    (kept : ∀ row ∈ history.journal.activations, row.status = .active → row ∈ next.journal.activations)
    (known : ∀ row ∈ next.journal.activations, row.status = .active → row ∈ history.journal.activations) :
    Tracked next where
  coupled := coupled
  stamped := stamped
  unset := by rw [sameState, sameAuthor]; exact tracked.unset
  fresh := by rw [sameState, sameAuthor]; exact tracked.fresh
  installed := by
    intro state present previous
    obtain ⟨row, installed⟩ := tracked.installed state (sameState ▸ present) previous
    exact ⟨row, kept row installed.member installed.active, sameAuthor ▸ installed.author,
      installed.active, installed.target,
      fun other member active => installed.newest other (known other member active) active⟩

theorem begin_tracked {activationId : String → String → String} {history : History}
    (tracked : Tracked history) {request : BeginRequest} {now : Nat} (later : history.clock < now) :
    Tracked (trace activationId history (.begin request now)) := by
  cases done : begin activationId history.journal request now with
  | error error =>
    exact tracked.of_same (by simp [step, done, committed]) (by simp [step, done, committed])
      (by simp [moved]) later.le
  | ok triple =>
    obtain ⟨stored, row, replayed⟩ := triple
    have coupled := begin_coupled tracked.coupled done
    obtain ⟨rfl, _⟩ | ⟨_, state, present, _, rowEq, _, rfl⟩ := begin_cases done
    · exact tracked.of_same (by simp [step, done, committed]) (by simp [step, done, committed])
        (by simp [moved]) later.le
    · have same : trace activationId history (.begin request now) =
          ⟨{ history.journal with activations := history.journal.activations ++ [row] },
            history.installedBy, now⟩ := by
        simp [trace, step, done, committed, moved, Op.now]
      rw [same]
      refine tracked.of_rows coupled rfl rfl ?_ ?_ ?_
      · intro other member
        rcases List.mem_append.mp member with old | last
        · exact (tracked.stamped other old).trans later.le
        · rw [List.mem_singleton.mp last, rowEq]
          exact le_refl now
      · intro other member _
        exact List.mem_append_left _ member
      · intro other member active
        rcases List.mem_append.mp member with old | last
        · exact old
        · rw [List.mem_singleton.mp last, rowEq] at active
          cases active

theorem completeFailure_tracked {activationId : String → String → String} {history : History}
    (tracked : Tracked history) {id : String} {rolledBack : Bool} {result : JsonObject} {now : Nat}
    (later : history.clock < now) :
    Tracked (trace activationId history (.completeFailure id rolledBack result now)) := by
  cases done : completeFailure history.journal id rolledBack result now with
  | error error =>
    exact tracked.of_same (by simp [step, done, committed]) (by simp [step, done, committed])
      (by simp [moved]) later.le
  | ok pair =>
    obtain ⟨stored, row⟩ := pair
    have coupled := trace_coupled activationId tracked.coupled (.completeFailure id rolledBack result now)
    obtain ⟨rfl, _⟩ := completeFailure_cases done
    refine tracked.of_rows coupled (by simp [step, done, committed, ActivationJournal.close]) rfl ?_ ?_ ?_
    all_goals simp only [trace_journal, trace_clock, step, done, committed, ActivationJournal.close, Op.now]
    · intro other member
      rcases Rows.mem_update.mp member with ⟨old, _, _, rfl⟩ | ⟨old, _⟩
      · exact le_refl now
      · exact (tracked.stamped other old).trans later.le
    · intro other member active
      exact Rows.mem_update.mpr (Or.inr ⟨member, by simp [active]⟩)
    · intro other member active
      rcases Rows.mem_update.mp member with ⟨old, _, _, rfl⟩ | ⟨old, _⟩
      · cases rolledBack <;> simp [closed] at active
      · exact old

theorem completeSuccess_tracked {activationId : String → String → String} {history : History}
    (tracked : Tracked history) {id : String} {result : JsonObject} {now : Nat}
    (later : history.clock < now) :
    Tracked (trace activationId history (.completeSuccess id result now)) := by
  cases done : completeSuccess history.journal id result now with
  | error error =>
    exact tracked.of_same (by simp [step, done, committed]) (by simp [step, done, committed])
      (by simp [moved, done, Except.toOption]) later.le
  | ok pair =>
    obtain ⟨stored, row⟩ := pair
    have coupled := completeSuccess_coupled tracked.coupled done
    obtain ⟨operation, found, ⟨terminal, rfl, _⟩ | ⟨preparing, rfl, _, _, _⟩⟩ := completeSuccess_cases done
    · exact tracked.of_same (by simp [step, done, committed]) (by simp [step, done, committed])
        (by simp [moved, found, terminal]) later.le
    · obtain ⟨member, identity⟩ := operation_mem found
      have same : trace activationId history (.completeSuccess id result now) =
          ⟨history.journal.install operation result now, some id, now⟩ := by
        simp [trace, step, done, committed, moved, found, preparing, Except.toOption, Op.now]
      have installedRow : succeeded result now operation ∈
          (history.journal.install operation result now).activations :=
        Rows.mem_update.mpr (Or.inl ⟨operation, member, by simp [preparing], rfl⟩)
      rw [same]
      refine ⟨coupled, ?_, by simp [ActivationJournal.install], by simp [ActivationJournal.install], ?_⟩
      · intro other updated
        rcases Rows.mem_update.mp updated with ⟨old, _, _, rfl⟩ | ⟨old, _⟩
        · exact le_refl now
        · exact (tracked.stamped other old).trans later.le
      · rintro state present _
        cases present
        refine ⟨succeeded result now operation, installedRow, by simp [succeeded, identity], rfl, rfl, ?_⟩
        intro other updated _ _ different
        rcases Rows.mem_update.mp updated with ⟨old, kept, chosen, rfl⟩ | ⟨old, _⟩
        · simp only [Bool.and_eq_true, beq_iff_eq] at chosen
          have equal := Rows.eq_of_key_eq tracked.coupled.distinct kept member chosen.1
          exact absurd (by rw [equal]) different
        · exact lt_of_le_of_lt (tracked.stamped other old) later

theorem initializeSource_tracked {activationId : String → String → String} {history : History}
    (tracked : Tracked history) {source : String} {now : Nat} (later : history.clock < now) :
    Tracked (trace activationId history (.initializeSource source now)) := by
  cases done : initializeSource history.journal source now with
  | error error =>
    exact tracked.of_same (by simp [step, done, committed]) (by simp [step, done, committed])
      (by simp [moved, done, Except.toOption]) later.le
  | ok pair =>
    obtain ⟨stored, created⟩ := pair
    have coupled := trace_coupled activationId tracked.coupled (.initializeSource source now)
    obtain ⟨sameRows, present, _, same | ⟨absent, release, rfl⟩⟩ := initializeSource_cases done
    · exact tracked.of_same (by simp [step, done, committed, present, same])
        (by simp [step, done, committed, sameRows]) (by simp [moved, same]) later.le
    · have author : (trace activationId history (.initializeSource source now)).installedBy = none := by
        simp [moved, done, absent, Except.toOption]
      refine ⟨coupled, ?_, fun _ => author, fun _ _ _ => author, ?_⟩
      · simp only [trace_journal, trace_clock, step, done, committed, sameRows, Op.now]
        intro row member
        exact (tracked.stamped row member).trans later.le
      · intro state equal previous
        simp only [trace_journal, step, done, committed, present, Option.some.injEq] at equal
        simp [← equal] at previous

theorem completeRecovery_tracked {activationId : String → String → String} {history : History}
    (tracked : Tracked history) {failed selected : String} {invalidate : Bool} {now : Nat}
    (later : history.clock < now) :
    Tracked (trace activationId history (.completeRecovery failed selected invalidate now)) := by
  cases done : completeRecovery history.journal failed selected invalidate now with
  | error error =>
    exact tracked.of_same (by simp [step, done, Except.toOption])
      (by simp [step, done, Except.toOption]) (by simp [moved, done, Except.toOption]) later.le
  | ok stored =>
    have coupled := trace_coupled activationId tracked.coupled
      (.completeRecovery failed selected invalidate now)
    obtain ⟨rfl, _⟩ := completeRecovery_cases done
    have author : (trace activationId history (.completeRecovery failed selected invalidate now)).installedBy =
        none := by
      simp [moved, done, Except.toOption]
    refine ⟨coupled, ?_, fun _ => author, fun _ _ _ => author, ?_⟩
    · -- both updates stamp the rows they touch with the time of the recovery
      have marked : ∀ row ∈ Rows.update
          (fun row => some row.id == (history.journal.installing failed).map Activation.id)
          (closed .rolledBack (recoveryResult failed selected) now) history.journal.activations,
          row.updatedAt ≤ now := by
        intro row member
        rcases Rows.mem_update.mp member with ⟨old, _, _, rfl⟩ | ⟨old, _⟩
        · exact le_refl now
        · exact (tracked.stamped row old).trans later.le
      simp only [trace_journal, trace_clock, step, done, Except.toOption, Option.getD_some, Op.now, ActivationJournal.recovered]
      cases invalidate with
      | false => exact marked
      | true =>
        intro row member
        rcases Rows.mem_update.mp member with ⟨old, _, _, rfl⟩ | ⟨old, _⟩
        · exact le_refl now
        · exact marked row old
    · intro state equal previous
      simp only [trace_journal, step, done, Except.toOption, Option.getD_some,
        ActivationJournal.recovered, Option.some.injEq] at equal
      simp [← equal] at previous

theorem mem_markNotified {journal : ActivationJournal} {id : String} {now : Nat} {row : Activation} :
    row ∈ (markNotified journal id now).activations ↔
      (∃ old ∈ journal.activations, old.id = id ∧ row = notified now old) ∨
        (row ∈ journal.activations ∧ row.id ≠ id) := by
  rw [markNotified, Rows.mem_update]
  simp only [beq_iff_eq, beq_eq_false_iff_ne]

theorem markNotified_tracked {activationId : String → String → String} {history : History}
    (tracked : Tracked history) {id : String} {now : Nat} (later : history.clock < now)
    (spares : SparesRivals history (.markNotified id now)) :
    Tracked (trace activationId history (.markNotified id now)) where
  coupled := trace_coupled activationId tracked.coupled (.markNotified id now)
  stamped := by
    intro row member
    rcases mem_markNotified.mp member with ⟨old, _, _, rfl⟩ | ⟨old, _⟩
    · exact le_refl now
    · exact (tracked.stamped row old).trans later.le
  unset := tracked.unset
  fresh := tracked.fresh
  installed := by
    intro state present previous
    obtain ⟨row, installed⟩ := tracked.installed state present previous
    by_cases same : row.id = id
    · -- the installing attempt itself is restamped and only moves further ahead
      refine ⟨notified now row, mem_markNotified.mpr (Or.inl ⟨row, installed.member, same, rfl⟩),
        installed.author, installed.active, installed.target, ?_⟩
      intro other member _ _ different
      rcases mem_markNotified.mp member with ⟨old, kept, equal, rfl⟩ | ⟨old, _⟩
      · exact absurd (by rw [Rows.eq_of_key_eq tracked.coupled.distinct kept installed.member
          (equal.trans same.symm)]) different
      · exact lt_of_le_of_lt (tracked.stamped other old) later
    · refine ⟨row, mem_markNotified.mpr (Or.inr ⟨installed.member, same⟩), installed.author,
        installed.active, installed.target, ?_⟩
      intro other member active target different
      rcases mem_markNotified.mp member with ⟨old, kept, equal, rfl⟩ | ⟨old, _⟩
      · -- the guard excludes a restamped rival of the installing attempt
        have found : history.journal.operation id = some old := by
          rw [← equal]
          exact Rows.find_of_mem tracked.coupled.distinct kept
        have author := spares state present row.id installed.author old found active target
        exact absurd (author.symm.trans equal) same
      · exact installed.newest other old active target different

theorem trace_tracked (activationId : String → String → String) (history : History) (op : Op)
    (tracked : Tracked history) (later : Later history op) (spares : SparesRivals history op) :
    Tracked (trace activationId history op) := by
  cases op with
  | releaseForCommit source now =>
    cases done : releaseForCommit history.journal source now with
    | error error =>
      exact tracked.of_same (by simp [step, done, committed]) (by simp [step, done, committed])
        (by simp [moved]) (Nat.le_of_lt later)
    | ok pair =>
      obtain ⟨sameState, sameRows, _⟩ := releaseForCommit_cases done
      exact tracked.of_same (by simp [step, done, committed, sameState])
        (by simp [step, done, committed, sameRows]) (by simp [moved]) (Nat.le_of_lt later)
  | initializeSource source now => exact initializeSource_tracked tracked later
  | begin request now => exact begin_tracked tracked later
  | completeSuccess id result now => exact completeSuccess_tracked tracked later
  | completeFailure id rolledBack result now => exact completeFailure_tracked tracked later
  | completeRecovery failed selected invalidate now => exact completeRecovery_tracked tracked later
  | markNotified id now => exact markNotified_tracked tracked later spares

/-- Restamping another active row of the active release makes recovery read that row. -/
theorem sparesRivals_of_consults {activationId : String → String → String} {history : History} {op : Op}
    (tracked : Tracked history) (later : Later history op)
    (consults : ConsultsInstaller (trace activationId history op)) : SparesRivals history op := by
  cases op with
  | markNotified id now =>
    intro state present author moved row found active target
    obtain ⟨member, identity⟩ := operation_mem found
    obtain ⟨read, known, newest, _⟩ := consults state author present moved
    have top : (markNotified history.journal id now).installing state.activeReleaseId =
        some (notified now row) := by
      apply Rows.argmax_eq_of_forall_lt
      · simp only [List.mem_filter]
        exact ⟨mem_markNotified.mpr (Or.inl ⟨row, member, identity, rfl⟩),
          by simp [notified, target, active]⟩
      · intro other updated different
        rcases mem_markNotified.mp (List.mem_of_mem_filter updated) with ⟨old, kept, equal, rfl⟩ | ⟨old, _⟩
        · exact absurd (by rw [Rows.eq_of_key_eq tracked.coupled.distinct kept member
            (equal.trans identity.symm)]) different
        · exact Prod.Lex.toLex_lt_toLex.mpr (Or.inl (lt_of_le_of_lt (tracked.stamped other old) later))
    have same : read = notified now row := Option.some.inj (newest.symm.trans top)
    have readId := (operation_mem known).2
    rw [same] at readId
    exact readId
  | _ => trivial

theorem recovery_consults_installer (activationId : String → String → String) (ops : List Op)
    (increasing : Run.Guarded (trace activationId) Later .start ops) :
    (∀ n, ConsultsInstaller (Run.exec (trace activationId) .start (ops.take n))) ↔
      Run.Guarded (trace activationId) SparesRivals .start ops :=
  Run.prefixes_iff_guarded (fun _ tracked => tracked.consults) (trace_tracked activationId)
    (fun _ _ tracked later consults => sparesRivals_of_consults tracked later consults)
    tracked_start increasing

/-- The owner moves from `a` to `b` to `c` and then rolls back to `b`. -/
def rolledBackRun : List Op :=
  [.initializeSource (sampleCommit 'a') 1, .releaseForCommit (sampleCommit 'b') 2,
    .begin (sampleBegin "first" .activate 'b' 'a') 3, .completeSuccess "activation_owner/first" [] 4,
    .releaseForCommit (sampleCommit 'c') 5, .begin (sampleBegin "second" .activate 'c' 'b') 6,
    .completeSuccess "activation_owner/second" [] 7, .begin (sampleBegin "third" .rollback 'b' 'c') 8,
    .completeSuccess "activation_owner/third" [] 9]

/-- The rollback itself is reported. -/
def reportedRun : List Op := rolledBackRun ++ [.markNotified "activation_owner/third" 10]

/-- The first activation is reported late, after the rollback. -/
def lateRun : List Op := rolledBackRun ++ [.markNotified "activation_owner/first" 10]

theorem recovery_consults_installer_rolledBack :
    Run.Guarded (trace sampleId) Later .start reportedRun ∧
      ∀ n, ConsultsInstaller (Run.exec (trace sampleId) .start (reportedRun.take n)) := by
  have increasing : Run.Guarded (trace sampleId) Later .start reportedRun := by decide +kernel
  exact ⟨increasing, (recovery_consults_installer sampleId reportedRun increasing).mpr (by decide +kernel)⟩

/-- After the late report the first activation is the newest active row of release `b`, and
recovery offers the release that was just rolled back from. -/
theorem late_notification_reverses_rollback :
    Run.Guarded (trace sampleId) Later .start lateRun ∧
      ¬ ConsultsInstaller (Run.exec (trace sampleId) .start lateRun) ∧
      (recoveryCandidate (Run.exec (trace sampleId) .start lateRun).journal (sampleCommit 'b')
        false).toOption.join.map Release.sourceCommit = some (sampleCommit 'c') := by
  refine ⟨by decide +kernel, ?_, by decide +kernel⟩
  intro consults
  obtain ⟨row, author, newest, _⟩ := consults
    ⟨releaseId (sampleCommit 'b'), some (releaseId (sampleCommit 'c')), releaseId (sampleCommit 'b'), 9⟩
    "activation_owner/third" (by decide +kernel) (by decide +kernel)
  have same : (Run.exec (trace sampleId) .start lateRun).journal.operation "activation_owner/third" =
      (Run.exec (trace sampleId) .start lateRun).journal.installing (releaseId (sampleCommit 'b')) :=
    author.trans newest.symm
  have differ : (Run.exec (trace sampleId) .start lateRun).journal.operation "activation_owner/third" ≠
      (Run.exec (trace sampleId) .start lateRun).journal.installing (releaseId (sampleCommit 'b')) := by
    decide +kernel
  exact differ same

end OpenTulpa.Host.JournalRecovery
