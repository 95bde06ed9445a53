import OpenTulpa.DeepAgent.Runs

/-! The operations of the service on its one run connection, interleaved between their statements.
Two of them write outside of the event lock; as long as these keep clear of the transactions that
the others begin, no call disturbs another. -/

namespace OpenTulpa.DeepAgent.SharedConnection

open Library Connection Runs

inductive Request where
  | createThread (tenantId channel : String) (title : Option String) (threadId now : String)
  | updateThread (tenantId threadId : String) (title : Option String) (archived : Option Bool) (now : String)
  | ensureThread (tenantId threadId channel now : String)
  | insertRun (call : InsertCall)
  | appendEvent (runId : String) (type : AgentRunEventType) (data : Text.JsonObject) (now : String)
  | transitionWithEvent (call : TransitionCall)
  | updateRun (call : UpdateCall)
  | updateOwnerInference (tenantId : String) (expectedRevision : Int) (selection : Option String) (now : String)
  deriving DecidableEq

def Request.call : Request → ServiceCall
  | .createThread tenantId channel title threadId now => Runs.createThread tenantId channel title threadId now
  | .updateThread tenantId threadId title archived now => Runs.updateThread tenantId threadId title archived now
  | .ensureThread tenantId threadId channel now => Runs.ensureThread tenantId threadId channel now
  | .insertRun call => Runs.insertRun call
  | .appendEvent runId type data now => Runs.appendEvent runId type data now
  | .transitionWithEvent call => Runs.transitionWithEvent call
  | .updateRun call => Runs.updateRun call
  | .updateOwnerInference tenantId expectedRevision selection now =>
    Runs.updateOwnerInference tenantId expectedRevision selection now

/-- The calls of the requests on a database, before any of their statements. -/
def requested (db : RunDatabase) (requests : List Request) : State RunDatabase RunError Result :=
  start db (requests.map Request.call)

section Fits

theorem abandon_fits {phase : Phase} (error : RunError) (within : phase = .clean ∨ phase = .wrote ∨ phase = .reverted) :
    Fits (abandon error) phase := by
  rcases within with rfl | rfl | rfl
  · trivial
  · exact ⟨error, rfl⟩
  · trivial

theorem attempt_fits {phase : Phase} {statement : Statement} {next : ServiceCall} (within : phase = .clean ∨ phase = .wrote)
    (fits : Fits next .wrote) : Fits (attempt statement next) phase := by
  rcases within with rfl | rfl
  · exact ⟨fun _ => fits, fun error => abandon_fits error (Or.inl rfl)⟩
  · intro outcome
    cases outcome with
    | ok count => exact fits
    | error error => exact abandon_fits error (Or.inr (Or.inl rfl))

theorem transaction_fits {body : ServiceCall} (fits : Fits body .clean) : Fits (transaction body) .idle :=
  ⟨rfl, rfl, fits⟩

theorem lockedUpdate_fits {statement : Statement} {value : Nat → Result} (total : ∀ db, (statement db).isOk = true) :
    Fits (lockedUpdate statement fun count => .ok (value count)) .idle :=
  ⟨rfl, total, fun count => ⟨value count, rfl⟩⟩

theorem committed_fits (value : Result) : Fits (.commit (.unlock (.done (.ok value))) : ServiceCall) .wrote := ⟨value, rfl⟩

theorem insertUnkeyed_fits (call : InsertCall) : Fits (insertUnkeyed call) .clean := by
  intro db
  dsimp only
  split
  · exact abandon_fits .checkpointConflict (Or.inr (Or.inr rfl))
  · exact attempt_fits (Or.inl rfl) (attempt_fits (Or.inr rfl) (committed_fits _))

theorem insertRun_fits (call : InsertCall) : Fits (insertRun call) .idle := by
  refine transaction_fits ?_
  split
  · exact insertUnkeyed_fits call
  · intro db
    dsimp only
    split
    · exact insertUnkeyed_fits call
    · split
      · exact abandon_fits .idempotencyConflict (Or.inr (Or.inr rfl))
      · trivial

theorem appendEvent_fits (runId : String) (type : AgentRunEventType) (data : Text.JsonObject) (now : String) :
    Fits (appendEvent runId type data now) .idle := by
  refine transaction_fits fun db => ?_
  dsimp only
  split
  · exact abandon_fits _ (Or.inl rfl)
  · split
    · trivial
    · exact attempt_fits (Or.inl rfl) (attempt_fits (Or.inr rfl) (attempt_fits (Or.inr rfl) (committed_fits _)))

theorem transitionWithEvent_fits (call : TransitionCall) : Fits (transitionWithEvent call) .idle := by
  refine transaction_fits fun db => ?_
  dsimp only
  split
  · exact abandon_fits _ (Or.inl rfl)
  · split
    · trivial
    · exact attempt_fits (Or.inl rfl) (attempt_fits (Or.inr rfl) (attempt_fits (Or.inr rfl) (committed_fits _)))

theorem updateOwnerInference_fits (tenantId : String) (expectedRevision : Int) (selection : Option String) (now : String) :
    Fits (updateOwnerInference tenantId expectedRevision selection now) .idle := by
  refine transaction_fits fun db => ?_
  simp only
  split
  · exact abandon_fits .inferenceConflict (Or.inr (Or.inr rfl))
  · exact attempt_fits (Or.inl rfl) fun after => ⟨_, rfl⟩

theorem updateThread_fits (tenantId threadId : String) (title : Option String) (archived : Option Bool) (now : String) :
    Fits (updateThread tenantId threadId title archived now) .idle := by
  unfold updateThread
  simp only
  split
  · trivial
  · intro count
    simp only [Fits]
    split
    · exact fun db => ⟨_, rfl⟩
    · exact ⟨_, rfl⟩

theorem request_fits (request : Request) : Fits request.call .idle := by
  cases request with
  | createThread tenantId channel title threadId now => exact fun count => ⟨_, rfl⟩
  | updateThread tenantId threadId title archived now => exact updateThread_fits tenantId threadId title archived now
  | ensureThread tenantId threadId channel now =>
    refine lockedUpdate_fits fun db => ?_
    unfold insertMissingThread
    split <;> rfl
  | insertRun call => exact insertRun_fits call
  | appendEvent runId type data now => exact appendEvent_fits runId type data now
  | transitionWithEvent call => exact transitionWithEvent_fits call
  | updateRun call => exact lockedUpdate_fits fun db => rfl
  | updateOwnerInference tenantId expectedRevision selection now =>
    exact updateOwnerInference_fits tenantId expectedRevision selection now

end Fits

/-- In every interleaving in which the writers outside of the lock keep clear of begun
transactions, the calls are serial at every moment. -/
theorem run_connection_serial (db : RunDatabase) (requests : List Request) (schedule : List Nat)
    (clear : Run.Guarded step Clear (requested db requests) schedule) :
    ∀ n, Serial (Run.exec step (requested db requests) (schedule.take n)) := by
  refine exec_serial ?_ clear
  intro call member
  obtain ⟨request, _, rfl⟩ := List.mem_map.mp member
  exact request_fits request

/-- Two thread calls that overlap each other, and after them a preference that is updated. -/
theorem run_connection_serial_sample :
    let requests : List Request := [.createThread "t" "web" none "a" "1", .ensureThread "t" "b" "web" "1",
      .updateOwnerInference "t" 0 none "2"]
    let schedule := [1, 0, 1, 0, 1, 1, 2, 2, 2, 2, 2, 2, 2]
    Run.Guarded step Clear (requested .empty requests) schedule ∧
      Serial (Run.exec step (requested .empty requests) (schedule.take 13)) ∧
      (Run.exec step (requested .empty requests) schedule).durable.threads.length = 2 := by
  refine ⟨by decide +kernel, run_connection_serial .empty _ _ (by decide +kernel) 13, by decide +kernel⟩

/-- A thread that is created while an event is appended: either the append is refused because of
the open insert, or its rollback takes the thread along, whose creation then still succeeds. -/
theorem create_thread_disturbs_append :
    let requests : List Request := [.createThread "t" "web" none "a" "1", .appendEvent "r" .runStarted [] "1"]
    let refusal := Run.exec step (requested .empty requests) [0, 1, 1]
    let loss := Run.exec step (requested .empty requests) [1, 1, 0, 1, 1, 0]
    ¬ Serial refusal ∧ ¬ Serial loss ∧
      (loss.tasks[0]?.bind fun task => task.call.result) =
        some (.ok (.thread (some ⟨"t", "a", "New session", "web", false, "1", "1"⟩))) ∧
      loss.durable.threads = [] ∧ loss.pending.length = 0 := by
  refine ⟨?_, ?_, by decide +kernel, by decide +kernel, by decide +kernel⟩
  · intro serial
    exact absurd serial.begins (by decide +kernel)
  · intro serial
    have own : ∀ undoing ∈ (Run.exec step (requested .empty [.createThread "t" "web" none "a" "1",
        .appendEvent "r" .runStarted [] "1"]) [1, 1, 0, 1, 1, 0]).undone, undoing.2.caller = undoing.1 := serial.own
    exact absurd own (by decide +kernel)

end OpenTulpa.DeepAgent.SharedConnection
