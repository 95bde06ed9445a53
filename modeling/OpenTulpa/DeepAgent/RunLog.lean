import OpenTulpa.DeepAgent.Runs

/-! A run and its event log are one state machine, over every order of the service's transactions.
The events of a run are numbered without gaps, a run that ended has exactly one terminal event,
its last, and stays as it is, and a checkpoint thread has at most one unresolved run. -/

namespace OpenTulpa.DeepAgent.RunLog

open Library Text Connection Runs

/-- The events that the service appends to a run in progress. -/
inductive Progress where
  | runStarted
  | messageDelta
  | toolStarted
  | toolCompleted
  | artifactReady
  | approvalRequired
  deriving DecidableEq

def Progress.type : Progress → AgentRunEventType
  | .runStarted => .runStarted
  | .messageDelta => .messageDelta
  | .toolStarted => .toolStarted
  | .toolCompleted => .toolCompleted
  | .artifactReady => .artifactReady
  | .approvalRequired => .approvalRequired

def publicRunCancelledMessage : String := "The agent run was cancelled before completion."

def publicRunInterruptedByRestartMessage : String :=
  "OpenTulpa restarted while this agent run was active. The in-flight run was stopped, " ++
    "and tool or shell actions were not replayed automatically. Send the request again if " ++
    "you still want it done."

def publicCapabilityChangedMessage : String := "The approved capability changed before the agent run could continue."

def failure (code message retryable : String) : JsonObject :=
  [("code", code), ("message", message), ("retryable", retryable)]

/-- The places where the service ends a run: a stream that completed or failed, a resume that
finds the graph finished or its capability changed, `cancel`, a task that was abandoned, and the
reconciliation after a restart. -/
inductive Ending where
  | streamCompleted (finalText : String)
  | streamFailed (eventData : JsonObject) (message : String)
  | resumeCompleted (finalText : String)
  | capabilityChanged
  | cancelled
  | abandoned
  | restarted
  deriving DecidableEq

def Ending.call (runId now : String) : Ending → TransitionCall
  | .streamCompleted text =>
    ⟨runId, [.running, .resumePending], .completed, .runCompleted, [("text", text)], some text, none, some [], now⟩
  | .streamFailed data message =>
    ⟨runId, [.running, .resumePending], .failed, .runFailed, data, none, some message, none, now⟩
  | .resumeCompleted text =>
    ⟨runId, [.resumePending], .completed, .runCompleted, [("text", text)], some text, none, some [], now⟩
  | .capabilityChanged =>
    ⟨runId, [.resumePending], .failed, .runFailed,
      failure "agent_capability_changed" publicCapabilityChangedMessage "false", none,
      some publicCapabilityChangedMessage, none, now⟩
  | .cancelled =>
    ⟨runId, [.running, .interrupted, .resumePending], .cancelled, .runFailed,
      failure "agent_run_cancelled" publicRunCancelledMessage "false", none, some publicRunCancelledMessage, none, now⟩
  | .abandoned =>
    ⟨runId, [.running], .cancelled, .runFailed, failure "agent_run_cancelled" publicRunCancelledMessage "false", none,
      some publicRunCancelledMessage, none, now⟩
  | .restarted =>
    ⟨runId, [.running], .failed, .runFailed,
      failure "agent_run_interrupted_by_restart" publicRunInterruptedByRestartMessage "true", none,
      some publicRunInterruptedByRestartMessage, none, now⟩

/-- The places where the service updates a run without an event: a stream that asks for approvals,
one that has decided some of them itself, a checkpoint that asks for others than were decided, and
a recovery that finds one undecided. -/
inductive Pause where
  | streamInterrupted (approvals : List AgentApproval) (finalText : String)
  | streamDecided (decided : List AgentApproval) (finalText : String)
  | checkpointInterrupted (approvals : List AgentApproval) (finalText : String)
  | recoveryInterrupted
  deriving DecidableEq

def Pause.call (runId now : String) : Pause → UpdateCall
  | .streamInterrupted approvals text =>
    ⟨runId, some .interrupted, some text, none, some approvals, [.running, .resumePending], now⟩
  | .streamDecided decided text =>
    ⟨runId, some (if decided.any fun approval => approval.status == .pending then .interrupted else .resumePending),
      some text, none, some decided, [.running, .resumePending], now⟩
  | .checkpointInterrupted approvals text =>
    ⟨runId, some .interrupted, some text, none, some approvals, [.resumePending], now⟩
  | .recoveryInterrupted => ⟨runId, some .interrupted, none, none, none, [.resumePending], now⟩

/-- The transactions, by any number of tasks. The snapshot of a decision was read some time before. -/
inductive Op where
  | insertRun (call : InsertCall)
  | appendEvent (runId : String) (progress : Progress) (data : JsonObject) (now : String)
  | finish (runId : String) (ending : Ending) (now : String)
  | pause (runId : String) (cause : Pause) (now : String)
  | claimApprovalDecision (snapshot : AgentRun) (decision : ApprovalDecision) (now : String)
  deriving DecidableEq

def Op.call : Op → ServiceCall
  | .insertRun call => Runs.insertRun call
  | .appendEvent runId progress data now => Runs.appendEvent runId progress.type data now
  | .finish runId ending now => transitionWithEvent (ending.call runId now)
  | .pause runId cause now => updateRun (cause.call runId now)
  | .claimApprovalDecision snapshot decision now => Runs.claimApprovalDecision snapshot decision now

def step (db : RunDatabase) (op : Op) : RunDatabase := (op.call.run db db).1

/-- How a step of a run and its log go together: no event and an unresolved status, or one event
that is terminal exactly if the status is. -/
inductive Moves (before after : AgentRun) : List AgentRunEvent → Prop where
  | silent (active : after.status.isActive = true) (same : after.lastSequence = before.lastSequence) : Moves before after []
  | logs (event : AgentRunEvent) (own : event.runId = before.runId) (next : event.sequence = before.lastSequence + 1)
      (counted : after.lastSequence = before.lastSequence + 1)
      (terminal : after.status.isTerminal = event.type.isTerminal)
      (completed : event.type = .runCompleted ↔ after.status = .completed) : Moves before after [event]

/-- A new run, for which nothing in the database stands in the way. -/
structure Inserted (db later : RunDatabase) (run : AgentRun) : Prop where
  runs : later.runs = db.runs ++ [run]
  events : later.events = db.events
  running : run.status = .running
  unlogged : run.lastSequence = 0
  fresh : ∀ other ∈ db.runs, other.runId ≠ run.runId
  free : ∀ other ∈ db.runs, other.checkpointThreadId = run.checkpointThreadId → other.status.isActive = false
  unkeyed : ∀ other ∈ db.runs, other.idempotencyKey.isSome = true →
    other.context.tenantId = run.context.tenantId → other.idempotencyKey ≠ run.idempotencyKey

/-- A step of one unresolved run, with the events that are added for it. -/
structure Advanced (db later : RunDatabase) (run : AgentRun) (chosen : AgentRun → Bool) (change : AgentRun → AgentRun)
    (added : List AgentRunEvent) : Prop where
  member : run ∈ db.runs
  active : run.status.isActive = true
  picked : chosen run = true
  only : ∀ other ∈ db.runs, chosen other = true → other.runId = run.runId
  runs : later.runs = Rows.update chosen change db.runs
  events : later.events = db.events ++ added
  same : ∀ other, (change other).runId = other.runId ∧ (change other).context = other.context ∧
    (change other).checkpointThreadId = other.checkpointThreadId ∧ (change other).idempotencyKey = other.idempotencyKey
  moves : Moves run (change run) added

/-- What one transaction can do to the runs and their events. -/
inductive Change (db : RunDatabase) : RunDatabase → Prop where
  | stays {later : RunDatabase} (runs : later.runs = db.runs) (events : later.events = db.events) : Change db later
  | inserts {later : RunDatabase} {run : AgentRun} (inserted : Inserted db later run) : Change db later
  | advances {later : RunDatabase} {run : AgentRun} {chosen : AgentRun → Bool} {change : AgentRun → AgentRun}
      {added : List AgentRunEvent} (advanced : Advanced db later run chosen change added) : Change db later

section Changes

variable {db : RunDatabase}

theorem abandon_run (error : RunError) (durable working : RunDatabase) :
    (abandon error).run durable working = (durable, .error error) := rfl

theorem attempt_run (statement : Statement) (next : ServiceCall) (durable working : RunDatabase) :
    (attempt statement next).run durable working =
      match statement working with
      | .ok (changed, _) => next.run durable changed
      | .error error => (durable, .error error) := by
  simp only [attempt, Call.run]
  cases statement working <;> rfl

theorem lockedUpdate_run (runId : String) (condition : AgentRun → Bool) (change : AgentRun → AgentRun)
    (next : Nat → Except RunError Result) (durable working : RunDatabase) :
    ((lockedUpdate (updateRunRow runId condition change) next).run durable working).1 =
      { working with runs := Rows.update (fun run => run.runId == runId && condition run) change working.runs } := rfl

theorem run_mem {runId : String} {run : AgentRun} (found : db.run runId = some run) : run ∈ db.runs ∧ run.runId = runId :=
  ⟨List.mem_of_find?_eq_some found, by simpa using List.find?_some found⟩

theorem touchThread_eq (runId now : String) (db : RunDatabase) :
    ∃ threads count, touchThread runId now db = .ok ({ db with threads := threads }, count) := by
  unfold touchThread
  split
  · exact ⟨db.threads, 0, rfl⟩
  · exact ⟨_, _, rfl⟩

theorem insertEvent_eq {event : AgentRunEvent} {changed : RunDatabase} {count : Nat}
    (done : insertEvent event db = .ok (changed, count)) : changed = { db with events := db.events ++ [event] } := by
  unfold insertEvent at done
  split at done
  · cases done
  split at done
  · cases done
  · cases done
    rfl

theorem upsertThread_eq {thread : AgentThread} {changed : RunDatabase} {count : Nat}
    (done : upsertThread thread db = .ok (changed, count)) : changed.runs = db.runs ∧ changed.events = db.events := by
  unfold upsertThread at done
  simp only at done
  split at done
  · cases done
    exact ⟨rfl, rfl⟩
  · cases done
    exact ⟨rfl, rfl⟩

theorem insertUnkeyed_change (call : InsertCall) : Change db ((insertUnkeyed call).run db db).1 := by
  simp only [insertUnkeyed, Call.run]
  cases free : db.unresolved call.checkpointThreadId with
  | some active => exact .stays rfl rfl
  | none =>
    simp only [attempt_run]
    cases threads : upsertThread call.thread db with
    | error error => exact .stays rfl rfl
    | ok result =>
      obtain ⟨changed, count⟩ := result
      obtain ⟨runs, events⟩ := upsertThread_eq threads
      simp only [insertRunRow]
      split
      · rename_i inserted total outcome
        split at outcome
        · cases outcome
        · rename_i taken
          cases outcome
          rw [runs] at taken
          simp only [List.any_eq_true, not_exists, not_and, Bool.or_eq_true, Bool.and_eq_true, beq_iff_eq, not_or] at taken
          refine .inserts (?_ : Inserted db _ call.run)
          refine ⟨by simp [Call.run, runs], events, rfl, rfl, fun other member => (taken other member).1, ?_, ?_⟩
          · intro other member same
            have missed := List.find?_eq_none.mp free other member
            have thread : other.checkpointThreadId = call.checkpointThreadId := same
            simpa [thread] using missed
          · intro other member given tenant key
            exact (taken other member).2 ⟨given, tenant⟩ key
      · exact .stays rfl rfl

theorem insertRun_change (call : InsertCall) : Change db ((insertRun call).run db db).1 := by
  simp only [insertRun, transaction, Call.run]
  cases call.idempotencyKey with
  | none => exact insertUnkeyed_change call
  | some key =>
    simp only [Call.run]
    cases db.keyed call.context.tenantId key with
    | none => exact insertUnkeyed_change call
    | some existing =>
      dsimp only
      split <;> exact .stays rfl rfl

theorem appendEvent_change (runId : String) (progress : Progress) (data : JsonObject) (now : String) :
    Change db ((appendEvent runId progress.type data now).run db db).1 := by
  simp only [appendEvent, transaction, Call.run]
  cases found : db.run runId with
  | none => exact .stays rfl rfl
  | some run =>
    obtain ⟨member, rfl⟩ := run_mem found
    dsimp only
    split
    · exact .stays rfl rfl
    rename_i unresolved
    simp only [attempt_run]
    split
    · rename_i inserted count outcome
      obtain rfl := insertEvent_eq outcome
      simp only [updateRunRow]
      split
      · rename_i touched count outcome
        obtain ⟨threads, total, same⟩ := touchThread_eq run.runId now { db with
          runs := Rows.update (fun other => other.runId == run.runId && true)
            (fun other => { other with lastSequence := run.lastSequence + 1, updatedAt := now }) db.runs
          events := db.events ++ [⟨run.runId, run.lastSequence + 1, progress.type, now, data⟩] }
        rw [same] at outcome
        cases outcome
        have active : run.status.isActive = true := by
          cases status : run.status <;> first | rfl | simp [status, AgentRunStatus.isTerminal] at unresolved
        refine .advances ⟨member, active, by simp, ?_, rfl, rfl, ?_, ?_⟩
        · intro other _ picked
          simpa using picked
        · exact fun _ => ⟨rfl, rfl, rfl, rfl⟩
        · refine .logs _ rfl rfl rfl ?_ ?_
          · cases status : run.status <;> simp [status, AgentRunStatus.isActive] at active <;> cases progress <;> rfl
          · cases status : run.status <;> simp [status, AgentRunStatus.isActive] at active <;> cases progress <;> simp [Progress.type]
      · exact .stays rfl rfl
    · exact .stays rfl rfl

/-- Every ending is terminal, from an unresolved status, and completes a run with `run.completed`. -/
theorem Ending.terminal (ending : Ending) (runId now : String) :
    (ending.call runId now).runId = runId ∧
      (∀ status ∈ (ending.call runId now).allowedStatuses, status.isActive = true) ∧
      (ending.call runId now).status.isTerminal = (ending.call runId now).eventType.isTerminal ∧
      ((ending.call runId now).eventType = .runCompleted ↔ (ending.call runId now).status = .completed) := by
  cases ending <;> refine ⟨rfl, by simp [Ending.call, AgentRunStatus.isActive], rfl, by simp [Ending.call]⟩

theorem Pause.active (pause : Pause) (runId now : String) :
    (pause.call runId now).runId = runId ∧
      (∀ status ∈ (pause.call runId now).allowedStatuses, status.isActive = true) ∧
      ∀ before : AgentRunStatus, ((pause.call runId now).status.getD before).isActive = true := by
  cases pause with
  | streamDecided decided text =>
    refine ⟨rfl, by simp [Pause.call, AgentRunStatus.isActive], fun _ => ?_⟩
    simp only [Pause.call, Option.getD_some]
    split <;> rfl
  | _ => exact ⟨rfl, by simp [Pause.call, AgentRunStatus.isActive], fun _ => rfl⟩

theorem transitionWithEvent_change (runId : String) (ending : Ending) (now : String) :
    Change db ((transitionWithEvent (ending.call runId now)).run db db).1 := by
  obtain ⟨own, allowed, terminal, completed⟩ := ending.terminal runId now
  generalize ending.call runId now = call at own allowed terminal completed
  subst own
  simp only [transitionWithEvent, transaction, Call.run]
  cases found : db.run call.runId with
  | none => exact .stays rfl rfl
  | some run =>
    obtain ⟨member, named⟩ := run_mem found
    dsimp only
    split
    · exact .stays rfl rfl
    rename_i permitted
    simp only [attempt_run, updateRunRow]
    split
    · rename_i touched count outcome
      obtain ⟨threads, total, same⟩ := touchThread_eq call.runId call.now { db with
        runs := Rows.update (fun other => other.runId == call.runId && true) (fun other =>
          { other with
            status := call.status
            lastSequence := run.lastSequence + 1
            updatedAt := call.now
            finalText := call.finalText.getD other.finalText
            error := call.error.getD other.error
            approvals := call.approvals.getD other.approvals }) db.runs }
      rw [same] at outcome
      cases outcome
      split
      · rename_i inserted count outcome
        obtain rfl := insertEvent_eq outcome
        refine .advances ⟨member, allowed _ (not_not.mp permitted), by simp [named], ?_, rfl, rfl, ?_, ?_⟩
        · intro other _ picked
          rw [named]
          simpa using picked
        · exact fun _ => ⟨rfl, rfl, rfl, rfl⟩
        · exact .logs _ named.symm rfl rfl terminal completed
      · exact .stays rfl rfl
    · exact .stays rfl rfl

/-- A conditional update of one run, within the unresolved statuses. -/
theorem updateRow_change {runId : String} {condition : AgentRun → Bool} {change : AgentRun → AgentRun}
    (active : ∀ run, condition run = true → run.status.isActive = true ∧ (change run).status.isActive = true)
    (same : ∀ other, (change other).runId = other.runId ∧ (change other).context = other.context ∧
        (change other).checkpointThreadId = other.checkpointThreadId ∧ (change other).idempotencyKey = other.idempotencyKey)
    (counted : ∀ other, (change other).lastSequence = other.lastSequence) :
    Change db { db with
      runs := Rows.update (fun run => run.runId == runId && condition run) change db.runs } := by
  by_cases hit : ∃ run ∈ db.runs, (run.runId == runId && condition run) = true
  · obtain ⟨run, member, picked⟩ := hit
    obtain ⟨named, meets⟩ := by simpa only [Bool.and_eq_true, beq_iff_eq] using picked
    obtain ⟨before, after⟩ := active run meets
    refine .advances ⟨member, before, picked, ?_, rfl, (List.append_nil _).symm, same, .silent after (counted run)⟩
    intro other _ chosen
    simp only [Bool.and_eq_true, beq_iff_eq] at chosen
    rw [chosen.1, named]
  · refine .stays (Rows.update_of_none fun run member => ?_) rfl
    simpa using fun picked => hit ⟨run, member, picked⟩

theorem updateRun_change (runId : String) (pause : Pause) (now : String) :
    Change db ((updateRun (pause.call runId now)).run db db).1 := by
  obtain ⟨own, allowed, active⟩ := pause.active runId now
  generalize pause.call runId now = call at own allowed active
  simp only [updateRun, lockedUpdate_run]
  refine updateRow_change ?_ (fun _ => ⟨rfl, rfl, rfl, rfl⟩) fun _ => rfl
  intro run permitted
  exact ⟨allowed _ (by simpa using permitted), active run.status⟩

theorem claimApprovalDecision_change (snapshot : AgentRun) (decision : ApprovalDecision) (now : String) :
    Change db ((claimApprovalDecision snapshot decision now).run db db).1 := by
  unfold claimApprovalDecision
  split
  · exact .stays rfl rfl
  split
  · exact .stays rfl rfl
  · exact .stays rfl rfl
  · simp only [lockedUpdate_run]
    refine updateRow_change ?_ (fun _ => ⟨rfl, rfl, rfl, rfl⟩) fun _ => rfl
    intro run claimed
    simp only [Bool.and_eq_true, beq_iff_eq] at claimed
    refine ⟨by rw [claimed.1]; rfl, ?_⟩
    dsimp only
    split <;> rfl

theorem step_change (db : RunDatabase) (op : Op) : Change db (step db op) := by
  cases op with
  | insertRun call => exact insertRun_change call
  | appendEvent runId progress data now => exact appendEvent_change runId progress data now
  | finish runId ending now => exact transitionWithEvent_change runId ending now
  | pause runId cause now => exact updateRun_change runId cause now
  | claimApprovalDecision snapshot decision now => exact claimApprovalDecision_change snapshot decision now

end Changes

/-- The log of a run that ended is closed by its one terminal event; any other run has none. -/
def Logged (run : AgentRun) (events : List AgentRunEvent) : Prop :=
  if run.status.isTerminal then
    ∃ front last, events = front ++ [last] ∧ last.type.isTerminal = true ∧
      (last.type = .runCompleted ↔ run.status = .completed) ∧ ∀ event ∈ front, event.type.isTerminal = false
  else ∀ event ∈ events, event.type.isTerminal = false

/-- The number of the events, their order and how they end, for one run. -/
structure Chronicled (run : AgentRun) (events : List AgentRunEvent) : Prop where
  numbered : events.map AgentRunEvent.sequence = List.range' 1 run.lastSequence
  logged : Logged run events

structure Sound (db : RunDatabase) : Prop where
  single : (db.runs.map AgentRun.runId).Nodup
  referred : ∀ event ∈ db.events, ∃ run ∈ db.runs, run.runId = event.runId
  chronicled : ∀ run ∈ db.runs, Chronicled run (db.eventsOf run.runId)
  exclusive : ∀ first ∈ db.runs, ∀ second ∈ db.runs, first.checkpointThreadId = second.checkpointThreadId →
    first.status.isActive = true → second.status.isActive = true → first = second
  keyed : ∀ first ∈ db.runs, ∀ second ∈ db.runs, first.context.tenantId = second.context.tenantId →
    first.idempotencyKey = second.idempotencyKey → first.idempotencyKey.isSome = true → first = second

section Invariant

variable {db later : RunDatabase}

theorem isTerminal_of_active {status : AgentRunStatus} (active : status.isActive = true) : status.isTerminal = false := by
  cases status <;> first | rfl | cases active

theorem Moves.chronicled {before after : AgentRun} {events added : List AgentRunEvent} (moves : Moves before after added)
    (active : before.status.isActive = true) (chronicled : Chronicled before events) : Chronicled after (events ++ added) := by
  obtain ⟨numbered, logged⟩ := chronicled
  rw [Logged, isTerminal_of_active active] at logged
  cases moves with
  | silent unresolved same =>
    rw [List.append_nil]
    refine ⟨same ▸ numbered, ?_⟩
    rw [Logged, isTerminal_of_active unresolved]
    exact logged
  | logs event own next counted terminal completed =>
    refine ⟨?_, ?_⟩
    · have length : events.length = before.lastSequence := by simpa using congrArg List.length numbered
      have whole : events.map AgentRunEvent.sequence = List.range' 1 events.length := by rw [length, numbered]
      have extended := Rows.numbered_append whole (next.trans (by rw [length]))
      rw [extended, counted, List.length_append, length]
      rfl
    · rw [Logged]
      cases ended : after.status.isTerminal with
      | true => exact ⟨events, event, rfl, terminal ▸ ended, completed, logged⟩
      | false =>
        intro other member
        rcases List.mem_append.mp member with earlier | last
        · exact logged other earlier
        · rw [List.mem_singleton.mp last, ← terminal, ended]

theorem Moves.owned {before after : AgentRun} {added : List AgentRunEvent} (moves : Moves before after added) :
    ∀ event ∈ added, event.runId = before.runId := by
  intro event member
  cases moves with
  | silent _ _ => cases member
  | logs event own _ _ _ _ => rw [List.mem_singleton.mp member, own]

theorem eventsOf_append {added : List AgentRunEvent} (events : later.events = db.events ++ added) (runId : String) :
    later.eventsOf runId = db.eventsOf runId ++ added.filter fun event => event.runId == runId := by
  rw [RunDatabase.eventsOf, events, List.filter_append]
  rfl

theorem eventsOf_same (events : later.events = db.events) : later.eventsOf = db.eventsOf := by
  funext runId
  rw [RunDatabase.eventsOf, RunDatabase.eventsOf, events]

section Inserted

variable {run : AgentRun}

theorem Inserted.cases_run (inserted : Inserted db later run) {other : AgentRun} (member : other ∈ later.runs) :
    other ∈ db.runs ∨ other = run := by
  rw [inserted.runs, List.mem_append, List.mem_singleton] at member
  exact member

theorem Inserted.chronicled (inserted : Inserted db later run) (sound : Sound db) :
    Chronicled run (later.eventsOf run.runId) := by
  have empty : db.eventsOf run.runId = [] := by
    rw [RunDatabase.eventsOf, List.filter_eq_nil_iff]
    intro event present same
    obtain ⟨owner, known, named⟩ := sound.referred event present
    exact inserted.fresh owner known (named.trans (beq_iff_eq.mp same))
  rw [eventsOf_same inserted.events, empty]
  refine ⟨by rw [inserted.unlogged]; rfl, ?_⟩
  rw [Logged, inserted.running]
  simp [AgentRunStatus.isTerminal]

theorem Inserted.sound (inserted : Inserted db later run) (sound : Sound db) : Sound later where
  single := by
    rw [inserted.runs, List.map_append, List.nodup_append]
    refine ⟨sound.single, by simp, ?_⟩
    rintro id present _ last rfl
    rw [List.map_singleton, List.mem_singleton] at last
    obtain ⟨other, member, named⟩ := List.mem_map.mp present
    exact inserted.fresh other member (named.trans last)
  referred := by
    intro event member
    obtain ⟨owner, present, named⟩ := sound.referred event (inserted.events ▸ member)
    exact ⟨owner, by simp [inserted.runs, present], named⟩
  chronicled := by
    intro other member
    rcases inserted.cases_run member with before | rfl
    · rw [eventsOf_same inserted.events]
      exact sound.chronicled other before
    · exact inserted.chronicled sound
  exclusive := by
    intro first left second right thread active unresolved
    rcases inserted.cases_run left with earlier | rfl
    · rcases inserted.cases_run right with before | rfl
      · exact sound.exclusive first earlier second before thread active unresolved
      · rw [inserted.free first earlier thread] at active
        cases active
    · rcases inserted.cases_run right with before | rfl
      · rw [inserted.free second before thread.symm] at unresolved
        cases unresolved
      · rfl
  keyed := by
    intro first left second right tenant key given
    rcases inserted.cases_run left with earlier | rfl
    · rcases inserted.cases_run right with before | rfl
      · exact sound.keyed first earlier second before tenant key given
      · exact absurd key (inserted.unkeyed first earlier given tenant)
    · rcases inserted.cases_run right with before | rfl
      · exact absurd key.symm (inserted.unkeyed second before (key ▸ given) tenant.symm)
      · rfl

end Inserted

section Advanced

variable {run : AgentRun} {chosen : AgentRun → Bool} {change : AgentRun → AgentRun} {added : List AgentRunEvent}

theorem Advanced.cases_run (advanced : Advanced db later run chosen change added) (sound : Sound db) {other : AgentRun}
    (inside : other ∈ later.runs) : other = change run ∨ other ∈ db.runs ∧ other.runId ≠ run.runId := by
  rw [advanced.runs] at inside
  rcases Rows.mem_update.mp inside with ⟨old, present, found, rfl⟩ | ⟨present, missed⟩
  · rw [Rows.eq_of_key_eq sound.single present advanced.member (advanced.only old present found)]
    exact Or.inl rfl
  · refine Or.inr ⟨present, fun named => ?_⟩
    rw [Rows.eq_of_key_eq sound.single present advanced.member named, advanced.picked] at missed
    cases missed

/-- Each run was there before, under the same keys, and is unresolved only if it was. -/
theorem Advanced.origin (advanced : Advanced db later run chosen change added) (sound : Sound db) {other : AgentRun}
    (inside : other ∈ later.runs) :
    ∃ old ∈ db.runs, old.runId = other.runId ∧ old.context = other.context ∧
      old.checkpointThreadId = other.checkpointThreadId ∧ old.idempotencyKey = other.idempotencyKey ∧
      (other.status.isActive = true → old.status.isActive = true) := by
  rcases advanced.cases_run sound inside with rfl | ⟨before, _⟩
  · obtain ⟨id, context, thread, key⟩ := advanced.same run
    exact ⟨run, advanced.member, id.symm, context.symm, thread.symm, key.symm, fun _ => advanced.active⟩
  · exact ⟨other, before, rfl, rfl, rfl, rfl, fun active => active⟩

theorem Advanced.eventsOf_other (advanced : Advanced db later run chosen change added) {runId : String}
    (different : runId ≠ run.runId) : later.eventsOf runId = db.eventsOf runId := by
  rw [eventsOf_append advanced.events, List.append_right_eq_self, List.filter_eq_nil_iff]
  intro event present named
  exact different ((beq_iff_eq.mp named).symm.trans (advanced.moves.owned event present))

theorem Advanced.eventsOf_own (advanced : Advanced db later run chosen change added) :
    later.eventsOf run.runId = db.eventsOf run.runId ++ added := by
  rw [eventsOf_append advanced.events, List.filter_eq_self.mpr]
  intro event present
  rw [advanced.moves.owned event present]
  simp

theorem Advanced.single (advanced : Advanced db later run chosen change added) (sound : Sound db) :
    (later.runs.map AgentRun.runId).Nodup := by
  rw [advanced.runs, Rows.map_update AgentRun.runId fun other _ => (advanced.same other).1]
  exact sound.single

theorem Advanced.kept (advanced : Advanced db later run chosen change added) {owner : AgentRun} (present : owner ∈ db.runs) :
    ∃ new ∈ later.runs, new.runId = owner.runId := by
  rw [advanced.runs]
  refine ⟨_, List.mem_map_of_mem present, ?_⟩
  split
  · exact (advanced.same owner).1
  · rfl

theorem Advanced.sound (advanced : Advanced db later run chosen change added) (sound : Sound db) : Sound later where
  single := advanced.single sound
  referred := by
    intro event inside
    rw [advanced.events, List.mem_append] at inside
    rcases inside with before | new
    · obtain ⟨owner, present, named⟩ := sound.referred event before
      obtain ⟨same, kept, equal⟩ := advanced.kept present
      exact ⟨same, kept, equal.trans named⟩
    · obtain ⟨same, kept, equal⟩ := advanced.kept advanced.member
      exact ⟨same, kept, equal.trans (advanced.moves.owned event new).symm⟩
  chronicled := by
    intro other inside
    rcases advanced.cases_run sound inside with rfl | ⟨before, different⟩
    · rw [(advanced.same run).1, advanced.eventsOf_own]
      exact advanced.moves.chronicled advanced.active (sound.chronicled run advanced.member)
    · rw [advanced.eventsOf_other different]
      exact sound.chronicled other before
  exclusive := by
    intro first left second right thread active unresolved
    obtain ⟨old, present, named, _, sameThread, _, still⟩ := advanced.origin sound left
    obtain ⟨other, known, equal, _, otherThread, _, again⟩ := advanced.origin sound right
    have one := sound.exclusive old present other known (sameThread.trans (thread.trans otherThread.symm))
      (still active) (again unresolved)
    exact Rows.eq_of_key_eq (advanced.single sound) left right (by rw [← named, ← equal, one])
  keyed := by
    intro first left second right tenant key given
    obtain ⟨old, present, named, context, _, sameKey, _⟩ := advanced.origin sound left
    obtain ⟨other, known, equal, otherContext, _, otherKey, _⟩ := advanced.origin sound right
    have one := sound.keyed old present other known (by rw [context, otherContext, tenant])
      (sameKey.trans (key.trans otherKey.symm)) (sameKey ▸ given)
    exact Rows.eq_of_key_eq (advanced.single sound) left right (by rw [← named, ← equal, one])

end Advanced

theorem Change.sound (change : Change db later) (sound : Sound db) : Sound later := by
  cases change with
  | stays runs events =>
    exact ⟨runs ▸ sound.single, runs ▸ events ▸ sound.referred, runs ▸ eventsOf_same events ▸ sound.chronicled,
      runs ▸ sound.exclusive, runs ▸ sound.keyed⟩
  | inserts inserted => exact inserted.sound sound
  | advances advanced => exact advanced.sound sound

theorem sound_empty : Sound .empty := by
  refine ⟨by simp [RunDatabase.empty], ?_, ?_, ?_, ?_⟩ <;> simp [RunDatabase.empty]

theorem step_sound (sound : Sound db) (op : Op) : Sound (step db op) := (step_change db op).sound sound

theorem exec_sound (sound : Sound db) (ops : List Op) : Sound (Run.exec step db ops) :=
  @Run.exec_invariant RunDatabase Op step Sound (fun _ op sound => step_sound sound op) db sound ops

/-- A run that has ended keeps its row and its log. -/
def Frozen (db later : RunDatabase) : Prop :=
  ∀ run ∈ db.runs, run.status.isTerminal = true → run ∈ later.runs ∧ later.eventsOf run.runId = db.eventsOf run.runId

theorem Change.frozen (change : Change db later) (sound : Sound db) : Frozen db later := by
  intro ended member terminal
  cases change with
  | stays runs events => exact ⟨runs ▸ member, by rw [eventsOf_same events]⟩
  | inserts inserted => exact ⟨by simp [inserted.runs, member], by rw [eventsOf_same inserted.events]⟩
  | @advances run chosen change added advanced =>
    have different : ended.runId ≠ run.runId := by
      intro named
      rw [Rows.eq_of_key_eq sound.single member advanced.member named, isTerminal_of_active advanced.active] at terminal
      cases terminal
    refine ⟨?_, advanced.eventsOf_other different⟩
    rw [advanced.runs]
    refine Rows.mem_update.mpr (Or.inr ⟨member, ?_⟩)
    by_contra found
    exact different (advanced.only ended member (by simpa using found))

theorem exec_frozen (sound : Sound db) (ops : List Op) : Frozen db (Run.exec step db ops) := by
  refine @Run.exec_related RunDatabase Op step Sound Frozen ?_ ?_ (fun _ op sound => step_sound sound op)
    (fun db op sound => (step_change db op).frozen sound) db sound ops
  · exact fun _ run member _ => ⟨member, rfl⟩
  · intro first second third left right run member terminal
    obtain ⟨kept, same⟩ := left run member terminal
    obtain ⟨still, equal⟩ := right run kept terminal
    exact ⟨still, equal.trans same⟩

theorem keyed_of_mem (sound : Sound db) {run : AgentRun} {key : String} (member : run ∈ db.runs)
    (given : run.idempotencyKey = some key) : db.keyed run.context.tenantId key = some run := by
  cases found : db.keyed run.context.tenantId key with
  | none =>
    have missed := List.find?_eq_none.mp found run member
    simp [given] at missed
  | some other =>
    have chosen := List.find?_some found
    simp only [Bool.and_eq_true, beq_iff_eq] at chosen
    rw [sound.keyed run member other (List.mem_of_find?_eq_some found) chosen.1.symm (given.trans chosen.2.symm)
      (by simp [given])]

end Invariant

/-- After every sequence of transactions: the log of each run is numbered up to its last sequence
and ends as its status says, an ended run is never changed again, a checkpoint thread has one
unresolved run at most, and an idempotency key belongs to one run, which another request under
the same key does not change. -/
theorem run_and_log_agree (ops : List Op) :
    let db := Run.exec step .empty ops
    (∀ run ∈ db.runs, Chronicled run (db.eventsOf run.runId)) ∧
    (∀ later, Frozen db (Run.exec step db later)) ∧
    (∀ first ∈ db.runs, ∀ second ∈ db.runs, first.checkpointThreadId = second.checkpointThreadId →
      first.status.isActive = true → second.status.isActive = true → first = second) ∧
    (∀ first ∈ db.runs, ∀ second ∈ db.runs, first.context.tenantId = second.context.tenantId →
      first.idempotencyKey = second.idempotencyKey → first.idempotencyKey.isSome = true → first = second) ∧
    ∀ call key, ∀ run ∈ db.runs, run.context.tenantId = call.context.tenantId → run.idempotencyKey = some key →
      call.idempotencyKey = some key → run.requestDigest ≠ call.requestDigest →
      (Runs.insertRun call).run db db = (db, .error .idempotencyConflict) := by
  intro db
  have sound : Sound db := exec_sound sound_empty ops
  refine ⟨sound.chronicled, exec_frozen sound, sound.exclusive, sound.keyed, ?_⟩
  intro call key run member tenant given asked different
  have found := keyed_of_mem sound member given
  rw [tenant] at found
  simp only [Runs.insertRun, transaction, asked, Call.run, found]
  rw [if_pos different]
  rfl

example :
    let context : AgentRunContext := ⟨"t", "a", "h", "web", "owner", "c", "", "owner", 1, "owner"⟩
    let call : InsertCall := ⟨"r", "p", context, "hi", [], some "k", "d", 0, "", "plan", "1"⟩
    let db := Run.exec step .empty [.insertRun call, .insertRun { call with runId := "s", requestDigest := "e" },
      .appendEvent "r" .runStarted [] "2", .finish "r" (.streamCompleted "ok") "3", .finish "r" .cancelled "4"]
    db.runs.map (fun run => (run.runId, run.status, run.lastSequence)) = [("r", .completed, 2)] ∧
      db.events.map AgentRunEvent.type = [.runStarted, .runCompleted] := by
  decide +kernel

end OpenTulpa.DeepAgent.RunLog
