import OpenTulpa.Library.Connection
import OpenTulpa.Library.Rows
import OpenTulpa.Library.Text

/-! The run database of the agent service: runs with their event logs, threads and inference
preferences, the statements the service issues, and its operations as calls on the connection.
Texts that are stored are taken as redacted already, and event data as the pairs of its object. -/

namespace OpenTulpa.DeepAgent.Runs

open Library Text Connection

inductive AgentRunStatus where
  | running
  | interrupted
  | resumePending
  | completed
  | failed
  | cancelled
  deriving DecidableEq

def AgentRunStatus.value : AgentRunStatus → String
  | .running => "running"
  | .interrupted => "interrupted"
  | .resumePending => "resume_pending"
  | .completed => "completed"
  | .failed => "failed"
  | .cancelled => "cancelled"

/-- `_ACTIVE_RUN_STATUSES` -/
def AgentRunStatus.isActive : AgentRunStatus → Bool
  | .running | .interrupted | .resumePending => true
  | .completed | .failed | .cancelled => false

/-- `_TERMINAL_RUN_STATUSES` -/
def AgentRunStatus.isTerminal : AgentRunStatus → Bool
  | .completed | .failed | .cancelled => true
  | .running | .interrupted | .resumePending => false

inductive AgentRunEventType where
  | runStarted
  | messageDelta
  | toolStarted
  | toolCompleted
  | approvalRequired
  | artifactReady
  | runCompleted
  | runFailed
  deriving DecidableEq

def AgentRunEventType.isTerminal : AgentRunEventType → Bool
  | .runCompleted | .runFailed => true
  | _ => false

inductive AgentApprovalStatus where
  | pending
  | approve
  | edit
  | reject
  deriving DecidableEq

structure AgentApproval where
  id : String
  toolName : String
  description : String
  arguments : JsonObject
  allowedDecisions : List String
  status : AgentApprovalStatus
  editedArguments : Option JsonObject
  message : Option String
  deriving DecidableEq

structure AgentRunContext where
  tenantId : String
  actorId : String
  threadId : String
  channel : String
  runKind : String
  correlationId : String
  origin : String
  agentSpecId : String
  agentSpecRevision : Nat
  trustClass : String
  deriving DecidableEq

structure AgentRun where
  runId : String
  context : AgentRunContext
  checkpointThreadId : String
  idempotencyKey : Option String
  requestDigest : String
  dynamicGeneration : Nat
  dynamicDigest : String
  requestText : String
  fileIds : List String
  inferencePlan : String
  status : AgentRunStatus
  finalText : String
  error : String
  approvals : List AgentApproval
  lastSequence : Nat
  createdAt : String
  updatedAt : String
  deriving DecidableEq

structure AgentRunEvent where
  runId : String
  sequence : Nat
  type : AgentRunEventType
  timestamp : String
  data : JsonObject
  deriving DecidableEq

structure AgentThread where
  tenantId : String
  threadId : String
  title : String
  channel : String
  archived : Bool
  createdAt : String
  updatedAt : String
  deriving DecidableEq

def AgentThread.key (thread : AgentThread) : String × String := (thread.tenantId, thread.threadId)

def AgentRun.threadKey (run : AgentRun) : String × String := (run.context.tenantId, run.context.threadId)

structure InferencePreference where
  tenantId : String
  revision : Nat
  selection : Option String
  updatedAt : String
  deriving DecidableEq

structure RunDatabase where
  runs : List AgentRun
  events : List AgentRunEvent
  threads : List AgentThread
  preferences : List InferencePreference
  deriving DecidableEq

def RunDatabase.empty : RunDatabase := ⟨[], [], [], []⟩

inductive RunError where
  | notFound (message : String)
  | value (message : String)
  | idempotencyConflict
  | checkpointConflict
  | inferenceConflict
  | integrity
  | nestedTransaction
  deriving DecidableEq

def RunDatabase.run (db : RunDatabase) (runId : String) : Option AgentRun :=
  db.runs.find? fun run => run.runId == runId

def RunDatabase.eventsOf (db : RunDatabase) (runId : String) : List AgentRunEvent :=
  db.events.filter fun event => event.runId == runId

def RunDatabase.keyed (db : RunDatabase) (tenantId key : String) : Option AgentRun :=
  db.runs.find? fun run => run.context.tenantId == tenantId && run.idempotencyKey == some key

/-- The unresolved run of a checkpoint thread. -/
def RunDatabase.unresolved (db : RunDatabase) (checkpointThreadId : String) : Option AgentRun :=
  db.runs.find? fun run => run.checkpointThreadId == checkpointThreadId && run.status.isActive

def RunDatabase.preference (db : RunDatabase) (tenantId : String) : Option InferencePreference :=
  db.preferences.find? fun preference => preference.tenantId == tenantId

section Statements

/-- A data statement: the database it leaves and its row count, unless a constraint fails. -/
abbrev Statement := RunDatabase → Except RunError (RunDatabase × Nat)

/-- `INSERT INTO agent_threads` of `create_thread` -/
def insertThread (thread : AgentThread) : Statement := fun db =>
  if db.threads.any fun other => other.key == thread.key then .error .integrity
  else .ok ({ db with threads := db.threads ++ [thread] }, 1)

/-- `ON CONFLICT DO NOTHING` of `ensure_thread` -/
def insertMissingThread (thread : AgentThread) : Statement := fun db =>
  if db.threads.any fun other => other.key == thread.key then .ok (db, 0)
  else .ok ({ db with threads := db.threads ++ [thread] }, 1)

/-- `ON CONFLICT DO UPDATE` of `_insert_run` -/
def upsertThread (thread : AgentThread) : Statement := fun db =>
  let renamed := fun title : String =>
    if (title = "New session" ∨ title = "Previous session") ∧ thread.title ≠ "New session" then thread.title else title
  let refresh := fun other : AgentThread =>
    { other with title := renamed other.title, channel := thread.channel, archived := false, updatedAt := thread.updatedAt }
  if db.threads.any fun other => other.key == thread.key then
    .ok ({ db with threads := Rows.update (fun other => other.key == thread.key) refresh db.threads }, 1)
  else .ok ({ db with threads := db.threads ++ [thread] }, 1)

/-- `UPDATE agent_threads` of `update_thread` -/
def updateThreadRow (key : String × String) (title : Option String) (archived : Option Bool) (now : String) :
    Statement := fun db =>
  let chosen := fun thread : AgentThread => thread.key == key
  let change := fun thread : AgentThread =>
    { thread with updatedAt := now, title := title.getD thread.title, archived := archived.getD thread.archived }
  .ok ({ db with threads := Rows.update chosen change db.threads }, db.threads.countP chosen)

/-- The `updated_at` of the thread of a run. -/
def touchThread (runId now : String) : Statement := fun db =>
  match db.run runId with
  | none => .ok (db, 0)
  | some run =>
    let chosen := fun thread : AgentThread => thread.key == run.threadKey
    .ok ({ db with threads := Rows.update chosen (fun thread => { thread with updatedAt := now }) db.threads },
      db.threads.countP chosen)

/-- `INSERT INTO agent_runs`, under its primary key and the unique index of idempotency keys. -/
def insertRunRow (run : AgentRun) : Statement := fun db =>
  let taken := fun other : AgentRun => other.runId == run.runId ||
    (other.idempotencyKey.isSome && other.context.tenantId == run.context.tenantId &&
      other.idempotencyKey == run.idempotencyKey)
  if db.runs.any taken then .error .integrity
  else .ok ({ db with runs := db.runs ++ [run] }, 1)

/-- `INSERT INTO agent_run_events`, under its primary key and the reference to the run. -/
def insertEvent (event : AgentRunEvent) : Statement := fun db =>
  if db.events.any fun other => other.runId == event.runId && other.sequence == event.sequence then .error .integrity
  else if (db.run event.runId).isNone then .error .integrity
  else .ok ({ db with events := db.events ++ [event] }, 1)

/-- `UPDATE agent_runs SET change WHERE run_id = ? AND condition` -/
def updateRunRow (runId : String) (condition : AgentRun → Bool) (change : AgentRun → AgentRun) : Statement := fun db =>
  let chosen := fun run : AgentRun => run.runId == runId && condition run
  .ok ({ db with runs := Rows.update chosen change db.runs }, db.runs.countP chosen)

def upsertPreference (preference : InferencePreference) : Statement := fun db =>
  let chosen := fun other : InferencePreference => other.tenantId == preference.tenantId
  if db.preferences.any chosen then
    .ok ({ db with preferences := Rows.update chosen (fun _ => preference) db.preferences }, 1)
  else .ok ({ db with preferences := db.preferences ++ [preference] }, 1)

end Statements

/-- What the operations return. -/
inductive Result where
  | none
  | run (runId : String)
  | event (event : Option AgentRunEvent)
  | updated (found : Bool)
  | approvals (approvals : List AgentApproval)
  | thread (thread : Option AgentThread)
  | preference (preference : Option InferencePreference)
  deriving DecidableEq

abbrev ServiceCall := Call RunDatabase RunError Result

/-- The handler of a transaction: roll back and raise. -/
def abandon (error : RunError) : ServiceCall := .rollback (.unlock (.done (.error error)))

/-- A statement of a transaction that does not look at its row count. -/
def attempt (statement : Statement) (next : ServiceCall) : ServiceCall :=
  .write statement fun
    | .ok _ => next
    | .error error => abandon error

/-- `async with self._run_event_lock` around `BEGIN IMMEDIATE` -/
def transaction (body : ServiceCall) : ServiceCall :=
  .lock (.beginImmediate body (.unlock (.done (.error .nestedTransaction))))

/-- The same lock around one statement and its commit. -/
def lockedUpdate (statement : Statement) (next : Nat → Except RunError Result) : ServiceCall :=
  .lock (.write statement fun
    | .ok count => .commit (.unlock (.done (next count)))
    | .error error => .unlock (.done (.error error)))

/-- The words of a text with one space between them. -/
def collapse (text : String) : String :=
  String.ofList ([' '].intercalate ((text.toList.splitOnP isSpace).filter fun word => !word.isEmpty))

def sliced (text : String) (n : Nat) : String := String.ofList (text.toList.take n)

/-- `_normalize_thread_title` -/
def normalizeThreadTitle (value : Option String) : String := sliced (collapse (value.getD "")) 120

/-- `_thread_title` -/
def threadTitle (requestText : String) : String :=
  let text := collapse requestText
  if text.isEmpty ∨ text = "/regenerate" then "New session" else normalizeThreadTitle (some (sliced text 80))

/-- `threadId` is drawn at random. -/
def createThread (tenantId channel : String) (title : Option String) (threadId now : String) : ServiceCall :=
  let normalized := normalizeThreadTitle title
  let thread : AgentThread :=
    ⟨tenantId, threadId, if normalized.isEmpty then "New session" else normalized, channel, false, now, now⟩
  .write (insertThread thread) fun
    | .ok _ => .commit (.done (.ok (.thread (some thread))))
    | .error error => .done (.error error)

def ensureThread (tenantId threadId channel now : String) : ServiceCall :=
  lockedUpdate (insertMissingThread ⟨tenantId, threadId, "New session", channel, false, now, now⟩) fun _ => .ok .none

def updateThread (tenantId threadId : String) (title : Option String) (archived : Option Bool) (now : String) : ServiceCall :=
  let normalized := title.map fun value => normalizeThreadTitle (some value)
  if normalized = some "" then .done (.error (.value "thread title cannot be empty"))
  else
    .write (updateThreadRow (tenantId, threadId) normalized archived now) fun
      | .error error => .done (.error error)
      | .ok count =>
        .commit (if count = 1 then
          .read fun db => .done (.ok (.thread (db.threads.find? fun thread => thread.key == (tenantId, threadId))))
        else .done (.ok (.thread none)))

structure InsertCall where
  runId : String
  checkpointThreadId : String
  context : AgentRunContext
  requestText : String
  fileIds : List String
  idempotencyKey : Option String
  requestDigest : String
  dynamicGeneration : Nat
  dynamicDigest : String
  inferencePlan : String
  now : String
  deriving DecidableEq

def InsertCall.thread (call : InsertCall) : AgentThread :=
  ⟨call.context.tenantId, call.context.threadId, threadTitle call.requestText, call.context.channel, false, call.now,
    call.now⟩

def InsertCall.run (call : InsertCall) : AgentRun where
  runId := call.runId
  context := call.context
  checkpointThreadId := call.checkpointThreadId
  idempotencyKey := call.idempotencyKey
  requestDigest := call.requestDigest
  dynamicGeneration := call.dynamicGeneration
  dynamicDigest := call.dynamicDigest
  requestText := call.requestText
  fileIds := call.fileIds
  inferencePlan := call.inferencePlan
  status := .running
  finalText := ""
  error := ""
  approvals := []
  lastSequence := 0
  createdAt := call.now
  updatedAt := call.now

/-- `_insert_run` after the check of its idempotency key. A conflict is rolled back where it is
found and once more by the handler. -/
def insertUnkeyed (call : InsertCall) : ServiceCall :=
  .read fun db =>
    match db.unresolved call.checkpointThreadId with
    | some _ => .rollback (abandon .checkpointConflict)
    | none =>
      attempt (upsertThread call.thread)
        (attempt (insertRunRow call.run) (.commit (.unlock (.done (.ok (.run call.runId))))))

/-- `_insert_run` -/
def insertRun (call : InsertCall) : ServiceCall :=
  transaction (
    match call.idempotencyKey with
    | none => insertUnkeyed call
    | some key =>
      .read fun db =>
        match db.keyed call.context.tenantId key with
        | none => insertUnkeyed call
        | some existing =>
          if existing.requestDigest ≠ call.requestDigest then .rollback (abandon .idempotencyConflict)
          else .rollback (.unlock (.done (.ok (.run existing.runId)))))

def missingRun (runId : String) : RunError := .notFound ("agent run not found: " ++ runId)

/-- `_append_event` -/
def appendEvent (runId : String) (type : AgentRunEventType) (data : JsonObject) (now : String) : ServiceCall :=
  transaction (.read fun db =>
    match db.run runId with
    | none => abandon (missingRun runId)
    | some run =>
      if run.status.isTerminal then .rollback (.unlock (.done (.ok (.event none))))
      else
        let event : AgentRunEvent := ⟨runId, run.lastSequence + 1, type, now, data⟩
        attempt (insertEvent event)
          (attempt (updateRunRow runId (fun _ => true)
              fun run => { run with lastSequence := event.sequence, updatedAt := now })
            (attempt (touchThread runId now) (.commit (.unlock (.done (.ok (.event (some event)))))))))

structure TransitionCall where
  runId : String
  allowedStatuses : List AgentRunStatus
  status : AgentRunStatus
  eventType : AgentRunEventType
  eventData : JsonObject
  finalText : Option String
  error : Option String
  approvals : Option (List AgentApproval)
  now : String
  deriving DecidableEq

/-- `_transition_with_event` -/
def transitionWithEvent (call : TransitionCall) : ServiceCall :=
  transaction (.read fun db =>
    match db.run call.runId with
    | none => abandon (missingRun call.runId)
    | some run =>
      if run.status ∉ call.allowedStatuses then .rollback (.unlock (.done (.ok (.event none))))
      else
        let event : AgentRunEvent := ⟨call.runId, run.lastSequence + 1, call.eventType, call.now, call.eventData⟩
        attempt (updateRunRow call.runId (fun _ => true) fun run =>
            { run with
              status := call.status
              lastSequence := event.sequence
              updatedAt := call.now
              finalText := call.finalText.getD run.finalText
              error := call.error.getD run.error
              approvals := call.approvals.getD run.approvals })
          (attempt (touchThread call.runId call.now)
            (attempt (insertEvent event) (.commit (.unlock (.done (.ok (.event (some event)))))))))

structure UpdateCall where
  runId : String
  status : Option AgentRunStatus
  finalText : Option String
  error : Option String
  approvals : Option (List AgentApproval)
  allowedStatuses : List AgentRunStatus
  now : String
  deriving DecidableEq

/-- `_update_run` -/
def updateRun (call : UpdateCall) : ServiceCall :=
  lockedUpdate
    (updateRunRow call.runId (fun run => call.allowedStatuses.contains run.status) fun run =>
      { run with
        updatedAt := call.now
        status := call.status.getD run.status
        finalText := call.finalText.getD run.finalText
        error := call.error.getD run.error
        approvals := call.approvals.getD run.approvals })
    fun count => .ok (.updated (count == 1))

inductive Decision where
  | approve
  | edit
  | reject
  deriving DecidableEq

def Decision.value : Decision → String
  | .approve => "approve"
  | .edit => "edit"
  | .reject => "reject"

def Decision.status : Decision → AgentApprovalStatus
  | .approve => .approve
  | .edit => .edit
  | .reject => .reject

structure ApprovalDecision where
  approvalId : String
  decision : Decision
  editedArguments : Option JsonObject
  message : Option String
  deriving DecidableEq

/-- `_approval_matches_decision` -/
def approvalMatchesDecision (approval : AgentApproval) (decision : ApprovalDecision) : Bool :=
  approval.status == decision.decision.status && approval.editedArguments == decision.editedArguments &&
    approval.message == decision.message

/-- The loop of `_claim_approval_decision` over the approvals: what they become, or `none` in
their place when the decision was made before. -/
def decided (decision : ApprovalDecision) : List AgentApproval → Except RunError (Option (List AgentApproval))
  | [] => .error (.notFound ("approval not found: " ++ decision.approvalId))
  | approval :: rest =>
    if approval.id ≠ decision.approvalId then (decided decision rest).map fun later => later.map (approval :: ·)
    else if approval.status ≠ .pending then
      if approvalMatchesDecision approval decision then .ok none
      else .error (.value ("approval already decided differently: " ++ approval.id))
    else if decision.decision.value ∉ approval.allowedDecisions then
      .error (.value ("decision '" ++ decision.decision.value ++ "' is not allowed for " ++ approval.toolName))
    else
      .ok (some ({ approval with
        status := decision.decision.status, editedArguments := decision.editedArguments, message := decision.message } ::
          rest))

/-- `_claim_approval_decision` on the snapshot of the run that it has read. -/
def claimApprovalDecision (snapshot : AgentRun) (decision : ApprovalDecision) (now : String) : ServiceCall :=
  if snapshot.status ≠ .interrupted ∧ snapshot.status ≠ .resumePending then
    .done (.error (.value ("agent run is not awaiting approval: " ++ snapshot.status.value)))
  else
    match decided decision snapshot.approvals with
    | .error error => .done (.error error)
    | .ok none => .done (.ok (.approvals snapshot.approvals))
    | .ok (some approvals) =>
      let next : AgentRunStatus :=
        if approvals.any fun approval => approval.status == .pending then .interrupted else .resumePending
      lockedUpdate
        (updateRunRow snapshot.runId (fun run => run.status == .interrupted && run.approvals == snapshot.approvals)
          fun run => { run with approvals := approvals, status := next, updatedAt := now })
        fun count =>
          if count = 1 then .ok (.approvals approvals)
          else .error (.value "approval state changed; reload the run before retrying")

/-- `update_owner_inference` with a selection that was validated. -/
def updateOwnerInference (tenantId : String) (expectedRevision : Int) (selection : Option String) (now : String) :
    ServiceCall :=
  transaction (.read fun db =>
    let revision := ((db.preference tenantId).map InferencePreference.revision).getD 0
    if (revision : Int) ≠ expectedRevision then .rollback (abandon .inferenceConflict)
    else
      attempt (upsertPreference ⟨tenantId, revision + 1, selection, now⟩)
        (.commit (.unlock (.read fun db => .done (.ok (.preference (db.preference tenantId)))))))

end OpenTulpa.DeepAgent.Runs
