import OpenTulpa.Telegram.WorkerState

/-! The file behind the state of the Telegram worker: what a restart reads of what the operations wrote, and what
is left in memory when a write fails. -/

namespace OpenTulpa.Telegram.StateFile

open Library Text WorkerState

section File

def optional {α : Type} (encode : α → Json) (value : Option α) : Json := value.elim .null encode

def texts (entries : List (String × String)) : Json := .object (entries.map fun entry => (entry.1, .string entry.2))

def decisionName : Decision → String
  | .approve => "approve"
  | .edit => "edit"
  | .reject => "reject"

def pendingRunFields (record : PendingRun) : List (String × Json) :=
  [("accumulated_text", .string record.accumulatedText), ("chat_id", .int record.chatId),
    ("rendered_text", .string record.renderedText),
    ("response_message_id", optional (fun id => .int id) record.responseMessageId), ("run_id", .string record.runId),
    ("sequence", .int record.sequence), ("source_event_id", .string record.sourceEventId),
    ("update_id", .int record.updateId)]

def approvalFields (approval : Approval) : List (String × Json) :=
  [("allowed_decisions", .array (approval.allowedDecisions.map fun decision => .string (decisionName decision))),
    ("approval_id", .string approval.approvalId), ("chat_id", .int approval.chatId),
    ("delivered", .bool approval.delivered), ("description", .string approval.description),
    ("run_id", .string approval.runId), ("tool_name", .string approval.toolName), ("user_id", .int approval.userId)]

def pendingRunsJson (s : TelegramWorkerState) : Json :=
  .object (s.pendingRuns.map fun entry => (entry.1, .object (pendingRunFields entry.2)))

/-- The fields of the state, their keys in order. -/
def payloadFields (s : TelegramWorkerState) : List (String × Json) :=
  [("approvals", .object (s.approvals.map fun entry => (entry.1, .object (approvalFields entry.2)))),
    ("awaiting_edits", texts s.awaitingEdits), ("codex_logins", texts s.codexLogins),
    ("next_update_id", .int s.nextUpdateId), ("notification_cursor", .int s.notificationCursor),
    ("paired", optional (fun identity => .object [("chat_id", .int identity.2), ("user_id", .int identity.1)]) s.paired),
    ("pending_notification_acks", .array (s.pendingNotificationAcks.map fun item => .int item)),
    ("pending_runs", pendingRunsJson s),
    ("seen_source_events", .array (s.seenSourceEvents.map .string)), ("threads", texts s.threads),
    ("update_inbox", .object s.updateInbox), ("version", .int 1)]

/-- The object that `_write` dumps. -/
def payload (s : TelegramWorkerState) : Json := .object (payloadFields s)

def sizeLimit : Nat := 2000000

/-- `_read`, of a file with the state that it was written from. -/
def read : Option TelegramWorkerState → Except String TelegramWorkerState
  | none => .ok defaultState
  | some state =>
    if sizeLimit < (payload state).byteSize then .error "Telegram worker state exceeds the size limit"
    else if state.pendingNotificationAcks.any fun item => item < 1 then .error "Telegram notification cursor is invalid"
    else .ok state

/-- The state that was last persisted. -/
def persisted (file : Option TelegramWorkerState) : TelegramWorkerState := file.getD defaultState

end File

section Operations

inductive Operation where
  | pair (userId : Nat) (chatId : Int)
  | threadId (chatId : Int) (uuid : String)
  | replaceThread (chatId : Int) (expected replacement : String)
  | setCodexLogin (chatId : Int) (loginId : Option String)
  | acceptUpdate (updateId : Nat) (update : Json)
  | coalesceUpdates (updateIds : List Nat) (merged : Json)
  | markNotificationDelivered (notificationId : Nat)
  | markNotificationAcknowledged (notificationId : Nat)
  | completeUpdate (updateId : Nat) (sourceEventId : String) (consumedApprovalToken : Option String)
  | savePendingRun (record : PendingRun)
  | savePendingDelivery (sourceEventId : String) (responseMessageId : Option Nat) (renderedText : String)
  | removePendingRun (sourceEventId : String)
  | saveApproval (token : String) (approval : Approval)
  | removeApproval (token : String)
  | markApprovalDelivered (token : String)
  | awaitEdit (chatId : Int) (token : String)
  | clearAwaitingEdit (chatId : Int) (token : String)

/-- A result without its value. -/
def forget {α : Type} : Result α → Result Unit
  | .raises error => .raises error
  | .returns _ => .returns ()
  | .writes state _ => .writes state ()

variable (maxSeen : Nat)

/-- What an operation does up to its write. -/
def change (s : TelegramWorkerState) : Operation → Result Unit
  | .pair userId chatId => forget (s.pair userId chatId)
  | .threadId chatId uuid => forget (s.threadId chatId uuid)
  | .replaceThread chatId expected replacement => s.replaceThread chatId expected replacement
  | .setCodexLogin chatId loginId => s.setCodexLogin chatId loginId
  | .acceptUpdate updateId update => forget (s.acceptUpdate updateId update)
  | .coalesceUpdates updateIds merged => forget (s.coalesceUpdates updateIds merged)
  | .markNotificationDelivered notificationId => s.markNotificationDelivered notificationId
  | .markNotificationAcknowledged notificationId => s.markNotificationAcknowledged notificationId
  | .completeUpdate updateId sourceEventId token => s.completeUpdate maxSeen updateId sourceEventId token
  | .savePendingRun record => s.savePendingRun record
  | .savePendingDelivery sourceEventId messageId rendered => s.savePendingDelivery sourceEventId messageId rendered
  | .removePendingRun sourceEventId => s.removePendingRun sourceEventId
  | .saveApproval token approval => s.saveApproval token approval
  | .removeApproval token => s.removeApproval token
  | .markApprovalDelivered token => s.markApprovalDelivered token
  | .awaitEdit chatId token => s.awaitEdit chatId token
  | .clearAwaitingEdit chatId token => forget (s.clearAwaitingEdit chatId token)

/-- The updates that an operation takes in, and those it takes out of the inbox. -/
def Operation.accepts : Operation → List Nat
  | .acceptUpdate updateId _ => [updateId]
  | _ => []

def Operation.settles : Operation → List Nat
  | .completeUpdate updateId _ _ => [updateId]
  | .coalesceUpdates updateIds _ => updateIds.eraseDups.tail
  | _ => []

/-- The state in memory and in the file, whether the last operation returned, and the updates taken in and, in the
file, taken out so far. -/
structure Worker where
  memory : TelegramWorkerState
  file : Option TelegramWorkerState
  returned : Bool
  accepted : List Nat
  settled : List Nat

/-- An operation, and whether its write fails before it replaces the file. -/
structure Attempt where
  operation : Operation
  fails : Bool

def step (worker : Worker) (attempt : Attempt) : Worker :=
  match change maxSeen worker.memory attempt.operation with
  | .raises _ => { worker with returned := false }
  | .returns _ => { worker with returned := true }
  | .writes state _ =>
    if attempt.fails then
      { worker with
        memory := state
        returned := false
        accepted := attempt.operation.accepts ++ worker.accepted }
    else
      { memory := state
        file := some state
        returned := true
        accepted := attempt.operation.accepts ++ worker.accepted
        settled := attempt.operation.settles ++ worker.settled }

/-- A worker that has just read its file. -/
def started (file : Option TelegramWorkerState) (memory : TelegramWorkerState) : Worker := ⟨memory, file, true, [], []⟩

end Operations

section Changes

variable {maxSeen : Nat} {s after : TelegramWorkerState}

/-- What a write can do to the inbox and to the acknowledgements. -/
inductive Touches (s after : TelegramWorkerState) : Operation → Prop where
  | other {operation : Operation} (acks : after.pendingNotificationAcks = s.pendingNotificationAcks)
      (inbox : after.updateInbox = s.updateInbox) (accepts : operation.accepts = []) : Touches s after operation
  | accepted (updateId : Nat) (update : Json) (acks : after.pendingNotificationAcks = s.pendingNotificationAcks)
      (inbox : after.updateInbox = Dict.insert (toString updateId) update s.updateInbox) :
      Touches s after (.acceptUpdate updateId update)
  | coalesced (updateIds : List Nat) (merged : Json) (primary : Nat) (others : List Nat)
      (distinct : updateIds.eraseDups = primary :: others)
      (acks : after.pendingNotificationAcks = s.pendingNotificationAcks)
      (inbox : after.updateInbox = others.foldl (fun inbox updateId => Dict.erase inbox (toString updateId))
        (Dict.insert (toString primary) merged s.updateInbox)) : Touches s after (.coalesceUpdates updateIds merged)
  | completed (updateId : Nat) (sourceEventId : String) (token : Option String)
      (acks : after.pendingNotificationAcks = s.pendingNotificationAcks)
      (inbox : after.updateInbox = Dict.erase s.updateInbox (toString updateId)) :
      Touches s after (.completeUpdate updateId sourceEventId token)
  | delivered (notificationId : Nat) (valid : 1 ≤ notificationId) (inbox : after.updateInbox = s.updateInbox)
      (acks : after.pendingNotificationAcks =
        ((notificationId :: s.pendingNotificationAcks).dedup).insertionSort (· ≤ ·)) :
      Touches s after (.markNotificationDelivered notificationId)
  | acknowledged (notificationId : Nat) (inbox : after.updateInbox = s.updateInbox)
      (acks : after.pendingNotificationAcks = s.pendingNotificationAcks.filter fun item => item != notificationId) :
      Touches s after (.markNotificationAcknowledged notificationId)

theorem change_touches (operation : Operation) (written : change maxSeen s operation = .writes after ()) :
    Touches s after operation := by
  cases operation with
  | acceptUpdate updateId update =>
    simp only [change, TelegramWorkerState.acceptUpdate] at written
    split at written
    · cases written
    · cases written
      exact .accepted updateId update rfl rfl
  | coalesceUpdates updateIds merged =>
    simp only [change, TelegramWorkerState.coalesceUpdates] at written
    split at written
    · cases written
    · rename_i primary others distinct
      split at written
      · cases written
        exact .coalesced updateIds merged primary others distinct rfl rfl
      · cases written
  | completeUpdate updateId sourceEventId token =>
    simp only [change, TelegramWorkerState.completeUpdate] at written
    split at written
    · cases written
      exact .completed updateId sourceEventId token rfl rfl
    · cases written
      exact .completed updateId sourceEventId token rfl rfl
  | markNotificationDelivered notificationId =>
    simp only [change, TelegramWorkerState.markNotificationDelivered] at written
    split at written
    · cases written
    · rename_i valid
      cases written
      exact .delivered notificationId (by omega) rfl rfl
  | markNotificationAcknowledged notificationId =>
    simp only [change, TelegramWorkerState.markNotificationAcknowledged] at written
    split at written
    · cases written
      exact .acknowledged notificationId rfl rfl
    · cases written
  | pair userId chatId =>
    simp only [change, TelegramWorkerState.pair] at written
    split at written
    · cases written
      exact .other rfl rfl rfl
    · cases written
  | threadId chatId uuid =>
    simp only [change, TelegramWorkerState.threadId] at written
    split at written
    · cases written
      exact .other rfl rfl rfl
    · cases written
  | replaceThread chatId expected replacement =>
    simp only [change, TelegramWorkerState.replaceThread] at written
    split at written
    · cases written
    · split at written
      · cases written
      · cases written
        exact .other rfl rfl rfl
  | setCodexLogin chatId loginId =>
    simp only [change, TelegramWorkerState.setCodexLogin] at written
    split at written
    · cases written
      exact .other rfl rfl rfl
    · cases written
      exact .other rfl rfl rfl
  | savePendingRun record =>
    cases written
    exact .other rfl rfl rfl
  | savePendingDelivery sourceEventId messageId rendered =>
    simp only [change, TelegramWorkerState.savePendingDelivery] at written
    split at written
    · cases written
    · cases written
      exact .other rfl rfl rfl
  | removePendingRun sourceEventId =>
    simp only [change, TelegramWorkerState.removePendingRun] at written
    split at written
    · cases written
    · cases written
      exact .other rfl rfl rfl
  | saveApproval token approval =>
    cases written
    exact .other rfl rfl rfl
  | removeApproval token =>
    simp only [change, TelegramWorkerState.removeApproval] at written
    split at written
    · cases written
      exact .other rfl rfl rfl
    · cases written
  | markApprovalDelivered token =>
    simp only [change, TelegramWorkerState.markApprovalDelivered] at written
    split at written
    · cases written
    · cases written
      exact .other rfl rfl rfl
  | awaitEdit chatId token =>
    cases written
    exact .other rfl rfl rfl
  | clearAwaitingEdit chatId token =>
    simp only [change, TelegramWorkerState.clearAwaitingEdit] at written
    split at written
    · cases written
    · cases written
      exact .other rfl rfl rfl

/-- Acknowledgements that a state waits for have positive identifiers. -/
def AcksPositive (s : TelegramWorkerState) : Prop := ∀ item ∈ s.pendingNotificationAcks, 1 ≤ item

theorem touches_acks {operation : Operation} (touches : Touches s after operation) (positive : AcksPositive s) :
    AcksPositive after := by
  unfold AcksPositive
  cases touches with
  | other acks => rwa [acks]
  | accepted _ _ acks => rwa [acks]
  | coalesced _ _ _ _ _ acks => rwa [acks]
  | completed _ _ _ acks => rwa [acks]
  | delivered notificationId valid _ acks =>
    intro item member
    rw [acks, List.mem_insertionSort, List.mem_dedup, List.mem_cons] at member
    rcases member with rfl | old
    · exact valid
    · exact positive item old
  | acknowledged notificationId _ acks =>
    intro item member
    rw [acks] at member
    exact positive item (List.mem_of_mem_filter member)

end Changes

section Reload

variable {maxSeen : Nat}

/-- After an operation that returned, the file reads as the state in memory. -/
def Reloads (worker : Worker) : Prop := worker.returned = true → read worker.file = .ok worker.memory

/-- The write of the operation, if it comes to one, succeeds and takes no more than the reader accepts. -/
def WritesReadable (maxSeen : Nat) (worker : Worker) (attempt : Attempt) : Prop :=
  ∀ state, change maxSeen worker.memory attempt.operation = .writes state () →
    attempt.fails = false ∧ (payload state).byteSize ≤ sizeLimit

theorem read_acks {file : Option TelegramWorkerState} {state : TelegramWorkerState} (loaded : read file = .ok state) :
    AcksPositive state := by
  unfold read at loaded
  split at loaded
  · cases loaded
    rintro _ ⟨⟩
  · split at loaded
    · cases loaded
    · split at loaded
      · cases loaded
      · rename_i valid
        cases loaded
        intro item member
        simp only [List.any_eq_true, decide_eq_true_eq, not_exists, not_and] at valid
        have bound := valid item member
        omega

theorem read_written {state : TelegramWorkerState} (positive : AcksPositive state)
    (small : (payload state).byteSize ≤ sizeLimit) : read (some state) = .ok state := by
  have valid : ¬(state.pendingNotificationAcks.any fun item => item < 1) = true := by
    simp only [List.any_eq_true, decide_eq_true_eq, not_exists, not_and]
    intro item member
    have bound := positive item member
    omega
  simp only [read]
  rw [if_neg (by omega), if_neg valid]

theorem step_reloads (worker : Worker) (attempt : Attempt) (loaded : read worker.file = .ok worker.memory)
    (readable : WritesReadable maxSeen worker attempt) :
    read (step maxSeen worker attempt).file = .ok (step maxSeen worker attempt).memory := by
  unfold step
  split
  · exact loaded
  · exact loaded
  · rename_i state _ written
    obtain ⟨succeeds, small⟩ := readable state written
    rw [succeeds, if_neg Bool.false_ne_true]
    exact read_written (touches_acks (change_touches _ written) (read_acks loaded)) small

/-- The file takes at least the bytes of the two texts of each record. -/
theorem pendingRun_size_le (s : TelegramWorkerState) {key : String} {record : PendingRun}
    (member : (key, record) ∈ s.pendingRuns) :
    (Json.string record.accumulatedText).byteSize + (Json.string record.renderedText).byteSize ≤
      (payload s).byteSize := by
  have rendered : (Json.string record.renderedText).byteSize ≤
      Json.encodedSize (Json.dumpsFields (pendingRunFields record).tail) :=
    Json.byteSize_le_fields (List.mem_cons_of_mem _ List.mem_cons_self)
  have both := Json.byteSize_add_fields_le "accumulated_text" (.string record.accumulatedText)
    (pendingRunFields record).tail
  have fields : ("accumulated_text", .string record.accumulatedText) :: (pendingRunFields record).tail =
      pendingRunFields record := rfl
  rw [fields] at both
  have outer := Json.fields_le_object (pendingRunFields record)
  have runs : (Json.object (pendingRunFields record)).byteSize ≤ (pendingRunsJson s).byteSize :=
    Json.byteSize_le_object (List.mem_map.mpr ⟨(key, record), member, rfl⟩)
  have listed : ("pending_runs", pendingRunsJson s) ∈ payloadFields s := by
    simp only [payloadFields, List.mem_cons, true_or, or_true]
  have whole : (pendingRunsJson s).byteSize ≤ (payload s).byteSize := Json.byteSize_le_object listed
  omega

/-- In a run of operations whose writes all succeed and take at most two million bytes, a worker that starts anew
after any operation reads the state that the old one has in memory. -/
theorem state_reloads (maxSeen : Nat) (file : Option TelegramWorkerState) (memory : TelegramWorkerState)
    (loaded : read file = .ok memory) (attempts : List Attempt)
    (readable : Run.Guarded (step maxSeen) (WritesReadable maxSeen) (started file memory) attempts) (n : Nat) :
    Reloads (Run.exec (step maxSeen) (started file memory) (attempts.take n)) := by
  intro _
  exact (readable.take n).invariant (fun worker attempt => step_reloads worker attempt) loaded

theorem state_reloads_paired :
    Reloads (Run.exec (step 5000) (started none defaultState) [⟨.pair 1 1, false⟩]) := by
  refine state_reloads 5000 none defaultState rfl [⟨.pair 1 1, false⟩] ⟨?_, trivial⟩ 1
  rintro state ⟨⟩
  decide +kernel

/-- A run whose reply was delivered, and the state it leaves. -/
def sampleDelivery (reply : String) : List Attempt :=
  [⟨.savePendingRun ⟨"telegram:7:1", 1, "run_1", 1, 1, reply, none, ""⟩, false⟩,
    ⟨.savePendingDelivery "telegram:7:1" (some 1) reply, false⟩]

def sampleDelivered (reply : String) : TelegramWorkerState :=
  { defaultState with pendingRuns := [("telegram:7:1", ⟨"telegram:7:1", 1, "run_1", 1, 1, reply, some 1, reply⟩)] }

theorem exec_sampleDelivery {reply : String} (short : tail textLimit reply = reply) :
    Run.exec (step 5000) (started none defaultState) (sampleDelivery reply) =
      ⟨sampleDelivered reply, some (sampleDelivered reply), true, [], []⟩ := by
  simp [sampleDelivery, step, change, TelegramWorkerState.savePendingRun, TelegramWorkerState.savePendingDelivery,
    started, defaultState, short, sampleDelivered, Dict.insert, Dict.get, positive, Operation.accepts, Operation.settles]

theorem sampleDelivered_size {reply : String} (large : 6 * textLimit ≤ (Json.string reply).byteSize) :
    sizeLimit < (payload (sampleDelivered reply)).byteSize := by
  have member : ("telegram:7:1", (⟨"telegram:7:1", 1, "run_1", 1, 1, reply, some 1, reply⟩ : PendingRun)) ∈
      (sampleDelivered reply).pendingRuns := List.mem_cons_self
  have texts := pendingRun_size_le (sampleDelivered reply) member
  dsimp only at texts
  have limits : sizeLimit < 12 * textLimit := by decide
  omega

/-- A reply of one character that takes six bytes, as long as a record keeps. -/
def sampleReply : String := String.ofList (List.replicate textLimit '\x01')

theorem tail_sampleReply : tail textLimit sampleReply = sampleReply := by
  simp [tail, sampleReply, List.rtake]

theorem sampleReply_size : 6 * textLimit ≤ (Json.string sampleReply).byteSize := by
  have six : Json.encodedSize (Json.escape '\x01') = 6 := by decide
  refine le_trans (le_of_eq ?_) (Json.encodedSize_le_string sampleReply)
  rw [sampleReply, String.toList_ofList, Json.encodedSize_flatMap_replicate, six, Nat.mul_comm]

/-- A delivered reply of two hundred thousand characters that are escaped outgrows what the reader accepts. -/
theorem reply_outgrows_file :
    ¬Reloads (Run.exec (step 5000) (started none defaultState) (sampleDelivery sampleReply)) := by
  rw [exec_sampleDelivery tail_sampleReply]
  intro reloads
  have loaded := reloads rfl
  simp only [read] at loaded
  rw [if_pos (sampleDelivered_size sampleReply_size)] at loaded
  cases loaded

end Reload

section FailedWrites

variable {maxSeen : Nat}

def pending (s : TelegramWorkerState) (updateId : Nat) : Prop := (Dict.get s.updateInbox (toString updateId)).isSome = true

/-- Memory holds what was last persisted, and so an update that was taken in and that the next offset confirms is
found again by a restart, unless it was taken out of the inbox. -/
def Durable (worker : Worker) : Prop :=
  worker.memory = persisted worker.file ∧
    ∀ updateId ∈ worker.accepted, updateId < worker.memory.nextUpdateId →
      pending (persisted worker.file) updateId ∨ updateId ∈ worker.settled

/-- A write that fails would have changed nothing. -/
def FailsUnchanged (maxSeen : Nat) (worker : Worker) (attempt : Attempt) : Prop :=
  attempt.fails = true → ∀ state, change maxSeen worker.memory attempt.operation = .writes state () →
    state = worker.memory

def Kept (worker : Worker) : Prop :=
  worker.memory = persisted worker.file ∧
    ∀ updateId ∈ worker.accepted, pending (persisted worker.file) updateId ∨ updateId ∈ worker.settled

theorem Kept.durable {worker : Worker} (kept : Kept worker) : Durable worker :=
  ⟨kept.1, fun updateId member _ => kept.2 updateId member⟩

theorem pending_erased {inbox : List (String × Json)} {updateId : Nat} {others : List Nat}
    (there : (Dict.get inbox (toString updateId)).isSome = true) :
    (Dict.get (others.foldl (fun inbox other => Dict.erase inbox (toString other)) inbox) (toString updateId)).isSome =
      true ∨ updateId ∈ others := by
  induction others generalizing inbox with
  | nil => exact Or.inl there
  | cons other others ih =>
    by_cases same : updateId = other
    · exact Or.inr (same ▸ List.mem_cons_self)
    · have apart : toString updateId ≠ toString other := fun equal => same (toString_injective equal)
      rw [← Dict.get_erase_of_ne apart] at there
      exact (ih there).imp id (List.mem_cons_of_mem _)

theorem pending_inserted {s : TelegramWorkerState} {updateId : Nat} (primary : Nat) (update : Json)
    (there : pending s updateId) :
    (Dict.get (Dict.insert (toString primary) update s.updateInbox) (toString updateId)).isSome = true := by
  by_cases same : toString updateId = toString primary
  · rw [same, Dict.get_insert_self]
    rfl
  · rw [Dict.get_insert_of_ne same]
    exact there

/-- An update stays in the inbox until an operation takes it out. -/
theorem touches_pending {s after : TelegramWorkerState} {operation : Operation} (touches : Touches s after operation)
    {updateId : Nat} (there : pending s updateId) : pending after updateId ∨ updateId ∈ operation.settles := by
  unfold pending
  cases touches with
  | other _ inbox =>
    rw [inbox]
    exact Or.inl there
  | accepted identifier update _ inbox =>
    rw [inbox]
    exact Or.inl (pending_inserted identifier update there)
  | coalesced updateIds merged primary others distinct _ inbox =>
    rw [inbox]
    simp only [Operation.settles, distinct, List.tail_cons]
    exact pending_erased (pending_inserted primary merged there)
  | completed identifier sourceEventId token _ inbox =>
    rw [inbox]
    by_cases same : updateId = identifier
    · exact Or.inr (same ▸ List.mem_singleton_self identifier)
    · have apart : toString updateId ≠ toString identifier := fun equal => same (toString_injective equal)
      rw [Dict.get_erase_of_ne apart]
      exact Or.inl there
  | delivered _ _ inbox =>
    rw [inbox]
    exact Or.inl there
  | acknowledged _ inbox =>
    rw [inbox]
    exact Or.inl there

theorem touches_accepted {s after : TelegramWorkerState} {operation : Operation} (touches : Touches s after operation)
    {updateId : Nat} (taken : updateId ∈ operation.accepts) : pending after updateId := by
  cases touches with
  | other _ _ accepts =>
    rw [accepts] at taken
    cases taken
  | accepted identifier update _ inbox =>
    obtain rfl := List.mem_singleton.mp taken
    unfold pending
    rw [inbox, Dict.get_insert_self]
    rfl
  | coalesced => cases taken
  | completed => cases taken
  | delivered => cases taken
  | acknowledged => cases taken

theorem step_kept (worker : Worker) (attempt : Attempt) (kept : Kept worker)
    (unchanged : FailsUnchanged maxSeen worker attempt) : Kept (step maxSeen worker attempt) := by
  unfold step
  split
  · exact kept
  · exact kept
  · rename_i state _ written
    have touches := change_touches _ written
    split
    · rename_i fails
      obtain rfl := unchanged fails state written
      refine ⟨kept.1, ?_⟩
      intro updateId member
      rcases List.mem_append.mp member with taken | old
      · have there := touches_accepted touches taken
        rw [kept.1] at there
        exact Or.inl there
      · exact kept.2 updateId old
    · refine ⟨rfl, ?_⟩
      intro updateId member
      rcases List.mem_append.mp member with taken | old
      · exact Or.inl (touches_accepted touches taken)
      · rcases kept.2 updateId old with there | done
        · rw [← kept.1] at there
          exact (touches_pending touches there).imp id (List.mem_append_left _)
        · exact Or.inr (List.mem_append_right _ done)

theorem step_unchanged (worker : Worker) (attempt : Attempt) (kept : Kept worker)
    (durable : Durable (step maxSeen worker attempt)) : FailsUnchanged maxSeen worker attempt := by
  intro fails state written
  have equal := durable.1
  simp only [step, written, fails, if_true] at equal
  exact equal.trans kept.1.symm

def sampleUpdate : Json := .object [("update_id", .int 7)]

end FailedWrites

end OpenTulpa.Telegram.StateFile
