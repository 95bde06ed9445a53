import OpenTulpa.Library.Dict
import OpenTulpa.Library.Json
import OpenTulpa.Library.Run
import OpenTulpa.Library.Text
import Mathlib.Data.List.Dedup
import Mathlib.Data.List.Sort

/-! The durable state of the Telegram worker. Every operation changes the state in memory and then writes the whole
state to its file; the file is read once, when the worker starts. -/

namespace OpenTulpa.Telegram.WorkerState

open Library Text

section Model

structure PendingRun where
  sourceEventId : String
  updateId : Nat
  runId : String
  chatId : Int
  sequence : Nat
  accumulatedText : String
  responseMessageId : Option Nat
  renderedText : String
  deriving DecidableEq

inductive Decision where
  | approve
  | edit
  | reject
  deriving DecidableEq

structure Approval where
  runId : String
  approvalId : String
  chatId : Int
  userId : Nat
  allowedDecisions : List Decision
  toolName : String
  description : String
  delivered : Bool
  deriving DecidableEq

/-- The state of the worker; its dictionaries have texts as keys. -/
structure TelegramWorkerState where
  nextUpdateId : Nat
  paired : Option (Nat × Int)
  threads : List (String × String)
  codexLogins : List (String × String)
  updateInbox : List (String × Json)
  seenSourceEvents : List String
  pendingRuns : List (String × PendingRun)
  approvals : List (String × Approval)
  awaitingEdits : List (String × String)
  notificationCursor : Nat
  pendingNotificationAcks : List Nat

def defaultState : TelegramWorkerState := ⟨0, none, [], [], [], [], [], [], [], 0, []⟩

/-- How an operation ends before its write: it raises, returns, or goes on to write the changed state. -/
inductive Result (α : Type) where
  | raises (error : String)
  | returns (value : α)
  | writes (state : TelegramWorkerState) (value : α)

end Model

section Operations

/-- The ends of long texts are kept. -/
def textLimit : Nat := 200000

/-- `pair` -/
def TelegramWorkerState.pair (s : TelegramWorkerState) (userId : Nat) (chatId : Int) : Result Bool :=
  match s.paired with
  | none => .writes { s with paired := some (userId, chatId) } true
  | some identity => .returns (identity == (userId, chatId))

/-- `threads.get(key)` as the code reads it. -/
def TelegramWorkerState.thread (s : TelegramWorkerState) (chatId : Int) : String :=
  strip ((Dict.get s.threads (toString chatId)).getD "")

/-- `thread_id`, with the identifier that is drawn where the chat has none. -/
def TelegramWorkerState.threadId (s : TelegramWorkerState) (chatId : Int) (uuid : String) : Result String :=
  if (s.thread chatId).isEmpty then
    let value := "telegram_" ++ toString chatId ++ "_" ++ uuid
    .writes { s with threads := Dict.insert (toString chatId) value s.threads } value
  else .returns (s.thread chatId)

/-- `replace_thread` -/
def TelegramWorkerState.replaceThread (s : TelegramWorkerState) (chatId : Int) (expected replacement : String) :
    Result Unit :=
  if (strip replacement).isEmpty then .raises "replacement_thread_id must not be empty"
  else if s.thread chatId ≠ strip expected then .raises "Telegram conversation changed during replacement"
  else .writes { s with threads := Dict.insert (toString chatId) (strip replacement) s.threads } ()

/-- `set_codex_login` -/
def TelegramWorkerState.setCodexLogin (s : TelegramWorkerState) (chatId : Int) (loginId : Option String) : Result Unit :=
  match loginId.filter fun login => !login.isEmpty with
  | some login => .writes { s with codexLogins := Dict.insert (toString chatId) login s.codexLogins } ()
  | none => .writes { s with codexLogins := Dict.erase s.codexLogins (toString chatId) } ()

/-- `accept_update` -/
def TelegramWorkerState.acceptUpdate (s : TelegramWorkerState) (updateId : Nat) (update : Json) : Result Bool :=
  let existing := Dict.get s.updateInbox (toString updateId)
  if existing.any fun held => !held.same update then .raises "Telegram update id payload conflict"
  else
    .writes
      { s with
        updateInbox := Dict.insert (toString updateId) update s.updateInbox
        nextUpdateId := max s.nextUpdateId (updateId + 1) }
      existing.isNone

/-- `coalesce_updates` -/
def TelegramWorkerState.coalesceUpdates (s : TelegramWorkerState) (updateIds : List Nat) (merged : Json) : Result Json :=
  match updateIds.eraseDups with
  | [] => .raises "update_ids must not be empty"
  | primary :: others =>
    if (primary :: others).all fun updateId => (Dict.get s.updateInbox (toString updateId)).isSome then
      .writes
        { s with
          updateInbox := others.foldl (fun inbox updateId => Dict.erase inbox (toString updateId))
            (Dict.insert (toString primary) merged s.updateInbox) }
        merged
    else .raises "cannot coalesce updates that are not pending"

/-- `mark_notification_delivered` -/
def TelegramWorkerState.markNotificationDelivered (s : TelegramWorkerState) (notificationId : Nat) : Result Unit :=
  if notificationId < 1 then .raises "notification_id must be positive"
  else
    .writes
      { s with
        pendingNotificationAcks := ((notificationId :: s.pendingNotificationAcks).dedup).insertionSort (· ≤ ·)
        notificationCursor := max s.notificationCursor notificationId }
      ()

/-- `mark_notification_acknowledged` -/
def TelegramWorkerState.markNotificationAcknowledged (s : TelegramWorkerState) (notificationId : Nat) : Result Unit :=
  let pending := s.pendingNotificationAcks.filter fun item => item != notificationId
  if pending.length ≠ s.pendingNotificationAcks.length then .writes { s with pendingNotificationAcks := pending } ()
  else .returns ()

/-- `complete_update` -/
def TelegramWorkerState.completeUpdate (s : TelegramWorkerState) (maxSeen : Nat) (updateId : Nat) (sourceEventId : String)
    (consumedApprovalToken : Option String) : Result Unit :=
  let history := (s.seenSourceEvents.filter fun seen => seen != sourceEventId) ++ [sourceEventId]
  let completed : TelegramWorkerState :=
    { s with
      seenSourceEvents := history.rtake maxSeen
      nextUpdateId := max s.nextUpdateId (updateId + 1)
      updateInbox := Dict.erase s.updateInbox (toString updateId)
      pendingRuns := Dict.erase s.pendingRuns sourceEventId }
  match consumedApprovalToken.filter fun token => !token.isEmpty with
  | none => .writes completed ()
  | some token =>
    .writes
      { completed with
        approvals := Dict.erase s.approvals token
        awaitingEdits := s.awaitingEdits.filter fun entry => entry.2 != token }
      ()

/-- A message identifier that is not positive is none. -/
def positive (messageId : Option Nat) : Option Nat := messageId.filter fun id => 0 < id

/-- `save_pending_run` -/
def TelegramWorkerState.savePendingRun (s : TelegramWorkerState) (record : PendingRun) : Result Unit :=
  .writes
    { s with
      pendingRuns := Dict.insert record.sourceEventId
        { record with
          accumulatedText := tail textLimit record.accumulatedText
          responseMessageId := positive record.responseMessageId
          renderedText := tail textLimit record.renderedText }
        s.pendingRuns }
    ()

/-- `save_pending_delivery` -/
def TelegramWorkerState.savePendingDelivery (s : TelegramWorkerState) (sourceEventId : String)
    (responseMessageId : Option Nat) (renderedText : String) : Result Unit :=
  match Dict.get s.pendingRuns sourceEventId with
  | none => .returns ()
  | some record =>
    .writes
      { s with
        pendingRuns := Dict.insert sourceEventId
          { record with responseMessageId := positive responseMessageId, renderedText := tail textLimit renderedText }
          s.pendingRuns }
      ()

/-- `remove_pending_run` -/
def TelegramWorkerState.removePendingRun (s : TelegramWorkerState) (sourceEventId : String) : Result Unit :=
  match Dict.get s.pendingRuns sourceEventId with
  | none => .returns ()
  | some _ => .writes { s with pendingRuns := Dict.erase s.pendingRuns sourceEventId } ()

/-- `save_approval` -/
def TelegramWorkerState.saveApproval (s : TelegramWorkerState) (token : String) (approval : Approval) : Result Unit :=
  .writes { s with approvals := Dict.insert token { approval with delivered := false } s.approvals } ()

/-- `remove_approval` -/
def TelegramWorkerState.removeApproval (s : TelegramWorkerState) (token : String) : Result Unit :=
  if (Dict.get s.approvals token).isSome || s.awaitingEdits.any fun entry => entry.2 == token then
    .writes
      { s with
        approvals := Dict.erase s.approvals token
        awaitingEdits := s.awaitingEdits.filter fun entry => entry.2 != token }
      ()
  else .returns ()

/-- `find_approval` -/
def TelegramWorkerState.findApproval (s : TelegramWorkerState) (runId approvalId : String) : Option (String × Approval) :=
  s.approvals.find? fun entry => entry.2.runId == runId && entry.2.approvalId == approvalId

/-- `mark_approval_delivered` -/
def TelegramWorkerState.markApprovalDelivered (s : TelegramWorkerState) (token : String) : Result Unit :=
  match (Dict.get s.approvals token).filter fun approval => !approval.delivered with
  | none => .returns ()
  | some approval => .writes { s with approvals := Dict.insert token { approval with delivered := true } s.approvals } ()

/-- `await_edit` -/
def TelegramWorkerState.awaitEdit (s : TelegramWorkerState) (chatId : Int) (token : String) : Result Unit :=
  .writes { s with awaitingEdits := Dict.insert (toString chatId) token s.awaitingEdits } ()

/-- `clear_awaiting_edit` -/
def TelegramWorkerState.clearAwaitingEdit (s : TelegramWorkerState) (chatId : Int) (token : String) : Result Bool :=
  if Dict.get s.awaitingEdits (toString chatId) ≠ some token then .returns false
  else .writes { s with awaitingEdits := Dict.erase s.awaitingEdits (toString chatId) } true

end Operations

end OpenTulpa.Telegram.WorkerState
