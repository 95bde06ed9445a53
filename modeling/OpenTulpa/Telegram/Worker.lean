import OpenTulpa.Library.Text
import Mathlib.Data.List.Infix
import Mathlib.Data.List.Sort

/-! The Telegram interface worker: the durable inbox of accepted updates, the merging of plain texts
that wait one behind the other, and the request that a message becomes. -/

namespace OpenTulpa.Telegram.Worker

open Library Text

/-- The fields of a message that the worker reads. -/
structure Message where
  userId : Option Nat
  chatId : Option Int
  nonPrivate : Bool
  text : String
  caption : String
  replyTo : Option Nat
  attachments : List String
  deriving DecidableEq

inductive Update where
  | message (message : Message)
  | editedMessage (message : Message)
  | callbackQuery (data : String)
  | unknown
  deriving DecidableEq

/-- The bot that the worker speaks for, and the lower case of a text. -/
structure Bot where
  id : Nat
  username : String
  lower : String → String

/-- The durable state, as far as accepted messages depend on it. `awaitingEdits` are the chats whose next
message is read as edited arguments. -/
structure State where
  nextUpdateId : Nat
  paired : Option (Nat × Int)
  updateInbox : List (Nat × Update)
  seenSourceEvents : List String
  pendingRuns : List (String × Nat)
  awaitingEdits : List Int
  deriving DecidableEq

def defaultState : State := ⟨0, none, [], [], [], []⟩

section Inbox

/-- The pending update of an identifier. -/
def State.inbox (s : State) (updateId : Nat) : Option Update :=
  (s.updateInbox.find? fun entry => entry.1 == updateId).map Prod.snd

/-- `accept_update`, which raises on another payload under the same identifier. -/
def State.acceptUpdate (s : State) (updateId : Nat) (update : Update) : Option State :=
  let next := max s.nextUpdateId (updateId + 1)
  match s.inbox updateId with
  | none => some { s with updateInbox := s.updateInbox ++ [(updateId, update)], nextUpdateId := next }
  | some existing => if existing ≠ update then none else some { s with nextUpdateId := next }

/-- `pending_updates` -/
def State.pendingUpdates (s : State) : List (Nat × Update) :=
  s.updateInbox.insertionSort fun first second => first.1 ≤ second.1

/-- `coalesce_updates`, which raises when one of the updates is not pending. -/
def State.coalesceUpdates (s : State) (updateIds : List Nat) (merged : Update) : Option State :=
  match updateIds with
  | [] => none
  | primary :: others =>
    if (primary :: others).all fun updateId => (s.inbox updateId).isSome then
      some { s with
        updateInbox := (s.updateInbox.filter fun entry => entry.1 == primary || !others.contains entry.1).map fun entry =>
          if entry.1 = primary then (primary, merged) else entry }
    else none

def State.sourceSeen (s : State) (sourceEventId : String) : Bool := s.seenSourceEvents.contains sourceEventId

def State.pendingRun (s : State) (sourceEventId : String) : Option Nat :=
  (s.pendingRuns.find? fun run => run.1 == sourceEventId).map Prod.snd

/-- `save_pending_run` -/
def State.savePendingRun (s : State) (sourceEventId : String) (updateId : Nat) : State :=
  { s with pendingRuns := (s.pendingRuns.filter fun run => run.1 != sourceEventId) ++ [(sourceEventId, updateId)] }

def maxSeenSourceEvents : Nat := 5000

/-- `complete_update` -/
def State.completeUpdate (s : State) (updateId : Nat) (sourceEventId : String) : State :=
  let history := (s.seenSourceEvents.filter fun seen => seen != sourceEventId) ++ [sourceEventId]
  { s with
    seenSourceEvents := history.drop (history.length - maxSeenSourceEvents)
    nextUpdateId := max s.nextUpdateId (updateId + 1)
    updateInbox := s.updateInbox.filter fun entry => entry.1 != updateId
    pendingRuns := s.pendingRuns.filter fun run => run.1 != sourceEventId }

/-- `pair` -/
def State.pair (s : State) (userId : Nat) (chatId : Int) : State :=
  match s.paired with
  | none => { s with paired := some (userId, chatId) }
  | some _ => s

end Inbox

section Messages

variable (bot : Bot)

/-- `_command` -/
def command (text : String) : String × String :=
  let chars := text.toList.dropWhile isSpace
  let word := chars.takeWhile fun c => !isSpace c
  let rest := chars.dropWhile fun c => !isSpace c
  (bot.lower (String.ofList (word.takeWhile fun c => c ≠ '@')), String.ofList (stripChars rest))

/-- The text or else the caption of a message. -/
def Message.content (message : Message) : String := if message.text.isEmpty then message.caption else message.text

/-- `_is_cancel_update` -/
def isCancelUpdate : Update → Bool
  | .message message | .editedMessage message => (command bot message.content).1 == "/cancel"
  | _ => false

/-- `_coalescible_text` -/
def coalescibleText : Update → Option (Nat × Int × String)
  | .message message =>
    if !message.attachments.isEmpty then none
    else
      let text := strip message.text
      match message.userId, message.chatId with
      | some userId, some chatId =>
        if text.isEmpty || (command bot text).1.toList.head? == some '/' then none else some (userId, chatId, text)
      | _, _ => none
  | _ => none

/-- `_pending_text_batch`, from the batch so far. -/
def pendingTextBatch (firstUpdateId : Nat) (identity : Nat × Int) :
    List (Nat × Update × String) → List (Nat × Update) → List (Nat × Update × String)
  | batch, [] => batch
  | batch, (updateId, update) :: pending =>
    if updateId < firstUpdateId then pendingTextBatch firstUpdateId identity batch pending
    else if batch.isEmpty && updateId != firstUpdateId then batch
    else
      match coalescibleText bot update with
      | none => batch
      | some (userId, chatId, text) =>
        if (userId, chatId) ≠ identity then batch
        else pendingTextBatch firstUpdateId identity (batch ++ [(updateId, update, text)]) pending

def Update.withText (text : String) : Update → Update
  | .message plain => .message { plain with text := text }
  | update => update

def joinTexts (texts : List String) : String := String.intercalate "\n\n" texts

/-- The batch that waits behind an update, when `_coalesce_text_updates` stops waiting. -/
def textBatch (s : State) (updateId : Nat) (update : Update) : List (Nat × Update × String) :=
  match coalescibleText bot update with
  | none => []
  | some (userId, chatId, _) => pendingTextBatch bot updateId (userId, chatId) [] s.pendingUpdates

/-- The end of `_coalesce_text_updates`: the state and the update that is processed. -/
def coalesceTextUpdates (s : State) (updateId : Nat) (update : Update) : Option (State × Update) :=
  match textBatch bot s updateId update with
  | first :: second :: rest =>
    let batch := first :: second :: rest
    let merged := first.2.1.withText (joinTexts (batch.map fun item => item.2.2))
    (s.coalesceUpdates (batch.map Prod.fst) merged).map fun state => (state, merged)
  | _ => some (s, update)

/-- An update waits for others only as a plain text of the paired identity that is no edit. -/
def coalesces (s : State) (update : Update) : Bool :=
  match coalescibleText bot update with
  | none => false
  | some (userId, chatId, _) => s.paired == some (userId, chatId) && !s.awaitingEdits.contains chatId

/-- `_message_addresses_bot` -/
def messageAddressesBot (message : Message) : Bool :=
  let username := bot.lower (String.ofList ((strip bot.username).toList.dropWhile fun c => c == '@'))
  message.replyTo == some bot.id ||
    (!username.isEmpty && decide (("@" ++ username).toList <:+: (bot.lower message.content).toList))

/-- `_strip_leading_bot_mention` -/
def stripLeadingBotMention (text : String) : String :=
  let username := String.ofList ((strip bot.username).toList.dropWhile fun c => c == '@')
  let marker := "@" ++ username
  if username.isEmpty || !decide ((bot.lower marker).toList <+: (bot.lower text).toList) then text
  else strip (String.ofList (text.toList.drop marker.length))

/-- The text of a message, without a leading mention of the bot where others read along. -/
def addressedText (message : Message) : String :=
  if message.nonPrivate then stripLeadingBotMention bot (strip message.content) else strip message.content

/-- The text that is sent as it was written, but for the arguments of the one command that starts a run. -/
def sentText (message : Message) : String :=
  if command bot (addressedText bot message) = ("/regenerate", "") then "/regenerate" else addressedText bot message

/-- The text of the request that a message becomes. -/
def requestText (message : Message) : String :=
  if (sentText bot message).isEmpty then "Please inspect and respond to the attached files." else sentText bot message

def inferenceCommands : List String := ["/model", "/models", "/reasoning", "/codex"]

/-- Commands that are answered without a run. -/
def answeredCommands : List String := ["/start", "/fresh", "/cancel"] ++ inferenceCommands

/-- What an update leads to: nothing, a request to start a run, or else replies and the events of a run
that is resumed. -/
inductive Handling where
  | complete
  | startRun (text : String)
  | respond
  deriving DecidableEq

/-- `_handle_message` -/
def handleMessage (s : State) (message : Message) : Handling :=
  match message.chatId, message.userId with
  | some chatId, some userId =>
    if message.nonPrivate && !messageAddressesBot bot message then .complete
    else
      match s.paired with
      | none => .respond
      | some (pairedUserId, pairedChatId) =>
        if userId ≠ pairedUserId ∨ (message.nonPrivate = false ∧ chatId ≠ pairedChatId) then
          if message.nonPrivate then .complete else .respond
        else if s.awaitingEdits.contains chatId then .respond
        else if answeredCommands.contains (command bot (addressedText bot message)).1 then .respond
        else if (sentText bot message).isEmpty && message.attachments.isEmpty then .respond
        else .startRun (requestText bot message)
  | _, _ => .complete

/-- `_handle_update` -/
def handleUpdate (s : State) : Update → Handling
  | .callbackQuery _ => .respond
  | .message message | .editedMessage message => handleMessage bot s message
  | .unknown => .complete

/-- `_source_event_id` -/
def sourceEventId (updateId : Nat) : String := "telegram:" ++ toString bot.id ++ ":" ++ toString updateId

/-- `process` in `_process_accepted_update` -/
def process (s : State) (updateId : Nat) (update : Update) : Handling :=
  if s.sourceSeen (sourceEventId bot updateId) then .complete
  else if (s.pendingRun (sourceEventId bot updateId)).isSome then .respond
  else handleUpdate bot s update

end Messages

end OpenTulpa.Telegram.Worker
