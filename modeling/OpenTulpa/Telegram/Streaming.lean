import OpenTulpa.Telegram.WorkerState

/-! The events of an agent run as the Telegram worker consumes them: the record of the run is saved around each event,
the streamer records in it what it has shown, and an event that settles the run completes the update. -/

namespace OpenTulpa.Telegram.Streaming

open Library Text WorkerState

section Model

/-- What an event of the Agent API carries, as far as the worker reads it. -/
inductive EventData where
  | messageDelta (text : String)
  | toolStarted (name : String)
  | toolCompleted
  | runCompleted (text : String)
  | runFailed (message : String)
  | approvalRequired (approvalId : String) (allowed : Option (List Decision)) (toolName description : String)
  | other
  deriving DecidableEq

/-- An event as it is parsed, with a run and a positive sequence number. -/
structure Event where
  runId : String
  sequence : Nat
  data : EventData
  named : runId ≠ ""
  positive : 1 ≤ sequence
  deriving DecidableEq

def EventData.settlesStream : EventData → Bool
  | .runCompleted _ | .runFailed _ | .approvalRequired .. => true
  | _ => false

/-- The text that an event adds to the reply. -/
def Event.deltaText (event : Event) : String :=
  match event.data with
  | .messageDelta text => text
  | _ => ""

/-- A message of the streamer, and its text. -/
structure Delivery where
  messageId : Option Nat
  rendered : String
  deriving DecidableEq

/-- One round of the loop: what the streamer records while an event is awaited, the event, what the streamer records
while it shows it, whether that is cut off by an error or a stop, the token drawn for an approval, and whether the
approval is sent. -/
structure Round where
  waiting : List Delivery
  event : Event
  shown : List Delivery
  stopped : Bool
  token : String
  sent : Bool
  deriving DecidableEq

/-- The arguments of `_consume_events` that stay the same. -/
structure Consumption where
  sourceEventId : String
  updateId : Nat
  chatId : Int
  userId : Nat
  consumedApprovalToken : Option String
  deriving DecidableEq

/-- The variables of `_consume_events`, with those of its streamer. -/
structure Stream where
  runId : String
  sequence : Nat
  accumulated : String
  delivery : Delivery
  deriving DecidableEq

inductive Ending where
  | raised
  | completed
  | failed
  | approval (token : String)
  deriving DecidableEq

/-- The state that a consumption leaves, how it ended, and the text that it handed to the streamer to finish with
when the run completed. -/
structure Consumed where
  state : TelegramWorkerState
  ending : Ending
  finishing : Option String

end Model

section Consume

/-- The state after an operation that does not raise. -/
@[grind =] def after {α : Type} (s : TelegramWorkerState) : Result α → TelegramWorkerState
  | .writes state _ => state
  | _ => s

variable (maxSeen : Nat) (c : Consumption)

/-- The record of the run as the loop stands. -/
def recordOf (stream : Stream) : PendingRun where
  sourceEventId := c.sourceEventId
  updateId := c.updateId
  runId := stream.runId
  chatId := c.chatId
  sequence := stream.sequence
  accumulatedText := stream.accumulated
  responseMessageId := stream.delivery.messageId
  renderedText := stream.delivery.rendered

def save (s : TelegramWorkerState) (stream : Stream) : TelegramWorkerState := after s (s.savePendingRun (recordOf c stream))

/-- What the streamer records through `on_delivery`. -/
@[grind =] def deliver (s : TelegramWorkerState) : List Delivery → TelegramWorkerState
  | [] => s
  | delivery :: rest =>
    deliver (after s (s.savePendingDelivery c.sourceEventId delivery.messageId delivery.rendered)) rest

def Stream.show (stream : Stream) (deliveries : List Delivery) : Stream :=
  { stream with delivery := deliveries.getLastD stream.delivery }

def complete (s : TelegramWorkerState) (token : Option String) : TelegramWorkerState :=
  after s (s.completeUpdate maxSeen c.updateId c.sourceEventId token)

/-- The first text that is not empty, once it is stripped. -/
def completionText (text accumulated : String) : String :=
  if !(strip text).isEmpty then strip text
  else if !(strip accumulated).isEmpty then strip accumulated
  else "The run completed without a message."

def decisions : List Decision := [.approve, .edit, .reject]

/-- `_record_approval`, or none where it raises. -/
def recordApproval (s : TelegramWorkerState) (runId drawn approvalId : String) (allowed : Option (List Decision))
    (toolName description : String) : Option (TelegramWorkerState × String) :=
  if (strip approvalId).isEmpty then none
  else
    match s.findApproval runId (strip approvalId) with
    | some (token, _) => some (s, token)
    | none =>
      if (allowed.getD decisions).isEmpty then none
      else
        some (after s (s.saveApproval drawn
          { runId := runId
            approvalId := strip approvalId
            chatId := c.chatId
            userId := c.userId
            allowedDecisions := allowed.getD decisions
            toolName := String.ofList ((if toolName.isEmpty then "action" else toolName).toList.take 120)
            description :=
              String.ofList ((if description.isEmpty then "Approval required" else description).toList.take 1500)
            delivered := false }), drawn)

/-- `_deliver_approval` -/
def deliverApproval (s : TelegramWorkerState) (token : String) (sent : Bool) : TelegramWorkerState :=
  if sent then after s (s.markApprovalDelivered token) else s

/-- The end of an update whose run stopped for an approval. -/
@[grind =] def awaitApproval (s : TelegramWorkerState) (round : Round) (token : String) : Consumed :=
  let shown := deliver c s round.shown
  if round.stopped then ⟨shown, .raised, none⟩
  else
    let consume := if c.consumedApprovalToken ≠ some token then c.consumedApprovalToken else none
    ⟨deliverApproval (complete maxSeen c shown consume) token round.sent, .approval token, none⟩

/-- The end of an update whose run is over. -/
@[grind =] def finish (s : TelegramWorkerState) (round : Round) (ending : Ending) (finishing : Option String) : Consumed :=
  let shown := deliver c s round.shown
  if round.stopped then ⟨shown, .raised, finishing⟩
  else ⟨complete maxSeen c shown c.consumedApprovalToken, ending, finishing⟩

/-- What a settling event leads to, from the record saved before it. -/
@[grind =] def settle (s : TelegramWorkerState) (stream : Stream) (round : Round) : Consumed :=
  match round.event.data with
  | .runCompleted text => finish maxSeen c s round .completed (some (completionText text stream.accumulated))
  | .approvalRequired approvalId allowed toolName description =>
    match recordApproval c s stream.runId round.token approvalId allowed toolName description with
    | none => ⟨s, .raised, none⟩
    | some (recorded, token) => awaitApproval maxSeen c recorded round token
  | _ => finish maxSeen c s round .failed none

/-- The stream after the text of an event. -/
def Stream.extend (stream : Stream) (event : Event) : Stream :=
  match event.data with
  | .messageDelta text => { stream with accumulated := tail textLimit (stream.accumulated ++ text) }
  | _ => stream

/-- The event is taken by the loop. -/
def Stream.takes (stream : Stream) (event : Event) : Bool := stream.sequence < event.sequence

/-- The run of the stream, once it is known, is the run of the event. -/
def Stream.agrees (stream : Stream) (event : Event) : Bool := stream.runId.isEmpty || event.runId == stream.runId

/-- The loop of `_consume_events`. It raises where the events end. -/
@[grind =] def consume (s : TelegramWorkerState) (stream : Stream) : List Round → List Delivery → Consumed
  | [], waiting => ⟨deliver c s waiting, .raised, none⟩
  | round :: rounds, waiting =>
    let waited := deliver c s round.waiting
    let shown := stream.show round.waiting
    if !stream.agrees round.event then ⟨waited, .raised, none⟩
    else if !stream.takes round.event then consume waited shown rounds waiting
    else
      let named := { shown with runId := round.event.runId }
      let saved := save c waited named
      if round.event.data.settlesStream then settle maxSeen c (save c saved named) named round
      else
        let extended := named.extend round.event
        let delivered := deliver c saved round.shown
        if round.stopped then ⟨delivered, .raised, none⟩
        else
          let next := { extended.show round.shown with sequence := round.event.sequence }
          consume (save c delivered next) next rounds waiting

end Consume

section Attempts

/-- The rounds of an attempt, and what the streamer records while the last event does not come. -/
structure Attempt where
  rounds : List Round
  waiting : List Delivery
  deriving DecidableEq

/-- The variables at the start of a first attempt. -/
def Stream.initial (runId : String) : Stream := ⟨runId, 0, "", ⟨none, ""⟩⟩

/-- The variables that `_recover_pending_record` starts from. -/
def Stream.recovered (record : PendingRun) : Stream where
  runId := record.runId
  sequence := record.sequence
  accumulated := tail textLimit record.accumulatedText
  delivery := ⟨positive record.responseMessageId, if (positive record.responseMessageId).isSome then record.renderedText else ""⟩

/-- The check of `_recover_pending_record`. -/
def recoverable (s : TelegramWorkerState) (record : PendingRun) : Bool :=
  s.paired.any fun identity => identity.2 == record.chatId && !record.runId.isEmpty && !record.sourceEventId.isEmpty

/-- The arguments that `_recover_pending_record` passes on. -/
def recoveredConsumption (s : TelegramWorkerState) (record : PendingRun) : Consumption where
  sourceEventId := record.sourceEventId
  updateId := record.updateId
  chatId := record.chatId
  userId := (s.paired.map Prod.fst).getD 0
  consumedApprovalToken := none

/-- `_recover_pending_record` -/
def recoverPendingRecord (maxSeen : Nat) (s : TelegramWorkerState) (record : PendingRun) (attempt : Attempt) : Consumed :=
  if recoverable s record then
    consume maxSeen (recoveredConsumption s record) s (.recovered record) attempt.rounds attempt.waiting
  else ⟨s, .raised, none⟩

/-- An attempt to consume the events of a run: from the record where there is one, and from the start else. -/
def attemptRun (maxSeen : Nat) (c : Consumption) (initialRunId : String) (s : TelegramWorkerState) (attempt : Attempt) :
    Consumed :=
  match Dict.get s.pendingRuns c.sourceEventId with
  | some record => recoverPendingRecord maxSeen s record attempt
  | none => consume maxSeen c s (.initial initialRunId) attempt.rounds attempt.waiting

end Attempts

section Records

variable {maxSeen : Nat} {c : Consumption} {s : TelegramWorkerState}

/-- What a record says of the run, without what the streamer has shown. -/
structure Progress where
  sourceEventId : String
  updateId : Nat
  runId : String
  chatId : Int
  sequence : Nat
  accumulatedText : String
  deriving DecidableEq

def progress (record : PendingRun) : Progress :=
  ⟨record.sourceEventId, record.updateId, record.runId, record.chatId, record.sequence, record.accumulatedText⟩

/-- The progress of the run that an update waits for. -/
def held (c : Consumption) (s : TelegramWorkerState) : Option Progress :=
  (Dict.get s.pendingRuns c.sourceEventId).map progress

/-- The parts of the state that the loop leaves alone until it ends. -/
def aside (s : TelegramWorkerState) :
    Option (Nat × Int) × List (String × Approval) × List (String × String) × List String :=
  (s.paired, s.approvals, s.awaitingEdits, s.seenSourceEvents)

@[simp] theorem held_save (stream : Stream) :
    held c (save c s stream) =
      some ⟨c.sourceEventId, c.updateId, stream.runId, c.chatId, stream.sequence, tail textLimit stream.accumulated⟩ := by
  simp [held, save, after, TelegramWorkerState.savePendingRun, recordOf, progress]

@[simp] theorem aside_save (stream : Stream) : aside (save c s stream) = aside s := rfl

theorem savePendingDelivery_after (sourceEventId : String) (messageId : Option Nat) (rendered : String) :
    after s (s.savePendingDelivery sourceEventId messageId rendered) = s ∨
      ∃ record, Dict.get s.pendingRuns sourceEventId = some record ∧
        after s (s.savePendingDelivery sourceEventId messageId rendered) =
          { s with
            pendingRuns := Dict.insert sourceEventId
              { record with responseMessageId := positive messageId, renderedText := tail textLimit rendered }
              s.pendingRuns } := by
  unfold TelegramWorkerState.savePendingDelivery
  split
  · exact Or.inl rfl
  · rename_i record found
    exact Or.inr ⟨record, found, rfl⟩

@[simp] theorem held_deliver (deliveries : List Delivery) : held c (deliver c s deliveries) = held c s := by
  induction deliveries generalizing s with
  | nil => rfl
  | cons delivery rest ih =>
    rw [deliver, ih]
    rcases savePendingDelivery_after c.sourceEventId delivery.messageId delivery.rendered with same | ⟨record, found, written⟩
    · rw [same]
    · rw [written]
      simp [held, found, progress]

@[simp] theorem aside_deliver (deliveries : List Delivery) : aside (deliver c s deliveries) = aside s := by
  induction deliveries generalizing s with
  | nil => rfl
  | cons delivery rest ih =>
    rw [deliver, ih]
    rcases savePendingDelivery_after c.sourceEventId delivery.messageId delivery.rendered with same | ⟨record, -, written⟩
    · rw [same]
    · rw [written]
      rfl

/-- Without a record there is nothing to record in. -/
theorem deliver_of_none (absent : Dict.get s.pendingRuns c.sourceEventId = none) (deliveries : List Delivery) :
    deliver c s deliveries = s := by
  induction deliveries with
  | nil => rfl
  | cons delivery rest ih =>
    rw [deliver]
    have same : after s (s.savePendingDelivery c.sourceEventId delivery.messageId delivery.rendered) = s := by
      simp [TelegramWorkerState.savePendingDelivery, absent, after]
    rw [same]
    exact ih

@[simp] theorem held_complete (token : Option String) : held c (complete maxSeen c s token) = none := by
  unfold complete TelegramWorkerState.completeUpdate held
  split <;> simp [after]

theorem recordApproval_shape {runId drawn approvalId toolName description token : String}
    {allowed : Option (List Decision)} {recorded : TelegramWorkerState}
    (done : recordApproval c s runId drawn approvalId allowed toolName description = some (recorded, token)) :
    recorded = s ∨ ∃ approval, recorded = { s with approvals := Dict.insert drawn approval s.approvals } := by
  unfold recordApproval at done
  split at done
  · cases done
  · split at done
    · cases done
      exact Or.inl rfl
    · split at done
      · cases done
      · cases done
        exact Or.inr ⟨_, rfl⟩

theorem held_recordApproval {runId drawn approvalId toolName description token : String}
    {allowed : Option (List Decision)} {recorded : TelegramWorkerState}
    (done : recordApproval c s runId drawn approvalId allowed toolName description = some (recorded, token)) :
    held c recorded = held c s := by
  rcases recordApproval_shape done with rfl | ⟨approval, rfl⟩ <;> rfl

theorem deliverApproval_shape (token : String) (sent : Bool) : deliverApproval s token sent = s ∨
    ∃ approval, Dict.get s.approvals token = some approval ∧
      deliverApproval s token sent =
        { s with approvals := Dict.insert token { approval with delivered := true } s.approvals } := by
  unfold deliverApproval TelegramWorkerState.markApprovalDelivered
  split
  · split
    · exact Or.inl rfl
    · rename_i approval found
      exact Or.inr ⟨approval, (Option.filter_eq_some_iff.mp found).1, rfl⟩
  · exact Or.inl rfl

@[simp] theorem held_deliverApproval (token : String) (sent : Bool) : held c (deliverApproval s token sent) = held c s := by
  rcases deliverApproval_shape (s := s) token sent with same | ⟨approval, -, written⟩
  · rw [same]
  · rw [written]
    rfl

end Records

section Rounds

variable {maxSeen : Nat} {c : Consumption} {s : TelegramWorkerState} {stream : Stream} {round : Round}
  {rounds : List Round} {waiting : List Delivery}

theorem consume_foreign (foreign : stream.agrees round.event = false) :
    consume maxSeen c s stream (round :: rounds) waiting = ⟨deliver c s round.waiting, .raised, none⟩ := by
  simp [consume, foreign]

theorem consume_repeated (agrees : stream.agrees round.event = true) (old : stream.takes round.event = false) :
    consume maxSeen c s stream (round :: rounds) waiting =
      consume maxSeen c (deliver c s round.waiting) (stream.show round.waiting) rounds waiting := by
  simp [consume, agrees, old]

/-- The stream once an event is taken, and the state with its record. -/
def Stream.taking (stream : Stream) (round : Round) : Stream :=
  { stream.show round.waiting with runId := round.event.runId }

def saved (c : Consumption) (s : TelegramWorkerState) (stream : Stream) (round : Round) : TelegramWorkerState :=
  save c (deliver c s round.waiting) (stream.taking round)

theorem consume_settling (agrees : stream.agrees round.event = true) (taken : stream.takes round.event = true)
    (settles : round.event.data.settlesStream = true) :
    consume maxSeen c s stream (round :: rounds) waiting =
      settle maxSeen c (save c (saved c s stream round) (stream.taking round)) (stream.taking round) round := by
  simp [consume, agrees, taken, settles, saved, Stream.taking]

theorem consume_stopped (agrees : stream.agrees round.event = true) (taken : stream.takes round.event = true)
    (goes : round.event.data.settlesStream = false) (stopped : round.stopped = true) :
    consume maxSeen c s stream (round :: rounds) waiting =
      ⟨deliver c (saved c s stream round) round.shown, .raised, none⟩ := by
  simp [consume, agrees, taken, goes, stopped, saved, Stream.taking]

/-- The stream after an event that does not settle it. -/
def Stream.next (stream : Stream) (round : Round) : Stream :=
  { ((stream.taking round).extend round.event).show round.shown with sequence := round.event.sequence }

theorem consume_next (agrees : stream.agrees round.event = true) (taken : stream.takes round.event = true)
    (goes : round.event.data.settlesStream = false) (shown : round.stopped = false) :
    consume maxSeen c s stream (round :: rounds) waiting =
      consume maxSeen c (save c (deliver c (saved c s stream round) round.shown) (stream.next round))
        (stream.next round) rounds waiting := by
  simp [consume, agrees, taken, goes, shown, saved, Stream.taking, Stream.next]

@[simp] theorem extend_runId (stream : Stream) (event : Event) : (stream.extend event).runId = stream.runId := by
  unfold Stream.extend
  split <;> rfl

theorem next_runId (stream : Stream) (round : Round) : (stream.next round).runId = round.event.runId :=
  extend_runId (stream.taking round) round.event

/-- What is kept while records are saved and deliveries recorded decides what a consumption ends with. -/
theorem consume_rule (P : TelegramWorkerState → Prop) (Post : Consumed → Prop)
    (delivers : ∀ s deliveries, P s → P (deliver c s deliveries))
    (saves : ∀ s stream, stream.runId ≠ "" → P s → P (save c s stream))
    (raises : ∀ s, P s → Post ⟨s, .raised, none⟩)
    (settles : ∀ s stream round, P s → Post (settle maxSeen c s stream round)) (holds : P s) :
    Post (consume maxSeen c s stream rounds waiting) := by
  induction rounds generalizing s stream with
  | nil => exact raises _ (delivers _ _ holds)
  | cons round rounds ih =>
    have waited := delivers s round.waiting holds
    cases agrees : stream.agrees round.event with
    | false =>
      rw [consume_foreign agrees]
      exact raises _ waited
    | true =>
      cases taken : stream.takes round.event with
      | false =>
        rw [consume_repeated agrees taken]
        exact ih waited
      | true =>
        have recorded : P (saved c s stream round) := saves _ _ round.event.named waited
        cases settling : round.event.data.settlesStream with
        | true =>
          rw [consume_settling agrees taken settling]
          exact settles _ _ _ (saves _ _ round.event.named recorded)
        | false =>
          have shown := delivers _ round.shown recorded
          cases stopped : round.stopped with
          | true =>
            rw [consume_stopped agrees taken settling stopped]
            exact raises _ shown
          | false =>
            rw [consume_next agrees taken settling stopped]
            have named : (stream.next round).runId ≠ "" := by
              rw [next_runId]
              exact round.event.named
            exact ih (saves _ _ named shown)

/-- An ending that raises leaves the record as it was saved; any other removes it. -/
theorem held_finish (ending : Ending) (finishing : Option String) :
    (finish maxSeen c s round ending finishing).finishing = finishing ∧
      (held c (finish maxSeen c s round ending finishing).state = held c s ∨
        held c (finish maxSeen c s round ending finishing).state = none) := by
  unfold finish
  dsimp only
  split
  · exact ⟨rfl, Or.inl (held_deliver _)⟩
  · exact ⟨rfl, Or.inr (held_complete _)⟩

theorem held_settle : held c (settle maxSeen c s stream round).state = held c s ∨
    held c (settle maxSeen c s stream round).state = none := by
  unfold settle
  split
  · exact (held_finish _ _).2
  · split
    · exact Or.inl rfl
    · rename_i recorded token done
      rw [← held_recordApproval done]
      unfold awaitApproval
      dsimp only
      split
      · exact Or.inl (held_deliver _)
      · right
        simp
  · exact (held_finish _ _).2

/-- The text that a settling event is finished with. -/
def finalText (data : EventData) (accumulated : String) : Option String :=
  match data with
  | .runCompleted text => some (completionText text accumulated)
  | _ => none

theorem settle_finishing :
    (settle maxSeen c s stream round).finishing = finalText round.event.data stream.accumulated := by
  unfold settle
  cases round.event.data with
  | runCompleted text => exact (held_finish _ _).1
  | approvalRequired approvalId allowed toolName description =>
    dsimp only
    split
    · rfl
    · unfold awaitApproval
      dsimp only
      split <;> rfl
  | messageDelta text => exact (held_finish _ _).1
  | toolStarted name => exact (held_finish _ _).1
  | toolCompleted => exact (held_finish _ _).1
  | runFailed message => exact (held_finish _ _).1
  | other => exact (held_finish _ _).1

/-- The state, or the state with one more approval. -/
def Grown (s recorded : TelegramWorkerState) : Prop :=
  recorded = s ∨ ∃ token approval, recorded = { s with approvals := Dict.insert token approval s.approvals }

/-- How a settling event ends: by raising, by completing the update of a run that is over, or by completing it for an
approval. -/
inductive Settled (maxSeen : Nat) (c : Consumption) (s : TelegramWorkerState) : Consumed → Prop where
  | raised {recorded : TelegramWorkerState} (grown : Grown s recorded) (deliveries : List Delivery)
      (finishing : Option String) : Settled maxSeen c s ⟨deliver c recorded deliveries, .raised, finishing⟩
  | ended (deliveries : List Delivery) {ending : Ending} (final : ending = .completed ∨ ending = .failed)
      (finishing : Option String) :
      Settled maxSeen c s ⟨complete maxSeen c (deliver c s deliveries) c.consumedApprovalToken, ending, finishing⟩
  | approval {recorded : TelegramWorkerState} (grown : Grown s recorded) (deliveries : List Delivery) (token : String)
      (sent : Bool) :
      Settled maxSeen c s
        ⟨deliverApproval (complete maxSeen c (deliver c recorded deliveries)
            (if c.consumedApprovalToken ≠ some token then c.consumedApprovalToken else none)) token sent,
          .approval token, none⟩

theorem finish_settled {ending : Ending} (final : ending = .completed ∨ ending = .failed) (finishing : Option String) :
    Settled maxSeen c s (finish maxSeen c s round ending finishing) := by
  unfold finish
  dsimp only
  split
  · exact .raised (Or.inl rfl) round.shown finishing
  · exact .ended round.shown final finishing

theorem settle_settled : Settled maxSeen c s (settle maxSeen c s stream round) := by
  unfold settle
  split
  · exact finish_settled (Or.inl rfl) _
  · split
    · exact .raised (Or.inl rfl) [] none
    · rename_i recorded token done
      have grown : Grown s recorded := (recordApproval_shape done).imp id fun ⟨approval, shape⟩ => ⟨_, approval, shape⟩
      unfold awaitApproval
      dsimp only
      split
      · exact .raised grown round.shown none
      · exact .approval grown round.shown token round.sent
  · exact finish_settled (Or.inr rfl) _

end Rounds

end OpenTulpa.Telegram.Streaming
