import Mathlib.Data.List.Infix
import OpenTulpa.Intake.SinkWriter

/-! How a decision is applied to its booking: the booking is stored before and after every write to the
sink, and a write that may have been applied keeps the revision of its effect. -/

namespace OpenTulpa.Intake.DecisionApplier

open Library Text Bookings SinkWriter
open Persistence.Idempotency (EffectStore)

/-- What one application of a decision reads beside the tables: the answers of the services, whether the
conversation went on meanwhile (under the stale guard), the clock, and the names given to a new booking. -/
structure ApplyRequest where
  decision : Decision
  sink : Sink
  sender : Sender
  messageTime : String
  messagePreview : String
  attempt : Attempt
  stale : Bool
  now : Int
  newId : String

structure ApplyState where
  targetBooking : Booking
  sinkRef : JsonObject
  sinkStatus : SinkStatus
  replyAction : ReplyAction
  deriving DecidableEq

inductive Applied where
  | applied (status : BookingStatus)
  | ignored
  | stale
  | error (message : String)
  | raised
  deriving DecidableEq

def editWindow : Int := 2 * 60 * 60

section Apply

variable (casefold : String → String) (hashes : Hashes)

/-- `required_field_is_present` -/
def requiredFieldIsPresent (payload : JsonObject) (field : String) : Bool :=
  if !(strip ((Dict.get payload field).getD "")).isEmpty then true
  else
    let folded := (casefold (strip field)).toList.filter fun c => !(isSpace c || c == '_' || c == '-')
    if ["note", "notes", "comment", "comments", "примечание", "примечания", "комментарий", "комментарии"].contains
        (String.ofList folded) then (Dict.keys payload).contains field
    else false

def missingFields (sink : Sink) (payload : JsonObject) : List String :=
  sink.requiredFields.filter fun field => !requiredFieldIsPresent casefold payload field

/-- `_build_apply_state` -/
def buildApplyState (request : ApplyRequest) (target : Booking) : ApplyState :=
  let decision := request.decision
  let extracted := Dict.update target.extractedFields decision.extractedFields
  let extracted :=
    if !decision.readyToSave && decision.sinkAction == .upsertPartial then Dict.update extracted decision.sinkPayload
    else extracted
  let summary := strip decision.conversationSummary
  let booking := { target with
    extractedFields := extracted
    conversationSummary :=
      if summary.isEmpty then String.ofList ((strip request.messagePreview).toList.take 300) else summary
    lastCustomerMessageAt := strip request.messageTime }
  ⟨booking, target.sinkRecordRef, target.sinkWriteStatus, decision.replyAction⟩

def savePayload (request : ApplyRequest) (state : ApplyState) : JsonObject :=
  Dict.update state.targetBooking.extractedFields request.decision.savePayload

def isCancellation (state : ApplyState) (payload : JsonObject) : Bool :=
  state.replyAction == .markCancelled || lower (strip ((Dict.get payload "status").getD "")) == "cancelled"

/-- `_should_skip_cancel_sink` -/
def shouldSkipCancelSink (state : ApplyState) (payload : JsonObject) : Bool :=
  isCancellation state payload && state.sinkStatus != .succeeded && state.sinkRef.isEmpty

/-- `_completed_record_status` -/
def completedRecordStatus (state : ApplyState) : Phase :=
  if state.replyAction = .markCancelled then .cancelled else .completed

/-- `_sink_failure_status`, on the texts of sink errors, which are ASCII. -/
@[irreducible] def sinkFailureStatus (message : String) : SinkStatus :=
  if "indeterminate".toList <:+: (lower message).toList then .indeterminate else .failed

/-- `_sink_error` -/
def sinkError (state : ApplyState) (message : String) : Booking :=
  { state.targetBooking with
    status := .active
    sinkWriteStatus := sinkFailureStatus message
    sinkRecordRef := state.sinkRef }

/-- The booking waits for an owner to say what its last write did. -/
def Booking.blocked (booking : Booking) : Bool :=
  booking.sinkWriteStatus == .indeterminate && 0 < booking.sinkEffectRevision

/-- The last write of the booking is tried again under its revision. -/
def Booking.retries (booking : Booking) (phase : Phase) : Bool :=
  0 < booking.sinkEffectRevision && (booking.sinkWriteStatus == .pending || booking.sinkWriteStatus == .failed) &&
    booking.sinkEffectPhase == some phase

/-- `_begin_sink_effect`, when the booking is not blocked. -/
def beginSinkEffect (booking : Booking) (phase : Phase) (now : Int) : Booking :=
  { booking with
    sinkWriteStatus := .pending
    sinkEffectPhase := some phase
    sinkEffectRevision := if Booking.retries booking phase then booking.sinkEffectRevision else booking.sinkEffectRevision + 1
    updatedAt := now }

/-- `_persist_cancel_without_sink` -/
def cancelledWithoutSink (request : ApplyRequest) (state : ApplyState) (payload : JsonObject) : Booking :=
  { state.targetBooking with
    status := .cancelled
    completedAt := some request.now
    editWindowUntil := some (request.now + editWindow)
    sinkWriteStatus := .notRequired
    sinkRecordRef := state.sinkRef
    extractedFields := payload
    updatedAt := request.now }

/-- `_persist_completed_sink` -/
def completedBooking (request : ApplyRequest) (state : ApplyState) (booking : Booking) (payload result : JsonObject) : Booking :=
  { booking with
    status := if state.replyAction = .markCancelled then .cancelled else .completed
    completedAt := some request.now
    editWindowUntil := some (request.now + editWindow)
    sinkWriteStatus := .succeeded
    sinkRecordRef := result
    extractedFields := payload
    updatedAt := request.now }

/-- The record that is stored before a saved booking is written to the sink. -/
def savedBooking (request : ApplyRequest) (state : ApplyState) : Booking :=
  { beginSinkEffect state.targetBooking (completedRecordStatus state) request.now with
    extractedFields := savePayload request state
    sinkRecordRef := state.sinkRef
    updatedAt := request.now }

/-- `_write_completed_sink`, on the booking as it was stored before. -/
def writeCompletedSink (effects : EffectStore) (request : ApplyRequest) (state : ApplyState) (booking : Booking)
    (payload : JsonObject) : List Change × Applied :=
  let (changes, written) :=
    writeToSink hashes effects request.sink booking request.sender payload (completedRecordStatus state) request.attempt
  match written with
  | .raised => (changes, .raised)
  | .error message =>
    (changes ++ [.upsert (sinkError { state with targetBooking := booking } message)], .error message)
  | .ok result =>
    let stored := completedBooking request state booking payload result
    (changes ++ [.upsert stored], .applied stored.status)

/-- A booking is saved without its required fields only when it is cancelled. -/
def lacksFields (request : ApplyRequest) (state : ApplyState) : Bool :=
  !(missingFields casefold request.sink (savePayload request state)).isEmpty &&
    !isCancellation state (savePayload request state)

/-- `_complete_booking` -/
def completeBooking (effects : EffectStore) (request : ApplyRequest) (state : ApplyState) : List Change × Applied :=
  let payload := savePayload request state
  if lacksFields casefold request state then
    ([], .error ("decision marked ready_to_save but required fields are missing: " ++
      ", ".intercalate (missingFields casefold request.sink payload)))
  else if request.stale then ([], .stale)
  else if shouldSkipCancelSink state payload then
    ([.upsert (cancelledWithoutSink request state payload)], .applied .cancelled)
  else if Booking.blocked state.targetBooking then
    ([.upsert (sinkError state publicIndeterminateSinkError)], .error publicIndeterminateSinkError)
  else
    let begun := beginSinkEffect state.targetBooking (completedRecordStatus state) request.now
    let saved := savedBooking request state
    let (changes, applied) := writeCompletedSink hashes effects request state saved payload
    (.upsert begun :: .upsert saved :: changes, applied)

/-- `_write_partial_sink`, after the booking was stored. The last upsert is the caller's. -/
def writePartialSink (effects : EffectStore) (request : ApplyRequest) (state : ApplyState) : List Change × Applied :=
  if !request.sink.sinkType.composio then ([], .error "sink_action=upsert_partial requires a Composio upsert sink")
  else if Booking.blocked state.targetBooking then
    ([.upsert (sinkError state publicIndeterminateSinkError)], .error publicIndeterminateSinkError)
  else
    let begun := beginSinkEffect state.targetBooking .partialFields request.now
    let (changes, written) := writeToSink hashes effects request.sink begun request.sender request.decision.sinkPayload
      .partialFields request.attempt
    match written with
    | .raised => (.upsert begun :: changes, .raised)
    | .error message =>
      (.upsert begun :: changes ++ [.upsert { begun with sinkWriteStatus := sinkFailureStatus message }],
        .error message)
    | .ok result =>
      (.upsert begun :: changes ++ [.upsert { begun with sinkWriteStatus := .partialSucceeded, sinkRecordRef := result }],
        .applied begun.status)

/-- The booking as `_update_active_booking` stores it. -/
def updatedBooking (request : ApplyRequest) (state : ApplyState) : Booking :=
  { state.targetBooking with
    status := if state.replyAction = .markCancelled then .cancelled else .active
    sinkWriteStatus := state.sinkStatus
    sinkRecordRef := state.sinkRef
    updatedAt := request.now }

/-- The decision asks for the fields of the open booking to be written. -/
def writesPartial (request : ApplyRequest) : Bool :=
  request.decision.sinkAction == .upsertPartial && !request.decision.sinkPayload.isEmpty

/-- `_update_active_booking` -/
def updateActiveBooking (effects : EffectStore) (request : ApplyRequest) (state : ApplyState) : List Change × Applied :=
  if request.stale then ([], .stale)
  else
    let booking := updatedBooking request state
    if writesPartial request then
      let (changes, applied) := writePartialSink hashes effects request { state with targetBooking := booking }
      (.upsert booking :: changes, applied)
    else ([.upsert booking, .upsert booking], .applied booking.status)

/-- `apply_decision`, from the booking that the decision is about. -/
def applyToTarget (effects : EffectStore) (request : ApplyRequest) (target : Booking) : List Change × Applied :=
  let state := buildApplyState request target
  if request.decision.readyToSave then completeBooking casefold hashes effects request state
  else updateActiveBooking hashes effects request state

/-- The booking that a decision is about, if it is about one. -/
def target (table : BookingTable) (conversation : Conversation) (request : ApplyRequest) : Except Applied Target :=
  match request.decision.validationError with
  | some message => .error (.error message)
  | none =>
    if request.decision.bookingAction = .ignore then .error .ignored
    else
      .ok (resolveBookingTarget conversation request.decision.bookingAction (getActiveBooking table conversation)
        (getRecentCompletedBooking table conversation request.now) request.newId request.now)

end Apply

section Records

variable (request : ApplyRequest) (booking : Booking) (phase : Phase) (now : Int)

@[simp] theorem buildApplyState_status : (buildApplyState request booking).targetBooking.sinkWriteStatus = booking.sinkWriteStatus := rfl

@[simp] theorem buildApplyState_phase : (buildApplyState request booking).targetBooking.sinkEffectPhase = booking.sinkEffectPhase := rfl

@[simp] theorem buildApplyState_revision :
    (buildApplyState request booking).targetBooking.sinkEffectRevision = booking.sinkEffectRevision := rfl

@[simp] theorem buildApplyState_sinkStatus : (buildApplyState request booking).sinkStatus = booking.sinkWriteStatus := rfl

@[simp] theorem blocked_buildApplyState :
    Booking.blocked (buildApplyState request booking).targetBooking = Booking.blocked booking := rfl

@[simp] theorem retries_buildApplyState :
    Booking.retries (buildApplyState request booking).targetBooking phase = Booking.retries booking phase := rfl

@[simp] theorem blocked_updatedBooking :
    Booking.blocked (updatedBooking request (buildApplyState request booking)) = Booking.blocked booking := rfl

@[simp] theorem beginSinkEffect_status : (beginSinkEffect booking phase now).sinkWriteStatus = .pending := rfl

@[simp] theorem beginSinkEffect_phase : (beginSinkEffect booking phase now).sinkEffectPhase = some phase := rfl

theorem beginSinkEffect_revision : (beginSinkEffect booking phase now).sinkEffectRevision =
    if Booking.retries booking phase then booking.sinkEffectRevision else booking.sinkEffectRevision + 1 := rfl

theorem phase_of_retries {booking : Booking} {phase : Phase} (retries : Booking.retries booking phase = true) :
    booking.sinkEffectPhase = some phase := by
  simp only [Booking.retries, Bool.and_eq_true, beq_iff_eq] at retries
  exact retries.2

end Records

section Changes

variable (casefold : String → String) (hashes : Hashes) (effects : EffectStore) (request : ApplyRequest)
  (state : ApplyState)

/-- The write of a saved booking. -/
def savedWrite : List Change × Written :=
  writeToSink hashes effects request.sink (savedBooking request state) request.sender (savePayload request state)
    (completedRecordStatus state) request.attempt

/-- What is stored after the write of a saved booking. -/
def savedEnd : Written → List Change
  | .raised => []
  | .error message => [.upsert (sinkError { state with targetBooking := savedBooking request state } message)]
  | .ok result =>
    [.upsert (completedBooking request state (savedBooking request state) (savePayload request state) result)]

/-- A saved decision changes nothing, cancels without a write, finds its booking blocked, or writes. -/
theorem completeBooking_changes :
    (lacksFields casefold request state = true ∨ request.stale = true) ∧
      (completeBooking casefold hashes effects request state).1 = [] ∨
    lacksFields casefold request state = false ∧ request.stale = false ∧
    (shouldSkipCancelSink state (savePayload request state) = true ∧
      (completeBooking casefold hashes effects request state).1 =
        [.upsert (cancelledWithoutSink request state (savePayload request state))] ∨
    shouldSkipCancelSink state (savePayload request state) = false ∧ Booking.blocked state.targetBooking = true ∧
      (completeBooking casefold hashes effects request state).1 =
        [.upsert (sinkError state publicIndeterminateSinkError)] ∨
    shouldSkipCancelSink state (savePayload request state) = false ∧ Booking.blocked state.targetBooking = false ∧
      (completeBooking casefold hashes effects request state).1 =
        .upsert (beginSinkEffect state.targetBooking (completedRecordStatus state) request.now) ::
          .upsert (savedBooking request state) :: (savedWrite hashes effects request state).1 ++
            savedEnd request state (savedWrite hashes effects request state).2) := by
  unfold completeBooking
  dsimp only
  split
  · rename_i lacking
    exact Or.inl ⟨Or.inl lacking, rfl⟩
  rename_i full
  split
  · rename_i stale
    exact Or.inl ⟨Or.inr stale, rfl⟩
  rename_i current
  refine Or.inr ⟨by simpa using full, by simpa using current, ?_⟩
  split
  · rename_i skip
    exact Or.inl ⟨skip, rfl⟩
  rename_i skip
  have kept : shouldSkipCancelSink state (savePayload request state) = false := by simpa using skip
  split
  · rename_i blocked
    exact Or.inr (Or.inl ⟨kept, blocked, rfl⟩)
  rename_i blocked
  refine Or.inr (Or.inr ⟨kept, by simpa using blocked, ?_⟩)
  have ends : (writeCompletedSink hashes effects request state (savedBooking request state) (savePayload request state)).1 =
      (savedWrite hashes effects request state).1 ++ savedEnd request state (savedWrite hashes effects request state).2 := by
    unfold writeCompletedSink savedWrite
    dsimp only
    split <;> rename_i outcome <;> simp [outcome, savedEnd]
  rw [ends]
  rfl

/-- The write of the fields of an open booking. -/
def partialWrite (booking : Booking) : List Change × Written :=
  writeToSink hashes effects request.sink (beginSinkEffect booking .partialFields request.now) request.sender
    request.decision.sinkPayload .partialFields request.attempt

/-- What is stored after the write of the fields of an open booking. -/
def partialEnd (booking : Booking) : Written → List Change
  | .raised => []
  | .error message =>
    [.upsert { beginSinkEffect booking .partialFields request.now with sinkWriteStatus := sinkFailureStatus message }]
  | .ok result =>
    [.upsert { beginSinkEffect booking .partialFields request.now with
      sinkWriteStatus := .partialSucceeded, sinkRecordRef := result }]

/-- The decision asks for the fields of the open booking to be written to a sink that takes them. -/
def partialWanted : Prop := writesPartial request = true ∧ request.sink.sinkType.composio = true

/-- A decision that is not saved changes nothing, or stores the booking and then stores it again, finds it
blocked, or writes its fields. -/
theorem updateActiveBooking_changes :
    request.stale = true ∧ (updateActiveBooking hashes effects request state).1 = [] ∨
    request.stale = false ∧ ∃ rest, (updateActiveBooking hashes effects request state).1 =
        .upsert (updatedBooking request state) :: rest ∧
      (¬ partialWanted request ∧ (rest = [] ∨ rest = [.upsert (updatedBooking request state)]) ∨
        partialWanted request ∧ Booking.blocked (updatedBooking request state) = true ∧
          rest = [.upsert (sinkError { state with targetBooking := updatedBooking request state }
            publicIndeterminateSinkError)] ∨
        partialWanted request ∧ Booking.blocked (updatedBooking request state) = false ∧
          rest = .upsert (beginSinkEffect (updatedBooking request state) .partialFields request.now) ::
            (partialWrite hashes effects request (updatedBooking request state)).1 ++
              partialEnd request (updatedBooking request state)
                (partialWrite hashes effects request (updatedBooking request state)).2) := by
  unfold updateActiveBooking
  split
  · rename_i stale
    exact Or.inl ⟨stale, rfl⟩
  rename_i current
  refine Or.inr ⟨by simpa using current, ?_⟩
  dsimp only
  split
  · rename_i wanted
    refine ⟨_, rfl, ?_⟩
    unfold writePartialSink
    split
    · rename_i csv
      refine Or.inl ⟨?_, Or.inl rfl⟩
      rintro ⟨_, composio⟩
      simp [composio] at csv
    rename_i composio
    have upserts : partialWanted request := ⟨wanted, by simpa using composio⟩
    split
    · rename_i blocked
      exact Or.inr (Or.inl ⟨upserts, blocked, rfl⟩)
    · rename_i blocked
      refine Or.inr (Or.inr ⟨upserts, by simpa using blocked, ?_⟩)
      unfold partialWrite
      dsimp only
      split <;> rename_i outcome <;> simp [outcome, partialEnd]
  · rename_i unwanted
    exact ⟨_, rfl, Or.inl ⟨fun wanted => unwanted wanted.1, Or.inr rfl⟩⟩

end Changes

end OpenTulpa.Intake.DecisionApplier
