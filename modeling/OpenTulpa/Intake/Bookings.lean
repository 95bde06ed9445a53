import Mathlib.Data.List.Sort
import OpenTulpa.Library.Dict
import OpenTulpa.Library.Rows
import OpenTulpa.Library.Text

/-! The bookings of intake conversations, how a decision is read, and which booking it is about. A
conversation has an open booking, recently completed ones that can still be edited, or neither. -/

namespace OpenTulpa.Intake.Bookings

open Library Text

inductive BookingStatus where
  | active
  | completed
  | cancelled
  deriving DecidableEq

inductive SinkStatus where
  | pending
  | failed
  | indeterminate
  | succeeded
  | partialSucceeded
  | notRequired
  deriving DecidableEq

/-- What a write to the sink records: fields of an open booking, or its end. -/
inductive Phase where
  | partialFields
  | completed
  | cancelled
  deriving DecidableEq

def Phase.text : Phase → String
  | .partialFields => "partial"
  | .completed => "completed"
  | .cancelled => "cancelled"

/-- `none` for a phase is the empty text, and for a time as well. -/
structure Booking where
  bookingId : String
  workflowId : String
  customerId : String
  conversationId : String
  status : BookingStatus
  extractedFields : JsonObject
  sinkWriteStatus : SinkStatus
  sinkRecordRef : JsonObject
  sinkEffectRevision : Nat
  sinkEffectPhase : Option Phase
  conversationSummary : String
  lastCustomerMessageAt : String
  openedAt : Int
  completedAt : Option Int
  editWindowUntil : Option Int
  createdAt : Int
  updatedAt : Int
  deriving DecidableEq

/-- A conversation of a workflow, under the identifiers that its bookings are stored with. -/
structure Conversation where
  customerId : String
  workflowId : String
  conversationId : String
  trimmed : strip customerId = customerId ∧ strip workflowId = workflowId ∧ strip conversationId = conversationId
  named : customerId ≠ "" ∧ workflowId ≠ "" ∧ conversationId ≠ ""

def Booking.of (booking : Booking) (conversation : Conversation) : Prop :=
  booking.customerId = conversation.customerId ∧ booking.workflowId = conversation.workflowId ∧
    booking.conversationId = conversation.conversationId

instance (booking : Booking) (conversation : Conversation) : Decidable (booking.of conversation) :=
  inferInstanceAs (Decidable (_ ∧ _ ∧ _))

abbrev BookingTable := List Booking

/-- What an upsert of a stored booking sets. -/
def Booking.overwritten (stored written : Booking) : Booking :=
  { written with
    bookingId := stored.bookingId
    workflowId := stored.workflowId
    customerId := stored.customerId
    conversationId := stored.conversationId
    createdAt := stored.createdAt }

/-- `upsert_booking` -/
def upsertBooking (table : BookingTable) (booking : Booking) : BookingTable :=
  if table.any fun row => row.bookingId == booking.bookingId then
    Rows.update (fun row => row.bookingId == booking.bookingId) (fun row => row.overwritten booking) table
  else table ++ [booking]

def later (first second : Booking) : Prop := second.updatedAt ≤ first.updatedAt

instance : DecidableRel later := fun first second => inferInstanceAs (Decidable (second.updatedAt ≤ first.updatedAt))

/-- `list_bookings`, the latest first. -/
def listBookings (table : BookingTable) (customerId workflowId conversationId : String) : List Booking :=
  let customer := strip customerId
  let workflow := strip workflowId
  let conversation := strip conversationId
  if customer.isEmpty || workflow.isEmpty then []
  else
    (table.filter fun row => row.customerId == customer && row.workflowId == workflow &&
      (conversation.isEmpty || row.conversationId == conversation)).insertionSort later

def Conversation.bookings (conversation : Conversation) (table : BookingTable) : List Booking :=
  listBookings table conversation.customerId conversation.workflowId conversation.conversationId

/-- `_get_active_booking` -/
def getActiveBooking (table : BookingTable) (conversation : Conversation) : Option Booking :=
  (conversation.bookings table).find? fun booking => booking.status == .active

/-- The booking can still be edited. -/
def Booking.editable (booking : Booking) (now : Int) : Bool :=
  booking.status == .completed && booking.editWindowUntil.any fun closes => !decide (closes < now)

/-- `_get_recent_completed_booking` -/
def getRecentCompletedBooking (table : BookingTable) (conversation : Conversation) (now : Int) : Option Booking :=
  (conversation.bookings table).find? fun booking => booking.editable now

inductive BookingAction where
  | ignore
  | updateActive
  | editRecentCompleted
  | createNewBooking
  | unsupported (text : String)
  deriving DecidableEq

def BookingAction.text : BookingAction → String
  | .ignore => "ignore"
  | .updateActive => "update_active"
  | .editRecentCompleted => "edit_recent_completed"
  | .createNewBooking => "create_new_booking"
  | .unsupported text => text

inductive SinkAction where
  | nothing
  | upsertPartial
  | unsupported (text : String)
  deriving DecidableEq

def SinkAction.text : SinkAction → String
  | .nothing => "none"
  | .upsertPartial => "upsert_partial"
  | .unsupported text => text

inductive ReplyAction where
  | nothing
  | sendReply
  | markCancelled
  | other (text : String)
  deriving DecidableEq

structure Decision where
  bookingAction : BookingAction
  readyToSave : Bool
  replyAction : ReplyAction
  sinkAction : SinkAction
  sinkPayload : JsonObject
  extractedFields : JsonObject
  savePayload : JsonObject
  conversationSummary : String
  deriving DecidableEq

/-- `DecisionActions.validation_error` -/
def Decision.validationError (decision : Decision) : Option String :=
  match decision.sinkAction, decision.bookingAction with
  | .unsupported text, _ => some ("unsupported sink_action=" ++ text)
  | _, .unsupported text => some ("unsupported booking_action=" ++ text)
  | .upsertPartial, .ignore => some "sink_action requires an active booking action"
  | _, _ => none

/-- The record that `_resolve_booking_target` starts a booking with. -/
def Conversation.newBooking (conversation : Conversation) (bookingId : String) (now : Int) : Booking :=
  ⟨bookingId, conversation.workflowId, conversation.customerId, conversation.conversationId, .active, [], .pending, [],
    0, none, "", "", now, none, none, now, now⟩

inductive Target where
  | found (booking : Booking)
  | created (booking : Booking)
  deriving DecidableEq

def Target.booking : Target → Booking
  | .found booking | .created booking => booking

/-- `_resolve_booking_target`. A new booking is an update of the open one, and an edit of a completed
booking that is not there starts a new one. -/
def resolveBookingTarget (conversation : Conversation) (action : BookingAction) (active recent : Option Booking)
    (newId : String) (now : Int) : Target :=
  match (if action = .editRecentCompleted then recent else active) with
  | some booking => .found booking
  | none => .created (conversation.newBooking newId now)

section Lookup

variable {table : BookingTable} {conversation : Conversation} {booking : Booking}

theorem mem_bookings : booking ∈ conversation.bookings table ↔ booking ∈ table ∧ booking.of conversation := by
  obtain ⟨customer, workflow, id⟩ := conversation.trimmed
  obtain ⟨someCustomer, someWorkflow, someId⟩ := conversation.named
  simp only [Conversation.bookings, listBookings, customer, workflow, id]
  rw [if_neg (by simp [someCustomer, someWorkflow]), List.mem_insertionSort, List.mem_filter]
  simp [someId, Booking.of, and_assoc]

theorem getActiveBooking_some (found : getActiveBooking table conversation = some booking) :
    booking ∈ table ∧ booking.of conversation ∧ booking.status = .active := by
  obtain ⟨member, own⟩ := mem_bookings.mp (List.mem_of_find?_eq_some found)
  exact ⟨member, own, by simpa using List.find?_some found⟩

theorem getActiveBooking_none (missing : getActiveBooking table conversation = none) (member : booking ∈ table)
    (own : booking.of conversation) : booking.status ≠ .active := by
  intro active
  exact List.find?_eq_none.mp missing booking (mem_bookings.mpr ⟨member, own⟩) (by simp [active])

theorem getRecentCompletedBooking_some {now : Int}
    (found : getRecentCompletedBooking table conversation now = some booking) :
    booking ∈ table ∧ booking.of conversation ∧ booking.status = .completed := by
  obtain ⟨member, own⟩ := mem_bookings.mp (List.mem_of_find?_eq_some found)
  have editable := List.find?_some (p := fun booking : Booking => booking.editable now) found
  simp only [Booking.editable, Bool.and_eq_true, beq_iff_eq] at editable
  exact ⟨member, own, editable.1⟩

end Lookup

end OpenTulpa.Intake.Bookings
