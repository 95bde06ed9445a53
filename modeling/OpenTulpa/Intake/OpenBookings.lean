import OpenTulpa.Intake.DecisionApplier
import OpenTulpa.Library.Run

/-! The open bookings of conversations, over every sequence of decisions. Creating a booking looks for
the open one first, but an edit of a completed booking does not: it opens a second booking when it is
not saved, when its write to the sink fails, or when no completed booking is left to edit. -/

namespace OpenTulpa.Intake.OpenBookings

open Library Text Bookings SinkWriter DecisionApplier
open Persistence.Idempotency (EffectStore)

structure Floor where
  bookings : BookingTable
  effects : EffectStore
  deriving DecidableEq

def Floor.start : Floor := ⟨[], .empty⟩

def perform (floor : Floor) : Change → Floor
  | .upsert booking => { floor with bookings := upsertBooking floor.bookings booking }
  | .claimed effects => { floor with effects := effects }
  | .started _ _ => floor
  | .settled _ _ effects => { floor with effects := effects }

/-- A decision applied to a conversation. `cut` is where the process stopped, if it did. -/
structure Op where
  conversation : Conversation
  request : ApplyRequest
  cut : Option Nat

section Floor

variable (casefold : String → String) (hashes : Hashes)

def step (floor : Floor) (op : Op) : Floor :=
  match target floor.bookings op.conversation op.request with
  | .error _ => floor
  | .ok target =>
    Run.exec perform floor
      (performed (applyToTarget casefold hashes floor.effects op.request target.booking).1 op.cut)

/-- The decision stores no open record of the booking: it changes nothing, it ends a booking that is not
open without an error of the sink, or it marks the booking as cancelled. -/
def StaysClosed (effects : EffectStore) (request : ApplyRequest) (booking : Booking) : Prop :=
  let state := buildApplyState request booking
  request.stale = true ∨
  (request.decision.readyToSave = true ∧
    (lacksFields casefold request state = true ∨ shouldSkipCancelSink state (savePayload request state) = true ∨
      booking.status ≠ .active ∧ Booking.blocked booking = false ∧
        ∀ message, (savedWrite hashes effects request state).2 ≠ .error message)) ∨
  (request.decision.readyToSave = false ∧ request.decision.replyAction = .markCancelled ∧
    (partialWanted request → Booking.blocked booking = false))

/-- An edit of a completed booking finds no open booking, or leaves the booking that it is about closed. -/
def Exclusive (floor : Floor) (op : Op) : Prop :=
  op.request.decision.bookingAction = .editRecentCompleted →
    getActiveBooking floor.bookings op.conversation = none ∨
    ∀ resolved, target floor.bookings op.conversation op.request = .ok resolved →
      StaysClosed casefold hashes floor.effects op.request resolved.booking

/-- A new booking gets a name of its own. -/
def Fresh (floor : Floor) (op : Op) : Prop := ∀ row ∈ floor.bookings, row.bookingId ≠ op.request.newId

instance (floor : Floor) (op : Op) : Decidable (Fresh floor op) :=
  inferInstanceAs (Decidable (∀ row ∈ floor.bookings, row.bookingId ≠ op.request.newId))

def openBookings (table : BookingTable) (conversation : Conversation) : List Booking :=
  table.filter fun row => row.of conversation && row.status == .active

def Good (floor : Floor) : Prop := ∀ conversation, (openBookings floor.bookings conversation).length ≤ 1

end Floor

/-- Two bookings of one conversation. -/
def Together (first second : Booking) : Prop :=
  first.customerId = second.customerId ∧ first.workflowId = second.workflowId ∧
    first.conversationId = second.conversationId

/-- Two records of the same booking. -/
def Same (first second : Booking) : Prop := first.bookingId = second.bookingId ∧ Together first second

section Upserts

variable {casefold : String → String} {hashes : Hashes} {effects : EffectStore} {request : ApplyRequest}

theorem writeToSink_no_upsert {sink : Sink} {booking : Booking} {sender : Sender} {payload : JsonObject} {phase : Phase}
    {attempt : Attempt} (written : Booking) :
    .upsert written ∉ (writeToSink hashes effects sink booking sender payload phase attempt).1 := by
  have executed : ∀ effects request, .upsert written ∉ (executeSink effects sink booking phase request attempt).1 := by
    intro effects request
    unfold executeSink
    dsimp only
    split
    · simp
    · simp
    · split <;> simp
  have claimed : ∀ request, .upsert written ∉ (claimEffect hashes effects sink booking phase request attempt).1 := by
    intro request
    unfold claimEffect
    split
    · simpa using executed _ request
    · simp
    · simp
    · simp
    · simp
    · simp
  unfold writeToSink
  split
  · split <;> simp
  all_goals
    unfold writeToComposioSink
    split
    · simp
    · exact claimed _

theorem savedEnd_upsert {state : ApplyState} {written : Booking} {outcome : Written}
    (member : .upsert written ∈ savedEnd request state outcome) :
    (∃ message, outcome = .error message ∧
      written = sinkError { state with targetBooking := savedBooking request state } message) ∨
    ∃ result, written = completedBooking request state (savedBooking request state) (savePayload request state) result := by
  cases outcome with
  | raised => simp [savedEnd] at member
  | error message => exact Or.inl ⟨message, rfl, by simpa [savedEnd] using member⟩
  | ok result => exact Or.inr ⟨result, by simpa [savedEnd] using member⟩

theorem completeBooking_upsert {state : ApplyState} {written : Booking}
    (member : .upsert written ∈ (completeBooking casefold hashes effects request state).1) :
    lacksFields casefold request state = false ∧ request.stale = false ∧
    (shouldSkipCancelSink state (savePayload request state) = true ∧
        written = cancelledWithoutSink request state (savePayload request state) ∨
      shouldSkipCancelSink state (savePayload request state) = false ∧
        (Booking.blocked state.targetBooking = true ∧ written = sinkError state publicIndeterminateSinkError ∨
          Booking.blocked state.targetBooking = false ∧
            (written = beginSinkEffect state.targetBooking (completedRecordStatus state) request.now ∨
              written = savedBooking request state ∨
              (∃ message, (savedWrite hashes effects request state).2 = .error message ∧
                written = sinkError { state with targetBooking := savedBooking request state } message) ∨
              ∃ result, written =
                completedBooking request state (savedBooking request state) (savePayload request state) result))) := by
  rcases completeBooking_changes casefold hashes effects request state with ⟨_, nothing⟩ | ⟨full, live, shape⟩
  · simp [nothing] at member
  refine ⟨full, live, ?_⟩
  rcases shape with ⟨skip, changes⟩ | ⟨kept, blocked, changes⟩ | ⟨kept, free, changes⟩
  · exact Or.inl ⟨skip, by simpa [changes] using member⟩
  · exact Or.inr ⟨kept, Or.inl ⟨blocked, by simpa [changes] using member⟩⟩
  · refine Or.inr ⟨kept, Or.inr ⟨free, ?_⟩⟩
    simp only [changes, List.cons_append, List.mem_cons, List.mem_append, Change.upsert.injEq] at member
    rcases member with begun | saved | early | last
    · exact Or.inl begun
    · exact Or.inr (Or.inl saved)
    · exact absurd early (writeToSink_no_upsert written)
    · exact Or.inr (Or.inr (savedEnd_upsert last))

theorem updateActiveBooking_upsert {state : ApplyState} {written : Booking}
    (member : .upsert written ∈ (updateActiveBooking hashes effects request state).1) :
    request.stale = false ∧ (written = updatedBooking request state ∨
      partialWanted request ∧
        (Booking.blocked (updatedBooking request state) = true ∧
            written = sinkError { state with targetBooking := updatedBooking request state } publicIndeterminateSinkError ∨
          ∃ status reference, written =
            { beginSinkEffect (updatedBooking request state) .partialFields request.now with
              sinkWriteStatus := status, sinkRecordRef := reference })) := by
  rcases updateActiveBooking_changes hashes effects request state with ⟨_, nothing⟩ | ⟨live, rest, changes, shape⟩
  · simp [nothing] at member
  refine ⟨live, ?_⟩
  rw [changes] at member
  rcases List.mem_cons.mp member with first | inside
  · exact Or.inl (by simpa using first)
  rcases shape with ⟨_, rfl | rfl⟩ | ⟨upserts, blocked, rfl⟩ | ⟨upserts, _, rfl⟩
  · simp at inside
  · exact Or.inl (by simpa using inside)
  · exact Or.inr ⟨upserts, Or.inl ⟨blocked, by simpa using inside⟩⟩
  · refine Or.inr ⟨upserts, Or.inr ?_⟩
    simp only [List.cons_append, List.mem_cons, List.mem_append, Change.upsert.injEq] at inside
    rcases inside with begun | early | last
    · exact ⟨_, _, begun⟩
    · exact absurd early (writeToSink_no_upsert written)
    · cases ended : (partialWrite hashes effects request (updatedBooking request state)).2 with
      | raised => simp [ended, partialEnd] at last
      | error message => exact ⟨_, _, by simpa [ended, partialEnd] using last⟩
      | ok result => exact ⟨_, _, by simpa [ended, partialEnd] using last⟩

theorem applyToTarget_same {booking written : Booking}
    (member : .upsert written ∈ (applyToTarget casefold hashes effects request booking).1) : Same written booking := by
  unfold applyToTarget at member
  dsimp only at member
  split at member
  · obtain ⟨_, _, ⟨_, rfl⟩ | ⟨_, ⟨_, rfl⟩ | ⟨_, rfl | rfl | ⟨_, _, rfl⟩ | ⟨_, rfl⟩⟩⟩⟩ := completeBooking_upsert member
    all_goals exact ⟨rfl, rfl, rfl, rfl⟩
  · obtain ⟨_, rfl | ⟨_, ⟨_, rfl⟩ | ⟨_, _, rfl⟩⟩⟩ := updateActiveBooking_upsert member
    all_goals exact ⟨rfl, rfl, rfl, rfl⟩

/-- Where the booking is to stay closed, no stored record of it is open. -/
theorem applyToTarget_closed {booking written : Booking} (closed : StaysClosed casefold hashes effects request booking)
    (member : .upsert written ∈ (applyToTarget casefold hashes effects request booking).1) :
    written.status ≠ .active := by
  unfold applyToTarget at member
  dsimp only at member
  split at member
  · rename_i ready
    obtain ⟨full, live, shape⟩ := completeBooking_upsert member
    rcases closed with stale | ⟨_, lacking | saves⟩ | ⟨unready, _⟩
    · simp [stale] at live
    · rw [full] at lacking
      cases lacking
    · have ended : ∀ state : ApplyState, ∀ result, (completedBooking request state (savedBooking request state)
          (savePayload request state) result).status ≠ .active := by
        intro state result
        simp only [completedBooking]
        split <;> simp
      rcases shape with ⟨_, rfl⟩ | ⟨kept, shape⟩
      · simp [cancelledWithoutSink]
      rw [kept] at saves
      obtain ⟨shut, free, fine⟩ := saves.resolve_left (by simp)
      rcases shape with ⟨blocked, rfl⟩ | ⟨_, rfl | rfl | ⟨message, failed, rfl⟩ | ⟨result, rfl⟩⟩
      · exact absurd blocked (by simpa [buildApplyState, Booking.blocked] using free)
      · simpa [beginSinkEffect, buildApplyState] using shut
      · simpa [savedBooking, beginSinkEffect, buildApplyState] using shut
      · exact absurd failed (fine message)
      · exact ended _ result
    · simp [ready] at unready
  · rename_i unready
    obtain ⟨live, shape⟩ := updateActiveBooking_upsert member
    obtain ⟨_, cancels, free⟩ : request.decision.readyToSave = false ∧ request.decision.replyAction = .markCancelled ∧
        (partialWanted request → Booking.blocked booking = false) := by
      rcases closed with stale | ⟨ready, _⟩ | edits
      · simp [stale] at live
      · exact absurd ready unready
      · exact edits
    have cancelled : (updatedBooking request (buildApplyState request booking)).status = .cancelled := by
      simp [updatedBooking, buildApplyState, cancels]
    rcases shape with rfl | ⟨upserts, ⟨blocked, rfl⟩ | ⟨_, _, rfl⟩⟩
    · simp [cancelled]
    · exact absurd blocked (by simpa [updatedBooking, buildApplyState, Booking.blocked] using free upserts)
    · simp [beginSinkEffect, cancelled]

end Upserts

/-- Bookings have names of their own, and the open ones conversations of their own. -/
structure Single (table : BookingTable) : Prop where
  distinct : (table.map Booking.bookingId).Nodup
  alone : ∀ first ∈ table, ∀ second ∈ table, first.status = .active → second.status = .active →
    Together first second → first.bookingId = second.bookingId

/-- No other booking is open beside the one that a decision is about. -/
structure Sole (table : BookingTable) (booking : Booking) : Prop where
  same : ∀ row ∈ table, row.bookingId = booking.bookingId → Same row booking
  alone : ∀ row ∈ table, row.status = .active → Together row booking → row.bookingId = booking.bookingId

section Table

variable {table : BookingTable} {booking written row : Booking}

theorem Together.symm {first second : Booking} (shared : Together first second) : Together second first :=
  ⟨shared.1.symm, shared.2.1.symm, shared.2.2.symm⟩

theorem Together.trans {first second third : Booking} (left : Together first second) (right : Together second third) :
    Together first third :=
  ⟨left.1.trans right.1, left.2.1.trans right.2.1, left.2.2.trans right.2.2⟩

theorem together_of_conversation {first second : Booking} {conversation : Conversation} (left : first.of conversation)
    (right : second.of conversation) : Together first second :=
  ⟨left.1.trans right.1.symm, left.2.1.trans right.2.1.symm, left.2.2.trans right.2.2.symm⟩

theorem mem_upsertBooking (member : row ∈ upsertBooking table written) :
    (row ∈ table ∧ row.bookingId ≠ written.bookingId) ∨
    (row.bookingId = written.bookingId ∧ row.status = written.status ∧
      (row = written ∨ ∃ old ∈ table, old.bookingId = written.bookingId ∧ Together row old)) := by
  unfold upsertBooking at member
  split at member
  · rcases Rows.mem_update.mp member with ⟨old, present, chosen, rfl⟩ | ⟨present, missed⟩
    · have named : old.bookingId = written.bookingId := by simpa using chosen
      exact Or.inr ⟨named, rfl, Or.inr ⟨old, present, named, rfl, rfl, rfl⟩⟩
    · exact Or.inl ⟨present, by simpa using missed⟩
  · rename_i fresh
    rcases List.mem_append.mp member with present | last
    · refine Or.inl ⟨present, fun named => fresh ?_⟩
      exact List.any_eq_true.mpr ⟨row, present, by simpa using named⟩
    · obtain rfl := List.mem_singleton.mp last
      exact Or.inr ⟨rfl, rfl, Or.inl rfl⟩

theorem upsertBooking_distinct (distinct : (table.map Booking.bookingId).Nodup) :
    ((upsertBooking table written).map Booking.bookingId).Nodup := by
  unfold upsertBooking
  split
  · rw [Rows.map_update Booking.bookingId (by intros; rfl)]
    exact distinct
  · rename_i fresh
    rw [List.map_append]
    refine List.nodup_append.mpr ⟨distinct, List.nodup_singleton _, ?_⟩
    intro name listed other single same
    obtain ⟨row, present, rfl⟩ := List.mem_map.mp listed
    obtain rfl : other = written.bookingId := by simpa using single
    exact fresh (List.any_eq_true.mpr ⟨row, present, by simpa using same⟩)

theorem Sole.upsert (sole : Sole table booking) (same : Same written booking) :
    Sole (upsertBooking table written) booking := by
  constructor
  · intro row member named
    rcases mem_upsertBooking member with ⟨present, _⟩ | ⟨_, _, rfl | ⟨old, present, own, shared⟩⟩
    · exact sole.same row present named
    · exact same
    · exact ⟨named, shared.trans (sole.same old present (own.trans same.1)).2⟩
  · intro row member active shared
    rcases mem_upsertBooking member with ⟨present, _⟩ | ⟨named, _⟩
    · exact sole.alone row present active shared
    · exact named.trans same.1

theorem Single.upsert_sole (single : Single table) (sole : Sole table booking) (same : Same written booking) :
    Single (upsertBooking table written) := by
  refine ⟨upsertBooking_distinct single.distinct, ?_⟩
  have after := sole.upsert same
  intro first left second right opened also shared
  rcases mem_upsertBooking left with ⟨before, _⟩ | ⟨named, _⟩
  · rcases mem_upsertBooking right with ⟨present, _⟩ | ⟨named, _⟩
    · exact single.alone first before second present opened also shared
    · have own := (after.same second right (named.trans same.1)).2
      exact (after.alone first left opened (shared.trans own)).trans (named.trans same.1).symm
  · have own := (after.same first left (named.trans same.1)).2
    exact (named.trans same.1).trans (after.alone second right also (shared.symm.trans own)).symm

theorem Single.upsert_closed (single : Single table) (closed : written.status ≠ .active) :
    Single (upsertBooking table written) := by
  refine ⟨upsertBooking_distinct single.distinct, ?_⟩
  intro first left second right opened also shared
  rcases mem_upsertBooking left with ⟨before, _⟩ | ⟨_, status, _⟩
  · rcases mem_upsertBooking right with ⟨present, _⟩ | ⟨_, status, _⟩
    · exact single.alone first before second present opened also shared
    · exact absurd (status ▸ also) closed
  · exact absurd (status ▸ opened) closed

theorem Single.good (single : Single table) (conversation : Conversation) :
    (openBookings table conversation).length ≤ 1 := by
  have nodup : (openBookings table conversation).Nodup := (single.distinct.of_map _).filter _
  have equal : ∀ first ∈ openBookings table conversation, ∀ second ∈ openBookings table conversation, first = second := by
    intro first left second right
    simp only [openBookings, List.mem_filter, Bool.and_eq_true, decide_eq_true_eq, beq_iff_eq] at left right
    exact Rows.eq_of_key_eq single.distinct left.1 right.1
      (single.alone first left.1 second right.1 left.2.2 right.2.2 (together_of_conversation left.2.1 right.2.1))
  cases found : openBookings table conversation with
  | nil => simp
  | cons first rest =>
    cases rest with
    | nil => simp
    | cons second rest =>
      rw [found] at nodup equal
      have same := equal first (by simp) second (by simp)
      simp [same] at nodup

end Table

section Runs

variable {casefold : String → String} {hashes : Hashes} {floor : Floor}

theorem target_ok {conversation : Conversation} {request : ApplyRequest} {resolved : Target}
    (ok : target floor.bookings conversation request = .ok resolved) :
    resolved = resolveBookingTarget conversation request.decision.bookingAction
      (getActiveBooking floor.bookings conversation) (getRecentCompletedBooking floor.bookings conversation request.now)
      request.newId request.now := by
  unfold target at ok
  split at ok
  · cases ok
  · split at ok
    · cases ok
    · cases ok
      rfl

theorem sole_of_active (single : Single floor.bookings) {conversation : Conversation} {booking : Booking}
    (found : getActiveBooking floor.bookings conversation = some booking) : Sole floor.bookings booking := by
  obtain ⟨member, own, active⟩ := getActiveBooking_some found
  constructor
  · intro row present named
    obtain rfl := Rows.eq_of_key_eq single.distinct present member named
    exact ⟨rfl, rfl, rfl, rfl⟩
  · exact fun row present opened shared => single.alone row present booking member opened active shared

theorem sole_of_none {conversation : Conversation} {booking : Booking} (own : booking.of conversation)
    (missing : getActiveBooking floor.bookings conversation = none)
    (same : ∀ row ∈ floor.bookings, row.bookingId = booking.bookingId → Same row booking) :
    Sole floor.bookings booking := by
  refine ⟨same, ?_⟩
  intro row present opened shared
  have inside : row.of conversation := ⟨shared.1.trans own.1, shared.2.1.trans own.2.1, shared.2.2.trans own.2.2⟩
  exact absurd opened (getActiveBooking_none missing present inside)

/-- A decision is about the only open booking of its conversation, or leaves its booking closed. -/
theorem sole_or_closed (single : Single floor.bookings) {op : Op} (fresh : Fresh floor op)
    (exclusive : Exclusive casefold hashes floor op) {resolved : Target}
    (ok : target floor.bookings op.conversation op.request = .ok resolved) :
    Sole floor.bookings resolved.booking ∨ StaysClosed casefold hashes floor.effects op.request resolved.booking := by
  have created : getActiveBooking floor.bookings op.conversation = none →
      Sole floor.bookings (op.conversation.newBooking op.request.newId op.request.now) := by
    intro missing
    refine sole_of_none ⟨rfl, rfl, rfl⟩ missing ?_
    intro row present named
    exact absurd named (fresh row present)
  have shape := target_ok ok
  unfold resolveBookingTarget at shape
  by_cases edits : op.request.decision.bookingAction = .editRecentCompleted
  · rcases exclusive edits with missing | closed
    · refine Or.inl ?_
      rw [if_pos edits] at shape
      cases recent : getRecentCompletedBooking floor.bookings op.conversation op.request.now with
      | none =>
        rw [recent] at shape
        exact shape ▸ created missing
      | some booking =>
        obtain ⟨member, own, _⟩ := getRecentCompletedBooking_some recent
        rw [recent] at shape
        rw [shape]
        refine sole_of_none own missing ?_
        intro row present named
        obtain rfl := Rows.eq_of_key_eq single.distinct present member named
        exact ⟨rfl, rfl, rfl, rfl⟩
    · exact Or.inr (closed resolved ok)
  · refine Or.inl ?_
    rw [if_neg edits] at shape
    cases active : getActiveBooking floor.bookings op.conversation with
    | none =>
      rw [active] at shape
      exact shape ▸ created active
    | some booking =>
      rw [active] at shape
      exact shape ▸ sole_of_active single active

theorem step_single (single : Single floor.bookings) {op : Op} (fresh : Fresh floor op)
    (exclusive : Exclusive casefold hashes floor op) : Single (step casefold hashes floor op).bookings := by
  unfold step
  split
  · exact single
  rename_i resolved ok
  have listed : ∀ change, change ∈ performed (applyToTarget casefold hashes floor.effects op.request resolved.booking).1 op.cut →
      change ∈ (applyToTarget casefold hashes floor.effects op.request resolved.booking).1 := by
    intro change member
    cases cut : op.cut with
    | none => simpa [performed, cut] using member
    | some n => exact List.mem_of_mem_take (by simpa [performed, cut] using member)
  generalize performed _ _ = changes at listed
  rcases sole_or_closed single fresh exclusive ok with sole | closed
  · have kept : ∀ floor : Floor, Single floor.bookings → Sole floor.bookings resolved.booking →
        Single (Run.exec perform floor changes).bookings := by
      induction changes with
      | nil => exact fun _ single _ => single
      | cons change changes ih =>
        intro floor single sole
        have rest := ih fun other member => listed other (List.mem_cons_of_mem _ member)
        cases change with
        | upsert written =>
          have same := applyToTarget_same (listed _ List.mem_cons_self)
          exact rest _ (single.upsert_sole sole same) (sole.upsert same)
        | claimed _ | started _ _ | settled _ _ _ => exact rest _ single sole
    exact kept floor single sole
  · have kept : ∀ floor : Floor, Single floor.bookings → Single (Run.exec perform floor changes).bookings := by
      induction changes with
      | nil => exact fun _ single => single
      | cons change changes ih =>
        intro floor single
        have rest := ih fun other member => listed other (List.mem_cons_of_mem _ member)
        cases change with
        | upsert written =>
          exact rest _ (single.upsert_closed (applyToTarget_closed closed (listed _ List.mem_cons_self)))
        | claimed _ | started _ _ | settled _ _ _ => exact rest _ single
    exact kept floor single

/-- In every sequence of decisions in which an edit of a completed booking finds no open booking, or
leaves the booking that it is about closed, a conversation never has two open bookings. -/
theorem one_open_booking (casefold : String → String) (hashes : Hashes) {ops : List Op}
    (fresh : Run.Guarded (step casefold hashes) Fresh .start ops)
    (exclusive : Run.Guarded (step casefold hashes) (Exclusive casefold hashes) .start ops) (n : Nat) :
    Good (Run.exec (step casefold hashes) .start (ops.take n)) := by
  have kept : ∀ floor op, Single floor.bookings → Fresh floor op ∧ Exclusive casefold hashes floor op →
      Single (step casefold hashes floor op).bookings :=
    fun _ _ single both => step_single single both.1 both.2
  have initial : Single Floor.start.bookings := ⟨List.nodup_nil, by simp [Floor.start]⟩
  have both : Run.Guarded (step casefold hashes) (fun floor op => Fresh floor op ∧ Exclusive casefold hashes floor op)
      .start (ops.take n) := (fresh.take n).and (exclusive.take n)
  exact (both.invariant kept initial).good

end Runs

def sampleConversation : Conversation := ⟨"c1", "w1", "chat", by decide +kernel, by decide⟩

def sampleHashes : Hashes := ⟨fun bookingId account _ => bookingId ++ account, fun operation hash => operation ++ hash⟩

def sampleSink : Sink := ⟨.localCsv, "", "", "", [], [], []⟩

def sampleAttempt : Attempt := ⟨false, fun _ => none, false, .raised, false, .ok [("sink_type", "local_csv")], 0⟩

def sampleDecision (action : BookingAction) (ready : Bool) : Decision := ⟨action, ready, .nothing, .nothing, [], [], [], ""⟩

def sampleOp (action : BookingAction) (ready : Bool) (newId : String) : Op :=
  ⟨sampleConversation, ⟨sampleDecision action ready, sampleSink, ⟨"", ""⟩, "", "", sampleAttempt, false, 0, newId⟩, none⟩

/-- A booking is opened, saved and edited, and the next one is opened. -/
def editedAlone : List Op :=
  [sampleOp .createNewBooking false "b1", sampleOp .updateActive true "b2", sampleOp .editRecentCompleted true "b3",
    sampleOp .createNewBooking false "b4"]

theorem one_open_booking_editedAlone : Good (Run.exec (step id sampleHashes) .start editedAlone) := by
  have fresh : Run.Guarded (step id sampleHashes) Fresh .start editedAlone := by decide +kernel
  have exclusive : Run.Guarded (step id sampleHashes) (Exclusive id sampleHashes) .start editedAlone := by
    refine ⟨?_, ?_, ?_, ?_, trivial⟩
    · exact fun edits => absurd edits (by decide)
    · exact fun edits => absurd edits (by decide)
    · exact fun _ => Or.inl (by decide +kernel)
    · exact fun edits => absurd edits (by decide)
  exact one_open_booking id sampleHashes fresh exclusive 4

/-- A booking is saved, the next one is opened, and the first one is edited without being saved. -/
def editedBeside : List Op :=
  [sampleOp .createNewBooking true "b1", sampleOp .createNewBooking false "b2", sampleOp .editRecentCompleted false "b3"]

theorem edit_opens_second_booking : ¬ Good (Run.exec (step id sampleHashes) .start editedBeside) := by
  intro good
  have two : (openBookings (Run.exec (step id sampleHashes) .start editedBeside).bookings sampleConversation).length = 2 := by
    decide +kernel
  have one := good sampleConversation
  omega

end OpenTulpa.Intake.OpenBookings
