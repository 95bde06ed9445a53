import OpenTulpa.Intake.DecisionApplier
import OpenTulpa.Library.Run

/-! The writes of one booking to a Composio sink, over every sequence of decisions and reconciliations
with crashes anywhere. A call of the provider whose outcome is not recorded is only guarded by the
status of the booking, which a cancellation, a refusal before the claim and a write of another phase
replace. Where none of these meets an open call, no write is overtaken. -/

namespace OpenTulpa.Intake.SinkEffects

open Library Text Bookings SinkWriter DecisionApplier
open Persistence.Idempotency hiding Decision

/-- The stored booking, the effects, and the calls of the provider whose outcome is not recorded. -/
structure Desk where
  booking : Booking
  effects : EffectStore
  inFlight : List (Phase × Nat)
  deriving DecidableEq

def perform (desk : Desk) : Change → Desk
  | .upsert booking => { desk with booking := desk.booking.overwritten booking }
  | .claimed effects => { desk with effects := effects }
  | .started phase revision => { desk with inFlight := (phase, revision) :: desk.inFlight }
  | .settled phase revision effects =>
    { desk with effects := effects, inFlight := desk.inFlight.filter fun call => call != (phase, revision) }

structure Reconcile where
  effectRevision : Nat
  decision : Persistence.Idempotency.Decision
  actorId : String
  reason : String
  providerData : String
  sink : Sink
  now : Nat
  updatedAt : Int
  deriving DecidableEq

inductive ReconcileError where
  | revisionConflict
  | notAwaiting
  | incompleteIdentity
  | effect (error : EffectError)
  deriving DecidableEq

def reconcileResult (call : Reconcile) (bookingId : String) : JsonObject :=
  [("booking_id", bookingId), ("data", call.providerData), ("reconciled", "true"),
    ("sink_type", call.sink.sinkType.text), ("tool_slug", call.sink.toolSlug), ("toolkit", call.sink.toolkit)]

def reconcileRequest (call : Reconcile) (booking : Booking) (phase : Phase) : ReconcileRequest :=
  ⟨booking.customerId, effectIdempotencyKey booking.bookingId phase booking.sinkEffectRevision, call.decision,
    call.actorId, call.reason,
    if call.decision = .confirmApplied then some (reconcileResult call booking.bookingId) else none⟩

/-- `reconcile_sink_effect`: what it changes, in order. -/
def reconcileSinkEffect (desk : Desk) (call : Reconcile) : Except ReconcileError (List Change) :=
  match desk.booking.sinkEffectPhase with
  | none => .error .revisionConflict
  | some phase =>
    if desk.booking.sinkEffectRevision ≠ call.effectRevision then .error .revisionConflict
    else if desk.booking.sinkWriteStatus ≠ .pending ∧ desk.booking.sinkWriteStatus ≠ .indeterminate then .error .notAwaiting
    else if desk.booking.sinkEffectRevision = 0 then .error .incompleteIdentity
    else
      match reconcilePending desk.effects (reconcileRequest call desk.booking phase) call.now with
      | .error error => .error (.effect error)
      | .ok effects =>
        .ok [.settled phase desk.booking.sinkEffectRevision effects,
          .upsert { desk.booking with
            sinkWriteStatus := if call.decision = .confirmApplied then .pending else .failed
            updatedAt := call.updatedAt }]

inductive Call where
  | apply (request : ApplyRequest)
  | reconcile (request : Reconcile)

def Call.composio : Call → Prop
  | .apply request => request.sink.sinkType.composio = true
  | .reconcile _ => True

section Runs

variable (casefold : String → String) (hashes : Hashes) (conversation : Conversation)

/-- What a call changes on the booking. A decision that is about another booking changes nothing of it. -/
def changes (desk : Desk) : Call → List Change
  | .apply request =>
    match target [desk.booking] conversation request with
    | .ok (.found booking) => (applyToTarget casefold hashes desk.effects request booking).1
    | .ok (.created _) | .error _ => []
  | .reconcile request =>
    match reconcileSinkEffect desk request with
    | .ok changes => changes
    | .error _ => []

/-- A call, and where the process stopped in it, if it did. -/
def step (desk : Desk) (op : Call × Option Nat) : Desk :=
  Run.exec perform desk (performed (changes casefold hashes conversation desk op.1) op.2)

end Runs

/-- While a call of the provider is open, the booking says so, and no other one is open. -/
def Good (desk : Desk) : Prop :=
  ∀ call ∈ desk.inFlight,
    (desk.booking.sinkWriteStatus = .pending ∨ desk.booking.sinkWriteStatus = .indeterminate) ∧
      ∀ other ∈ desk.inFlight, other = call

/-- The write is accepted up to its claim. -/
def Accepted (request : ApplyRequest) (booking : Booking) (payload : JsonObject) (phase : Phase) : Prop :=
  ∃ arguments, preparedArguments request.sink booking request.sender payload phase request.attempt = .ok arguments

/-- The decision writes nothing, or tries the write again that the booking has under way. -/
def Cautious (casefold : String → String) (request : ApplyRequest) (booking : Booking) : Prop :=
  let state := buildApplyState request booking
  request.stale = true ∨
  (request.decision.readyToSave = true ∧
    (lacksFields casefold request state = true ∨
      shouldSkipCancelSink state (savePayload request state) = false ∧
        (Booking.blocked booking = true ∨ Booking.retries booking (completedRecordStatus state) = true ∧
          Accepted request (savedBooking request state) (savePayload request state) (completedRecordStatus state)))) ∨
  (request.decision.readyToSave = false ∧
    (partialWanted request → Booking.blocked booking = true ∨ Booking.retries booking .partialFields = true ∧
      Accepted request (beginSinkEffect (updatedBooking request state) .partialFields request.now)
        request.decision.sinkPayload .partialFields))

/-- A decision on a booking with an open call neither cancels it without a write, nor is refused by the
sink before its claim, nor writes under another effect. -/
def Careful (casefold : String → String) (desk : Desk) : Call × Option Nat → Prop
  | (.apply request, _) => desk.inFlight = [] ∨ Cautious casefold request desk.booking
  | (.reconcile _, _) => True

/-- The effect of the phase and revision is claimed and not settled. -/
def Claimed (desk : Desk) (phase : Phase) (revision : Nat) : Prop :=
  ∃ key row, requiredKey desk.booking.customerId (effectIdempotencyKey desk.booking.bookingId phase revision) = .ok key ∧
    desk.effects.effect key = some row ∧ row.status = .pending

/-- An open call is the one that the booking has under way, and its effect is claimed. -/
def Kept (desk : Desk) : Prop :=
  ∀ call ∈ desk.inFlight, desk.booking.sinkEffectPhase = some call.1 ∧ desk.booking.sinkEffectRevision = call.2 ∧
    (desk.booking.sinkWriteStatus = .pending ∨ desk.booking.sinkWriteStatus = .indeterminate) ∧
    Claimed desk call.1 call.2

/-- Two records of one stored booking. -/
def Alike (first second : Booking) : Prop :=
  first.bookingId = second.bookingId ∧ first.workflowId = second.workflowId ∧ first.customerId = second.customerId ∧
    first.conversationId = second.conversationId ∧ first.createdAt = second.createdAt

theorem overwritten_eq {stored written : Booking} (alike : Alike written stored) : stored.overwritten written = written := by
  obtain ⟨id, workflow, customer, conversation, created⟩ := alike
  cases written
  simp only [Booking.overwritten, Booking.mk.injEq]
  simp_all

theorem Kept.good {desk : Desk} (kept : Kept desk) : Good desk := by
  intro call under
  obtain ⟨phase, revision, status, _⟩ := kept call under
  refine ⟨status, ?_⟩
  intro other also
  obtain ⟨samePhase, sameRevision, _⟩ := kept other also
  exact Prod.ext (Option.some.inj (samePhase.symm.trans phase)) (sameRevision.symm.trans revision)

theorem kept_of_empty {desk : Desk} (none : desk.inFlight = []) : Kept desk := by
  simp [Kept, none]

section Steps

variable {casefold : String → String} {hashes : Hashes} {desk : Desk}

theorem perform_upsert {written : Booking} (alike : Alike written desk.booking) :
    perform desk (.upsert written) = { desk with booking := written } := by
  simp [perform, overwritten_eq alike]

/-- A record of the booking keeps the open call when it keeps what the booking has under way. -/
theorem Kept.upsert (kept : Kept desk) {written : Booking} (alike : Alike written desk.booking)
    (under : desk.inFlight = [] ∨ written.sinkEffectPhase = desk.booking.sinkEffectPhase ∧
      written.sinkEffectRevision = desk.booking.sinkEffectRevision ∧
      (written.sinkWriteStatus = .pending ∨ written.sinkWriteStatus = .indeterminate)) :
    Kept (perform desk (.upsert written)) := by
  rw [perform_upsert alike]
  rcases under with none | ⟨phase, revision, status⟩
  · exact kept_of_empty none
  · intro call member
    obtain ⟨own, number, _, key, row, named, found, pending⟩ := kept call member
    refine ⟨phase.trans own, revision.trans number, status, key, row, ?_, found, pending⟩
    dsimp only
    rw [alike.1, alike.2.2.1]
    exact named

theorem Kept.same (kept : Kept desk) {written : Booking} (alike : Alike written desk.booking)
    (phase : written.sinkEffectPhase = desk.booking.sinkEffectPhase)
    (revision : written.sinkEffectRevision = desk.booking.sinkEffectRevision)
    (status : written.sinkWriteStatus = desk.booking.sinkWriteStatus) : Kept (perform desk (.upsert written)) := by
  refine kept.upsert alike ?_
  by_cases none : desk.inFlight = []
  · exact Or.inl none
  · obtain ⟨call, member⟩ := List.exists_mem_of_ne_nil _ none
    obtain ⟨_, _, waits, _⟩ := kept call member
    exact Or.inr ⟨phase, revision, status ▸ waits⟩

theorem inFlight_nil_of_unclaimed (kept : Kept desk) {phase : Phase}
    (under : desk.booking.sinkEffectPhase = some phase)
    (free : ¬ Claimed desk phase desk.booking.sinkEffectRevision) : desk.inFlight = [] := by
  refine List.eq_nil_iff_forall_not_mem.mpr fun call member => ?_
  obtain ⟨own, number, _, claimed⟩ := kept call member
  obtain rfl : phase = call.1 := Option.some.inj (under.symm.trans own)
  exact free (number ▸ claimed)

/-- The write that the booking has under way keeps its call until the outcome is recorded, and ends
with an open call only in doubt. -/
theorem write_keeps (kept : Kept desk) {sink : Sink} {sender : Sender} {payload : JsonObject} {phase : Phase}
    {attempt : Attempt} (composio : sink.sinkType.composio = true) (under : desk.booking.sinkEffectPhase = some phase)
    (pending : desk.booking.sinkWriteStatus = .pending)
    (accepted : desk.inFlight = [] ∨
      ∃ arguments, preparedArguments sink desk.booking sender payload phase attempt = .ok arguments) :
    Run.Always perform Kept desk (writeToSink hashes desk.effects sink desk.booking sender payload phase attempt).1 ∧
    (Run.exec perform desk
      (writeToSink hashes desk.effects sink desk.booking sender payload phase attempt).1).booking = desk.booking ∧
    ((Run.exec perform desk
        (writeToSink hashes desk.effects sink desk.booking sender payload phase attempt).1).inFlight = [] ∨
      (writeToSink hashes desk.effects sink desk.booking sender payload phase attempt).2 =
        .error publicIndeterminateSinkError ∨
      (writeToSink hashes desk.effects sink desk.booking sender payload phase attempt).2 = .raised) := by
  rcases writeToSink_changes hashes desk.effects desk.booking sender payload phase attempt composio with
    ⟨message, refused, written⟩ | ⟨arguments, prepared, written⟩
  · have none : desk.inFlight = [] := by
      rcases accepted with none | ⟨_, prepared⟩
      · exact none
      · rw [refused] at prepared
        cases prepared
    rw [written]
    exact ⟨kept, rfl, Or.inl none⟩
  · rw [written]
    have key : ∀ {resolved}, resolve hashes.digest (effectRequest hashes sink desk.booking phase arguments) = .ok resolved →
        requiredKey desk.booking.customerId (effectIdempotencyKey desk.booking.bookingId phase
          desk.booking.sinkEffectRevision) = .ok resolved.key := by
      intro resolved resolves
      have named := resolve_key resolves
      simpa only [effectRequest] using named
    have unclaimed : ∀ {store outcome}, claim hashes.digest desk.effects
        (effectRequest hashes sink desk.booking phase arguments) attempt.now = .ok (store, outcome) →
        desk.inFlight = [] := by
      intro store outcome done
      refine inFlight_nil_of_unclaimed kept under ?_
      rintro ⟨other, row, named, found, waits⟩
      obtain ⟨resolved, resolves, settled⟩ := claim_ok done
      obtain rfl : resolved.key = other := by
        have same := (key resolves).symm.trans named
        exact Except.ok.inj same
      rw [(settled row found).1] at waits
      cases waits
    rcases claimEffect_changes hashes desk.effects sink desk.booking phase
        (effectRequest hashes sink desk.booking phase arguments) attempt with
      ⟨claimed, resolved, done, changes⟩ | ⟨store, result, done, changes⟩ | ⟨error, _, _, changes⟩ | ⟨error, _, changes⟩
    · rw [changes]
      have none := unclaimed done
      obtain ⟨resolves, missing, rfl⟩ := claim_created done
      have row : EffectStore.effect { desk.effects with effects := desk.effects.effects ++ [resolved.row attempt.now] }
          resolved.key = some (resolved.row attempt.now) := by
        rw [effect_append, missing]
        simp [Resolved.row]
      have opened : Kept (perform (perform desk (.claimed { desk.effects with
          effects := desk.effects.effects ++ [resolved.row attempt.now] })) (.started phase desk.booking.sinkEffectRevision)) := by
        intro call member
        obtain rfl : call = (phase, desk.booking.sinkEffectRevision) := by simpa [perform, none] using member
        exact ⟨under, rfl, Or.inl pending, resolved.key, _, key resolves, row, rfl⟩
      rcases executeSink_changes { desk.effects with effects := desk.effects.effects ++ [resolved.row attempt.now] } sink
          desk.booking phase (effectRequest hashes sink desk.booking phase arguments) attempt with doubt | ⟨_, settled, _, done⟩
      · rw [doubt]
        exact ⟨⟨kept, kept_of_empty none, opened⟩, rfl, Or.inr (Or.inl rfl)⟩
      · rw [done]
        have closed : (Run.exec perform desk [.claimed { desk.effects with
            effects := desk.effects.effects ++ [resolved.row attempt.now] }, .started phase desk.booking.sinkEffectRevision,
            .settled phase desk.booking.sinkEffectRevision settled]).inFlight = [] := by
          simp [perform, none]
        exact ⟨⟨kept, kept_of_empty none, opened, kept_of_empty closed⟩, rfl, Or.inl closed⟩
    · rw [changes]
      exact ⟨kept, rfl, Or.inl (unclaimed done)⟩
    · rw [changes]
      exact ⟨kept, rfl, Or.inr (Or.inl rfl)⟩
    · rw [changes]
      exact ⟨kept, rfl, Or.inr (Or.inr rfl)⟩

theorem failureStatus_indeterminate : sinkFailureStatus publicIndeterminateSinkError = .indeterminate := by
  decide +kernel

/-- The write of a record that the booking was stored as, and the record that is stored after it. -/
theorem write_then_store_keeps (kept : Kept desk) {booking : Booking} (alike : Alike booking desk.booking) {sink : Sink}
    {sender : Sender} {payload : JsonObject} {phase : Phase} {attempt : Attempt} {ends : Written → List Change}
    (composio : sink.sinkType.composio = true) (stored : desk.booking = booking)
    (under : booking.sinkEffectPhase = some phase) (pending : booking.sinkWriteStatus = .pending)
    (accepted : desk.inFlight = [] ∨
      ∃ arguments, preparedArguments sink booking sender payload phase attempt = .ok arguments)
    (raised : ends .raised = [])
    (record : ∀ outcome, outcome ≠ .raised → ∃ written, ends outcome = [.upsert written] ∧ Alike written booking ∧
      (outcome = .error publicIndeterminateSinkError → written.sinkEffectPhase = booking.sinkEffectPhase ∧
        written.sinkEffectRevision = booking.sinkEffectRevision ∧ written.sinkWriteStatus = .indeterminate)) :
    Run.Always perform Kept desk
      ((writeToSink hashes desk.effects sink booking sender payload phase attempt).1 ++
        ends (writeToSink hashes desk.effects sink booking sender payload phase attempt).2) := by
  subst stored
  obtain ⟨always, same, ended⟩ := write_keeps kept composio under pending accepted
  refine Run.always_append always ?_
  have after : Kept (Run.exec perform desk
      (writeToSink hashes desk.effects sink desk.booking sender payload phase attempt).1) := by
    have whole := always.take (writeToSink hashes desk.effects sink desk.booking sender payload phase attempt).1.length
    rwa [List.take_length] at whole
  generalize (writeToSink hashes desk.effects sink desk.booking sender payload phase attempt) = write at *
  by_cases stops : write.2 = .raised
  · rw [stops, raised]
    exact after
  · obtain ⟨written, shape, alike, doubt⟩ := record write.2 stops
    rw [shape]
    refine ⟨after, ?_⟩
    refine after.upsert (same ▸ alike) ?_
    rcases ended with none | indeterminate | raised
    · exact Or.inl none
    · obtain ⟨phase, revision, status⟩ := doubt indeterminate
      exact Or.inr ⟨same ▸ phase, same ▸ revision, Or.inr status⟩
    · exact absurd raised stops

/-- The begun record keeps an open call when it tries it again. -/
theorem begin_keeps (kept : Kept desk) {booking : Booking} {phase : Phase} {now : Int}
    (alike : Alike (beginSinkEffect booking phase now) desk.booking)
    (revision : booking.sinkEffectRevision = desk.booking.sinkEffectRevision)
    (own : booking.sinkEffectPhase = desk.booking.sinkEffectPhase)
    (again : desk.inFlight = [] ∨ Booking.retries booking phase = true) :
    Kept (perform desk (.upsert (beginSinkEffect booking phase now))) := by
  refine kept.upsert alike ?_
  rcases again with none | retries
  · exact Or.inl none
  · refine Or.inr ⟨?_, ?_, Or.inl rfl⟩
    · rw [beginSinkEffect_phase, ← own, phase_of_retries retries]
    · rw [beginSinkEffect_revision, if_pos retries, revision]

/-- The state of an application has what the stored booking has under way. -/
structure Current (state : ApplyState) (booking : Booking) : Prop where
  alike : Alike state.targetBooking booking
  status : state.targetBooking.sinkWriteStatus = booking.sinkWriteStatus
  phase : state.targetBooking.sinkEffectPhase = booking.sinkEffectPhase
  revision : state.targetBooking.sinkEffectRevision = booking.sinkEffectRevision

theorem current_build (request : ApplyRequest) (booking : Booking) : Current (buildApplyState request booking) booking :=
  ⟨⟨rfl, rfl, rfl, rfl, rfl⟩, rfl, rfl, rfl⟩

theorem Alike.sinkError {state : ApplyState} {booking : Booking} (alike : Alike state.targetBooking booking)
    (message : String) : Alike (sinkError state message) booking :=
  ⟨alike.1, alike.2.1, alike.2.2.1, alike.2.2.2.1, alike.2.2.2.2⟩

theorem Alike.begin {first second : Booking} (alike : Alike first second) (phase : Phase) (now : Int) :
    Alike (beginSinkEffect first phase now) second :=
  ⟨alike.1, alike.2.1, alike.2.2.1, alike.2.2.2.1, alike.2.2.2.2⟩

theorem Alike.trans {first second third : Booking} (left : Alike first second) (right : Alike second third) :
    Alike first third :=
  ⟨left.1.trans right.1, left.2.1.trans right.2.1, left.2.2.1.trans right.2.2.1, left.2.2.2.1.trans right.2.2.2.1,
    left.2.2.2.2.trans right.2.2.2.2⟩

theorem blocked_keeps (kept : Kept desk) {state : ApplyState} (current : Current state desk.booking) :
    Kept (perform desk (.upsert (sinkError state publicIndeterminateSinkError))) :=
  kept.upsert (current.alike.sinkError _) (Or.inr ⟨current.phase, current.revision, Or.inr failureStatus_indeterminate⟩)

theorem savedEnd_record {request : ApplyRequest} {state : ApplyState} (outcome : Written) (goes : outcome ≠ .raised) :
    ∃ written, savedEnd request state outcome = [.upsert written] ∧ Alike written (savedBooking request state) ∧
      (outcome = .error publicIndeterminateSinkError →
        written.sinkEffectPhase = (savedBooking request state).sinkEffectPhase ∧
        written.sinkEffectRevision = (savedBooking request state).sinkEffectRevision ∧
        written.sinkWriteStatus = .indeterminate) := by
  cases outcome with
  | raised => exact absurd rfl goes
  | error message =>
    refine ⟨_, rfl, ⟨rfl, rfl, rfl, rfl, rfl⟩, ?_⟩
    rintro ⟨rfl⟩
    exact ⟨rfl, rfl, failureStatus_indeterminate⟩
  | ok result => exact ⟨_, rfl, ⟨rfl, rfl, rfl, rfl, rfl⟩, fun doubt => nomatch doubt⟩

theorem complete_keeps (kept : Kept desk) {request : ApplyRequest} {state : ApplyState}
    (current : Current state desk.booking) (composio : request.sink.sinkType.composio = true)
    (careful : lacksFields casefold request state = false → request.stale = false → desk.inFlight = [] ∨
      shouldSkipCancelSink state (savePayload request state) = false ∧
        (Booking.blocked state.targetBooking = true ∨
          Booking.retries state.targetBooking (completedRecordStatus state) = true ∧
          Accepted request (savedBooking request state) (savePayload request state) (completedRecordStatus state))) :
    Run.Always perform Kept desk (completeBooking casefold hashes desk.effects request state).1 := by
  rcases completeBooking_changes casefold hashes desk.effects request state with ⟨_, nothing⟩ | ⟨full, live, shape⟩
  · rw [nothing]
    exact kept
  replace careful := careful full live
  rcases shape with ⟨skip, changes⟩ | ⟨_, _, changes⟩ | ⟨_, free, changes⟩
  · rw [changes]
    have none : desk.inFlight = [] := careful.resolve_right fun safe => by simp [skip] at safe
    exact ⟨kept, kept.upsert current.alike (Or.inl none)⟩
  · rw [changes]
    exact ⟨kept, blocked_keeps kept current⟩
  · have again : desk.inFlight = [] ∨ Booking.retries state.targetBooking (completedRecordStatus state) = true ∧
        Accepted request (savedBooking request state) (savePayload request state) (completedRecordStatus state) := by
      rcases careful with none | ⟨_, blocked | again⟩
      · exact Or.inl none
      · rw [free] at blocked
        cases blocked
      · exact Or.inr again
    have begun := begin_keeps kept (current.alike.begin _ request.now) current.revision current.phase
      (again.imp_right And.left)
    have alike : Alike (savedBooking request state) (perform desk (.upsert (beginSinkEffect state.targetBooking
        (completedRecordStatus state) request.now))).booking := by
      rw [perform_upsert (current.alike.begin _ _)]
      exact ⟨rfl, rfl, rfl, rfl, rfl⟩
    have saved : Kept (perform (perform desk (.upsert (beginSinkEffect state.targetBooking
        (completedRecordStatus state) request.now))) (.upsert (savedBooking request state))) := by
      refine begun.upsert alike (Or.inr ?_)
      rw [perform_upsert (current.alike.begin _ _)]
      exact ⟨rfl, rfl, Or.inl rfl⟩
    have stored : (perform (perform desk (.upsert (beginSinkEffect state.targetBooking (completedRecordStatus state)
        request.now))) (.upsert (savedBooking request state))).booking = savedBooking request state := by
      rw [perform_upsert alike]
    rw [changes]
    exact ⟨kept, begun, write_then_store_keeps saved (stored ▸ ⟨rfl, rfl, rfl, rfl, rfl⟩) composio stored rfl rfl
      (again.imp_right And.right) rfl savedEnd_record⟩

theorem partialEnd_record {request : ApplyRequest} {booking : Booking} (outcome : Written) (goes : outcome ≠ .raised) :
    ∃ written, partialEnd request booking outcome = [.upsert written] ∧
      Alike written (beginSinkEffect booking .partialFields request.now) ∧
      (outcome = .error publicIndeterminateSinkError →
        written.sinkEffectPhase = (beginSinkEffect booking .partialFields request.now).sinkEffectPhase ∧
        written.sinkEffectRevision = (beginSinkEffect booking .partialFields request.now).sinkEffectRevision ∧
        written.sinkWriteStatus = .indeterminate) := by
  cases outcome with
  | raised => exact absurd rfl goes
  | error message =>
    refine ⟨_, rfl, ⟨rfl, rfl, rfl, rfl, rfl⟩, ?_⟩
    rintro ⟨rfl⟩
    exact ⟨rfl, rfl, failureStatus_indeterminate⟩
  | ok result => exact ⟨_, rfl, ⟨rfl, rfl, rfl, rfl, rfl⟩, fun doubt => nomatch doubt⟩

theorem update_keeps (kept : Kept desk) {request : ApplyRequest} {state : ApplyState}
    (current : Current state desk.booking) (known : state.sinkStatus = desk.booking.sinkWriteStatus)
    (composio : request.sink.sinkType.composio = true)
    (careful : request.stale = false → desk.inFlight = [] ∨ (partialWanted request →
      Booking.blocked (updatedBooking request state) = true ∨
        Booking.retries (updatedBooking request state) .partialFields = true ∧
        Accepted request (beginSinkEffect (updatedBooking request state) .partialFields request.now)
          request.decision.sinkPayload .partialFields)) :
    Run.Always perform Kept desk (updateActiveBooking hashes desk.effects request state).1 := by
  rcases updateActiveBooking_changes hashes desk.effects request state with ⟨_, nothing⟩ | ⟨live, rest, changes, shape⟩
  · rw [nothing]
    exact kept
  replace careful := careful live
  have alike : Alike (updatedBooking request state) desk.booking := current.alike
  have first : Kept (perform desk (.upsert (updatedBooking request state))) :=
    kept.same alike current.phase current.revision known
  have stored : (perform desk (.upsert (updatedBooking request state))).booking = updatedBooking request state := by
    rw [perform_upsert alike]
  have self : Alike (updatedBooking request state) (perform desk (.upsert (updatedBooking request state))).booking := by
    rw [stored]
    exact ⟨rfl, rfl, rfl, rfl, rfl⟩
  rw [changes]
  refine ⟨kept, ?_⟩
  rcases shape with ⟨_, rfl | rfl⟩ | ⟨wanted, blocked, rfl⟩ | ⟨wanted, free, rfl⟩
  · exact first
  · refine ⟨first, first.same self ?_ ?_ ?_⟩
    all_goals rw [stored]
  · refine ⟨first, blocked_keeps first ⟨self, ?_, ?_, ?_⟩⟩
    all_goals rw [stored]
  · have again : desk.inFlight = [] ∨ Booking.retries (updatedBooking request state) .partialFields = true ∧
        Accepted request (beginSinkEffect (updatedBooking request state) .partialFields request.now)
          request.decision.sinkPayload .partialFields := by
      rcases careful with none | tries
      · exact Or.inl none
      · refine Or.inr ((tries wanted).resolve_left ?_)
        simp [free]
    have opened : (perform desk (.upsert (updatedBooking request state))).inFlight = [] ∨
        Booking.retries (updatedBooking request state) .partialFields = true := again.imp_right And.left
    have begun := begin_keeps first (self.begin _ request.now) (by rw [stored]) (by rw [stored]) opened
    have next : (perform (perform desk (.upsert (updatedBooking request state))) (.upsert (beginSinkEffect
        (updatedBooking request state) .partialFields request.now))).booking =
          beginSinkEffect (updatedBooking request state) .partialFields request.now := by
      rw [perform_upsert (self.begin _ _)]
    exact ⟨first, write_then_store_keeps begun (next ▸ ⟨rfl, rfl, rfl, rfl, rfl⟩) composio next rfl rfl
      (again.imp_right And.right) rfl partialEnd_record⟩

theorem reconcileSinkEffect_ok {call : Reconcile} {done : List Change} (ok : reconcileSinkEffect desk call = .ok done) :
    ∃ phase effects status, desk.booking.sinkEffectPhase = some phase ∧
      reconcilePending desk.effects (reconcileRequest call desk.booking phase) call.now = .ok effects ∧
      (call.decision = .confirmApplied ∧ status = .pending ∨ call.decision ≠ .confirmApplied ∧ status = .failed) ∧
      done = [.settled phase desk.booking.sinkEffectRevision effects,
        .upsert { desk.booking with sinkWriteStatus := status, updatedAt := call.updatedAt }] := by
  unfold reconcileSinkEffect at ok
  split at ok
  · cases ok
  rename_i phase own
  split at ok
  · cases ok
  split at ok
  · cases ok
  split at ok
  · cases ok
  split at ok
  · cases ok
  · rename_i effects committed
    cases ok
    by_cases confirms : call.decision = .confirmApplied
    · exact ⟨phase, effects, .pending, own, committed, Or.inl ⟨confirms, rfl⟩, by simp [confirms]⟩
    · exact ⟨phase, effects, .failed, own, committed, Or.inr ⟨confirms, rfl⟩, by simp [confirms]⟩

theorem reconcile_keeps (kept : Kept desk) {call : Reconcile} {done : List Change}
    (ok : reconcileSinkEffect desk call = .ok done) : Run.Always perform Kept desk done := by
  obtain ⟨phase, effects, status, own, _, _, rfl⟩ := reconcileSinkEffect_ok ok
  have none : (perform desk (.settled phase desk.booking.sinkEffectRevision effects)).inFlight = [] := by
    refine List.filter_eq_nil_iff.mpr fun call member => ?_
    obtain ⟨phaseOf, revisionOf, _⟩ := kept call member
    have same : call = (phase, desk.booking.sinkEffectRevision) :=
      Prod.ext (Option.some.inj (phaseOf.symm.trans own)) revisionOf.symm
    simp [same]
  exact ⟨kept, kept_of_empty none, kept_of_empty none⟩

theorem target_found {conversation : Conversation} {request : ApplyRequest} {booking found : Booking}
    (resolved : target [booking] conversation request = .ok (.found found)) : found = booking := by
  have listed : ∀ {other}, other ∈ conversation.bookings [booking] → other = booking := by
    intro other member
    simpa using (mem_bookings.mp member).1
  unfold target at resolved
  split at resolved
  · cases resolved
  split at resolved
  · cases resolved
  unfold resolveBookingTarget at resolved
  split at resolved
  · rename_i held
    cases resolved
    split at held
    · exact listed (List.mem_of_find?_eq_some held)
    · exact listed (List.mem_of_find?_eq_some held)
  · cases resolved

theorem changes_keep {conversation : Conversation} (kept : Kept desk) {op : Call × Option Nat}
    (composio : op.1.composio) (careful : Careful casefold desk op) :
    Run.Always perform Kept desk (changes casefold hashes conversation desk op.1) := by
  obtain ⟨call, cut⟩ := op
  cases call with
  | reconcile request =>
    simp only [changes]
    split
    · rename_i done ok
      exact reconcile_keeps kept ok
    · exact kept
  | apply request =>
    simp only [changes]
    split
    · rename_i found resolved
      obtain rfl := target_found resolved
      unfold applyToTarget
      dsimp only
      split
      · rename_i ready
        refine complete_keeps kept (current_build request desk.booking) composio ?_
        intro full live
        rcases careful with none | stale | ⟨_, lacking | safe⟩ | ⟨unready, _⟩
        · exact Or.inl none
        · rw [live] at stale
          cases stale
        · rw [full] at lacking
          cases lacking
        · exact Or.inr safe
        · rw [ready] at unready
          cases unready
      · rename_i unready
        refine update_keeps kept (current_build request desk.booking) rfl composio ?_
        intro live
        rcases careful with none | stale | ⟨ready, _⟩ | ⟨_, tries⟩
        · exact Or.inl none
        · rw [live] at stale
          cases stale
        · exact absurd ready unready
        · exact Or.inr tries
    · exact kept
    · exact kept

theorem step_keeps {conversation : Conversation} (kept : Kept desk) {op : Call × Option Nat} (composio : op.1.composio)
    (careful : Careful casefold desk op) : Kept (step casefold hashes conversation desk op) := by
  have always : Run.Always perform Kept desk (changes casefold hashes conversation desk op.1) :=
    changes_keep kept composio careful
  unfold step
  cases cut : op.2 with
  | none =>
    have whole := always.take (changes casefold hashes conversation desk op.1).length
    rw [List.take_length] at whole
    exact whole
  | some n => exact always.take n

end Steps

/-- A new booking, before any decision on it wrote to the sink. -/
def Desk.start (conversation : Conversation) (bookingId : String) (now : Int) (effects : EffectStore) : Desk :=
  ⟨conversation.newBooking bookingId now, effects, []⟩

/-- In every sequence of decisions and reconciliations, with crashes anywhere, in which each decision is
careful with an open call of the provider, no open call is overtaken and the booking shows it. -/
theorem writes_not_overtaken (casefold : String → String) (hashes : Hashes) (conversation : Conversation)
    (bookingId : String) (now : Int) (effects : EffectStore) {ops : List (Call × Option Nat)}
    (composio : ∀ op ∈ ops, op.1.composio)
    (careful : Run.Guarded (step casefold hashes conversation) (Careful casefold) (.start conversation bookingId now effects) ops)
    (n : Nat) :
    Good (Run.exec (step casefold hashes conversation) (.start conversation bookingId now effects) (ops.take n)) := by
  have kept : ∀ desk op, Kept desk → op.1.composio ∧ Careful casefold desk op →
      Kept (step casefold hashes conversation desk op) := fun _ _ kept both => step_keeps kept both.1 both.2
  have both := (Run.Guarded.of_forall_mem composio (Desk.start conversation bookingId now effects)).and careful
  exact ((both.take n).invariant kept (kept_of_empty rfl)).good

theorem sample_trimmed : strip "c1" = "c1" ∧ strip "w1" = "w1" ∧ strip "chat" = "chat" := by decide +kernel

theorem sample_named : "c1" ≠ "" ∧ "w1" ≠ "" ∧ "chat" ≠ "" := by decide

def sampleConversation : Conversation := ⟨"c1", "w1", "chat", sample_trimmed, sample_named⟩

def sampleHashes : Hashes := ⟨fun bookingId account _ => bookingId ++ account, fun operation hash => operation ++ hash⟩

def sampleSink : Sink := ⟨.genericComposioWrite, "sheets", "add_row", "account", [], [], []⟩

def sampleAttempt (available : Bool) (execution : Execution) : Attempt :=
  ⟨available, fun _ => none, true, execution, true, .ok [], 0⟩

def sampleApply (decision : Bookings.Decision) (attempt : Attempt) : Call :=
  .apply ⟨decision, sampleSink, ⟨"", ""⟩, "", "", attempt, false, 0, "other"⟩

def sampleSave : Bookings.Decision := ⟨.updateActive, true, .nothing, .nothing, [], [], [], ""⟩

def sampleCancel : Bookings.Decision := ⟨.updateActive, true, .markCancelled, .nothing, [], [], [], ""⟩

def sampleFields : Bookings.Decision := ⟨.updateActive, false, .nothing, .upsertPartial, [("name", "x")], [], [], ""⟩

def sampleDesk : Desk := .start sampleConversation "b1" 0 .empty

def sampleStep : Desk → Call × Option Nat → Desk := step id sampleHashes sampleConversation

/-- The process stops in the call of the provider, the save is tried again, and the owner decides. -/
def retriedAfterCrash : List (Call × Option Nat) :=
  [(sampleApply sampleSave (sampleAttempt true .raised), some 4),
    (sampleApply sampleSave (sampleAttempt true (.succeeded "")), none),
    (.reconcile ⟨1, .retryNoEffect, "owner", "checked", "", sampleSink, 0, 0⟩, none),
    (sampleApply sampleSave (sampleAttempt true (.succeeded "")), none)]

theorem writes_not_overtaken_retriedAfterCrash : Good (Run.exec sampleStep sampleDesk retriedAfterCrash) := by
  have composio : ∀ op ∈ retriedAfterCrash, op.1.composio := by
    simp [retriedAfterCrash, sampleApply, sampleSink, Call.composio, SinkType.composio]
  have careful : Run.Guarded sampleStep (Careful id) sampleDesk retriedAfterCrash := by
    refine ⟨Or.inl rfl, Or.inr (Or.inr (Or.inl ⟨rfl, Or.inr ⟨?_, Or.inr ⟨?_, ?_⟩⟩⟩)), trivial, Or.inl ?_, trivial⟩
    · decide +kernel
    · decide +kernel
    · exact ⟨[], by decide +kernel⟩
    · decide +kernel
  exact writes_not_overtaken id sampleHashes sampleConversation "b1" 0 .empty composio careful 4

/-- A booking whose write is in doubt is cancelled. -/
def cancelledInDoubt : List (Call × Option Nat) :=
  [(sampleApply sampleSave (sampleAttempt true .raised), none),
    (sampleApply sampleCancel (sampleAttempt true (.succeeded "")), none)]

/-- The process stops in the call of the provider, and fields of the open booking are written next. -/
def overtakenAfterCrash : List (Call × Option Nat) :=
  [(sampleApply sampleSave (sampleAttempt true .raised), some 4),
    (sampleApply sampleFields (sampleAttempt true .raised), none)]

/-- The process stops in the call of the provider, and the next save finds the provider disabled. -/
def refusedAfterCrash : List (Call × Option Nat) :=
  [(sampleApply sampleSave (sampleAttempt true .raised), some 4),
    (sampleApply sampleSave (sampleAttempt false .raised), none)]

theorem open_write_overtaken : ¬ Good (Run.exec sampleStep sampleDesk cancelledInDoubt) ∧
    ¬ Good (Run.exec sampleStep sampleDesk overtakenAfterCrash) ∧
    ¬ Good (Run.exec sampleStep sampleDesk refusedAfterCrash) := by
  refine ⟨fun good => ?_, fun good => ?_, fun good => ?_⟩
  · have shown := (good (.completed, 1) (by decide +kernel)).1
    exact absurd shown (by decide +kernel)
  · have same := (good (.completed, 1) (by decide +kernel)).2 (.partialFields, 2) (by decide +kernel)
    cases same
  · have shown := (good (.completed, 1) (by decide +kernel)).1
    exact absurd shown (by decide +kernel)

end OpenTulpa.Intake.SinkEffects
