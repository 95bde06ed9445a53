import OpenTulpa.Intake.SinkEffects

/-! Whether an owner can always decide a write in doubt. The booking and its effect are in two stores,
and a write that is tried again under its revision answers a rejected or otherwise confirmed effect
with doubt as well. Where no write is tried again under such an effect, a booking in doubt always has
a pending effect, so each decision on it is accepted. -/

namespace OpenTulpa.Intake.Reconciliation

open Library Text Bookings SinkWriter DecisionApplier SinkEffects
open Persistence.Idempotency hiding Decision

/-- An owner's decision on the revision of the booking, with an actor and a reason. -/
def Reconcile.valid (call : Reconcile) (booking : Booking) : Prop :=
  call.effectRevision = booking.sinkEffectRevision ∧ (∃ actor, required call.actorId "actor_id" = .ok actor) ∧
    (strip call.reason).isEmpty = false ∧ (strip call.reason).length ≤ 2000

/-- A booking in doubt has a pending effect, and each decision on it is accepted. -/
def Reconcilable (desk : Desk) : Prop :=
  desk.booking.sinkWriteStatus = .indeterminate → 0 < desk.booking.sinkEffectRevision →
    ∀ phase, desk.booking.sinkEffectPhase = some phase →
      Claimed desk phase desk.booking.sinkEffectRevision ∧
        ∀ call, Reconcile.valid call desk.booking → ∃ done, reconcileSinkEffect desk call = .ok done

section Conditions

variable (casefold : String → String) (hashes : Hashes) (conversation : Conversation)

/-- The write that a decision on the booking makes: its phase, the record and the payload. -/
def attempted (request : ApplyRequest) (booking : Booking) : Option (Phase × Booking × JsonObject) :=
  let state := buildApplyState request booking
  if request.stale then none
  else if request.decision.readyToSave then
    if lacksFields casefold request state || shouldSkipCancelSink state (savePayload request state) ||
        Booking.blocked booking then none
    else some (completedRecordStatus state, savedBooking request state, savePayload request state)
  else if writesPartial request && request.sink.sinkType.composio && !Booking.blocked booking then
    some (.partialFields, beginSinkEffect (updatedBooking request state) .partialFields request.now,
      request.decision.sinkPayload)
  else none

/-- The effect of the write is free, still pending, or completed for the same request. -/
def Replayable (effects : EffectStore) (request : ApplyRequest) (record : Booking) (payload : JsonObject) (phase : Phase) :
    Prop :=
  ∀ arguments, preparedArguments request.sink record request.sender payload phase request.attempt = .ok arguments →
    ∀ resolved, resolve hashes.digest (effectRequest hashes request.sink record phase arguments) = .ok resolved →
      ∀ row, effects.effect resolved.key = some row →
        row.status = .pending ∨ row.status = .completed ∧ row.matches resolved = true

/-- No write is tried again under the revision of an effect that was rejected, or completed for another
request. -/
def Consistent (desk : Desk) : Call → Prop
  | .apply request =>
    ∀ booking, target [desk.booking] conversation request = .ok (.found booking) →
      ∀ phase record payload, attempted casefold request desk.booking = some (phase, record, payload) →
        Booking.retries desk.booking phase = true → Replayable hashes desk.effects request record payload phase
  | .reconcile _ => True

def run (desk : Desk) (call : Call) : Desk := step casefold hashes conversation desk (call, none)

end Conditions

/-- Effects of later revisions are free, and a booking in doubt has its effect pending. -/
structure Sound (desk : Desk) : Prop where
  fresh : ∀ phase revision key, desk.booking.sinkEffectRevision < revision →
    requiredKey desk.booking.customerId (effectIdempotencyKey desk.booking.bookingId phase revision) = .ok key →
    desk.effects.effect key = none
  doubt : desk.booking.sinkWriteStatus = .indeterminate → 0 < desk.booking.sinkEffectRevision ∧
    ∃ phase, desk.booking.sinkEffectPhase = some phase ∧ Claimed desk phase desk.booking.sinkEffectRevision

section Steps

variable {casefold : String → String} {hashes : Hashes} {desk : Desk}

/-- Each decision on a pending effect is accepted. -/
theorem reconcile_accepted {phase : Phase} (own : desk.booking.sinkEffectPhase = some phase)
    (waits : desk.booking.sinkWriteStatus = .indeterminate) (numbered : 0 < desk.booking.sinkEffectRevision)
    (claimed : Claimed desk phase desk.booking.sinkEffectRevision) {call : Reconcile}
    (valid : Reconcile.valid call desk.booking) : ∃ done, reconcileSinkEffect desk call = .ok done := by
  obtain ⟨revision, ⟨actor, acted⟩, reasoned, short⟩ := valid
  obtain ⟨key, row, named, found, pending⟩ := claimed
  have committed : ∃ effects, reconcilePending desk.effects (reconcileRequest call desk.booking phase) call.now =
      .ok effects := by
    unfold reconcilePending reconcileRequest
    dsimp only
    rw [named, Outcome.ok_bind, acted, Outcome.ok_bind, if_neg (by simp [reasoned, short])]
    simp only [found]
    rw [if_neg (by simp [pending])]
    exact ⟨_, rfl⟩
  obtain ⟨effects, committed⟩ := committed
  unfold reconcileSinkEffect
  simp only [own]
  rw [if_neg (by simp [revision]), if_neg (by simp [waits]), if_neg (by omega), committed]
  exact ⟨_, rfl⟩

theorem Sound.reconcilable (sound : Sound desk) : Reconcilable desk := by
  intro waits numbered phase own
  obtain ⟨_, known, same, claimed⟩ := sound.doubt waits
  obtain rfl : known = phase := Option.some.inj (same.symm.trans own)
  exact ⟨claimed, fun call valid => reconcile_accepted own waits numbered claimed valid⟩

theorem Sound.upsert (sound : Sound desk) {written : Booking} (alike : Alike written desk.booking)
    (grows : desk.booking.sinkEffectRevision ≤ written.sinkEffectRevision)
    (doubt : written.sinkWriteStatus = .indeterminate → 0 < written.sinkEffectRevision ∧
      ∃ phase, written.sinkEffectPhase = some phase ∧ Claimed desk phase written.sinkEffectRevision) :
    Sound (perform desk (.upsert written)) := by
  rw [perform_upsert alike]
  constructor
  · intro phase revision key later named
    dsimp only at later named
    rw [alike.1, alike.2.2.1] at named
    exact sound.fresh phase revision key (grows.trans_lt later) named
  · intro waits
    obtain ⟨numbered, phase, own, key, row, named, found, pending⟩ := doubt waits
    refine ⟨numbered, phase, own, key, row, ?_, found, pending⟩
    dsimp only
    rw [alike.1, alike.2.2.1]
    exact named

/-- The errors that refuse a write before its claim leave no doubt. -/
theorem failureStatus_refused {sink : Sink} {booking : Booking} {sender : Sender} {payload : JsonObject} {phase : Phase}
    {attempt : Attempt} {message : String}
    (refused : preparedArguments sink booking sender payload phase attempt = .error message) :
    sinkFailureStatus message = .failed := by
  unfold preparedArguments at refused
  split at refused
  · cases refused
    decide +kernel
  split at refused
  · cases refused
    decide +kernel
  split at refused
  · cases refused
    decide +kernel
  split at refused
  · cases refused
    decide +kernel
  split at refused
  · cases refused
    decide +kernel
  · cases refused

/-- The write that the booking has under way leaves the booking as it is, and doubt only with a pending effect. -/
theorem write_sound (sound : Sound desk) {request : ApplyRequest} {payload : JsonObject} {phase : Phase}
    (composio : request.sink.sinkType.composio = true) (pending : desk.booking.sinkWriteStatus = .pending)
    (replayable : Replayable hashes desk.effects request desk.booking payload phase) :
    let write := writeToSink hashes desk.effects request.sink desk.booking request.sender payload phase request.attempt
    Sound (Run.exec perform desk write.1) ∧ (Run.exec perform desk write.1).booking = desk.booking ∧
      ∀ message, write.2 = .error message → sinkFailureStatus message = .indeterminate →
        Claimed (Run.exec perform desk write.1) phase desk.booking.sinkEffectRevision := by
  intro write
  have quiet : ∀ {effects : EffectStore} {calls : List (Phase × Nat)},
      (∀ key, (∃ other revision, desk.booking.sinkEffectRevision < revision ∧ requiredKey desk.booking.customerId
        (effectIdempotencyKey desk.booking.bookingId other revision) = .ok key) → effects.effect key = none) →
      Sound ⟨desk.booking, effects, calls⟩ := by
    intro effects calls free
    refine ⟨fun other revision key later named => free key ⟨other, revision, later, named⟩, ?_⟩
    intro waits
    rw [pending] at waits
    cases waits
  rcases writeToSink_changes hashes desk.effects desk.booking request.sender payload phase request.attempt composio with
    ⟨message, refused, written⟩ | ⟨arguments, prepared, written⟩
  · change write = _ at written
    rw [written]
    refine ⟨sound, rfl, ?_⟩
    rintro _ ⟨rfl⟩ doubt
    rw [failureStatus_refused refused] at doubt
    cases doubt
  change write = _ at written
  have named : ∀ {resolved}, resolve hashes.digest (effectRequest hashes request.sink desk.booking phase arguments) =
      .ok resolved → requiredKey desk.booking.customerId (effectIdempotencyKey desk.booking.bookingId phase
        desk.booking.sinkEffectRevision) = .ok resolved.key := by
    intro resolved resolves
    have named := resolve_key resolves
    simpa only [effectRequest] using named
  rw [written]
  rcases claimEffect_changes hashes desk.effects request.sink desk.booking phase
      (effectRequest hashes request.sink desk.booking phase arguments) request.attempt with
    ⟨claimed, resolved, done, changes⟩ | ⟨store, result, done, changes⟩ | ⟨error, refused, doubtful, changes⟩ |
      ⟨error, _, changes⟩
  · obtain ⟨resolves, missing, rfl⟩ := claim_created done
    have row : EffectStore.effect { desk.effects with effects := desk.effects.effects ++ [resolved.row request.attempt.now] }
        resolved.key = some (resolved.row request.attempt.now) := by
      rw [effect_append, missing]
      simp [Resolved.row]
    have free : ∀ key, (∃ other revision, desk.booking.sinkEffectRevision < revision ∧
        requiredKey desk.booking.customerId (effectIdempotencyKey desk.booking.bookingId other revision) = .ok key) →
        EffectStore.effect { desk.effects with
          effects := desk.effects.effects ++ [resolved.row request.attempt.now] } key = none := by
      rintro key ⟨other, revision, later, also⟩
      have apart : (resolved.row request.attempt.now).key ≠ key := by
        intro same
        have equal := requiredKey_revision (named resolves) (same ▸ also)
        omega
      rw [effect_append, sound.fresh other revision key later also, if_neg apart]
      rfl
    rw [changes]
    rcases executeSink_changes { desk.effects with effects := desk.effects.effects ++ [resolved.row request.attempt.now] }
        request.sink desk.booking phase (effectRequest hashes request.sink desk.booking phase arguments) request.attempt with
      doubt | ⟨_, settled, completed, done⟩
    · rw [doubt]
      refine ⟨quiet free, rfl, ?_⟩
      intro _ _ _
      exact ⟨resolved.key, _, named resolves, row, rfl⟩
    · rw [done]
      exact ⟨quiet fun key later => complete_none completed (free key later), rfl, fun _ failed => by cases failed⟩
  · rw [changes]
    exact ⟨sound, rfl, fun _ failed => by cases failed⟩
  · rw [changes]
    refine ⟨sound, rfl, ?_⟩
    intro _ _ _
    obtain ⟨resolved, row, resolves, found, other⟩ := claim_doubt refused doubtful
    have waits := (replayable arguments prepared resolved resolves row found).resolve_right other
    exact ⟨resolved.key, row, named resolves, found, waits⟩
  · rw [changes]
    exact ⟨sound, rfl, fun _ failed => by cases failed⟩

/-- The record stored after a write: the same effect, in doubt only after an error in doubt. -/
def Recorded (booking : Booking) (ends : Written → List Change) : Prop :=
  ends .raised = [] ∧ ∀ outcome, outcome ≠ .raised → ∃ written, ends outcome = [.upsert written] ∧ Alike written booking ∧
    written.sinkEffectPhase = booking.sinkEffectPhase ∧ written.sinkEffectRevision = booking.sinkEffectRevision ∧
    (∀ message, outcome = .error message → written.sinkWriteStatus = sinkFailureStatus message) ∧
    ((∀ message, outcome ≠ .error message) → written.sinkWriteStatus ≠ .indeterminate)

theorem recorded_saved (request : ApplyRequest) (state : ApplyState) :
    Recorded (savedBooking request state) (savedEnd request state) := by
  refine ⟨rfl, ?_⟩
  intro outcome goes
  cases outcome with
  | raised => exact absurd rfl goes
  | error message =>
    refine ⟨_, rfl, ⟨rfl, rfl, rfl, rfl, rfl⟩, rfl, rfl, ?_, fun none => absurd rfl (none message)⟩
    rintro _ ⟨rfl⟩
    rfl
  | ok result =>
    refine ⟨_, rfl, ⟨rfl, rfl, rfl, rfl, rfl⟩, rfl, rfl, ?_, ?_⟩
    · rintro _ ⟨⟩
    · rintro _ ⟨⟩

theorem recorded_partialUpsert (request : ApplyRequest) (booking : Booking) :
    Recorded (beginSinkEffect booking .partialFields request.now) (partialEnd request booking) := by
  refine ⟨rfl, ?_⟩
  intro outcome goes
  cases outcome with
  | raised => exact absurd rfl goes
  | error message =>
    refine ⟨_, rfl, ⟨rfl, rfl, rfl, rfl, rfl⟩, rfl, rfl, ?_, fun none => absurd rfl (none message)⟩
    rintro _ ⟨rfl⟩
    rfl
  | ok result =>
    refine ⟨_, rfl, ⟨rfl, rfl, rfl, rfl, rfl⟩, rfl, rfl, ?_, ?_⟩
    · rintro _ ⟨⟩
    · rintro _ ⟨⟩

theorem write_then_store_sound (sound : Sound desk) {request : ApplyRequest} {payload : JsonObject} {phase : Phase}
    {booking : Booking} {ends : Written → List Change} (composio : request.sink.sinkType.composio = true)
    (stored : desk.booking = booking) (own : booking.sinkEffectPhase = some phase) (numbered : 0 < booking.sinkEffectRevision)
    (pending : booking.sinkWriteStatus = .pending) (replayable : Replayable hashes desk.effects request booking payload phase)
    (recorded : Recorded booking ends) :
    Sound (Run.exec perform desk
      ((writeToSink hashes desk.effects request.sink booking request.sender payload phase request.attempt).1 ++
        ends (writeToSink hashes desk.effects request.sink booking request.sender payload phase request.attempt).2)) := by
  subst stored
  obtain ⟨after, same, doubt⟩ := write_sound sound composio pending replayable
  rw [Run.exec_append]
  generalize writeToSink hashes desk.effects request.sink desk.booking request.sender payload phase request.attempt =
    write at *
  by_cases stops : write.2 = .raised
  · rw [stops, recorded.1]
    exact after
  · obtain ⟨written, shape, alike, keepsPhase, keepsRevision, failed, fine⟩ := recorded.2 write.2 stops
    rw [shape]
    refine Sound.upsert after (same ▸ alike) (by rw [same, keepsRevision]) ?_
    intro waits
    cases outcome : write.2 with
    | error message =>
      refine ⟨keepsRevision ▸ numbered, phase, keepsPhase.trans own, keepsRevision ▸ ?_⟩
      exact doubt message outcome ((failed message outcome).symm.trans waits)
    | raised => exact absurd waits (fine fun message other => by simp [outcome] at other)
    | ok result => exact absurd waits (fine fun message other => by simp [outcome] at other)

theorem replayable_of_fresh (sound : Sound desk) {request : ApplyRequest} {record : Booking} {payload : JsonObject}
    {phase : Phase} (alike : Alike record desk.booking)
    (later : desk.booking.sinkEffectRevision < record.sinkEffectRevision) :
    Replayable hashes desk.effects request record payload phase := by
  intro arguments _ resolved resolves row found
  have named := resolve_key resolves
  simp only [effectRequest] at named
  rw [alike.1, alike.2.2.1] at named
  rw [sound.fresh phase _ resolved.key later named] at found
  cases found

theorem begin_sound (sound : Sound desk) {booking : Booking} {phase : Phase} {now : Int}
    (alike : Alike (beginSinkEffect booking phase now) desk.booking)
    (revision : booking.sinkEffectRevision = desk.booking.sinkEffectRevision) :
    Sound (perform desk (.upsert (beginSinkEffect booking phase now))) := by
  refine sound.upsert alike ?_ (fun waits => nomatch waits)
  rw [beginSinkEffect_revision, revision]
  split <;> omega

/-- The begun record is tried again under its revision, or has one that is free. -/
theorem begin_replayable (sound : Sound desk) {request : ApplyRequest} {booking record : Booking} {payload : JsonObject}
    {phase : Phase} (alike : Alike record desk.booking)
    (revision : booking.sinkEffectRevision = desk.booking.sinkEffectRevision)
    (begun : record.sinkEffectRevision = (beginSinkEffect booking phase request.now).sinkEffectRevision)
    (consistent : Booking.retries booking phase = true → Replayable hashes desk.effects request record payload phase) :
    Replayable hashes desk.effects request record payload phase ∧ 0 < record.sinkEffectRevision := by
  by_cases again : Booking.retries booking phase = true
  · refine ⟨consistent again, ?_⟩
    rw [begun, beginSinkEffect_revision, if_pos again]
    simp only [Booking.retries, Bool.and_eq_true, decide_eq_true_eq] at again
    exact again.1.1
  · have next : record.sinkEffectRevision = desk.booking.sinkEffectRevision + 1 := by
      rw [begun, beginSinkEffect_revision, if_neg again, revision]
    exact ⟨replayable_of_fresh sound alike (by omega), by omega⟩

theorem blocked_sound (sound : Sound desk) {state : ApplyState} (current : Current state desk.booking)
    (blocked : Booking.blocked state.targetBooking = true) :
    Sound (perform desk (.upsert (sinkError state publicIndeterminateSinkError))) := by
  refine sound.upsert (current.alike.sinkError _) current.revision.ge ?_
  intro _
  have waits : desk.booking.sinkWriteStatus = .indeterminate := by
    simp only [Booking.blocked, Bool.and_eq_true, beq_iff_eq] at blocked
    exact current.status ▸ blocked.1
  obtain ⟨numbered, phase, own, claimed⟩ := sound.doubt waits
  exact ⟨current.revision ▸ numbered, phase, current.phase.trans own, current.revision ▸ claimed⟩

theorem complete_sound (sound : Sound desk) {request : ApplyRequest} {state : ApplyState}
    (current : Current state desk.booking) (composio : request.sink.sinkType.composio = true)
    (consistent : request.stale = false → lacksFields casefold request state = false →
      shouldSkipCancelSink state (savePayload request state) = false → Booking.blocked state.targetBooking = false →
      Booking.retries state.targetBooking (completedRecordStatus state) = true →
      Replayable hashes desk.effects request (savedBooking request state) (savePayload request state)
        (completedRecordStatus state)) :
    Sound (Run.exec perform desk (completeBooking casefold hashes desk.effects request state).1) := by
  rcases completeBooking_changes casefold hashes desk.effects request state with ⟨_, nothing⟩ | ⟨full, live, shape⟩
  · rw [nothing]
    exact sound
  rcases shape with ⟨_, changes⟩ | ⟨_, blocked, changes⟩ | ⟨skip, free, changes⟩
  · rw [changes]
    exact sound.upsert current.alike current.revision.ge fun waits => nomatch waits
  · rw [changes]
    exact blocked_sound sound current blocked
  · have begun := begin_sound sound (current.alike.begin (completedRecordStatus state) request.now) current.revision
    have alike : Alike (savedBooking request state) (perform desk (.upsert (beginSinkEffect state.targetBooking
        (completedRecordStatus state) request.now))).booking := by
      rw [perform_upsert (current.alike.begin _ _)]
      exact ⟨rfl, rfl, rfl, rfl, rfl⟩
    have saved : Sound (perform (perform desk (.upsert (beginSinkEffect state.targetBooking
        (completedRecordStatus state) request.now))) (.upsert (savedBooking request state))) := by
      refine begun.upsert alike ?_ fun waits => nomatch waits
      rw [perform_upsert (current.alike.begin _ _)]
      exact le_rfl
    have stored : (perform (perform desk (.upsert (beginSinkEffect state.targetBooking (completedRecordStatus state)
        request.now))) (.upsert (savedBooking request state))).booking = savedBooking request state := by
      rw [perform_upsert alike]
    have free : Replayable hashes desk.effects request (savedBooking request state) (savePayload request state)
        (completedRecordStatus state) ∧ 0 < (savedBooking request state).sinkEffectRevision :=
      begin_replayable sound current.alike current.revision rfl (consistent live full skip free)
    rw [changes]
    exact write_then_store_sound saved composio stored rfl free.2 rfl free.1 (recorded_saved request state)

theorem update_sound (sound : Sound desk) {request : ApplyRequest} {state : ApplyState}
    (current : Current state desk.booking) (known : state.sinkStatus = desk.booking.sinkWriteStatus)
    (composio : request.sink.sinkType.composio = true)
    (consistent : request.stale = false → partialWanted request → Booking.blocked (updatedBooking request state) = false →
      Booking.retries (updatedBooking request state) .partialFields = true →
      Replayable hashes desk.effects request (beginSinkEffect (updatedBooking request state) .partialFields request.now)
        request.decision.sinkPayload .partialFields) :
    Sound (Run.exec perform desk (updateActiveBooking hashes desk.effects request state).1) := by
  rcases updateActiveBooking_changes hashes desk.effects request state with ⟨_, nothing⟩ | ⟨live, rest, changes, shape⟩
  · rw [nothing]
    exact sound
  have alike : Alike (updatedBooking request state) desk.booking := current.alike
  have revision : (updatedBooking request state).sinkEffectRevision = desk.booking.sinkEffectRevision := current.revision
  have first : Sound (perform desk (.upsert (updatedBooking request state))) := by
    refine sound.upsert alike revision.ge ?_
    intro waits
    obtain ⟨numbered, phase, own, claimed⟩ := sound.doubt (known.symm.trans waits)
    exact ⟨current.revision ▸ numbered, phase, current.phase.trans own, current.revision ▸ claimed⟩
  have stored : (perform desk (.upsert (updatedBooking request state))).booking = updatedBooking request state := by
    rw [perform_upsert alike]
  have self : Alike (updatedBooking request state) (perform desk (.upsert (updatedBooking request state))).booking := by
    rw [stored]
    exact ⟨rfl, rfl, rfl, rfl, rfl⟩
  rw [changes, Run.exec_cons]
  rcases shape with ⟨_, rfl | rfl⟩ | ⟨wanted, blocked, rfl⟩ | ⟨wanted, free, rfl⟩
  · exact first
  · refine Sound.upsert first self (by rw [stored]) ?_
    intro waits
    have again := first.doubt (by rw [stored]; exact waits)
    rwa [stored] at again
  · refine blocked_sound first ⟨self, ?_, ?_, ?_⟩ blocked
    all_goals rw [stored]
  · have begun := begin_sound first (self.begin .partialFields request.now) (by rw [stored])
    have next : (perform (perform desk (.upsert (updatedBooking request state))) (.upsert (beginSinkEffect
        (updatedBooking request state) .partialFields request.now))).booking =
          beginSinkEffect (updatedBooking request state) .partialFields request.now := by
      rw [perform_upsert (self.begin _ _)]
    have free : Replayable hashes desk.effects request (beginSinkEffect (updatedBooking request state) .partialFields
          request.now) request.decision.sinkPayload .partialFields ∧
        0 < (beginSinkEffect (updatedBooking request state) .partialFields request.now).sinkEffectRevision :=
      begin_replayable sound (alike.begin _ _) revision rfl (consistent live wanted free)
    exact write_then_store_sound begun composio next rfl free.2 rfl free.1 (recorded_partialUpsert request _)

theorem reconcile_sound (sound : Sound desk) {call : Reconcile} {done : List Change}
    (ok : reconcileSinkEffect desk call = .ok done) : Sound (Run.exec perform desk done) := by
  obtain ⟨phase, effects, status, own, committed, decided, rfl⟩ := reconcileSinkEffect_ok ok
  constructor
  · intro other revision key later named
    exact reconcilePending_none committed (sound.fresh other revision key later named)
  · intro waits
    have certain : status ≠ .indeterminate := by
      rcases decided with ⟨_, rfl⟩ | ⟨_, rfl⟩ <;> simp
    exact absurd waits certain

end Steps

section Runs

variable {casefold : String → String} {hashes : Hashes} {conversation : Conversation} {desk : Desk}

theorem attempted_complete {request : ApplyRequest} {booking : Booking} (live : request.stale = false)
    (ready : request.decision.readyToSave = true) (full : lacksFields casefold request (buildApplyState request booking) = false)
    (skip : shouldSkipCancelSink (buildApplyState request booking)
      (savePayload request (buildApplyState request booking)) = false) (free : Booking.blocked booking = false) :
    attempted casefold request booking = some (completedRecordStatus (buildApplyState request booking),
      savedBooking request (buildApplyState request booking), savePayload request (buildApplyState request booking)) := by
  simp [attempted, live, ready, full, skip, free]

theorem attempted_partialUpsert {request : ApplyRequest} {booking : Booking} (live : request.stale = false)
    (unready : request.decision.readyToSave = false) (wanted : partialWanted request)
    (free : Booking.blocked booking = false) :
    attempted casefold request booking = some (.partialFields,
      beginSinkEffect (updatedBooking request (buildApplyState request booking)) .partialFields request.now,
      request.decision.sinkPayload) := by
  obtain ⟨writes, composio⟩ := wanted
  simp [attempted, live, unready, writes, composio, free]

theorem run_sound (sound : Sound desk) {call : Call} (composio : call.composio)
    (consistent : Consistent casefold hashes conversation desk call) :
    Sound (run casefold hashes conversation desk call) := by
  unfold run step
  cases call with
  | reconcile request =>
    simp only [changes, performed]
    split
    · rename_i done ok
      exact reconcile_sound sound ok
    · exact sound
  | apply request =>
    simp only [changes, performed]
    split
    · rename_i found resolved
      replace consistent := consistent found resolved
      obtain rfl := target_found resolved
      unfold applyToTarget
      dsimp only
      split
      · rename_i ready
        refine complete_sound sound (current_build request desk.booking) composio ?_
        intro live full skip free again
        exact consistent _ _ _ (attempted_complete live ready full skip free) again
      · rename_i unready
        refine update_sound sound (current_build request desk.booking) rfl composio ?_
        intro live wanted free again
        exact consistent _ _ _ (attempted_partialUpsert live (by simpa using unready) wanted free) again
    · exact sound
    · exact sound

/-- A write under an effect that was settled otherwise changes nothing and ends in doubt. -/
theorem write_in_doubt {effects : EffectStore} {request : ApplyRequest} {record : Booking} {payload arguments : JsonObject}
    {phase : Phase} {resolved : Resolved} {row : Effect} (composio : request.sink.sinkType.composio = true)
    (prepared : preparedArguments request.sink record request.sender payload phase request.attempt = .ok arguments)
    (resolves : resolve hashes.digest (effectRequest hashes request.sink record phase arguments) = .ok resolved)
    (found : effects.effect resolved.key = some row)
    (settled : ¬ (row.status = .pending ∨ row.status = .completed ∧ row.matches resolved = true)) :
    writeToSink hashes effects request.sink record request.sender payload phase request.attempt =
      ([], .error publicIndeterminateSinkError) := by
  obtain ⟨done, other⟩ := not_or.mp settled
  rcases writeToSink_changes hashes effects record request.sender payload phase request.attempt composio with
    ⟨message, refused, _⟩ | ⟨found, also, written⟩
  · rw [prepared] at refused
    cases refused
  · cases prepared.symm.trans also
    rw [written]
    unfold claimEffect
    rcases claim_settled resolves ‹_› done other request.attempt.now with refused | refused
    · rw [refused]
    · rw [refused]

/-- A booking in doubt whose effect was settled cannot be reconciled. -/
theorem not_reconcilable {record : Booking} {request : ApplyRequest} {arguments : JsonObject} {phase : Phase}
    {resolved : Resolved} {row : Effect}
    (resolves : resolve hashes.digest (effectRequest hashes request.sink record phase arguments) = .ok resolved)
    (found : desk.effects.effect resolved.key = some row) (settled : row.status ≠ .pending)
    (alike : Alike desk.booking record) (waits : desk.booking.sinkWriteStatus = .indeterminate)
    (own : desk.booking.sinkEffectPhase = some phase) (revision : desk.booking.sinkEffectRevision = record.sinkEffectRevision)
    (numbered : 0 < record.sinkEffectRevision) : ¬ Reconcilable desk := by
  intro reconcilable
  obtain ⟨⟨key, other, named, held, pending⟩, _⟩ := reconcilable waits (revision ▸ numbered) phase own
  have same := resolve_key resolves
  simp only [effectRequest] at same
  rw [alike.1, alike.2.2.1, revision] at named
  cases same.symm.trans named
  cases found.symm.trans held
  exact settled pending

theorem attempted_some {request : ApplyRequest} {booking record : Booking} {phase : Phase} {payload : JsonObject}
    (tries : attempted casefold request booking = some (phase, record, payload)) :
    request.stale = false ∧ Booking.blocked booking = false ∧
    (request.decision.readyToSave = true ∧ lacksFields casefold request (buildApplyState request booking) = false ∧
        shouldSkipCancelSink (buildApplyState request booking) (savePayload request (buildApplyState request booking)) = false ∧
        phase = completedRecordStatus (buildApplyState request booking) ∧
        record = savedBooking request (buildApplyState request booking) ∧
        payload = savePayload request (buildApplyState request booking) ∨
      request.decision.readyToSave = false ∧ partialWanted request ∧ phase = .partialFields ∧
        record = beginSinkEffect (updatedBooking request (buildApplyState request booking)) .partialFields request.now ∧
        payload = request.decision.sinkPayload) := by
  unfold attempted at tries
  dsimp only at tries
  split at tries
  · cases tries
  rename_i live
  split at tries
  · rename_i ready
    split at tries
    · cases tries
    · rename_i goes
      cases tries
      simp only [Bool.or_eq_true, not_or, Bool.not_eq_true] at goes
      exact ⟨by simpa using live, goes.2, Or.inl ⟨ready, goes.1.1, goes.1.2, rfl, rfl, rfl⟩⟩
  · rename_i unready
    split at tries
    · rename_i goes
      cases tries
      simp only [Bool.and_eq_true, Bool.not_eq_true'] at goes
      exact ⟨by simpa using live, goes.2, Or.inr ⟨by simpa using unready, ⟨goes.1.1, goes.1.2⟩, rfl, rfl, rfl⟩⟩
    · cases tries

/-- A write under an effect that was settled otherwise leaves a booking that cannot be reconciled. -/
theorem consistent_of_reconcilable {call : Call} (composio : call.composio)
    (reconcilable : Reconcilable (run casefold hashes conversation desk call)) :
    Consistent casefold hashes conversation desk call := by
  cases call with
  | reconcile request => trivial
  | apply request =>
    intro booking resolution phase record payload tries again arguments prepared resolved resolves row found
    by_contra settled
    have written : writeToSink hashes desk.effects request.sink record request.sender payload phase request.attempt =
        ([], .error publicIndeterminateSinkError) := write_in_doubt composio prepared resolves found settled
    have final : row.status ≠ .pending := fun pending => settled (Or.inl pending)
    have positive : ∀ now, 0 < (beginSinkEffect desk.booking phase now).sinkEffectRevision := by
      intro now
      rw [beginSinkEffect_revision, if_pos again]
      simp only [Booking.retries, Bool.and_eq_true, decide_eq_true_eq] at again
      exact again.1.1
    have run_eq : run casefold hashes conversation desk (.apply request) =
        Run.exec perform desk (applyToTarget casefold hashes desk.effects request desk.booking).1 := by
      have same := target_found resolution
      subst same
      simp only [run, step, changes, performed, resolution]
    rw [run_eq] at reconcilable
    obtain ⟨live, free, ⟨ready, full, skip, rfl, rfl, rfl⟩ | ⟨unready, wanted, rfl, rfl, rfl⟩⟩ := attempted_some tries
    · have shape : (applyToTarget casefold hashes desk.effects request desk.booking).1 =
          [.upsert (beginSinkEffect (buildApplyState request desk.booking).targetBooking
              (completedRecordStatus (buildApplyState request desk.booking)) request.now),
            .upsert (savedBooking request (buildApplyState request desk.booking)),
            .upsert (sinkError { buildApplyState request desk.booking with
              targetBooking := savedBooking request (buildApplyState request desk.booking) }
              publicIndeterminateSinkError)] := by
        simp only [applyToTarget, ready, if_true]
        rcases completeBooking_changes casefold hashes desk.effects request (buildApplyState request desk.booking) with
          ⟨lacking | stale, _⟩ | ⟨_, _, ⟨skipped, _⟩ | ⟨_, blocked, _⟩ | ⟨_, _, changes⟩⟩
        · rw [full] at lacking
          cases lacking
        · rw [live] at stale
          cases stale
        · rw [skip] at skipped
          cases skipped
        · rw [blocked_buildApplyState, free] at blocked
          cases blocked
        · rw [changes, show savedWrite hashes desk.effects request (buildApplyState request desk.booking) = _ from written]
          rfl
      rw [shape] at reconcilable
      refine absurd reconcilable (not_reconcilable resolves ?_ final ?_ ?_ ?_ ?_ (positive request.now))
      · exact found
      · exact ⟨rfl, rfl, rfl, rfl, rfl⟩
      · exact failureStatus_indeterminate
      · rfl
      · rfl
    · have shape : (applyToTarget casefold hashes desk.effects request desk.booking).1 =
          [.upsert (updatedBooking request (buildApplyState request desk.booking)),
            .upsert (beginSinkEffect (updatedBooking request (buildApplyState request desk.booking)) .partialFields request.now),
            .upsert { beginSinkEffect (updatedBooking request (buildApplyState request desk.booking)) .partialFields
                request.now with sinkWriteStatus := sinkFailureStatus publicIndeterminateSinkError }] := by
        simp only [applyToTarget, unready, Bool.false_eq_true, if_false]
        rcases updateActiveBooking_changes hashes desk.effects request (buildApplyState request desk.booking) with
          ⟨stale, _⟩ | ⟨_, rest, changes, ⟨unwanted, _⟩ | ⟨_, blocked, _⟩ | ⟨_, _, rfl⟩⟩
        · rw [live] at stale
          cases stale
        · exact absurd wanted unwanted
        · rw [blocked_updatedBooking, free] at blocked
          cases blocked
        · rw [changes, show partialWrite hashes desk.effects request
            (updatedBooking request (buildApplyState request desk.booking)) = _ from written]
          rfl
      rw [shape] at reconcilable
      refine absurd reconcilable (not_reconcilable resolves ?_ final ?_ ?_ ?_ ?_ (positive request.now))
      · exact found
      · exact ⟨rfl, rfl, rfl, rfl, rfl⟩
      · exact failureStatus_indeterminate
      · rfl
      · rfl

/-- The effects of the booking are free. -/
def Unclaimed (conversation : Conversation) (bookingId : String) (effects : EffectStore) : Prop :=
  ∀ phase revision key, requiredKey conversation.customerId (effectIdempotencyKey bookingId phase revision) = .ok key →
    effects.effect key = none

/-- In every sequence of decisions and reconciliations of a new booking, a booking in doubt can be
reconciled, exactly when no write is tried again under an effect that was rejected, or completed for
another request. -/
theorem reconcilable_iff_consistent (casefold : String → String) (hashes : Hashes) (conversation : Conversation)
    {bookingId : String} (now : Int) {effects : EffectStore} (unclaimed : Unclaimed conversation bookingId effects)
    {calls : List Call} (composio : ∀ call ∈ calls, call.composio) :
    (∀ n, Reconcilable (Run.exec (run casefold hashes conversation) (.start conversation bookingId now effects)
        (calls.take n))) ↔
      Run.Guarded (run casefold hashes conversation) (Consistent casefold hashes conversation)
        (.start conversation bookingId now effects) calls := by
  have holds : ∀ desk, Sound desk → Reconcilable desk := fun _ sound => sound.reconcilable
  have preserved : ∀ desk call, Sound desk → Call.composio call → Consistent casefold hashes conversation desk call →
      Sound (run casefold hashes conversation desk call) := fun _ _ sound fits consistent => run_sound sound fits consistent
  have necessary : ∀ desk call, Sound desk → Call.composio call → Reconcilable (run casefold hashes conversation desk call) →
      Consistent casefold hashes conversation desk call := fun _ _ _ fits ok => consistent_of_reconcilable fits ok
  have initial : Sound (.start conversation bookingId now effects) :=
    ⟨fun phase revision key _ named => unclaimed phase revision key named, fun waits => nomatch waits⟩
  exact Run.prefixes_iff_guarded holds preserved necessary initial (Run.Guarded.of_forall_mem composio _)

/-- A save fails, the owner decides, and the booking is saved again. -/
def savedAfter (decision : Persistence.Idempotency.Decision) : List Call :=
  [sampleApply sampleSave (sampleAttempt true .raised), .reconcile ⟨1, decision, "owner", "checked", "", sampleSink, 0, 0⟩,
    sampleApply sampleSave (sampleAttempt true (.succeeded ""))]

theorem reconcilable_iff_consistent_savedAfter :
    (∀ n, Reconcilable (Run.exec (run id sampleHashes sampleConversation) sampleDesk ((savedAfter .retryNoEffect).take n))) ↔
      Run.Guarded (run id sampleHashes sampleConversation) (Consistent id sampleHashes sampleConversation) sampleDesk
        (savedAfter .retryNoEffect) := by
  have composio : ∀ call ∈ savedAfter .retryNoEffect, call.composio := by
    simp [savedAfter, sampleApply, sampleSink, Call.composio, SinkType.composio]
  exact reconcilable_iff_consistent id sampleHashes sampleConversation 0 (fun _ _ _ _ => rfl) composio

/-- The owner rejects the effect, and saving the booking again leaves it in doubt for good. -/
theorem rejected_effect_stays_in_doubt : ¬ Reconcilable
    (Run.exec (run id sampleHashes sampleConversation) sampleDesk (savedAfter .reject)) := by
  intro reconcilable
  obtain ⟨_, accepted⟩ := reconcilable (by decide +kernel) (by decide +kernel) .completed (by decide +kernel)
  have valid : Reconcile.valid ⟨1, .retryNoEffect, "owner", "checked", "", sampleSink, 0, 0⟩
      (Run.exec (run id sampleHashes sampleConversation) sampleDesk (savedAfter .reject)).booking :=
    ⟨by decide +kernel, ⟨"owner", by decide +kernel⟩, by decide +kernel, by decide +kernel⟩
  obtain ⟨done, ok⟩ := accepted _ valid
  have refused : (reconcileSinkEffect (Run.exec (run id sampleHashes sampleConversation) sampleDesk (savedAfter .reject))
      ⟨1, .retryNoEffect, "owner", "checked", "", sampleSink, 0, 0⟩).isOk = false := by decide +kernel
  rw [ok] at refused
  cases refused

end Runs

end OpenTulpa.Intake.Reconciliation
