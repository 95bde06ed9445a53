import OpenTulpa.Intake.Bookings
import OpenTulpa.Persistence.Idempotency

/-! Writes of bookings to the sink of a workflow. A write to a Composio sink is claimed under a key of
the booking, the phase and the effect revision, executed, and recorded as completed. What a write
commits is the list of its changes in order, so that a crash leaves a first part of it. -/

namespace OpenTulpa.Intake.SinkWriter

open Library Text Bookings Persistence.Idempotency

inductive SinkType where
  | localCsv
  | googleSheetsComposio
  | genericComposioWrite
  deriving DecidableEq

def SinkType.text : SinkType → String
  | .localCsv => "local_csv"
  | .googleSheetsComposio => "google_sheets_composio"
  | .genericComposioWrite => "generic_composio_write"

def SinkType.composio (sinkType : SinkType) : Bool := sinkType != .localCsv

/-- The sink of a workflow, with its configuration as it was normalized. -/
structure Sink where
  sinkType : SinkType
  toolkit : String
  toolSlug : String
  connectedAccountId : String
  fieldMapping : JsonObject
  staticArguments : JsonObject
  requiredFields : List String
  deriving DecidableEq

/-- What the conversation summary says about the sender. -/
structure Sender where
  userId : String
  username : String
  deriving DecidableEq

inductive Execution where
  | raised
  | rejected
  | succeeded (data : String)
  deriving DecidableEq

/-- The answers of the services around one write: whether the provider is enabled, the arguments of a
spreadsheet whose target could be validated, the binding, the execution, and the commit of its result. -/
structure Attempt where
  available : Bool
  sheet : JsonObject → Option JsonObject
  bound : Bool
  execution : Execution
  recorded : Bool
  csv : Except String JsonObject
  now : Nat

/-- The canonical hash of the arguments of an effect, and the digest of an operation with it. -/
structure Hashes where
  arguments : String → String → JsonObject → String
  digest : String → String → String

/-- One change that outlives a crash: of the booking, or of the effect of a phase and revision, which is
claimed, started at the provider, and settled when its outcome is committed. -/
inductive Change where
  | upsert (booking : Booking)
  | claimed (effects : EffectStore)
  | started (phase : Phase) (revision : Nat)
  | settled (phase : Phase) (revision : Nat) (effects : EffectStore)
  deriving DecidableEq

/-- The first changes of a call, up to where the process stopped, or all of them. -/
def performed (changes : List Change) : Option Nat → List Change
  | none => changes
  | some cut => changes.take cut

inductive Written where
  | ok (result : JsonObject)
  | error (message : String)
  | raised
  deriving DecidableEq

def publicSinkError : String := "intake sink execution failed"

def publicIndeterminateSinkError : String := "intake sink outcome is indeterminate"

def unavailableSinkError : String := "Composio is not available for sink execution"

def unpinnedSinkError : String := "intake sink requires a pinned tenant connection and tool"

def missingRevisionError : String := "intake sink effect revision is missing"

/-- `effect_idempotency_key` of a booking with an identifier. -/
def effectIdempotencyKey (bookingId : String) (phase : Phase) (revision : Nat) : String :=
  "intake-sink:" ++ bookingId ++ ":" ++ phase.text ++ ":r" ++ toString revision

/-- `_enriched_payload` -/
def enrichedPayload (booking : Booking) (sender : Sender) (payload : JsonObject) (phase : Phase) : JsonObject :=
  let enriched := Dict.update payload
    [("booking_id", booking.bookingId), ("workflow_id", booking.workflowId), ("conversation_id", booking.conversationId),
      ("customer_id", booking.customerId), ("incoming_user_id", sender.userId),
      ("latest_inbound_sender_id", sender.userId), ("username", sender.username),
      ("latest_inbound_sender_username", sender.username)]
  match phase with
  | .partialFields => enriched
  | .completed | .cancelled => Dict.insert "status" phase.text enriched

/-- `_build_composio_arguments` -/
def buildComposioArguments (sink : Sink) (attempt : Attempt) (booking : Booking) (sender : Sender) (payload : JsonObject)
    (phase : Phase) : Option JsonObject :=
  let enriched := enrichedPayload booking sender payload phase
  match sink.sinkType with
  | .googleSheetsComposio => attempt.sheet enriched
  | .genericComposioWrite | .localCsv =>
    some (Dict.update sink.staticArguments
      (sink.fieldMapping.map fun mapped => (mapped.1, (Dict.get enriched mapped.2).getD "null")))

def sinkResult (sink : Sink) (bookingId data : String) : JsonObject :=
  [("booking_id", bookingId), ("data", data), ("sink_type", sink.sinkType.text), ("tool_slug", sink.toolSlug),
    ("toolkit", sink.toolkit)]

theorem effectIdempotencyKey_toList (bookingId : String) (phase : Phase) (revision : Nat) :
    (effectIdempotencyKey bookingId phase revision).toList =
      'i' :: ("ntake-sink:".toList ++ bookingId.toList ++ [':'] ++ phase.text.toList ++ [':', 'r']) ++
        Nat.toDigits 10 revision := by
  have front : "intake-sink:".toList = 'i' :: "ntake-sink:".toList := by decide
  have middle : ":".toList = [':'] := by decide
  have back : ":r".toList = [':', 'r'] := by decide
  simp [effectIdempotencyKey, String.toList_append, front, middle, back]

theorem strip_effectIdempotencyKey (bookingId : String) (phase : Phase) (revision : Nat) :
    strip (effectIdempotencyKey bookingId phase revision) = effectIdempotencyKey bookingId phase revision := by
  have shape := effectIdempotencyKey_toList bookingId phase revision
  have nonempty : (effectIdempotencyKey bookingId phase revision).toList ≠ [] := by
    rw [shape]
    simp
  apply strip_of_ends nonempty
  · simp only [shape, List.cons_append, List.head_cons]
    decide
  · have last : (effectIdempotencyKey bookingId phase revision).toList.getLast nonempty ∈ Nat.toDigits 10 revision := by
      simp only [shape]
      rw [List.getLast_append_of_ne_nil _ Nat.toDigits_ne_nil]
      exact List.getLast_mem _
    exact isSpace_of_isDigit (Nat.isDigit_of_mem_toDigits (by decide) (by decide) last)

/-- The digits at the end of a key are its revision. -/
theorem rtakeWhile_effectIdempotencyKey (bookingId : String) (phase : Phase) (revision : Nat) :
    (effectIdempotencyKey bookingId phase revision).toList.rtakeWhile Char.isDigit = Nat.toDigits 10 revision := by
  have digits : ∀ c ∈ (Nat.toDigits 10 revision).reverse, c.isDigit = true := fun c member =>
    Nat.isDigit_of_mem_toDigits (by decide) (by decide) (List.mem_reverse.mp member)
  rw [effectIdempotencyKey_toList, List.rtakeWhile, List.reverse_append, List.takeWhile_append_of_pos digits]
  simp

theorem requiredKey_revision {tenantId bookingId : String} {phase other : Phase} {revision next : Nat} {key : EffectKey}
    (first : requiredKey tenantId (effectIdempotencyKey bookingId phase revision) = .ok key)
    (second : requiredKey tenantId (effectIdempotencyKey bookingId other next) = .ok key) : revision = next := by
  have named : ∀ {phase revision}, requiredKey tenantId (effectIdempotencyKey bookingId phase revision) = .ok key →
      key.2 = effectIdempotencyKey bookingId phase revision := by
    intro phase revision done
    unfold requiredKey at done
    obtain ⟨tenant, _, done⟩ := Outcome.bind_eq_ok done
    obtain ⟨text, fits, done⟩ := Outcome.bind_eq_ok done
    cases done
    unfold required at fits
    rw [strip_effectIdempotencyKey] at fits
    dsimp only at fits
    split at fits
    · cases fits
    · split at fits
      · cases fits
      · cases fits
        rfl
  have same := congrArg (fun text => (String.toList text).rtakeWhile Char.isDigit) ((named first).symm.trans (named second))
  simp only [rtakeWhile_effectIdempotencyKey] at same
  have values := congrArg (fun digits => Nat.ofDigitChars 10 digits 0) same
  simpa using values

section Write

variable (hashes : Hashes)

/-- The claim that a write makes. -/
def effectRequest (sink : Sink) (booking : Booking) (phase : Phase) (arguments : JsonObject) : Request :=
  ⟨booking.customerId, "intake_sink." ++ sink.sinkType.text ++ "." ++ sink.toolSlug,
    effectIdempotencyKey booking.bookingId phase booking.sinkEffectRevision,
    hashes.arguments booking.bookingId sink.connectedAccountId arguments⟩

/-- The provider call under a claim, and the commit of its result. -/
def executeSink (effects : EffectStore) (sink : Sink) (booking : Booking) (phase : Phase) (request : Request)
    (attempt : Attempt) : List Change × Written :=
  let started := Change.started phase booking.sinkEffectRevision
  match attempt.execution with
  | .raised | .rejected => ([started], .error publicIndeterminateSinkError)
  | .succeeded data =>
    let result := sinkResult sink booking.bookingId data
    match attempt.recorded, complete effects request.tenantId request.idempotencyKey result attempt.now with
    | true, .ok effects => ([started, .settled phase booking.sinkEffectRevision effects], .ok result)
    | _, _ => ([started], .error publicIndeterminateSinkError)

/-- What the claim of a write leads to. -/
def claimEffect (effects : EffectStore) (sink : Sink) (booking : Booking) (phase : Phase) (request : Request)
    (attempt : Attempt) : List Change × Written :=
  match claim hashes.digest effects request attempt.now with
  | .ok (claimed, .created _) =>
    let (changes, written) := executeSink claimed sink booking phase request attempt
    (.claimed claimed :: changes, written)
  | .ok (_, .replayed result) => ([], .ok result)
  | .error .pending | .error .differentRequest | .error .previousFailed => ([], .error publicIndeterminateSinkError)
  | .error _ => ([], .raised)

/-- What refuses a write before its effect is claimed, or the arguments of the claim. -/
def preparedArguments (sink : Sink) (booking : Booking) (sender : Sender) (payload : JsonObject) (phase : Phase)
    (attempt : Attempt) : Except String JsonObject :=
  if !attempt.available then .error unavailableSinkError
  else if sink.toolkit.isEmpty || sink.toolSlug.isEmpty || sink.connectedAccountId.isEmpty then .error unpinnedSinkError
  else
    match buildComposioArguments sink attempt booking sender payload phase with
    | none => .error publicSinkError
    | some arguments =>
      if !attempt.bound then .error publicSinkError
      else if booking.sinkEffectRevision = 0 then .error missingRevisionError
      else .ok arguments

/-- `write_to_composio_sink` -/
def writeToComposioSink (effects : EffectStore) (sink : Sink) (booking : Booking) (sender : Sender) (payload : JsonObject)
    (phase : Phase) (attempt : Attempt) : List Change × Written :=
  match preparedArguments sink booking sender payload phase attempt with
  | .error message => ([], .error message)
  | .ok arguments => claimEffect hashes effects sink booking phase (effectRequest hashes sink booking phase arguments) attempt

/-- `write_to_sink` -/
def writeToSink (effects : EffectStore) (sink : Sink) (booking : Booking) (sender : Sender) (payload : JsonObject)
    (phase : Phase) (attempt : Attempt) : List Change × Written :=
  match sink.sinkType with
  | .localCsv =>
    match attempt.csv with
    | .ok result => ([], .ok result)
    | .error message => ([], .error message)
  | .googleSheetsComposio | .genericComposioWrite =>
    writeToComposioSink hashes effects sink booking sender payload phase attempt

/-- A write to a Composio sink is refused, or its claim is created, replayed or refused. -/
theorem writeToSink_changes (effects : EffectStore) {sink : Sink} (booking : Booking) (sender : Sender)
    (payload : JsonObject) (phase : Phase) (attempt : Attempt) (composio : sink.sinkType.composio = true) :
    (∃ message, preparedArguments sink booking sender payload phase attempt = .error message ∧
      writeToSink hashes effects sink booking sender payload phase attempt = ([], .error message)) ∨
    ∃ arguments, preparedArguments sink booking sender payload phase attempt = .ok arguments ∧
      writeToSink hashes effects sink booking sender payload phase attempt =
        claimEffect hashes effects sink booking phase (effectRequest hashes sink booking phase arguments) attempt := by
  have written : writeToSink hashes effects sink booking sender payload phase attempt =
      writeToComposioSink hashes effects sink booking sender payload phase attempt := by
    unfold writeToSink
    split
    · rename_i csv
      simp [SinkType.composio, csv] at composio
    · rfl
    · rfl
  rw [written]
  unfold writeToComposioSink
  cases prepared : preparedArguments sink booking sender payload phase attempt with
  | error message => exact Or.inl ⟨message, rfl, rfl⟩
  | ok arguments => exact Or.inr ⟨arguments, rfl, rfl⟩

/-- What follows the creation of a claim. -/
theorem executeSink_changes (effects : EffectStore) (sink : Sink) (booking : Booking) (phase : Phase) (request : Request)
    (attempt : Attempt) :
    executeSink effects sink booking phase request attempt =
      ([.started phase booking.sinkEffectRevision], .error publicIndeterminateSinkError) ∨
    ∃ result settled, complete effects request.tenantId request.idempotencyKey result attempt.now = .ok settled ∧
      executeSink effects sink booking phase request attempt =
        ([.started phase booking.sinkEffectRevision, .settled phase booking.sinkEffectRevision settled], .ok result) := by
  unfold executeSink
  dsimp only
  split
  · exact Or.inl rfl
  · exact Or.inl rfl
  · split
    · rename_i settled _ done
      exact Or.inr ⟨_, settled, done, rfl⟩
    · exact Or.inl rfl

/-- The claim of an effect: created and executed, replayed, in doubt, or not accepted at all. -/
theorem claimEffect_changes (effects : EffectStore) (sink : Sink) (booking : Booking) (phase : Phase) (request : Request)
    (attempt : Attempt) :
    (∃ claimed resolved, claim hashes.digest effects request attempt.now = .ok (claimed, .created resolved) ∧
      claimEffect hashes effects sink booking phase request attempt =
        (.claimed claimed :: (executeSink claimed sink booking phase request attempt).1,
          (executeSink claimed sink booking phase request attempt).2)) ∨
    (∃ store result, claim hashes.digest effects request attempt.now = .ok (store, .replayed result) ∧
      claimEffect hashes effects sink booking phase request attempt = ([], .ok result)) ∨
    (∃ error, claim hashes.digest effects request attempt.now = .error error ∧
      (error = .pending ∨ error = .differentRequest ∨ error = .previousFailed) ∧
      claimEffect hashes effects sink booking phase request attempt = ([], .error publicIndeterminateSinkError)) ∨
    ∃ error, claim hashes.digest effects request attempt.now = .error error ∧
      claimEffect hashes effects sink booking phase request attempt = ([], .raised) := by
  unfold claimEffect
  split
  · rename_i claimed resolved done
    exact Or.inl ⟨claimed, resolved, done, rfl⟩
  · rename_i store result done
    exact Or.inr (Or.inl ⟨store, result, done, rfl⟩)
  · rename_i done
    exact Or.inr (Or.inr (Or.inl ⟨.pending, done, by simp, rfl⟩))
  · rename_i done
    exact Or.inr (Or.inr (Or.inl ⟨.differentRequest, done, by simp, rfl⟩))
  · rename_i done
    exact Or.inr (Or.inr (Or.inl ⟨.previousFailed, done, by simp, rfl⟩))
  · rename_i error _ _ _ done
    exact Or.inr (Or.inr (Or.inr ⟨error, done, rfl⟩))

end Write

end OpenTulpa.Intake.SinkWriter
