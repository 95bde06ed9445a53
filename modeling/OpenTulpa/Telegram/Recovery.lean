import OpenTulpa.Library.Run
import OpenTulpa.Telegram.Streaming
import OpenTulpa.Telegram.Worker

/-! The attempts made for one update. A message or an answer to an approval that passes the checks of its chat starts
to consume the events of a run; once an event has come, every further attempt is made from the record of the run. -/

namespace OpenTulpa.Telegram.Recovery

open Library Text WorkerState Streaming

section Admission

structure Callback where
  id : String
  chatId : Option Int
  userId : Option Nat
  nonPrivate : Bool
  data : String
  deriving DecidableEq

/-- The updates that can lead to the events of a run. -/
inductive Arrival where
  | message (message : Worker.Message)
  | callback (callback : Callback)
  deriving DecidableEq

/-- What `_handle_message`, `_handle_callback` and `_handle_edited_arguments` pass on to `_consume_events`. -/
structure Admission where
  chatId : Int
  userId : Nat
  initialRunId : String
  token : Option String
  deriving DecidableEq

variable (bot : Worker.Bot) (parsesEdit : String → Bool)

/-- `awaiting_edit` -/
def awaitingEdit (s : TelegramWorkerState) (chatId : Int) : Option String :=
  (Dict.get s.awaitingEdits (toString chatId)).filter fun token => !token.isEmpty

/-- The approval of a token, where `_approval_matches`. -/
def matchingApproval (s : TelegramWorkerState) (token : String) (chatId : Int) (userId : Nat) : Option Approval :=
  (Dict.get s.approvals token).filter fun approval => approval.chatId == chatId && approval.userId == userId

/-- The identity of an update is the paired user, and in a private chat the paired chat. -/
def authorized (s : TelegramWorkerState) (chatId : Int) (userId : Nat) (nonPrivate : Bool) : Bool :=
  s.paired.any fun identity => identity.1 == userId && (nonPrivate || identity.2 == chatId)

/-- `_handle_edited_arguments`, as far as it goes on to the events of the run. -/
def admitEdited (s : TelegramWorkerState) (token : String) (chatId : Int) (userId : Nat) (text : String) :
    Option Admission :=
  match matchingApproval s token chatId userId with
  | none => none
  | some approval =>
    if (Worker.command bot text).1 == "/cancel" || !approval.allowedDecisions.contains .edit || !parsesEdit text then none
    else some ⟨chatId, userId, approval.runId, some token⟩

/-- A message that starts a run. -/
def admitRequest (message : Worker.Message) (chatId : Int) (userId : Nat) : Option Admission :=
  if Worker.answeredCommands.contains (Worker.command bot (Worker.addressedText bot message)).1 then none
  else if (Worker.sentText bot message).isEmpty && message.attachments.isEmpty then none
  else some ⟨chatId, userId, "", none⟩

/-- `_handle_message`, as far as it goes on to the events of a run. -/
def admitMessage (s : TelegramWorkerState) (message : Worker.Message) : Option Admission :=
  match message.chatId, message.userId with
  | some chatId, some userId =>
    if message.nonPrivate && !Worker.messageAddressesBot bot message then none
    else if !authorized s chatId userId message.nonPrivate then none
    else
      match awaitingEdit s chatId with
      | some token => admitEdited bot parsesEdit s token chatId userId (Worker.addressedText bot message)
      | none => admitRequest bot message chatId userId
  | _, _ => none

def decisionNamed : String → Option Decision
  | "approve" => some .approve
  | "edit" => some .edit
  | "reject" => some .reject
  | _ => none

/-- The token and the decision of `ot:token:decision`. -/
def parseCallback (data : String) : Option (String × Decision) :=
  match (data.toList.splitOn ':').map String.ofList with
  | [marker, token, decision] => if marker = "ot" then (decisionNamed decision).map fun named => (token, named) else none
  | _ => none

/-- An answer to an approval that resumes its run; an edit waits for the arguments first. -/
def admitDecision (s : TelegramWorkerState) (token : String) (decision : Decision) (chatId : Int) (userId : Nat) :
    Option Admission :=
  match matchingApproval s token chatId userId with
  | none => none
  | some approval =>
    if !approval.allowedDecisions.contains decision || decision == .edit then none
    else some ⟨chatId, userId, approval.runId, some token⟩

/-- `_handle_callback`, as far as it goes on to the events of a run. -/
def admitCallback (s : TelegramWorkerState) (callback : Callback) : Option Admission :=
  match callback.chatId, callback.userId, parseCallback callback.data with
  | some chatId, some userId, some (token, decision) =>
    if callback.id.isEmpty || !authorized s chatId userId callback.nonPrivate then none
    else admitDecision s token decision chatId userId
  | _, _, _ => none

def admitUpdate (s : TelegramWorkerState) : Arrival → Option Admission
  | .message message => admitMessage bot parsesEdit s message
  | .callback callback => admitCallback s callback

end Admission

section Attempts

variable (maxSeen : Nat) (bot : Worker.Bot) (parsesEdit : String → Bool) (updateId : Nat) (arrival : Arrival)

def Admission.consumption (admission : Admission) : Consumption where
  sourceEventId := Worker.sourceEventId bot updateId
  updateId := updateId
  chatId := admission.chatId
  userId := admission.userId
  consumedApprovalToken := admission.token

/-- An update that is answered without a run is completed. -/
def answered (s : TelegramWorkerState) : Consumed :=
  ⟨after s (s.completeUpdate maxSeen updateId (Worker.sourceEventId bot updateId) none), .completed, none⟩

/-- `process` in `_process_accepted_update`: the source was seen, the run has a record, or the update is handled. -/
def processUpdate (s : TelegramWorkerState) (attempt : Attempt) : Consumed :=
  if s.seenSourceEvents.contains (Worker.sourceEventId bot updateId) then answered maxSeen bot updateId s
  else
    match Dict.get s.pendingRuns (Worker.sourceEventId bot updateId) with
    | some record => recoverPendingRecord maxSeen s record attempt
    | none =>
      match admitUpdate bot parsesEdit s arrival with
      | none => answered maxSeen bot updateId s
      | some admission =>
        consume maxSeen (admission.consumption bot updateId) s (.initial admission.initialRunId) attempt.rounds
          attempt.waiting

/-- The state after some attempts, and how the last one ended. An update whose attempt raised is attempted again. -/
structure Attempted where
  state : TelegramWorkerState
  ending : Ending

def step (attempted : Attempted) (attempt : Attempt) : Attempted :=
  if attempted.ending != .raised then attempted
  else
    let result := processUpdate maxSeen bot parsesEdit updateId arrival attempted.state attempt
    ⟨result.state, result.ending⟩

def attempts (s : TelegramWorkerState) (made : List Attempt) : Attempted :=
  Run.exec (step maxSeen bot parsesEdit updateId arrival) ⟨s, .raised⟩ made

end Attempts

section Identities

variable {maxSeen : Nat} {c : Consumption}

/-- The paired identity and the sources seen are as given, and a record names its update, its chat and a run. -/
structure Bound (c : Consumption) (paired : Option (Nat × Int)) (seen : List String) (s : TelegramWorkerState) : Prop where
  identity : s.paired = paired
  sources : s.seenSourceEvents = seen
  record : ∀ found, held c s = some found →
    found.sourceEventId = c.sourceEventId ∧ found.chatId = c.chatId ∧ found.runId ≠ ""

variable {paired : Option (Nat × Int)} {seen : List String} {s : TelegramWorkerState}

theorem Bound.deliver (bound : Bound c paired seen s) (deliveries : List Delivery) :
    Bound c paired seen (deliver c s deliveries) where
  identity := (congrArg Prod.fst (aside_deliver deliveries)).trans bound.identity
  sources := (congrArg (fun part => part.2.2.2) (aside_deliver deliveries)).trans bound.sources
  record := by
    rw [held_deliver]
    exact bound.record

theorem Bound.save (bound : Bound c paired seen s) {stream : Stream} (named : stream.runId ≠ "") :
    Bound c paired seen (save c s stream) where
  identity := bound.identity
  sources := bound.sources
  record := by
    intro found saved
    rw [held_save] at saved
    obtain rfl := Option.some.inj saved
    exact ⟨rfl, rfl, named⟩

theorem Bound.grown (bound : Bound c paired seen s) {recorded : TelegramWorkerState} (grown : Grown s recorded) :
    Bound c paired seen recorded := by
  rcases grown with rfl | ⟨token, approval, rfl⟩
  · exact bound
  · exact ⟨bound.identity, bound.sources, bound.record⟩

/-- A consumption that raises leaves the identities as they were. -/
theorem consume_bound {stream : Stream} {rounds : List Round} {waiting : List Delivery} (bound : Bound c paired seen s)
    (raised : (consume maxSeen c s stream rounds waiting).ending = .raised) :
    Bound c paired seen (consume maxSeen c s stream rounds waiting).state := by
  revert raised
  refine consume_rule (Bound c paired seen) (fun result => result.ending = .raised → Bound c paired seen result.state)
    (fun _ deliveries bound => bound.deliver deliveries) (fun _ _ named bound => bound.save named)
    (fun _ bound _ => bound) ?_ bound
  intro state stream round bound
  have settled : Settled maxSeen c state (settle maxSeen c state stream round) := settle_settled
  generalize settle maxSeen c state stream round = result at settled ⊢
  cases settled with
  | raised grown deliveries finishing => exact fun _ => (bound.grown grown).deliver deliveries
  | ended deliveries final finishing =>
    rintro rfl
    exact final.elim (by rintro ⟨⟩) (by rintro ⟨⟩)
  | approval grown deliveries token sent => rintro ⟨⟩

theorem Bound.congr {other : Consumption} (bound : Bound c paired seen s) (source : other.sourceEventId = c.sourceEventId)
    (chat : other.chatId = c.chatId) : Bound other paired seen s where
  identity := bound.identity
  sources := bound.sources
  record := by
    intro found here
    have there : held c s = some found := by
      unfold held at here ⊢
      rwa [source] at here
    obtain ⟨named, placed, run⟩ := bound.record found there
    exact ⟨named.trans source.symm, placed.trans chat.symm, run⟩

end Identities

section Chats

variable {bot : Worker.Bot} {parsesEdit : String → Bool} {s : TelegramWorkerState} {admission : Admission}

def Arrival.chatId (arrival : Arrival) : Option Int :=
  match arrival with
  | .message content => content.chatId
  | .callback answer => answer.chatId

theorem admitEdited_shape {token text : String} {chatId : Int} {userId : Nat}
    (admitted : admitEdited bot parsesEdit s token chatId userId text = some admission) :
    ∃ approval, Dict.get s.approvals token = some approval ∧
      admission = ⟨chatId, userId, approval.runId, some token⟩ := by
  unfold admitEdited at admitted
  split at admitted
  · cases admitted
  · rename_i approval found
    split at admitted
    · cases admitted
    · exact ⟨approval, (Option.filter_eq_some_iff.mp found).1, (Option.some.inj admitted).symm⟩

theorem admitDecision_shape {token : String} {decision : Decision} {chatId : Int} {userId : Nat}
    (admitted : admitDecision s token decision chatId userId = some admission) :
    ∃ approval, Dict.get s.approvals token = some approval ∧
      admission = ⟨chatId, userId, approval.runId, some token⟩ := by
  unfold admitDecision at admitted
  split at admitted
  · cases admitted
  · rename_i approval found
    split at admitted
    · cases admitted
    · exact ⟨approval, (Option.filter_eq_some_iff.mp found).1, (Option.some.inj admitted).symm⟩

/-- What is admitted keeps the chat of the update, and has an approval behind its token. -/
theorem admitUpdate_shape {arrival : Arrival} (admitted : admitUpdate bot parsesEdit s arrival = some admission) :
    arrival.chatId = some admission.chatId ∧
      ∀ token, admission.token = some token → (Dict.get s.approvals token).isSome = true := by
  cases arrival with
  | message message =>
    simp only [admitUpdate, admitMessage] at admitted
    split at admitted
    · rename_i chatId userId chat user
      split at admitted
      · cases admitted
      · split at admitted
        · cases admitted
        · split at admitted
          · rename_i token _
            obtain ⟨approval, found, rfl⟩ := admitEdited_shape admitted
            refine ⟨chat, ?_⟩
            rintro _ ⟨rfl⟩
            rw [found]
            rfl
          · unfold admitRequest at admitted
            split at admitted
            · cases admitted
            · split at admitted
              · cases admitted
              · cases admitted
                exact ⟨chat, by rintro _ ⟨⟩⟩
    · cases admitted
  | callback callback =>
    simp only [admitUpdate, admitCallback] at admitted
    split at admitted
    · rename_i chatId userId token decision chat user parsed
      split at admitted
      · cases admitted
      · obtain ⟨approval, found, rfl⟩ := admitDecision_shape admitted
        refine ⟨chat, ?_⟩
        rintro _ ⟨rfl⟩
        rw [found]
        rfl
    · cases admitted

end Chats

section Recoverable

variable {maxSeen : Nat} {bot : Worker.Bot} {parsesEdit : String → Bool} {updateId : Nat} {arrival : Arrival}
  {s : TelegramWorkerState} {admission : Admission}

theorem unseen_of_bound {c : Consumption} {paired : Option (Nat × Int)} {seen : List String}
    (bound : Bound c paired seen s) {source : String} (unseen : seen.contains source = false) :
    s.seenSourceEvents.contains source = false := by
  rw [bound.sources]
  exact unseen

/-- An attempt that raises leaves the identities of the update as they were. -/
theorem processUpdate_bound {paired : Option (Nat × Int)} {seen : List String} (chat : arrival.chatId = some admission.chatId)
    (unseen : seen.contains (Worker.sourceEventId bot updateId) = false)
    (bound : Bound (admission.consumption bot updateId) paired seen s) (attempt : Attempt)
    (raised : (processUpdate maxSeen bot parsesEdit updateId arrival s attempt).ending = .raised) :
    Bound (admission.consumption bot updateId) paired seen
      (processUpdate maxSeen bot parsesEdit updateId arrival s attempt).state := by
  unfold processUpdate at raised ⊢
  rw [unseen_of_bound bound unseen] at raised ⊢
  simp only [Bool.false_eq_true, if_false] at raised ⊢
  split at raised
  · rename_i record found
    have here : held (admission.consumption bot updateId) s = some (progress record) := by
      unfold held
      rw [show (admission.consumption bot updateId).sourceEventId = Worker.sourceEventId bot updateId from rfl, found]
      rfl
    obtain ⟨source, placed, -⟩ := bound.record _ here
    unfold recoverPendingRecord at raised ⊢
    split at raised
    · rename_i passes
      rw [if_pos passes]
      have taken : Bound (recoveredConsumption s record) paired seen s := bound.congr source placed
      exact (consume_bound taken raised).congr source.symm placed.symm
    · rename_i refused
      rw [if_neg refused]
      exact bound
  · split at raised
    · cases raised
    · rename_i other again
      have placed : admission.chatId = other.chatId := Option.some.inj (chat.symm.trans (admitUpdate_shape again).1)
      have taken : Bound (other.consumption bot updateId) paired seen s := bound.congr rfl placed.symm
      exact (consume_bound taken raised).congr rfl placed

theorem attempts_bound (admitted : admitUpdate bot parsesEdit s arrival = some admission)
    (unseen : s.seenSourceEvents.contains (Worker.sourceEventId bot updateId) = false)
    (fresh : Dict.get s.pendingRuns (Worker.sourceEventId bot updateId) = none) (made : List Attempt)
    (raised : (attempts maxSeen bot parsesEdit updateId arrival s made).ending = .raised) :
    Bound (admission.consumption bot updateId) s.paired s.seenSourceEvents
      (attempts maxSeen bot parsesEdit updateId arrival s made).state := by
  let Inv := fun attempted : Attempted => attempted.ending = .raised →
    Bound (admission.consumption bot updateId) s.paired s.seenSourceEvents attempted.state
  have preserved : ∀ attempted attempt, Inv attempted →
      Inv (step maxSeen bot parsesEdit updateId arrival attempted attempt) := by
    intro attempted attempt inv
    unfold step
    split
    · exact inv
    · rename_i pending
      exact fun raised => processUpdate_bound (admitUpdate_shape admitted).1 unseen (inv (by simpa using pending)) attempt raised
  have start : Inv ⟨s, .raised⟩ := by
    refine fun _ => ⟨rfl, rfl, ?_⟩
    intro found here
    unfold held at here
    rw [show (admission.consumption bot updateId).sourceEventId = Worker.sourceEventId bot updateId from rfl, fresh] at here
    cases here
  exact Run.exec_invariant preserved start made raised

theorem sourceEventId_ne_empty (bot : Worker.Bot) (updateId : Nat) : Worker.sourceEventId bot updateId ≠ "" := by
  intro empty
  have length := congrArg String.length empty
  simp [Worker.sourceEventId, String.length_append] at length

/-- The first attempt on an update that is let through. -/
theorem processUpdate_fresh (admitted : admitUpdate bot parsesEdit s arrival = some admission)
    (unseen : s.seenSourceEvents.contains (Worker.sourceEventId bot updateId) = false)
    (fresh : Dict.get s.pendingRuns (Worker.sourceEventId bot updateId) = none) (attempt : Attempt) :
    processUpdate maxSeen bot parsesEdit updateId arrival s attempt =
      consume maxSeen (admission.consumption bot updateId) s (.initial admission.initialRunId) attempt.rounds
        attempt.waiting := by
  unfold processUpdate
  rw [unseen, fresh, admitted]
  simp

/-- The first event of the run that an update waits for, cut off while it is shown. -/
def cutOff (initialRunId : String) : Round where
  waiting := []
  event :=
    if named : initialRunId = "" then ⟨"run", 1, .other, by decide, le_rfl⟩ else ⟨initialRunId, 1, .other, named, le_rfl⟩
  shown := []
  stopped := true
  token := ""
  sent := false

theorem cutOff_agrees (initialRunId : String) : (Stream.initial initialRunId).agrees (cutOff initialRunId).event = true := by
  unfold Stream.agrees Stream.initial cutOff
  split
  · rename_i empty
    simp [empty]
  · simp

theorem cutOff_event (initialRunId : String) :
    (cutOff initialRunId).event.sequence = 1 ∧ (cutOff initialRunId).event.data = .other := by
  unfold cutOff
  split <;> exact ⟨rfl, rfl⟩

/-- An update whose first event is cut off leaves a record of its chat. -/
theorem processUpdate_cutOff (admitted : admitUpdate bot parsesEdit s arrival = some admission)
    (unseen : s.seenSourceEvents.contains (Worker.sourceEventId bot updateId) = false)
    (fresh : Dict.get s.pendingRuns (Worker.sourceEventId bot updateId) = none) :
    processUpdate maxSeen bot parsesEdit updateId arrival s ⟨[cutOff admission.initialRunId], []⟩ =
      ⟨saved (admission.consumption bot updateId) s (.initial admission.initialRunId) (cutOff admission.initialRunId),
        .raised, none⟩ := by
  obtain ⟨sequence, data⟩ := cutOff_event admission.initialRunId
  have taken : (Stream.initial admission.initialRunId).takes (cutOff admission.initialRunId).event = true := by
    simp [Stream.takes, Stream.initial, sequence]
  have goes : (cutOff admission.initialRunId).event.data.settlesStream = false := by
    rw [data]
    rfl
  rw [processUpdate_fresh admitted unseen fresh]
  exact consume_stopped (cutOff_agrees _) taken goes rfl

/-- Whatever interrupts an update that is let through, its record can be recovered from, if and only if the update
comes from the paired chat. -/
theorem interrupted_update_recoverable_iff (maxSeen : Nat) (bot : Worker.Bot) (parsesEdit : String → Bool) (updateId : Nat)
    (arrival : Arrival) (s : TelegramWorkerState) (admission : Admission)
    (admitted : admitUpdate bot parsesEdit s arrival = some admission)
    (unseen : s.seenSourceEvents.contains (Worker.sourceEventId bot updateId) = false)
    (fresh : Dict.get s.pendingRuns (Worker.sourceEventId bot updateId) = none) :
    (∀ made, (attempts maxSeen bot parsesEdit updateId arrival s made).ending = .raised → ∀ record,
      Dict.get (attempts maxSeen bot parsesEdit updateId arrival s made).state.pendingRuns
        (Worker.sourceEventId bot updateId) = some record →
      recoverable (attempts maxSeen bot parsesEdit updateId arrival s made).state record = true) ↔
    s.paired.map Prod.snd = arrival.chatId := by
  rw [(admitUpdate_shape admitted).1]
  constructor
  · intro always
    let c := admission.consumption bot updateId
    let cut := saved c s (.initial admission.initialRunId) (cutOff admission.initialRunId)
    have attempted : attempts maxSeen bot parsesEdit updateId arrival s [⟨[cutOff admission.initialRunId], []⟩] =
        ⟨cut, .raised⟩ := by
      change step maxSeen bot parsesEdit updateId arrival ⟨s, .raised⟩ _ = _
      unfold step
      rw [processUpdate_cutOff admitted unseen fresh]
      rfl
    obtain ⟨record, found, is⟩ := Option.map_eq_some_iff.mp (held_save (c := c) (s := s) _)
    have recovered := always _ (congrArg Attempted.ending attempted) record (by rw [attempted]; exact found)
    rw [attempted] at recovered
    obtain ⟨identity, owner, passes⟩ := (Option.any_eq_true _ _).mp recovered
    have placed : record.chatId = admission.chatId := congrArg Progress.chatId is
    have same : identity.2 = record.chatId := by
      simp only [Bool.and_eq_true, beq_iff_eq] at passes
      exact passes.1.1
    have kept : cut.paired = s.paired := rfl
    rw [← kept, owner]
    simp [same, placed]
  · intro paired made raised record found
    have bound := attempts_bound admitted unseen fresh made raised
    obtain ⟨source, placed, named⟩ := bound.record (progress record) (by simp [held, Admission.consumption, found])
    obtain ⟨identity, owner, chat⟩ := Option.map_eq_some_iff.mp paired
    have source : record.sourceEventId = Worker.sourceEventId bot updateId := source
    have placed : record.chatId = admission.chatId := placed
    have named : record.runId ≠ "" := named
    have filled := sourceEventId_ne_empty bot updateId
    unfold recoverable
    rw [bound.identity, owner]
    simp [chat, placed, source, named, filled]

def sampleBot : Worker.Bot := ⟨7, "tulpa_bot", lower⟩

def pairedState : TelegramWorkerState := { defaultState with paired := some (5, 50) }

def privateRequest : Arrival := .message ⟨some 5, some 50, false, "Buy milk", "", none, []⟩

def groupRequest : Arrival := .message ⟨some 5, some (-90), true, "@tulpa_bot Buy milk", "", none, []⟩

theorem interrupted_update_recoverable_iff_private :
    recoverable (attempts 5000 sampleBot (fun _ => true) 1 privateRequest pairedState [⟨[cutOff ""], []⟩]).state
      ⟨Worker.sourceEventId sampleBot 1, 1, "run", 50, 0, "", none, ""⟩ = true := by
  have admitted : admitUpdate sampleBot (fun _ => true) pairedState privateRequest = some ⟨50, 5, "", none⟩ := by
    decide +kernel
  exact (interrupted_update_recoverable_iff 5000 sampleBot (fun _ => true) 1 privateRequest pairedState _ admitted rfl
    rfl).mpr rfl [⟨[cutOff ""], []⟩] (by decide +kernel) _ (by decide +kernel)

/-- A request of the paired user in a group is let through, and is refused once it was interrupted. -/
theorem interrupted_group_request_refused :
    (admitUpdate sampleBot (fun _ => true) pairedState groupRequest).isSome = true ∧
      ∃ record,
        (attempts 5000 sampleBot (fun _ => true) 1 groupRequest pairedState [⟨[cutOff ""], []⟩]).ending = .raised ∧
        Dict.get (attempts 5000 sampleBot (fun _ => true) 1 groupRequest pairedState [⟨[cutOff ""], []⟩]).state.pendingRuns
          (Worker.sourceEventId sampleBot 1) = some record ∧
        recoverable (attempts 5000 sampleBot (fun _ => true) 1 groupRequest pairedState [⟨[cutOff ""], []⟩]).state record =
          false := by
  refine ⟨by decide +kernel, ⟨Worker.sourceEventId sampleBot 1, 1, "run", -90, 0, "", none, ""⟩, ?_, ?_, ?_⟩
  · decide +kernel
  · decide +kernel
  · decide +kernel

end Recoverable

section Tokens

variable {maxSeen : Nat} {c : Consumption} {s : TelegramWorkerState} {token : String}

/-- A token that is neither an approval nor waits for edited arguments. -/
def Absent (token : String) (s : TelegramWorkerState) : Prop :=
  Dict.get s.approvals token = none ∧ ∀ entry ∈ s.awaitingEdits, entry.2 ≠ token

def Offered (token : String) (s : TelegramWorkerState) : Prop := (Dict.get s.approvals token).isSome = true

theorem Offered.not_absent (offered : Offered token s) : ¬ Absent token s := by
  intro absent
  unfold Offered at offered
  rw [absent.1] at offered
  cases offered

theorem complete_absent (filled : token ≠ "") : Absent token (complete maxSeen c s (some token)) := by
  have kept : (some token).filter (fun value => !value.isEmpty) = some token := by simp [filled]
  constructor
  · simp [complete, TelegramWorkerState.completeUpdate, kept, after]
  · simp [complete, TelegramWorkerState.completeUpdate, kept, after]

theorem Absent.deliverApproval (absent : Absent token s) {other : String} (differs : other ≠ token) (sent : Bool) :
    Absent token (deliverApproval s other sent) := by
  rcases deliverApproval_shape (s := s) other sent with same | ⟨approval, -, written⟩
  · rw [same]
    exact absent
  · rw [written]
    refine ⟨?_, absent.2⟩
    exact (Dict.get_insert_of_ne differs.symm _ _).trans absent.1

/-- A consumption that carries a token and ends elsewhere than at it removes it. -/
theorem consume_absent {stream : Stream} {rounds : List Round} {waiting : List Delivery}
    (carried : c.consumedApprovalToken = some token) (filled : token ≠ "")
    (ends : (consume maxSeen c s stream rounds waiting).ending ≠ .raised)
    (elsewhere : (consume maxSeen c s stream rounds waiting).ending ≠ .approval token) :
    Absent token (consume maxSeen c s stream rounds waiting).state := by
  revert ends elsewhere
  refine consume_rule (fun _ => True)
    (fun result => result.ending ≠ .raised → result.ending ≠ .approval token → Absent token result.state)
    (fun _ _ _ => trivial) (fun _ _ _ _ => trivial) (fun _ _ ends => absurd rfl ends) ?_ trivial
  intro state stream round _
  have settled : Settled maxSeen c state (settle maxSeen c state stream round) := settle_settled
  generalize settle maxSeen c state stream round = result at settled ⊢
  cases settled with
  | raised grown deliveries finishing => exact fun ends => absurd rfl ends
  | ended deliveries final finishing =>
    intro _ _
    rw [carried]
    exact complete_absent filled
  | approval grown deliveries other sent =>
    intro _ elsewhere
    have differs : other ≠ token := fun same => elsewhere (congrArg Ending.approval same)
    have consumed : (if c.consumedApprovalToken ≠ some other then c.consumedApprovalToken else none) = some token := by
      rw [carried, if_pos fun same => differs (Option.some.inj same).symm]
    dsimp only
    rw [consumed]
    exact (complete_absent filled).deliverApproval differs sent

theorem Offered.inserted (offered : Offered token s) (other : String) (approval : Approval) :
    (Dict.get (Dict.insert other approval s.approvals) token).isSome = true := by
  rcases eq_or_ne token other with rfl | differs
  · rw [Dict.get_insert_self]
    rfl
  · rw [Dict.get_insert_of_ne differs]
    exact offered

theorem Offered.of_aside {other : TelegramWorkerState} (offered : Offered token s) (same : aside other = aside s) :
    Offered token other := by
  have approvals : other.approvals = s.approvals := congrArg (fun part => part.2.1) same
  unfold Offered at offered ⊢
  rwa [approvals]

theorem Offered.grown (offered : Offered token s) {recorded : TelegramWorkerState} (grown : Grown s recorded) :
    Offered token recorded := by
  rcases grown with rfl | ⟨other, approval, rfl⟩
  · exact offered
  · exact offered.inserted other approval

theorem Offered.deliverApproval (offered : Offered token s) (other : String) (sent : Bool) :
    Offered token (deliverApproval s other sent) := by
  rcases deliverApproval_shape (s := s) other sent with same | ⟨approval, -, written⟩
  · rw [same]
    exact offered
  · rw [written]
    exact offered.inserted other _

theorem Offered.complete (offered : Offered token s) : Offered token (complete maxSeen c s none) := offered

/-- The token is offered and the update has a record. -/
structure Kept (c : Consumption) (token : String) (s : TelegramWorkerState) : Prop where
  offered : Offered token s
  record : (held c s).isSome = true

theorem Kept.deliver (kept : Kept c token s) (deliveries : List Delivery) : Kept c token (deliver c s deliveries) where
  offered := kept.offered.of_aside (aside_deliver deliveries)
  record := by
    rw [held_deliver]
    exact kept.record

theorem Offered.save (offered : Offered token s) (stream : Stream) : Kept c token (save c s stream) where
  offered := offered.of_aside (aside_save stream)
  record := by
    rw [held_save]
    rfl

theorem Kept.grown (kept : Kept c token s) {recorded : TelegramWorkerState} (grown : Grown s recorded) :
    Kept c token recorded where
  offered := kept.offered.grown grown
  record := by
    rcases grown with rfl | ⟨other, approval, rfl⟩
    · exact kept.record
    · exact kept.record

/-- A settling event that raises keeps the token and the record. -/
theorem settle_kept {stream : Stream} {round : Round} (kept : Kept c token s)
    (raised : (settle maxSeen c s stream round).ending = .raised) :
    Kept c token (settle maxSeen c s stream round).state := by
  have settled : Settled maxSeen c s (settle maxSeen c s stream round) := settle_settled
  generalize settle maxSeen c s stream round = result at settled raised ⊢
  cases settled with
  | raised grown deliveries finishing => exact (kept.grown grown).deliver deliveries
  | ended deliveries final finishing =>
    cases raised
    exact final.elim (by rintro ⟨⟩) (by rintro ⟨⟩)
  | approval grown deliveries other sent => cases raised

/-- What raises behind a record keeps the token and the record. -/
theorem consume_kept {stream : Stream} {rounds : List Round} {waiting : List Delivery} (kept : Kept c token s)
    (raised : (consume maxSeen c s stream rounds waiting).ending = .raised) :
    Kept c token (consume maxSeen c s stream rounds waiting).state := by
  revert raised
  exact consume_rule (Kept c token) (fun result => result.ending = .raised → Kept c token result.state)
    (fun _ deliveries kept => kept.deliver deliveries) (fun _ stream _ kept => kept.offered.save stream)
    (fun _ kept _ => kept) (fun _ _ _ kept raised => settle_kept kept raised) kept

/-- A consumption that carries no token keeps every token. -/
theorem consume_offered {stream : Stream} {rounds : List Round} {waiting : List Delivery}
    (bare : c.consumedApprovalToken = none) (offered : Offered token s) :
    Offered token (consume maxSeen c s stream rounds waiting).state := by
  refine consume_rule (Offered token) (fun result => Offered token result.state)
    (fun _ deliveries offered => offered.of_aside (aside_deliver deliveries))
    (fun _ stream _ offered => offered.of_aside (aside_save (c := c) stream)) (fun _ offered => offered) ?_ offered
  intro state stream round offered
  have settled : Settled maxSeen c state (settle maxSeen c state stream round) := settle_settled
  generalize settle maxSeen c state stream round = result at settled ⊢
  cases settled with
  | raised grown deliveries finishing => exact (offered.grown grown).of_aside (aside_deliver deliveries)
  | ended deliveries final finishing =>
    rw [bare]
    exact (offered.of_aside (aside_deliver deliveries)).complete
  | approval grown deliveries other sent =>
    rw [bare, ite_self]
    exact ((offered.grown grown).of_aside (aside_deliver deliveries)).complete.deliverApproval other sent

end Tokens

section Consumed

variable {maxSeen : Nat} {bot : Worker.Bot} {parsesEdit : String → Bool} {updateId : Nat} {arrival : Arrival}
  {s : TelegramWorkerState} {admission : Admission} {token : String}

/-- An event of the run reaches an attempt that is made without a record. -/
def reaches (initialRunId : String) (attempt : Attempt) : Bool :=
  attempt.rounds.head?.any fun round => (Stream.initial initialRunId).agrees round.event

theorem initial_takes (initialRunId : String) (event : Event) : (Stream.initial initialRunId).takes event = true :=
  decide_eq_true event.positive

/-- An attempt that no event of the run reaches leaves nothing behind. -/
theorem consume_unreached {c : Consumption} {initialRunId : String} {attempt : Attempt}
    (fresh : Dict.get s.pendingRuns c.sourceEventId = none) (silent : reaches initialRunId attempt = false) :
    consume maxSeen c s (.initial initialRunId) attempt.rounds attempt.waiting = ⟨s, .raised, none⟩ := by
  unfold reaches at silent
  cases rounds : attempt.rounds with
  | nil =>
    unfold consume
    rw [deliver_of_none fresh]
  | cons round rest =>
    rw [rounds] at silent
    rw [consume_foreign silent, deliver_of_none fresh]

/-- An attempt that an event of the run reaches, and that raises, leaves a record. -/
theorem consume_reached {c : Consumption} {initialRunId : String} {attempt : Attempt} (offered : Offered token s)
    (reached : reaches initialRunId attempt = true)
    (raised : (consume maxSeen c s (.initial initialRunId) attempt.rounds attempt.waiting).ending = .raised) :
    Kept c token (consume maxSeen c s (.initial initialRunId) attempt.rounds attempt.waiting).state := by
  unfold reaches at reached
  cases rounds : attempt.rounds with
  | nil =>
    rw [rounds] at reached
    cases reached
  | cons round rest =>
    rw [rounds] at reached raised
    have taken := initial_takes initialRunId round.event
    have waited : Offered token (deliver c s round.waiting) := offered.of_aside (aside_deliver round.waiting)
    have recorded : Kept c token (saved c s (.initial initialRunId) round) := waited.save _
    cases settling : round.event.data.settlesStream with
    | true =>
      rw [consume_settling reached taken settling] at raised ⊢
      exact settle_kept (recorded.offered.save _) raised
    | false =>
      have shown := recorded.deliver round.shown
      cases stopped : round.stopped with
      | true =>
        rw [consume_stopped reached taken settling stopped]
        exact shown
      | false =>
        rw [consume_next reached taken settling stopped] at raised ⊢
        exact consume_kept (shown.offered.save _) raised

theorem Kept.congr {c other : Consumption} (kept : Kept c token s) (source : other.sourceEventId = c.sourceEventId) :
    Kept other token s where
  offered := kept.offered
  record := by
    unfold held
    rw [source]
    exact kept.record

/-- Behind a record the token stays, and so does the record until an attempt ends. -/
theorem processUpdate_kept {c : Consumption} {paired : Option (Nat × Int)} {seen : List String}
    (source : c.sourceEventId = Worker.sourceEventId bot updateId)
    (unseen : seen.contains (Worker.sourceEventId bot updateId) = false) (bound : Bound c paired seen s)
    (kept : Kept c token s) (attempt : Attempt) :
    Offered token (processUpdate maxSeen bot parsesEdit updateId arrival s attempt).state ∧
      ((processUpdate maxSeen bot parsesEdit updateId arrival s attempt).ending = .raised →
        Kept c token (processUpdate maxSeen bot parsesEdit updateId arrival s attempt).state) := by
  obtain ⟨found, here⟩ := Option.isSome_iff_exists.mp kept.record
  obtain ⟨record, present, is⟩ := Option.map_eq_some_iff.mp here
  obtain ⟨named, -, -⟩ := bound.record found here
  have origin : (recoveredConsumption s record).sourceEventId = c.sourceEventId :=
    (congrArg Progress.sourceEventId is).trans named
  rw [source] at present
  unfold processUpdate
  rw [unseen_of_bound bound unseen, present]
  simp only [Bool.false_eq_true, if_false]
  unfold recoverPendingRecord
  split
  · refine ⟨consume_offered rfl kept.offered, fun raised => ?_⟩
    exact (consume_kept (kept.congr origin) raised).congr origin.symm
  · exact ⟨kept.offered, fun _ => kept⟩

/-- The token is offered, and an update that is attempted again has its record. -/
structure Held (c : Consumption) (paired : Option (Nat × Int)) (seen : List String) (token : String)
    (attempted : Attempted) : Prop where
  offered : Offered token attempted.state
  again : attempted.ending = .raised → Kept c token attempted.state ∧ Bound c paired seen attempted.state

theorem step_held {paired : Option (Nat × Int)} {seen : List String} (chat : arrival.chatId = some admission.chatId)
    (unseen : seen.contains (Worker.sourceEventId bot updateId) = false) (attempted : Attempted) (attempt : Attempt)
    (here : Held (admission.consumption bot updateId) paired seen token attempted) :
    Held (admission.consumption bot updateId) paired seen token
      (step maxSeen bot parsesEdit updateId arrival attempted attempt) := by
  unfold step
  split
  · exact here
  · rename_i pending
    obtain ⟨kept, bound⟩ := here.again (by simpa using pending)
    exact ⟨(processUpdate_kept rfl unseen bound kept attempt).1, fun raised =>
      ⟨(processUpdate_kept rfl unseen bound kept attempt).2 raised, processUpdate_bound chat unseen bound attempt raised⟩⟩

/-- Attempts that no event of the run reaches leave nothing behind. -/
theorem attempts_unreached (admitted : admitUpdate bot parsesEdit s arrival = some admission)
    (unseen : s.seenSourceEvents.contains (Worker.sourceEventId bot updateId) = false)
    (fresh : Dict.get s.pendingRuns (Worker.sourceEventId bot updateId) = none) {made : List Attempt}
    (silent : ∀ attempt ∈ made, reaches admission.initialRunId attempt = false) :
    attempts maxSeen bot parsesEdit updateId arrival s made = ⟨s, .raised⟩ := by
  induction made with
  | nil => rfl
  | cons attempt rest ih =>
    have still : step maxSeen bot parsesEdit updateId arrival ⟨s, .raised⟩ attempt = ⟨s, .raised⟩ := by
      unfold step
      rw [processUpdate_fresh admitted unseen fresh, consume_unreached fresh (silent attempt List.mem_cons_self)]
      rfl
    unfold attempts
    rw [Run.exec_cons, still]
    exact ih fun other member => silent other (List.mem_cons_of_mem _ member)

theorem attempts_ended {attempted : Attempted} (ended : attempted.ending ≠ .raised) (made : List Attempt) :
    Run.exec (step maxSeen bot parsesEdit updateId arrival) attempted made = attempted := by
  induction made with
  | nil => rfl
  | cons attempt rest ih =>
    have still : step maxSeen bot parsesEdit updateId arrival attempted attempt = attempted := by
      unfold step
      rw [if_pos (by simpa using ended)]
    rw [Run.exec_cons, still]
    exact ih

/-- Once an event of the run has reached an interrupted attempt, the token stays. -/
theorem attempts_reached (admitted : admitUpdate bot parsesEdit s arrival = some admission) (offered : Offered token s)
    (unseen : s.seenSourceEvents.contains (Worker.sourceEventId bot updateId) = false)
    (fresh : Dict.get s.pendingRuns (Worker.sourceEventId bot updateId) = none) {made : List Attempt}
    (raised : (attempts maxSeen bot parsesEdit updateId arrival s made).ending = .raised)
    (reached : ∃ attempt ∈ made, reaches admission.initialRunId attempt = true) :
    Held (admission.consumption bot updateId) s.paired s.seenSourceEvents token
      (attempts maxSeen bot parsesEdit updateId arrival s made) := by
  induction made with
  | nil =>
    obtain ⟨_, ⟨⟩, _⟩ := reached
  | cons attempt rest ih =>
    unfold attempts at raised ⊢
    rw [Run.exec_cons] at raised ⊢
    have first : (step maxSeen bot parsesEdit updateId arrival ⟨s, .raised⟩ attempt).ending = .raised := by
      by_contra ended
      rw [attempts_ended ended] at raised
      exact ended raised
    cases reaching : reaches admission.initialRunId attempt with
    | true =>
      have bound := attempts_bound admitted unseen fresh [attempt] first
      have one : step maxSeen bot parsesEdit updateId arrival ⟨s, .raised⟩ attempt =
          ⟨(processUpdate maxSeen bot parsesEdit updateId arrival s attempt).state,
            (processUpdate maxSeen bot parsesEdit updateId arrival s attempt).ending⟩ := rfl
      have kept : Kept (admission.consumption bot updateId) token
          (step maxSeen bot parsesEdit updateId arrival ⟨s, .raised⟩ attempt).state := by
        rw [one, processUpdate_fresh admitted unseen fresh] at first ⊢
        exact consume_reached offered reaching first
      exact Run.exec_invariant (step_held (admitUpdate_shape admitted).1 unseen) ⟨kept.offered, fun _ => ⟨kept, bound⟩⟩ rest
    | false =>
      have silent : ∀ other ∈ [attempt], reaches admission.initialRunId other = false := by simpa using reaching
      have still : step maxSeen bot parsesEdit updateId arrival ⟨s, .raised⟩ attempt = ⟨s, .raised⟩ :=
        attempts_unreached admitted unseen fresh silent
      rw [still] at raised ⊢
      refine ih raised ?_
      obtain ⟨other, member, reached⟩ := reached
      rcases List.mem_cons.mp member with rfl | later
      · rw [reaching] at reached
        cases reached
      · exact ⟨other, later, reached⟩

/-- The token that an update answers is gone when the update is completed elsewhere than at the same approval, if and
only if no event of the run reached an attempt that was interrupted before. -/
theorem approval_consumed_iff (maxSeen : Nat) (bot : Worker.Bot) (parsesEdit : String → Bool) (updateId : Nat)
    (arrival : Arrival) (s : TelegramWorkerState) (admission : Admission) (token : String)
    (admitted : admitUpdate bot parsesEdit s arrival = some admission) (answers : admission.token = some token)
    (filled : Dict.get s.approvals "" = none)
    (unseen : s.seenSourceEvents.contains (Worker.sourceEventId bot updateId) = false)
    (fresh : Dict.get s.pendingRuns (Worker.sourceEventId bot updateId) = none) (earlier : List Attempt) (last : Attempt)
    (interrupted : (attempts maxSeen bot parsesEdit updateId arrival s earlier).ending = .raised)
    (ends : (attempts maxSeen bot parsesEdit updateId arrival s (earlier ++ [last])).ending ≠ .raised)
    (elsewhere : (attempts maxSeen bot parsesEdit updateId arrival s (earlier ++ [last])).ending ≠ .approval token) :
    Absent token (attempts maxSeen bot parsesEdit updateId arrival s (earlier ++ [last])).state ↔
      ∀ attempt ∈ earlier, reaches admission.initialRunId attempt = false := by
  obtain ⟨chat, approval⟩ := admitUpdate_shape admitted
  have offered : Offered token s := approval token answers
  have named : token ≠ "" := by
    rintro rfl
    unfold Offered at offered
    rw [filled] at offered
    cases offered
  constructor
  · intro absent
    by_contra some
    have reached : ∃ attempt ∈ earlier, reaches admission.initialRunId attempt = true := by simpa using some
    have held := attempts_reached admitted offered unseen fresh interrupted reached
    unfold attempts at absent
    rw [Run.exec_append] at absent
    exact (step_held chat unseen _ last held).offered.not_absent absent
  · intro silent
    have all : attempts maxSeen bot parsesEdit updateId arrival s (earlier ++ [last]) =
        step maxSeen bot parsesEdit updateId arrival ⟨s, .raised⟩ last := by
      unfold attempts
      rw [Run.exec_append]
      exact congrArg (step maxSeen bot parsesEdit updateId arrival · last) (attempts_unreached admitted unseen fresh silent)
    have one : step maxSeen bot parsesEdit updateId arrival ⟨s, .raised⟩ last =
        ⟨(processUpdate maxSeen bot parsesEdit updateId arrival s last).state,
          (processUpdate maxSeen bot parsesEdit updateId arrival s last).ending⟩ := rfl
    rw [all, one, processUpdate_fresh admitted unseen fresh] at ends elsewhere ⊢
    exact consume_absent answers named ends elsewhere

def askedState : TelegramWorkerState :=
  { pairedState with
    approvals := [("aa11", ⟨"run_1", "call_1", 50, 5, [.approve, .reject], "action", "Approval required", true⟩)] }

def approving : Arrival := .callback ⟨"cb_1", some 50, some 5, false, "ot:aa11:approve"⟩

def runEvent (sequence : Nat) (data : EventData) : Round :=
  ⟨[], ⟨"run_1", sequence + 1, data, by decide, Nat.le_add_left 1 sequence⟩, [], false, "", true⟩

def completing : Attempt := ⟨[runEvent 4 (.runCompleted "Done.")], []⟩

theorem approval_consumed_iff_unreached :
    Absent "aa11" (attempts 5000 sampleBot (fun _ => true) 1 approving askedState [⟨[], []⟩, completing]).state := by
  have admitted : admitUpdate sampleBot (fun _ => true) askedState approving = some ⟨50, 5, "run_1", some "aa11"⟩ := by
    decide +kernel
  exact (approval_consumed_iff 5000 sampleBot (fun _ => true) 1 approving askedState _ "aa11" admitted rfl rfl rfl rfl
    [⟨[], []⟩] completing rfl (by decide +kernel) (by decide +kernel)).mpr (by decide)

/-- The stream of the resumed run fails behind its first event. -/
def failing : Attempt := ⟨[runEvent 3 (.messageDelta "Working.")], []⟩

theorem approval_outlives_interrupted_run :
    (attempts 5000 sampleBot (fun _ => true) 1 approving askedState [failing]).ending = .raised ∧
    (attempts 5000 sampleBot (fun _ => true) 1 approving askedState [failing, completing]).ending = .completed ∧
    ¬ Absent "aa11" (attempts 5000 sampleBot (fun _ => true) 1 approving askedState [failing, completing]).state := by
  refine ⟨by decide +kernel, by decide +kernel, ?_⟩
  rintro ⟨absent, -⟩
  revert absent
  decide +kernel

end Consumed

end OpenTulpa.Telegram.Recovery
