import OpenTulpa.Tui.Turns

/-! A decision about an approval, sent as the first request of a stream. When that request fails in a way that the
stream takes for a lost connection, the next request is a read of the events of the run, and the approval that is still
open at their end is taken for the end of the resumed stream. -/

namespace OpenTulpa.Tui.Decisions

open Library EventStream Reading Turns

section Resume

/-- `resume`: the request with the decision is the first one, the run is known and no sequence number is. -/
def resume (runId : String) : State := EventStream.start runId 0

/-- The answers at which `reconnect` gives the next request. -/
def Round.retried (round : Round) : Bool :=
  !round.aborted && !round.abortedWait &&
    match round.answer with
    | .unreachable _ => true
    | .status code _ _ => gatewayStatus code
    | .empty | .body .. => false

/-- A run that waits for an approval. -/
structure Waiting where
  log : RunLog
  approval : AgentEvent
  last : log.events.getLast? = some approval
  required : approval.type = .approvalRequired

variable (waiting : Waiting) (codec : Codec waiting.log.events)

/-- As long as the server has not accepted the decision, it has no events but those of the run that waits. -/
def Serves (accepted : Bool) (s : State) (round : Round) : Prop :=
  ∀ pieces ending runId after, accepted = false → round.answer = .body pieces ending → s.request = .events runId after →
    ∃ eol, LineEnd eol ∧
      (ending = .done [] ∧ pieces.flatten = codec.text eol (waiting.log.behind after) ∨
        ending = .broken ∧ pieces.flatten <+: codec.text eol (waiting.log.behind after))

theorem step_settled (parse : List Char → Option AgentEvent) {s : State} {outcome : Outcome}
    (settled : s.outcome = some outcome) (round : Round) : EventStream.step parse s round = s := by
  rw [EventStream.step, settled]

theorem exec_settled (parse : List Char → Option AgentEvent) {s : State} {outcome : Outcome}
    (settled : s.outcome = some outcome) (rounds : List Round) : Run.exec (EventStream.step parse) s rounds = s := by
  induction rounds with
  | nil => rfl
  | cons round rounds ih => rw [Run.exec_cons, step_settled parse settled, ih]

theorem reconnect_aborted (s : State) (cursor : Cursor) {round : Round} (otherwise : Outcome)
    (aborts : (round.aborted || round.abortedWait) = true) :
    (s.reconnect cursor round otherwise).outcome = some otherwise := by
  rw [State.reconnect]
  split_ifs with stopped waited
  · rfl
  · rfl
  · simp_all

/-- A first answer that was not accepted and is not retried ends the stream otherwise than normally. -/
theorem first_fails (parse : List Char → Option AgentEvent) (runId : String) {first : Round}
    (lost : first.answer.accepted = false) (final : Round.retried first = false) :
    ∃ outcome, outcome ≠ .ended ∧ (EventStream.step parse (resume runId) first).outcome = some outcome := by
  obtain ⟨answer, aborted, abortedWait⟩ := first
  cases answer with
  | empty => cases lost
  | body pieces ending => cases lost
  | unreachable accepted =>
    cases aborted with
    | true => exact ⟨.aborted, by decide, rfl⟩
    | false =>
      have waits : abortedWait = true := by simpa [Round.retried] using final
      exact ⟨disconnectedError, by decide, reconnect_aborted _ _ _ waits⟩
  | status code detail accepted =>
    refine ⟨statusError code detail, nofun, ?_⟩
    cases gateway : gatewayStatus code with
    | false => simp [EventStream.step, resume, EventStream.start, gateway]
    | true =>
      have aborts : (aborted || abortedWait) = true := by
        cases aborted <;> simp_all [Round.retried]
      simp only [EventStream.step, resume, EventStream.start, gateway, if_true]
      exact reconnect_aborted _ _ _ aborts

/-- A first answer that is retried is followed by a request for the events of the run. -/
theorem first_retried (parse : List Char → Option AgentEvent) {runId : String} (named : runId ≠ "") {first : Round}
    (again : Round.retried first = true) :
    EventStream.step parse (resume runId) first = ⟨.events runId 0, ⟨runId, 0, 1⟩, [], none⟩ := by
  obtain ⟨answer, aborted, abortedWait⟩ := first
  have empty : runId.isEmpty = false := by simpa using named
  simp only [Round.retried, Bool.and_eq_true] at again
  obtain ⟨⟨going, waited⟩, kind⟩ := again
  cases answer <;> simp_all [EventStream.step, resume, EventStream.start, State.reconnect, maxReconnectAttempts]

variable {waiting}

theorem last_listed : waiting.approval ∈ waiting.log.events := List.mem_of_getLast? waiting.last

/-- The events of the run that waits, sent again as a whole. -/
def replay : Round :=
  ⟨.body [codec.text ['\n'] waiting.log.events] .broken, false, false⟩

theorem behind_zero (log : RunLog) : log.behind 0 = log.events :=
  List.filter_eq_self.mpr fun event listed => by simpa using log.numbered event listed

theorem replay_ends (accepted : Bool) :
    Serves waiting codec accepted ⟨.events waiting.log.runId 0, ⟨waiting.log.runId, 0, 1⟩, [], none⟩ (replay codec) ∧
      (EventStream.step codec.parse ⟨.events waiting.log.runId 0, ⟨waiting.log.runId, 0, 1⟩, [], none⟩
        (replay codec)).outcome = some .ended := by
  constructor
  · intro pieces ending runId after _ body asked
    cases body
    cases asked
    refine ⟨['\n'], Or.inl rfl, Or.inr ⟨rfl, ?_⟩⟩
    rw [behind_zero]
    simp
  · have terminal : waiting.approval.type.terminal = true := by rw [waiting.required]; rfl
    obtain ⟨named, _⟩ := foldl_see ⟨waiting.log.runId, 0, 1⟩ waiting.last waiting.log.mine waiting.log.ordered
      waiting.log.numbered
    have stops := read_stop codec (s := ⟨.events waiting.log.runId 0, ⟨waiting.log.runId, 0, 1⟩, [], none⟩)
      (fun _ listed => listed) waiting.last terminal (by rw [named]; simpa using waiting.log.named)
    exact stops.2

/-- A decision that the server did not accept, and a stream that ends normally. -/
theorem lost_decision (waiting : Waiting) (codec : Codec waiting.log.events) (first : Round)
    (again : Round.retried first = true) :
    ∃ rest, Run.Guarded (EventStream.step codec.parse) (Serves waiting codec first.answer.accepted)
        (resume waiting.log.runId) (first :: rest) ∧
      (Run.exec (EventStream.step codec.parse) (resume waiting.log.runId) (first :: rest)).outcome = some .ended := by
  have asked := first_retried codec.parse waiting.log.named again
  obtain ⟨serves, ended⟩ := replay_ends codec first.answer.accepted
  refine ⟨[replay codec], ⟨?_, ?_, trivial⟩, ?_⟩
  · intro pieces ending runId after _ _ initial
    cases initial
  · rw [asked]
    exact serves
  · rw [Run.exec_cons, asked]
    exact ended

/-- Whatever becomes of the later requests, a stream that ends normally has delivered the decision, exactly when the
request with it was accepted or failed in a way that is reported at once. -/
theorem decision_delivered_iff (first : Round) :
    (∀ rest, Run.Guarded (EventStream.step codec.parse) (Serves waiting codec first.answer.accepted)
        (resume waiting.log.runId) (first :: rest) →
      (Run.exec (EventStream.step codec.parse) (resume waiting.log.runId) (first :: rest)).outcome = some .ended →
        first.answer.accepted = true) ↔ first.answer.accepted = true ∨ Round.retried first = false := by
  constructor
  · intro delivered
    by_contra wrong
    obtain ⟨lost, again⟩ := not_or.mp wrong
    obtain ⟨rest, serves, ended⟩ := lost_decision waiting codec first (Bool.of_not_eq_false again)
    exact lost (delivered rest serves ended)
  · rintro (accepted | final) rest _ ended
    · exact accepted
    · by_contra lost
      obtain ⟨outcome, abnormal, settled⟩ :=
        first_fails codec.parse waiting.log.runId (Bool.eq_false_of_not_eq_true lost) final
      rw [Run.exec_cons, exec_settled codec.parse settled, settled] at ended
      exact abnormal (Option.some.inj ended)

def sampleWaiting : Waiting where
  log := interruptedLog 1
  approval := sampleEvent 2 .approvalRequired
  last := rfl
  required := rfl

/-- The connection for the request with the decision is refused. -/
theorem refused_decision_ends_normally : ¬ ∀ first rest,
    Run.Guarded (EventStream.step (sampleCodec (interruptedLog 1)).parse)
        (Serves sampleWaiting (sampleCodec (interruptedLog 1)) first.answer.accepted) (resume "run_1") (first :: rest) →
      (Run.exec (EventStream.step (sampleCodec (interruptedLog 1)).parse) (resume "run_1") (first :: rest)).outcome =
          some .ended →
        first.answer.accepted = true := by
  intro delivered
  obtain ⟨rest, serves, ended⟩ := lost_decision sampleWaiting (sampleCodec (interruptedLog 1))
    ⟨.unreachable false, false, false⟩ rfl
  have accepted := delivered ⟨.unreachable false, false, false⟩ rest serves ended
  cases accepted

end Resume

section Consumed

def consumeApproval (turn : Turn) (approvalId : String) : Turn :=
  let approvals := turn.approvals.filter fun item => item.approvalId != approvalId
  if approvals.length = turn.approvals.length then turn
  else { turn with approvals, status := if approvals.length = 0 then .running else .approval }

theorem consumeApproval_lastSequence (turn : Turn) (approvalId : String) :
    (consumeApproval turn approvalId).lastSequence = turn.lastSequence := by
  simp only [consumeApproval]
  split <;> rfl

theorem consumeApproval_removes (turn : Turn) (approvalId : String) :
    ∀ item ∈ (consumeApproval turn approvalId).approvals, item.approvalId ≠ approvalId := by
  intro item member
  simp only [consumeApproval] at member
  split at member
  · rename_i same
    have kept := List.length_filter_eq_length_iff.mp same item member
    simpa using kept
  · simpa using (List.mem_filter.mp member).2

/-- The events that are read in place of the decision do not bring the approval back. -/
theorem replay_consumed (platform : Platform) (waiting : Waiting) {turn : Turn} (approvalId : String)
    (seen : ∀ event ∈ waiting.log.events, event.sequence ≤ turn.lastSequence) :
    ∀ item ∈ (reduceEvents platform (consumeApproval turn approvalId) waiting.log.events).approvals,
      item.approvalId ≠ approvalId := by
  have unchanged : reduceEvents platform (consumeApproval turn approvalId) waiting.log.events =
      consumeApproval turn approvalId := by
    refine reduceEvents_seen platform fun event listed => ?_
    rw [consumeApproval_lastSequence]
    exact seen event listed
  rw [unchanged]
  exact consumeApproval_removes turn approvalId

end Consumed

end OpenTulpa.Tui.Decisions
