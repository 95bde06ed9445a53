import OpenTulpa.Library.Run
import OpenTulpa.Telegram.Streaming

/-! The reply of a run across interruptions: whatever attempts the consumption of its events is cut into, the record
holds the end of the texts up to its sequence number, and the text delivered is that of an uninterrupted run. -/

namespace OpenTulpa.Telegram.Replies

open Library Text WorkerState Streaming

section Events

/-- The texts of the events up to a sequence number. -/
def deltas (events : List Event) (sequence : Nat) : String :=
  ((events.filter fun event => event.sequence ≤ sequence).map Event.deltaText).foldl (· ++ ·) ""

/-- Events of a run as they are replayed after a sequence number: in order, with earlier ones repeated. -/
inductive Replays (events : List Event) : Nat → List Event → Prop where
  | done (sequence : Nat) : Replays events sequence []
  | again {sequence : Nat} {event : Event} {rest : List Event} (member : event ∈ events)
      (old : event.sequence ≤ sequence) (more : Replays events sequence rest) : Replays events sequence (event :: rest)
  | next {sequence : Nat} {event : Event} {rest : List Event}
      (first : (events.find? fun other => sequence < other.sequence) = some event)
      (more : Replays events event.sequence rest) : Replays events sequence (event :: rest)

/-- The sequence numbers of the events increase. -/
def Increasing (events : List Event) : Prop := events.Pairwise fun first second => first.sequence < second.sequence

variable {events : List Event} {sequence : Nat} {event : Event}

/-- The next event stands behind the events up to the sequence number. -/
theorem next_split (increasing : Increasing events)
    (first : (events.find? fun other => sequence < other.sequence) = some event) :
    sequence < event.sequence ∧ ∃ earlier later, events = earlier ++ event :: later ∧
      (events.filter fun other => other.sequence ≤ sequence) = earlier ∧
      (events.filter fun other => other.sequence ≤ event.sequence) = earlier ++ [event] := by
  obtain ⟨beyond, earlier, later, rfl, passed⟩ := List.find?_eq_some_iff_append.mp first
  have beyond' : sequence < event.sequence := by simpa using beyond
  have passed' : ∀ other ∈ earlier, other.sequence ≤ sequence := fun other member => by simpa using passed other member
  obtain ⟨-, tail, -⟩ := List.pairwise_append.mp increasing
  have behind : ∀ other ∈ later, event.sequence < other.sequence := (List.pairwise_cons.mp tail).1
  have all : ∀ bound, sequence ≤ bound → (earlier.filter fun other => other.sequence ≤ bound) = earlier := by
    intro bound below
    apply List.filter_eq_self.mpr
    intro other member
    simpa using (passed' other member).trans below
  have none : ∀ bound, bound ≤ event.sequence → (later.filter fun other => other.sequence ≤ bound) = [] := by
    intro bound below
    apply List.filter_eq_nil_iff.mpr
    intro other member
    have far := behind other member
    simp only [decide_eq_true_eq]
    omega
  refine ⟨beyond', earlier, later, rfl, ?_, ?_⟩
  · rw [List.filter_append, all sequence le_rfl, List.filter_cons_of_neg (by simpa using beyond'),
      none sequence (by omega), List.append_nil]
  · rw [List.filter_append, all event.sequence (by omega), List.filter_cons_of_pos (by simp), none event.sequence le_rfl]

/-- The next event adds its text. -/
theorem deltas_next (increasing : Increasing events)
    (first : (events.find? fun other => sequence < other.sequence) = some event) :
    deltas events event.sequence = deltas events sequence ++ event.deltaText := by
  obtain ⟨-, earlier, later, -, upto, through⟩ := next_split increasing first
  simp only [deltas, upto, through, List.map_append, List.map_cons, List.map_nil, List.foldl_append, List.foldl_cons,
    List.foldl_nil]

theorem deltas_zero : deltas events 0 = "" := by
  have empty : (events.filter fun event => event.sequence ≤ 0) = [] := by
    apply List.filter_eq_nil_iff.mpr
    intro event _
    have positive := event.positive
    simp only [decide_eq_true_eq]
    omega
  unfold deltas
  rw [empty]
  rfl

end Events

section Uninterrupted

/-- The text that a run is finished with: that of its first settling event. -/
def finalReply (events : List Event) : Option String :=
  (events.find? fun event => event.data.settlesStream).bind fun event =>
    finalText event.data (tail textLimit (deltas events event.sequence))

/-- A text and a sequence number that a consumption can stand at. -/
structure Upto (events : List Event) (sequence : Nat) (text : String) : Prop where
  reply : text = tail textLimit (deltas events sequence)
  unsettled : ∀ event ∈ events, event.sequence ≤ sequence → event.data.settlesStream = false

variable {events : List Event} {sequence : Nat} {event : Event} {text : String}

theorem upto_zero : Upto events 0 "" where
  reply := by
    rw [deltas_zero]
    rfl
  unsettled := by
    intro event _ early
    have positive := event.positive
    omega

theorem Upto.tail (upto : Upto events sequence text) : Upto events sequence (tail textLimit text) where
  reply := by rw [upto.reply, tail_tail]
  unsettled := upto.unsettled

theorem deltaText_of_settles (settles : event.data.settlesStream = true) : event.deltaText = "" := by
  unfold Event.deltaText
  split
  · rename_i delta
    rw [delta] at settles
    cases settles
  · rfl

/-- A settling event that comes next is finished with the reply of the run. -/
theorem Upto.settles (increasing : Increasing events) (upto : Upto events sequence text)
    (first : (events.find? fun other => sequence < other.sequence) = some event)
    (settles : event.data.settlesStream = true) : finalText event.data text = finalReply events := by
  obtain ⟨beyond, earlier, later, shape, passed, -⟩ := next_split increasing first
  have found : (events.find? fun other => other.data.settlesStream) = some event := by
    rw [List.find?_eq_some_iff_append]
    refine ⟨settles, earlier, later, shape, ?_⟩
    intro other member
    have early : other ∈ events.filter fun other => other.sequence ≤ sequence := by
      rw [passed]
      exact member
    rw [List.mem_filter] at early
    simp [upto.unsettled other early.1 (by simpa using early.2)]
  unfold finalReply
  rw [found, Option.bind_some, deltas_next increasing first, deltaText_of_settles settles, String.append_empty,
    ← upto.reply]

theorem extend_accumulated (stream : Stream) (upto : Upto events sequence stream.accumulated) :
    (stream.extend event).accumulated = tail textLimit (deltas events sequence ++ event.deltaText) := by
  unfold Stream.extend Event.deltaText
  split
  · dsimp only
    rw [upto.reply, tail_tail_append]
  · rw [String.append_empty]
    exact upto.reply

/-- An event that does not settle the run and comes next takes the consumption on. -/
theorem Upto.next (increasing : Increasing events) {stream : Stream} (upto : Upto events sequence stream.accumulated)
    (first : (events.find? fun other => sequence < other.sequence) = some event)
    (goes : event.data.settlesStream = false) :
    Upto events event.sequence (stream.extend event).accumulated where
  reply := by rw [extend_accumulated stream upto, deltas_next increasing first]
  unsettled := by
    intro other member early
    obtain ⟨-, earlier, later, -, passed, through⟩ := next_split increasing first
    have there : other ∈ events.filter fun other => other.sequence ≤ event.sequence :=
      List.mem_filter.mpr ⟨member, by simpa using early⟩
    rw [through, List.mem_append, List.mem_singleton] at there
    rcases there with before | rfl
    · rw [← passed, List.mem_filter] at before
      exact upto.unsettled other member (by simpa using before.2)
    · exact goes

end Uninterrupted

section Consumption

variable {events : List Event} {runId : String} {maxSeen : Nat} {c : Consumption}

/-- A record that a consumption of the events can be taken up from. -/
structure Recorded (events : List Event) (runId : String) (c : Consumption) (found : Progress) : Prop where
  source : found.sourceEventId = c.sourceEventId
  run : found.runId = runId
  upto : Upto events found.sequence found.accumulatedText

/-- A stream that has come so far in the events of the run. -/
structure Reached (events : List Event) (runId : String) (stream : Stream) : Prop where
  run : stream.runId = "" ∨ stream.runId = runId
  upto : Upto events stream.sequence stream.accumulated

theorem Reached.agrees {stream : Stream} {event : Event} (reached : Reached events runId stream)
    (same : event.runId = runId) : stream.agrees event = true := by
  unfold Stream.agrees
  rcases reached.run with unknown | known
  · simp [unknown]
  · simp [known, same]

theorem recorded_save {s : TelegramWorkerState} {stream : Stream} (run : stream.runId = runId)
    (upto : Upto events stream.sequence stream.accumulated) :
    ∀ found, held c (save c s stream) = some found → Recorded events runId c found := by
  rintro found saved
  rw [held_save] at saved
  obtain rfl := Option.some.inj saved
  exact ⟨rfl, run, upto.tail⟩

/-- A consumption from where the stream stands keeps a record that it can be taken up from, and finishes with the
reply of the run. -/
theorem consume_sound (increasing : Increasing events) (sameRun : ∀ event ∈ events, event.runId = runId)
    {s : TelegramWorkerState} {stream : Stream} {rounds : List Round} (waiting : List Delivery)
    (reached : Reached events runId stream) (replays : Replays events stream.sequence (rounds.map Round.event))
    (recorded : ∀ found, held c s = some found → Recorded events runId c found) :
    (∀ found, held c (consume maxSeen c s stream rounds waiting).state = some found → Recorded events runId c found) ∧
      ∀ text, (consume maxSeen c s stream rounds waiting).finishing = some text → finalReply events = some text := by
  induction rounds generalizing s stream with
  | nil =>
    refine ⟨?_, by rintro _ ⟨⟩⟩
    simp only [consume, held_deliver]
    exact recorded
  | cons round rounds ih =>
    cases replays with
    | again member old more =>
      have agrees := reached.agrees (sameRun _ member)
      rw [consume_repeated agrees (by simpa [Stream.takes] using old)]
      refine ih ⟨reached.run, reached.upto⟩ more ?_
      rw [held_deliver]
      exact recorded
    | next first more =>
      have run : round.event.runId = runId := sameRun _ (List.mem_of_find?_eq_some first)
      have agrees := reached.agrees run
      have taken : stream.takes round.event = true := by
        simpa [Stream.takes] using (next_split increasing first).1
      have saves : ∀ found, held c (saved c s stream round) = some found → Recorded events runId c found :=
        recorded_save run reached.upto
      cases settles : round.event.data.settlesStream with
      | true =>
        rw [consume_settling agrees taken settles]
        constructor
        · intro found here
          have again : ∀ found, held c (save c (saved c s stream round) (stream.taking round)) = some found →
              Recorded events runId c found := recorded_save run reached.upto
          rcases held_settle with same | gone
          · rw [same] at here
            exact again found here
          · rw [gone] at here
            cases here
        · intro text finishing
          rw [settle_finishing] at finishing
          rw [← reached.upto.settles increasing first settles]
          exact finishing
      | false =>
        cases stopped : round.stopped with
        | true =>
          rw [consume_stopped agrees taken settles stopped]
          refine ⟨?_, by rintro _ ⟨⟩⟩
          rw [held_deliver]
          exact saves
        | false =>
          rw [consume_next agrees taken settles stopped]
          have before : Upto events stream.sequence (stream.taking round).accumulated := reached.upto
          have upto : Upto events (stream.next round).sequence (stream.next round).accumulated :=
            before.next increasing first settles
          have named : (stream.next round).runId = runId := (next_runId stream round).trans run
          exact ih ⟨Or.inr named, upto⟩ more (recorded_save named upto)

/-- A round in which nothing is recorded and nothing goes wrong. -/
def plainRound (event : Event) : Round := ⟨[], event, [], false, "", false⟩

theorem find_next {earlier later : List Event} {event : Event} {sequence : Nat}
    (passed : ∀ other ∈ earlier, other.sequence ≤ sequence) (beyond : sequence < event.sequence) :
    ((earlier ++ event :: later).find? fun other => sequence < other.sequence) = some event := by
  rw [List.find?_eq_some_iff_append]
  refine ⟨by simpa using beyond, earlier, later, rfl, ?_⟩
  intro other member
  simpa using passed other member

/-- An uninterrupted consumption finishes with the reply of the run. -/
theorem consume_whole (increasing : Increasing events) (sameRun : ∀ event ∈ events, event.runId = runId)
    {s : TelegramWorkerState} {stream : Stream} {earlier later : List Event} (shape : events = earlier ++ later)
    (reached : Reached events runId stream) (passed : ∀ event ∈ earlier, event.sequence ≤ stream.sequence)
    (beyond : ∀ event ∈ later, stream.sequence < event.sequence) :
    (consume maxSeen c s stream (later.map plainRound) []).finishing = finalReply events := by
  induction later generalizing s stream earlier with
  | nil =>
    have unsettled : (events.find? fun event => event.data.settlesStream) = none := by
      rw [List.find?_eq_none]
      intro event member
      have early := passed event (by simpa [shape] using member)
      simp [reached.upto.unsettled event member early]
    simp [consume, finalReply, unsettled]
  | cons event later ih =>
    have ahead := beyond event List.mem_cons_self
    have first : (events.find? fun other => stream.sequence < other.sequence) = some event := by
      rw [shape]
      exact find_next passed ahead
    have run : event.runId = runId := sameRun event (by simp [shape])
    have agrees : stream.agrees (plainRound event).event = true := reached.agrees run
    have taken : stream.takes (plainRound event).event = true := decide_eq_true ahead
    rw [List.map_cons]
    cases settles : event.data.settlesStream with
    | true =>
      rw [consume_settling agrees taken settles, settle_finishing]
      exact reached.upto.settles increasing first settles
    | false =>
      rw [consume_next agrees taken settles rfl]
      have before : Upto events stream.sequence (stream.taking (plainRound event)).accumulated := reached.upto
      have upto : Upto events (stream.next (plainRound event)).sequence (stream.next (plainRound event)).accumulated :=
        before.next increasing first settles
      have named : (stream.next (plainRound event)).runId = runId := (next_runId stream (plainRound event)).trans run
      have sorted := increasing
      rw [shape] at sorted
      obtain ⟨-, tail, -⟩ := List.pairwise_append.mp sorted
      have behind := (List.pairwise_cons.mp tail).1
      have regrouped : events = (earlier ++ [event]) ++ later := by rw [shape, List.append_cons]
      refine ih regrouped ⟨Or.inr named, upto⟩ ?_ behind
      intro other member
      rw [List.mem_append, List.mem_singleton] at member
      rcases member with old | rfl
      · exact (passed other old).trans (Nat.le_of_lt ahead)
      · exact le_rfl

end Consumption

section Attempts

variable (maxSeen : Nat) (c : Consumption) (initialRunId : String)

/-- The state after some attempts, the texts that completed runs were finished with, and whether an attempt ended the
update. -/
structure Attempted where
  state : TelegramWorkerState
  finished : List String
  ended : Bool

def step (attempted : Attempted) (attempt : Attempt) : Attempted :=
  if attempted.ended then attempted
  else
    let result := attemptRun maxSeen c initialRunId attempted.state attempt
    ⟨result.state, result.finishing.toList ++ attempted.finished, result.ending != .raised⟩

/-- The sequence number that the next attempt starts behind. -/
def persistedSequence (s : TelegramWorkerState) : Nat := (held c s).elim 0 Progress.sequence

/-- The attempt gets the events behind the persisted sequence number, with earlier ones repeated. -/
def GetsReplay (events : List Event) (attempted : Attempted) (attempt : Attempt) : Prop :=
  Replays events (persistedSequence c attempted.state) (attempt.rounds.map Round.event)

/-- The text that an uninterrupted consumption of the events finishes with. -/
def uninterrupted (s : TelegramWorkerState) (events : List Event) : Option String :=
  (consume maxSeen c s (.initial initialRunId) (events.map plainRound) []).finishing

/-- The record holds the end of the texts up to its sequence number, and every text that the run was finished with
is that of an uninterrupted run. -/
def Survives (s : TelegramWorkerState) (events : List Event) (attempted : Attempted) : Prop :=
  (∀ record, Dict.get attempted.state.pendingRuns c.sourceEventId = some record →
    record.accumulatedText = tail textLimit (deltas events record.sequence)) ∧
    ∀ text ∈ attempted.finished, uninterrupted maxSeen c initialRunId s events = some text

variable {maxSeen c initialRunId} {events : List Event} {runId : String}

theorem reached_initial (initial : initialRunId = "" ∨ initialRunId = runId) :
    Reached events runId (.initial initialRunId) := ⟨initial, upto_zero⟩

theorem held_recovered {s : TelegramWorkerState} {record : PendingRun} (source : record.sourceEventId = c.sourceEventId)
    (state : TelegramWorkerState) : held (recoveredConsumption s record) state = held c state := by
  unfold held recoveredConsumption
  rw [source]

/-- An attempt keeps a record that the next one can be taken up from, and finishes with the reply of the run. -/
theorem attemptRun_sound (increasing : Increasing events) (sameRun : ∀ event ∈ events, event.runId = runId)
    (initial : initialRunId = "" ∨ initialRunId = runId) {s : TelegramWorkerState} {attempt : Attempt}
    (recorded : ∀ found, held c s = some found → Recorded events runId c found)
    (replays : Replays events (persistedSequence c s) (attempt.rounds.map Round.event)) :
    (∀ found, held c (attemptRun maxSeen c initialRunId s attempt).state = some found → Recorded events runId c found) ∧
      ∀ text, (attemptRun maxSeen c initialRunId s attempt).finishing = some text → finalReply events = some text := by
  unfold attemptRun
  split
  · rename_i record found
    have here : held c s = some (progress record) := by
      unfold held
      rw [found]
      rfl
    obtain ⟨source, run, upto⟩ := recorded _ here
    unfold recoverPendingRecord
    split
    · have behind : persistedSequence c s = (Stream.recovered record).sequence := by
        unfold persistedSequence
        rw [here]
        rfl
      rw [behind] at replays
      have reached : Reached events runId (.recovered record) := ⟨Or.inr run, upto.tail⟩
      obtain ⟨keeps, finishes⟩ := consume_sound (c := recoveredConsumption s record) increasing sameRun attempt.waiting
        reached replays (by
          intro found there
          rw [held_recovered source] at there
          obtain ⟨same, rest⟩ := recorded found there
          exact ⟨same.trans source.symm, rest, (recorded found there).upto⟩)
      refine ⟨?_, finishes⟩
      intro found there
      rw [← held_recovered source] at there
      obtain ⟨same, run', upto'⟩ := keeps found there
      exact ⟨same.trans source, run', upto'⟩
    · exact ⟨recorded, by rintro _ ⟨⟩⟩
  · rename_i absent
    have start : persistedSequence c s = (Stream.initial initialRunId).sequence := by
      unfold persistedSequence held
      rw [absent]
      rfl
    rw [start] at replays
    exact consume_sound increasing sameRun attempt.waiting (reached_initial initial) replays recorded

end Attempts

/-- However the consumption of the events of a run is cut into attempts, each stopped anywhere and the next one taken
up from the record, the record holds the end of the texts up to its sequence number, and the run is finished with
the text of an uninterrupted run. -/
theorem replies_survive_interruptions (maxSeen : Nat) (c : Consumption) (initialRunId runId : String)
    (events : List Event) (increasing : Increasing events) (sameRun : ∀ event ∈ events, event.runId = runId)
    (initial : initialRunId = "" ∨ initialRunId = runId) (s : TelegramWorkerState)
    (fresh : Dict.get s.pendingRuns c.sourceEventId = none) (attempts : List Attempt)
    (replayed : Run.Guarded (step maxSeen c initialRunId) (GetsReplay c events) ⟨s, [], false⟩ attempts) (n : Nat) :
    Survives maxSeen c initialRunId s events
      (Run.exec (step maxSeen c initialRunId) ⟨s, [], false⟩ (attempts.take n)) := by
  have whole : uninterrupted maxSeen c initialRunId s events = finalReply events :=
    consume_whole increasing sameRun (List.nil_append events).symm (reached_initial initial) (by rintro _ ⟨⟩)
      fun event _ => event.positive
  let Inv := fun attempted : Attempted =>
    (∀ found, held c attempted.state = some found → Recorded events runId c found) ∧
      ∀ text ∈ attempted.finished, finalReply events = some text
  have preserved : ∀ attempted attempt, Inv attempted → GetsReplay c events attempted attempt →
      Inv (step maxSeen c initialRunId attempted attempt) := by
    rintro attempted attempt ⟨recorded, finished⟩ replays
    unfold step
    split
    · exact ⟨recorded, finished⟩
    · obtain ⟨keeps, finishes⟩ := attemptRun_sound increasing sameRun initial recorded replays
      refine ⟨keeps, ?_⟩
      intro text member
      rcases List.mem_append.mp member with new | old
      · exact finishes text (by simpa using new)
      · exact finished text old
  have start : Inv ⟨s, [], false⟩ := by
    refine ⟨?_, by rintro _ ⟨⟩⟩
    intro found here
    unfold held at here
    rw [fresh] at here
    cases here
  obtain ⟨recorded, finished⟩ := (replayed.take n).invariant preserved start
  refine ⟨?_, ?_⟩
  · intro record found
    refine (recorded (progress record) ?_).upto.reply
    unfold held
    rw [found]
    rfl
  · rw [whole]
    exact finished

theorem sampleRun_named : "run_1" ≠ "" := by decide

theorem sampleEvent_counted (sequence : Nat) : 1 ≤ sequence + 1 := Nat.le_add_left 1 sequence

def sampleEvent (sequence : Nat) (data : EventData) : Event :=
  ⟨"run_1", sequence + 1, data, sampleRun_named, sampleEvent_counted sequence⟩

def sampleEvents : List Event :=
  [sampleEvent 0 (.messageDelta "Hello"), sampleEvent 1 (.messageDelta " there"), sampleEvent 2 (.runCompleted "")]

def sampleConsumption : Consumption := ⟨"telegram:7:1", 1, 5, 5, none⟩

def sampleState : TelegramWorkerState := { defaultState with paired := some (5, 5) }

/-- An attempt stopped while it shows the second event, and one that gets the first event once more. -/
def sampleAttempts : List Attempt :=
  [⟨[plainRound (sampleEvent 0 (.messageDelta "Hello")),
      { plainRound (sampleEvent 1 (.messageDelta " there")) with stopped := true }], []⟩,
    ⟨sampleEvents.map plainRound, []⟩]

theorem replies_survive_interruptions_stoppedOnce :
    Survives 5000 sampleConsumption "" sampleState sampleEvents
      (Run.exec (step 5000 sampleConsumption "") ⟨sampleState, [], false⟩ sampleAttempts) := by
  refine replies_survive_interruptions 5000 sampleConsumption "" "run_1" sampleEvents ?_ ?_ (Or.inl rfl) sampleState rfl
    sampleAttempts ⟨?_, ?_, trivial⟩ 2
  · exact (by decide : List.Pairwise (fun first second : Event => first.sequence < second.sequence) sampleEvents)
  · decide
  · exact .next rfl (.next rfl (.done _))
  · have behind : persistedSequence sampleConsumption (step 5000 sampleConsumption "" ⟨sampleState, [], false⟩
        (sampleAttempts.headD ⟨[], []⟩)).state = 1 := by decide +kernel
    have replays : Replays sampleEvents 1 sampleEvents := .again List.mem_cons_self le_rfl (.next rfl (.next rfl (.done _)))
    rw [← behind] at replays
    exact replays

end OpenTulpa.Telegram.Replies
