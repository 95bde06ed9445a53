import Mathlib.Data.List.DropRight
import OpenTulpa.Tui.Reading

/-! The turn that the terminal client folds from the events of a run, and whether the stream gives it all of them. The
stream stops at an event of a terminal type wherever a connection ends behind one, so a turn is complete for every
network exactly when no such event comes before the last. -/

namespace OpenTulpa.Tui.Turns

open Library EventStream Reading

section Reduce

structure ToolCall where
  callId : String
  name : String
  arguments : Json
  result : Option Json := none
  error : Option Json := none
  ok : Option Bool := none
  startedAt : String
  completedAt : Option String := none

inductive TurnPart where
  | assistant (text : String)
  | tool (callId : String)

inductive Decision where
  | approve
  | edit
  | reject
  deriving DecidableEq

structure Approval where
  approvalId : String
  toolName : String
  description : String
  arguments : List (String × Json)
  allowedDecisions : List Decision
  runId : String

inductive TurnStatus where
  | idle
  | running
  | approval
  | completed
  | failed
  | cancelled
  deriving DecidableEq

structure Turn where
  runId : String
  user : String
  fileIds : List String
  assistant : String
  tools : List ToolCall
  parts : List TurnPart
  approvals : List Approval
  artifacts : List (List (String × Json))
  error : Option String
  status : TurnStatus
  lastSequence : Nat
  startedAt : String

/-- `String(value)` and `toLocaleLowerCase` of the language. -/
structure Platform where
  text : Json → String
  lower : String → String

variable (platform : Platform)

/-- `String(data[key] ?? fallback)` -/
def Platform.field (data : List (String × Json)) (key fallback : String) : String :=
  match data.lookup key with
  | none | some .null => fallback
  | some value => platform.text value

/-- `trim` -/
def trim (text : String) : String := String.ofList ((text.toList.dropWhile isJsSpace).rdropWhile isJsSpace)

/-- `data.text` when it is a string. -/
def textOf (data : List (String × Json)) : Option String :=
  match data.lookup "text" with
  | some (.string text) => some text
  | _ => none

def appendAssistant (turn : Turn) (text : String) : Turn :=
  if text.isEmpty then turn
  else
    match turn.parts.getLast? with
    | some (.assistant last) => { turn with parts := turn.parts.dropLast ++ [.assistant (last ++ text)] }
    | _ => { turn with parts := turn.parts ++ [.assistant text] }

def finishTools (tools : List ToolCall) (timestamp : String) : List ToolCall :=
  tools.map fun tool => if tool.completedAt.isSome then tool else { tool with completedAt := some timestamp }

def decisionOf : Json → Option Decision
  | .string "approve" => some .approve
  | .string "edit" => some .edit
  | .string "reject" => some .reject
  | _ => none

def approvalFrom (runId : String) (data : List (String × Json)) : Option Approval :=
  let approvalId := platform.field data "approval_id" ""
  if approvalId.isEmpty then none
  else some {
    approvalId
    toolName := platform.field data "tool_name" "action"
    description := platform.field data "description" ""
    arguments := match data.lookup "arguments" with
      | some (.object fields) => fields
      | _ => []
    allowedDecisions := match data.lookup "allowed_decisions" with
      | some (.array values) => values.filterMap decisionOf
      | _ => []
    runId }

def knownCall (callId : String) : Bool := !callId.isEmpty && platform.lower callId != "none"

/-- The tool of a call takes its new values, or is added with its part. -/
def putTool (turn : Turn) (callId : String) (change : Option ToolCall → ToolCall) : Turn :=
  match turn.tools.find? fun tool => tool.callId == callId with
  | some _ =>
    let index := turn.tools.findIdx fun tool => tool.callId == callId
    { turn with tools := turn.tools.modify index fun tool => change (some tool) }
  | none => { turn with tools := turn.tools ++ [change none], parts := turn.parts ++ [.tool callId] }

def toolStarted (turn : Turn) (event : AgentEvent) : Turn :=
  let callId := trim (platform.field event.data "call_id" "")
  let name := trim (platform.field event.data "name" "")
  if !knownCall platform callId || name.isEmpty then turn
  else
    let arguments := match event.data.lookup "arguments" with
      | none | some .null => .object []
      | some value => value
    putTool turn callId fun
      | some tool => { tool with callId, name, arguments, startedAt := event.timestamp }
      | none => { callId, name, arguments, startedAt := event.timestamp }

def toolCompleted (turn : Turn) (event : AgentEvent) : Turn :=
  let callId := trim (platform.field event.data "call_id" "")
  if !knownCall platform callId then turn
  else
    let ok := match event.data.lookup "ok" with
      | some (.bool false) => false
      | _ => true
    putTool turn callId fun existing => {
      callId
      name := platform.field event.data "name" "tool"
      arguments := existing.elim (.object []) ToolCall.arguments
      result := event.data.lookup "result"
      error := event.data.lookup "error"
      ok := some ok
      startedAt := existing.elim event.timestamp ToolCall.startedAt
      completedAt := some event.timestamp }

def approvalRequired (turn : Turn) (event : AgentEvent) : Turn :=
  let approvals := match approvalFrom platform event.runId event.data with
    | some approval =>
      if turn.approvals.any fun item => item.approvalId == approval.approvalId then turn.approvals
      else turn.approvals ++ [approval]
    | none => turn.approvals
  { turn with approvals, status := .approval }

def runCompleted (turn : Turn) (event : AgentEvent) : Turn :=
  let turn := match textOf event.data with
    | some text => if turn.assistant.isEmpty then appendAssistant { turn with assistant := text } text else turn
    | none => turn
  { turn with status := .completed, approvals := [], tools := finishTools turn.tools event.timestamp }

def runFailed (turn : Turn) (event : AgentEvent) : Turn :=
  let cancelled := match event.data.lookup "code" with
    | some (.string code) => code == "agent_run_cancelled"
    | _ => false
  { turn with
    status := if cancelled then .cancelled else .failed
    error := if cancelled then none
      else some (platform.field event.data "message" "The agent run could not be completed.")
    approvals := []
    tools := finishTools turn.tools event.timestamp }

/-- What an event of each type does to the turn. -/
def applyEvent (turn : Turn) (event : AgentEvent) : Turn :=
  match event.type with
  | .runStarted => { turn with status := .running, approvals := [] }
  | .messageDelta =>
    let text := (textOf event.data).getD ""
    appendAssistant { turn with assistant := turn.assistant ++ text } text
  | .toolStarted => toolStarted platform turn event
  | .toolCompleted => toolCompleted platform turn event
  | .approvalRequired => approvalRequired platform turn event
  | .artifactReady => { turn with artifacts := turn.artifacts ++ [event.data] }
  | .runCompleted => runCompleted turn event
  | .runFailed => runFailed platform turn event
  | .other _ => turn

def reduceEvent (turn : Turn) (event : AgentEvent) : Turn :=
  if event.runId ≠ turn.runId ∧ turn.runId ≠ "" then turn
  else if event.sequence ≤ turn.lastSequence then turn
  else applyEvent platform { turn with runId := event.runId, lastSequence := event.sequence } event

def reduceEvents (turn : Turn) (events : List AgentEvent) : Turn := events.foldl (reduceEvent platform) turn

theorem appendAssistant_frame (turn : Turn) (text : String) :
    (appendAssistant turn text).runId = turn.runId ∧ (appendAssistant turn text).lastSequence = turn.lastSequence := by
  rw [appendAssistant]
  split
  · exact ⟨rfl, rfl⟩
  · split <;> exact ⟨rfl, rfl⟩

theorem putTool_frame (turn : Turn) (callId : String) (change : Option ToolCall → ToolCall) :
    (putTool turn callId change).runId = turn.runId ∧ (putTool turn callId change).lastSequence = turn.lastSequence := by
  rw [putTool]
  split <;> exact ⟨rfl, rfl⟩

/-- No event type touches the run or the sequence number. -/
theorem applyEvent_frame (turn : Turn) (event : AgentEvent) :
    (applyEvent platform turn event).runId = turn.runId ∧
      (applyEvent platform turn event).lastSequence = turn.lastSequence := by
  rw [applyEvent]
  split
  · exact ⟨rfl, rfl⟩
  · exact appendAssistant_frame _ _
  · simp only [toolStarted]
    split
    · exact ⟨rfl, rfl⟩
    · exact putTool_frame _ _ _
  · simp only [toolCompleted]
    split
    · exact ⟨rfl, rfl⟩
    · exact putTool_frame _ _ _
  · exact ⟨rfl, rfl⟩
  · exact ⟨rfl, rfl⟩
  · simp only [runCompleted]
    split
    · split
      · exact appendAssistant_frame _ _
      · exact ⟨rfl, rfl⟩
    · exact ⟨rfl, rfl⟩
  · exact ⟨rfl, rfl⟩
  · exact ⟨rfl, rfl⟩

/-- Events up to the sequence number of the turn change nothing. -/
theorem reduceEvents_seen {turn : Turn} {events : List AgentEvent}
    (seen : ∀ event ∈ events, event.sequence ≤ turn.lastSequence) : reduceEvents platform turn events = turn := by
  induction events with
  | nil => rfl
  | cons event events ih =>
    have same : reduceEvent platform turn event = turn := by
      rw [reduceEvent, if_pos (seen event List.mem_cons_self)]
      split <;> rfl
    rw [reduceEvents, List.foldl_cons, same]
    exact ih fun other member => seen other (List.mem_cons_of_mem _ member)

/-- The turn belongs to the run, or to none yet. -/
def Follows (runId : String) (turn : Turn) : Prop := turn.runId = "" ∨ turn.runId = runId

theorem reduceEvent_new {runId : String} {turn : Turn} {event : AgentEvent} (follows : Follows runId turn)
    (mine : event.runId = runId) :
    (reduceEvent platform turn event).lastSequence = max turn.lastSequence event.sequence ∧
      Follows runId (reduceEvent platform turn event) := by
  have sameRun : ¬ (event.runId ≠ turn.runId ∧ turn.runId ≠ "") := by
    rintro ⟨other, named⟩
    rcases follows with empty | same
    · exact named empty
    · exact other (mine.trans same.symm)
  rw [reduceEvent, if_neg sameRun]
  split
  · rename_i seen
    exact ⟨(Nat.max_eq_left seen).symm, follows⟩
  · rename_i fresh
    obtain ⟨run, last⟩ := applyEvent_frame platform { turn with runId := event.runId, lastSequence := event.sequence } event
    have later : turn.lastSequence ≤ event.sequence := by omega
    exact ⟨last.trans (Nat.max_eq_right later).symm, Or.inr (run.trans mine)⟩

theorem reduceEvents_le {runId : String} {turn : Turn} {events : List AgentEvent} (follows : Follows runId turn)
    (mine : ∀ event ∈ events, event.runId = runId) {bound : Nat} (within : ∀ event ∈ events, event.sequence ≤ bound)
    (initial : turn.lastSequence ≤ bound) : (reduceEvents platform turn events).lastSequence ≤ bound := by
  induction events generalizing turn with
  | nil => exact initial
  | cons event events ih =>
    obtain ⟨last, after⟩ := reduceEvent_new platform follows (mine event List.mem_cons_self)
    refine ih after (fun other member => mine other (List.mem_cons_of_mem _ member))
      (fun other member => within other (List.mem_cons_of_mem _ member)) ?_
    rw [last]
    exact Nat.max_le.mpr ⟨initial, within event List.mem_cons_self⟩

theorem le_reduceEvents {runId : String} {turn : Turn} {events : List AgentEvent} (follows : Follows runId turn)
    (mine : ∀ event ∈ events, event.runId = runId) :
    turn.lastSequence ≤ (reduceEvents platform turn events).lastSequence ∧
      ∀ event ∈ events, event.sequence ≤ (reduceEvents platform turn events).lastSequence := by
  induction events generalizing turn with
  | nil => exact ⟨Nat.le_refl _, nofun⟩
  | cons event events ih =>
    obtain ⟨last, after⟩ := reduceEvent_new platform follows (mine event List.mem_cons_self)
    obtain ⟨grown, members⟩ := ih after fun other member => mine other (List.mem_cons_of_mem _ member)
    have reached : max turn.lastSequence event.sequence ≤ (reduceEvents platform turn (event :: events)).lastSequence := by
      rw [← last]
      exact grown
    refine ⟨(Nat.le_max_left _ _).trans reached, ?_⟩
    intro other member
    rcases List.mem_cons.mp member with rfl | later
    · exact (Nat.le_max_right _ _).trans reached
    · exact members other later

end Reduce

section Serving

/-- The events of a run in the order of their numbers. -/
structure RunLog where
  runId : String
  events : List AgentEvent
  named : runId ≠ ""
  mine : ∀ event ∈ events, event.runId = runId
  ordered : events.Pairwise fun first second => first.sequence < second.sequence
  numbered : ∀ event ∈ events, 0 < event.sequence
  settled : events ≠ []

variable (log : RunLog)

/-- The events behind a sequence number. -/
def RunLog.behind (after : Nat) : List AgentEvent := log.events.filter fun event => after < event.sequence

/-- How the stream was opened: the run and the sequence number it knows, and the number behind which the first response
starts. -/
inductive Entry where
  | run
  | events (afterSequence : Nat)
  | resume (interruptedAt : Nat) (goesOn : ∃ event ∈ log.events, interruptedAt < event.sequence)

variable {log}

def Entry.base : Entry log → Nat
  | .run => 0
  | .events afterSequence => afterSequence
  | .resume interruptedAt _ => interruptedAt

def Entry.knownSequence : Entry log → Nat
  | .run | .resume .. => 0
  | .events afterSequence => afterSequence

def Entry.start : Entry log → State
  | .run => EventStream.start "" 0
  | .events afterSequence => EventStream.start log.runId afterSequence
  | .resume .. => EventStream.start log.runId 0

/-- What the server sends to a request. -/
def Entry.serve (entry : Entry log) : Request → List AgentEvent
  | .initial => log.behind entry.base
  | .events _ after => log.behind after

/-- A body is the text of the events behind the requested number, in any pieces, to its end or broken off anywhere; any
other answer may come at any time. -/
def Serves (codec : Codec log.events) (entry : Entry log) (s : State) (round : Round) : Prop :=
  ∀ pieces ending, round.answer = .body pieces ending → ∃ eol, LineEnd eol ∧
    (ending = .done [] ∧ pieces.flatten = codec.text eol (entry.serve s.request) ∨
      ending = .broken ∧ pieces.flatten <+: codec.text eol (entry.serve s.request))

end Serving

section Responses

variable {log : RunLog} {codec : Codec log.events} {s after : State} {sent read : List AgentEvent}

/-- What one turn of the loop takes from the events sent. -/
structure Took (s after : State) (sent read : List AgentEvent) : Prop where
  first : read <+: sent
  yielded : after.yielded = s.yielded ++ read
  runId : after.cursor.runId = (read.foldl Cursor.see s.cursor).runId
  sequence : after.cursor.sequence = (read.foldl Cursor.see s.cursor).sequence
  request : after.outcome = none →
    after.request = .events after.cursor.runId after.cursor.sequence ∧ after.cursor.runId.isEmpty = false
  ended : after.outcome = some .ended →
    (∃ last, read.getLast? = some last ∧ last.type.terminal = true) ∨ after.cursor.runId.isEmpty = true ∧ read = sent

theorem reconnect_took {cursor : Cursor} {round : Round} {otherwise : Outcome} (going : after.outcome = none)
    (other : otherwise ≠ .ended) (first : read <+: sent) (yielded : after.yielded = s.yielded ++ read)
    (seen : cursor = read.foldl Cursor.see s.cursor) : Took s (after.reconnect cursor round otherwise) sent read := by
  subst seen
  rw [State.reconnect]
  split
  · exact ⟨first, yielded, rfl, rfl, nofun, fun ended => absurd (Option.some.inj ended) other⟩
  · split
    · exact ⟨first, yielded, rfl, rfl, nofun, fun ended => absurd (Option.some.inj ended) other⟩
    · rename_i named _
      refine ⟨first, yielded, rfl, rfl, fun _ => ⟨rfl, by simp_all⟩, fun ended => ?_⟩
      rw [show after.outcome = some .ended from ended] at going
      cases going

/-- The reader of a new response. -/
def fresh (cursor : Cursor) : Reader := ⟨cursor, [], false, []⟩

theorem foldl_yield (reader : Reader) (read : List AgentEvent) :
    read.foldl Reader.yield reader =
      { reader with
        cursor := read.foldl Cursor.see reader.cursor
        terminal := (read.getLast?.map fun last => last.type.terminal).getD reader.terminal
        yielded := reader.yielded ++ read } := by
  induction read generalizing reader with
  | nil => simp
  | cons event read ih =>
    rw [List.foldl_cons, ih]
    cases read with
    | nil => simp [Reader.yield]
    | cons next read =>
      obtain ⟨last, found⟩ : ∃ last, (next :: read).getLast? = some last :=
        ⟨_, List.getLast?_eq_some_getLast (List.cons_ne_nil next read)⟩
      simp [Reader.yield, List.getLast?_cons_cons, found]

theorem settle_took {round : Round} {reader : Reader} {disconnected : Bool} (going : s.outcome = none) (first : read <+: sent)
    (yielded : reader.yielded = read) (cursor : reader.cursor = read.foldl Cursor.see s.cursor)
    (terminal : reader.terminal = true → ∃ last, read.getLast? = some last ∧ last.type.terminal = true)
    (whole : disconnected = false → read = sent) : Took s (s.settle round reader disconnected) sent read := by
  rw [State.settle]
  split
  · rename_i stops
    split
    · exact ⟨first, by rw [← yielded], congrArg Cursor.runId cursor, congrArg Cursor.sequence cursor, nofun, nofun⟩
    · rename_i normal
      refine ⟨first, by rw [← yielded], congrArg Cursor.runId cursor, congrArg Cursor.sequence cursor, nofun, fun _ => ?_⟩
      cases last : reader.terminal with
      | true => exact Or.inl (terminal last)
      | false =>
        have unnamed : reader.cursor.runId.isEmpty = true := by simpa [last] using stops
        refine Or.inr ⟨unnamed, whole ?_⟩
        cases disconnected with
        | false => rfl
        | true => exact absurd (by simp [unnamed]) normal
  · exact reconnect_took going nofun first (by rw [← yielded]) cursor

theorem fresh_terminal {cursor : Cursor} {read : List AgentEvent}
    (terminal : (read.foldl Reader.yield (fresh cursor)).terminal = true) :
    ∃ last, read.getLast? = some last ∧ last.type.terminal = true := by
  rw [foldl_yield] at terminal
  cases found : read.getLast? with
  | none => simp [found, fresh] at terminal
  | some last => exact ⟨last, rfl, by simpa [found] using terminal⟩

/-- A reader that has read these events, but for its buffer. -/
structure Has (s : State) (reader : Reader) (read : List AgentEvent) : Prop where
  yielded : reader.yielded = read
  cursor : reader.cursor = read.foldl Cursor.see s.cursor
  terminal : reader.terminal = true → ∃ last, read.getLast? = some last ∧ last.type.terminal = true

theorem has_foldl (s : State) (read : List AgentEvent) (buffer : List Char) :
    Has s { read.foldl Reader.yield (fresh s.cursor) with buffer := buffer } read := by
  refine ⟨?_, ?_, fresh_terminal⟩
  · rw [foldl_yield]
    rfl
  · rw [foldl_yield]
    rfl

theorem Has.settle {reader : Reader} (has : Has s reader read) (going : s.outcome = none) (first : read <+: sent)
    (round : Round) {disconnected : Bool} (whole : disconnected = false → read = sent) :
    Took s (s.settle round reader disconnected) sent read :=
  settle_took going first has.yielded has.cursor has.terminal whole

/-- A response that ends the stream with an error or an abort, whatever it had given before. -/
theorem Has.stopped {reader : Reader} (has : Has s reader read) (first : read <+: sent) {outcome : Outcome}
    (other : outcome ≠ .ended) :
    Took s { s with cursor := reader.cursor, yielded := s.yielded ++ reader.yielded, outcome := some outcome } sent read :=
  ⟨first, by rw [has.yielded], congrArg Cursor.runId has.cursor, congrArg Cursor.sequence has.cursor, nofun,
    fun ended => absurd (Option.some.inj ended) other⟩

theorem Has.yield {reader : Reader} (has : Has s reader read) (event : AgentEvent) :
    Has s (reader.yield event) (read ++ [event]) := by
  refine ⟨by simp [Reader.yield, has.yielded], by simp [Reader.yield, has.cursor], fun terminal => ?_⟩
  exact ⟨event, by simp, terminal⟩

theorem leftover_took {reader : Reader} (has : Has s reader read) (going : s.outcome = none) (round : Round)
    {left : List AgentEvent} {lines : List (List Char)} (gone : Missed codec left lines)
    (known : ∀ event ∈ left, event ∈ log.events) (buffer : reader.buffer = terminated ['\n'] lines)
    (all : read ++ left = sent) : ∃ read, Took s (s.leftover codec.parse round reader) sent read := by
  have first : read <+: sent := ⟨left, all⟩
  rw [State.leftover, buffer]
  rcases leftover_missed reader gone known with ⟨rfl, rfl⟩ | ⟨visible, ⟨event, rfl, parsed⟩ | refused⟩
  · rw [if_pos (show (terminated ['\n'] []).all isJsSpace = true from rfl)]
    exact ⟨read, has.settle going first round fun _ => by simpa using all⟩
  · rw [if_neg (by simp [visible]), parsed]
    exact ⟨read ++ [event], (has.yield event).settle going ⟨[], by rw [List.append_nil, all]⟩ round fun _ => all⟩
  · rw [if_neg (by simp [visible]), refused]
    exact ⟨read, has.stopped first nofun⟩

/-- A body of the server, in whatever pieces and however it ends, gives the first of the events sent. -/
theorem read_took (going : s.outcome = none) (known : ∀ event ∈ sent, event ∈ log.events) {round : Round}
    {pieces : List (List Char)} {ending : Ending} {eol : List Char} (ends : LineEnd eol)
    (served : ending = .done [] ∧ pieces.flatten = codec.text eol sent ∨
      ending = .broken ∧ pieces.flatten <+: codec.text eol sent) :
    ∃ read, Took s (s.read codec.parse round pieces ending) sent read := by
  have plain := codec.plain_lines known
  have within : pieces.flatten <+: codec.text eol sent := by
    rcases served with ⟨_, same⟩ | ⟨_, part⟩
    · exact ⟨[], by rw [same, List.append_nil]⟩
    · exact part
  have cut : Paired pieces.flatten := by
    obtain ⟨rest, split⟩ := within
    have whole := paired_terminated ends plain
    rw [← Codec.text, ← split] at whole
    exact whole.left
  have loose := loose_pieces pieces cut
  have begins : (frames (fresh s.cursor).buffer).1 = [] := rfl
  have listed : ∀ event ∈ ([] : List AgentEvent) ++ sent, event ∈ log.events := known
  obtain ⟨read, result, first, _⟩ := read_shows (fresh s.cursor) listed .none (loose_shows ends plain within loose)
  rw [show terminated ['\n'] [] ++ pieces.flatMap normalize = (fresh s.cursor).buffer ++ pieces.flatMap normalize from rfl]
    at result
  rcases served with ⟨rfl, same⟩ | ⟨rfl, _⟩
  · obtain ⟨buffer, chunks, kept⟩ := chunks_spec codec.parse (fresh s.cursor) (pieces ++ [[]]) begins
    have texts : (pieces ++ [[]]).flatMap normalize = pieces.flatMap normalize := by simp [EventStream.normalize]
    rw [texts] at chunks kept
    rw [State.read]
    simp only [show (⟨s.cursor, [], false, []⟩ : Reader) = fresh s.cursor from rfl, chunks, result]
    split
    · exact ⟨read, (has_foldl s read buffer).stopped first fun impossible => by cases impossible⟩
    · split
      · rename_i fine _
        rw [same] at loose
        obtain ⟨readAll, left, lines, result', rest, gone, all⟩ := read_whole (fresh s.cursor) listed .none
          (loose_whole ends plain loose) fine
        rw [show terminated ['\n'] [] ++ pieces.flatMap normalize = (fresh s.cursor).buffer ++ pieces.flatMap normalize from rfl]
          at result' rest
        have sameRead : readAll.foldl Reader.yield (fresh s.cursor) = read.foldl Reader.yield (fresh s.cursor) :=
          result'.symm.trans result
        rw [← sameRead]
        refine leftover_took (has_foldl s readAll buffer) going round gone ?_ ((kept fine).trans rest) all
        intro event member
        exact listed event (all ▸ List.mem_append_right _ member)
      · have lost : (true = false → read = sent) := fun impossible => Bool.noConfusion impossible
        exact ⟨read, (has_foldl s read buffer).settle going first round lost⟩
  · obtain ⟨buffer, chunks, kept⟩ := chunks_spec codec.parse (fresh s.cursor) pieces begins
    rw [State.read]
    simp only [show (⟨s.cursor, [], false, []⟩ : Reader) = fresh s.cursor from rfl, chunks, result]
    split
    · exact ⟨read, (has_foldl s read buffer).stopped first fun impossible => by cases impossible⟩
    · have lost : (true = false → read = sent) := fun impossible => Bool.noConfusion impossible
      split
      · rename_i ended
        cases ended
      · exact ⟨read, (has_foldl s read buffer).settle going first round lost⟩

theorem step_took {entry : Entry log} {round : Round} (going : s.outcome = none) (serves : Serves codec entry s round) :
    ∃ read, Took s (step codec.parse s round) (entry.serve s.request) read := by
  have known : ∀ event ∈ entry.serve s.request, event ∈ log.events := by
    intro event member
    cases request : s.request <;> rw [request] at member <;> exact (List.mem_filter.mp member).1
  have retried : ∀ {otherwise}, otherwise ≠ Outcome.ended →
      Took s (s.reconnect s.cursor round otherwise) (entry.serve s.request) [] :=
    fun other => reconnect_took going other List.nil_prefix (by simp) rfl
  have stops : ∀ {outcome}, outcome ≠ Outcome.ended →
      Took s { s with outcome := some outcome } (entry.serve s.request) [] := fun other =>
    ⟨List.nil_prefix, by simp, rfl, rfl, nofun, fun ended => absurd (Option.some.inj ended) other⟩
  rw [step, going]
  cases answer : round.answer with
  | unreachable accepted =>
    simp only
    split
    · exact ⟨[], stops nofun⟩
    · exact ⟨[], retried nofun⟩
  | status code detail accepted =>
    simp only
    split
    · exact ⟨[], retried nofun⟩
    · exact ⟨[], stops nofun⟩
  | empty => exact ⟨[], retried nofun⟩
  | body pieces ending =>
    obtain ⟨eol, ends, served⟩ := serves pieces ending answer
    exact read_took going known ends served

end Responses

section Progress

variable {log : RunLog} {codec : Codec log.events} {entry : Entry log} {s after : State} {read : List AgentEvent}

theorem filter_split {events : List AgentEvent}
    (ordered : events.Pairwise fun first second => first.sequence < second.sequence) (bound : Nat) :
    (events.filter fun event => event.sequence ≤ bound) ++ (events.filter fun event => bound < event.sequence) = events := by
  induction events with
  | nil => rfl
  | cons event events ih =>
    obtain ⟨below, rest⟩ := List.pairwise_cons.mp ordered
    by_cases here : event.sequence ≤ bound
    · rw [List.filter_cons_of_pos (by simpa using here), List.filter_cons_of_neg (by simpa using here), List.cons_append,
        ih rest]
    · have none : (events.filter fun other => other.sequence ≤ bound) = [] := by
        rw [List.filter_eq_nil_iff]
        intro other member
        have later := below other member
        simp
        omega
      have all : (events.filter fun other => bound < other.sequence) = events := by
        rw [List.filter_eq_self]
        intro other member
        have later := below other member
        simp
        omega
      rw [List.filter_cons_of_neg (by simpa using here), List.filter_cons_of_pos (by simp; omega), none, all]
      rfl

/-- Behind the last of some first events come the others. -/
theorem behind_split {origin : Nat} (first : read <+: log.behind origin) {last : AgentEvent} (ends : read.getLast? = some last) :
    read ++ log.behind last.sequence = log.behind origin := by
  obtain ⟨rest, split⟩ := first
  have ordered : (read ++ rest).Pairwise fun one other => one.sequence < other.sequence := by
    rw [split]
    exact log.ordered.filter _
  have among : last ∈ read := List.mem_of_getLast? ends
  have member : last ∈ log.behind origin := split ▸ List.mem_append_left _ among
  have later : origin < last.sequence := by simpa [RunLog.behind] using (List.mem_filter.mp member).2
  have narrowed : log.behind last.sequence = (log.behind origin).filter fun event => last.sequence < event.sequence := by
    rw [RunLog.behind, RunLog.behind, List.filter_filter]
    apply List.filter_congr
    intro event _
    by_cases above : last.sequence < event.sequence
    · simp [above]
      omega
    · simp [above]
  have before : (read.filter fun event => last.sequence < event.sequence) = [] := by
    rw [List.filter_eq_nil_iff]
    obtain ⟨front, rfl⟩ := List.getLast?_eq_some_iff.mp ends
    intro event inside
    rcases List.mem_append.mp inside with early | same
    · have below := (List.pairwise_append.mp (List.pairwise_append.mp ordered).1).2.2 event early last (by simp)
      simp
      omega
    · simp_all
  have behind : (rest.filter fun event => last.sequence < event.sequence) = rest := by
    rw [List.filter_eq_self]
    intro event inside
    simpa using (List.pairwise_append.mp ordered).2.2 last among event inside
  rw [narrowed, ← split, List.filter_append, before, behind, List.nil_append]

/-- Events of the run that are new to the cursor leave it at the last of them. -/
theorem foldl_see (cursor : Cursor) {read : List AgentEvent} {last : AgentEvent} (ends : read.getLast? = some last)
    (mine : ∀ event ∈ read, event.runId = log.runId)
    (ordered : read.Pairwise fun first second => first.sequence < second.sequence)
    (new : ∀ event ∈ read, cursor.sequence < event.sequence) :
    (read.foldl Cursor.see cursor).runId = log.runId ∧ (read.foldl Cursor.see cursor).sequence = last.sequence := by
  induction read generalizing cursor with
  | nil => cases ends
  | cons event read ih =>
    have seen : cursor.see event = ⟨event.runId, event.sequence, 0⟩ := by
      rw [Cursor.see, if_pos (new event List.mem_cons_self)]
    rw [List.foldl_cons, seen]
    cases read with
    | nil =>
      obtain rfl : event = last := by simpa using ends
      exact ⟨mine event List.mem_cons_self, rfl⟩
    | cons next read =>
      rw [List.getLast?_cons_cons] at ends
      obtain ⟨below, rest⟩ := List.pairwise_cons.mp ordered
      exact ih _ ends (fun other member => mine other (List.mem_cons_of_mem _ member)) rest below

theorem behind_zero (log : RunLog) : log.behind 0 = log.events :=
  List.filter_eq_self.mpr fun event member => by simpa using log.numbered event member

theorem known_le_base (entry : Entry log) : entry.knownSequence ≤ entry.base := by
  cases entry <;> simp [Entry.knownSequence, Entry.base]

/-- Where the stream stands: nothing has come yet, or the events behind one of its two starting points up to the last. -/
structure Progress (entry : Entry log) (s : State) : Prop where
  place : s.yielded = [] ∧ s.cursor.runId = entry.start.cursor.runId ∧ s.cursor.sequence = entry.knownSequence ∨
    ∃ origin last, (origin = entry.base ∨ origin = entry.knownSequence) ∧ s.yielded.getLast? = some last ∧
      s.cursor.sequence = last.sequence ∧ s.cursor.runId = log.runId ∧ s.yielded ++ log.behind last.sequence = log.behind origin
  request : s.outcome = none → s.request = .initial ∧ s.yielded = [] ∨
    s.request = .events s.cursor.runId s.cursor.sequence ∧ s.cursor.runId.isEmpty = false
  ended : s.outcome = some .ended → ∃ last, s.yielded.getLast? = some last ∧ last.type.terminal = true

theorem start_progress (entry : Entry log) : Progress entry entry.start := by
  cases entry <;> exact ⟨Or.inl ⟨rfl, rfl, rfl⟩, fun _ => Or.inl ⟨rfl, rfl⟩, nofun⟩

/-- The events sent come behind a starting point when nothing has come, and behind the last event otherwise. -/
theorem Progress.sent (progress : Progress entry s) (going : s.outcome = none) :
    ∃ origin, entry.serve s.request = log.behind origin ∧ s.cursor.sequence ≤ origin ∧
      (s.yielded = [] → origin = entry.base ∨ origin = entry.knownSequence) ∧
        (s.yielded ≠ [] → origin = s.cursor.sequence) := by
  rcases progress.request going with ⟨initial, none⟩ | ⟨later, _⟩
  · rw [initial]
    refine ⟨entry.base, rfl, ?_, fun _ => Or.inl rfl, fun some => absurd none some⟩
    rcases progress.place with ⟨_, _, known⟩ | ⟨origin, last, _, found, _⟩
    · rw [known]
      exact known_le_base entry
    · rw [none] at found
      cases found
  · rw [later]
    refine ⟨s.cursor.sequence, rfl, Nat.le_refl _, fun none => ?_, fun _ => rfl⟩
    rcases progress.place with ⟨_, _, known⟩ | ⟨origin, last, _, found, _⟩
    · exact Or.inr known
    · rw [none] at found
      cases found

theorem Progress.step (progress : Progress entry s) (going : s.outcome = none) {sent : List AgentEvent}
    (sends : entry.serve s.request = sent) (took : Took s after sent read) : Progress entry after := by
  obtain ⟨origin, behind, below, empty, filled⟩ := progress.sent going
  rw [sends] at behind
  have first : read <+: log.behind origin := behind ▸ took.first
  cases last : read.getLast? with
  | none =>
    have nothing : read = [] := List.getLast?_eq_none_iff.mp last
    subst nothing
    have same : after.yielded = s.yielded := by simpa using took.yielded
    have runId : after.cursor.runId = s.cursor.runId := took.runId
    have sequence : after.cursor.sequence = s.cursor.sequence := took.sequence
    refine ⟨by rw [same, runId, sequence]; exact progress.place, fun pending => Or.inr (took.request pending), fun ended => ?_⟩
    rcases took.ended ended with ⟨other, found, _⟩ | ⟨unnamed, whole⟩
    · cases found
    · -- only a stream that knows no run can stop without one, and it was sent the whole run
      exfalso
      rw [runId] at unnamed
      rcases progress.place with ⟨none, start, known⟩ | ⟨_, _, _, _, _, named, _⟩
      · rcases progress.request going with ⟨initial, _⟩ | ⟨_, named⟩
        · rw [start] at unnamed
          cases entry with
          | run =>
            rw [initial] at sends
            have all : log.behind 0 = sent := sends
            rw [behind_zero, ← whole] at all
            exact log.settled all
          | events | resume => exact log.named (by simpa [Entry.start, EventStream.start] using unnamed)
        · rw [unnamed] at named
          cases named
      · rw [named] at unnamed
        exact log.named (by simpa using unnamed)
  | some event =>
    have mine : ∀ other ∈ read, other.runId = log.runId := fun other member =>
      log.mine other (List.mem_filter.mp (first.subset member)).1
    have ordered : read.Pairwise fun one other => one.sequence < other.sequence :=
      (log.ordered.filter _).sublist first.sublist
    have new : ∀ other ∈ read, s.cursor.sequence < other.sequence := by
      intro other member
      have above : origin < other.sequence := by simpa using (List.mem_filter.mp (first.subset member)).2
      omega
    obtain ⟨named, reached⟩ := foldl_see s.cursor last mine ordered new
    have split := behind_split first last
    have ends : after.yielded.getLast? = some event := by rw [took.yielded, List.getLast?_append, last]; rfl
    refine ⟨Or.inr ?_, fun pending => Or.inr (took.request pending), fun ended => ?_⟩
    · by_cases none : s.yielded = []
      · refine ⟨origin, event, empty none, ends, took.sequence.trans reached, took.runId.trans named, ?_⟩
        rw [took.yielded, none, List.nil_append]
        exact split
      · rcases progress.place with ⟨nothing, _⟩ | ⟨begun, earlier, among, found, here, _, whole⟩
        · exact absurd nothing none
        · refine ⟨begun, event, among, ends, took.sequence.trans reached, took.runId.trans named, ?_⟩
          rw [filled none, here] at split
          rw [took.yielded, List.append_assoc, split]
          exact whole
    · rcases took.ended ended with ⟨other, found, terminal⟩ | ⟨unnamed, _⟩
      · rw [last] at found
        cases found
        exact ⟨event, ends, terminal⟩
      · rw [took.runId, named] at unnamed
        exact absurd (by simpa using unnamed) log.named

/-- The events sent so far to a stream that ended are followed by no other. -/
theorem run_progress (rounds : List Round)
    (serves : Run.Guarded (EventStream.step codec.parse) (Serves codec entry) entry.start rounds) :
    Progress entry (Run.exec (EventStream.step codec.parse) entry.start rounds) := by
  refine Run.Guarded.invariant ?_ serves (start_progress entry)
  intro s round progress serves
  cases going : s.outcome with
  | none =>
    obtain ⟨read, took⟩ := step_took going serves
    exact progress.step going rfl took
  | some outcome =>
    rw [EventStream.step, going]
    exact progress

end Progress

section Completeness

variable {log : RunLog} (codec : Codec log.events) (entry : Entry log) (platform : Platform)

/-- No event that the stream may be sent, other than the last, is of a type at which it stops. -/
def OneStop (entry : Entry log) : Prop :=
  ∀ event ∈ log.events, entry.knownSequence < event.sequence → event.type.terminal = true →
    ∀ other ∈ log.events, other.sequence ≤ event.sequence

theorem complete_of_oneStop (oneStop : OneStop entry) {turn : Turn} (reached : turn.lastSequence = entry.base) {rounds : List Round}
    (serves : Run.Guarded (EventStream.step codec.parse) (Serves codec entry) entry.start rounds)
    (ended : (Run.exec (EventStream.step codec.parse) entry.start rounds).outcome = some .ended) :
    reduceEvents platform turn (Run.exec (EventStream.step codec.parse) entry.start rounds).yielded =
      reduceEvents platform turn log.events := by
  have progress := run_progress rounds serves
  generalize Run.exec (EventStream.step codec.parse) entry.start rounds = s at progress ended ⊢
  obtain ⟨last, found, terminal⟩ := progress.ended ended
  rcases progress.place with ⟨none, _⟩ | ⟨origin, event, among, also, _, _, whole⟩
  · rw [none] at found
    cases found
  rw [found] at also
  cases also
  have member : last ∈ log.behind origin := whole ▸ List.mem_append_left _ (List.mem_of_getLast? found)
  obtain ⟨listed, above⟩ := List.mem_filter.mp member
  have start : origin ≤ entry.base ∧ entry.knownSequence ≤ origin := by
    have order := known_le_base entry
    rcases among with rfl | rfl <;> omega
  have later : origin < last.sequence := by simpa using above
  have top := oneStop last listed (Nat.lt_of_le_of_lt start.2 later) terminal
  have nothing : log.behind last.sequence = [] := by
    rw [RunLog.behind, List.filter_eq_nil_iff]
    intro other member
    have bound := top other member
    simpa using bound
  rw [nothing, List.append_nil] at whole
  rw [whole]
  conv_rhs => rw [← filter_split log.ordered origin]
  have seen : reduceEvents platform turn (log.events.filter fun event => event.sequence ≤ origin) = turn := by
    refine reduceEvents_seen platform fun event member => ?_
    have within : event.sequence ≤ origin := by simpa using (List.mem_filter.mp member).2
    omega
  rw [reduceEvents, reduceEvents, List.foldl_append]
  rw [reduceEvents] at seen
  rw [seen]
  rfl

theorem frames_text {sent : List AgentEvent} (known : ∀ event ∈ sent, event ∈ log.events) (reader : Reader) :
    reader.frames codec.parse (frames (codec.text ['\n'] sent)).1 = (sent.foldl Reader.yield reader, false) := by
  induction sent generalizing reader with
  | nil => rfl
  | cons event sent ih =>
    have now : event ∈ log.events := known event List.mem_cons_self
    have here : ShownEvent codec event [codec.eventLine event, idLine event, codec.dataLine event] :=
      ⟨_, _, _, rfl, Or.inl rfl, Or.inl rfl, Or.inl rfl⟩
    have solid := here.solid now
    have split : codec.text ['\n'] (event :: sent) =
        terminated ['\n'] [codec.eventLine event, idLine event, codec.dataLine event] ++
          '\n' :: codec.text ['\n'] sent := by
      simp [Codec.text, Codec.sentLines, Codec.frameLines, terminated]
    rw [split, join_newline _ (by simp), frames_group (by simp) solid, Reader.frames,
      frame_event reader now here rfl (by simp) fun line member => (solid line member).2]
    exact ih (fun other member => known other (List.mem_cons_of_mem _ member)) (reader.yield event)

theorem normalize_plain {text : List Char} (plain : '\r' ∉ text) : normalize text = text := by
  induction text with
  | nil => rfl
  | cons c text ih =>
    have visible : c ≠ '\r' := fun same => plain (by simp [same])
    rw [normalize_cons visible, ih fun member => plain (List.mem_cons_of_mem _ member)]

theorem return_notMem_text {sent : List AgentEvent} (known : ∀ event ∈ sent, event ∈ log.events) :
    '\r' ∉ codec.text ['\n'] sent := by
  intro member
  obtain ⟨line, among, here⟩ := List.mem_flatMap.mp member
  rcases List.mem_append.mp here with inside | last
  · exact (codec.plain_lines known line among _ inside).2 rfl
  · simp at last

/-- A connection that breaks off behind an event at which the stream stops. -/
theorem read_stop {s : State} {sent : List AgentEvent} (known : ∀ event ∈ sent, event ∈ log.events) {last : AgentEvent}
    (ends : sent.getLast? = some last) (terminal : last.type.terminal = true)
    (named : (sent.foldl Cursor.see s.cursor).runId.isEmpty = false) :
    (s.read codec.parse ⟨.body [codec.text ['\n'] sent] .broken, false, false⟩ [codec.text ['\n'] sent] .broken).yielded =
        s.yielded ++ sent ∧
      (s.read codec.parse ⟨.body [codec.text ['\n'] sent] .broken, false, false⟩ [codec.text ['\n'] sent] .broken).outcome =
        some .ended := by
  obtain ⟨buffer, chunks, _⟩ := chunks_spec codec.parse (fresh s.cursor) [codec.text ['\n'] sent] rfl
  have whole : (fresh s.cursor).buffer ++ [codec.text ['\n'] sent].flatMap normalize = codec.text ['\n'] sent := by
    simp [fresh, normalize_plain (return_notMem_text codec known)]
  rw [whole, frames_text codec known] at chunks
  have stops : (sent.foldl Reader.yield (fresh s.cursor)).terminal = true := by
    rw [foldl_yield, ends]
    exact terminal
  have cursor : (sent.foldl Reader.yield (fresh s.cursor)).cursor = sent.foldl Cursor.see s.cursor := by
    rw [foldl_yield]
    rfl
  have yielded : (sent.foldl Reader.yield (fresh s.cursor)).yielded = sent := by
    rw [foldl_yield]
    rfl
  rw [State.read]
  simp only [show (⟨s.cursor, [], false, []⟩ : Reader) = fresh s.cursor from rfl, chunks, Bool.false_eq_true, if_false]
  rw [State.settle]
  simp only [stops, cursor, yielded, named, Bool.true_or, Bool.and_false, Bool.false_eq_true, if_true, if_false, and_self]

/-- The events behind a number up to another are the first of those behind it. -/
theorem upTo_prefix (origin bound : Nat) :
    ((log.behind origin).filter fun event => event.sequence ≤ bound) <+: log.behind origin :=
  ⟨_, filter_split (log.ordered.filter _) bound⟩

theorem text_prefix {first sent : List AgentEvent} (within : first <+: sent) (eol : List Char) :
    codec.text eol first <+: codec.text eol sent := by
  obtain ⟨rest, rfl⟩ := within
  exact ⟨codec.text eol rest, by simp [Codec.text, Codec.sentLines, terminated]⟩

/-- The last of the events up to one of them. -/
theorem upTo_getLast {origin : Nat} {event : AgentEvent} (listed : event ∈ log.events) (above : origin < event.sequence) :
    ((log.behind origin).filter fun other => other.sequence ≤ event.sequence).getLast? = some event := by
  have ordered := (log.ordered.filter fun other => origin < other.sequence).filter fun other => other.sequence ≤ event.sequence
  have within : ∀ other ∈ (log.behind origin).filter (fun other => other.sequence ≤ event.sequence),
      other.sequence ≤ event.sequence := fun other member => by simpa using (List.mem_filter.mp member).2
  have member : event ∈ (log.behind origin).filter fun other => other.sequence ≤ event.sequence := by
    simp [RunLog.behind, listed, above]
  rw [← RunLog.behind] at ordered
  generalize (log.behind origin).filter (fun other => other.sequence ≤ event.sequence) = upTo at *
  rcases List.eq_nil_or_concat' upTo with rfl | ⟨front, last, rfl⟩
  · cases member
  · rw [List.getLast?_concat]
    rcases List.mem_append.mp member with early | same
    · have below := (List.pairwise_append.mp ordered).2.2 event early last (by simp)
      have bound := within last (by simp)
      omega
    · rw [List.mem_singleton.mp same]

/-- The round in which the connection breaks off behind the event. -/
def stopRound (origin : Nat) (event : AgentEvent) : Round :=
  ⟨.body [codec.text ['\n'] ((log.behind origin).filter fun other => other.sequence ≤ event.sequence)] .broken, false, false⟩

theorem stopRound_ends {s : State} (origin : Nat) {event : AgentEvent} (going : s.outcome = none) (none : s.yielded = [])
    (sends : entry.serve s.request = log.behind origin) (known : s.cursor.sequence ≤ origin) (listed : event ∈ log.events)
    (above : origin < event.sequence) (terminal : event.type.terminal = true) :
    Serves codec entry s (stopRound codec origin event) ∧
      (EventStream.step codec.parse s (stopRound codec origin event)).yielded =
        ((log.behind origin).filter fun other => other.sequence ≤ event.sequence) ∧
      (EventStream.step codec.parse s (stopRound codec origin event)).outcome = some .ended := by
  have first : ((log.behind origin).filter fun other => other.sequence ≤ event.sequence) <+: log.behind origin :=
    upTo_prefix origin event.sequence
  have last := upTo_getLast listed above
  have inside : ∀ other ∈ (log.behind origin).filter (fun other => other.sequence ≤ event.sequence), other ∈ log.events :=
    fun other member => (List.mem_filter.mp (first.subset member)).1
  have new : ∀ other ∈ (log.behind origin).filter (fun other => other.sequence ≤ event.sequence),
      s.cursor.sequence < other.sequence := by
    intro other member
    have behind : origin < other.sequence := by simpa using (List.mem_filter.mp (first.subset member)).2
    omega
  obtain ⟨named, _⟩ := foldl_see s.cursor last (fun other member => log.mine other (inside other member))
    ((log.ordered.filter _).filter _) new
  have result := read_stop codec (s := s) inside last terminal (by rw [named]; simpa using log.named)
  refine ⟨?_, ?_, ?_⟩
  · intro pieces ending answer
    cases answer
    refine ⟨['\n'], Or.inl rfl, Or.inr ⟨rfl, ?_⟩⟩
    rw [sends]
    simpa using text_prefix codec first ['\n']
  · rw [EventStream.step, going, stopRound]
    rw [none, List.nil_append] at result
    exact result.1
  · rw [EventStream.step, going, stopRound]
    exact result.2

/-- A network on which the stream ends behind an event at which it stops. -/
theorem exists_stop {event : AgentEvent} (listed : event ∈ log.events) (above : entry.knownSequence < event.sequence)
    (terminal : event.type.terminal = true) :
    ∃ rounds, Run.Guarded (EventStream.step codec.parse) (Serves codec entry) entry.start rounds ∧
      (Run.exec (EventStream.step codec.parse) entry.start rounds).yielded =
        ((log.behind entry.knownSequence).filter fun other => other.sequence ≤ event.sequence) ∧
      (Run.exec (EventStream.step codec.parse) entry.start rounds).outcome = some .ended := by
  cases entry with
  | run =>
    have ends := stopRound_ends codec .run (s := (Entry.run : Entry log).start) 0 rfl rfl rfl (Nat.le_refl _) listed above
      terminal
    exact ⟨[stopRound codec 0 event], ⟨ends.1, trivial⟩, ends.2⟩
  | events afterSequence =>
    have ends := stopRound_ends codec (.events afterSequence) (s := (Entry.events afterSequence : Entry log).start)
      afterSequence rfl rfl rfl (Nat.le_refl _) listed above terminal
    exact ⟨[stopRound codec afterSequence event], ⟨ends.1, trivial⟩, ends.2⟩
  | resume interruptedAt goesOn =>
    -- the resumed stream gives nothing, and the client asks for the run from its start
    have asked : EventStream.step codec.parse (Entry.resume interruptedAt goesOn).start
        ⟨.unreachable true, false, false⟩ = ⟨.events log.runId 0, ⟨log.runId, 0, 1⟩, [], none⟩ := by
      have named : log.runId.isEmpty = false := by simpa using log.named
      simp [EventStream.step, Entry.start, EventStream.start, State.reconnect, named, maxReconnectAttempts]
    have ends := stopRound_ends codec (.resume interruptedAt goesOn)
      (s := ⟨.events log.runId 0, ⟨log.runId, 0, 1⟩, [], none⟩) 0 rfl rfl rfl (Nat.le_refl _) listed above terminal
    refine ⟨[⟨.unreachable true, false, false⟩, stopRound codec 0 event], ⟨nofun, ?_, trivial⟩, ?_⟩
    · rw [asked]
      exact ends.1
    · rw [Run.exec_cons, asked]
      exact ends.2

theorem oneStop_of_complete {turn : Turn} (follows : Follows log.runId turn) (reached : turn.lastSequence = entry.base)
    (complete : ∀ rounds, Run.Guarded (EventStream.step codec.parse) (Serves codec entry) entry.start rounds →
      (Run.exec (EventStream.step codec.parse) entry.start rounds).outcome = some .ended →
        reduceEvents platform turn (Run.exec (EventStream.step codec.parse) entry.start rounds).yielded =
          reduceEvents platform turn log.events) : OneStop entry := by
  intro event listed above terminal other among
  by_contra later
  obtain ⟨rounds, serves, yielded, ended⟩ := exists_stop codec entry listed above terminal
  have same := complete rounds serves ended
  rw [yielded] at same
  have short : (reduceEvents platform turn
      ((log.behind entry.knownSequence).filter fun other => other.sequence ≤ event.sequence)).lastSequence ≤
        max entry.base event.sequence := by
    refine reduceEvents_le platform follows ?_ ?_ (by rw [reached]; exact Nat.le_max_left _ _)
    · intro one member
      exact log.mine one (List.mem_filter.mp (List.mem_filter.mp member).1).1
    · intro one member
      have within : one.sequence ≤ event.sequence := by simpa using (List.mem_filter.mp member).2
      exact within.trans (Nat.le_max_right _ _)
  rw [same] at short
  have members := (le_reduceEvents platform follows log.mine).2
  have top := members other among
  have further : entry.base < (reduceEvents platform turn log.events).lastSequence := by
    cases entry with
    | run =>
      have above : 0 < event.sequence := above
      simp only [Entry.base]
      omega
    | events afterSequence =>
      have above : afterSequence < event.sequence := above
      simp only [Entry.base]
      omega
    | resume interruptedAt goesOn =>
      obtain ⟨one, member, behind⟩ := goesOn
      exact Nat.lt_of_lt_of_le behind (members one member)
  omega

/-- A stream that ends normally gives the whole turn on every network, exactly when the run has no event before its last
at which the stream would stop. -/
theorem turn_complete_iff {turn : Turn} (follows : Follows log.runId turn) (reached : turn.lastSequence = entry.base) :
    (∀ rounds, Run.Guarded (EventStream.step codec.parse) (Serves codec entry) entry.start rounds →
      (Run.exec (EventStream.step codec.parse) entry.start rounds).outcome = some .ended →
        reduceEvents platform turn (Run.exec (EventStream.step codec.parse) entry.start rounds).yielded =
          reduceEvents platform turn log.events) ↔ OneStop entry :=
  ⟨oneStop_of_complete codec entry platform follows reached,
    fun oneStop _ serves ended => complete_of_oneStop codec entry platform oneStop reached serves ended⟩

end Completeness

section Samples

def sampleEvent (sequence : Nat) (type : EventType) : AgentEvent := ⟨type, "run_1", sequence, "", []⟩

/-- A run that was interrupted for some approvals. -/
def interrupted (approvals : Nat) : List AgentEvent :=
  sampleEvent 1 .runStarted :: (List.range approvals).map fun number => sampleEvent (number + 2) .approvalRequired

theorem interruptedRun_named : "run_1" ≠ "" := by decide

def interruptedLog (approvals : Nat) : RunLog where
  runId := "run_1"
  events := interrupted approvals
  named := interruptedRun_named
  mine := by
    intro event member
    simp only [interrupted, List.mem_cons, List.mem_map] at member
    rcases member with rfl | ⟨number, _, rfl⟩ <;> rfl
  ordered := by
    rw [interrupted, List.pairwise_cons]
    constructor
    · intro event member
      obtain ⟨number, _, rfl⟩ := List.mem_map.mp member
      simp [sampleEvent]
    · rw [List.pairwise_map]
      exact List.pairwise_lt_range.imp fun {first second} below => by simpa [sampleEvent] using below
  numbered := by
    intro event member
    simp only [interrupted, List.mem_cons, List.mem_map] at member
    rcases member with rfl | ⟨number, _, rfl⟩ <;> simp [sampleEvent]
  settled := by simp [interrupted]

/-- The object of an event, as its number in unary. -/
def sampleEncode (event : AgentEvent) : List Char := '\x7b' :: List.replicate event.sequence '1' ++ ['\x7d']

/-- A reader of these objects, with white space behind them and nothing else. -/
def sampleParse (events : List AgentEvent) (text : List Char) : Option AgentEvent :=
  if text.count '\x7b' = 1 then
    events.find? fun event => sampleEncode event == text || sampleEncode event ++ ['\r'] == text
  else none

theorem eq_of_sequence {log : RunLog} {first second : AgentEvent} (one : first ∈ log.events) (two : second ∈ log.events)
    (same : first.sequence = second.sequence) : first = second := by
  have front := upTo_getLast one (log.numbered first one)
  have back := upTo_getLast two (log.numbered second two)
  rw [same, back] at front
  exact (Option.some.inj front).symm

theorem sampleEncode_count {event : AgentEvent} {shown : List Char} (variant : Variant (sampleEncode event) shown) :
    shown.count '\x7b' = 1 ∧ shown.count '1' = event.sequence := by
  rcases variant with rfl | rfl <;> simp [sampleEncode, List.count_append, List.count_replicate]

theorem sampleParse_encode {log : RunLog} {event : AgentEvent} (listed : event ∈ log.events) {shown : List Char}
    (variant : Variant (sampleEncode event) shown) : sampleParse log.events shown = some event := by
  obtain ⟨once, digits⟩ := sampleEncode_count variant
  have holds : (sampleEncode event == shown || sampleEncode event ++ ['\r'] == shown) = true := by
    rcases variant with rfl | rfl <;> simp
  rw [sampleParse, if_pos once]
  cases found : log.events.find? fun event => sampleEncode event == shown || sampleEncode event ++ ['\r'] == shown with
  | none => exact absurd holds (List.find?_eq_none.mp found event listed)
  | some other =>
    have matching := List.find?_some found
    simp only [Bool.or_eq_true, beq_iff_eq] at matching
    have reads : Variant (sampleEncode other) shown := matching.imp Eq.symm Eq.symm
    rw [eq_of_sequence (List.mem_of_find?_eq_some found) listed ((sampleEncode_count reads).2.symm.trans digits)]

theorem sampleEncode_plain (event : AgentEvent) : Plain (sampleEncode event) := by
  intro c member
  simp only [sampleEncode, List.cons_append, List.mem_cons, List.mem_append, List.mem_replicate, List.not_mem_nil,
    or_false] at member
  rcases member with rfl | ⟨_, rfl⟩ | rfl <;> decide

def sampleCodec (log : RunLog) : Codec log.events where
  name _ := ['r', 'u', 'n']
  encode := sampleEncode
  parse := sampleParse log.events
  plainName _ _ := plain_of_all (by decide)
  plain event _ := sampleEncode_plain event
  opens event _ := ⟨_, rfl⟩
  reads event listed shown variant := sampleParse_encode listed variant
  refuses event listed rest again := by
    have once : (sampleEncode event).count '\x7b' = 1 := (sampleEncode_count (Or.inl rfl)).1
    have more : 0 < rest.count '\x7b' := List.count_pos_iff.mpr again
    rw [sampleParse, if_neg]
    rw [List.count_append, once]
    omega

def samplePlatform : Platform := ⟨fun _ => "", id⟩

def sampleTurn : Turn := ⟨"", "", [], "", [], [], [], [], none, .running, 0, ""⟩

theorem oneStop_interrupted : OneStop (.run : Entry (interruptedLog 1)) := by
  intro event listed _ terminal other among
  simp only [interruptedLog, interrupted, List.range_one, List.map_cons, List.map_nil, List.mem_cons, List.not_mem_nil,
    or_false] at listed among
  rcases listed with rfl | rfl
  · cases terminal
  · rcases among with rfl | rfl <;> simp [sampleEvent]

theorem turn_complete_one_approval : OneStop (.run : Entry (interruptedLog 1)) ∧
    ((∀ rounds, Run.Guarded (EventStream.step (sampleCodec (interruptedLog 1)).parse)
        (Serves (sampleCodec (interruptedLog 1)) .run) (Entry.start (.run : Entry (interruptedLog 1))) rounds →
      (Run.exec (EventStream.step (sampleCodec (interruptedLog 1)).parse)
          (Entry.start (.run : Entry (interruptedLog 1))) rounds).outcome = some .ended →
        reduceEvents samplePlatform sampleTurn (Run.exec (EventStream.step (sampleCodec (interruptedLog 1)).parse)
            (Entry.start (.run : Entry (interruptedLog 1))) rounds).yielded =
          reduceEvents samplePlatform sampleTurn (interruptedLog 1).events) ↔ OneStop (.run : Entry (interruptedLog 1))) :=
  ⟨oneStop_interrupted, turn_complete_iff (sampleCodec (interruptedLog 1)) .run samplePlatform (Or.inl rfl) rfl⟩

/-- The run waits for two approvals, and the connection breaks off behind the first of them. -/
theorem broken_between_approvals : ¬ ∀ rounds,
    Run.Guarded (EventStream.step (sampleCodec (interruptedLog 2)).parse) (Serves (sampleCodec (interruptedLog 2)) .run)
        (Entry.start (.run : Entry (interruptedLog 2))) rounds →
      (Run.exec (EventStream.step (sampleCodec (interruptedLog 2)).parse)
          (Entry.start (.run : Entry (interruptedLog 2))) rounds).outcome = some .ended →
        reduceEvents samplePlatform sampleTurn (Run.exec (EventStream.step (sampleCodec (interruptedLog 2)).parse)
            (Entry.start (.run : Entry (interruptedLog 2))) rounds).yielded =
          reduceEvents samplePlatform sampleTurn (interruptedLog 2).events := by
  intro complete
  have oneStop := oneStop_of_complete (sampleCodec (interruptedLog 2)) .run samplePlatform
    (Or.inl rfl : Follows "run_1" sampleTurn) rfl complete
  have first : sampleEvent 2 .approvalRequired ∈ (interruptedLog 2).events := by
    simp [interruptedLog, interrupted, List.range_succ]
  have second : sampleEvent 3 .approvalRequired ∈ (interruptedLog 2).events := by
    simp [interruptedLog, interrupted, List.range_succ]
  have wrong := oneStop _ first (by simp [Entry.knownSequence, sampleEvent]) rfl _ second
  simp [sampleEvent] at wrong

end Samples

end OpenTulpa.Tui.Turns
