import OpenTulpa.Library.Json
import OpenTulpa.Library.Run

/-! The event stream of the terminal client: the incremental parser of server-sent events, and the loop that reads a
response, decides from the last event whether the stream has ended, and otherwise asks for the events behind it. -/

namespace OpenTulpa.Tui.EventStream

open Library

section Events

inductive EventType where
  | runStarted
  | messageDelta
  | toolStarted
  | toolCompleted
  | approvalRequired
  | artifactReady
  | runCompleted
  | runFailed
  | other (name : String)
  deriving DecidableEq

structure AgentEvent where
  type : EventType
  runId : String
  sequence : Nat
  timestamp : String
  data : List (String × Json)

def EventType.terminal : EventType → Bool
  | .runCompleted | .runFailed | .approvalRequired => true
  | _ => false

end Events

section Frames

/-- `replaceAll("\r\n", "\n")` -/
@[grind =] def normalize : List Char → List Char
  | '\r' :: '\n' :: rest => '\n' :: normalize rest
  | c :: rest => c :: normalize rest
  | [] => []

/-- The frames that an empty line ends, and the rest of the buffer. -/
@[grind =] def frames : List Char → List (List Char) × List Char
  | '\n' :: '\n' :: rest => ([] :: (frames rest).1, (frames rest).2)
  | c :: rest =>
    match frames rest with
    | (frame :: later, buffer) => ((c :: frame) :: later, buffer)
    | ([], buffer) => ([], c :: buffer)
  | [] => ([], [])

/-- `split("\n")` -/
@[grind =] def lines : List Char → List (List Char)
  | [] => [[]]
  | c :: rest =>
    if c = '\n' then [] :: lines rest
    else
      match lines rest with
      | line :: later => (c :: line) :: later
      | [] => [[c]]

/-- What `trimStart` and `trim` remove. -/
def isJsSpace (c : Char) : Bool :=
  let n := c.toNat
  (9 ≤ n && n ≤ 13) || n == 32 || n == 0xA0 || n == 0xFEFF || n == 0x1680 || (0x2000 ≤ n && n ≤ 0x200A) ||
    n == 0x2028 || n == 0x2029 || n == 0x202F || n == 0x205F || n == 0x3000

def dataField : List Char := ['d', 'a', 't', 'a', ':']

/-- The data of a frame. -/
def frameData (frame : List Char) : List Char :=
  ['\n'].intercalate (((lines frame).filter fun line => dataField.isPrefixOf line).map fun line =>
    (line.drop 5).dropWhile isJsSpace)

end Frames

section Reading

/-- What is kept across responses. -/
structure Cursor where
  runId : String
  sequence : Nat
  reconnectAttempts : Nat
  deriving DecidableEq

/-- The state of the reader within one response; `terminal` is about the last event of the response. -/
structure Reader where
  cursor : Cursor
  buffer : List Char
  terminal : Bool
  yielded : List AgentEvent

def Cursor.see (cursor : Cursor) (event : AgentEvent) : Cursor :=
  if cursor.sequence < event.sequence then ⟨event.runId, event.sequence, 0⟩ else { cursor with runId := event.runId }

def Reader.yield (reader : Reader) (event : AgentEvent) : Reader :=
  { reader with
    cursor := reader.cursor.see event
    terminal := event.type.terminal
    yielded := reader.yielded ++ [event] }

variable (parse : List Char → Option AgentEvent)

/-- One frame; `none` when `event` raises. -/
def Reader.frame (reader : Reader) (frame : List Char) : Option Reader :=
  if (frameData frame).isEmpty then some reader else (parse (frameData frame)).map reader.yield

/-- The frames of a chunk; the flag says that one of them raised. -/
@[grind =] def Reader.frames (reader : Reader) : List (List Char) → Reader × Bool
  | [] => (reader, false)
  | first :: rest =>
    match reader.frame parse first with
    | some next => next.frames rest
    | none => (reader, true)

/-- The decoded text of one chunk. -/
def Reader.chunk (reader : Reader) (text : List Char) : Reader × Bool :=
  let split := EventStream.frames (reader.buffer ++ normalize text)
  { reader with buffer := split.2 }.frames parse split.1

@[grind =] def Reader.chunks (reader : Reader) : List (List Char) → Reader × Bool
  | [] => (reader, false)
  | text :: rest =>
    match reader.chunk parse text with
    | (next, false) => next.chunks rest
    | (next, true) => (next, true)

end Reading

section Connection

/-- How a body ends: after the decoder has flushed what it still held, or by an error of the connection. -/
inductive Ending where
  | done (flushed : List Char)
  | broken
  deriving DecidableEq

/-- What a request gets. The flag says whether the server accepted it, whatever became of the answer; the text of a
body comes in the pieces that the decoder gives for the chunks. -/
inductive Answer where
  | unreachable (accepted : Bool)
  | status (code : Nat) (detail : Option String) (accepted : Bool)
  | empty
  | body (pieces : List (List Char)) (ending : Ending)
  deriving DecidableEq

/-- An answer, and whether the caller aborts before it is used up or while the client waits to reconnect. -/
structure Round where
  answer : Answer
  aborted : Bool := false
  abortedWait : Bool := false
  deriving DecidableEq

/-- The request of the call, or the events of the run behind a sequence number. -/
inductive Request where
  | initial
  | events (runId : String) (afterSequence : Nat)
  deriving DecidableEq

inductive Outcome where
  | ended
  | aborted
  | raised (message : String)
  deriving DecidableEq

structure State where
  request : Request
  cursor : Cursor
  yielded : List AgentEvent
  outcome : Option Outcome

/-- `stream` with the run and the sequence number it is told. -/
def start (knownRunId : String) (knownSequence : Nat) : State :=
  ⟨.initial, ⟨knownRunId, knownSequence, 0⟩, [], none⟩

def maxReconnectAttempts : Nat := 30

/-- `reconnect`: the next request, or the end that the caller gives when there is none. -/
def State.reconnect (s : State) (cursor : Cursor) (round : Round) (otherwise : Outcome) : State :=
  if round.aborted || cursor.runId.isEmpty || maxReconnectAttempts ≤ cursor.reconnectAttempts then
    { s with cursor := cursor, outcome := some otherwise }
  else if round.abortedWait then
    { s with cursor := { cursor with reconnectAttempts := cursor.reconnectAttempts + 1 }, outcome := some otherwise }
  else
    { s with
      request := .events cursor.runId cursor.sequence
      cursor := { cursor with reconnectAttempts := cursor.reconnectAttempts + 1 } }

def disconnectedError : Outcome := .raised "The OpenTulpa event stream disconnected."

/-- `error` -/
def statusError (code : Nat) (detail : Option String) : Outcome :=
  .raised (detail.getD ("OpenTulpa request failed (HTTP " ++ toString code ++ ")."))

def gatewayStatus (code : Nat) : Bool := code == 502 || code == 503 || code == 504

variable (parse : List Char → Option AgentEvent)

/-- The decision behind the last chunk of a response. -/
def State.settle (s : State) (round : Round) (reader : Reader) (disconnected : Bool) : State :=
  let s := { s with cursor := reader.cursor, yielded := s.yielded ++ reader.yielded }
  if reader.terminal || reader.cursor.runId.isEmpty then
    if disconnected && reader.cursor.runId.isEmpty then { s with outcome := some disconnectedError }
    else { s with outcome := some .ended }
  else s.reconnect reader.cursor round disconnectedError

/-- What is left in the buffer when a body ends without an error. -/
def State.leftover (s : State) (round : Round) (reader : Reader) : State :=
  if reader.buffer.all isJsSpace then s.settle round reader false
  else
    match reader.frame parse reader.buffer with
    | some last => s.settle round last false
    | none =>
      { s with
        cursor := reader.cursor
        yielded := s.yielded ++ reader.yielded
        outcome := some (.raised "OpenTulpa returned an invalid stream event.") }

def State.read (s : State) (round : Round) (pieces : List (List Char)) (ending : Ending) : State :=
  let texts := match ending with
    | .done flushed => pieces ++ [flushed]
    | .broken => pieces
  let result := (⟨s.cursor, [], false, []⟩ : Reader).chunks parse texts
  if round.aborted then
    { s with cursor := result.1.cursor, yielded := s.yielded ++ result.1.yielded, outcome := some .aborted }
  else
    match result.2, ending with
    | false, .done _ => s.leftover parse round result.1
    | _, _ => s.settle round result.1 true

/-- One turn of the loop. -/
def step (s : State) (round : Round) : State :=
  match s.outcome with
  | some _ => s
  | none =>
    match round.answer with
    | .unreachable _ =>
      if round.aborted then { s with outcome := some .aborted } else s.reconnect s.cursor round disconnectedError
    | .status code detail _ =>
      if gatewayStatus code then s.reconnect s.cursor round (statusError code detail)
      else { s with outcome := some (statusError code detail) }
    | .empty => s.reconnect s.cursor round (.raised "OpenTulpa returned an empty event stream.")
    | .body pieces ending => s.read parse round pieces ending

def Answer.accepted : Answer → Bool
  | .unreachable accepted | .status _ _ accepted => accepted
  | .empty | .body .. => true

end Connection

end OpenTulpa.Tui.EventStream
