import OpenTulpa.Library.Calls
import OpenTulpa.Library.Run
import OpenTulpa.Library.Text

/-! The broker of capability tools: the checks of a call, its idempotency key, and the execution under the lock of the
key, cut where it awaits: the store of results, the audit sink and the adapter. -/

namespace OpenTulpa.Mcp.Broker

open Library Text

section Models

inductive ApprovalMode where
  | auto
  | always
  | policy
  deriving DecidableEq

inductive IdempotencyMode where
  | none
  | derived
  | required
  deriving DecidableEq

inductive ToolEffect where
  | read
  | create
  | update
  | delete
  | send
  | execute
  | authorize
  deriving DecidableEq

structure ToolPolicy where
  approval : ApprovalMode
  effect : ToolEffect
  idempotency : IdempotencyMode
  deriving DecidableEq

/-- What a binding says about its tool: where it comes from, its policy, and the parts of the input schema that are
checked. -/
structure Binding where
  capability : String
  revision : Nat
  worker : String
  policy : ToolPolicy
  properties : List String
  required : List String
  additionalProperties : Bool
  deriving DecidableEq

structure MCPBrokerError where
  code : String
  message : String
  retryable : Bool := false
  deriving DecidableEq

inductive Status where
  | ok
  | approvalRequired
  | error
  deriving DecidableEq

structure MCPBrokerResult (α : Type) where
  status : Status
  data : Option α := none
  error : Option MCPBrokerError := none
  auditId : String
  idempotencyKey : Option String := none
  replayed : Bool := false
  deriving DecidableEq

/-- The arguments of `invoke`. A tool argument is its name with the JSON text of its value, if it has one. -/
structure Request where
  instanceId : String
  toolName : String
  arguments : List (String × Option String)
  tenantId : String
  toolCallId : String
  approvalGranted : Bool := false
  approvalEnforced : Bool := true
  idempotencyKey : Option String := none
  deriving DecidableEq

inductive KeyMaterial where
  | supplied (key : String)
  | derived (toolCallId : String) (arguments : List (String × Option String))
  deriving DecidableEq

/-- What the canonical text of a key is made of. -/
structure KeySource where
  tenantId : String
  instanceId : String
  capability : String
  revision : Nat
  worker : String
  tool : String
  material : KeyMaterial
  deriving DecidableEq

end Models

/-- The registered tools and what the broker is given: the hash of a canonical text, Unicode lower case, the policy
hook, the redactor, and how the store writes a result and reads it back. Where one of these raises it is `none`. -/
structure MCPToolBroker (α τ : Type) where
  bindings : List ((String × String) × Binding)
  sha256 : KeySource → String
  lower : String → String
  approvalHook : Option (Request → Bool)
  redact : α → Option α
  write : MCPBrokerResult α → Option τ
  read : τ → Option (MCPBrokerResult α)

section Checks

variable {α τ : Type} (broker : MCPToolBroker α τ)

def reservedArguments : List String :=
  ["actor_id", "audit_id", "channel", "correlation_id", "customer_id", "idempotency_key", "run_kind", "tenant_id",
    "thread_id", "tool_call_id"]

def errorResult (auditId code message : String) (retryable : Bool) (idempotencyKey : Option String) :
    MCPBrokerResult α :=
  { status := .error, error := some ⟨code, message, retryable⟩, auditId, idempotencyKey }

/-- `_validate_arguments` -/
def validateArguments (binding : Binding) (arguments : List (String × Option String)) : Option String :=
  let names := arguments.map Prod.fst
  let missing := binding.required.filter fun name => !names.contains name
  let unknown := names.filter fun name => !binding.properties.contains name
  if !missing.isEmpty then some ("Missing required arguments: " ++ ", ".intercalate missing.mergeSort ++ ".")
  else if !binding.additionalProperties && !unknown.isEmpty then
    some ("Unknown arguments: " ++ ", ".intercalate unknown.mergeSort ++ ".")
  else if arguments.any fun argument => argument.2.isNone then some "Tool arguments must contain only JSON values."
  else none

/-- `_idempotency_key`; the error is its `ValueError`. -/
def idempotencyKey (binding : Binding) (request : Request) : Except String (Option String) := do
  if binding.policy.idempotency = .none then return none
  let material ← match request.idempotencyKey with
    | some supplied =>
      let safe := strip supplied
      if safe.isEmpty || 500 < safe.length then throw "idempotency_key must contain 1 to 500 characters"
      pure (KeyMaterial.supplied safe)
    | none => pure (KeyMaterial.derived request.toolCallId request.arguments)
  return some ("mcp_" ++ broker.sha256 ⟨request.tenantId, request.instanceId, binding.capability, binding.revision,
    binding.worker, request.toolName, material⟩)

/-- `_core_requires_approval` -/
def coreRequiresApproval (policy : ToolPolicy) : Bool := policy.approval != .auto || policy.effect != .read

def requiresApproval (binding : Binding) (request : Request) : Bool :=
  request.approvalEnforced &&
    (coreRequiresApproval binding.policy || broker.approvalHook.any fun hook => hook request)

/-- The part of `invoke` before the execution: the key of the call, or the result it returns at once. -/
def prepare (request : Request) (auditId : String) : Except (MCPBrokerResult α) (Option String) :=
  match broker.bindings.lookup (request.instanceId, request.toolName) with
  | none =>
    .error (errorResult auditId "tool_unavailable" "The requested capability tool is unavailable." false none)
  | some binding =>
    if request.arguments.any fun argument => reservedArguments.contains (broker.lower argument.1) then
      .error (errorResult auditId "reserved_argument" "Trusted runtime fields cannot be supplied as tool arguments."
        false none)
    else
      match validateArguments binding request.arguments with
      | some message => .error (errorResult auditId "invalid_arguments" message false none)
      | none =>
        match idempotencyKey broker binding request with
        | .error _ =>
          .error (errorResult auditId "invalid_idempotency_key" "The trusted idempotency key is invalid." false none)
        | .ok key =>
          if requiresApproval broker binding request && !request.approvalGranted then
            .error { status := .approvalRequired, auditId, idempotencyKey := key }
          else .ok key

end Checks

section Execution

variable {α τ : Type} (broker : MCPToolBroker α τ)

/-- The point that an execution has reached; the lock of the key is held from `entered` on. -/
inductive Phase (α : Type) where
  | waiting
  | entered
  | missed
  | invoking
  | saving (raw : α)
  | recording (result : MCPBrokerResult α)
  deriving DecidableEq

structure Call (α : Type) where
  key : Option String
  auditId : String
  phase : Phase α
  deriving DecidableEq

/-- What happened, for each key: an execution of the adapter began, one returned normally, a call returned a result or
raised (`none`). -/
inductive Entry (α : Type) where
  | invoked (id : Nat) (key : Option String)
  | returned (id : Nat) (key : Option String) (raw : α)
  | answered (id : Nat) (key : Option String) (answer : Option (MCPBrokerResult α))
  deriving DecidableEq

/-- The stored results, the writes of calls that were cancelled while a thread was writing, how many calls have begun,
those in flight, and what happened, the latest first. -/
structure State (α τ : Type) where
  stored : List (String × τ)
  detached : List (String × τ)
  begun : Nat
  calls : Calls (Call α)
  log : List (Entry α)

inductive Outcome (α : Type) where
  | returned (raw : α)
  | timedOut
  | raised
  deriving DecidableEq

/-- Calls are numbered as they begin. A flag says whether the awaited store or sink did its work or raised. -/
inductive Event (α : Type) where
  | begin (request : Request) (auditId : String)
  | acquire (id : Nat)
  | lookUp (id : Nat) (ok : Bool)
  | record (id : Nat) (ok : Bool)
  | settle (id : Nat) (outcome : Outcome α)
  | save (id : Nat) (ok : Bool)
  | cancel (id : Nat)
  | land
  deriving DecidableEq

def start (stored : List (String × τ)) : State α τ := ⟨stored, [], 0, [], []⟩

def Call.inside (call : Call α) : Bool :=
  match call.phase with
  | .waiting => false
  | _ => true

def Call.okResult (call : Call α) (data : α) : MCPBrokerResult α :=
  { status := .ok, data := some data, auditId := call.auditId, idempotencyKey := call.key }

def Call.timeoutResult (call : Call α) : MCPBrokerResult α :=
  errorResult call.auditId "timeout" "The capability tool timed out." true call.key

def Call.failedResult (call : Call α) : MCPBrokerResult α :=
  errorResult call.auditId "operation_failed" "The capability tool could not be completed." false call.key

def Call.replay (call : Call α) (cached : MCPBrokerResult α) : MCPBrokerResult α :=
  { cached with auditId := call.auditId, replayed := true }

variable {α τ : Type} (broker : MCPToolBroker α τ) (s : State α τ)

def State.goOn (id : Nat) (call : Call α) (phase : Phase α) : State α τ :=
  { s with calls := s.calls.put id { call with phase := phase } }

def State.note (entry : Entry α) : State α τ := { s with log := entry :: s.log }

/-- The call returns or raises, and the lock is released. -/
def State.answer (id : Nat) (call : Call α) (answer : Option (MCPBrokerResult α)) : State α τ :=
  { s with calls := s.calls.drop id }.note (.answered id call.key answer)

/-- `INSERT OR IGNORE`, as `setdefault` does in memory. -/
def insertOrIgnore (stored : List (String × τ)) (key : String) (row : τ) : List (String × τ) :=
  if (stored.lookup key).isSome then stored else (key, row) :: stored

/-- Another call is inside with the same key. -/
def State.locked (id : Nat) (call : Call α) : Bool :=
  call.key.isSome && s.calls.any fun other => other.1 != id && other.2.inside && other.2.key == call.key

def State.lookUp (id : Nat) (call : Call α) (ok : Bool) : State α τ :=
  match call.key with
  | none => s.goOn id call .missed
  | some key =>
    if !ok then s.answer id call none
    else
      match s.stored.lookup key with
      | none => s.goOn id call .missed
      | some row =>
        match broker.read row with
        | none => s.answer id call none
        | some cached => s.goOn id call (.recording (call.replay cached))

/-- `_redact`, then `put` for a call with a key. -/
def State.save (id : Nat) (call : Call α) (raw : α) (ok : Bool) : State α τ :=
  match broker.redact raw, call.key with
  | none, _ => s.goOn id call (.recording call.failedResult)
  | some data, none => s.goOn id call (.recording (call.okResult data))
  | some data, some key =>
    match broker.write (call.okResult data) with
    | none => s.goOn id call (.recording call.failedResult)
    | some row =>
      if ok then { s with stored := insertOrIgnore s.stored key row }.goOn id call (.recording (call.okResult data))
      else s.goOn id call (.recording call.failedResult)

/-- A cancelled call leaves behind the write of a thread that it had started. -/
def State.cancel (id : Nat) (call : Call α) : State α τ :=
  let ended : State α τ := { s with calls := s.calls.drop id }
  match call.phase, call.key with
  | .saving raw, some key =>
    match (broker.redact raw).bind fun data => broker.write (call.okResult data) with
    | some row => { ended with detached := s.detached ++ [(key, row)] }
    | none => ended
  | _, _ => ended

def step : Event α → State α τ
  | .begin request auditId =>
    match prepare broker request auditId with
    | .ok key => { s with calls := s.calls.put s.begun ⟨key, auditId, .waiting⟩, begun := s.begun + 1 }
    | .error _ => s
  | .acquire id =>
    match s.calls.get id with
    | some call =>
      match call.phase with
      | .waiting => if s.locked id call then s else s.goOn id call .entered
      | _ => s
    | none => s
  | .lookUp id ok =>
    match s.calls.get id with
    | some call =>
      match call.phase with
      | .entered => s.lookUp broker id call ok
      | _ => s
    | none => s
  | .record id ok =>
    match s.calls.get id with
    | some call =>
      match call.phase with
      | .missed => if ok then (s.goOn id call .invoking).note (.invoked id call.key) else s.answer id call none
      | .recording result => s.answer id call (if ok then some result else none)
      | _ => s
    | none => s
  | .settle id outcome =>
    match s.calls.get id with
    | some call =>
      match call.phase, outcome with
      | .invoking, .returned raw => (s.goOn id call (.saving raw)).note (.returned id call.key raw)
      | .invoking, .timedOut => s.goOn id call (.recording call.timeoutResult)
      | .invoking, .raised => s.goOn id call (.recording call.failedResult)
      | _, _ => s
    | none => s
  | .save id ok =>
    match s.calls.get id with
    | some call =>
      match call.phase with
      | .saving raw => s.save broker id call raw ok
      | _ => s
    | none => s
  | .cancel id =>
    match s.calls.get id with
    | some call => s.cancel broker id call
    | none => s
  | .land =>
    match s.detached with
    | [] => s
    | (key, row) :: rest => { s with stored := insertOrIgnore s.stored key row, detached := rest }

end Execution

end OpenTulpa.Mcp.Broker
