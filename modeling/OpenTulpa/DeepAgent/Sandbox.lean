import OpenTulpa.Library.Action
import OpenTulpa.Library.Rows
import OpenTulpa.Library.Run

/-! The persistent workspace of the sandbox. A command runs on a staged copy, which is promoted by two
renames under a journal, and a recovery at the start of the next execution resolves whatever a crash or
an error left. Every filesystem call may raise, and a crash may undo the renames since the last directory
sync. -/

namespace OpenTulpa.DeepAgent.Sandbox

open Library

inductive Phase where
  | staged
  | executing
  | quiescent
  | previous
  | promoted
  | committed
  deriving DecidableEq

/-- A transaction directory: its journal, if there is one, and the trees in it. -/
structure Transaction (τ : Type) where
  name : Nat
  phase : Option Phase
  staged : Option τ
  previous : Option τ
  rejected : Option τ
  rejectedRecovery : Option τ
  deriving DecidableEq

/-- The directory of workspaces, as far as one tenant is concerned. -/
structure Layout (τ : Type) where
  marker : Bool
  workspace : Option τ
  transactions : List (Transaction τ)
  garbage : List (Transaction τ)
  deriving DecidableEq

/-- The directory syncs whose failures are told apart. -/
inductive Site where
  | committedJournal
  | discarded (holdsPrevious : Bool)
  | elsewhere
  deriving DecidableEq

/-- What a filesystem call meets. A crash leaves one of the layouts since the last directory sync. -/
inductive Fault where
  | none
  | error
  | crash (survivor : Nat)
  deriving DecidableEq

/-- The fault of each call, by its number. -/
abbrev Faults := Nat → Site → Fault

def Faults.calm : Faults := fun _ _ => .none

inductive Failure where
  | error
  | crash
  deriving DecidableEq

/-- The variables of an execution that its `finally` reads. -/
structure Locals where
  transaction : Option Nat
  committed : Bool
  quiescent : Bool
  deriving DecidableEq

/-- The layout that a process sees, the older ones that a crash may leave instead, and the number of calls
so far. `base` is the workspace that the last execution found, and `reached` the tree that was live when
its journal reached `committed`. -/
structure Disk (τ : Type) where
  live : Layout τ
  lost : List (Layout τ)
  clock : Nat
  base : τ
  reached : Option τ
  locals : Locals
  deriving DecidableEq

section Layouts

variable {τ : Type}

def Layout.transaction (layout : Layout τ) (name : Nat) : Option (Transaction τ) :=
  layout.transactions.find? fun transaction => transaction.name == name

def Layout.change (name : Nat) (change : Transaction τ → Transaction τ) (layout : Layout τ) : Layout τ :=
  { layout with transactions := Rows.update (fun transaction => transaction.name == name) change layout.transactions }

/-- `mkdtemp` -/
def Layout.open (name : Nat) (layout : Layout τ) : Option (Layout τ) :=
  some { layout with transactions := layout.transactions ++ [⟨name, none, none, none, none, none⟩] }

/-- `copytree` of the live workspace. -/
def Layout.copy (name : Nat) (layout : Layout τ) : Option (Layout τ) :=
  layout.workspace.map fun tree => layout.change name fun transaction => { transaction with staged := some tree }

/-- What the command does to the staged tree. -/
def Layout.work (name : Nat) (effect : τ → τ) (layout : Layout τ) : Option (Layout τ) :=
  some (layout.change name fun transaction => { transaction with staged := transaction.staged.map effect })

def Layout.journal (name : Nat) (phase : Phase) (layout : Layout τ) : Option (Layout τ) :=
  some (layout.change name fun transaction => { transaction with phase := some phase })

/-- The live workspace becomes `previous`. -/
def Layout.retire (name : Nat) (layout : Layout τ) : Option (Layout τ) :=
  layout.workspace.map fun tree =>
    { layout.change name fun transaction => { transaction with previous := some tree } with workspace := none }

/-- The staged tree becomes the live workspace. -/
def Layout.promote (name : Nat) (layout : Layout τ) : Option (Layout τ) :=
  ((layout.transaction name).bind Transaction.staged).map fun tree =>
    { layout.change name fun transaction => { transaction with staged := none } with workspace := some tree }

/-- The live workspace becomes `rejected`. -/
def Layout.reject (name : Nat) (layout : Layout τ) : Option (Layout τ) :=
  layout.workspace.map fun tree =>
    { layout.change name fun transaction => { transaction with rejected := some tree } with workspace := none }

/-- The live workspace becomes `rejected-recovery`. -/
def Layout.rejectRecovery (name : Nat) (layout : Layout τ) : Option (Layout τ) :=
  layout.workspace.map fun tree =>
    { layout.change name fun transaction => { transaction with rejectedRecovery := some tree } with workspace := none }

/-- `previous` becomes the live workspace. -/
def Layout.restore (name : Nat) (layout : Layout τ) : Option (Layout τ) :=
  ((layout.transaction name).bind Transaction.previous).map fun tree =>
    { layout.change name fun transaction => { transaction with previous := none } with workspace := some tree }

/-- The transaction directory becomes garbage. -/
def Layout.discard (name : Nat) (layout : Layout τ) : Option (Layout τ) :=
  (layout.transaction name).map fun transaction =>
    { layout with
      transactions := layout.transactions.filter fun other => other.name != name
      garbage := layout.garbage ++ [transaction] }

def Layout.remove (name : Nat) (layout : Layout τ) : Option (Layout τ) :=
  some { layout with garbage := layout.garbage.filter fun transaction => transaction.name != name }

/-- A layout that still has a directory under its old name, after files in it were removed. -/
def Layout.torn (tear : τ → τ) (removed : Transaction τ) (layout : Layout τ) : Layout τ :=
  layout.change removed.name fun transaction => { transaction with
    phase := none
    staged := none
    previous := if removed.previous.isSome then transaction.previous.map tear else transaction.previous }

def Disk.crash (survivor : Nat) (disk : Disk τ) : Disk τ :=
  { disk with live := (disk.live :: disk.lost).getD survivor disk.live, lost := [] }

end Layouts

section Programs

variable {τ : Type} (valid : τ → Bool) (empty : τ) (tear : τ → τ) (faults : Faults)

/-- What runs on the disk. -/
abbrev Program (τ α : Type) := Action (Disk τ) Failure α

/-- A filesystem call that changes the layout, or finds nothing to change and raises. -/
def call (change : Layout τ → Option (Layout τ)) : Program τ Unit := fun disk =>
  let next := { disk with clock := disk.clock + 1 }
  match faults disk.clock .elsewhere with
  | .crash survivor => (.error .crash, next.crash survivor)
  | .error => (.error .error, next)
  | .none =>
    match change disk.live with
    | none => (.error .error, next)
    | some layout => (.ok (), { next with live := layout, lost := disk.live :: disk.lost })

/-- A directory sync: older layouts are gone, but for those that `keep` accepts. -/
def sync (site : Site) (keep : Layout τ → Bool) : Program τ Unit := fun disk =>
  let next := { disk with clock := disk.clock + 1 }
  match faults disk.clock site with
  | .crash survivor => (.error .crash, next.crash survivor)
  | .error => (.error .error, next)
  | .none => (.ok (), { next with lost := disk.lost.filter keep })

def syncRoot (site : Site) : Program τ Unit := sync faults site fun _ => false

/-- The sync of a transaction directory does not make its own entry in the root durable. -/
def syncTransaction (site : Site) : Program τ Unit := sync faults site fun layout => layout.transactions.isEmpty

/-- A call that leaves the layout as it is. -/
def probe : Program τ Unit := sync faults .elsewhere fun _ => true

/-- `_validate_workspace_tree` -/
def validateTree (tree : Option τ) : Program τ Unit := do
  probe faults
  if tree.any valid then pure () else Action.raise .error

def validateWorkspace : Program τ Unit := do
  let disk ← Action.read
  validateTree valid faults disk.live.workspace

/-- The tree that is live when the journal reaches `committed`. -/
def noteCommitted (phase : Phase) : Program τ Unit :=
  if phase = .committed then Action.modify fun disk => { disk with reached := disk.live.workspace } else pure ()

/-- `_write_transaction_journal` -/
def writeTransactionJournal (name : Nat) (phase : Phase) : Program τ Unit := do
  probe faults
  call faults (Layout.journal name phase)
  noteCommitted phase
  syncTransaction faults (if phase = .committed then .committedJournal else .elsewhere)

/-- `rmtree` of a garbage directory. -/
def removeTree (garbage : Transaction τ) : Program τ Unit := do
  Action.modify fun disk => { disk with lost := disk.lost ++ disk.lost.map (Layout.torn tear garbage) }
  call faults (Layout.remove garbage.name)

/-- `_discard_transaction` -/
def discardTransaction (name : Nat) : Program τ Unit := do
  let disk ← Action.read
  match disk.live.transaction name with
  | none => Action.raise .error
  | some transaction => do
    call faults (Layout.discard name)
    syncRoot faults (.discarded transaction.previous.isSome)
    removeTree tear faults transaction
    syncRoot faults .elsewhere

section Recovery

def recoverGarbage : List (Transaction τ) → Program τ Unit
  | [] => pure ()
  | garbage :: rest => do
    removeTree tear faults garbage
    syncRoot faults .elsewhere
    recoverGarbage rest

def requireWorkspace : Program τ Unit := do
  let disk ← Action.read
  if disk.live.workspace.isSome then pure () else Action.raise .error

/-- The live workspace gives way to the previous one. -/
def rejectWorkspace (transaction : Transaction τ) : Program τ Unit := do
  let disk ← Action.read
  if disk.live.workspace.isNone then pure ()
  else if transaction.rejectedRecovery.isSome then Action.raise .error
  else do
    call faults (Layout.rejectRecovery transaction.name)
    syncRoot faults .elsewhere
    syncTransaction faults .elsewhere

def restorePrevious (name : Nat) : Program τ Unit := do
  let disk ← Action.read
  if ((disk.live.transaction name).bind Transaction.previous).isSome then do
    call faults (Layout.restore name)
    syncTransaction faults .elsewhere
    syncRoot faults .elsewhere
  else pure ()

/-- The transaction that holds the previous workspace. -/
def recoverPrevious (transaction : Transaction τ) : Program τ Unit :=
  if transaction.phase = some .committed then do
    requireWorkspace
    validateWorkspace valid faults
    discardTransaction tear faults transaction.name
  else do
    rejectWorkspace faults transaction
    restorePrevious faults transaction.name
    requireWorkspace
    validateWorkspace valid faults
    probe faults
    discardTransaction tear faults transaction.name

/-- A transaction that holds no previous workspace. -/
def recoverTransaction (marker : Bool) (transaction : Transaction τ) : Program τ Unit :=
  match transaction.phase with
  | none =>
    if !marker then Action.raise .error
    else do
      requireWorkspace
      validateWorkspace valid faults
      discardTransaction tear faults transaction.name
  | some .committed => do
    requireWorkspace
    validateWorkspace valid faults
    discardTransaction tear faults transaction.name
  | some _ => discardTransaction tear faults transaction.name

def recoverTransactions (marker : Bool) : List (Transaction τ) → Program τ Unit
  | [] => pure ()
  | transaction :: rest => do
    recoverTransaction valid tear faults marker transaction
    recoverTransactions marker rest

def makeWorkspace (marker : Bool) : Program τ Unit := do
  let disk ← Action.read
  if disk.live.workspace.isSome then pure ()
  else if marker then Action.raise .error
  else do
    call faults fun layout => some { layout with workspace := some empty }
    syncRoot faults .elsewhere

/-- The workspace and its marker exist afterwards. -/
def settleWorkspace (marker : Bool) : Program τ Unit := do
  makeWorkspace empty faults marker
  validateWorkspace valid faults
  if marker then pure ()
  else do
    call faults fun layout => some { layout with marker := true }
    syncRoot faults .elsewhere

/-- The transactions that are found, of which at most one may hold a previous workspace. -/
def recoverFound (marker : Bool) : Program τ Unit := do
  let disk ← Action.read
  let transactions := disk.live.transactions
  let held := transactions.filter fun transaction => transaction.previous.isSome
  if 1 < held.length ∨ (held.length = 1 ∧ 1 < transactions.length) then Action.raise .error
  else
    match held with
    | transaction :: _ => recoverPrevious valid tear faults transaction
    | [] => recoverTransactions valid tear faults marker transactions

/-- `_recover_workspace`, for a container whose removal is confirmed. -/
def recoverWorkspace : Program τ Unit := do
  let disk ← Action.read
  recoverGarbage tear faults disk.live.garbage
  recoverFound valid tear faults disk.live.marker
  settleWorkspace valid empty faults disk.live.marker

end Recovery

section Execution

/-- `except Exception`: a crash runs no handler. -/
def onException {α : Type} (program : Program τ α) (handler : Program τ α) : Program τ α :=
  program.handle fun failure =>
    match failure with
    | .crash => Action.raise .crash
    | .error => handler

def validateStaged (name : Nat) : Program τ Unit := do
  let disk ← Action.read
  validateTree valid faults ((disk.live.transaction name).bind Transaction.staged)

/-- The `try` of `_stage_workspace`. -/
def copyWorkspace (name : Nat) : Program τ Unit := do
  call faults (Layout.copy name)
  validateStaged valid faults name
  writeTransactionJournal faults name .staged
  syncRoot faults .elsewhere

/-- Its handler. -/
def abandonTransaction (name : Nat) : Program τ Unit := do
  discardTransaction tear faults name
  Action.raise .error

/-- `_stage_workspace` -/
def stageWorkspace : Program τ Nat := do
  let disk ← Action.read
  call faults (Layout.open disk.clock)
  onException (copyWorkspace valid faults disk.clock) (abandonTransaction tear faults disk.clock)
  return disk.clock

def rejectPromoted (name : Nat) (promoted : Bool) : Program τ Unit := do
  let disk ← Action.read
  if promoted && disk.live.workspace.isSome then do
    call faults (Layout.reject name)
    syncRoot faults .elsewhere
    syncTransaction faults .elsewhere
  else pure ()

/-- The handler of `_commit_workspace`. -/
def rollBack (name : Nat) (promoted : Bool) : Program τ Unit := do
  rejectPromoted faults name promoted
  restorePrevious faults name
  Action.raise .error

/-- The part of `_commit_workspace` after the promotion. -/
def commitPromoted (name : Nat) : Program τ Unit := do
  syncTransaction faults .elsewhere
  syncRoot faults .elsewhere
  writeTransactionJournal faults name .promoted
  validateWorkspace valid faults
  probe faults
  writeTransactionJournal faults name .committed

/-- `_commit_workspace` -/
def commitWorkspace (name : Nat) : Program τ Unit := do
  let disk ← Action.read
  match disk.live.transaction name with
  | none => Action.raise .error
  | some transaction =>
    if transaction.phase.isNone then Action.raise .error
    else do
      validateTree valid faults transaction.staged
      probe faults
      call faults (Layout.retire name)
      syncRoot faults .elsewhere
      syncTransaction faults .elsewhere
      writeTransactionJournal faults name .previous
      onException (call faults (Layout.promote name)) (rollBack faults name false)
      onException (commitPromoted valid faults name) (rollBack faults name true)

/-- How a command ends. `stopped` stands for a timeout, an overflow or a lost output. -/
inductive Outcome where
  | completed (cancelled : Bool)
  | failed
  | stopped
  | cancelledBefore
  deriving DecidableEq

/-- An execution: by a provider or in a container, what the command does to the staged tree, and how it ends. -/
structure Call (τ : Type) where
  provider : Bool
  effect : τ → τ
  outcome : Outcome

def setQuiescent : Program τ Unit := Action.modify fun disk => { disk with locals := { disk.locals with quiescent := true } }

/-- The commit under the authority, which may raise on both sides. -/
def commitStaged (name : Nat) : Program τ Unit := do
  validateStaged valid faults name
  probe faults
  commitWorkspace valid faults name
  probe faults
  Action.modify fun disk => { disk with locals := { disk.locals with committed := true } }

def runContainer (request : Call τ) (name : Nat) : Program τ Unit := do
  writeTransactionJournal faults name .executing
  match request.outcome with
  | .cancelledBefore => setQuiescent
  | .failed | .stopped => do
    call faults (Layout.work name request.effect)
    setQuiescent
  | .completed cancelled => do
    call faults (Layout.work name request.effect)
    setQuiescent
    writeTransactionJournal faults name .quiescent
    if cancelled then pure () else commitStaged valid faults name

def runProvider (request : Call τ) (name : Nat) : Program τ Unit := do
  call faults (Layout.work name request.effect)
  match request.outcome with
  | .completed false => commitStaged valid faults name
  | .completed true | .cancelledBefore => pure ()
  | .failed | .stopped => Action.raise .error

/-- The workspace that the execution finds. -/
def noteWorkspace : Program τ Unit := Action.modify fun disk =>
  { disk with base := disk.live.workspace.getD disk.base, reached := none }

/-- The `try` of `_execute` and of `_execute_with_provider`. -/
def runCommand (request : Call τ) : Program τ Unit := do
  recoverWorkspace valid empty tear faults
  noteWorkspace
  validateWorkspace valid faults
  let name ← stageWorkspace valid tear faults
  Action.modify fun disk => { disk with locals := { disk.locals with transaction := some name } }
  if request.provider then runProvider valid faults request name else runContainer valid faults request name

/-- The `finally` of both. -/
def cleanUp (request : Call τ) : Program τ Unit := do
  let disk ← Action.read
  match disk.locals.transaction.bind disk.live.transaction with
  | none => pure ()
  | some transaction =>
    if disk.locals.committed ||
        ((disk.locals.quiescent || request.provider) && transaction.previous.isNone) then
      discardTransaction tear faults transaction.name
    else pure ()

/-- `_execute` and `_execute_with_provider`, without the answer. -/
def execute (request : Call τ) : Program τ Unit := do
  Action.modify fun disk => { disk with locals := ⟨none, false, false⟩ }
  onException (runCommand valid empty tear faults request) (pure ())
  onException (cleanUp tear faults request) (pure ())

end Execution

/-- What happens to a tenant's workspace: executions, and crashes between them. -/
inductive Op (τ : Type) where
  | execute (request : Call τ)
  | crash (survivor : Nat)

def step (disk : Disk τ) : Op τ → Disk τ
  | .execute request => ((execute valid empty tear faults request).run disk).2
  | .crash survivor => disk.crash survivor

def Disk.start (empty : τ) : Disk τ := ⟨⟨false, none, [], []⟩, [], 0, empty, none, ⟨none, false, false⟩⟩

end Programs

end OpenTulpa.DeepAgent.Sandbox
