import OpenTulpa.Library.Action
import OpenTulpa.Library.Json
import OpenTulpa.Library.Text

/-! The update of the host controller by a detached worker: it lets the installer activate the reviewed commit,
restarts the service, waits until it is healthy, and goes back to the previous generation when that fails. What the
installer, systemd and the service answer during one execution is a plan handed to it. -/

namespace OpenTulpa.Host.ControllerUpdate

open Library Library.Text

section Data

inductive UpdateStatus where
  | scheduled
  | running
  | succeeded
  | rolledBack
  | failed
  deriving DecidableEq

def UpdateStatus.text : UpdateStatus → String
  | .scheduled => "scheduled"
  | .running => "running"
  | .succeeded => "succeeded"
  | .rolledBack => "rolled_back"
  | .failed => "failed"

def UpdateStatus.terminal : UpdateStatus → Bool
  | .scheduled | .running => false
  | .succeeded | .rolledBack | .failed => true

/-- An exception by its class and text. -/
structure Failure where
  kind : String
  message : String
  deriving DecidableEq

def updateError (message : String) : Failure := ⟨"ControllerUpdateError", message⟩

def isCommit (text : String) : Bool :=
  40 ≤ text.toList.length && text.toList.length ≤ 64 && text.toList.all isLowerHex

structure Commit where
  text : String
  valid : isCommit text = true
  deriving DecidableEq

def commit (value : String) : Except Failure Commit :=
  let value := lower (strip value)
  if valid : isCommit value = true then .ok ⟨value, valid⟩
  else .error (updateError "controller source commit is invalid")

/-- What the updater is configured with. -/
structure Site where
  git : String
  healthUrl : String
  installRoot : String
  sourceRoot : String
  systemctl : String
  systemdUnit : String
  deriving DecidableEq

/-- The state file. -/
structure UpdateState where
  activationId : String
  audit : List (String × Json)
  controllerGeneration : Option String
  error : Option String
  notified : Bool
  previousTarget : Option String
  releaseId : String
  sourceCommit : Commit
  status : UpdateStatus
  site : Site

end Data

section Commands

/-- What a command gives: `_run` raises, or there is an exit status and the output. -/
inductive Called where
  | raised (failure : Failure)
  | exited (code : Int) (output : String)
  deriving DecidableEq

def Called.result : Called → Except Failure (Int × String)
  | .raised failure => .error failure
  | .exited code output => .ok (code, output)

def truncate (limit : Nat) (text : String) : String := String.ofList (text.toList.take limit)

/-- `_process_error` -/
def processError (title : String) (code : Int) (output : String) : String :=
  let detail := truncate 1500 (strip output)
  title ++ " (" ++ toString code ++ ")" ++ if detail.isEmpty then "" else ": " ++ detail

/-- A command that must exit with 0. -/
def Called.require (called : Called) (title : String) : Except Failure Unit :=
  match called with
  | .raised failure => .error failure
  | .exited code output => if code = 0 then .ok () else .error (updateError (processError title code output))

end Commands

section Service

/-- What a part of a health check gives: an exception that the loop catches, another one, or a value. -/
inductive Reply (α : Type) where
  | caught
  | raised (failure : Failure)
  | value (value : α)
  deriving DecidableEq

instance : Monad Reply where
  pure value := .value value
  bind reply next := match reply with
    | .caught => .caught
    | .raised failure => .raised failure
    | .value value => next value

structure CommandLine where
  size : Nat
  arguments : List String
  deriving DecidableEq

/-- One round of `_wait_for_service`: the exit status and output of `systemctl show`, the payload of the health
endpoint when it was not too long, and the command line of the main process. -/
structure Poll where
  mainPid : Reply (Int × String)
  health : Reply (Option Json)
  commandLine : Reply CommandLine

/-- The root and the parts of a path. -/
def pathParts (path : String) : List (List Char) :=
  let root := match path.toList with
    | '/' :: '/' :: '/' :: _ => ['/']
    | '/' :: '/' :: _ => ['/', '/']
    | '/' :: _ => ['/']
    | _ => []
  root :: (path.toList.splitOn '/').filter fun part => !part.isEmpty && part != ['.']

def isAbsolute (path : String) : Bool := path.toList.head? == some '/'

/-- `_process_uses_generation` -/
def CommandLine.uses (line : CommandLine) (generation : String) : Bool :=
  line.size ≤ 65536 &&
    line.arguments.any fun argument => isAbsolute argument && (pathParts generation).isPrefixOf (pathParts argument)

def payloadOk : Option Json → Bool
  | some (.object fields) => match fields.lookup "ok" with
    | some (.bool ok) => ok
    | _ => false
  | _ => false

def pidOf (code : Int) (output : String) : Reply Int :=
  if code = 0 then
    match (strip output).toInt? with
    | some pid => .value pid
    | none => .caught
  else .value 0

def Poll.passes (poll : Poll) (generation : String) : Reply Bool := do
  let (code, output) ← poll.mainPid
  let pid ← pidOf code output
  let payload ← poll.health
  if 1 < pid then
    let line ← poll.commandLine
    return line.uses generation && payloadOk payload
  else return false

/-- `_wait_for_service` over the rounds there is time for. -/
def waitForService (generation : String) : List Poll → Except Failure Bool
  | [] => .ok false
  | poll :: later =>
    match poll.passes generation with
    | .raised failure => .error failure
    | .value true => .ok true
    | .value false | .caught => waitForService generation later

/-- The service runs the generation and is well. -/
def Healthy (polls : List Poll) (generation : String) : Prop := ∃ poll ∈ polls, poll.passes generation = .value true

theorem healthy_of_wait {generation : String} {polls : List Poll} (waited : waitForService generation polls = .ok true) :
    Healthy polls generation := by
  induction polls with
  | nil => cases waited
  | cons poll polls ih =>
    rw [waitForService] at waited
    split at waited
    · cases waited
    · rename_i passes
      exact ⟨poll, List.mem_cons_self, passes⟩
    · obtain ⟨other, member, passes⟩ := ih waited
      exact ⟨other, List.mem_cons_of_mem _ member, passes⟩
    · obtain ⟨other, member, passes⟩ := ih waited
      exact ⟨other, List.mem_cons_of_mem _ member, passes⟩

end Service

section Generations

/-- `controller/current` -/
inductive Link where
  | absent
  | points (target : String)
  deriving DecidableEq

inductive Entry where
  | missing
  | directory
  | linked
  deriving DecidableEq

/-- What stands under the names below `controller`, and the commit that the manifest of a generation names. -/
structure Tree where
  entry : String → Entry
  manifest : String → Except Failure String

def generationsDir : List Char := "generations/".toList

def isGeneration (target : String) : Bool :=
  generationsDir.isPrefixOf target.toList && (target.toList.drop generationsDir.length).length == 64 &&
    (target.toList.drop generationsDir.length).all isLowerHex

/-- `removeprefix("generations/")` -/
def generationId (target : String) : String :=
  if generationsDir.isPrefixOf target.toList then String.ofList (target.toList.drop generationsDir.length) else target

/-- `_current_target` -/
def currentTarget (link : Link) (tree : Tree) : Except Failure String :=
  match link with
  | .absent => .error (updateError "controller/current is not a symbolic link")
  | .points target =>
    if isGeneration target = true ∧ tree.entry target = .directory then .ok target
    else .error (updateError "controller/current has an invalid generation target")

/-- `_active_source_commit` -/
def activeSourceCommit (link : Link) (tree : Tree) : Except Failure Commit := do
  let target ← currentTarget link tree
  commit (← tree.manifest target)

theorem currentTarget_eq_ok {link : Link} {tree : Tree} {target : String} (valid : currentTarget link tree = .ok target) :
    link = .points target ∧ isGeneration target = true ∧ tree.entry target = .directory := by
  cases link with
  | absent => cases valid
  | points name =>
    rw [currentTarget] at valid
    split at valid
    · rename_i fine
      cases valid
      exact ⟨rfl, fine⟩
    · cases valid

end Generations

section Worker

/-- What the worker did that can be seen from outside. -/
inductive Act where
  | switched (target : String)
  | restarted
  | rollbackFailed
  | recorded (status : UpdateStatus) (current : Link)
  deriving DecidableEq

structure World where
  link : Link
  tree : Tree
  file : UpdateState
  acts : List Act

abbrev Worker := Action World Failure

/-- How `_switch_current` can go wrong: before the link is replaced, or behind it. -/
inductive Switch where
  | done
  | refused (failure : Failure)
  | unsynced (failure : Failure)
  deriving DecidableEq

/-- The answers of one execution. `executable` is whether the installer is a private and trusted file, `link` and `tree`
are what the installer leaves. -/
structure Plan where
  head : Called
  changes : Called
  executable : Except Failure Bool
  installer : Called
  link : Link
  tree : Tree
  restart : Called
  validation : List Poll
  rollbackSwitch : Switch
  rollbackRestart : Called
  rollbackValidation : List Poll

/-- `_require_exact_source` -/
def requireExactSource (plan : Plan) (reviewed : Commit) : Except Failure Unit := do
  let (headCode, head) ← plan.head.result
  let (changesCode, changes) ← plan.changes.result
  if headCode = 0 ∧ strip head = reviewed.text ∧ changesCode = 0 ∧ strip changes = "" then .ok ()
  else .error (updateError "controller source no longer matches the clean reviewed commit")

/-- `_require_private_executable` -/
def requirePrivateExecutable (plan : Plan) : Except Failure Unit := do
  if ← plan.executable then .ok ()
  else .error (updateError "controller update executable is not private and trusted")

/-- `_restart` -/
def restart (called : Called) : Worker Unit := do
  .lift fun _ => called.require "systemd restart failed"
  .modify fun w => { w with acts := w.acts ++ [.restarted] }

/-- `_switch_current` -/
def switchCurrent (answer : Switch) (target : String) : Worker Unit := do
  .lift fun w =>
    if isGeneration target = true ∧ w.tree.entry target ≠ .missing then .ok ()
    else .error (updateError "rollback generation is unavailable")
  match answer with
  | .refused failure => .raise failure
  | .done => .modify fun w => { w with link := .points target, acts := w.acts ++ [.switched target] }
  | .unsynced failure =>
    .modify fun w => { w with link := .points target, acts := w.acts ++ [.switched target] }
    .raise failure

/-- What the worker writes at its end. -/
structure Verdict where
  status : UpdateStatus
  controllerGeneration : Option String
  error : Option String
  exitCode : Nat
  deriving DecidableEq

def generationPath (site : Site) (target : String) : String := site.installRoot ++ "/controller/" ++ target

/-- The first part of the update, up to the target that the installer has activated. -/
def install (plan : Plan) (state : UpdateState) : Worker String := do
  .lift fun _ => requireExactSource plan state.sourceCommit
  .lift fun _ => requirePrivateExecutable plan
  .modify fun w => { w with link := plan.link, tree := plan.tree }
  .lift fun _ => plan.installer.require "controller installer failed"
  .lift fun w => currentTarget w.link w.tree

/-- The second part, in which the handler knows the target. -/
def activate (plan : Plan) (state : UpdateState) (previous target : String) : Worker Verdict := do
  .lift fun w => do
    if target = previous then .error (updateError "installer did not activate the reviewed commit")
    else if (← activeSourceCommit w.link w.tree) = state.sourceCommit then .ok ()
    else .error (updateError "installer did not activate the reviewed commit")
  restart plan.restart
  let healthy ← .lift fun _ => waitForService (generationPath state.site target) plan.validation
  .lift fun _ =>
    if healthy then .ok () else .error (updateError "updated controller failed host health validation")
  let current ← .lift fun w => currentTarget w.link w.tree
  .lift fun _ =>
    if current = target then .ok () else .error (updateError "controller generation changed during validation")
  return ⟨.succeeded, some (generationId target), none, 0⟩

/-- The restoration in the handler. -/
def restore (plan : Plan) (state : UpdateState) (previous : String) (target : Option String) : Worker Bool := do
  let current ← .lift fun w => currentTarget w.link w.tree
  if target = some current then
    switchCurrent plan.rollbackSwitch previous
    restart plan.rollbackRestart
  let current ← .lift fun w => currentTarget w.link w.tree
  if current = previous then .lift fun _ => waitForService (generationPath state.site previous) plan.rollbackValidation
  else return false

def Failure.text (failure : Failure) : String :=
  let text := truncate 2000 (strip failure.message)
  if text.isEmpty then failure.kind else text

/-- The handler of the update; it catches what its own steps raise. -/
def rollback (plan : Plan) (state : UpdateState) (previous : String) (target : Option String) (failure : Failure) :
    Worker Verdict := do
  match ← (restore plan state previous target).attempt with
  | .ok restored =>
    return ⟨if restored then .rolledBack else .failed, if restored then some (generationId previous) else none,
      some failure.text, 1⟩
  | .error raised =>
    .modify fun w => { w with acts := w.acts ++ [.rollbackFailed] }
    return ⟨.failed, none, some (truncate 2000 (failure.text ++ "; rollback failed: " ++ raised.message)), 1⟩

/-- The body of `run_controller_update` behind the record that it is running. The local variable `target` is set
between its two parts. -/
def settle (plan : Plan) (state : UpdateState) (previous : String) : Worker Verdict := do
  match ← (install plan state).attempt with
  | .error failure => rollback plan state previous none failure
  | .ok target =>
    match ← (activate plan state previous target).attempt with
    | .error failure => rollback plan state previous (some target) failure
    | .ok verdict => return verdict

def UpdateState.run (state : UpdateState) (previous : String) : UpdateState :=
  { state with status := .running, previousTarget := some previous }

def UpdateState.settle (state : UpdateState) (verdict : Verdict) : UpdateState :=
  { state with
    status := verdict.status
    controllerGeneration := verdict.controllerGeneration
    error := verdict.error }

/-- `_update_state` -/
def updateState (change : UpdateState → UpdateState) : Worker Unit :=
  .modify fun w => { w with file := change w.file, acts := w.acts ++ [.recorded (change w.file).status w.link] }

def runControllerUpdate (plan : Plan) : Worker Nat := do
  let w ← .read
  let state := w.file
  if state.status ≠ .scheduled then return if state.status = .succeeded then 0 else 1
  let previous ← .lift fun w => currentTarget w.link w.tree
  updateState (·.run previous)
  let verdict ← settle plan state previous
  updateState (·.settle verdict)
  return verdict.exitCode

end Worker

section Specifications

open Action

variable (plan : Plan) (state : UpdateState) (previous : String)

/-- The world that the installer leaves. -/
def World.installed (w : World) (plan : Plan) : World := { w with link := plan.link, tree := plan.tree }

/-- The checks before the installer. -/
def Plan.ready (plan : Plan) (reviewed : Commit) : Prop :=
  requireExactSource plan reviewed = .ok () ∧ requirePrivateExecutable plan = .ok ()

def Plan.installerFails (plan : Plan) : Prop :=
  ∃ failure, plan.installer.require "controller installer failed" = .error failure

theorem install_spec (w : World) : Ends (install plan state) w fun outcome after =>
    match outcome with
    | .ok target => after = w.installed plan ∧ plan.ready state.sourceCommit ∧ ¬ plan.installerFails ∧
        currentTarget plan.link plan.tree = .ok target
    | .error _ => after = w ∧ ¬ plan.ready state.sourceCommit ∨ after = w.installed plan ∧ plan.ready state.sourceCommit ∧
        (plan.installerFails ∨ ∃ failure, currentTarget plan.link plan.tree = .error failure) := by
  refine ends_bind_lift ?_ fun _ exact => ends_bind_lift ?_ fun _ trusted => ends_bind_modify
    (ends_bind_lift ?_ fun _ ran => ends_lift ?_)
  · intro failure inexact
    refine Or.inl ⟨rfl, fun ready => ?_⟩
    rw [ready.1] at inexact
    cases inexact
  · intro failure untrusted
    refine Or.inl ⟨rfl, fun ready => ?_⟩
    rw [ready.2] at untrusted
    cases untrusted
  · intro failure failing
    exact Or.inr ⟨rfl, ⟨exact, trusted⟩, Or.inl ⟨failure, failing⟩⟩
  · have whole : ¬ plan.installerFails := by
      rintro ⟨failure, failing⟩
      rw [ran] at failing
      cases failing
    cases valid : currentTarget plan.link plan.tree with
    | ok target => exact ⟨rfl, ⟨exact, trusted⟩, whole, rfl⟩
    | error failure => exact Or.inr ⟨rfl, ⟨exact, trusted⟩, Or.inr ⟨failure, rfl⟩⟩

theorem restart_spec (called : Called) (w : World) : Ends (restart called) w fun outcome after =>
    match outcome with
    | .ok _ => after = { w with acts := w.acts ++ [.restarted] }
    | .error _ => after = w :=
  ends_bind_lift (fun _ _ => rfl) fun _ _ => ends_modify rfl

/-- The second part leaves everything in place, but for a restart, and ends normally only on the reviewed commit. -/
theorem activate_spec (target : String) (w : World) : Ends (activate plan state previous target) w fun outcome after =>
    (after = w ∨ after = { w with acts := w.acts ++ [.restarted] }) ∧
      ∀ verdict, outcome = .ok verdict →
        verdict.status = .succeeded ∧ after = { w with acts := w.acts ++ [.restarted] } ∧
          activeSourceCommit w.link w.tree = .ok state.sourceCommit ∧
            Healthy plan.validation (generationPath state.site target) := by
  refine ends_bind_lift (fun _ _ => ⟨Or.inl rfl, nofun⟩) fun _ reviewed => ends_bind ?_
  refine (restart_spec plan.restart w).mono fun outcome after restarted => ?_
  cases outcome with
  | error failure => exact ⟨Or.inl restarted, nofun⟩
  | ok value =>
    subst restarted
    refine ends_bind_lift (fun _ _ => ⟨Or.inr rfl, nofun⟩) fun healthy waited => ?_
    refine ends_bind_lift (fun _ _ => ⟨Or.inr rfl, nofun⟩) fun _ well => ?_
    refine ends_bind_lift (fun _ _ => ⟨Or.inr rfl, nofun⟩) fun current _ => ?_
    refine ends_bind_lift (fun _ _ => ⟨Or.inr rfl, nofun⟩) fun _ _ => ends_pure ⟨Or.inr rfl, ?_⟩
    intro verdict same
    cases same
    have passed : healthy = true := by
      by_contra ill
      rw [if_neg ill] at well
      cases well
    refine ⟨rfl, rfl, ?_, healthy_of_wait (passed ▸ waited)⟩
    split at reviewed
    · cases reviewed
    · cases active : activeSourceCommit w.link w.tree with
      | error failure =>
        rw [active] at reviewed
        cases reviewed
      | ok found =>
        rw [active] at reviewed
        by_cases same : found = state.sourceCommit
        · rw [same]
        · simp [Bind.bind, Except.bind, same] at reviewed

theorem switchCurrent_spec (target : String) (answer : Switch) (w : World) :
    Ends (switchCurrent answer target) w fun outcome after =>
      match outcome with
      | .ok _ => after = { w with link := .points target, acts := w.acts ++ [.switched target] }
      | .error _ => after = w ∨ after = { w with link := .points target, acts := w.acts ++ [.switched target] } := by
  refine ends_bind_lift (fun _ _ => Or.inl rfl) fun _ _ => ?_
  cases answer with
  | done => exact ends_modify rfl
  | refused failure => exact ends_raise (Or.inl rfl)
  | unsynced failure => exact ends_bind_modify (ends_raise (Or.inr rfl))

/-- The check that ends the restoration. -/
theorem restored_spec (w : World) : Ends (do
    let current ← Action.lift fun w => currentTarget w.link w.tree
    if current = previous then
      Action.lift fun _ => waitForService (generationPath state.site previous) plan.rollbackValidation
    else return false : Worker Bool) w fun outcome after => after = w ∧
      match outcome with
      | .error _ => ∀ current, currentTarget w.link w.tree = .ok current → current = previous
      | .ok restored => restored = true → currentTarget w.link w.tree = .ok previous ∧
          Healthy plan.rollbackValidation (generationPath state.site previous) := by
  refine ends_bind_lift (fun failure invalid => ⟨rfl, ?_⟩) fun current valid => ?_
  · intro current valid
    rw [valid] at invalid
    cases invalid
  · split
    · rename_i back
      subst back
      refine ends_lift ⟨rfl, ?_⟩
      cases waited : waitForService (generationPath state.site current) plan.rollbackValidation with
      | error failure =>
        intro other same
        exact (Except.ok.inj (valid.symm.trans same)).symm
      | ok healthy => exact fun well => ⟨valid, healthy_of_wait (well ▸ waited)⟩
    · exact ends_pure ⟨rfl, nofun⟩

/-- The restoration goes as far as its first failing step, and succeeds only on a healthy previous generation. -/
theorem restore_spec (target : Option String) (w : World) : Ends (restore plan state previous target) w
    fun outcome after =>
      match outcome with
      | .error _ => (∃ more, after.acts = w.acts ++ more ∧ more <+: [.switched previous, .restarted]) ∧
          (target = none → ∀ current, currentTarget w.link w.tree = .ok current → current = previous)
      | .ok restored => ∃ current, currentTarget w.link w.tree = .ok current ∧
          (target ≠ some current ∧ after = w ∨ target = some current ∧
            after = { w with link := .points previous, acts := w.acts ++ [.switched previous, .restarted] }) ∧
          (restored = true → currentTarget after.link after.tree = .ok previous ∧
            Healthy plan.rollbackValidation (generationPath state.site previous)) := by
  refine ends_bind_lift ?_ fun current valid => ?_
  · intro failure invalid
    refine ⟨⟨[], by simp, List.nil_prefix⟩, fun _ current valid => ?_⟩
    rw [valid] at invalid
    cases invalid
  by_cases mine : target = some current
  · subst mine
    simp only [if_true]
    refine ends_bind ((switchCurrent_spec previous plan.rollbackSwitch w).mono fun outcome after moved => ?_)
    cases outcome with
    | error failure =>
      rcases moved with rfl | rfl
      · exact ⟨⟨[], by simp, List.nil_prefix⟩, nofun⟩
      · exact ⟨⟨[.switched previous], rfl, by simp⟩, nofun⟩
    | ok value =>
      subst moved
      refine ends_bind ((restart_spec plan.rollbackRestart _).mono fun outcome after restarted => ?_)
      cases outcome with
      | error failure =>
        subst restarted
        exact ⟨⟨[.switched previous], rfl, by simp⟩, nofun⟩
      | ok value =>
        subst restarted
        refine (restored_spec plan state previous _).mono fun outcome after ended => ?_
        obtain ⟨rfl, ended⟩ := ended
        cases outcome with
        | error failure => exact ⟨⟨[.switched previous, .restarted], by simp, List.prefix_rfl⟩, nofun⟩
        | ok restored => exact ⟨current, valid, Or.inr ⟨rfl, by simp⟩, ended⟩
  · simp only [mine, if_false]
    refine ends_bind_pure ((restored_spec plan state previous w).mono fun outcome after ended => ?_)
    obtain ⟨rfl, ended⟩ := ended
    cases outcome with
    | error failure => exact ⟨⟨[], by simp, List.nil_prefix⟩, fun _ => ended⟩
    | ok restored => exact ⟨current, valid, Or.inl ⟨mine, rfl⟩, ended⟩

/-- The handler never raises. -/
theorem rollback_spec (target : Option String) (failure : Failure) (w : World) :
    Ends (rollback plan state previous target failure) w fun outcome after => ∃ verdict, outcome = .ok verdict ∧
      (verdict.status = .failed ∧ (∃ more, after.acts = w.acts ++ more ++ [.rollbackFailed] ∧
          more <+: [.switched previous, .restarted]) ∧
          (target = none → ∀ current, currentTarget w.link w.tree = .ok current → current = previous) ∨
        ∃ current, currentTarget w.link w.tree = .ok current ∧
          (target ≠ some current ∧ after = w ∨ target = some current ∧
            after = { w with link := .points previous, acts := w.acts ++ [.switched previous, .restarted] }) ∧
          (verdict.status = .failed ∨ verdict.status = .rolledBack ∧
            currentTarget after.link after.tree = .ok previous ∧
              Healthy plan.rollbackValidation (generationPath state.site previous))) := by
  refine ends_bind_attempt ((restore_spec plan state previous target w).mono fun outcome after restored => ?_)
  cases outcome with
  | error raised =>
    obtain ⟨⟨more, acts, part⟩, back⟩ := restored
    exact ends_bind_modify (ends_pure ⟨_, rfl, Or.inl ⟨rfl, ⟨more, by simp [acts], part⟩, back⟩⟩)
  | ok back =>
    obtain ⟨current, valid, place, well⟩ := restored
    refine ends_pure ⟨_, rfl, Or.inr ⟨current, valid, place, ?_⟩⟩
    cases back with
    | false => exact Or.inl rfl
    | true => exact Or.inr ⟨rfl, well rfl⟩

/-- The installer moves the link to another generation and then fails. -/
def Plan.abandons (plan : Plan) (reviewed : Commit) (previous : String) : Prop :=
  plan.ready reviewed ∧ plan.installerFails ∧
    ∃ target, currentTarget plan.link plan.tree = .ok target ∧ target ≠ previous

/-- Behind every move of the link the service is restarted. -/
def restartsBehind : List Act → Bool
  | [] => true
  | .switched _ :: later => later.contains .restarted && restartsBehind later
  | _ :: later => restartsBehind later

/-- The three ways in which an execution that has started ends. -/
inductive Settled (plan : Plan) (state : UpdateState) (previous : String) (w after : World) (verdict : Verdict) : Prop
  | succeeded {target : String} (status : verdict.status = .succeeded) (acts : after.acts = w.acts ++ [.restarted])
      (link : after.link = .points target) (reviewed : activeSourceCommit after.link after.tree = .ok state.sourceCommit)
      (healthy : Healthy plan.validation (generationPath state.site target))
      (fine : ¬ plan.abandons state.sourceCommit previous)
  | broken {front more : List Act} (status : verdict.status = .failed)
      (acts : after.acts = w.acts ++ (front ++ more ++ [.rollbackFailed])) (first : front = [] ∨ front = [.restarted])
      (part : more <+: [.switched previous, .restarted]) (fine : ¬ plan.abandons state.sourceCommit previous)
  | left {front more : List Act} (acts : after.acts = w.acts ++ (front ++ more)) (first : front = [] ∨ front = [.restarted])
      (whole : more = [] ∨ more = [.switched previous, .restarted])
      (back : after.link = .points previous ↔ ¬ plan.abandons state.sourceCommit previous)
      (status : verdict.status = .failed ∨ verdict.status = .rolledBack ∧
        currentTarget after.link after.tree = .ok previous ∧
          Healthy plan.rollbackValidation (generationPath state.site previous))

/-- The handler behind the first part, which has left the link to the installer. -/
theorem settled_install {w before : World} {verdict : Verdict} {after : World} (start : currentTarget w.link w.tree = .ok previous)
    (left : before = w ∧ ¬ plan.ready state.sourceCommit ∨ before = w.installed plan ∧ plan.ready state.sourceCommit ∧
      (plan.installerFails ∨ ∃ failure, currentTarget plan.link plan.tree = .error failure))
    (ended : verdict.status = .failed ∧ (∃ more, after.acts = before.acts ++ more ++ [.rollbackFailed] ∧
        more <+: [.switched previous, .restarted]) ∧
        (∀ current, currentTarget before.link before.tree = .ok current → current = previous) ∨
      ∃ current, currentTarget before.link before.tree = .ok current ∧ after = before ∧
        (verdict.status = .failed ∨ verdict.status = .rolledBack ∧
          currentTarget after.link after.tree = .ok previous ∧
            Healthy plan.rollbackValidation (generationPath state.site previous))) :
    Settled plan state previous w after verdict := by
  have acts : before.acts = w.acts := by
    rcases left with ⟨rfl, _⟩ | ⟨rfl, _⟩ <;> rfl
  rcases ended with ⟨status, ⟨more, all, part⟩, stays⟩ | ⟨current, valid, rfl, status⟩
  · refine .broken status (by rw [all, acts]; simp) (Or.inl rfl) part ?_
    rintro ⟨ready, _, target, moved, other⟩
    rcases left with ⟨_, unready⟩ | ⟨rfl, _⟩
    · exact unready ready
    · exact other (stays target moved)
  · refine .left (by rw [acts]; simp) (Or.inl rfl) (Or.inl rfl) ?_ status
    rcases left with ⟨rfl, unready⟩ | ⟨rfl, ready, failing⟩
    · exact ⟨fun _ abandons => unready abandons.1, fun _ => (currentTarget_eq_ok start).1⟩
    · have moved : plan.link = .points current := (currentTarget_eq_ok valid).1
      have fails : plan.installerFails := by
        rcases failing with fails | ⟨failure, invalid⟩
        · exact fails
        · exact absurd (valid.symm.trans invalid) nofun
      constructor
      · rintro here ⟨_, _, target, found, other⟩
        have same : current = previous := Link.points.inj (moved.symm.trans here)
        have found' : target = current := Except.ok.inj (found.symm.trans valid)
        exact other (found'.trans same)
      · intro fine
        by_contra away
        refine fine ⟨ready, fails, current, valid, fun same => away ?_⟩
        rw [← same]
        exact moved

/-- The handler behind the second part, which moves the link back. -/
theorem settled_activate {w before : World} {verdict : Verdict} {after : World} {target : String}
    (left : before = w.installed plan ∨ before = { w.installed plan with acts := w.acts ++ [.restarted] })
    (valid : currentTarget plan.link plan.tree = .ok target) (fine : ¬ plan.installerFails)
    (ended : verdict.status = .failed ∧ (∃ more, after.acts = before.acts ++ more ++ [.rollbackFailed] ∧
        more <+: [.switched previous, .restarted]) ∨
      ∃ current, currentTarget before.link before.tree = .ok current ∧
        (some target ≠ some current ∧ after = before ∨ some target = some current ∧
          after = { before with link := .points previous, acts := before.acts ++ [.switched previous, .restarted] }) ∧
        (verdict.status = .failed ∨ verdict.status = .rolledBack ∧
          currentTarget after.link after.tree = .ok previous ∧
            Healthy plan.rollbackValidation (generationPath state.site previous))) :
    Settled plan state previous w after verdict := by
  have safe : ¬ plan.abandons state.sourceCommit previous := fun abandons => fine abandons.2.1
  obtain ⟨front, acts, first⟩ : ∃ front, before.acts = w.acts ++ front ∧ (front = [] ∨ front = [Act.restarted]) := by
    rcases left with rfl | rfl
    · exact ⟨[], by simp [World.installed], Or.inl rfl⟩
    · exact ⟨[.restarted], rfl, Or.inr rfl⟩
  have here : currentTarget before.link before.tree = .ok target := by
    rcases left with rfl | rfl <;> exact valid
  rcases ended with ⟨status, more, all, part⟩ | ⟨current, found, place, status⟩
  · exact .broken status (by rw [all, acts]; simp) first part safe
  · obtain rfl : current = target := Except.ok.inj (found.symm.trans here)
    rcases place with ⟨other, _⟩ | ⟨_, rfl⟩
    · exact absurd rfl other
    · exact .left (by simp [acts]) first (Or.inr rfl) ⟨fun _ => safe, fun _ => rfl⟩ status

theorem settle_spec (w : World) (start : currentTarget w.link w.tree = .ok previous) :
    Ends (settle plan state previous) w fun outcome after => ∃ verdict, outcome = .ok verdict ∧
      Settled plan state previous w after verdict := by
  refine ends_bind_attempt ((install_spec plan state w).mono fun outcome before installed => ?_)
  cases outcome with
  | error failure =>
    refine (rollback_spec plan state previous none failure before).mono fun outcome after ended => ?_
    obtain ⟨verdict, rfl, ended⟩ := ended
    refine ⟨verdict, rfl, settled_install plan state previous start installed ?_⟩
    rcases ended with ⟨status, more, stays⟩ | ⟨current, valid, place, status⟩
    · exact Or.inl ⟨status, more, stays rfl⟩
    · rcases place with ⟨_, same⟩ | ⟨mine, _⟩
      · exact Or.inr ⟨current, valid, same, status⟩
      · cases mine
  | ok target =>
    obtain ⟨rfl, _, fine, valid⟩ := installed
    refine ends_bind_attempt ((activate_spec plan state previous target _).mono fun outcome before activated => ?_)
    obtain ⟨place, done⟩ := activated
    cases outcome with
    | error failure =>
      refine (rollback_spec plan state previous (some target) failure before).mono fun outcome after ended => ?_
      obtain ⟨verdict, rfl, ended⟩ := ended
      refine ⟨verdict, rfl, settled_activate plan state previous place valid fine ?_⟩
      rcases ended with ⟨status, more, _⟩ | ended
      · exact Or.inl ⟨status, more⟩
      · exact Or.inr ended
    | ok verdict =>
      obtain ⟨status, rfl, reviewed, healthy⟩ := done verdict rfl
      exact ends_pure ⟨verdict, rfl, .succeeded status rfl (currentTarget_eq_ok valid).1 reviewed healthy
        fun abandons => fine abandons.2.1⟩

/-- Whatever has become of the link in between, the worker comes to a final status. -/
theorem settle_ends (w : World) : Ends (settle plan state previous) w fun outcome _ => ∃ verdict, outcome = .ok verdict ∧
    verdict.status.terminal = true := by
  have handler (target : Option String) (failure : Failure) (w : World) :
      Ends (rollback plan state previous target failure) w fun outcome _ => ∃ verdict, outcome = .ok verdict ∧
        verdict.status.terminal = true := by
    refine (rollback_spec plan state previous target failure w).mono fun outcome after ended => ?_
    obtain ⟨verdict, rfl, ⟨status, _⟩ | ⟨_, _, _, status | ⟨status, _⟩⟩⟩ := ended
    · exact ⟨verdict, rfl, by rw [status]; rfl⟩
    · exact ⟨verdict, rfl, by rw [status]; rfl⟩
    · exact ⟨verdict, rfl, by rw [status]; rfl⟩
  refine ends_bind_attempt ((install_spec plan state w).mono fun outcome before _ => ?_)
  cases outcome with
  | error failure => exact handler none failure before
  | ok target =>
    refine ends_bind_attempt ((activate_spec plan state previous target before).mono fun outcome after activated => ?_)
    cases outcome with
    | error failure => exact handler (some target) failure after
    | ok verdict => exact ends_pure ⟨verdict, rfl, by rw [(activated.2 verdict rfl).1]; rfl⟩

end Specifications

section Outcomes

open Action

/-- An execution starts with the state file and whatever the link and the generations are. -/
def World.start (link : Link) (tree : Tree) (file : UpdateState) : World := ⟨link, tree, file, []⟩

/-- What an execution owes to the world it starts in. -/
structure Safe (plan : Plan) (w after : World) : Prop where
  restored : (∀ current, .recorded .succeeded current ∉ after.acts) → .rollbackFailed ∉ after.acts →
    after.link = w.link ∧ restartsBehind after.acts = true
  succeeded : ∀ current, .recorded .succeeded current ∈ after.acts → after.link = current ∧
    activeSourceCommit current after.tree = .ok w.file.sourceCommit ∧
      ∃ target, current = .points target ∧ Healthy plan.validation (generationPath w.file.site target)
  rolledBack : ∀ current, .recorded .rolledBack current ∈ after.acts → after.link = current ∧ current = w.link ∧
    ∃ previous, current = .points previous ∧ Healthy plan.rollbackValidation (generationPath w.file.site previous)

/-- The execution gets to the installer, which fails behind its move of the link to another generation. -/
def Abandoned (plan : Plan) (w : World) : Prop :=
  w.file.status = .scheduled ∧ ∃ previous, currentTarget w.link w.tree = .ok previous ∧
    plan.abandons w.file.sourceCommit previous

/-- An execution changes nothing, or ends in one of the three ways behind the record that it runs. -/
theorem run_spec (plan : Plan) (w : World) : Ends (runControllerUpdate plan) w fun _ after =>
    after = w ∧ ¬ Abandoned plan w ∨ w.file.status = .scheduled ∧ ∃ previous before verdict,
      currentTarget w.link w.tree = .ok previous ∧
      Settled plan w.file previous
        { w with file := w.file.run previous, acts := w.acts ++ [.recorded .running w.link] } before verdict ∧
      after.link = before.link ∧ after.tree = before.tree ∧
      after.acts = before.acts ++ [.recorded verdict.status before.link] := by
  refine ends_bind_read ?_
  by_cases scheduled : w.file.status = .scheduled
  · simp only [scheduled, ne_eq, not_true, if_false]
    refine ends_bind_lift ?_ fun previous start => ends_bind_modify ?_
    · intro failure invalid
      refine Or.inl ⟨rfl, ?_⟩
      rintro ⟨_, previous, valid, _⟩
      rw [valid] at invalid
      cases invalid
    · have settled := settle_spec plan w.file previous
        { w with file := w.file.run previous, acts := w.acts ++ [.recorded .running w.link] } start
      refine ends_bind (settled.mono fun outcome before settled => ?_)
      obtain ⟨verdict, rfl, settled⟩ := settled
      exact ends_bind_modify (ends_pure (Or.inr ⟨trivial, previous, before, verdict, start, settled, rfl, rfl, rfl⟩))
  · simp only [ne_eq, scheduled, not_false_eq_true, if_true]
    exact ends_pure (Or.inl ⟨rfl, fun abandoned => scheduled abandoned.1⟩)

theorem not_recorded_of_prefix {front more : List Act} {previous : String} (first : front = [] ∨ front = [.restarted])
    (part : more <+: [.switched previous, .restarted]) (status : UpdateStatus) (current : Link) :
    .recorded status current ∉ front ∧ .recorded status current ∉ more ∧ .rollbackFailed ∉ front ∧ .rollbackFailed ∉ more := by
  refine ⟨fun member => ?_, fun member => ?_, fun member => ?_, fun member => ?_⟩
  · rcases first with rfl | rfl <;> simp at member
  · simpa using part.subset member
  · rcases first with rfl | rfl <;> simp at member
  · simpa using part.subset member

theorem safe_settled {plan : Plan} {w before after : World} {previous : String} {verdict : Verdict}
    (fresh : w.acts = []) (start : currentTarget w.link w.tree = .ok previous)
    (settled : Settled plan w.file previous
      { w with file := w.file.run previous, acts := w.acts ++ [.recorded .running w.link] } before verdict)
    (link : after.link = before.link) (tree : after.tree = before.tree)
    (acts : after.acts = before.acts ++ [.recorded verdict.status before.link]) :
    Safe plan w after ↔ ¬ plan.abandons w.file.sourceCommit previous := by
  obtain ⟨pointed, _⟩ := currentTarget_eq_ok start
  cases settled with
  | succeeded status done at' reviewed healthy fine =>
    simp only [fresh, List.nil_append, List.cons_append] at done
    rw [done] at acts
    refine ⟨fun _ => fine, fun _ => ⟨fun none => ?_, ?_, ?_⟩⟩
    · refine absurd (none before.link) ?_
      simp [acts, status]
    · intro current member
      obtain rfl : current = before.link := by simpa [acts, status] using member
      refine ⟨link, ?_, _, at', healthy⟩
      rw [tree]
      exact reviewed
    · intro current member
      simp [acts, status] at member
  | broken status done first part fine =>
    rename_i front more
    simp only [fresh, List.nil_append, List.cons_append] at done
    rw [done, status] at acts
    refine ⟨fun _ => fine, fun _ => ⟨fun _ none => ?_, ?_, ?_⟩⟩
    · refine absurd ?_ none
      simp [acts]
    · intro current member
      obtain ⟨here, there, _⟩ := not_recorded_of_prefix first part .succeeded current
      simp [acts, here, there] at member
    · intro current member
      obtain ⟨here, there, _⟩ := not_recorded_of_prefix first part .rolledBack current
      simp [acts, here, there] at member
  | left done first whole back status =>
    rename_i front more
    simp only [fresh, List.nil_append, List.cons_append] at done
    rw [done] at acts
    have part : more <+: [.switched previous, .restarted] := by
      rcases whole with rfl | rfl
      · exact List.nil_prefix
      · exact List.prefix_rfl
    have open' (status : UpdateStatus) (current : Link) := not_recorded_of_prefix first part status current
    rw [← back]
    constructor
    · intro safe
      rw [← link, (safe.restored ?_ ?_).1, pointed]
      · intro current member
        rcases status with failed | ⟨rolled, _⟩
        · simp [acts, open', failed] at member
        · simp [acts, open', rolled] at member
      · intro member
        simp [acts, open' .running before.link] at member
    · intro there
      refine ⟨fun _ _ => ⟨by rw [link, there, pointed], ?_⟩, ?_, ?_⟩
      · rw [acts]
        rcases first with rfl | rfl <;> rcases whole with rfl | rfl <;> rfl
      · intro current member
        rcases status with failed | ⟨rolled, _⟩
        · simp [acts, open', failed] at member
        · simp [acts, open', rolled] at member
      · intro current member
        rcases status with failed | ⟨rolled, valid, healthy⟩
        · simp [acts, open', failed] at member
        · obtain rfl : current = before.link := by simpa [acts, open', rolled] using member
          exact ⟨link, by rw [there, pointed], previous, there, healthy⟩

/-- An execution is safe, whatever the commands answer, exactly when it is not abandoned by the installer. -/
theorem update_safe_iff (plan : Plan) (link : Link) (tree : Tree) (file : UpdateState) :
    Safe plan (World.start link tree file) ((runControllerUpdate plan).run (World.start link tree file)).2 ↔
      ¬ Abandoned plan (World.start link tree file) := by
  rcases run_spec plan (World.start link tree file) with ⟨same, fine⟩ | ⟨scheduled, previous, before, verdict, start, settled, ended⟩
  · rw [same]
    refine ⟨fun _ => fine, fun _ => ⟨fun _ _ => ⟨rfl, rfl⟩, nofun, nofun⟩⟩
  · rw [safe_settled rfl start settled ended.1 ended.2.1 ended.2.2]
    constructor
    · rintro fine ⟨_, other, valid, abandons⟩
      obtain rfl : other = previous := Except.ok.inj (valid.symm.trans start)
      exact fine abandons
    · exact fun fine abandons => fine ⟨scheduled, previous, start, abandons⟩

def sampleOld : String := "generations/1111111111111111111111111111111111111111111111111111111111111111"

def sampleNew : String := "generations/2222222222222222222222222222222222222222222222222222222222222222"

def sampleTree : Tree where
  entry name := if name = sampleOld ∨ name = sampleNew then .directory else .missing
  manifest _ := .ok "0123456789012345678901234567890123456789"

def sampleSite : Site := ⟨"git", "", "/opt", "/opt/source", "systemctl", "opentulpa.service"⟩

def sampleFile : UpdateState where
  activationId := "activation-1"
  audit := []
  controllerGeneration := none
  error := none
  notified := false
  previousTarget := none
  releaseId := "release-1"
  sourceCommit := ⟨"0123456789012345678901234567890123456789", by decide +kernel⟩
  status := .scheduled
  site := sampleSite

/-- The installer activates the new generation and is then killed for its time. -/
def samplePlan : Plan where
  head := .exited 0 "0123456789012345678901234567890123456789\n"
  changes := .exited 0 ""
  executable := .ok true
  installer := .exited 124 ""
  link := .points sampleNew
  tree := sampleTree
  restart := .exited 0 ""
  validation := []
  rollbackSwitch := .done
  rollbackRestart := .exited 0 ""
  rollbackValidation := []

theorem killed_installer_keeps_link : ¬ ∀ plan link tree file,
    Safe plan (World.start link tree file) ((runControllerUpdate plan).run (World.start link tree file)).2 := by
  intro safe
  have acts : ((runControllerUpdate samplePlan).run (World.start (.points sampleOld) sampleTree sampleFile)).2.acts =
      [.recorded .running (.points sampleOld), .recorded .failed (.points sampleNew)] := by decide +kernel
  have link : ((runControllerUpdate samplePlan).run (World.start (.points sampleOld) sampleTree sampleFile)).2.link =
      .points sampleNew := by decide +kernel
  have restored := (safe samplePlan (.points sampleOld) sampleTree sampleFile).restored
  rw [acts, link] at restored
  have same := (restored (by simp) (by simp)).1
  have apart : Link.points sampleNew ≠ (World.start (.points sampleOld) sampleTree sampleFile).link := by decide +kernel
  exact apart same

end Outcomes

end OpenTulpa.Host.ControllerUpdate
