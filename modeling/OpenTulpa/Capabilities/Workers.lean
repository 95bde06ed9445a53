import Mathlib.Data.List.Nodup
import OpenTulpa.Capabilities.Models
import OpenTulpa.Library.Json

/-! The manager of capability workers. All workers of a manifest are started by a host, which may refuse, fail or be
interrupted at any call; what has been started is stopped again when one of them is missing. -/

namespace OpenTulpa.Capabilities.Workers

open Library Text Models

section Model

inductive WorkerKind where
  | interface
  | mcp
  | trigger
  | ui
  deriving DecidableEq

inductive WorkerTransport where
  | stdio
  | streamableHttp
  deriving DecidableEq

structure WorkerSpec where
  name : String
  kind : WorkerKind
  transport : WorkerTransport := .stdio
  secrets : List SecretRequirement := []
  required : Bool := true
  deriving DecidableEq

structure CapabilityManifest where
  name : String
  revision : Nat
  contentDigest : String
  workers : List WorkerSpec
  named : name ≠ ""
  unique : (workers.map WorkerSpec.name).Nodup

structure WorkerLaunch where
  instanceId : String
  manifest : CapabilityManifest
  worker : WorkerSpec
  tenantId : String
  config : List (String × Json)
  secretEnvironment : List (String × String)

/-- What a host says of a worker that it has started. -/
structure Started where
  id : String
  endpoint : Option String := none
  endpointHeaders : List (String × String) := []
  deriving DecidableEq

structure WorkerHandle where
  id : String
  instanceId : String
  capabilityName : String
  capabilityRevision : Nat
  manifestDigest : String
  workerName : String
  endpoint : Option String
  endpointHeaders : List (String × String)
  deriving DecidableEq

def WorkerLaunch.handle (launch : WorkerLaunch) (started : Started) : WorkerHandle where
  id := started.id
  instanceId := launch.instanceId
  capabilityName := launch.manifest.name
  capabilityRevision := launch.manifest.revision
  manifestDigest := launch.manifest.contentDigest
  workerName := launch.worker.name
  endpoint := started.endpoint
  endpointHeaders := started.endpointHeaders

structure CapabilityWorkerSet where
  instanceId : String
  tenantId : String
  capabilityName : String
  capabilityRevision : Nat
  manifestDigest : String
  handles : List WorkerHandle
  named : tenantId ≠ "" ∧ capabilityName ≠ ""
  deriving DecidableEq

/-- A lifecycle error, another exception, or a cancellation. -/
inductive Failure where
  | lifecycle (message : String)
  | exception
  | interrupted
  deriving DecidableEq

/-- A host answers each call from a state of its own; a distributed one can fence a capability. -/
structure WorkerHost (σ : Type) where
  start : WorkerLaunch → σ → Except Failure Started × σ
  healthy : WorkerHandle → σ → Except Failure Bool × σ
  stop : WorkerHandle → σ → Except Failure Unit × σ
  fence : Option (String → String → σ → Except Failure Unit × σ) := none

/-- The errors of the manager, and an exception of the host that is passed on. -/
inductive LifecycleError where
  | value (message : String)
  | lifecycle (message : String)
  | exception
  | interrupted
  deriving DecidableEq

def unconfirmed : LifecycleError := .lifecycle "capability worker cleanup could not be confirmed"

/-- The worker sets in the order they were started. -/
structure CapabilityWorkerManager where
  active : List CapabilityWorkerSet
  closed : Bool
  distinct : (active.map CapabilityWorkerSet.instanceId).Nodup

def runtimeEnvironmentNames : List String :=
  ["ALL_PROXY", "BASH_ENV", "CLASSPATH", "DOCKER_HOST", "ENV", "GCONV_PATH", "GEM_HOME", "GEM_PATH", "HOME", "HOSTALIASES",
    "HTTPS_PROXY", "HTTP_PROXY", "IFS", "KUBECONFIG", "LANG", "LANGUAGE", "LIBPATH", "LOCPATH", "LOGNAME", "NLSPATH",
    "NO_PROXY", "OLDPWD", "PATH", "PERL5LIB", "PERL5OPT", "PERLLIB", "PWD", "PYTHONHOME", "PYTHONINSPECT", "PYTHONPATH",
    "PYTHONSTARTUP", "RES_OPTIONS", "RUBYLIB", "RUBYOPT", "SHELLOPTS", "SHELL", "SHLIB_PATH", "SSH_AUTH_SOCK", "TEMP", "TERM",
    "TMP", "TMPDIR", "TZ", "TZDIR", "USER", "ZDOTDIR"]

def runtimeEnvironmentSuffixes : List String :=
  ["_DIR", "_FILE", "_HOME", "_HOOKS", "_LIB", "_LIBS", "_MODULES", "_OPTIONS", "_PATH", "_PLUGIN", "_PLUGINS", "_PRELOAD",
    "_STARTUP"]

def runtimeEnvironmentPrefixes : List String :=
  ["BUNDLE_", "CARGO_", "DOTNET_", "DYLD_", "GEM_", "JAVA_", "JDK_JAVA_", "LD_", "LUA_", "MONO_", "NODE_", "NPM_", "NVM_",
    "OPENTULPA_", "PERL", "PHP_", "PYENV_", "PYTHON", "RBENV_", "RUBY", "RUST", "YARN_"]

variable (upper : List Char → List Char)

def isReservedWorkerEnvironmentName (name : String) : Bool :=
  let normalized := upper (stripChars name.toList)
  if normalized == "OPENTULPA_AGENT_API_TOKEN".toList || normalized == "OPENTULPA_TELEGRAM_PAIRING_CODE".toList then false
  else
    runtimeEnvironmentNames.any (fun known => known.toList == normalized) ||
      runtimeEnvironmentPrefixes.any (fun start => start.toList.isPrefixOf normalized) ||
        runtimeEnvironmentSuffixes.any fun ending => ending.toList.isSuffixOf normalized

end Model

section Start

inductive Event where
  | returned (handle : WorkerHandle)
  | passed (handle : WorkerHandle)
  | stopped (handle : WorkerHandle)
  | notStopped (handle : WorkerHandle)
  | fenced
  deriving DecidableEq

/-- The state of a call of `start`: the handles it keeps, and what has happened at the host. -/
structure Attempt (σ : Type) where
  host : σ
  handles : List WorkerHandle := []
  interacted : Bool := false
  log : List Event := []

structure StartRequest where
  instanceId : String
  manifest : CapabilityManifest
  tenantId : String := "default"
  /-- `none` is a configuration that is not JSON serializable. -/
  config : Option (List (String × Json)) := some []
  secrets : List (String × String) := []

def secretOf (secrets : List (String × String)) (requirement : SecretRequirement) : String :=
  (secrets.lookup requirement.name).getD ""

def secretEnvironment (secrets : List (String × String)) (worker : WorkerSpec) : List (String × String) :=
  (worker.secrets.filter fun requirement => secretOf secrets requirement ≠ "").map fun requirement =>
    (requirement.name, secretOf secrets requirement)

def missingSecrets (secrets : List (String × String)) (worker : WorkerSpec) : List String :=
  (worker.secrets.filter fun requirement => secretOf secrets requirement = "" ∧ requirement.required = true).map
    SecretRequirement.name

def WorkerSpec.isStdio (worker : WorkerSpec) : Bool := worker.kind == .mcp && worker.transport == .stdio

def missingMessage (worker : WorkerSpec) (missing : List String) : String :=
  let names := ", ".intercalate (missing.mergeSort fun a b => decide (a ≤ b))
  s!"worker '{worker.name}' is missing required secret grants: {names}"

variable {σ : Type} (host : WorkerHost σ)

/-- `host.stop` within a call of `start`. -/
def Attempt.stop (attempt : Attempt σ) (handle : WorkerHandle) : Except Failure Unit × Attempt σ :=
  match host.stop handle attempt.host with
  | (.ok (), state) => (.ok (), { attempt with host := state, log := attempt.log ++ [.stopped handle] })
  | (.error failure, state) => (.error failure, { attempt with host := state, log := attempt.log ++ [.notStopped handle] })

/-- A worker that did not start or is not healthy; an optional one is given up. -/
def recover (worker : WorkerSpec) (handle : Option WorkerHandle) (failure : Failure) (attempt : Attempt σ) :
    Except Failure Unit × Attempt σ :=
  if failure = .interrupted then (.error failure, attempt)
  else if host.fence.isSome || worker.required then (.error failure, attempt)
  else
    match handle with
    | none => (.ok (), attempt)
    | some handle =>
      match attempt.stop host handle with
      | (.ok (), attempt) => (.ok (), { attempt with handles := attempt.handles.erase handle })
      | (.error .interrupted, attempt) => (.error .interrupted, attempt)
      | (.error _, attempt) => (.error (.lifecycle "optional capability worker cleanup failed"), attempt)

def startWorker (launch : WorkerLaunch) (attempt : Attempt σ) : Except Failure Unit × Attempt σ :=
  match host.start launch attempt.host with
  | (.error failure, state) => recover host launch.worker none failure { attempt with host := state, interacted := true }
  | (.ok started, state) =>
    let handle := launch.handle started
    match host.healthy handle state with
    | (.ok true, state) => (.ok (), ⟨state, attempt.handles ++ [handle], true, attempt.log ++ [.returned handle, .passed handle]⟩)
    | (.ok false, state) =>
      recover host launch.worker (some handle)
        (.lifecycle s!"worker '{launch.worker.name}' failed its startup health check")
        ⟨state, attempt.handles ++ [handle], true, attempt.log ++ [.returned handle]⟩
    | (.error failure, state) =>
      recover host launch.worker (some handle) failure
        ⟨state, attempt.handles ++ [handle], true, attempt.log ++ [.returned handle]⟩

def startWorkers (launch : WorkerSpec → WorkerLaunch) (secrets : List (String × String)) :
    List WorkerSpec → Attempt σ → Except Failure Unit × Attempt σ
  | [], attempt => (.ok (), attempt)
  | worker :: rest, attempt =>
    let missing := missingSecrets secrets worker
    if !missing.isEmpty then (.error (.lifecycle (missingMessage worker missing)), attempt)
    else if worker.isStdio then startWorkers launch secrets rest attempt
    else
      match startWorker host (launch worker) attempt with
      | (.error failure, attempt) => (.error failure, attempt)
      | (.ok (), attempt) => startWorkers launch secrets rest attempt

/-- The handles are stopped one after the other; the flag says that one of them could not be stopped. -/
def stopAll : List WorkerHandle → Attempt σ → Bool × Attempt σ
  | [], attempt => (false, attempt)
  | handle :: rest, attempt =>
    match attempt.stop host handle with
    | (.ok (), attempt) => stopAll rest attempt
    | (.error _, attempt) => (true, (stopAll rest attempt).2)

def Failure.raised : Failure → LifecycleError
  | .lifecycle message => .lifecycle message
  | .exception => .lifecycle "capability workers failed to start"
  | .interrupted => .interrupted

/-- What is raised after a failure, once the handles are stopped and the capability is fenced. -/
def cleanup (tenantId capabilityName : String) (failure : Failure) (attempt : Attempt σ) : LifecycleError × Attempt σ :=
  let (stopErrors, attempt) := stopAll host attempt.handles.reverse attempt
  match host.fence with
  | none => (if stopErrors then unconfirmed else failure.raised, attempt)
  | some fence =>
    if attempt.interacted then
      match fence tenantId capabilityName attempt.host with
      | (.ok (), state) => (failure.raised, { attempt with host := state, log := attempt.log ++ [.fenced] })
      | (.error _, state) => (unconfirmed, { attempt with host := state })
    else (if stopErrors then unconfirmed else failure.raised, attempt)

def defaultTenant (tenantId : String) : String := if strip tenantId = "" then "default" else strip tenantId

theorem defaultTenant_named (tenantId : String) : defaultTenant tenantId ≠ "" := by
  rw [defaultTenant]
  split
  · decide
  · assumption

def workerSet (instanceId tenantId : String) (manifest : CapabilityManifest) (handles : List WorkerHandle) :
    CapabilityWorkerSet :=
  ⟨instanceId, defaultTenant tenantId, manifest.name, manifest.revision, manifest.contentDigest, handles,
    defaultTenant_named tenantId, manifest.named⟩

def CapabilityWorkerManager.record (manager : CapabilityWorkerManager) (set : CapabilityWorkerSet)
    (free : set.instanceId ∉ manager.active.map CapabilityWorkerSet.instanceId) : CapabilityWorkerManager where
  active := manager.active ++ [set]
  closed := manager.closed
  distinct := by
    rw [List.map_append, List.map_singleton]
    exact List.nodup_append.mpr ⟨manager.distinct, List.nodup_singleton _, fun first left second right same =>
      free (by rw [← List.mem_singleton.mp right, ← same]; exact left)⟩

def start (upper : List Char → List Char) (manager : CapabilityWorkerManager) (request : StartRequest) (state : σ) :
    Except LifecycleError CapabilityWorkerSet × CapabilityWorkerManager × Attempt σ :=
  let instanceId := strip request.instanceId
  if instanceId = "" then (.error (.value "capability instance_id is required"), manager, ⟨state, [], false, []⟩)
  else if request.secrets.any fun entry => isReservedWorkerEnvironmentName upper entry.1 then
    (.error (.lifecycle "capability secrets cannot override worker runtime environment"), manager, ⟨state, [], false, []⟩)
  else
    match request.config with
    | none => (.error (.value "capability config must be JSON serializable"), manager, ⟨state, [], false, []⟩)
    | some config =>
      if manager.closed then
        (.error (.lifecycle "capability worker manager is closed"), manager, ⟨state, [], false, []⟩)
      else if running : instanceId ∈ manager.active.map CapabilityWorkerSet.instanceId then
        (.error (.lifecycle "capability instance is already running"), manager, ⟨state, [], false, []⟩)
      else
        let launch := fun worker => WorkerLaunch.mk instanceId request.manifest worker (defaultTenant request.tenantId) config
          (secretEnvironment request.secrets worker)
        match startWorkers host launch request.secrets request.manifest.workers ⟨state, [], false, []⟩ with
        | (.ok (), attempt) =>
          let set := workerSet instanceId request.tenantId request.manifest attempt.handles
          (.ok set, manager.record set running, attempt)
        | (.error failure, attempt) =>
          let (error, attempt) := cleanup host (defaultTenant request.tenantId) request.manifest.name failure attempt
          (.error error, manager, attempt)

end Start

section AllOrNothing

/-- The handles that the host has returned and not been seen to stop. -/
def outstanding (log : List Event) : List WorkerHandle :=
  log.foldl (fun running event => match event with
    | .returned handle => running ++ [handle]
    | .stopped handle => running.erase handle
    | .fenced => []
    | .passed _ | .notStopped _ => running) []

def passedHandles (log : List Event) : List WorkerHandle :=
  log.filterMap fun event => match event with
    | .passed handle => some handle
    | _ => none

variable {σ : Type} {host : WorkerHost σ} {attempt : Attempt σ}

theorem outstanding_append (log : List Event) (event : Event) : outstanding (log ++ [event]) = match event with
    | .returned handle => outstanding log ++ [handle]
    | .stopped handle => (outstanding log).erase handle
    | .fenced => []
    | .passed _ | .notStopped _ => outstanding log := by
  rw [outstanding, List.foldl_append]
  rfl

theorem passedHandles_append (first second : List Event) :
    passedHandles (first ++ second) = passedHandles first ++ passedHandles second := List.filterMap_append

/-- Stopping one handle takes it from the outstanding ones, or leaves them. -/
theorem stop_eq (host : WorkerHost σ) (attempt : Attempt σ) (handle : WorkerHandle) :
    (∃ state, attempt.stop host handle =
      (.ok (), { attempt with host := state, log := attempt.log ++ [.stopped handle] })) ∨
    ∃ failure state, attempt.stop host handle =
      (.error failure, { attempt with host := state, log := attempt.log ++ [.notStopped handle] }) := by
  rw [Attempt.stop]
  rcases host.stop handle attempt.host with ⟨_ | _, state⟩
  · exact Or.inr ⟨_, _, rfl⟩
  · exact Or.inl ⟨_, rfl⟩

/-- The call keeps the handles that are outstanding. -/
def Kept (attempt : Attempt σ) : Prop := outstanding attempt.log = attempt.handles

/-- When no stop fails, nothing is left outstanding. -/
theorem stopAll_outstanding {handles : List WorkerHandle} (left : (outstanding attempt.log).Perm handles)
    (clean : (stopAll host handles attempt).1 = false) : outstanding (stopAll host handles attempt).2.log = [] := by
  induction handles generalizing attempt with
  | nil => exact List.perm_nil.mp left
  | cons handle rest ih =>
    rw [stopAll] at clean ⊢
    rcases stop_eq host attempt handle with ⟨state, stopped⟩ | ⟨failure, state, refused⟩
    · rw [stopped] at clean ⊢
      refine ih ?_ clean
      rw [outstanding_append]
      exact (left.erase handle).trans (by rw [List.erase_cons_head])
    · rw [refused] at clean
      cases clean

theorem recover_kept {worker : WorkerSpec} {handle : Option WorkerHandle} {failure : Failure} (kept : Kept attempt) :
    Kept (recover host worker handle failure attempt).2 := by
  unfold recover
  split
  · exact kept
  · split
    · exact kept
    · cases handle with
      | none => exact kept
      | some handle =>
        rcases stop_eq host attempt handle with ⟨state, stopped⟩ | ⟨failure, state, refused⟩
        · simp only [stopped]
          exact (outstanding_append _ _).trans (congrArg (List.erase · handle) kept)
        · have same : Kept { attempt with host := state, log := attempt.log ++ [.notStopped handle] } :=
            (outstanding_append _ _).trans kept
          simp only [refused]
          cases failure <;> exact same

theorem startWorker_kept (launch : WorkerLaunch) (kept : Kept attempt) : Kept (startWorker host launch attempt).2 := by
  have returned (state : σ) (handle : WorkerHandle) :
      Kept ⟨state, attempt.handles ++ [handle], true, attempt.log ++ [.returned handle]⟩ :=
    (outstanding_append _ _).trans (congrArg (· ++ [handle]) kept)
  rw [startWorker]
  rcases host.start launch attempt.host with ⟨failure | started, state⟩
  · exact recover_kept kept
  · simp only
    rcases host.healthy (launch.handle started) state with ⟨failure | healthy, next⟩
    · exact recover_kept (returned next _)
    · cases healthy with
      | false => exact recover_kept (returned next _)
      | true =>
        have log : attempt.log ++ [.returned (launch.handle started), .passed (launch.handle started)] =
          attempt.log ++ [.returned (launch.handle started)] ++ [.passed (launch.handle started)] := by simp
        simp only [log]
        exact (outstanding_append _ _).trans (returned next _)

theorem startWorkers_kept (launch : WorkerSpec → WorkerLaunch) (secrets : List (String × String)) (workers : List WorkerSpec)
    (kept : Kept attempt) : Kept (startWorkers host launch secrets workers attempt).2 := by
  induction workers generalizing attempt with
  | nil => exact kept
  | cons worker rest ih =>
    simp only [startWorkers]
    split
    · exact kept
    · split
      · exact ih kept
      · have next : Kept (startWorker host (launch worker) attempt).2 := startWorker_kept (launch worker) kept
        cases result : startWorker host (launch worker) attempt with
        | mk outcome after =>
          rw [result] at next
          cases outcome with
          | error failure => exact next
          | ok done => exact ih next

/-- Whatever is raised after a confirmed cleanup, nothing is left outstanding. -/
theorem cleanup_outstanding {tenantId capabilityName : String} {failure : Failure} {error : LifecycleError}
    {after : Attempt σ} (kept : Kept attempt)
    (raised : cleanup host tenantId capabilityName failure attempt = (error, after)) (confirmed : error ≠ unconfirmed) :
    outstanding after.log = [] := by
  have left : (outstanding attempt.log).Perm attempt.handles.reverse := by
    rw [kept]
    exact attempt.handles.reverse_perm.symm
  have stops : (stopAll host attempt.handles.reverse attempt).1 = false →
      outstanding (stopAll host attempt.handles.reverse attempt).2.log = [] := stopAll_outstanding left
  unfold cleanup at raised
  cases result : stopAll host attempt.handles.reverse attempt with
  | mk errors stopped =>
    rw [result] at stops
    simp only [result] at raised
    have alone (raised : (if errors = true then unconfirmed else failure.raised, stopped) = (error, after)) :
        outstanding after.log = [] := by
      obtain ⟨rfl, rfl⟩ := Prod.mk.inj raised
      cases errors with
      | false => exact stops rfl
      | true => exact absurd rfl confirmed
    cases fence : host.fence with
    | none => rw [fence] at raised; exact alone raised
    | some remote =>
      simp only [fence] at raised
      split at raised
      · cases answer : remote tenantId capabilityName stopped.host with
        | mk outcome state =>
          rw [answer] at raised
          cases outcome with
          | error _ => exact absurd (Prod.mk.inj raised).1.symm confirmed
          | ok _ =>
            obtain ⟨_, rfl⟩ := Prod.mk.inj raised
            exact outstanding_append _ _
      · exact alone raised

theorem recover_ok {worker : WorkerSpec} {handle : Option WorkerHandle} {failure : Failure} {after : Attempt σ}
    (done : recover host worker handle failure attempt = (.ok (), after)) : worker.required = false ∧
      after.handles = handle.elim attempt.handles attempt.handles.erase ∧
      passedHandles after.log = passedHandles attempt.log := by
  unfold recover at done
  split at done
  · cases done
  · split at done
    · cases done
    · rename_i given
      have optional : worker.required = false := by
        rw [Bool.not_eq_true, Bool.or_eq_false_iff] at given
        exact given.2
      cases handle with
      | none =>
        obtain rfl := (Prod.mk.inj done).2
        exact ⟨optional, rfl, rfl⟩
      | some handle =>
        rcases stop_eq host attempt handle with ⟨state, stopped⟩ | ⟨failure, state, refused⟩
        · simp only [stopped] at done
          obtain rfl := (Prod.mk.inj done).2
          exact ⟨optional, rfl, (passedHandles_append _ _).trans (List.append_nil _)⟩
        · simp only [refused] at done
          cases failure <;> cases done

/-- A worker that is passed over was optional; another one has its handle kept. -/
theorem startWorker_ok {launch : WorkerLaunch} {after : Attempt σ} (done : startWorker host launch attempt = (.ok (), after))
    (fresh : launch.worker.name ∉ attempt.handles.map WorkerHandle.workerName)
    (passed : passedHandles attempt.log = attempt.handles) :
    (after.handles = attempt.handles ∧ launch.worker.required = false ∨
      ∃ handle, handle.workerName = launch.worker.name ∧ after.handles = attempt.handles ++ [handle]) ∧
    passedHandles after.log = after.handles := by
  have gone (handle : WorkerHandle) (named : handle.workerName = launch.worker.name) :
      (attempt.handles ++ [handle]).erase handle = attempt.handles := by
    have absent : handle ∉ attempt.handles := fun member =>
      fresh (List.mem_map.mpr ⟨handle, member, named⟩)
    rw [List.erase_append_right _ absent, List.erase_cons_head, List.append_nil]
  have given {failure : Failure} {state : σ} {started : Started}
      (done : recover host launch.worker (some (launch.handle started)) failure
        ⟨state, attempt.handles ++ [launch.handle started], true, attempt.log ++ [.returned (launch.handle started)]⟩ =
          (.ok (), after)) :
      (after.handles = attempt.handles ∧ launch.worker.required = false) ∧ passedHandles after.log = after.handles := by
    obtain ⟨optional, kept, log⟩ := recover_ok done
    have same : after.handles = attempt.handles := kept.trans (gone _ rfl)
    refine ⟨⟨same, optional⟩, ?_⟩
    rw [log, passedHandles_append, passed, same]
    exact List.append_nil _
  unfold startWorker at done
  cases answer : host.start launch attempt.host with
  | mk outcome state =>
    rw [answer] at done
    cases outcome with
    | error failure =>
      obtain ⟨optional, kept, log⟩ := recover_ok done
      exact ⟨Or.inl ⟨kept, optional⟩, log.trans (passed.trans kept.symm)⟩
    | ok started =>
      simp only at done
      cases check : host.healthy (launch.handle started) state with
      | mk outcome next =>
        rw [check] at done
        cases outcome with
        | error failure => exact ⟨Or.inl (given done).1, (given done).2⟩
        | ok healthy =>
          cases healthy with
          | false => exact ⟨Or.inl (given done).1, (given done).2⟩
          | true =>
            obtain rfl := (Prod.mk.inj done).2
            refine ⟨Or.inr ⟨launch.handle started, rfl, rfl⟩, ?_⟩
            exact (passedHandles_append _ _).trans (congrArg (· ++ [launch.handle started]) passed)

theorem startWorkers_ok {launch : WorkerSpec → WorkerLaunch} (launches : ∀ worker, (launch worker).worker = worker)
    {secrets : List (String × String)} {workers : List WorkerSpec} {after : Attempt σ}
    (done : startWorkers host launch secrets workers attempt = (.ok (), after))
    (unique : (attempt.handles.map WorkerHandle.workerName ++ workers.map WorkerSpec.name).Nodup)
    (passed : passedHandles attempt.log = attempt.handles) :
    ∃ added, after.handles = attempt.handles ++ added ∧ passedHandles after.log = after.handles ∧
      (added.map WorkerHandle.workerName).Sublist (workers.map WorkerSpec.name) ∧
      ∀ worker ∈ workers, worker.required = true → worker.isStdio = false → worker.name ∈ added.map WorkerHandle.workerName := by
  induction workers generalizing attempt with
  | nil =>
    obtain rfl := (Prod.mk.inj done).2
    exact ⟨[], (List.append_nil _).symm, passed, List.Sublist.refl _, nofun⟩
  | cons worker rest ih =>
    have later : (attempt.handles.map WorkerHandle.workerName ++ rest.map WorkerSpec.name).Nodup :=
      unique.sublist ((List.sublist_cons_self _ _).append_left _)
    have fresh : (launch worker).worker.name ∉ attempt.handles.map WorkerHandle.workerName := by
      rw [launches]
      exact fun member => (List.nodup_append.mp unique).2.2 _ member _ List.mem_cons_self rfl
    simp only [startWorkers] at done
    split at done
    · cases done
    · split at done
      · rename_i stdio
        obtain ⟨added, handles, log, order, all⟩ := ih done later passed
        refine ⟨added, handles, log, order.cons _, List.forall_mem_cons.mpr ⟨fun _ other => ?_, all⟩⟩
        rw [stdio] at other
        cases other
      · cases result : startWorker host (launch worker) attempt with
        | mk outcome next =>
          rw [result] at done
          cases outcome with
          | error failure => cases done
          | ok started =>
            obtain ⟨change, log⟩ := startWorker_ok result fresh passed
            rw [launches] at change
            rcases change with ⟨same, optional⟩ | ⟨handle, named, grown⟩
            · rw [← same] at later
              obtain ⟨added, handles, log, order, all⟩ := ih done later log
              rw [same] at handles
              refine ⟨added, handles, log, order.cons _, List.forall_mem_cons.mpr ⟨fun required => ?_, all⟩⟩
              rw [optional] at required
              cases required
            · have again : (next.handles.map WorkerHandle.workerName ++ rest.map WorkerSpec.name).Nodup := by
                rw [grown, List.map_append, List.map_singleton, named, List.append_assoc]
                exact unique
              obtain ⟨added, handles, log, order, all⟩ := ih done again log
              refine ⟨handle :: added, by rw [handles, grown, List.append_assoc]; rfl, log, ?_, ?_⟩
              · rw [List.map_cons, named]
                exact order.cons_cons _
              · rw [List.map_cons, named]
                exact List.forall_mem_cons.mpr ⟨fun _ _ => List.mem_cons_self,
                  fun worker member required other => List.mem_cons_of_mem _ (all worker member required other)⟩

/-- The recorded set has the workers that passed, in their order and the required ones among them; or nothing has been
recorded and nothing is left, unless the error says that this is not known. -/
def AllOrNothing (manager : CapabilityWorkerManager) (manifest : CapabilityManifest) :
    Except LifecycleError CapabilityWorkerSet × CapabilityWorkerManager × Attempt σ → Prop
  | (.ok set, stored, attempt) => stored.active = manager.active ++ [set] ∧ set.handles = passedHandles attempt.log ∧
      (set.handles.map WorkerHandle.workerName).Sublist (manifest.workers.map WorkerSpec.name) ∧
      ∀ worker ∈ manifest.workers, worker.required = true → worker.isStdio = false →
        worker.name ∈ set.handles.map WorkerHandle.workerName
  | (.error error, stored, attempt) => error ≠ unconfirmed → stored.active = manager.active ∧ outstanding attempt.log = []

theorem start_allOrNothing (host : WorkerHost σ) (upper : List Char → List Char) (manager : CapabilityWorkerManager)
    (request : StartRequest) (state : σ) : AllOrNothing manager request.manifest (start host upper manager request state) := by
  simp only [start]
  split
  · exact fun _ => ⟨rfl, rfl⟩
  · split
    · exact fun _ => ⟨rfl, rfl⟩
    · cases request.config with
      | none => exact fun _ => ⟨rfl, rfl⟩
      | some config =>
        simp only
        split
        · exact fun _ => ⟨rfl, rfl⟩
        · split
          · exact fun _ => ⟨rfl, rfl⟩
          · generalize launched : (fun worker => WorkerLaunch.mk (strip request.instanceId) request.manifest worker
              (defaultTenant request.tenantId) config (secretEnvironment request.secrets worker)) = launch
            have launches : ∀ worker, (launch worker).worker = worker := fun worker => by rw [← launched]
            have kept : Kept (startWorkers host launch request.secrets request.manifest.workers ⟨state, [], false, []⟩).2 :=
              startWorkers_kept launch request.secrets request.manifest.workers rfl
            cases result : startWorkers host launch request.secrets request.manifest.workers ⟨state, [], false, []⟩ with
            | mk outcome attempt =>
              rw [result] at kept
              cases outcome with
              | ok done =>
                obtain ⟨added, handles, log, order, all⟩ := startWorkers_ok launches result
                  (by simpa using request.manifest.unique) rfl
                obtain rfl : attempt.handles = added := handles
                exact ⟨rfl, log.symm, order, all⟩
              | error failure =>
                simp only
                cases raised : cleanup host (defaultTenant request.tenantId) request.manifest.name failure attempt with
                | mk error after => exact fun confirmed => ⟨rfl, cleanup_outstanding kept raised confirmed⟩

end AllOrNothing

end OpenTulpa.Capabilities.Workers
