import OpenTulpa.Host.ControllerUpdate
import OpenTulpa.Library.Calls
import OpenTulpa.Library.Run

/-! Controller updates as the host and the detached workers run them against one state file. The calls of the host come
one after the other, a call and every worker take one access to the file or one command at a time, and each can be
killed between any two of them. -/

namespace OpenTulpa.Host.ControllerRuns

open Library Library.Text ControllerUpdate

section Updater

structure ScheduleRequest where
  activationId : String
  releaseId : String
  sourceCommit : String
  audit : List (String × Json)

/-- What `schedule` makes of the existing state: the status it answers with, or nothing when it goes on. -/
def admission (existing : Option UpdateState) (activationId : String) : Except Failure (Option UpdateStatus) :=
  match existing with
  | none => .ok none
  | some state =>
    if state.activationId = activationId then .ok (some state.status)
    else if state.notified then .ok none
    else .error (updateError "the previous controller update result is still pending")

/-- The state that `schedule` writes first. -/
def freshState (site : Site) (request : ScheduleRequest) (reviewed : Commit) : UpdateState where
  activationId := request.activationId
  audit := request.audit
  controllerGeneration := none
  error := none
  notified := false
  previousTarget := none
  releaseId := request.releaseId
  sourceCommit := reviewed
  status := .scheduled
  site := site

def inProgress (file : Option UpdateState) : Bool :=
  match file with
  | some state => state.status == .scheduled || state.status == .running
  | none => false

def hasPendingNotification (file : Option UpdateState) : Bool :=
  match file with
  | some state => !state.notified
  | none => false

structure EvolutionEvent where
  eventKey : String
  eventType : String
  releaseId : String
  origin : List (String × Json)
  payload : List (String × Json)

def eventKey (activationId : String) (status : UpdateStatus) : String := "controller:" ++ activationId ++ ":" ++ status.text

def eventType : UpdateStatus → String
  | .succeeded => "controller.active"
  | .rolledBack => "controller.rolled_back"
  | _ => "controller.failed"

def payload (state : UpdateState) : List (String × Json) :=
  [("status", .string (if state.status = .succeeded then "active" else state.status.text)),
    ("activation_id", .string state.activationId),
    ("source_commit", .string state.sourceCommit.text),
    ("controller_generation", match state.controllerGeneration with
      | some generation => .string generation
      | none => .null)] ++
  match state.error with
  | some error => if error.isEmpty then [] else [("error", .string error)]
  | none => []

def eventOf (state : UpdateState) : EvolutionEvent where
  eventKey := eventKey state.activationId state.status
  eventType := eventType state.status
  releaseId := state.releaseId
  origin := state.audit
  payload := payload state

def pendingEvent (file : Option UpdateState) : Option EvolutionEvent :=
  match file with
  | none => none
  | some state => if !state.status.terminal || state.notified then none else some (eventOf state)

/-- `mark_notified`, when nothing comes between its accesses to the file. -/
def markNotified (state : UpdateState) (event : EvolutionEvent) : UpdateState :=
  if event.eventKey = eventKey state.activationId state.status then { state with notified := true } else state

end Updater

section System

/-- A call of the host between two of its steps. -/
inductive HostCall where
  | schedule (request : ScheduleRequest)
  | checking (fresh : UpdateState)
  | writing (fresh : UpdateState)
  | starting (fresh : UpdateState)
  | refused (error : String)
  | failing (changed : UpdateState)
  | notifying (event : EvolutionEvent)
  | marking (event : EvolutionEvent)
  | marked (event : EvolutionEvent) (changed : UpdateState)

/-- An execution of `run_controller_update` between two of its steps. -/
inductive WorkerPoint where
  | started (activationId : String)
  | loaded (state : UpdateState)
  | opening (state : UpdateState) (previous : String)
  | recording (state : UpdateState) (previous : String) (changed : UpdateState)
  | working (state : UpdateState) (previous : String)
  | settled (state : UpdateState) (verdict : Verdict)
  | closing (state : UpdateState) (verdict : Verdict) (changed : UpdateState)

def WorkerPoint.activationId : WorkerPoint → String
  | .started activationId => activationId
  | .loaded state | .opening state _ | .recording state _ _ | .working state _ | .settled state _ | .closing state _ _ =>
    state.activationId

/-- How `systemd-run` ends for the caller: by an exception that is caught, or with an exit status. -/
inductive Launched where
  | caught (message : String)
  | exited (code : Int) (output : String)

/-- The end of `systemd-run`, and whether the worker was started. -/
structure Launch where
  launched : Launched
  started : Bool

/-- The error that `schedule` records. -/
def Launched.failure : Launched → Option String
  | .caught message => some (truncate 2000 message)
  | .exited code output => if code = 0 then none else some (processError "systemd refused the controller update" code output)

/-- `finished` is the last status that a worker wrote at its end since the state file was written anew, with its
activation, and `marked` the key for which `notified` was set. -/
structure System where
  site : Site
  file : Option UpdateState
  link : Link
  tree : Tree
  host : Option HostCall
  workers : Calls WorkerPoint
  launches : Nat
  seen : List EvolutionEvent
  finished : Option (String × UpdateStatus)
  marked : Option String

def System.start (site : Site) (link : Link) (tree : Tree) : System :=
  ⟨site, none, link, tree, none, [], 0, [], none, none⟩

inductive Op where
  | schedule (request : ScheduleRequest)
  | pendingEvent
  | markNotified (number : Nat)
  | host (launch : Launch)
  | killHost
  | worker (id : Nat) (plan : Plan)
  | killWorker (id : Nat)
  | relink (link : Link) (tree : Tree)

def System.launch (s : System) (activationId : String) : System :=
  { s with workers := s.workers.put s.launches (.started activationId), launches := s.launches + 1 }

/-- The call of the host goes on. -/
def hostStep (s : System) (launch : Launch) : System :=
  match s.host with
  | none => s
  | some (.schedule request) =>
    match commit request.sourceCommit, admission s.file request.activationId with
    | .ok reviewed, .ok none => { s with host := some (.checking (freshState s.site request reviewed)) }
    | _, _ => { s with host := none }
  | some (.checking fresh) =>
    match activeSourceCommit s.link s.tree with
    | .ok active => if active = fresh.sourceCommit then { s with host := none } else { s with host := some (.writing fresh) }
    | .error _ => { s with host := none }
  | some (.writing fresh) =>
    { s with file := some fresh, host := some (.starting fresh), finished := none, marked := none }
  | some (.starting fresh) =>
    let next := if launch.started then s.launch fresh.activationId else s
    match launch.launched.failure with
    | none => { next with host := none }
    | some error => { next with host := some (.refused error) }
  | some (.refused error) =>
    match s.file with
    | some state => { s with host := some (.failing { state with status := .failed, error := some error }) }
    | none => { s with host := none }
  | some (.failing changed) => { s with file := some changed, host := none }
  | some (.notifying event) =>
    match s.file with
    | some state =>
      if event.eventKey = eventKey state.activationId state.status then { s with host := some (.marking event) }
      else { s with host := none }
    | none => { s with host := none }
  | some (.marking event) =>
    match s.file with
    | some state => { s with host := some (.marked event { state with notified := true }) }
    | none => { s with host := none }
  | some (.marked event changed) => { s with file := some changed, host := none, marked := some event.eventKey }

def System.at (s : System) (id : Nat) (point : WorkerPoint) : System := { s with workers := s.workers.put id point }

def System.ends (s : System) (id : Nat) : System := { s with workers := s.workers.drop id }

/-- A worker goes on; it ends where `run_controller_update` returns or raises. -/
def workerStep (s : System) (id : Nat) (plan : Plan) : System :=
  match s.workers.get id with
  | none => s
  | some (.started _) =>
    match s.file with
    | some state => if state.status = .scheduled then s.at id (.loaded state) else s.ends id
    | none => s.ends id
  | some (.loaded state) =>
    match currentTarget s.link s.tree with
    | .ok previous => s.at id (.opening state previous)
    | .error _ => s.ends id
  | some (.opening state previous) =>
    match s.file with
    | some present => s.at id (.recording state previous (present.run previous))
    | none => s.ends id
  | some (.recording state previous changed) => { s.at id (.working state previous) with file := some changed }
  | some (.working state previous) =>
    match (settle plan state previous).run ⟨s.link, s.tree, state, []⟩ with
    | (.ok verdict, w) => { s.at id (.settled state verdict) with link := w.link, tree := w.tree }
    | (.error _, w) => { s.ends id with link := w.link, tree := w.tree }
  | some (.settled state verdict) =>
    match s.file with
    | some present => s.at id (.closing state verdict (present.settle verdict))
    | none => s.ends id
  | some (.closing state verdict changed) =>
    { s.ends id with file := some changed, finished := some (state.activationId, verdict.status) }

/-- A call begins when the host has none, and `mark_notified` gets an event that `pending_event` has returned. -/
def System.begin (s : System) (call : HostCall) : System :=
  match s.host with
  | none => { s with host := some call }
  | some _ => s

def step (s : System) : Op → System
  | .schedule request => s.begin (.schedule request)
  | .pendingEvent =>
    match s.host, pendingEvent s.file with
    | none, some event => { s with seen := s.seen ++ [event] }
    | _, _ => s
  | .markNotified number =>
    match s.seen[number]? with
    | some event => s.begin (.notifying event)
    | none => s
  | .host launch => hostStep s launch
  | .killHost => { s with host := none }
  | .worker id plan => workerStep s id plan
  | .killWorker id => s.ends id
  | .relink link tree => { s with link, tree }

end System

section Properties

/-- `schedule` does not refuse for a pending result. -/
def Admits (file : Option UpdateState) : Prop := ∀ activationId, ∃ answer, admission file activationId = .ok answer

/-- A result that is reported until it is notified, and that lets the next update in then. -/
structure Reported (state : UpdateState) : Prop where
  terminal : state.status.terminal = true
  pending : state.notified = false → ∃ event, pendingEvent (some state) = some event ∧
    Admits (some (markNotified state event))
  notified : state.notified = true → Admits (some state)

def System.Alive (s : System) (activationId : String) : Prop :=
  ∃ id point, s.workers.get id = some point ∧ point.activationId = activationId

/-- The call that has recorded the activation is still there to start its worker or to record why it cannot. -/
def System.Launching (s : System) (activationId : String) : Prop :=
  match s.host with
  | some (.starting fresh) => fresh.activationId = activationId
  | some (.refused _) => True
  | some (.failing changed) => changed.activationId = activationId
  | _ => False

/-- No update is stuck, and no final status of a worker is hidden by the mark for another one. -/
structure Unstuck (s : System) : Prop where
  live : ∀ state, s.file = some state →
    s.Alive state.activationId ∨ s.Launching state.activationId ∨ Reported state
  shown : ∀ state status, s.file = some state → s.finished = some (state.activationId, status) → state.notified = true →
    s.marked = some (eventKey state.activationId status)

/-- No call of the host dies between its record of the new activation and the start of the worker or the record of the
failure, no worker dies before its last record, and `systemd-run` succeeds exactly when it has started the worker. -/
def allowed (s : System) : Op → Bool
  | .killHost =>
    match s.host with
    | some (.starting _) | some (.refused _) | some (.failing _) => false
    | _ => true
  | .killWorker id => (s.workers.get id).isNone
  | .worker id _ =>
    match s.workers.get id with
    | some (.loaded _) => (currentTarget s.link s.tree).isOk
    | _ => true
  | .host launch =>
    match s.host with
    | some (.starting _) => launch.started == launch.launched.failure.isNone
    | _ => true
  | _ => true

def Ok (s : System) (op : Op) : Prop := allowed s op = true

instance decidableOk (s : System) (op : Op) : Decidable (Ok s op) := inferInstanceAs (Decidable (allowed s op = true))

theorem reported_of_terminal {state : UpdateState} (terminal : state.status.terminal = true) : Reported state := by
  have admits {state : UpdateState} (notified : state.notified = true) : Admits (some state) := by
    intro activationId
    by_cases same : state.activationId = activationId
    · exact ⟨some state.status, by rw [admission, if_pos same]⟩
    · exact ⟨none, by rw [admission, if_neg same, notified, if_pos rfl]⟩
  refine ⟨terminal, fun unnotified => ⟨eventOf state, ?_, ?_⟩, admits⟩
  · simp [pendingEvent, terminal, unnotified]
  · rw [markNotified, eventOf, if_pos rfl]
    exact admits rfl

/-- A result is reported exactly when it is neither notified nor in progress. -/
theorem pendingEvent_isSome (file : Option UpdateState) :
    (pendingEvent file).isSome = (hasPendingNotification file && !inProgress file) := by
  cases file with
  | none => rfl
  | some state =>
    simp only [pendingEvent, hasPendingNotification, inProgress]
    cases state.notified <;> cases state.status <;> rfl

theorem status_of_eventKey {first second : String} {status other : UpdateStatus}
    (same : eventKey first status = eventKey second other) : status = other := by
  have cut (activationId : String) (status : UpdateStatus) :
      (eventKey activationId status).toList.reverse.takeWhile (· != ':') = status.text.toList.reverse := by
    have split : (eventKey activationId status).toList.reverse =
        status.text.toList.reverse ++ ':' :: ("controller:" ++ activationId).toList.reverse := by
      simp [eventKey]
    rw [split, takeWhile_append_stop (by simp)]
    cases status <;> decide
  have texts : status.text.toList.reverse = other.text.toList.reverse := by
    rw [← cut first status, same, cut second other]
  cases status <;> cases other <;> first | rfl | exact absurd texts (by decide)

end Properties

section Invariant

/-- The event of a final status. -/
def Known (event : EvolutionEvent) : Prop :=
  ∃ activationId status, status.terminal = true ∧ event.eventKey = eventKey activationId status

/-- No call of the host, or one that has not read the file. -/
def Waits : Option HostCall → Prop
  | none | some (.schedule _) => True
  | some (.notifying event) => Known event
  | _ => False

/-- A call that has been let in. -/
def Prepares : Option HostCall → Prop
  | some (.checking fresh) | some (.writing fresh) => fresh.status = .scheduled ∧ fresh.notified = false
  | _ => False

/-- The call that has written the state and has not started its worker. -/
def Launches (state : UpdateState) : Option HostCall → Prop
  | some (.starting fresh) => fresh.activationId = state.activationId
  | some (.refused _) => True
  | some (.failing changed) => ∃ error, changed = { state with status := .failed, error := some error }
  | _ => False

/-- The call that marks the state as notified. -/
def Marks (state : UpdateState) : Option HostCall → Prop
  | some (.marking event) => event.eventKey = eventKey state.activationId state.status
  | some (.marked event changed) =>
    event.eventKey = eventKey state.activationId state.status ∧ changed = { state with notified := true }
  | _ => False

theorem Launches.not_waits {state : UpdateState} {host : Option HostCall} (launches : Launches state host) :
    ¬ Waits host := by
  cases host with
  | none => exact launches.elim
  | some call =>
    cases call with
    | starting _ => exact id
    | refused _ => exact id
    | failing _ => exact id
    | _ => exact launches.elim

theorem Prepares.not_waits {host : Option HostCall} (prepares : Prepares host) : ¬ Waits host := by
  cases host with
  | none => exact prepares.elim
  | some call =>
    cases call with
    | checking _ => exact id
    | writing _ => exact id
    | _ => exact prepares.elim

theorem Prepares.not_launches {host : Option HostCall} (prepares : Prepares host) (state : UpdateState) :
    ¬ Launches state host := by
  cases host with
  | none => exact id
  | some call =>
    cases call with
    | checking _ => exact id
    | writing _ => exact id
    | _ => exact prepares.elim

theorem Launches.launching {s : System} {state : UpdateState} (launches : Launches state s.host) :
    s.Launching state.activationId := by
  rw [System.Launching]
  cases here : s.host with
  | none => rw [here] at launches; exact launches
  | some call =>
    rw [here] at launches
    cases call with
    | starting _ => exact launches
    | refused _ => trivial
    | failing _ =>
      obtain ⟨error, rfl⟩ := launches
      rfl
    | _ => exact launches

/-- Where a worker stands for the state in the file. -/
inductive Fits (state : UpdateState) : WorkerPoint → Prop
  | started (scheduled : state.status = .scheduled) : Fits state (.started state.activationId)
  | loaded (scheduled : state.status = .scheduled) : Fits state (.loaded state)
  | opening (scheduled : state.status = .scheduled) (previous : String) : Fits state (.opening state previous)
  | recording (scheduled : state.status = .scheduled) (previous : String) :
      Fits state (.recording state previous (state.run previous))
  | working {first : UpdateState} (running : state.status = .running) (mine : first.activationId = state.activationId)
      (previous : String) : Fits state (.working first previous)
  | settled {first : UpdateState} {verdict : Verdict} (running : state.status = .running)
      (mine : first.activationId = state.activationId) (terminal : verdict.status.terminal = true) :
      Fits state (.settled first verdict)
  | closing {first : UpdateState} {verdict : Verdict} (running : state.status = .running)
      (mine : first.activationId = state.activationId) (terminal : verdict.status.terminal = true) :
      Fits state (.closing first verdict (state.settle verdict))

inductive Phase (s : System) : Prop
  | empty (file : s.file = none) (workers : s.workers = []) (host : Waits s.host ∨ Prepares s.host)
  | launching {state : UpdateState} (file : s.file = some state) (workers : s.workers = [])
      (scheduled : state.status = .scheduled) (unnotified : state.notified = false) (host : Launches state s.host)
      (finished : s.finished = none)
  | working {state : UpdateState} {id : Nat} {point : WorkerPoint} (file : s.file = some state)
      (workers : s.workers = [(id, point)]) (fits : Fits state point) (unnotified : state.notified = false)
      (host : Waits s.host) (finished : s.finished = none)
  | done {state : UpdateState} (file : s.file = some state) (workers : s.workers = [])
      (terminal : state.status.terminal = true)
      (host : Waits s.host ∨ Prepares s.host ∨ Marks state s.host)
      (finished : ∀ status, s.finished = some (state.activationId, status) → status = state.status)
      (marked : state.notified = true → s.marked = some (eventKey state.activationId state.status))

structure Inv (s : System) : Prop where
  seen : ∀ event ∈ s.seen, Known event
  phase : Phase s

theorem Fits.activationId {state : UpdateState} {point : WorkerPoint} (fits : Fits state point) :
    point.activationId = state.activationId := by
  cases fits with
  | working _ mine => exact mine
  | settled _ mine => exact mine
  | closing _ mine => exact mine
  | _ => rfl

theorem Inv.unstuck {s : System} (inv : Inv s) : Unstuck s := by
  cases inv.phase with
  | empty file _ _ =>
    exact ⟨fun state here => absurd (file.symm.trans here) nofun, fun state _ here => absurd (file.symm.trans here) nofun⟩
  | @launching state file _ _ _ host finished =>
    refine ⟨fun other here => Or.inr (Or.inl ?_), fun _ _ _ done => absurd (finished.symm.trans done) nofun⟩
    obtain rfl : state = other := Option.some.inj (file.symm.trans here)
    exact host.launching
  | @working state id point file workers fits _ _ finished =>
    refine ⟨fun other here => Or.inl ⟨id, point, ?_, ?_⟩, fun _ _ _ done => absurd (finished.symm.trans done) nofun⟩
    · simp [Calls.get, workers]
    · obtain rfl : state = other := Option.some.inj (file.symm.trans here)
      exact fits.activationId
  | @done state file _ terminal _ finished marked =>
    refine ⟨fun other here => Or.inr (Or.inr ?_), fun other status here done notified => ?_⟩
    · obtain rfl : state = other := Option.some.inj (file.symm.trans here)
      exact reported_of_terminal terminal
    · obtain rfl : state = other := Option.some.inj (file.symm.trans here)
      rw [finished status done]
      exact marked notified

/-- Outside of a launch the call of the host can be replaced by one that has not read the file. -/
theorem Phase.wait {s : System} (phase : Phase s) (idle : ∀ state, ¬ Launches state s.host) {host : Option HostCall}
    (waits : Waits host) : Phase { s with host := host } := by
  cases phase with
  | empty file workers _ => exact .empty file workers (Or.inl waits)
  | @launching state _ _ _ _ host _ => exact absurd host (idle state)
  | working file workers fits unnotified _ finished => exact .working file workers fits unnotified waits finished
  | done file workers terminal _ finished marked => exact .done file workers terminal (Or.inl waits) finished marked

theorem Phase.frame {s t : System} (phase : Phase s) (file : t.file = s.file) (workers : t.workers = s.workers)
    (host : t.host = s.host) (finished : t.finished = s.finished) (marked : t.marked = s.marked) : Phase t := by
  cases phase with
  | empty here none waits => exact .empty (file.trans here) (workers.trans none) (host ▸ waits)
  | launching here none scheduled unnotified launches fresh =>
    exact .launching (file.trans here) (workers.trans none) scheduled unnotified (host ▸ launches) (finished.trans fresh)
  | working here one fits unnotified waits fresh =>
    exact .working (file.trans here) (workers.trans one) fits unnotified (host ▸ waits) (finished.trans fresh)
  | done here none terminal calls final key =>
    exact .done (file.trans here) (workers.trans none) terminal (host ▸ calls)
      (fun status ended => final status (finished ▸ ended)) fun notified => marked.trans (key notified)

theorem Phase.begin {s : System} (phase : Phase s) {call : HostCall} (waits : Waits (some call)) : Phase (s.begin call) := by
  rw [System.begin]
  split
  · rename_i none
    exact phase.wait (by rw [none]; exact fun _ => id) waits
  · exact phase

/-- A call that has been let in finds no worker. -/
theorem Phase.prepare {s : System} (phase : Phase s) (prepares : Prepares s.host) :
    s.workers = [] ∧ ∀ host, Waits host ∨ Prepares host → Phase { s with host := host } := by
  cases phase with
  | empty file workers _ => exact ⟨workers, fun host ready => .empty file workers ready⟩
  | @launching state _ _ _ _ host _ => exact absurd host (prepares.not_launches state)
  | working _ _ _ _ host _ => exact absurd host prepares.not_waits
  | done file workers terminal _ finished marked =>
    exact ⟨workers, fun host ready => .done file workers terminal (ready.imp_right Or.inl) finished marked⟩

/-- A worker that has not ended leaves the admission closed. -/
theorem Phase.admit {s : System} (phase : Phase s) (waits : Waits s.host) {activationId : String}
    (admitted : admission s.file activationId = .ok none) {fresh : UpdateState} (new : fresh.status = .scheduled)
    (unnotified : fresh.notified = false) : Phase { s with host := some (.checking fresh) } := by
  cases phase with
  | empty file workers _ => exact .empty file workers (Or.inr ⟨new, unnotified⟩)
  | launching _ _ _ _ host _ => exact absurd waits host.not_waits
  | working file _ _ closed _ _ =>
    rw [file, admission, closed] at admitted
    split at admitted
    · cases admitted
    · cases admitted
  | done file workers terminal _ finished marked =>
    exact .done file workers terminal (Or.inr (Or.inl ⟨new, unnotified⟩)) finished marked

/-- A call that starts a worker, records why it cannot, or writes the state before that. -/
theorem hostStep_launching {s : System} {state : UpdateState} (file : s.file = some state) (workers : s.workers = [])
    (scheduled : state.status = .scheduled) (unnotified : state.notified = false) (launches : Launches state s.host)
    (finished : s.finished = none) {launch : Launch} (ok : Ok s (.host launch)) : Phase (hostStep s launch) := by
  cases here : s.host with
  | none => rw [here] at launches; exact launches.elim
  | some call =>
    rw [here] at launches
    cases call with
    | starting fresh =>
      have mine : fresh.activationId = state.activationId := launches
      have started : launch.started = launch.launched.failure.isNone := by simpa [Ok, allowed, here] using ok
      cases failure : launch.launched.failure with
      | none =>
        rw [failure] at started
        simp only [hostStep, here, failure, started, Option.isNone_none, if_true, System.launch, workers, mine]
        exact .working file rfl (.started scheduled) unnotified trivial finished
      | some error =>
        rw [failure] at started
        simp only [hostStep, here, failure, started, Option.isNone_some, Bool.false_eq_true, if_false]
        exact .launching file workers scheduled unnotified trivial finished
    | refused error =>
      simp only [hostStep, here, file]
      exact .launching rfl workers scheduled unnotified ⟨error, rfl⟩ finished
    | failing changed =>
      obtain ⟨error, rfl⟩ := launches
      simp only [hostStep, here]
      refine .done rfl workers rfl (Or.inl trivial) (fun status done => ?_) fun marked => ?_
      · rw [finished] at done
        cases done
      · rw [unnotified] at marked
        cases marked
    | _ => exact launches.elim

theorem hostStep_waits {s : System} (phase : Phase s) (waits : Waits s.host) (launch : Launch) :
    Phase (hostStep s launch) := by
  have idle (state : UpdateState) : ¬ Launches state s.host := fun launches => launches.not_waits waits
  have ended : Phase { s with host := none } := phase.wait idle trivial
  cases here : s.host with
  | none => rwa [hostStep, here]
  | some call =>
    rw [here] at waits
    cases call with
    | schedule request =>
      simp only [hostStep, here]
      split
      · rename_i reviewed _ admitted
        exact phase.admit (by rw [here]; trivial) admitted rfl rfl
      · exact ended
    | notifying event =>
      obtain ⟨activationId, status, terminal, named⟩ := waits
      cases file : s.file with
      | none => simpa only [hostStep, here, file] using ended
      | some state =>
        simp only [hostStep, here, file]
        split
        · rename_i same
          have final : state.status.terminal = true := by
            rw [← status_of_eventKey (named.symm.trans same)]
            exact terminal
          cases phase with
          | empty none _ _ => exact absurd (none.symm.trans file) nofun
          | @launching other _ _ _ _ host _ => exact absurd host (idle other)
          | @working other id point mine workers fits _ _ _ =>
            obtain rfl : other = state := Option.some.inj (mine.symm.trans file)
            cases fits <;> simp_all [UpdateStatus.terminal]
          | @done other mine workers _ _ finished marked =>
            obtain rfl : other = state := Option.some.inj (mine.symm.trans file)
            exact .done rfl workers final (Or.inr (Or.inr same)) finished marked
        · simpa only [file] using ended
    | _ => exact waits.elim

theorem hostStep_prepares {s : System} (phase : Phase s) (prepares : Prepares s.host) (launch : Launch) :
    Phase (hostStep s launch) := by
  obtain ⟨workers, moves⟩ := phase.prepare prepares
  cases here : s.host with
  | none => rw [here] at prepares; exact prepares.elim
  | some call =>
    rw [here] at prepares
    cases call with
    | checking fresh =>
      simp only [hostStep, here]
      split
      · split
        · exact moves none (Or.inl trivial)
        · exact moves (some (.writing fresh)) (Or.inr prepares)
      · exact moves none (Or.inl trivial)
    | writing fresh =>
      simp only [hostStep, here]
      exact .launching rfl workers prepares.1 prepares.2 rfl rfl
    | _ => exact prepares.elim

theorem hostStep_marks {s : System} {state : UpdateState} (file : s.file = some state) (workers : s.workers = [])
    (terminal : state.status.terminal = true) (marks : Marks state s.host)
    (finished : ∀ status, s.finished = some (state.activationId, status) → status = state.status)
    (marked : state.notified = true → s.marked = some (eventKey state.activationId state.status)) (launch : Launch) :
    Phase (hostStep s launch) := by
  cases here : s.host with
  | none => rw [here] at marks; exact marks.elim
  | some call =>
    rw [here] at marks
    cases call with
    | marking event =>
      simp only [hostStep, here, file]
      exact .done rfl workers terminal (Or.inr (Or.inr ⟨marks, rfl⟩)) finished marked
    | marked event changed =>
      obtain ⟨key, rfl⟩ := marks
      simp only [hostStep, here]
      exact .done rfl workers terminal (Or.inl trivial) finished fun _ => congrArg some key
    | _ => exact marks.elim

theorem hostStep_phase {s : System} (phase : Phase s) {launch : Launch} (ok : Ok s (.host launch)) :
    Phase (hostStep s launch) := by
  cases phase with
  | empty file workers host =>
    rcases host with waits | prepares
    · exact hostStep_waits (.empty file workers (Or.inl waits)) waits launch
    · exact hostStep_prepares (.empty file workers (Or.inr prepares)) prepares launch
  | launching file workers scheduled unnotified host finished =>
    exact hostStep_launching file workers scheduled unnotified host finished ok
  | working file workers fits unnotified host finished =>
    exact hostStep_waits (.working file workers fits unnotified host finished) host launch
  | done file workers terminal host finished marked =>
    rcases host with waits | prepares | marks
    · exact hostStep_waits (.done file workers terminal (Or.inl waits) finished marked) waits launch
    · exact hostStep_prepares (.done file workers terminal (Or.inr (Or.inl prepares)) finished marked) prepares launch
    · exact hostStep_marks file workers terminal marks finished marked launch

theorem Fits.step {s : System} {state : UpdateState} {id : Nat} {point : WorkerPoint} (file : s.file = some state)
    (workers : s.workers = [(id, point)]) (fits : Fits state point) (unnotified : state.notified = false)
    (host : Waits s.host) (finished : s.finished = none) {plan : Plan} (ok : Ok s (.worker id plan)) :
    Phase (workerStep s id plan) := by
  have got : s.workers.get id = some point := by simp [Calls.get, workers]
  have placed (next : WorkerPoint) : s.workers.put id next = [(id, next)] := by simp [Calls.put, Calls.drop, workers]
  have gone : s.workers.drop id = [] := by simp [Calls.drop, workers]
  cases fits with
  | started scheduled =>
    simp only [workerStep, got, file, scheduled, if_true, System.at, placed]
    exact .working rfl rfl (.loaded scheduled) unnotified host finished
  | loaded scheduled =>
    have valid : (currentTarget s.link s.tree).isOk = true := by simpa [Ok, allowed, got] using ok
    cases target : currentTarget s.link s.tree with
    | error failure => rw [target] at valid; cases valid
    | ok previous =>
      simp only [workerStep, got, target, System.at, placed]
      exact .working file rfl (.opening scheduled previous) unnotified host finished
  | opening scheduled previous =>
    simp only [workerStep, got, file, System.at, placed]
    exact .working rfl rfl (.recording scheduled previous) unnotified host finished
  | recording scheduled previous =>
    simp only [workerStep, got, System.at, placed]
    have mine : state.activationId = (state.run previous).activationId := rfl
    exact .working rfl rfl (.working rfl mine previous) unnotified host finished
  | @working first running mine previous =>
    obtain ⟨verdict, ended, terminal⟩ := settle_ends plan first previous ⟨s.link, s.tree, first, []⟩
    simp only [workerStep, got]
    rcases done : (settle plan first previous).run ⟨s.link, s.tree, first, []⟩ with ⟨outcome, w⟩
    rw [done] at ended
    obtain rfl : outcome = .ok verdict := ended
    simp only [System.at, placed]
    exact .working file rfl (.settled running mine terminal) unnotified host finished
  | settled running mine terminal =>
    simp only [workerStep, got, file, System.at, placed]
    exact .working rfl rfl (.closing running mine terminal) unnotified host finished
  | @closing first verdict running mine terminal =>
    simp only [workerStep, got, System.ends, gone]
    refine .done rfl rfl terminal (Or.inl host) (fun status done => ?_) fun marked => ?_
    · simp only [Option.some.injEq, Prod.mk.injEq] at done
      exact done.2.symm
    · rw [UpdateState.settle, unnotified] at marked
      cases marked

theorem workerStep_phase {s : System} (phase : Phase s) {id : Nat} {plan : Plan} (ok : Ok s (.worker id plan)) :
    Phase (workerStep s id plan) := by
  cases got : s.workers.get id with
  | none => rwa [workerStep, got]
  | some point =>
    cases phase with
    | empty _ workers _ => simp [Calls.get, workers] at got
    | launching _ workers _ _ _ _ => simp [Calls.get, workers] at got
    | done _ workers _ _ _ _ => simp [Calls.get, workers] at got
    | @working state number other file workers fits unnotified host finished =>
      have same : id = number := by
        by_contra apart
        simp [Calls.get, workers, List.lookup_cons, beq_false_of_ne apart] at got
      subst same
      exact fits.step file workers unnotified host finished ok

theorem known_of_pending {file : Option UpdateState} {event : EvolutionEvent} (pending : pendingEvent file = some event) :
    Known event := by
  cases file with
  | none => cases pending
  | some state =>
    rw [pendingEvent] at pending
    split at pending
    · cases pending
    · rename_i reported
      obtain rfl : eventOf state = event := Option.some.inj pending
      exact ⟨state.activationId, state.status, by simp_all, rfl⟩

theorem hostStep_seen (s : System) (launch : Launch) : (hostStep s launch).seen = s.seen := by
  rw [hostStep]
  split <;> (repeat' split) <;> rfl

theorem workerStep_seen (s : System) (id : Nat) (plan : Plan) : (workerStep s id plan).seen = s.seen := by
  rw [workerStep]
  split <;> (repeat' split) <;> rfl

theorem begin_seen (s : System) (call : HostCall) : (s.begin call).seen = s.seen := by
  rw [System.begin]
  split <;> rfl

theorem Phase.killWorker {s : System} (phase : Phase s) {id : Nat} (ended : s.workers.get id = none) : Phase (s.ends id) := by
  have same : s.workers.drop id = s.workers := by
    refine List.filter_eq_self.mpr fun call member => ?_
    by_contra mine
    have number : call.1 = id := by simpa using mine
    have absent := List.lookup_eq_none_iff.mp ended call member
    simp [number] at absent
  rwa [System.ends, same]

theorem step_inv {s : System} {op : Op} (inv : Inv s) (ok : Ok s op) : Inv (step s op) := by
  obtain ⟨seen, phase⟩ := inv
  cases op with
  | schedule request => exact ⟨by rw [step, begin_seen]; exact seen, phase.begin trivial⟩
  | pendingEvent =>
    rw [step]
    split
    · rename_i event idle pending
      refine ⟨fun other member => ?_, phase.frame rfl rfl rfl rfl rfl⟩
      rcases List.mem_append.mp member with before | new
      · exact seen other before
      · rw [List.mem_singleton.mp new]
        exact known_of_pending pending
    · exact ⟨seen, phase⟩
  | markNotified number =>
    rw [step]
    split
    · rename_i event found
      exact ⟨by rw [begin_seen]; exact seen, phase.begin (seen event (List.mem_of_getElem? found))⟩
    · exact ⟨seen, phase⟩
  | host launch => exact ⟨by rw [step, hostStep_seen]; exact seen, hostStep_phase phase ok⟩
  | killHost =>
    refine ⟨seen, phase.wait (fun state launches => ?_) trivial⟩
    rw [Ok, allowed] at ok
    cases here : s.host with
    | none => rw [here] at launches; exact launches
    | some call =>
      rw [here] at launches ok
      cases call with
      | starting _ => cases ok
      | refused _ => cases ok
      | failing _ => cases ok
      | _ => exact launches
  | worker id plan => exact ⟨by rw [step, workerStep_seen]; exact seen, workerStep_phase phase ok⟩
  | killWorker id => exact ⟨seen, phase.killWorker (by simpa [Ok, allowed] using ok)⟩
  | relink link tree => exact ⟨seen, phase.frame rfl rfl rfl rfl rfl⟩

theorem start_inv (site : Site) (link : Link) (tree : Tree) : Inv (System.start site link tree) :=
  ⟨nofun, .empty rfl rfl (Or.inl trivial)⟩

/-- No update gets stuck in a run in which neither a launch nor a worker dies and the service manager tells the truth. -/
theorem updates_unstuck {site : Site} {link : Link} {tree : Tree} {ops : List Op}
    (ok : Run.Guarded step Ok (System.start site link tree) ops) : Unstuck (Run.exec step (System.start site link tree) ops) :=
  (ok.invariant (fun _ _ => step_inv) (start_inv site link tree)).unstuck

def sampleRequest : ScheduleRequest := ⟨"activation-1", "release-1", "1123456789012345678901234567890123456789", []⟩

def sampleStarted : Launch := ⟨.exited 0 "", true⟩

/-- The host schedules an update, the worker goes on to its end, and the host reports the result. -/
def sampleOps : List Op :=
  .schedule sampleRequest :: List.replicate 4 (.host sampleStarted) ++ List.replicate 7 (.worker 0 samplePlan) ++
    .pendingEvent :: .markNotified 0 :: List.replicate 3 (.host sampleStarted)

theorem updates_unstuck_sample :
    Unstuck (Run.exec step (System.start sampleSite (.points sampleOld) sampleTree) sampleOps) :=
  updates_unstuck (by decide +kernel)

/-- The host dies between its record and the start of the worker. -/
theorem killed_schedule_stays_scheduled : ¬ ∀ site link tree ops, Unstuck (Run.exec step (System.start site link tree) ops) := by
  intro unstuck
  have reached := unstuck sampleSite (.points sampleOld) sampleTree
    (.schedule sampleRequest :: List.replicate 3 (.host sampleStarted) ++ [.killHost])
  set s := Run.exec step (System.start sampleSite (.points sampleOld) sampleTree)
    (.schedule sampleRequest :: List.replicate 3 (.host sampleStarted) ++ [.killHost]) with ended
  have recorded : s.file.map (·.status) = some .scheduled := by
    rw [ended]
    decide +kernel
  have workers : s.workers.length = 0 := by
    rw [ended]
    decide +kernel
  have host : s.host.isNone = true := by
    rw [ended]
    decide +kernel
  obtain ⟨state, file, status⟩ := Option.map_eq_some_iff.mp recorded
  rcases reached.live state file with ⟨id, point, got, _⟩ | launching | reported
  · rw [List.length_eq_zero_iff.mp workers] at got
    cases got
  · rw [System.Launching, Option.isNone_iff_eq_none.mp host] at launching
    exact launching
  · have terminal := reported.terminal
    rw [status] at terminal
    cases terminal

end Invariant

end OpenTulpa.Host.ControllerRuns
