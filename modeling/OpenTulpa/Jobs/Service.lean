import OpenTulpa.Jobs.Refinement
import OpenTulpa.Library.Entries

/-! The job service of a process over its store. A task for each job waits for a place, claims the job and runs its
handler; calls create and cancel jobs, start the service and shut it down in between. What happens between two
awaits is one step. The process may die at any time and come up again over the same store. -/

namespace OpenTulpa.Jobs.Service

open Library Text Outcome Store Log
open Refinement hiding Op step

inductive Point where
  | waiting
  | handling
  | done
  deriving DecidableEq

/-- A task of `_run`. The cancellation that it has been asked for reaches it at its next await. -/
structure Runner where
  key : JobKey
  point : Point
  cancelling : Bool
  deriving DecidableEq

def Runner.live (runner : Runner) : Bool := runner.point != .done

/-- A task that will claim its job when a place is free. -/
def Runner.Fresh (runner : Runner) : Prop := runner.point = .waiting ∧ runner.cancelling = false

/-- `task.cancel()` -/
def Runner.cancel (runner : Runner) : Runner := { runner with cancelling := runner.cancelling || runner.live }

/-- The tasks are numbered as they are created. `running` is `_running`, and `shutdowns` holds, for each call of
`shutdown` that is not over, the tasks it awaits. -/
structure System where
  store : JobStore
  runners : List Runner
  running : List (JobKey × Nat)
  started : Bool
  stopping : Bool
  shutdowns : List (List Nat)
  deriving DecidableEq

/-- A new process. -/
def System.boot (store : JobStore) : System := ⟨store, [], [], false, false, []⟩

def System.current (s : System) (key : JobKey) : Option Runner :=
  (Entries.get s.running key).bind fun i => s.runners[i]?

/-- `_spawn` -/
def System.spawn (s : System) (key : JobKey) : System :=
  if (s.current key).any Runner.live then s
  else { s with
    runners := s.runners ++ [⟨key, .waiting, false⟩]
    running := Entries.assign key s.runners.length s.running }

def System.moveTo (s : System) (i : Nat) (point : Point) (store : JobStore) : System :=
  { s with store := store, runners := s.runners.modify i fun runner => { runner with point := point } }

/-- The cancellation of the task of a key in `cancel`. -/
def System.interrupt (s : System) (key : JobKey) : System :=
  match Entries.get s.running key with
  | some i => { s with runners := s.runners.modify i Runner.cancel }
  | none => s

def System.handling (s : System) : Nat := s.runners.countP fun runner => runner.point == .handling

/-- How the handler ends: with its result, at its time limit, by an exception, or by a cancellation. -/
inductive Ending where
  | returned (result : JobHandlerResult) (newShortId : Nat → String)
  | timeout
  | raised
  | cancelled

def handlerUnavailable : JobError :=
  ⟨"handler_unavailable", "The registered background operation is unavailable.", false⟩

def handlerTimeout : JobError := ⟨"handler_timeout", "The background operation exceeded its time limit.", true⟩

def handlerFailed : JobError := ⟨"handler_failed", "The background operation failed.", false⟩

/-- The end of `_run`, after the handler. A completion that raises is a failure of the handler. -/
def ended (store : JobStore) (stopping : Bool) (key : JobKey) (now : Nat) : Ending → JobStore
  | .returned result newShortId =>
    if stopping then committed store (requeueInterrupted store key now)
    else match complete store key result newShortId now with
      | .ok (stored, _) => stored
      | .error _ => committed store (fail store key handlerFailed now)
  | .timeout => committed store (fail store key handlerTimeout now)
  | .raised => committed store (fail store key handlerFailed now)
  | .cancelled =>
    if stopping then committed store (requeueInterrupted store key now)
    else committed store (markCancelled store key "cancelled_by_owner" now)

inductive Op where
  | start (now : Nat)
  | create (request : CreateRequest) (now : Nat)
  | cancel (key : JobKey) (now : Nat)
  | enter (i now : Nat)
  | progress (i : Nat) (payload : JsonObject) (now : Nat)
  | finish (i : Nat) (ending : Ending) (now : Nat)
  | abandon (i : Nat)
  | callback (i : Nat)
  | shutdown
  | stopped (i : Nat)
  | crash

def System.pick (s : System) (i : Nat) (chosen : Runner → Bool) : Option Runner := s.runners[i]?.filter chosen

section Step

-- the size of the semaphore, and the handlers that the registry holds
variable (capacity : Nat) (registered : String → Nat → Bool)

/-- `_run` from the semaphore to the first await of the handler. -/
def System.enter (s : System) (i : Nat) (runner : Runner) (now : Nat) : System :=
  match claim s.store runner.key now with
  | .ok (stored, some job) =>
    if registered job.handlerName job.handlerVersion then s.moveTo i .handling stored
    else s.moveTo i .done (committed stored (fail stored runner.key handlerUnavailable now))
  | _ => s.moveTo i .done s.store

def step (s : System) : Op → System
  | .start now =>
    if s.started then s
    else
      (recover s.store now).2.foldl (fun s job => s.spawn job.key)
        { s with store := (recover s.store now).1, started := true, stopping := false }
  | .create request now =>
    match create s.store request now with
    | .error _ => s
    | .ok (stored, job, _) =>
      if s.started && job.status == .queued then System.spawn { s with store := stored } job.key
      else { s with store := stored }
  | .cancel key now =>
    match requestCancel s.store key now with
    | .error _ => s
    | .ok (stored, job) =>
      if job.status == .cancelRequested || job.status == .cancelled then
        System.interrupt { s with store := stored } key
      else { s with store := stored }
  | .enter i now =>
    match s.pick i fun runner => runner.point == .waiting && !runner.cancelling with
    | some runner => if s.handling < capacity then s.enter registered i runner now else s
    | none => s
  | .progress i payload now =>
    match s.pick i fun runner => runner.point == .handling with
    | some runner => { s with store := (progress s.store runner.key payload now).toOption.getD s.store }
    | none => s
  | .finish i ending now =>
    match s.pick i fun runner => runner.point == .handling with
    | some runner => s.moveTo i .done (ended s.store s.stopping runner.key now ending)
    | none => s
  | .abandon i =>
    match s.pick i fun runner => runner.point == .waiting && runner.cancelling with
    | some _ => s.moveTo i .done s.store
    | none => s
  | .callback i =>
    match s.pick i fun runner => !runner.live with
    | some runner =>
      if Entries.get s.running runner.key = some i then
        { s with running := s.running.filter fun entry => entry.1 ≠ runner.key }
      else s
    | none => s
  | .shutdown =>
    if s.started then
      { s with
        stopping := true
        runners := s.runners.mapIdx fun i runner => if i ∈ s.running.map Prod.snd then runner.cancel else runner
        shutdowns := s.shutdowns ++ [s.running.map Prod.snd] }
    else s
  | .stopped i =>
    match s.shutdowns[i]? with
    | some awaited =>
      if awaited.all fun j => (s.runners[j]?).all fun runner => !runner.live then
        { s with running := [], started := false, stopping := false, shutdowns := s.shutdowns.eraseIdx i }
      else s
    | none => s
  | .crash => .boot s.store

/-- No job is created and no second shutdown begun while the service stops. -/
def Calm (s : System) : Op → Prop
  | .create _ _ | .shutdown => s.stopping = false
  | _ => True

instance (s : System) : (op : Op) → Decidable (Calm s op)
  | .create _ _ | .shutdown => inferInstanceAs (Decidable (s.stopping = false))
  | .start _ | .cancel _ _ | .enter _ _ | .progress _ _ _ | .finish _ _ _ | .abandon _ | .callback _ | .stopped _
  | .crash => isTrue trivial

end Step

section Statuses

variable {store stored : JobStore} {key other : JobKey} {job : Job} {now : Nat}

def status (store : JobStore) (key : JobKey) : Option JobStatus := (store.job key).map Job.status

/-- The job has been claimed and not given back. -/
def Executing (store : JobStore) (key : JobKey) : Prop :=
  status store key = some .running ∨ status store key = some .cancelRequested

theorem status_setJob (allowed : JobStatus → Bool) (change : Job → Job) (target : JobStatus)
    (kept : ∀ job, (change job).key = job.key) (moved : ∀ job, (change job).status = target) :
    status (store.setJob key allowed change) other =
      if other = key then (status store key).map fun held => if allowed held then target else held
      else status store other := by
  have acts := congrArg Entry.job ((acts_setJob store key allowed change kept).entries other)
  change (store.setJob key allowed change).job other = _ at acts
  rw [status, acts]
  by_cases same : other = key
  · subst same
    rw [if_pos rfl, if_pos rfl]
    simp only [changeJob, entry, status, Option.map_map]
    congr 1
    funext row
    simp only [Function.comp_apply]
    split
    · exact moved row
    · rfl
  · rw [if_neg same, if_neg same]
    rfl

theorem status_appendEvent (eventType : JobEventType) (payload : JsonObject) :
    status (store.appendEvent key eventType payload now) other = status store other := rfl

theorem status_of_present (present : store.job key = some job) : status store key = some job.status := by
  rw [status, present]
  rfl

theorem exists_of_status {held : JobStatus} (found : status store key = some held) :
    ∃ job, store.job key = some job ∧ job.status = held := Option.map_eq_some_iff.mp found

theorem status_cancelInConnection (reason : String) :
    status (store.cancelInConnection key reason now) other =
      if other = key then (status store key).map fun held => if !held.terminal then .cancelled else held
      else status store other := by
  rw [JobStore.cancelInConnection, status_appendEvent]
  exact status_setJob _ _ .cancelled (fun _ => rfl) fun _ => rfl

/-- A transaction that reads the row again at its end leaves what it has written. -/
theorem committed_get (found : (status stored key).isSome) :
    committed store (do return (stored, ← stored.get key)) = stored := by
  rw [status, Option.isSome_map] at found
  obtain ⟨job, present⟩ := Option.isSome_iff_exists.mp found
  rw [get_of_some present]
  rfl

end Statuses

section Operations

variable {store stored : JobStore} {key other : JobKey} {row : Job} {now : Nat} {f g : JobStatus → JobStatus}

/-- The status of one job changes, as `f` says. -/
def Puts (f : JobStatus → JobStatus) (key : JobKey) (before after : JobStore) : Prop :=
  ∀ other, status after other = if other = key then (status before key).map f else status before other

theorem Puts.of_eq (puts : Puts f key store stored) (present : store.job key = some row)
    (same : f row.status = g row.status) : Puts g key store stored := by
  intro other
  rw [puts other, status_of_present present, Option.map_some, Option.map_some, same]

theorem puts_self (present : store.job key = some row) (same : f row.status = row.status) : Puts f key store store := by
  intro other
  split
  · rename_i here
    rw [here, status_of_present present, Option.map_some, same]
  · rfl

theorem puts_absent (absent : store.job key = none) : Puts f key store store := by
  intro other
  split
  · rename_i here
    rw [here, status, absent]
    rfl
  · rfl

theorem Puts.committed_get (puts : Puts f key store stored) (present : store.job key = some row) :
    Puts f key store (committed store (do return (stored, ← stored.get key))) := by
  rw [Service.committed_get]
  · exact puts
  · rw [puts key, if_pos rfl, status_of_present present]
    rfl

theorem puts_setJob (allowed : JobStatus → Bool) (change : Job → Job) (target : JobStatus)
    (kept : ∀ job, (change job).key = job.key) (moved : ∀ job, (change job).status = target)
    (eventType : JobEventType) (payload : JsonObject) :
    Puts (fun held => if allowed held then target else held) key store
      ((store.setJob key allowed change).appendEvent key eventType payload now) := by
  intro other
  rw [status_appendEvent]
  exact status_setJob allowed change target kept moved

theorem puts_cancelInConnection (reason : String) :
    Puts (fun held => if !held.terminal then .cancelled else held) key store
      (store.cancelInConnection key reason now) :=
  fun _ => status_cancelInConnection reason

/-- What a status becomes that ends, given its next one when the job runs on. -/
def settledAs (next : JobStatus) : JobStatus → JobStatus
  | .cancelRequested => .cancelled
  | .running => next
  | held => held

theorem fail_puts (store : JobStore) (key : JobKey) (error : JobError) (now : Nat) :
    Puts (settledAs .failed) key store (committed store (fail store key error now)) := by
  cases present : store.job key with
  | none =>
    rw [fail, get_of_none present]
    exact puts_absent present
  | some row =>
    simp only [fail, get_of_some present, ok_bind]
    refine Puts.committed_get ?_ present
    split
    · rename_i asked
      exact (puts_cancelInConnection _).of_eq present (by rw [asked]; rfl)
    · rename_i unasked
      split
      · rename_i running
        refine (puts_setJob _ _ .failed ?_ ?_ _ _).of_eq present (by rw [running]; rfl)
        · exact fun _ => rfl
        · exact fun _ => rfl
      · rename_i idle
        exact puts_self present (by cases held : row.status <;> simp_all [settledAs])

theorem requeueInterrupted_puts (store : JobStore) (key : JobKey) (now : Nat) :
    Puts (settledAs .queued) key store (committed store (requeueInterrupted store key now)) := by
  cases present : store.job key with
  | none =>
    rw [requeueInterrupted, get_of_none present]
    exact puts_absent present
  | some row =>
    simp only [requeueInterrupted, get_of_some present, ok_bind]
    refine Puts.committed_get ?_ present
    split
    · rename_i asked
      exact (puts_cancelInConnection _).of_eq present (by rw [asked]; rfl)
    · rename_i unasked
      split
      · rename_i running
        refine (puts_setJob _ _ .queued ?_ ?_ _ _).of_eq present (by rw [running]; rfl)
        · exact fun _ => rfl
        · exact fun _ => rfl
      · rename_i idle
        exact puts_self present (by cases held : row.status <;> simp_all [settledAs])

theorem markCancelled_puts (store : JobStore) (key : JobKey) (reason : String) (now : Nat) :
    Puts (fun held => if held.terminal then held else .cancelled) key store
      (committed store (markCancelled store key reason now)) := by
  cases present : store.job key with
  | none =>
    rw [markCancelled, get_of_none present]
    exact puts_absent present
  | some row =>
    simp only [markCancelled, get_of_some present, ok_bind]
    refine Puts.committed_get ?_ present
    split
    · rename_i past
      exact puts_self present (if_pos past)
    · rename_i live
      exact (puts_cancelInConnection _).of_eq present (by simp [live])

theorem writeArtifacts_jobs {newShortId : Nat → String} {drawn : Nat} {writes : List JobArtifactWrite}
    (done : writeArtifacts key newShortId now drawn writes store = .ok stored) : stored.jobs = store.jobs := by
  induction writes generalizing drawn store with
  | nil =>
    cases done
    rfl
  | cons write writes ih =>
    simp only [writeArtifacts] at done
    split at done
    · cases done
    · exact (ih done).trans rfl

theorem status_of_jobs (same : stored.jobs = store.jobs) : status stored other = status store other := by
  rw [status, status, JobStore.job, JobStore.job, same]

theorem complete_puts {result : JobHandlerResult} {newShortId : Nat → String} {job : Job}
    (done : complete store key result newShortId now = .ok (stored, job)) :
    Puts (settledAs .succeeded) key store stored := by
  cases present : store.job key with
  | none =>
    rw [complete, get_of_none present] at done
    cases done
  | some row =>
    simp only [complete, get_of_some present, ok_bind] at done
    split at done
    · rename_i asked
      obtain ⟨_, _, last⟩ := bind_eq_ok done
      cases last
      exact (puts_cancelInConnection _).of_eq present (by rw [asked]; rfl)
    · rename_i unasked
      split at done
      · rename_i idle
        cases done
        exact puts_self present (by cases held : job.status <;> simp_all [settledAs])
      · rename_i running
        obtain ⟨written, loop, rest⟩ := bind_eq_ok done
        obtain ⟨_, _, last⟩ := bind_eq_ok rest
        cases last
        have puts : Puts (fun held => if (held == .running) = true then .succeeded else held) key written
            ((written.setJob key (· == .running) (succeeded result now)).appendEvent key .completed
              result.payload now) :=
          puts_setJob (· == .running) (succeeded result now) .succeeded (fun _ => rfl) (fun _ => rfl) .completed _
        have same : written.job key = some row := by
          rw [← present, JobStore.job, JobStore.job, writeArtifacts_jobs loop]
        intro other
        rw [puts.of_eq (g := settledAs .succeeded) same (by simp_all [settledAs]) other,
          status_of_jobs (writeArtifacts_jobs loop), status_of_jobs (writeArtifacts_jobs loop)]

end Operations

section Calls

variable {store stored : JobStore} {key other : JobKey} {row job : Job} {now : Nat}

/-- A claim takes a job that is queued, and no other. -/
theorem claim_spec (store : JobStore) (key : JobKey) (now : Nat) :
    (∃ stored job, claim store key now = .ok (stored, some job) ∧ status store key = some .queued ∧
      Puts (fun _ => .running) key store stored) ∨
    (status store key ≠ some .queued ∧ ∀ stored job, claim store key now ≠ .ok (stored, some job)) := by
  cases present : store.job key with
  | none =>
    right
    refine ⟨?_, fun stored job => ?_⟩
    · rw [status, present]
      simp
    · rw [claim, get_of_none present]
      simp
  | some row =>
    by_cases queued : row.status = .queued
    · left
      have found : status store key = some .queued := by rw [status_of_present present, queued]
      have moved : Puts (fun held => if (held == .queued) = true then .running else held) key store
          ((store.setJob key (· == .queued) (claimed now))) :=
        fun other => status_setJob (· == .queued) (claimed now) .running (fun _ => rfl) fun _ => rfl
      have there := moved key
      rw [if_pos rfl, found, Option.map_some, if_pos (beq_self_eq_true _)] at there
      obtain ⟨job, taken, _⟩ := exists_of_status there
      refine ⟨(store.setJob key (· == .queued) (claimed now)).appendEvent key .running
        [("attempt", toString job.attemptCount)] now, job, ?_, found, ?_⟩
      · simp only [claim, get_of_some present, ok_bind, queued, ne_eq, not_true_eq_false, if_false, get_of_some taken]
        rfl
      · exact moved.of_eq present (by rw [queued]; rfl)
    · right
      refine ⟨?_, fun stored job => ?_⟩
      · rw [status_of_present present]
        simpa using queued
      · simp [claim, get_of_some present, queued]

theorem status_of_get (read : store.get key = .ok job) : status store key = some job.status := by
  cases present : store.job key with
  | none =>
    rw [get_of_none present] at read
    cases read
  | some row =>
    rw [get_of_some present] at read
    cases read
    exact status_of_present present

/-- What a status becomes when its job is to be cancelled. -/
def askedAs : JobStatus → JobStatus
  | .queued => .cancelled
  | .running => .cancelRequested
  | held => held

theorem requestCancel_spec (done : requestCancel store key now = .ok (stored, job)) :
    Puts askedAs key store stored ∧ status stored key = some job.status := by
  cases present : store.job key with
  | none =>
    rw [requestCancel, get_of_none present] at done
    cases done
  | some row =>
    simp only [requestCancel, get_of_some present, ok_bind] at done
    split at done
    · rename_i past
      cases done
      refine ⟨puts_self present ?_, status_of_present present⟩
      cases held : job.status <;> simp_all [askedAs, JobStatus.terminal]
    · rename_i live
      obtain ⟨last, read, rest⟩ := bind_eq_ok done
      cases rest
      refine ⟨?_, status_of_get read⟩
      split
      · rename_i queued
        have ended : Puts (fun held => if !held.terminal then .cancelled else held) key
            (store.appendEvent key .cancelRequested [] now)
            ((store.appendEvent key .cancelRequested [] now).cancelInConnection key "cancelled_before_start" now) :=
          puts_cancelInConnection _
        exact ended.of_eq present (by rw [queued]; rfl)
      · rename_i unqueued
        have moved : Puts (fun held => if (held == .running) = true then .cancelRequested else held) key store
            ((store.appendEvent key .cancelRequested [] now).setJob key (· == .running) (cancelRequested now)) :=
          fun other => status_setJob (· == .running) (cancelRequested now) .cancelRequested (fun _ => rfl) fun _ => rfl
        refine moved.of_eq present ?_
        cases held : row.status <;> simp_all [askedAs, JobStatus.terminal]

/-- A created job is queued and new; else the row of the same request is given back. -/
theorem create_spec (consistent : Consistent store) {request : CreateRequest} {fresh : Bool}
    (done : create store request now = .ok (stored, job, fresh)) :
    (stored = store ∧ status store job.key = some job.status) ∨
      (status store job.key = none ∧ job.status = .queued ∧
        ∀ other, status stored other = if other = job.key then some .queued else status store other) := by
  unfold create at done
  split at done
  · rename_i existing found
    split at done
    · cases done
    · cases done
      left
      exact ⟨rfl, status_of_present (Rows.find_of_mem consistent.distinct (List.mem_of_find?_eq_some found))⟩
  · simp only at done
    split at done
    · cases done
    · rename_i free
      cases done
      right
      have absent : store.job (request.job now).key = none := by simpa [JobStore.job] using free
      refine ⟨by rw [status, absent]; rfl, rfl, fun other => ?_⟩
      rw [status_appendEvent, status, JobStore.job, List.find?_append]
      by_cases same : other = (request.job now).key
      · subst same
        rw [if_pos rfl]
        rw [JobStore.job] at absent
        rw [absent]
        simp [CreateRequest.job]
      · rw [if_neg same, status, JobStore.job]
        have apart : ((request.job now).key == other) = false := by simpa using Ne.symm same
        simp [apart]

/-- What a status becomes at the start of a process. -/
def recoveredAs : JobStatus → JobStatus
  | .cancelRequested => .cancelled
  | .running => .queued
  | held => held

theorem recoverRow_puts (present : store.job key = some row) (named : row.key = key) :
    Puts recoveredAs key store (recoverRow now store row) := by
  subst named
  cases held : row.status with
  | cancelRequested =>
    simp only [recoverRow, held]
    refine (puts_setJob _ _ .cancelled ?_ ?_ _ _).of_eq present (by rw [held]; rfl)
    · exact fun _ => rfl
    · exact fun _ => rfl
  | running =>
    simp only [recoverRow, held]
    refine (puts_setJob _ _ .queued ?_ ?_ _ _).of_eq present (by rw [held]; rfl)
    · exact fun _ => rfl
    · exact fun _ => rfl
  | queued | succeeded | failed | cancelled =>
    simp only [recoverRow, held]
    exact puts_self present (by rw [held]; rfl)

/-- Induction on the rows: each round changes the status of its own row. -/
theorem recoverRows_status (rows : List Job) (distinct : (rows.map Job.key).Nodup)
    (present : ∀ row ∈ rows, store.job row.key = some row) :
    status (rows.foldl (recoverRow now) store) key =
      if key ∈ rows.map Job.key then (status store key).map recoveredAs else status store key := by
  induction rows generalizing store with
  | nil => rfl
  | cons row rows ih =>
    simp only [List.map_cons, List.nodup_cons] at distinct
    have head : Puts recoveredAs row.key store (recoverRow now store row) :=
      recoverRow_puts (present row List.mem_cons_self) rfl
    have rest : ∀ other ∈ rows, (recoverRow now store row).job other.key = some other := by
      intro other member
      have different : other.key ≠ row.key := fun same => distinct.1 (same ▸ List.mem_map_of_mem member)
      obtain ⟨change, acts, _⟩ := recoverRow_acts now row
      have kept := congrArg Entry.job ((acts store).entries other.key)
      rw [if_neg different] at kept
      exact kept.trans (present other (List.mem_cons_of_mem row member))
    rw [List.foldl_cons, ih distinct.2 rest, head key]
    by_cases same : key = row.key
    · subst same
      rw [if_neg distinct.1, if_pos rfl, if_pos (by simp)]
    · simp only [List.map_cons, List.mem_cons, same, false_or, if_false]

theorem recover_status (consistent : Consistent store) :
    status (recover store now).1 key = (status store key).map recoveredAs := by
  have order : store.recoverable.Perm (store.jobs.filter fun row => !row.status.terminal) := List.mergeSort_perm _ _
  have distinct : (store.recoverable.map Job.key).Nodup := by
    rw [(order.map Job.key).nodup_iff]
    exact consistent.distinct.sublist (List.filter_sublist.map Job.key)
  have present : ∀ row ∈ store.recoverable, store.job row.key = some row := fun row member =>
    Rows.find_of_mem consistent.distinct (List.mem_of_mem_filter (order.mem_iff.mp member))
  rw [recover, recoverRows_status _ distinct present]
  split
  · rfl
  · rename_i absent
    cases found : status store key with
    | none => rfl
    | some held =>
      obtain ⟨row, there, rfl⟩ := exists_of_status found
      have ended : row.status.terminal = true := by
        by_contra live
        refine absent (List.mem_map.mpr ⟨row, order.mem_iff.mpr (List.mem_filter.mpr ⟨?_, by simpa using live⟩), ?_⟩)
        · exact List.mem_of_find?_eq_some there
        · simpa using List.find?_some there
      cases held : row.status <;> simp_all [recoveredAs, JobStatus.terminal]

/-- Every job that is queued after the recovery is among those it returns. -/
theorem recover_returns (consistent : Consistent store) (queued : status (recover store now).1 key = some .queued) :
    ∃ job ∈ (recover store now).2, job.key = key := by
  obtain ⟨job, there, _⟩ := exists_of_status queued
  rw [recover_status consistent] at queued
  obtain ⟨held, before, after⟩ := Option.map_eq_some_iff.mp queued
  obtain ⟨row, present, rfl⟩ := exists_of_status before
  have named : row.key = key := by simpa using List.find?_some present
  have inside : row ∈ store.recoverable := by
    refine (List.mergeSort_perm _ _).mem_iff.mpr (List.mem_filter.mpr ⟨List.mem_of_find?_eq_some present, ?_⟩)
    cases held : row.status <;> simp_all [recoveredAs, JobStatus.terminal]
  refine ⟨job, List.mem_filterMap.mpr ⟨row, List.mem_filter.mpr ⟨inside, ?_⟩, by rw [named]; exact there⟩, ?_⟩
  · cases held : row.status <;> simp_all [recoveredAs]
  · simpa using List.find?_some there

end Calls

section Endings

variable {key : JobKey} {stored : JobStore}

/-- The statuses of the other jobs stay, and this one is over, or queued again by a service that stops. -/
structure Settled (stopping : Bool) (key : JobKey) (before after : JobStore) : Prop where
  others : ∀ other, other ≠ key → status after other = status before other
  own : ∃ held, status after key = some held ∧ (held.terminal = true ∨ stopping = true ∧ held = .queued)

theorem Puts.settled {f : JobStatus → JobStatus} {stopping : Bool} {store : JobStore} (puts : Puts f key store stored)
    (executing : Executing store key)
    (first : (f .running).terminal = true ∨ stopping = true ∧ f .running = .queued)
    (second : (f .cancelRequested).terminal = true) : Settled stopping key store stored := by
  refine ⟨fun other different => by rw [puts other, if_neg different], ?_⟩
  rcases executing with running | asked
  · exact ⟨_, by rw [puts key, if_pos rfl, running]; rfl, first⟩
  · exact ⟨_, by rw [puts key, if_pos rfl, asked]; rfl, Or.inl second⟩

theorem ended_settled {store : JobStore} {stopping : Bool} {now : Nat} (executing : Executing store key)
    (ending : Ending) : Settled stopping key store (ended store stopping key now ending) := by
  have fails : ∀ error, Settled stopping key store (committed store (fail store key error now)) := fun error =>
    (fail_puts store key error now).settled executing (Or.inl rfl) rfl
  have again : stopping = true → Settled stopping key store (committed store (requeueInterrupted store key now)) :=
    fun stops => (requeueInterrupted_puts store key now).settled executing (Or.inr ⟨stops, rfl⟩) rfl
  cases ending with
  | returned result newShortId =>
    rw [ended]
    split
    · rename_i stops
      exact again stops
    · split
      · rename_i done
        exact (complete_puts done).settled executing (Or.inl rfl) rfl
      · exact fails handlerFailed
  | timeout => exact fails handlerTimeout
  | raised => exact fails handlerFailed
  | cancelled =>
    rw [ended]
    split
    · rename_i stops
      exact again stops
    · exact (markCancelled_puts store key _ now).settled executing (Or.inl rfl) rfl

/-- The end of a task is one operation of the store. -/
theorem ended_call (store : JobStore) (stopping : Bool) (key : JobKey) (now : Nat) (ending : Ending) :
    ∃ call, ended store stopping key now ending = Refinement.step store call := by
  cases ending with
  | returned result newShortId =>
    rw [ended]
    split
    · exact ⟨.requeueInterrupted key now, rfl⟩
    · split
      · rename_i done
        refine ⟨.complete key result newShortId now, ?_⟩
        rw [Refinement.step, done]
        rfl
      · exact ⟨.fail key handlerFailed now, rfl⟩
  | timeout => exact ⟨.fail key handlerTimeout now, rfl⟩
  | raised => exact ⟨.fail key handlerFailed now, rfl⟩
  | cancelled =>
    rw [ended]
    split
    · exact ⟨.requeueInterrupted key now, rfl⟩
    · exact ⟨.markCancelled key "cancelled_by_owner" now, rfl⟩

end Endings

end OpenTulpa.Jobs.Service
