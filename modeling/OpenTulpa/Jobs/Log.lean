import OpenTulpa.Jobs.Store

/-! One job as its row, its log and its artifacts. Every operation of the store leaves the
entry of a key as it is or takes it along one of the moves below, and the moves are what the
row's refinement of the log is proved about. -/

namespace OpenTulpa.Jobs.Log

open Library Text Store

structure Entry where
  job : Option Job
  events : List JobEvent
  artifacts : List JobArtifact
  deriving DecidableEq

def Entry.vacant : Entry := ⟨none, [], []⟩

def entry (store : JobStore) (key : JobKey) : Entry :=
  ⟨store.job key, store.eventsOf key, store.artifactsOf key⟩

/-- The status an event puts its job in; progress and artifact events leave it. -/
def statusAfter : JobEventType → Option JobStatus
  | .queued | .recovered => some .queued
  | .running => some .running
  | .cancelRequested => some .cancelRequested
  | .cancelled => some .cancelled
  | .completed => some .succeeded
  | .failed => some .failed
  | .progress | .artifactReady => none

def isTerminal (event : JobEvent) : Bool := (statusAfter event.eventType).any JobStatus.terminal

/-- The status the log ends in. -/
def replayStatus (events : List JobEvent) : Option JobStatus :=
  (events.filterMap fun event => statusAfter event.eventType).getLast?

def attempts (events : List JobEvent) : Nat := events.countP fun event => event.eventType == .running

def announced (events : List JobEvent) : List JsonObject :=
  (events.filter fun event => event.eventType == .artifactReady).map JobEvent.payload

/-- The log after the artifacts have been announced one by one. -/
def announce (key : JobKey) (now : Nat) (events : List JobEvent) (artifacts : List JobArtifact) :
    List JobEvent :=
  artifacts.foldl (fun events artifact => logged key events .artifactReady artifact.announcement now) events

inductive Move (key : JobKey) : Entry → Entry → Prop
  | created (request : CreateRequest) (now : Nat) (same : (request.job now).key = key) :
      Move key .vacant ⟨some (request.job now), logged key [] .queued request.payload now, []⟩
  | claimed {job events artifacts} (queued : job.status = .queued) (payload : JsonObject) (now : Nat) :
      Move key ⟨some job, events, artifacts⟩
        ⟨some (claimed now job), logged key events .running payload now, artifacts⟩
  | progressed {job events artifacts} (running : job.status = .running) (payload : JsonObject) (now : Nat) :
      Move key ⟨some job, events, artifacts⟩ ⟨some job, logged key events .progress payload now, artifacts⟩
  | completed {job events artifacts} (running : job.status = .running) (result : JobHandlerResult)
      (written : List JobArtifact) (distinct : ((artifacts ++ written).map JobArtifact.id).Nodup) (now : Nat) :
      Move key ⟨some job, events, artifacts⟩
        ⟨some (succeeded result now job),
          logged key (announce key now events written) .completed result.payload now, artifacts ++ written⟩
  | failed {job events artifacts} (running : job.status = .running) (error : JobError) (now : Nat) :
      Move key ⟨some job, events, artifacts⟩
        ⟨some (failed error now job), logged key events .failed error.payload now, artifacts⟩
  | cancelRequested {job events artifacts} (running : job.status = .running) (now : Nat) :
      Move key ⟨some job, events, artifacts⟩
        ⟨some (cancelRequested now job), logged key events .cancelRequested [] now, artifacts⟩
  | cancelledBeforeStart {job events artifacts} (queued : job.status = .queued) (reason : JsonObject) (now : Nat) :
      Move key ⟨some job, events, artifacts⟩
        ⟨some (cancelled now job),
          logged key (logged key events .cancelRequested [] now) .cancelled reason now, artifacts⟩
  | cancelled {job events artifacts} (live : job.status.terminal = false) (reason : JsonObject) (now : Nat) :
      Move key ⟨some job, events, artifacts⟩
        ⟨some (cancelled now job), logged key events .cancelled reason now, artifacts⟩
  | recovered {job events artifacts} (running : job.status = .running) (reason : JsonObject) (now : Nat)
      (finished : Option Nat) (kept : finished = none ∨ finished = job.finishedAt) :
      Move key ⟨some job, events, artifacts⟩
        ⟨some { requeued now job with finishedAt := finished },
          logged key events .recovered reason now, artifacts⟩

/-- The row is what its log says, and the artifacts are those the log announces. -/
structure Refines (job : Job) (events : List JobEvent) (artifacts : List JobArtifact) : Prop where
  sequences : events.map JobEvent.sequence = List.range' 1 events.length
  status : replayStatus events = some job.status
  attempts : job.attemptCount = attempts events
  result : job.result.isSome ↔ job.status = .succeeded
  error : job.error.isSome ↔ job.status = .failed
  finished : job.finishedAt.isSome ↔ job.status.terminal
  ready : artifacts.map JobArtifact.announcement = announced events
  distinct : (artifacts.map JobArtifact.id).Nodup
  onlySucceeded : artifacts ≠ [] → job.status = .succeeded
  live : job.status.terminal = false → ∀ event ∈ events, isTerminal event = false
  ended : job.status.terminal → ∃ earlier last, events = earlier ++ [last] ∧
    isTerminal last = true ∧ ∀ event ∈ earlier, isTerminal event = false

structure Sound (entry : Entry) : Prop where
  vacant : entry.job = none → entry = .vacant
  refines : ∀ job, entry.job = some job → Refines job entry.events entry.artifacts

section Logged

variable {key : JobKey} {events : List JobEvent} {eventType : JobEventType} {payload : JsonObject} {now : Nat}

theorem foldr_max_range (n : Nat) : (List.range' 1 n).foldr max 0 = n := by
  induction n with
  | zero => rfl
  | succ n ih =>
    have top : ∀ (m : Nat) (numbers : List Nat), numbers.foldr max m = max (numbers.foldr max 0) m := by
      intro m numbers
      induction numbers with
      | nil => simp
      | cons number numbers ih => simp [ih, max_assoc]
    rw [List.range'_concat, List.foldr_append, top, ih]
    simp
    omega

theorem sequences_logged (sequences : events.map JobEvent.sequence = List.range' 1 events.length) :
    (logged key events eventType payload now).map JobEvent.sequence =
      List.range' 1 (logged key events eventType payload now).length := by
  have next : nextSequence events = 1 + events.length := by
    rw [nextSequence, sequences, foldr_max_range, Nat.add_comm]
  simp [logged, sequences, next, List.range'_concat]

theorem replayStatus_logged : replayStatus (logged key events eventType payload now) =
    (statusAfter eventType).or (replayStatus events) := by
  cases after : statusAfter eventType <;> simp [replayStatus, logged, after]

theorem attempts_logged : attempts (logged key events eventType payload now) =
    attempts events + if eventType = .running then 1 else 0 := by
  simp [attempts, logged, List.countP_append, List.countP_cons]

theorem announced_logged : announced (logged key events eventType payload now) =
    announced events ++ if eventType = .artifactReady then [payload] else [] := by
  by_cases ready : eventType = .artifactReady <;> simp [announced, logged, ready]

theorem live_logged (live : ∀ event ∈ events, isTerminal event = false)
    (open_ : (statusAfter eventType).any JobStatus.terminal = false) :
    ∀ event ∈ logged key events eventType payload now, isTerminal event = false := by
  intro event member
  rcases List.mem_append.mp member with old | last
  · exact live event old
  · rw [List.mem_singleton.mp last]
    exact open_

theorem ended_logged (live : ∀ event ∈ events, isTerminal event = false)
    (closes : (statusAfter eventType).any JobStatus.terminal = true) :
    ∃ earlier last, logged key events eventType payload now = earlier ++ [last] ∧
      isTerminal last = true ∧ ∀ event ∈ earlier, isTerminal event = false :=
  ⟨events, _, rfl, closes, live⟩

end Logged

section Announce

variable {key : JobKey} {now : Nat}

theorem sequences_announce (written : List JobArtifact) {events : List JobEvent}
    (sequences : events.map JobEvent.sequence = List.range' 1 events.length) :
    (announce key now events written).map JobEvent.sequence =
      List.range' 1 (announce key now events written).length := by
  induction written generalizing events with
  | nil => exact sequences
  | cons artifact written ih => exact ih (sequences_logged sequences)

theorem replayStatus_announce (written : List JobArtifact) (events : List JobEvent) :
    replayStatus (announce key now events written) = replayStatus events := by
  induction written generalizing events with
  | nil => rfl
  | cons artifact written ih => exact (ih _).trans replayStatus_logged

theorem attempts_announce (written : List JobArtifact) (events : List JobEvent) :
    attempts (announce key now events written) = attempts events := by
  induction written generalizing events with
  | nil => rfl
  | cons artifact written ih => exact (ih _).trans attempts_logged

theorem announced_announce (written : List JobArtifact) (events : List JobEvent) :
    announced (announce key now events written) =
      announced events ++ written.map JobArtifact.announcement := by
  induction written generalizing events with
  | nil => simp [announce]
  | cons artifact written ih =>
    have rest := ih (logged key events .artifactReady artifact.announcement now)
    rw [announced_logged] at rest
    simpa [announce] using rest

theorem live_announce (written : List JobArtifact) {events : List JobEvent}
    (live : ∀ event ∈ events, isTerminal event = false) :
    ∀ event ∈ announce key now events written, isTerminal event = false := by
  induction written generalizing events with
  | nil => exact live
  | cons artifact written ih => exact ih (live_logged live rfl)

end Announce

/-- A live job has no artifacts, no result, no error and no end. -/
theorem Refines.of_live {job : Job} {events : List JobEvent} {artifacts : List JobArtifact}
    (refines : Refines job events artifacts) (live : job.status.terminal = false) :
    artifacts = [] ∧ job.result = none ∧ job.error = none ∧ job.finishedAt = none := by
  refine ⟨?_, ?_, ?_, ?_⟩
  · by_contra some
    simp [refines.onlySucceeded some, JobStatus.terminal] at live
  · by_contra some
    simp [refines.result.mp (Option.isSome_iff_ne_none.mpr some), JobStatus.terminal] at live
  · by_contra some
    simp [refines.error.mp (Option.isSome_iff_ne_none.mpr some), JobStatus.terminal] at live
  · by_contra some
    simp [refines.finished.mp (Option.isSome_iff_ne_none.mpr some)] at live

/-- A live job moves to another live status with one event. -/
theorem Refines.advance {job next : Job} {events : List JobEvent} {artifacts : List JobArtifact}
    (refines : Refines job events artifacts) (live : job.status.terminal = false)
    {key : JobKey} {eventType : JobEventType} {payload : JsonObject} {now : Nat}
    (status : (statusAfter eventType).or (some job.status) = some next.status)
    (unready : eventType ≠ .artifactReady)
    (attempts : next.attemptCount = job.attemptCount + if eventType = .running then 1 else 0)
    (result : next.result = none) (error : next.error = none) (finished : next.finishedAt = none)
    (alive : next.status.terminal = false) :
    Refines next (logged key events eventType payload now) artifacts where
  sequences := sequences_logged refines.sequences
  status := by rw [replayStatus_logged, refines.status]; exact status
  attempts := by rw [attempts_logged, attempts, refines.attempts]
  result := by
    rw [result]
    constructor
    · simp
    · intro succeeded
      simp [succeeded, JobStatus.terminal] at alive
  error := by
    rw [error]
    constructor
    · simp
    · intro failed
      simp [failed, JobStatus.terminal] at alive
  finished := by simp [finished, alive]
  ready := by simp [announced_logged, unready, refines.ready]
  distinct := refines.distinct
  onlySucceeded := fun some => absurd (refines.of_live live).1 some
  live := by
    intro _
    refine live_logged (refines.live live) ?_
    cases after : statusAfter eventType with
    | none => rfl
    | some entered =>
      have entered_eq : entered = next.status := by simpa [after] using status
      simpa [entered_eq] using alive
  ended := by simp [alive]

/-- A live job ends with one event, whatever has been announced since. -/
theorem Refines.finish {job next : Job} {events : List JobEvent} (refines : Refines job events [])
    (written : List JobArtifact) (live : job.status.terminal = false) {key : JobKey}
    {eventType : JobEventType} {payload : JsonObject} {now : Nat} (distinct : (written.map JobArtifact.id).Nodup)
    (only : written ≠ [] → next.status = .succeeded) (status : statusAfter eventType = some next.status)
    (ended : next.status.terminal = true) (attempts : next.attemptCount = job.attemptCount)
    (result : next.result.isSome ↔ next.status = .succeeded)
    (error : next.error.isSome ↔ next.status = .failed) (finished : next.finishedAt = some now) :
    Refines next (logged key (announce key now events written) eventType payload now) written where
  sequences := sequences_logged (sequences_announce written refines.sequences)
  status := by simp [replayStatus_logged, status]
  attempts := by
    have quiet : eventType ≠ .running := by
      rintro rfl
      simp [← Option.some.inj status, JobStatus.terminal] at ended
    simp [attempts_logged, attempts_announce, quiet, attempts, refines.attempts]
  result := result
  error := error
  finished := by simp [finished, ended]
  ready := by
    have quiet : eventType ≠ .artifactReady := by
      rintro rfl
      cases status
    have none : announced events = [] := by simpa using refines.ready.symm
    simp [announced_logged, announced_announce, quiet, none]
  distinct := distinct
  onlySucceeded := only
  live := by simp [ended]
  ended := fun _ => ended_logged (live_announce written (refines.live live)) (by simp [status, ended])

theorem terminal_of_eq_queued {job : Job} (queued : job.status = .queued) : job.status.terminal = false := by
  rw [queued]; rfl

theorem terminal_of_eq_running {job : Job} (running : job.status = .running) : job.status.terminal = false := by
  rw [running]; rfl

/-- Cancelling ends a live job, after any number of events that leave it live. -/
theorem Refines.cancel {job : Job} {events : List JobEvent} {artifacts : List JobArtifact}
    (refines : Refines job events artifacts) (live : job.status.terminal = false) {key : JobKey}
    {payload : JsonObject} {now : Nat} :
    Refines (cancelled now job) (logged key events .cancelled payload now) artifacts := by
  obtain ⟨empty, result, error, _⟩ := refines.of_live live
  subst empty
  exact refines.finish [] live (by simp) (by simp) rfl rfl rfl (by simp [cancelled, result])
    (by simp [cancelled, error]) rfl

theorem Move.sound {key : JobKey} {before after : Entry} (move : Move key before after) (sound : Sound before) :
    Sound after := by
  refine ⟨?_, ?_⟩
  · intro absent
    cases move <;> cases absent
  intro next present
  cases move with
  | created request now same =>
    cases present
    exact ⟨rfl, rfl, rfl, by simp [CreateRequest.job], by simp [CreateRequest.job],
      by simp [CreateRequest.job, JobStatus.terminal], rfl, by simp, by simp,
      fun _ => live_logged (by simp) rfl, by simp [CreateRequest.job, JobStatus.terminal]⟩
  | @claimed job events artifacts queued payload now =>
    cases present
    have refines := sound.refines _ rfl
    have live := terminal_of_eq_queued queued
    exact refines.advance live rfl (by simp) rfl (refines.of_live live).2.1 rfl rfl rfl
  | @progressed job events artifacts running payload now =>
    cases present
    have refines := sound.refines _ rfl
    have live := terminal_of_eq_running running
    obtain ⟨_, result, error, finished⟩ := refines.of_live live
    exact refines.advance live rfl (by simp) rfl result error finished live
  | @completed job events artifacts running result written distinct now =>
    cases present
    have refines := sound.refines _ rfl
    have live := terminal_of_eq_running running
    obtain ⟨empty, _⟩ := refines.of_live live
    cases empty
    exact refines.finish written live (by simpa using distinct) (fun _ => rfl) rfl rfl rfl
      (by simp [succeeded]) (by simp [succeeded]) rfl
  | @failed job events artifacts running error now =>
    cases present
    have refines := sound.refines _ rfl
    have live := terminal_of_eq_running running
    obtain ⟨empty, _⟩ := refines.of_live live
    cases empty
    exact refines.finish [] live (by simp) (by simp) rfl rfl rfl
      (by simp [Store.failed]) (by simp [Store.failed]) rfl
  | @cancelRequested job events artifacts running now =>
    cases present
    have refines := sound.refines _ rfl
    have live := terminal_of_eq_running running
    obtain ⟨_, result, error, finished⟩ := refines.of_live live
    exact refines.advance live rfl (by simp) rfl result error finished rfl
  | @cancelledBeforeStart job events artifacts queued reason now =>
    cases present
    have refines := sound.refines _ rfl
    have live := terminal_of_eq_queued queued
    obtain ⟨_, result, error, finished⟩ := refines.of_live live
    have asked : Refines (Store.cancelRequested now job) (logged key events .cancelRequested [] now) artifacts :=
      refines.advance live rfl (by simp) rfl result error finished rfl
    exact asked.cancel rfl
  | @cancelled job events artifacts live reason now =>
    cases present
    exact (sound.refines _ rfl).cancel live
  | @recovered job events artifacts running reason now finished kept =>
    cases present
    have refines := sound.refines _ rfl
    have live := terminal_of_eq_running running
    obtain ⟨_, result, error, unfinished⟩ := refines.of_live live
    exact refines.advance live rfl (by simp) rfl result error (kept.elim id (·.trans unfinished)) rfl

/-- A job that has ended does not move. -/
theorem Move.live {key : JobKey} {before after : Entry} (move : Move key before after) {job : Job}
    (present : before.job = some job) : job.status.terminal = false := by
  cases move <;> cases present <;> first | assumption | simp_all [JobStatus.terminal]

end OpenTulpa.Jobs.Log
