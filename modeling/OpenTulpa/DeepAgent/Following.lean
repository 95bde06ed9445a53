import Mathlib.Data.List.Infix
import Mathlib.Data.List.Sort
import OpenTulpa.DeepAgent.RunLog

/-! Followers of runs. A follower replays the durable events of a run behind a sequence and then
waits for the notices of the writers, which give one after every event they have committed. A
writer that is cancelled in between leaves its event without a notice. -/

namespace OpenTulpa.DeepAgent.Following

open Library Text Connection Runs
open RunLog hiding Op step

/-- The `SELECT` of `events`. -/
def eventRows (db : RunDatabase) (runId : String) (sequence : Nat) : List AgentRunEvent :=
  (db.events.filter fun event => event.runId == runId && decide (sequence < event.sequence)).insertionSort
    fun first second => first.sequence ≤ second.sequence

/-- Where the generator stands. The rows are those it has read and not handed out yet. -/
inductive Phase where
  | reading
  | yielding (rows : List AgentRunEvent)
  | waiting
  | ended (status : AgentRunStatus)
  | failed
  | closed
  deriving DecidableEq

def Phase.rows : Phase → List AgentRunEvent
  | .yielding rows => rows
  | _ => []

def Phase.rests : Phase → Bool
  | .waiting | .ended _ => true
  | _ => false

structure Follower where
  runId : String
  afterSequence : Nat
  sequence : Nat
  yielded : List AgentRunEvent
  phase : Phase
  deriving DecidableEq

/-- The statuses in which `events` waits for more. -/
def goesOn (status : AgentRunStatus) : Bool := status == .running || status == .resumePending

/-- What becomes of a follower that has read everything, by `_run_status`. -/
def atEnd (db : RunDatabase) (runId : String) : Phase :=
  match db.run runId with
  | none => .failed
  | some run => if goesOn run.status then .waiting else .ended run.status

/-- One read of `events`, under the condition of the run and the lock of the events. -/
def Follower.read (db : RunDatabase) (follower : Follower) : Phase :=
  match eventRows db follower.runId follower.sequence with
  | [] => atEnd db follower.runId
  | rows => .yielding rows

/-- What the generator does when it is resumed: it hands out the next row or reads again. -/
def Follower.advance (db : RunDatabase) (follower : Follower) : Follower :=
  match follower.phase with
  | .reading => { follower with phase := follower.read db }
  | .yielding [] => { follower with phase := .reading }
  | .yielding (row :: rest) =>
    { follower with sequence := row.sequence, yielded := follower.yielded ++ [row], phase := .yielding rest }
  | _ => follower

/-- `notify_all` on the condition of the run -/
def Follower.wake (runId : String) (follower : Follower) : Follower :=
  if follower.runId = runId ∧ follower.phase = .waiting then { follower with phase := .reading } else follower

/-- The database, the followers, and the runs whose writers have committed an event: those they
still have to give notice of, and those they were cancelled before. -/
structure System where
  db : RunDatabase
  followers : List Follower
  due : List String
  lost : List String
  deriving DecidableEq

def System.start : System := ⟨.empty, [], [], []⟩

/-- `_notify_run_event` follows the commit of an event. -/
def noticeOf : Except RunError Result → List String
  | .ok (.event (some event)) => [event.runId]
  | _ => []

inductive Op where
  | write (op : RunLog.Op)
  | follow (runId : String) (afterSequence : Int)
  | advance (i : Nat)
  | notify (i : Nat)
  | cutOff (i : Nat)
  | close (i : Nat)
  deriving DecidableEq

def step (s : System) : Op → System
  | .write op =>
    let (db, result) := op.call.run s.db s.db
    { s with db := db, due := s.due ++ noticeOf result }
  | .follow runId afterSequence =>
    { s with followers := s.followers ++ [⟨runId, afterSequence.toNat, afterSequence.toNat, [], .reading⟩] }
  | .advance i => { s with followers := s.followers.modify i (Follower.advance s.db) }
  | .notify i =>
    match s.due[i]? with
    | none => s
    | some runId => { s with due := s.due.eraseIdx i, followers := s.followers.map (Follower.wake runId) }
  | .cutOff i =>
    match s.due[i]? with
    | none => s
    | some runId => { s with due := s.due.eraseIdx i, lost := s.lost ++ [runId] }
  | .close i => { s with followers := s.followers.modify i fun follower => { follower with phase := .closed } }

section Writers

variable {db : RunDatabase}

theorem insertUnkeyed_events (call : InsertCall) : ((insertUnkeyed call).run db db).1.events = db.events := by
  simp only [insertUnkeyed, Call.run]
  cases db.unresolved call.checkpointThreadId with
  | some active => rfl
  | none =>
    simp only [attempt_run]
    cases threads : upsertThread call.thread db with
    | error error => rfl
    | ok result =>
      obtain ⟨changed, count⟩ := result
      simp only [insertRunRow]
      split
      · rename_i inserted total outcome
        split at outcome
        · cases outcome
        · cases outcome
          exact (upsertThread_eq threads).2
      · rfl

theorem insertRun_events (call : InsertCall) : ((Runs.insertRun call).run db db).1.events = db.events := by
  simp only [Runs.insertRun, transaction, Call.run]
  cases call.idempotencyKey with
  | none => exact insertUnkeyed_events call
  | some key =>
    simp only [Call.run]
    cases db.keyed call.context.tenantId key with
    | none => exact insertUnkeyed_events call
    | some existing =>
      dsimp only
      split <;> rfl

/-- The transaction adds no event, or one whose run its writer then gives notice of. -/
def Noticed (db : RunDatabase) (outcome : RunDatabase × Except RunError Result) : Prop :=
  outcome.1.events = db.events ∨
    ∃ event, outcome.1.events = db.events ++ [event] ∧ noticeOf outcome.2 = [event.runId]

theorem appendEvent_noticed (runId : String) (type : AgentRunEventType) (data : JsonObject) (now : String) :
    Noticed db ((Runs.appendEvent runId type data now).run db db) := by
  simp only [Runs.appendEvent, transaction, Call.run]
  cases db.run runId with
  | none => exact Or.inl rfl
  | some run =>
    dsimp only
    split
    · exact Or.inl rfl
    simp only [attempt_run]
    split
    · rename_i inserted count outcome
      obtain rfl := insertEvent_eq outcome
      simp only [updateRunRow]
      split
      · rename_i touched count outcome
        obtain ⟨threads, total, same⟩ := touchThread_eq runId now _
        rw [same] at outcome
        cases outcome
        exact Or.inr ⟨_, rfl, rfl⟩
      · exact Or.inl rfl
    · exact Or.inl rfl

theorem transitionWithEvent_noticed (call : TransitionCall) : Noticed db ((transitionWithEvent call).run db db) := by
  simp only [transitionWithEvent, transaction, Call.run]
  cases db.run call.runId with
  | none => exact Or.inl rfl
  | some run =>
    dsimp only
    split
    · exact Or.inl rfl
    simp only [attempt_run, updateRunRow]
    split
    · rename_i touched count outcome
      obtain ⟨threads, total, same⟩ := touchThread_eq call.runId call.now _
      rw [same] at outcome
      cases outcome
      split
      · rename_i inserted count outcome
        obtain rfl := insertEvent_eq outcome
        exact Or.inr ⟨_, rfl, rfl⟩
      · exact Or.inl rfl
    · exact Or.inl rfl

theorem write_noticed (db : RunDatabase) (op : RunLog.Op) : Noticed db (op.call.run db db) := by
  cases op with
  | insertRun call => exact Or.inl (insertRun_events call)
  | appendEvent runId progress data now => exact appendEvent_noticed runId progress.type data now
  | finish runId ending now => exact transitionWithEvent_noticed (ending.call runId now)
  | pause runId cause now => exact Or.inl rfl
  | claimApprovalDecision snapshot decision now =>
    refine Or.inl ?_
    simp only [RunLog.Op.call, Runs.claimApprovalDecision]
    split
    · rfl
    split
    · rfl
    · rfl
    · rw [lockedUpdate_run]

/-- A run that goes on, as its followers see it. -/
def Going (db : RunDatabase) (runId : String) : Prop := ∃ run, db.run runId = some run ∧ run.status.isActive = true

/-- What a transaction means for the followers of a run: notice is given, or it has no new event and has not ended. -/
theorem write_spec (sound : Sound db) (op : RunLog.Op) (runId : String) :
    runId ∈ noticeOf (op.call.run db db).2 ∨
      ((RunLog.step db op).eventsOf runId = db.eventsOf runId ∧ (Going db runId → Going (RunLog.step db op) runId)) := by
  by_cases told : runId ∈ noticeOf (op.call.run db db).2
  · exact Or.inl told
  have quiet : (RunLog.step db op).eventsOf runId = db.eventsOf runId := by
    rcases write_noticed db op with same | ⟨event, added, notice⟩
    · exact congrFun (eventsOf_same same) runId
    · have other : event.runId ≠ runId := by
        rintro rfl
        exact told (by rw [notice]; exact List.mem_singleton_self _)
      rw [RunDatabase.eventsOf, RunLog.step, added, List.filter_append]
      simp [RunDatabase.eventsOf, other]
  refine Or.inr ⟨quiet, ?_⟩
  rintro ⟨run, found, active⟩
  have change := step_change db op
  generalize RunLog.step db op = later at quiet change ⊢
  obtain ⟨member, named⟩ := run_mem found
  cases change with
  | stays runs events => exact ⟨run, by rw [RunDatabase.run, runs]; exact found, active⟩
  | @inserts new inserted =>
    refine ⟨run, ?_, active⟩
    rw [RunDatabase.run, inserted.runs, List.find?_append]
    rw [RunDatabase.run] at found
    rw [found, Option.some_or]
  | @advances advancing chosen change added advanced =>
    have kept : later.run runId = some (if chosen run then change run else run) := by
      rw [RunDatabase.run, advanced.runs, Rows.find_update]
      · rw [RunDatabase.run] at found
        rw [found, Option.map_some]
      · intro row _
        rw [(advanced.same row).1]
    refine ⟨_, kept, ?_⟩
    split
    · rename_i picked
      -- the run that moves is this one, and it has logged nothing
      have own : advancing = run :=
        Rows.eq_of_key_eq sound.single advanced.member member (advanced.only run member picked).symm
      subst own
      have moves := advanced.moves
      cases moves with
      | silent still _ => exact still
      | logs event eventOwn next _ _ _ =>
        rw [← named, advanced.eventsOf_own] at quiet
        simp at quiet
    · exact active

end Writers

section Followers

variable {db later : RunDatabase} {s : System} {follower : Follower}

/-- The events of a run behind a sequence. -/
def wanted (db : RunDatabase) (runId : String) (afterSequence : Nat) : List AgentRunEvent :=
  (db.eventsOf runId).drop afterSequence

theorem eventsOf_numbered (sound : Sound db) (runId : String) :
    (db.eventsOf runId).map AgentRunEvent.sequence = List.range' 1 (db.eventsOf runId).length := by
  by_cases present : ∃ run ∈ db.runs, run.runId = runId
  · obtain ⟨run, member, rfl⟩ := present
    have numbered := (sound.chronicled run member).numbered
    have counted : (db.eventsOf run.runId).length = run.lastSequence := by
      simpa using congrArg List.length numbered
    rw [counted, numbered]
  · have none : db.eventsOf runId = [] := by
      rw [RunDatabase.eventsOf, List.filter_eq_nil_iff]
      intro event member same
      obtain ⟨run, known, named⟩ := sound.referred event member
      exact present ⟨run, known, named.trans (by simpa using same)⟩
    rw [none]
    rfl

/-- The rows that are read are the later part of the log, already in order. -/
theorem eventRows_eq (sound : Sound db) (runId : String) (sequence : Nat) :
    eventRows db runId sequence = (db.eventsOf runId).drop sequence := by
  have numbered := eventsOf_numbered sound runId
  have rows : (db.events.filter fun event => event.runId == runId && decide (sequence < event.sequence)) =
      (db.eventsOf runId).drop sequence := by
    rw [← Rows.drop_of_numbered numbered, RunDatabase.eventsOf, List.filter_filter]
    apply List.filter_congr
    intro event _
    exact Bool.and_comm _ _
  have ordered := (Rows.pairwise_of_numbered numbered).sublist (List.drop_sublist sequence _)
  rw [eventRows, rows, List.Pairwise.insertionSort_eq ordered]

/-- What holds of a follower: it has handed out the first of the events it was asked for, it waits in vain only if a
writer was cancelled before its notice, and it ends when the run has stopped. -/
structure Faithful (s : System) (follower : Follower) : Prop where
  counted : follower.sequence = follower.afterSequence + follower.yielded.length
  ordered : follower.yielded ++ follower.phase.rows <+: wanted s.db follower.runId follower.afterSequence
  waits : follower.phase = .waiting → follower.runId ∈ s.due ∨ follower.runId ∈ s.lost ∨
    (follower.yielded = wanted s.db follower.runId follower.afterSequence ∧ Going s.db follower.runId)
  ends : ∀ status, follower.phase = .ended status → goesOn status = false ∧
    (status.isTerminal = true → follower.yielded = wanted s.db follower.runId follower.afterSequence ∧
      ∃ run ∈ s.db.runs, run.runId = follower.runId ∧ run.status = status)

/-- Nothing more is asked of a follower that neither waits nor has ended. -/
theorem faithful_of_busy (counted : follower.sequence = follower.afterSequence + follower.yielded.length)
    (ordered : follower.yielded ++ follower.phase.rows <+: wanted s.db follower.runId follower.afterSequence)
    (busy : follower.phase.rests = false) : Faithful s follower := by
  refine ⟨counted, ordered, ?_, ?_⟩
  · intro waiting
    rw [waiting] at busy
    cases busy
  · intro status ended
    rw [ended] at busy
    cases busy

theorem Faithful.yielded_prefix (faithful : Faithful s follower) : follower.yielded <+: wanted s.db follower.runId follower.afterSequence :=
  (List.prefix_append _ _).trans faithful.ordered

theorem Faithful.unread (faithful : Faithful s follower) (sound : Sound s.db) :
    wanted s.db follower.runId follower.afterSequence = follower.yielded ++ eventRows s.db follower.runId follower.sequence := by
  obtain ⟨rest, whole⟩ := faithful.yielded_prefix
  rw [eventRows_eq sound, faithful.counted, ← List.drop_drop]
  change _ = _ ++ (wanted s.db follower.runId follower.afterSequence).drop _
  rw [← whole, List.drop_left]

theorem Faithful.read (faithful : Faithful s follower) (sound : Sound s.db) :
    Faithful s { follower with phase := follower.read s.db } := by
  have whole := faithful.unread sound
  have going (status : AgentRunStatus) (on : goesOn status = true) : status.isActive = true := by
    cases status <;> first | rfl | cases on
  unfold Follower.read
  cases unread : eventRows s.db follower.runId follower.sequence with
  | cons row rest =>
    rw [unread] at whole
    exact faithful_of_busy faithful.counted ⟨[], by simpa [Phase.rows] using whole.symm⟩ rfl
  | nil =>
    rw [unread, List.append_nil] at whole
    have all : follower.yielded ++ [] <+: wanted s.db follower.runId follower.afterSequence := by rw [List.append_nil]; exact faithful.yielded_prefix
    unfold atEnd
    cases found : s.db.run follower.runId with
    | none => exact faithful_of_busy faithful.counted all rfl
    | some run =>
      dsimp only
      split
      · rename_i on
        exact ⟨faithful.counted, all, fun _ => Or.inr (Or.inr ⟨whole.symm, run, found, going _ on⟩),
          fun _ ended => (by cases ended)⟩
      · rename_i off
        refine ⟨faithful.counted, all, fun waiting => (by cases waiting), ?_⟩
        intro status ended
        cases ended
        obtain ⟨member, named⟩ := run_mem found
        exact ⟨Bool.eq_false_iff.mpr off, fun _ => ⟨whole.symm, run, member, named, rfl⟩⟩

theorem Faithful.yield {row : AgentRunEvent} {rest : List AgentRunEvent} (faithful : Faithful s follower) (sound : Sound s.db)
    (here : follower.phase = .yielding (row :: rest)) :
    Faithful s { follower with
      sequence := row.sequence, yielded := follower.yielded ++ [row], phase := .yielding rest } := by
  have ordered := faithful.ordered
  rw [here] at ordered
  obtain ⟨more, whole⟩ := ordered
  have split : follower.yielded ++ [row] ++ rest ++ more = wanted s.db follower.runId follower.afterSequence := by
    rw [← whole]
    simp [Phase.rows]
  refine faithful_of_busy ?_ ⟨more, split⟩ rfl
  -- the row is the event of the log at the place the cursor has reached
  have place : (s.db.eventsOf follower.runId)[follower.afterSequence + follower.yielded.length]? = some row := by
    rw [← List.getElem?_drop]
    change (wanted s.db follower.runId follower.afterSequence)[_]? = _
    rw [← whole]
    simp [Phase.rows]
  obtain ⟨inside, same⟩ := List.getElem?_eq_some_iff.mp place
  have number := Rows.rank_getElem (eventsOf_numbered sound follower.runId) inside
  rw [same] at number
  rw [number, List.length_append, List.length_singleton]
  rfl

theorem Faithful.advance (faithful : Faithful s follower) (sound : Sound s.db) : Faithful s (follower.advance s.db) := by
  unfold Follower.advance
  split
  · exact faithful.read sound
  · rename_i here
    exact faithful_of_busy faithful.counted (by simpa [Phase.rows] using faithful.yielded_prefix) rfl
  · rename_i here
    exact faithful.yield sound here
  · exact faithful

theorem eventsOf_grown (db : RunDatabase) (op : RunLog.Op) (runId : String) :
    db.eventsOf runId <+: (RunLog.step db op).eventsOf runId := by
  rcases write_noticed db op with same | ⟨event, added, _⟩
  · exact (congrFun (eventsOf_same same) runId) ▸ List.prefix_rfl
  · rw [RunDatabase.eventsOf, RunDatabase.eventsOf, RunLog.step, added, List.filter_append]
    exact List.prefix_append _ _

theorem Faithful.write (faithful : Faithful s follower) (sound : Sound s.db) (op : RunLog.Op) :
    Faithful (step s (.write op)) follower := by
  have grown := (eventsOf_grown s.db op follower.runId).drop follower.afterSequence
  refine ⟨faithful.counted, faithful.ordered.trans grown, ?_, ?_⟩
  · intro waiting
    rcases write_spec sound op follower.runId with told | ⟨same, goes⟩
    · exact Or.inl (List.mem_append_right _ told)
    · rcases faithful.waits waiting with due | lost | ⟨all, going⟩
      · exact Or.inl (List.mem_append_left _ due)
      · exact Or.inr (Or.inl lost)
      · refine Or.inr (Or.inr ⟨?_, goes going⟩)
        rw [all, wanted, ← same]
        rfl
  · intro status ended
    obtain ⟨stopped, complete⟩ := faithful.ends status ended
    refine ⟨stopped, fun terminal => ?_⟩
    obtain ⟨all, run, member, named, shown⟩ := complete terminal
    obtain ⟨still, same⟩ := (step_change s.db op).frozen sound run member (shown ▸ terminal)
    rw [named] at same
    refine ⟨?_, run, still, named, shown⟩
    rw [all, wanted, ← same]
    rfl

theorem mem_eraseIdx_of_ne {due : List String} {i : Nat} {told runId : String} (here : due[i]? = some told)
    (other : runId ≠ told) (member : runId ∈ due) : runId ∈ due.eraseIdx i := by
  rw [List.mem_eraseIdx_iff_getElem?]
  obtain ⟨place, found⟩ := List.mem_iff_getElem?.mp member
  refine ⟨place, ?_, found⟩
  rintro rfl
  rw [here] at found
  exact other (Option.some.inj found).symm

theorem Faithful.notify {i : Nat} {told : String} (faithful : Faithful s follower) (here : s.due[i]? = some told) :
    Faithful { s with due := s.due.eraseIdx i } (follower.wake told) := by
  unfold Follower.wake
  split
  · rename_i woken
    exact faithful_of_busy faithful.counted (by simpa [Phase.rows] using faithful.yielded_prefix) rfl
  · rename_i left
    refine ⟨faithful.counted, faithful.ordered, ?_, faithful.ends⟩
    intro waiting
    rcases faithful.waits waiting with due | lost | current
    · exact Or.inl (mem_eraseIdx_of_ne here (fun same => left ⟨same, waiting⟩) due)
    · exact Or.inr (Or.inl lost)
    · exact Or.inr (Or.inr current)

theorem Faithful.cutOff {i : Nat} {told : String} (faithful : Faithful s follower) (here : s.due[i]? = some told) :
    Faithful { s with due := s.due.eraseIdx i, lost := s.lost ++ [told] } follower := by
  refine ⟨faithful.counted, faithful.ordered, ?_, faithful.ends⟩
  intro waiting
  rcases faithful.waits waiting with due | lost | current
  · by_cases same : follower.runId = told
    · exact Or.inr (Or.inl (List.mem_append_right _ (same ▸ List.mem_singleton_self _)))
    · exact Or.inl (mem_eraseIdx_of_ne here same due)
  · exact Or.inr (Or.inl (List.mem_append_left _ lost))
  · exact Or.inr (Or.inr current)

theorem Faithful.close (faithful : Faithful s follower) : Faithful s { follower with phase := .closed } :=
  faithful_of_busy faithful.counted (by simpa [Phase.rows] using faithful.yielded_prefix) rfl

theorem Faithful.among (faithful : Faithful s follower) (followers : List Follower) :
    Faithful { s with followers := followers } follower :=
  ⟨faithful.counted, faithful.ordered, faithful.waits, faithful.ends⟩

/-- The database is sound, and so is every follower. -/
structure Inv (s : System) : Prop where
  sound : Sound s.db
  faithful : ∀ follower ∈ s.followers, Faithful s follower

theorem inv_start : Inv .start := ⟨sound_empty, by simp [System.start]⟩

theorem Inv.modify (inv : Inv s) (i : Nat) {change : Follower → Follower}
    (kept : ∀ follower, Faithful s follower → Faithful s (change follower)) :
    Inv { s with followers := s.followers.modify i change } := by
  refine ⟨inv.sound, fun follower member => ?_⟩
  obtain ⟨place, found⟩ := List.mem_iff_getElem?.mp member
  rw [List.getElem?_modify] at found
  obtain ⟨old, known, rfl⟩ := Option.map_eq_some_iff.mp found
  have faithful := inv.faithful old (List.mem_of_getElem? known)
  split
  · exact (kept old faithful).among _
  · exact faithful.among _

theorem step_inv (inv : Inv s) (op : Op) : Inv (step s op) := by
  cases op with
  | write op => exact ⟨step_sound inv.sound op, fun follower member => (inv.faithful follower member).write inv.sound op⟩
  | follow runId afterSequence =>
    refine ⟨inv.sound, fun follower member => ?_⟩
    rcases List.mem_append.mp member with known | new
    · exact (inv.faithful follower known).among _
    · obtain rfl := List.mem_singleton.mp new
      exact faithful_of_busy rfl List.nil_prefix rfl
  | advance i => exact inv.modify i fun follower faithful => faithful.advance inv.sound
  | notify i =>
    simp only [step]
    split
    · exact inv
    · rename_i told here
      refine ⟨inv.sound, fun follower member => ?_⟩
      obtain ⟨old, known, rfl⟩ := List.mem_map.mp member
      exact ((inv.faithful old known).notify here).among _
  | cutOff i =>
    simp only [step]
    split
    · exact inv
    · rename_i told here
      exact ⟨inv.sound, fun follower member => (inv.faithful follower member).cutOff here⟩
  | close i => exact inv.modify i fun follower faithful => faithful.close

end Followers

section Progress

variable {s : System} {follower : Follower}

theorem advance_rows (db : RunDatabase) (follower : Follower) (rows : List AgentRunEvent)
    (here : follower.phase = .yielding rows) :
    ∃ sequence, (Follower.advance db)^[rows.length + 1] follower =
      { follower with sequence := sequence, yielded := follower.yielded ++ rows, phase := .reading } := by
  induction rows generalizing follower with
  | nil =>
    refine ⟨follower.sequence, ?_⟩
    rw [List.length_nil, Nat.zero_add, Function.iterate_one, Follower.advance, here, List.append_nil]
  | cons row rest ih =>
    have first : follower.advance db = { follower with
        sequence := row.sequence, yielded := follower.yielded ++ [row], phase := .yielding rest } := by
      rw [Follower.advance, here]
    obtain ⟨sequence, done⟩ := ih { follower with
      sequence := row.sequence, yielded := follower.yielded ++ [row], phase := .yielding rest } rfl
    refine ⟨sequence, ?_⟩
    rw [List.length_cons, Function.iterate_succ_apply, first, done]
    simp

theorem Faithful.iterate (faithful : Faithful s follower) (sound : Sound s.db) (n : Nat) :
    Faithful s ((Follower.advance s.db)^[n] follower) := by
  induction n with
  | zero => exact faithful
  | succ n ih =>
    rw [Function.iterate_succ_apply']
    exact ih.advance sound

/-- A follower that reads and is resumed often enough hands out all there is, and then waits or ends as its run says. -/
theorem Faithful.catches_up (faithful : Faithful s follower) (sound : Sound s.db) (reading : follower.phase = .reading) :
    ∃ n ≤ (wanted s.db follower.runId follower.afterSequence).length - follower.yielded.length + 3, ∃ sequence,
      (Follower.advance s.db)^[n] follower = { follower with
        sequence := sequence
        yielded := wanted s.db follower.runId follower.afterSequence
        phase := atEnd s.db follower.runId } := by
  have whole := faithful.unread sound
  have first : follower.advance s.db = { follower with phase := follower.read s.db } := by
    rw [Follower.advance, reading]
  cases unread : eventRows s.db follower.runId follower.sequence with
  | nil =>
    rw [unread, List.append_nil] at whole
    refine ⟨1, by omega, follower.sequence, ?_⟩
    rw [Function.iterate_one, first, Follower.read, unread, whole]
  | cons row rest =>
    rw [unread] at whole
    have counted := congrArg List.length whole
    have second : follower.read s.db = .yielding (row :: rest) := by rw [Follower.read, unread]
    rw [second] at first
    obtain ⟨sequence, done⟩ :=
      advance_rows s.db { follower with phase := .yielding (row :: rest) } (row :: rest) rfl
    have again : (Follower.advance s.db)^[(row :: rest).length + 2] follower = { follower with
        sequence := sequence, yielded := follower.yielded ++ row :: rest, phase := .reading } := by
      rw [Function.iterate_succ_apply, first, done]
    -- what it reads then is nothing, since it has handed out everything
    have complete := (faithful.iterate sound ((row :: rest).length + 2)).unread sound
    rw [again] at complete
    dsimp only at complete
    have nothing : eventRows s.db follower.runId sequence = [] := by
      rw [whole] at complete
      exact List.self_eq_append_right.mp complete
    refine ⟨(row :: rest).length + 3, ?_, sequence, ?_⟩
    · rw [List.length_append] at counted
      omega
    · rw [Function.iterate_succ_apply', again, Follower.advance]
      dsimp only
      rw [Follower.read]
      dsimp only
      rw [nothing, whole]

theorem exec_advances (s : System) (i n : Nat) :
    Run.exec step s (List.replicate n (.advance i)) =
      { s with followers := s.followers.modify i (Follower.advance s.db)^[n] } := by
  induction n generalizing s with
  | zero => simp [List.modify_id]
  | succ n ih =>
    rw [List.replicate_succ, Run.exec_cons, ih]
    simp only [step, List.modify_modify_eq, Function.iterate_succ]

/-- In every reachable state: when the consumer of a follower that reads asks on, and the service is idle in the meantime,
the follower hands out every event of its run behind its sequence and then waits, or ends, as the run says. -/
theorem followers_catch_up (ops : List Op) (i : Nat) (follower : Follower)
    (there : (Run.exec step .start ops).followers[i]? = some follower) (reading : follower.phase = .reading) :
    let s := Run.exec step .start ops
    ∃ n ≤ (wanted s.db follower.runId follower.afterSequence).length - follower.yielded.length + 3, ∃ later,
      (Run.exec step s (List.replicate n (.advance i))).followers[i]? = some later ∧
      later.yielded = wanted s.db follower.runId follower.afterSequence ∧ later.phase = atEnd s.db follower.runId := by
  intro s
  have inv : Inv s := @Run.exec_invariant System Op step Inv (fun _ op inv => step_inv inv op) .start inv_start ops
  have faithful := inv.faithful follower (List.mem_of_getElem? there)
  obtain ⟨n, few, sequence, done⟩ := faithful.catches_up inv.sound reading
  refine ⟨n, few, { follower with
    sequence := sequence
    yielded := wanted s.db follower.runId follower.afterSequence
    phase := atEnd s.db follower.runId }, ?_, rfl, rfl⟩
  rw [exec_advances, List.getElem?_modify, there]
  simp only [if_true]
  exact congrArg some done

end Progress

section Samples

def sampleInsert : InsertCall :=
  ⟨"r", "p", ⟨"t", "a", "h", "web", "owner", "c", "", "owner", 1, "owner"⟩, "hi", [], none, "d", 0, "", "plan", "1"⟩

/-- A follower of a run that has not logged anything yet; the run starts, and it is told so. -/
def sampleOps : List Op := [
  .write (.insertRun sampleInsert), .follow "r" 0, .advance 0, .write (.appendEvent "r" .runStarted [] "2"), .notify 0,
  .write (.finish "r" .cancelled "3")]

def sampleFollower : Follower := ⟨"r", 0, 0, [], .reading⟩

theorem followers_catch_up_sample : ∃ n, ∃ later,
    (Run.exec step (Run.exec step .start sampleOps) (List.replicate n (.advance 0))).followers[0]? = some later ∧
      later.yielded.map AgentRunEvent.type = [.runStarted, .runFailed] ∧ later.phase = .ended .cancelled := by
  have there : (Run.exec step .start sampleOps).followers[0]? = some sampleFollower := by decide +kernel
  obtain ⟨n, _, later, found, all, stands⟩ := followers_catch_up sampleOps 0 sampleFollower there rfl
  refine ⟨n, later, found, ?_, ?_⟩
  · rw [all]
    decide +kernel
  · rw [stands]
    decide +kernel

end Samples

end OpenTulpa.DeepAgent.Following
