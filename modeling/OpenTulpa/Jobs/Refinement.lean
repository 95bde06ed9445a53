import OpenTulpa.Jobs.Log

/-! The store takes every job along its moves. Each statement of a transaction acts on the
entry of one key, the operations compose those actions, and a run of operations by any
number of workers therefore keeps every row a refinement of its log. -/

namespace OpenTulpa.Jobs.Refinement

open Library Text Outcome Store Log

inductive Op where
  | create (request : CreateRequest) (now : Nat)
  | claim (key : JobKey) (now : Nat)
  | progress (key : JobKey) (payload : JsonObject) (now : Nat)
  | complete (key : JobKey) (result : JobHandlerResult) (newShortId : Nat → String) (now : Nat)
  | fail (key : JobKey) (error : JobError) (now : Nat)
  | requestCancel (key : JobKey) (now : Nat)
  | markCancelled (key : JobKey) (reason : String) (now : Nat)
  | requeueInterrupted (key : JobKey) (now : Nat)
  | recover (now : Nat)

def step (store : JobStore) : Op → JobStore
  | .create request now => committed store (create store request now)
  | .claim key now => committed store (claim store key now)
  | .progress key payload now => (progress store key payload now).toOption.getD store
  | .complete key result newShortId now => committed store (complete store key result newShortId now)
  | .fail key error now => committed store (fail store key error now)
  | .requestCancel key now => committed store (requestCancel store key now)
  | .markCancelled key reason now => committed store (markCancelled store key reason now)
  | .requeueInterrupted key now => committed store (requeueInterrupted store key now)
  | .recover now => (recover store now).1

/-- Only the entry of `key` changes, by `change`. -/
structure Acts (key : JobKey) (change : Entry → Entry) (before after : JobStore) : Prop where
  entries : ∀ other, entry after other = if other = key then change (entry before other) else entry before other
  names : after.jobs.map Job.key = before.jobs.map Job.key

theorem Acts.trans {key : JobKey} {first second : Entry → Entry} {before middle after : JobStore}
    (left : Acts key first before middle) (right : Acts key second middle after) :
    Acts key (second ∘ first) before after := by
  refine ⟨fun other => ?_, right.names.trans left.names⟩
  rw [right.entries other, left.entries other]
  split <;> rfl

theorem Acts.self {key : JobKey} {change : Entry → Entry} {before after : JobStore}
    (acts : Acts key change before after) : entry after key = change (entry before key) := by
  simpa using acts.entries key

def addEvent (key : JobKey) (eventType : JobEventType) (payload : JsonObject) (now : Nat) (entry : Entry) :
    Entry :=
  { entry with events := logged key entry.events eventType payload now }

def changeJob (allowed : JobStatus → Bool) (change : Job → Job) (entry : Entry) : Entry :=
  { entry with job := entry.job.map fun row => if allowed row.status then change row else row }

theorem acts_appendEvent (store : JobStore) (key : JobKey) (eventType : JobEventType) (payload : JsonObject)
    (now : Nat) : Acts key (addEvent key eventType payload now) store
      (store.appendEvent key eventType payload now) := by
  refine ⟨fun other => ?_, rfl⟩
  by_cases same : other = key
  · subst same
    simp [entry, addEvent, logged, JobStore.appendEvent, JobStore.job, JobStore.eventsOf,
      JobStore.artifactsOf, JobEvent.key]
  · have different : (key.1, key.2) ≠ other := fun equal => same equal.symm
    simp [entry, same, different, JobStore.appendEvent, JobStore.job, JobStore.eventsOf,
      JobStore.artifactsOf, JobEvent.key]

@[simp] theorem eventsOf_setJob (store : JobStore) (key other : JobKey) (allowed : JobStatus → Bool)
    (change : Job → Job) : (store.setJob key allowed change).eventsOf other = store.eventsOf other := rfl

@[simp] theorem artifactsOf_setJob (store : JobStore) (key other : JobKey) (allowed : JobStatus → Bool)
    (change : Job → Job) : (store.setJob key allowed change).artifactsOf other = store.artifactsOf other := rfl

theorem acts_setJob (store : JobStore) (key : JobKey) (allowed : JobStatus → Bool) (change : Job → Job)
    (kept : ∀ job, (change job).key = job.key) :
    Acts key (changeJob allowed change) store (store.setJob key allowed change) := by
  refine ⟨fun other => ?_, Rows.map_update Job.key (fun job _ => kept job) store.jobs⟩
  have found : (store.setJob key allowed change).job other = (store.job other).map
      fun row => if row.key == key && allowed row.status then change row else row :=
    Rows.find_update _ _ _ _ fun row _ => by rw [kept]
  have named : ∀ row, store.job other = some row → row.key = other := by
    intro row present
    simpa using List.find?_some present
  cases present : store.job other with
  | none => simp [entry, changeJob, found, present]
  | some row =>
    by_cases same : other = key
    · subst same
      simp [entry, changeJob, found, present, named row present]
    · simp [entry, found, present, named row present, same]

theorem acts_artifact (store : JobStore) (artifact : JobArtifact) :
    Acts artifact.key (fun entry => { entry with artifacts := entry.artifacts ++ [artifact] }) store
      { store with artifacts := store.artifacts ++ [artifact] } := by
  refine ⟨fun other => ?_, rfl⟩
  by_cases same : other = artifact.key
  · simp [entry, same, JobStore.job, JobStore.eventsOf, JobStore.artifactsOf]
  · have different : artifact.key ≠ other := fun equal => same equal.symm
    simp [entry, same, different, JobStore.job, JobStore.eventsOf, JobStore.artifactsOf]

theorem acts_set_append (store : JobStore) (key : JobKey) (allowed : JobStatus → Bool) (change : Job → Job)
    (kept : ∀ job, (change job).key = job.key) (eventType : JobEventType) (payload : JsonObject) (now : Nat) :
    Acts key (addEvent key eventType payload now ∘ changeJob allowed change) store
      ((store.setJob key allowed change).appendEvent key eventType payload now) :=
  (acts_setJob store key allowed change kept).trans (acts_appendEvent _ key eventType payload now)

/-- Every job stays as it is or moves, and the primary key is kept. -/
structure Moved (before after : JobStore) : Prop where
  entries : ∀ key, entry after key = entry before key ∨ Move key (entry before key) (entry after key)
  names : (before.jobs.map Job.key).Nodup → (after.jobs.map Job.key).Nodup

theorem Moved.refl (store : JobStore) : Moved store store := ⟨fun _ => Or.inl rfl, id⟩

theorem Acts.moved {key : JobKey} {change : Entry → Entry} {before after : JobStore}
    (acts : Acts key change before after) (move : Move key (entry before key) (change (entry before key))) :
    Moved before after := by
  refine ⟨fun other => ?_, fun distinct => by rw [acts.names]; exact distinct⟩
  by_cases same : other = key
  · subst same
    rw [acts.self]
    exact Or.inr move
  · left
    simp [acts.entries other, same]

theorem entry_of_job {store : JobStore} {key : JobKey} {row : Job} (present : store.job key = some row) :
    entry store key = ⟨some row, store.eventsOf key, store.artifactsOf key⟩ := by
  rw [entry, present]

theorem cancelInConnection_moved {store : JobStore} {key : JobKey} {row : Job}
    (present : store.job key = some row) (live : row.status.terminal = false) (reason : String) (now : Nat) :
    Moved store (store.cancelInConnection key reason now) := by
  refine (acts_set_append store key _ (cancelled now) (fun _ => rfl) _ _ now).moved ?_
  rw [entry_of_job present]
  simpa [addEvent, changeJob, live] using Move.cancelled live [("reason", reason)] now

theorem get_of_some {store : JobStore} {key : JobKey} {row : Job} (present : store.job key = some row) :
    store.get key = .ok row := by
  rw [JobStore.get, present]

theorem get_of_none {store : JobStore} {key : JobKey} (absent : store.job key = none) :
    store.get key = .error (.jobNotFound key.2) := by
  rw [JobStore.get, absent]

/-- The row read back after the commit does not matter to the store. -/
theorem Moved.committed_get {store stored : JobStore} (moved : Moved store stored) (key : JobKey) :
    Moved store (committed store (do return (stored, ← stored.get key))) := by
  cases stored.get key with
  | error error => exact .refl store
  | ok job => exact moved

theorem create_moved {store : JobStore} (sound : ∀ key, Sound (entry store key)) (request : CreateRequest)
    (now : Nat) : Moved store (committed store (create store request now)) := by
  unfold create
  split
  · split <;> exact .refl store
  · simp only
    split
    · exact .refl store
    · rename_i free
      have absent : store.job (request.job now).key = none := by
        simpa [JobStore.job] using free
      have vacant := (sound (request.job now).key).vacant absent
      refine ⟨fun key => ?_, ?_⟩
      swap
      · intro distinct
        simp only [committed_ok, JobStore.appendEvent, List.map_append, List.map_cons, List.map_nil]
        refine List.nodup_append.mpr ⟨distinct, by simp, ?_⟩
        intro first known second last equal
        obtain ⟨row, member, rfl⟩ := List.mem_map.mp known
        exact free (List.any_eq_true.mpr ⟨row, member, by simpa using equal.trans (by simpa using last)⟩)
      rw [committed_ok, (acts_appendEvent _ _ _ _ now).entries]
      by_cases same : key = (request.job now).key
      · right
        subst same
        have inserted : entry { store with jobs := store.jobs ++ [request.job now] } (request.job now).key =
            ⟨some (request.job now), [], []⟩ := by
          simp only [Entry.vacant, entry, JobStore.job, JobStore.eventsOf, JobStore.artifactsOf,
            Entry.mk.injEq] at vacant
          simp [entry, JobStore.job, JobStore.eventsOf, JobStore.artifactsOf, vacant]
        rw [if_pos rfl, inserted, vacant]
        exact .created request now rfl
      · left
        have different : (request.job now).key ≠ key := fun equal => same equal.symm
        simp [same, entry, JobStore.job, JobStore.eventsOf, JobStore.artifactsOf, different]

theorem claim_moved (store : JobStore) (key : JobKey) (now : Nat) :
    Moved store (committed store (claim store key now)) := by
  cases present : store.job key with
  | none => simpa [claim, get_of_none present] using Moved.refl store
  | some row =>
    by_cases queued : row.status = .queued
    · simp only [claim, get_of_some present, ok_bind, queued, ne_eq, not_true_eq_false, if_false]
      cases (store.setJob key (· == .queued) (claimed now)).get key with
      | error error => exact .refl store
      | ok job =>
        refine (acts_set_append store key _ (claimed now) (fun _ => rfl) _ _ now).moved ?_
        rw [entry_of_job present]
        simpa [addEvent, changeJob, queued] using Move.claimed queued [("attempt", toString job.attemptCount)] now
    · simpa [claim, get_of_some present, queued] using Moved.refl store

theorem progress_moved (store : JobStore) (key : JobKey) (payload : JsonObject) (now : Nat) :
    Moved store ((progress store key payload now).toOption.getD store) := by
  cases present : store.job key with
  | none => simpa [progress, get_of_none present, Except.toOption] using Moved.refl store
  | some row =>
    by_cases running : row.status = .running
    · simp only [progress, get_of_some present, ok_bind, running, ne_eq, not_true_eq_false, if_false]
      refine (acts_appendEvent store key _ _ now).moved ?_
      rw [entry_of_job present]
      exact Move.progressed running payload now
    · simpa [progress, get_of_some present, running, Except.toOption] using Moved.refl store

theorem fail_moved (store : JobStore) (key : JobKey) (error : JobError) (now : Nat) :
    Moved store (committed store (fail store key error now)) := by
  cases present : store.job key with
  | none => simpa [fail, get_of_none present] using Moved.refl store
  | some row =>
    simp only [fail, get_of_some present, ok_bind]
    apply Moved.committed_get
    split
    · rename_i asked
      exact cancelInConnection_moved present (by rw [asked]; rfl) _ now
    · split
      · rename_i running
        refine (acts_set_append store key _ (failed error now) (fun _ => rfl) _ _ now).moved ?_
        rw [entry_of_job present]
        simpa [addEvent, changeJob, running] using Move.failed running error now
      · exact .refl store

theorem requestCancel_moved (store : JobStore) (key : JobKey) (now : Nat) :
    Moved store (committed store (requestCancel store key now)) := by
  cases present : store.job key with
  | none => simpa [requestCancel, get_of_none present] using Moved.refl store
  | some row =>
    simp only [requestCancel, get_of_some present, ok_bind]
    split
    · exact .refl store
    · rename_i live
      obtain ⟨live, unasked⟩ := not_or.mp live
      apply Moved.committed_get
      have asked := acts_appendEvent store key .cancelRequested [] now
      split
      · rename_i queued
        refine (asked.trans (acts_set_append _ key _ (cancelled now) (fun _ => rfl) _ _ now)).moved ?_
        rw [entry_of_job present]
        simpa [addEvent, changeJob, queued, JobStatus.terminal] using
          Move.cancelledBeforeStart queued [("reason", "cancelled_before_start")] now
      · rename_i unqueued
        have running : row.status = .running := by
          cases status : row.status <;> simp_all [JobStatus.terminal]
        refine (asked.trans (acts_setJob _ key _ (cancelRequested now) (fun _ => rfl))).moved ?_
        rw [entry_of_job present]
        simpa [addEvent, changeJob, running] using Move.cancelRequested running now

theorem markCancelled_moved (store : JobStore) (key : JobKey) (reason : String) (now : Nat) :
    Moved store (committed store (markCancelled store key reason now)) := by
  cases present : store.job key with
  | none => simpa [markCancelled, get_of_none present] using Moved.refl store
  | some row =>
    simp only [markCancelled, get_of_some present, ok_bind]
    apply Moved.committed_get
    split
    · exact .refl store
    · rename_i live
      exact cancelInConnection_moved present (by simpa using live) reason now

theorem requeueInterrupted_moved (store : JobStore) (key : JobKey) (now : Nat) :
    Moved store (committed store (requeueInterrupted store key now)) := by
  cases present : store.job key with
  | none => simpa [requeueInterrupted, get_of_none present] using Moved.refl store
  | some row =>
    simp only [requeueInterrupted, get_of_some present, ok_bind]
    apply Moved.committed_get
    split
    · rename_i asked
      exact cancelInConnection_moved present (by rw [asked]; rfl) _ now
    · split
      · rename_i running
        refine (acts_set_append store key _ (requeued now) (fun _ => rfl) _ _ now).moved ?_
        rw [entry_of_job present]
        simpa [addEvent, changeJob, running, requeued] using
          Move.recovered running [("reason", "service_shutdown")] now row.finishedAt (Or.inr rfl)
      · exact .refl store

def addArtifacts (key : JobKey) (now : Nat) (written : List JobArtifact) (entry : Entry) : Entry :=
  { entry with
    events := announce key now entry.events written
    artifacts := entry.artifacts ++ written }

/-- The loop adds the artifacts with their announcements, or a drawn id was taken. -/
theorem writeArtifacts_acts {key : JobKey} {newShortId : Nat → String} {now drawn : Nat}
    {writes : List JobArtifactWrite} {store stored : JobStore}
    (distinct : ((store.artifactsOf key).map JobArtifact.id).Nodup)
    (done : writeArtifacts key newShortId now drawn writes store = .ok stored) :
    ∃ written, Acts key (addArtifacts key now written) store stored ∧
      ((store.artifactsOf key ++ written).map JobArtifact.id).Nodup := by
  induction writes generalizing drawn store with
  | nil =>
    cases done
    refine ⟨[], ⟨fun other => ?_, rfl⟩, by simpa using distinct⟩
    split <;> simp [addArtifacts, announce]
  | cons write writes ih =>
    simp only [writeArtifacts] at done
    split at done
    · cases done
    · rename_i free
      let artifact := write.row key (newShortId drawn) now
      have inserted : Acts key (fun entry => { entry with artifacts := entry.artifacts ++ [artifact] }) store
          { store with artifacts := store.artifacts ++ [artifact] } := acts_artifact store artifact
      have logs := inserted.trans (acts_appendEvent _ key .artifactReady artifact.announcement now)
      have held := congrArg Entry.artifacts logs.self
      change JobStore.artifactsOf _ key = store.artifactsOf key ++ [artifact] at held
      have fresh : ∀ other ∈ store.artifactsOf key, other.id ≠ artifact.id := by
        intro other member same
        obtain ⟨stored, named⟩ := List.mem_filter.mp member
        exact free (List.any_eq_true.mpr ⟨other, stored, by simpa [named] using same⟩)
      have widened : ((store.artifactsOf key ++ [artifact]).map JobArtifact.id).Nodup := by
        simp only [List.map_append, List.map_cons, List.map_nil]
        refine List.nodup_append.mpr ⟨distinct, by simp, ?_⟩
        intro first known second last equal
        obtain ⟨other, member, rfl⟩ := List.mem_map.mp known
        exact fresh other member (equal.trans (by simpa using last))
      obtain ⟨written, acts, rest⟩ := ih (by rw [held]; exact widened) done
      have whole := logs.trans acts
      refine ⟨artifact :: written, ⟨fun other => ?_, whole.names⟩, ?_⟩
      · rw [whole.entries other]
        split <;> simp [addArtifacts, addEvent, announce]
      · rw [held] at rest
        simpa using rest

theorem complete_moved {store : JobStore} {key : JobKey}
    (distinct : ((store.artifactsOf key).map JobArtifact.id).Nodup) (result : JobHandlerResult)
    (newShortId : Nat → String) (now : Nat) :
    Moved store (committed store (complete store key result newShortId now)) := by
  cases present : store.job key with
  | none => simpa [complete, get_of_none present] using Moved.refl store
  | some row =>
    simp only [complete, get_of_some present, ok_bind]
    split
    · rename_i asked
      exact (cancelInConnection_moved present (by rw [asked]; rfl) _ now).committed_get key
    · split
      · exact .refl store
      · rename_i running
        replace running : row.status = .running := by simpa using running
        cases loop : writeArtifacts key newShortId now 0 result.artifacts store with
        | error error => exact .refl store
        | ok stored =>
          obtain ⟨written, acts, unique⟩ := writeArtifacts_acts distinct loop
          rw [ok_bind]
          apply Moved.committed_get
          have whole := acts.trans
            (acts_set_append stored key (· == .running) (succeeded result now) (fun _ => rfl) .completed
              result.payload now)
          refine whole.moved ?_
          rw [entry_of_job present]
          simpa [addArtifacts, addEvent, changeJob, running] using
            Move.completed running result written unique now

/-- One round of the loop in `recover` acts on its own row only. -/
theorem recoverRow_acts (now : Nat) (row : Job) : ∃ change, (∀ store, Acts row.key change store (recoverRow now store row)) ∧
    ∀ entry, entry.job = some row → change entry = entry ∨ Move row.key entry (change entry) := by
  cases status : row.status with
  | cancelRequested =>
    refine ⟨_, fun store => by
      simp only [recoverRow, status]
      exact acts_set_append store row.key _ (cancelled now) (fun _ => rfl) _ _ now, ?_⟩
    rintro ⟨_, events, artifacts⟩ rfl
    right
    simpa [addEvent, changeJob, status] using
      Move.cancelled (by rw [status]; rfl) [("reason", "restart_after_cancel_request")] now
  | running =>
    refine ⟨_, fun store => by
      simp only [recoverRow, status]
      exact acts_set_append store row.key _ (fun job => { requeued now job with finishedAt := none })
        (fun _ => rfl) _ _ now, ?_⟩
    rintro ⟨_, events, artifacts⟩ rfl
    right
    simpa [addEvent, changeJob, status] using
      Move.recovered status [("reason", "service_restart")] now none (Or.inl rfl)
  | queued | succeeded | failed | cancelled =>
    refine ⟨id, fun store => ⟨fun other => by simp [recoverRow, status], by simp [recoverRow, status]⟩, ?_⟩
    exact fun _ _ => Or.inl rfl

theorem recover_other (now : Nat) (rows : List Job) (store : JobStore) (key : JobKey)
    (absent : key ∉ rows.map Job.key) : entry (rows.foldl (recoverRow now) store) key = entry store key := by
  induction rows generalizing store with
  | nil => rfl
  | cons row rows ih =>
    simp only [List.map_cons, List.mem_cons, not_or] at absent
    obtain ⟨change, acts, _⟩ := recoverRow_acts now row
    rw [List.foldl_cons, ih (recoverRow now store row) absent.2, (acts store).entries key, if_neg absent.1]

theorem recoverRows_moved (now : Nat) (rows : List Job) (store : JobStore)
    (distinct : (rows.map Job.key).Nodup) (present : ∀ row ∈ rows, store.job row.key = some row) :
    Moved store (rows.foldl (recoverRow now) store) := by
  induction rows generalizing store with
  | nil => exact .refl store
  | cons row rows ih =>
    simp only [List.map_cons, List.nodup_cons] at distinct
    obtain ⟨change, acts, moves⟩ := recoverRow_acts now row
    have head := acts store
    have rest := ih (recoverRow now store row) distinct.2 (by
      intro other member
      have different : other.key ≠ row.key := fun same => distinct.1 (same ▸ List.mem_map_of_mem member)
      have kept := head.entries other.key
      rw [if_neg different] at kept
      exact (congrArg Entry.job kept).trans (present other (List.mem_cons_of_mem row member)))
    refine ⟨fun key => ?_, fun names => rest.names (by rw [head.names]; exact names)⟩
    rw [List.foldl_cons]
    by_cases same : key = row.key
    · subst same
      rw [recover_other now rows _ _ distinct.1, head.self]
      exact moves _ (present row List.mem_cons_self)
    · have kept := head.entries key
      rw [if_neg same] at kept
      simpa [kept] using rest.entries key

theorem recover_moved {store : JobStore} (distinct : (store.jobs.map Job.key).Nodup) (now : Nat) :
    Moved store (recover store now).1 := by
  have order : store.recoverable.Perm (store.jobs.filter fun row => !row.status.terminal) :=
    List.mergeSort_perm _ _
  apply recoverRows_moved
  · rw [(order.map Job.key).nodup_iff]
    exact distinct.sublist (List.filter_sublist.map Job.key)
  · intro row member
    exact Rows.find_of_mem distinct (List.mem_of_mem_filter (order.mem_iff.mp member))

structure Consistent (store : JobStore) : Prop where
  distinct : (store.jobs.map Job.key).Nodup
  sound : ∀ key, Sound (entry store key)

theorem Consistent.artifacts_distinct {store : JobStore} (consistent : Consistent store) (key : JobKey) :
    ((store.artifactsOf key).map JobArtifact.id).Nodup := by
  cases present : store.job key with
  | none =>
    have vacant := congrArg Entry.artifacts ((consistent.sound key).vacant present)
    change store.artifactsOf key = [] at vacant
    simp [vacant]
  | some job => exact ((consistent.sound key).refines job present).distinct

theorem step_moved {store : JobStore} (consistent : Consistent store) (op : Op) : Moved store (step store op) := by
  cases op with
  | create request now => exact create_moved consistent.sound request now
  | claim key now => exact claim_moved store key now
  | progress key payload now => exact progress_moved store key payload now
  | complete key result newShortId now =>
    exact complete_moved (consistent.artifacts_distinct key) result newShortId now
  | fail key error now => exact fail_moved store key error now
  | requestCancel key now => exact requestCancel_moved store key now
  | markCancelled key reason now => exact markCancelled_moved store key reason now
  | requeueInterrupted key now => exact requeueInterrupted_moved store key now
  | recover now => exact recover_moved consistent.distinct now

theorem step_consistent (store : JobStore) (op : Op) (consistent : Consistent store) :
    Consistent (step store op) := by
  have moved := step_moved consistent op
  refine ⟨moved.names consistent.distinct, fun key => ?_⟩
  rcases moved.entries key with same | move
  · rw [same]
    exact consistent.sound key
  · exact move.sound (consistent.sound key)

theorem run_consistent (ops : List Op) : Consistent (Run.exec step .empty ops) := by
  have initial : Consistent .empty :=
    ⟨List.nodup_nil, fun _ => ⟨fun _ => rfl, fun _ present => by cases present⟩⟩
  exact Run.exec_invariant step_consistent initial ops

theorem run_ended {store : JobStore} (consistent : Consistent store) {key : JobKey} {job : Job}
    (present : store.job key = some job) (ended : job.status.terminal) (ops : List Op) :
    entry (Run.exec step store ops) key = entry store key := by
  induction ops generalizing store with
  | nil => rfl
  | cons op ops ih =>
    rcases (step_moved consistent op).entries key with same | move
    · rw [Run.exec_cons, ih (step_consistent store op consistent)
        ((congrArg Entry.job same).trans present), same]
    · simp [move.live present] at ended

theorem job_row_refines_log (ops : List Op) :
    let store := Run.exec step .empty ops
    (∀ event ∈ store.events, ∃ job ∈ store.jobs, job.key = event.key) ∧
      (∀ artifact ∈ store.artifacts, ∃ job ∈ store.jobs, job.key = artifact.key) ∧
      ∀ job ∈ store.jobs, Refines job (store.eventsOf job.key) (store.artifactsOf job.key) ∧
        (job.status.terminal → ∀ later, let after := Run.exec step store later
          after.job job.key = some job ∧ after.eventsOf job.key = store.eventsOf job.key ∧
            after.artifactsOf job.key = store.artifactsOf job.key) := by
  intro store
  have consistent : Consistent store := run_consistent ops
  -- a key without a row has neither events nor artifacts
  have owned : ∀ key, store.eventsOf key ≠ [] ∨ store.artifactsOf key ≠ [] → ∃ job ∈ store.jobs, job.key = key := by
    intro key held
    cases present : store.job key with
    | none =>
      have vacant := (consistent.sound key).vacant present
      simp only [entry, Entry.vacant, Entry.mk.injEq] at vacant
      simp [vacant] at held
    | some job => exact ⟨job, List.mem_of_find?_eq_some present, by simpa using List.find?_some present⟩
  refine ⟨?_, ?_, ?_⟩
  · intro event member
    exact owned event.key (Or.inl (List.ne_nil_of_mem (List.mem_filter.mpr ⟨member, by simp⟩)))
  · intro artifact member
    exact owned artifact.key (Or.inr (List.ne_nil_of_mem (List.mem_filter.mpr ⟨member, by simp⟩)))
  · intro job member
    have present : store.job job.key = some job := Rows.find_of_mem consistent.distinct member
    refine ⟨(consistent.sound job.key).refines job present, fun ended later => ?_⟩
    have same := run_ended consistent present ended later
    simp only [entry, Entry.mk.injEq, present] at same
    exact same

end OpenTulpa.Jobs.Refinement
