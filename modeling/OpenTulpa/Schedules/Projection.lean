import OpenTulpa.Schedules.Updatable
import OpenTulpa.Specs.TriggerPayloads

/-! A schedule is kept as a trigger and read back from it. The trigger names the kind of the action in a label, so that its text
is never taken for another one, and its payload is trimmed no further than the schedule was. -/

namespace OpenTulpa.Schedules.Projection

open Library Outcome Text Specs.Models Specs.Store
open Service hiding Op step
open Specs.Chains hiding Op step Sound sound_empty
open Specs.TriggerPayloads hiding activate deactivate

section Models

variable (rules : TimeRules)

/-- The `timezone` of a schedule -/
def checkedTimezone (value : String) : Option String :=
  let timezone := strip (trim value)
  if (trim value).isEmpty || timezone.isEmpty then none else if rules.isZone timezone then some timezone else none

def checkedTrigger : ScheduleTrigger → Option ScheduleTrigger
  | .once runAt timezone => (checkedTimezone rules timezone).map (.once runAt)
  | .cron expression timezone => do
    let timezone ← checkedTimezone rules timezone
    if (trim expression).isEmpty || !rules.isCrontab (trim expression) timezone then none
    else some (.cron (trim expression) timezone)

/-- A `str` field with `min_length` 1 -/
def filledText (value : String) : Option String := if (trim value).isEmpty then none else some (trim value)

def checkedAction : ScheduleAction → Option ScheduleAction
  | .reminder message => (filledText message).map .reminder
  | .agentJob instruction => (filledText instruction).map .agentJob

/-- The construction of a `ScheduleWrite` -/
def checkedSchedule (write : ScheduleWrite) : Option ScheduleWrite := do
  let name ← boundedText 200 write.name
  let trigger ← checkedTrigger rules write.trigger
  let action ← checkedAction write.action
  some { write with name, trigger, action }

/-- A write that was made: it is as its checks leave it. -/
structure CheckedSchedule where
  write : ScheduleWrite
  checked : checkedSchedule rules write = some write

structure Schedule extends ScheduleWrite where
  id : String
  tenantId : String
  revision : Nat
  createdAt : Nat
  updatedAt : Nat
  deriving DecidableEq

/-- What the facade raises besides its own errors: those of the store, and `ValueError`s. -/
inductive FacadeError where
  | schedule (error : ScheduleError)
  | conflict (message : String)
  | spec (error : SpecError)
  | value (message : String)
  | validation (model : String)
  | resolve
  deriving DecidableEq

end Models

section Facade

variable (rules : TimeRules)

/-- `text.removeprefix(front)` of a text that starts with it -/
def afterPrefix (front text : String) : Option String :=
  if front.toList.isPrefixOf text.toList then some (String.ofList (text.toList.drop front.toList.length)) else none

def projectTrigger : TriggerSource → Except FacadeError ScheduleTrigger
  | .atTrigger runAt timezone =>
    match checkedTrigger rules (.once runAt timezone) with
    | none => .error (.validation "At")
    | some trigger => .ok trigger
  | .cronTrigger expression timezone =>
    match checkedTrigger rules (.cron expression timezone) with
    | none => .error (.validation "Cron")
    | some trigger => .ok trigger
  | _ => .error (.value "schedule TriggerSpec has an unsupported source")

/-- A trigger without the label is taken for a reminder when its text begins as one. -/
def projectAction (write : TriggerSpecWrite) : Except FacadeError ScheduleAction :=
  let actionKind := (write.labels.lookup "schedule_action").getD ""
  let message := afterPrefix reminderPrefix write.instruction
  if actionKind = "reminder" ∨ actionKind = "" ∧ message.isSome then
    match message with
    | none => .error (.value "schedule reminder instruction is malformed")
    | some message =>
      match checkedAction (.reminder message) with
      | none => .error (.validation "Reminder")
      | some action => .ok action
  else if actionKind = "" ∨ actionKind = "agent_job" then
    match checkedAction (.agentJob write.instruction) with
    | none => .error (.validation "AgentJob")
    | some action => .ok action
  else .error (.value "schedule action kind is unsupported")

/-- `list_revisions`, by their numbers -/
def listRevisions (store : PayloadStore) (key : SpecKey) : Except FacadeError (List TriggerRow) :=
  match (store.revisionsOf key).mapM (readRow rules) with
  | none => .error (.spec (.validation "payload_json"))
  | some revisions => .ok revisions

/-- The construction of a `Schedule` -/
def makeSchedule (schedule : Schedule) : Except FacadeError Schedule :=
  match checkedSchedule rules schedule.toScheduleWrite, boundedText 100 schedule.id, boundedText 200 schedule.tenantId with
  | some write, some id, some tenantId =>
    if 1 ≤ schedule.revision then .ok { schedule with toScheduleWrite := write, id, tenantId }
    else .error (.validation "Schedule")
  | _, _, _ => .error (.validation "Schedule")

/-- `_project` -/
def project (store : PayloadStore) (trigger : TriggerRow) : Except FacadeError Schedule :=
  match afterPrefix "schedule:" (trigger.write.sourceKey.getD "") with
  | none => .error (.value "TriggerSpec is not schedule-owned")
  | some scheduleId => do
    let source ← projectTrigger rules trigger.write.source
    let action ← projectAction trigger.write
    let revisions ← listRevisions rules store trigger.key
    let first := (revisions.argmin RevisionRow.revision).getD trigger
    makeSchedule rules
      { name := trigger.write.name, trigger := source, action := action
        notifyOwner := trigger.write.delivery.mode = .owner, enabled := trigger.write.enabled
        id := scheduleId, tenantId := trigger.tenantId, revision := trigger.revision
        createdAt := first.createdAt, updatedAt := trigger.createdAt }

variable (sha256 : HexDigest) (digest : Json → String)

def ofSchedule {α : Type} : Except ScheduleError α → Except FacadeError α
  | .error error => .error (.schedule error)
  | .ok value => .ok value

def readFound : Option (RevisionRow Json) → Except FacadeError (Option TriggerRow)
  | none => .ok none
  | some row =>
    match readRow rules row with
    | none => .error (.spec (.validation "payload_json"))
    | some row => .ok (some row)

/-- `get` -/
def get (store : PayloadStore) (tenantId scheduleId fresh : String) : Except FacadeError (Option Schedule) := do
  let schedule ← ofSchedule (identify sha256 tenantId scheduleId fresh)
  match ← readFound rules (store.getActive schedule.key) with
  | none => .ok none
  | some trigger =>
    if trigger.write.sourceKey ≠ some (sourceKey schedule.scheduleId) then .ok none
    else if !isSchedule trigger.write then .ok none
    else (project rules store trigger).map some

/-- `new_short_id("sch")` -/
structure ShortId where
  text : String
  clean : strip text = text
  filled : text ≠ ""

structure SaveArguments where
  tenantId : String
  scheduleId : String
  write : CheckedSchedule rules
  expectedRevision : Option Int
  actorId : String

/-- What a save meets: a new identifier, the clock, the agent specs and the answer of `resolve_agent_spec`, whether the hook
accepts the trigger, the times of its transactions, and what others do on the store between its calls. -/
structure Meeting where
  fresh : ShortId
  now : Int
  agents : AgentSpecStore
  agentSpec : Option AgentSpecRef
  validateActivation : TriggerSpecWrite → Bool
  createdAt : Nat
  activatedAt : Nat
  afterLatest : List Op
  afterActive : List Op
  afterCreate : List Op
  afterRevision : List Op
  afterActivate : List Op

/-- An answer of the store, with its conflicts as those of the facade. -/
def answered {α : Type} (scheduleId : String) : Except SpecError α → Except FacadeError α
  | .error (.conflict message) => .error (.conflict message)
  | .error (.notFound _) => .error (.schedule (.notFound scheduleId))
  | .error error => .error (.spec error)
  | .ok value => .ok value

def orFail {α : Type} (error : FacadeError) : Option α → Except FacadeError α
  | none => .error error
  | some value => .ok value

def runOps (store : PayloadStore) (ops : List Op) : PayloadStore := Run.exec (step rules digest) store ops

/-- The trigger that a save is about to append, and what it expects. -/
structure Prepared where
  schedule : Identity
  write : TriggerSpecWrite
  expectedRevision : Option Nat
  expectedActiveRevision : Option Nat
  actorId : String

/-- `save` up to its first transaction -/
def prepare (store : PayloadStore) (arguments : SaveArguments rules) (meeting : Meeting) : Except FacadeError Prepared := do
  let schedule ← ofSchedule (identify sha256 arguments.tenantId arguments.scheduleId meeting.fresh.text)
  let actorId ← ofSchedule (safeActorId arguments.actorId)
  let latest ← readFound rules (store.latest schedule.key)
  let active ← readFound rules ((runOps rules digest store meeting.afterLatest).getActive schedule.key)
  let (next, expectedActiveRevision) ← ofSchedule (saveChecks schedule arguments.expectedRevision latest active)
  let agentSpec ← orFail .resolve ((active.map fun row => row.write.agentSpec).or meeting.agentSpec)
  let write := triggerWrite schedule next (retired arguments.write.write meeting.now) agentSpec
  let write ← orFail (.validation "TriggerSpecWrite") (checkedWrite rules write)
  .ok ⟨schedule, write, latest.map RevisionRow.revision, expectedActiveRevision, actorId⟩

/-- The transactions of `save` and what it returns -/
def commit (store : PayloadStore) (meeting : Meeting) (prepared : Prepared) : Except FacadeError (PayloadStore × Schedule) := do
  let schedule := prepared.schedule
  let (store, created) ← answered schedule.scheduleId (createRevision rules digest meeting.agents store
    ⟨schedule.tenantId, schedule.triggerId, prepared.write, asInt prepared.expectedRevision, prepared.actorId⟩ meeting.createdAt)
  let store := runOps rules digest store meeting.afterCreate
  let trigger ← readFound rules (store.getRevision schedule.key created.revision)
  let trigger ← orFail (.schedule (.notFound schedule.scheduleId)) trigger
  if !meeting.validateActivation trigger.write then .error (.value "activation refused")
  else
    let store := runOps rules digest store meeting.afterRevision
    let (store, activated) ← answered schedule.scheduleId (Specs.TriggerPayloads.activate rules store
      ⟨schedule.tenantId, schedule.triggerId, created.revision, asInt prepared.expectedActiveRevision, prepared.actorId⟩
      meeting.activatedAt)
    let store := runOps rules digest store meeting.afterActivate
    let saved ← project rules store activated
    .ok (store, saved)

/-- `save` -/
def save (store : PayloadStore) (arguments : SaveArguments rules) (meeting : Meeting) :
    Except FacadeError (PayloadStore × Schedule) := do
  let prepared ← prepare rules sha256 digest store arguments meeting
  commit rules digest (runOps rules digest (runOps rules digest store meeting.afterLatest) meeting.afterActive) meeting prepared

end Facade

section Projection

variable {rules : TimeRules}

theorem trim_of_boundedText {limit : Nat} {value text : String} (checked : boundedText limit value = some text) :
    text = trim value := by
  unfold boundedText at checked
  split at checked
  · cases checked
  · exact (Option.some.inj checked).symm

theorem filledText_eq {value text : String} (checked : filledText value = some text) : text = trim value ∧ text ≠ "" := by
  unfold filledText at checked
  split at checked
  · cases checked
  · rename_i filled
    obtain rfl := Option.some.inj checked
    exact ⟨rfl, by simpa using filled⟩

theorem checkedTimezone_eq {timezone text : String} (checked : checkedTimezone rules timezone = some text) :
    strip text = text := by
  simp only [checkedTimezone] at checked
  split_ifs at checked
  rw [← Option.some.inj checked, strip_strip]

/-- What the checks of a schedule say of one that they leave as it is. -/
structure Clean (write : ScheduleWrite) : Prop where
  name : trim write.name = write.name
  timezone : ∀ runAt timezone, write.trigger = .once runAt timezone → strip timezone = timezone
  recurrence : ∀ expression timezone, write.trigger = .cron expression timezone →
    trim expression = expression ∧ strip timezone = timezone
  message : ∀ message, write.action = .reminder message → trim message = message ∧ message ≠ ""
  instruction : ∀ instruction, write.action = .agentJob instruction → trim instruction = instruction

theorem checkedSchedule_eq_some {write other : ScheduleWrite} (checked : checkedSchedule rules write = some other) :
    boundedText 200 write.name = some other.name ∧ checkedTrigger rules write.trigger = some other.trigger ∧
      checkedAction write.action = some other.action ∧ other.notifyOwner = write.notifyOwner ∧ other.enabled = write.enabled := by
  obtain ⟨name, named, rest⟩ := Option.bind_eq_some_iff.mp checked
  obtain ⟨trigger, timed, rest⟩ := Option.bind_eq_some_iff.mp rest
  obtain ⟨action, acts, made⟩ := Option.bind_eq_some_iff.mp rest
  obtain rfl := Option.some.inj made
  exact ⟨named, timed, acts, rfl, rfl⟩

theorem CheckedSchedule.clean (arguments : CheckedSchedule rules) : Clean arguments.write := by
  obtain ⟨write, checked⟩ := arguments
  obtain ⟨named, timed, acts, -, -⟩ := checkedSchedule_eq_some checked
  refine ⟨(trim_of_boundedText named).symm, ?_, ?_, ?_, ?_⟩
  · intro runAt timezone same
    rw [same] at timed
    obtain ⟨text, found, equal⟩ := Option.map_eq_some_iff.mp timed
    obtain rfl : text = timezone := (ScheduleTrigger.once.inj equal).2
    exact checkedTimezone_eq found
  · intro expression timezone same
    rw [same] at timed
    obtain ⟨text, found, rest⟩ := Option.bind_eq_some_iff.mp timed
    split at rest
    · cases rest
    · obtain ⟨trimmed, rfl⟩ := ScheduleTrigger.cron.inj (Option.some.inj rest)
      exact ⟨trimmed, checkedTimezone_eq found⟩
  · intro message same
    rw [same] at acts
    obtain ⟨text, found, equal⟩ := Option.map_eq_some_iff.mp acts
    obtain rfl : text = message := ScheduleAction.reminder.inj equal
    exact ⟨(filledText_eq found).1.symm, (filledText_eq found).2⟩
  · intro instruction same
    rw [same] at acts
    obtain ⟨text, found, equal⟩ := Option.map_eq_some_iff.mp acts
    obtain rfl : text = instruction := ScheduleAction.agentJob.inj equal
    exact (filledText_eq found).1.symm

/-- A text that begins with a visible character and ends as a trimmed one does is trimmed. -/
theorem trim_append {front : List Char} {c : Char} {text : String} (visible : isWhite c = false) (trimmed : trim text = text)
    (filled : text ≠ "") : trim (String.ofList (c :: front) ++ text) = String.ofList (c :: front) ++ text := by
  have chars : trimChars isWhite text.toList = text.toList := by simpa [trim] using congrArg String.toList trimmed
  have some_ : text.toList ≠ [] := by simpa using filled
  have ends := List.rdropWhile_eq_self_iff.mp (trimChars_eq_self.mp chars).2 some_
  have whole : trimChars isWhite (c :: front ++ text.toList) = c :: front ++ text.toList := by
    refine trimChars_eq_self.mpr ⟨List.dropWhile_eq_self_iff.mpr ?_, List.rdropWhile_eq_self_iff.mpr ?_⟩
    · simp [visible]
    · intro _
      rw [List.getLast_append_of_ne_nil _ some_]
      exact ends
  rw [trim, String.toList_append, String.toList_ofList, whole, String.ofList_append, String.ofList_toList]

variable {schedule : Identity} {revision : Nat} {write : ScheduleWrite} {agentSpec : AgentSpecRef}

theorem checkedSource_triggerWrite {source : TriggerSource} (clean : Clean write)
    (checked : checkedSource rules (triggerWrite schedule revision write agentSpec).source = some source) :
    source = (triggerWrite schedule revision write agentSpec).source := by
  simp only [triggerWrite] at checked ⊢
  cases trigger : write.trigger with
  | once runAt timezone =>
    have stripped := clean.timezone runAt timezone trigger
    rw [trigger] at checked
    obtain ⟨text, bounded, checked⟩ := Option.bind_eq_some_iff.mp checked
    obtain ⟨zone, found, made⟩ := Option.bind_eq_some_iff.mp checked
    rw [trim_of_boundedText bounded, trim_of_strip stripped, ianaTimezone, stripped] at found
    split at found
    · rw [← Option.some.inj made, ← Option.some.inj found]
    · cases found
  | cron expression timezone =>
    obtain ⟨trimmed, stripped⟩ := clean.recurrence expression timezone trigger
    rw [trigger] at checked
    obtain ⟨fields, bounded, checked⟩ := Option.bind_eq_some_iff.mp checked
    obtain ⟨text, limited, checked⟩ := Option.bind_eq_some_iff.mp checked
    obtain ⟨zone, found, made⟩ := Option.bind_eq_some_iff.mp checked
    split at made
    · rw [← Option.some.inj made, trim_of_boundedText bounded, trim_of_boundedText limited, trimmed, trim_of_strip stripped]
    · cases made

theorem trim_instruction (clean : Clean write) :
    trim (triggerWrite schedule revision write agentSpec).instruction =
      (triggerWrite schedule revision write agentSpec).instruction := by
  simp only [triggerWrite]
  cases action : write.action with
  | agentJob instruction => exact clean.instruction instruction action
  | reminder message =>
    obtain ⟨trimmed, filled⟩ := clean.message message action
    exact trim_append (c := 'D') (by decide) trimmed filled

theorem checkedLabels_triggerWrite :
    checkedLabels (triggerWrite schedule revision write agentSpec).labels =
      some (triggerWrite schedule revision write agentSpec).labels := by
  have labelled (kind : String) (known : kind = "reminder" ∨ kind = "agent_job") :
      checkedLabels [("schedule_action", kind), ("schedule_contract", "v1")] =
        some [("schedule_action", kind), ("schedule_contract", "v1")] := by
    rcases known with rfl | rfl <;> decide +kernel
  cases action : write.action with
  | agentJob instruction => simpa [triggerWrite, action] using labelled "agent_job" (Or.inr rfl)
  | reminder message => simpa [triggerWrite, action] using labelled "reminder" (Or.inl rfl)

/-- The name, the texts and the key of a schedule are trimmed, so that its trigger is made as it is written. -/
theorem checkedWrite_triggerWrite {made : TriggerSpecWrite} (clean : Clean write)
    (stripped : strip schedule.scheduleId = schedule.scheduleId) (filled : schedule.scheduleId ≠ "")
    (checked : checkedWrite rules (triggerWrite schedule revision write agentSpec) = some made) :
    made = triggerWrite schedule revision write agentSpec := by
  obtain ⟨name, named, checked⟩ := Option.bind_eq_some_iff.mp checked
  obtain ⟨source, sourced, checked⟩ := Option.bind_eq_some_iff.mp checked
  obtain ⟨instruction, instructed, checked⟩ := Option.bind_eq_some_iff.mp checked
  obtain ⟨delivery, delivered, checked⟩ := Option.bind_eq_some_iff.mp checked
  obtain ⟨key, keyed, checked⟩ := Option.bind_eq_some_iff.mp checked
  obtain ⟨number, numbered, checked⟩ := Option.bind_eq_some_iff.mp checked
  obtain ⟨labels, labelled, checked⟩ := Option.bind_eq_some_iff.mp checked
  have name' : name = write.name := (trim_of_boundedText named).trans clean.name
  have source' := checkedSource_triggerWrite clean sourced
  have instruction' := (trim_of_boundedText instructed).trans (trim_instruction clean)
  have delivery' : delivery = (triggerWrite schedule revision write agentSpec).delivery := (Option.some.inj delivered).symm
  have key' : key = some (sourceKey schedule.scheduleId) := by
    obtain ⟨text, bounded, rfl⟩ := Option.map_eq_some_iff.mp keyed
    rw [trim_of_boundedText bounded]
    exact congrArg some (trim_append (c := 's') (by decide) (trim_of_strip stripped) filled)
  have number' : number = some revision := by
    obtain ⟨value, least, rfl⟩ := Option.map_eq_some_iff.mp numbered
    beta_reduce at least
    split at least
    · rw [← Option.some.inj least]
    · cases least
  have labels' := Option.some.inj (labelled.symm.trans checkedLabels_triggerWrite)
  split at checked
  · rw [← Option.some.inj checked, name', source', instruction', delivery', key', number', labels']
    rfl
  · cases checked

theorem afterPrefix_append (front text : String) : afterPrefix front (front ++ text) = some text := by
  have begins : front.toList.isPrefixOf (front ++ text).toList = true := by
    rw [String.toList_append]
    exact List.isPrefixOf_iff_prefix.mpr (List.prefix_append _ _)
  rw [afterPrefix, if_pos begins, String.toList_append, List.drop_left, String.ofList_toList]

theorem projectTrigger_triggerWrite (checked : checkedTrigger rules write.trigger = some write.trigger) :
    projectTrigger rules (triggerWrite schedule revision write agentSpec).source = .ok write.trigger := by
  simp only [triggerWrite]
  cases trigger : write.trigger <;> rw [trigger] at checked <;> simp only [projectTrigger, checked]

/-- The label decides which action the text stands for. -/
theorem projectAction_triggerWrite (checked : checkedAction write.action = some write.action) :
    projectAction (triggerWrite schedule revision write agentSpec) = .ok write.action := by
  cases action : write.action with
  | reminder message =>
    rw [action] at checked
    have label : ((triggerWrite schedule revision write agentSpec).labels.lookup "schedule_action").getD "" = "reminder" := by
      simp [triggerWrite, action]
    have message' : afterPrefix reminderPrefix (triggerWrite schedule revision write agentSpec).instruction = some message := by
      simp [triggerWrite, action, afterPrefix_append]
    simp only [projectAction, label, message', true_or, if_true, checked]
  | agentJob instruction =>
    rw [action] at checked
    have label : ((triggerWrite schedule revision write agentSpec).labels.lookup "schedule_action").getD "" = "agent_job" := by
      simp [triggerWrite, action]
    have text : (triggerWrite schedule revision write agentSpec).instruction = instruction := by
      simp [triggerWrite, action]
    simp [projectAction, label, text, checked]

variable {digest : Json → String} {store : PayloadStore}

theorem mapM_readRow (kept : Kept rules digest store) {rows : List (RevisionRow Json)} (inside : ∀ row ∈ rows, row ∈ store.revisions) :
    ∃ read, rows.mapM (readRow rules) = some read := by
  induction rows with
  | nil => exact ⟨[], rfl⟩
  | cons row rows ih =>
    obtain ⟨own, later⟩ := List.forall_mem_cons.mp inside
    obtain ⟨first, found⟩ := readRow_of_readable (kept.readable row own)
    obtain ⟨rest, others⟩ := ih later
    exact ⟨first :: rest, by rw [List.mapM_cons, found, others]; rfl⟩

theorem listRevisions_ok (kept : Kept rules digest store) (key : SpecKey) :
    ∃ revisions, listRevisions rules store key = .ok revisions := by
  have inside : ∀ row ∈ store.revisionsOf key, row ∈ store.revisions := fun row member => (mem_revisionsOf.mp member).1
  obtain ⟨revisions, read⟩ := mapM_readRow kept inside
  exact ⟨revisions, by rw [listRevisions, read]⟩

theorem boundedText_of_strip {limit : Nat} {text : String} (stripped : strip text = text) (filled : text ≠ "")
    (short : text.length ≤ limit) : boundedText limit text = some text := by
  rw [boundedText, trim_of_strip stripped, if_neg]
  simp [filled, short]

/-- A schedule is named by an identifier that is stripped, not empty and not too long. -/
structure Named (schedule : Identity) : Prop where
  stripped : strip schedule.scheduleId = schedule.scheduleId
  filled : schedule.scheduleId ≠ ""
  short : schedule.scheduleId.length ≤ 100

/-- The schedule that a stored trigger is read as. -/
theorem project_triggerWrite {trigger : TriggerRow} (kept : Kept rules digest store)
    (checked : checkedSchedule rules write = some write) (named : Named schedule)
    (written : trigger.write = triggerWrite schedule revision write agentSpec) (tenant : trigger.tenantId = schedule.tenantId)
    (numbered : 1 ≤ trigger.revision) :
    ∃ createdAt, project rules store trigger =
      .ok ⟨write, schedule.scheduleId, schedule.tenantId, trigger.revision, createdAt, trigger.createdAt⟩ := by
  obtain ⟨_, timed, acts, -, -⟩ := checkedSchedule_eq_some checked
  obtain ⟨revisions, listed⟩ := listRevisions_ok kept trigger.key
  have key : afterPrefix "schedule:" (trigger.write.sourceKey.getD "") = some schedule.scheduleId := by
    rw [written]
    exact afterPrefix_append "schedule:" schedule.scheduleId
  have source : projectTrigger rules trigger.write.source = .ok write.trigger := written ▸ projectTrigger_triggerWrite timed
  have action : projectAction trigger.write = .ok write.action := written ▸ projectAction_triggerWrite acts
  have same : (⟨trigger.write.name, write.trigger, write.action, decide (trigger.write.delivery.mode = .owner),
      trigger.write.enabled⟩ : ScheduleWrite) = write := by
    obtain ⟨name, trigger, action, notifyOwner, enabled⟩ := write
    rw [written]
    cases notifyOwner <;> rfl
  have identifier := boundedText_of_strip named.stripped named.filled named.short
  have tenant' : boundedText 200 schedule.tenantId = some schedule.tenantId := schedule.validTenant
  refine ⟨((revisions.argmin RevisionRow.revision).getD trigger).createdAt, ?_⟩
  simp only [project, key, source, action, listed, Outcome.ok_bind, makeSchedule, tenant, same, checked, identifier, tenant',
    numbered, if_true]

theorem isSchedule_triggerWrite : isSchedule (triggerWrite schedule revision write agentSpec) = true := by
  have begins : "schedule:".toList.isPrefixOf (sourceKey schedule.scheduleId).toList = true := by
    rw [sourceKey, String.toList_append]
    exact List.isPrefixOf_iff_prefix.mpr (List.prefix_append _ _)
  have labelled : (triggerWrite schedule revision write agentSpec).labels.lookup "schedule_contract" = some "v1" := by
    cases action : write.action <;> simp only [triggerWrite, action] <;> decide
  have owned : (triggerWrite schedule revision write agentSpec).sourceKey.any
      (fun key => "schedule:".toList.isPrefixOf key.toList) = true := begins
  rw [isSchedule, owned, labelled]
  rfl

end Projection

section Identities

variable {sha256 : HexDigest} {tenantId scheduleId : String} {schedule : Identity}

theorem identify_eq_ok {fresh : String} (found : identify sha256 tenantId scheduleId fresh = .ok schedule) :
    safeTenantId tenantId = .ok schedule.tenantId ∧ safeScheduleId scheduleId fresh = .ok schedule.scheduleId ∧
      schedule.triggerId = triggerId sha256 schedule.scheduleId := by
  unfold identify at found
  split at found
  · cases found
  · rename_i tenant accepted
    split at found
    · cases found
    · rename_i safe
      cases found
      exact ⟨accepted, safe, rfl⟩

theorem named_of_identify {fresh : ShortId} (found : identify sha256 tenantId scheduleId fresh.text = .ok schedule) :
    Named schedule := by
  obtain ⟨-, safe, -⟩ := identify_eq_ok found
  unfold safeScheduleId at safe
  generalize chosen : (if (strip scheduleId).isEmpty = true then fresh.text else strip scheduleId) = id at safe
  have clean : strip id = id ∧ id ≠ "" := by
    subst chosen
    split
    · exact ⟨fresh.clean, fresh.filled⟩
    · rename_i filled
      exact ⟨strip_strip scheduleId, by simpa using filled⟩
  dsimp only at safe
  split at safe
  · cases safe
  · rename_i short
    have same := Except.ok.inj safe
    exact ⟨same ▸ clean.1, same ▸ clean.2, same ▸ Nat.not_lt.mp short⟩

/-- The identity of a schedule is found again by texts of its parts. -/
theorem identify_again {fresh tenantId' scheduleId' : String} (named : Named schedule)
    (tenant : safeTenantId tenantId = .ok schedule.tenantId) (trigger : schedule.triggerId = triggerId sha256 schedule.scheduleId)
    (sameTenant : strip tenantId' = schedule.tenantId) (sameSchedule : strip scheduleId' = schedule.scheduleId) :
    identify sha256 tenantId' scheduleId' fresh = .ok schedule := by
  have stripped : strip tenantId = schedule.tenantId := by
    simp only [safeTenantId] at tenant
    split at tenant
    · cases tenant
    · split at tenant
      · cases tenant
      · exact Except.ok.inj tenant
  have tenant' : safeTenantId tenantId' = .ok schedule.tenantId := by
    rw [← tenant]
    simp only [safeTenantId, stripped, sameTenant]
  have schedule' : safeScheduleId scheduleId' fresh = .ok schedule.scheduleId := by
    have filled : ¬ schedule.scheduleId.isEmpty = true := by simpa using named.filled
    simp only [safeScheduleId, sameSchedule, if_neg filled, if_neg (Nat.not_lt.mpr named.short)]
  unfold identify
  split
  · rename_i refused
    rw [tenant'] at refused
    cases refused
  · rename_i other accepted
    rw [schedule']
    obtain rfl := Except.ok.inj (tenant'.symm.trans accepted)
    obtain ⟨tenantId, scheduleId, id, validTenant, validTrigger⟩ := schedule
    obtain rfl : id = triggerId sha256 scheduleId := trigger
    rfl

end Identities

section Results

variable {rules : TimeRules} {sha256 : HexDigest} {digest : Json → String}

/-- The time of a one-off schedule has come. -/
def missed (write : ScheduleWrite) (now : Int) : Bool :=
  match write.trigger with
  | .once runAt _ => runAt ≤ now
  | .cron _ _ => false

/-- The schedule is what was written, enabled unless its time has come. -/
structure Carries (write : ScheduleWrite) (now : Int) (schedule : Schedule) : Prop where
  name : schedule.name = write.name
  trigger : schedule.trigger = write.trigger
  action : schedule.action = write.action
  notifyOwner : schedule.notifyOwner = write.notifyOwner
  enabled : schedule.enabled = (write.enabled && !missed write now)

theorem retired_eq (write : ScheduleWrite) (now : Int) :
    retired write now = { write with enabled := write.enabled && !missed write now } := by
  obtain ⟨name, trigger, action, notifyOwner, enabled⟩ := write
  cases trigger with
  | once runAt timezone => cases enabled <;> by_cases late : runAt ≤ now <;> simp [retired, missed, late]
  | cron expression timezone => simp [retired, missed]

theorem clean_retired {write : ScheduleWrite} (clean : Clean write) (now : Int) : Clean (retired write now) := by
  rw [retired_eq]
  exact ⟨clean.name, clean.timezone, clean.recurrence, clean.message, clean.instruction⟩

theorem checkedSchedule_retired {write : ScheduleWrite} (checked : checkedSchedule rules write = some write) (now : Int) :
    checkedSchedule rules (retired write now) = some (retired write now) := by
  obtain ⟨named, timed, acts, -, -⟩ := checkedSchedule_eq_some checked
  rw [retired_eq]
  simp [checkedSchedule, named, timed, acts]

theorem ofSchedule_ok {α : Type} {answer : Except ScheduleError α} {value : α} (done : ofSchedule answer = .ok value) :
    answer = .ok value := by
  cases answer with
  | error error => cases done
  | ok found => exact congrArg Except.ok (Except.ok.inj done)

theorem orFail_ok {α : Type} {error : FacadeError} {found : Option α} {value : α} (done : orFail error found = .ok value) :
    found = some value := by
  cases found with
  | none => cases done
  | some found => exact congrArg some (Except.ok.inj done)

theorem answered_ok {α : Type} {scheduleId : String} {answer : Except SpecError α} {value : α}
    (done : answered scheduleId answer = .ok value) : answer = .ok value := by
  cases answer with
  | error error => cases error <;> cases done
  | ok found => exact congrArg Except.ok (Except.ok.inj done)

variable {store stored : PayloadStore} {arguments : SaveArguments rules} {meeting : Meeting} {prepared : Prepared}

/-- What a save is about to append stands for its write. -/
theorem prepare_ok (done : prepare rules sha256 digest store arguments meeting = .ok prepared) :
    identify sha256 arguments.tenantId arguments.scheduleId meeting.fresh.text = .ok prepared.schedule ∧
      checkedWrite rules prepared.write = some prepared.write ∧ ∃ next agentSpec,
        prepared.write = triggerWrite prepared.schedule next (retired arguments.write.write meeting.now) agentSpec := by
  obtain ⟨schedule, identified, done⟩ := bind_eq_ok done
  obtain ⟨actorId, -, done⟩ := bind_eq_ok done
  obtain ⟨latest, -, done⟩ := bind_eq_ok done
  obtain ⟨active, -, done⟩ := bind_eq_ok done
  obtain ⟨⟨next, expected⟩, -, done⟩ := bind_eq_ok done
  obtain ⟨agentSpec, -, done⟩ := bind_eq_ok done
  obtain ⟨write, checked, done⟩ := bind_eq_ok done
  obtain rfl := Except.ok.inj done
  have found := ofSchedule_ok identified
  have named := named_of_identify found
  have accepted := orFail_ok checked
  have same := checkedWrite_triggerWrite (clean_retired arguments.write.clean meeting.now) named.stripped named.filled accepted
  exact ⟨found, by rw [← same] at accepted; exact accepted, next, agentSpec, same⟩

theorem runOps_extends (kept : Kept rules digest store) (ops : List Op) : Extends rules digest store (runOps rules digest store ops) :=
  exec_extends kept ops

/-- A stored revision of the schedule is read as its write. -/
theorem readRow_holds {row : RevisionRow Json} (holds : Holds prepared.schedule.key (dump rules prepared.write) store row)
    (checked : checkedWrite rules prepared.write = some prepared.write) :
    readRow rules row = some (typedRow row prepared.write) := by
  rw [readRow, holds.payload, readPayload_dump checked]
  rfl

/-- A save that goes through has stored its write as a revision, and activated it. -/
theorem commit_ok {schedule : Schedule} {after : List Op} (kept : Kept rules digest store)
    (checked : checkedWrite rules prepared.write = some prepared.write)
    (done : commit rules digest store meeting prepared = .ok (stored, schedule))
    (tells : TellsApart digest (runOps rules digest stored after)) :
    ∃ middle row, Kept rules digest middle ∧ Holds prepared.schedule.key (dump rules prepared.write) middle row ∧
      middle.activeRevision prepared.schedule.key = some row.revision ∧ stored = runOps rules digest middle meeting.afterActivate ∧
      project rules stored (typedRow row prepared.write) = .ok schedule := by
  obtain ⟨⟨first, created⟩, answer, done⟩ := bind_eq_ok done
  obtain ⟨found, read, done⟩ := bind_eq_ok done
  obtain ⟨trigger, _, done⟩ := bind_eq_ok done
  split at done
  · cases done
  obtain ⟨⟨third, activated⟩, moved, done⟩ := bind_eq_ok done
  obtain ⟨saved, projected, done⟩ := bind_eq_ok done
  obtain ⟨rfl, rfl⟩ := Prod.mk.inj (Except.ok.inj done)
  have appended := answered_ok answer
  have moves := answered_ok moved
  have firstKept := createRevision_extends kept appended
  have second := runOps_extends firstKept.kept meeting.afterCreate
  have third' := runOps_extends second.kept meeting.afterRevision
  obtain ⟨target, active, shown⟩ := activate_moves moves
  have fourth := extends_of_moved third'.kept (moveActive_moved third'.kept.archived active)
  have fifth := runOps_extends fourth.kept meeting.afterActivate
  have whole : first.revisions <+: (runOps rules digest (runOps rules digest third meeting.afterActivate) after).revisions :=
    second.grows.trans (third'.grows.trans (fourth.grows.trans
    (fifth.grows.trans (runOps_extends fifth.kept after).grows)))
  have holds := createRevision_holds kept (by exact prepared.schedule.validTenant) (by exact prepared.schedule.validTrigger)
    appended whole tells
  have reached := holds.later (second.grows.trans third'.grows)
  obtain rfl : created = target := Option.some.inj (reached.found.symm.trans (moveActive_target active))
  rw [readRow_holds reached checked] at shown
  exact ⟨third, created, fourth.kept, reached.later fourth.grows, (Updatable.moveActive_value active).1, rfl,
    Option.some.inj shown ▸ projected⟩

theorem carries_retired {write : ScheduleWrite} {now : Int} {schedule : Schedule}
    (same : schedule.toScheduleWrite = retired write now) : Carries write now schedule := by
  rw [retired_eq] at same
  exact ⟨by rw [same], by rw [same], by rw [same], by rw [same], by rw [same]⟩

/-- A stored revision of the schedule that is the active one is what `get` returns. -/
theorem get_of_holds {row : RevisionRow Json} {schedule : Identity} {next : Nat} {write : ScheduleWrite} {agentSpec : AgentSpecRef}
    {tenantId scheduleId fresh : String}
    (identified : identify sha256 tenantId scheduleId fresh = .ok schedule)
    (holds : Holds schedule.key (dump rules (triggerWrite schedule next write agentSpec)) store row)
    (active : store.activeRevision schedule.key = some row.revision)
    (checked : checkedWrite rules (triggerWrite schedule next write agentSpec) = some (triggerWrite schedule next write agentSpec))
    {found : Schedule}
    (projected : project rules store (typedRow row (triggerWrite schedule next write agentSpec)) = .ok found) :
    get rules sha256 store tenantId scheduleId fresh = .ok (some found) := by
  have here : store.getActive schedule.key = some row := by
    rw [SpecStore.getActive, active, Option.bind_some, holds.found]
  have read : readRow rules row = some (typedRow row (triggerWrite schedule next write agentSpec)) := by
    rw [readRow, holds.payload, readPayload_dump checked]
    rfl
  have owned : (typedRow row (triggerWrite schedule next write agentSpec)).write.sourceKey =
      some (sourceKey schedule.scheduleId) := rfl
  have kind : isSchedule (typedRow row (triggerWrite schedule next write agentSpec)).write = true := isSchedule_triggerWrite
  rw [get, identified, ofSchedule, Outcome.ok_bind, here, readFound, read]
  simp only [Outcome.ok_bind, owned, ne_eq, not_true, if_false, kind, Bool.not_true, Bool.false_eq_true, projected]
  rfl

/-- Whatever others do on the store before, meanwhile and afterwards, a schedule that was saved is returned as it was written,
enabled unless its time had come; and so it is by every later reading while the revision that was saved is the active one. -/
theorem schedules_survive (rules : TimeRules) (sha256 : HexDigest) (digest : Json → String) (before after : List Op)
    (arguments : SaveArguments rules) (meeting : Meeting) (stored : PayloadStore) (schedule : Schedule)
    (saved : save rules sha256 digest (runOps rules digest .empty before) arguments meeting = .ok (stored, schedule))
    (tells : TellsApart digest (runOps rules digest stored after)) :
    let key := (schedule.tenantId, triggerId sha256 schedule.id)
    Carries arguments.write.write meeting.now schedule ∧
      (meeting.afterActivate = [] → stored.activeRevision key = some schedule.revision) ∧
      ((runOps rules digest stored after).activeRevision key = some schedule.revision →
        ∀ tenantId scheduleId fresh, strip tenantId = schedule.tenantId → strip scheduleId = schedule.id →
          ∃ found, get rules sha256 (runOps rules digest stored after) tenantId scheduleId fresh = .ok (some found) ∧
            Carries arguments.write.write meeting.now found) := by
  intro key
  obtain ⟨prepared, prepares, commits⟩ := bind_eq_ok saved
  have initial := runOps_extends (kept_empty rules digest) before
  have kept := (runOps_extends (runOps_extends initial.kept meeting.afterLatest).kept meeting.afterActive).kept
  obtain ⟨identified, checked, next, agentSpec, written⟩ := prepare_ok prepares
  obtain ⟨middle, row, middleKept, holds, active, rfl, projected⟩ := commit_ok kept checked commits tells
  have named := named_of_identify identified
  obtain ⟨safeTenant, -, trigger⟩ := identify_eq_ok identified
  have passes := checkedSchedule_retired arguments.write.checked meeting.now
  have first := runOps_extends middleKept meeting.afterActivate
  have last := runOps_extends first.kept after
  have tenant : row.tenantId = prepared.schedule.tenantId := congrArg Prod.fst holds.own
  have projects {store : PayloadStore} (kept : Kept rules digest store) : ∃ createdAt,
      project rules store (typedRow row prepared.write) = .ok ⟨retired arguments.write.write meeting.now,
        prepared.schedule.scheduleId, prepared.schedule.tenantId, row.revision, createdAt, row.createdAt⟩ :=
    project_triggerWrite kept passes named (by exact written) (by exact tenant) (by exact holds.numbered)
  obtain ⟨createdAt, same⟩ := projects first.kept
  obtain rfl := Except.ok.inj (projected.symm.trans same)
  have known : key = prepared.schedule.key := Prod.ext rfl trigger.symm
  refine ⟨carries_retired rfl, fun none_ => ?_, fun still tenantId scheduleId fresh sameTenant sameSchedule => ?_⟩
  · rw [known, none_]
    exact active
  · obtain ⟨createdAt', found⟩ := projects last.kept
    rw [written] at holds checked found
    rw [known] at still
    exact ⟨_, get_of_holds (identify_again named safeTenant trigger sameTenant sameSchedule)
      (holds.later (first.grows.trans last.grows)) still checked found, carries_retired rfl⟩

end Results

section Samples

/-- One instant as ISO 8601 writes it; the others are counted. -/
def sampleInstant (instant : Int) : String :=
  if instant = 1893456000 then "2030-01-01T00:00:00Z"
  else String.ofList ((if instant < 0 then '-' else '+') :: List.replicate instant.natAbs '1')

def readSampleInstant (text : String) : Option Int :=
  if text = "2030-01-01T00:00:00Z" then some 1893456000
  else
    match text.toList with
    | [] => none
    | '-' :: counted => some (-counted.length)
    | _ :: counted => some counted.length

theorem readSampleInstant_write (instant : Int) : readSampleInstant (sampleInstant instant) = some instant := by
  by_cases fixed : instant = 1893456000
  · rw [sampleInstant, if_pos fixed, readSampleInstant, if_pos rfl, fixed]
  · rw [sampleInstant, if_neg fixed, readSampleInstant, if_neg, String.toList_ofList]
    · by_cases negative : instant < 0
      · simp only [if_pos negative, List.length_replicate, Option.some.injEq]
        omega
      · rw [if_neg negative]
        show some ((List.replicate instant.natAbs '1').length : Int) = some instant
        rw [List.length_replicate, Int.natAbs_of_nonneg (by omega)]
    · intro same
      have front := congrArg (fun text : String => text.toList.head?) same
      by_cases negative : instant < 0 <;> simp [negative] at front

def sampleRules : TimeRules where
  isZone name := name = "UTC"
  isCrontab expression _ := expression = "0 9 * * *"
  writeInstant := sampleInstant
  readInstant := readSampleInstant
  read_write := readSampleInstant_write

def sampleHex : HexDigest := ⟨fun _ => "0123456789abcdef", fun _ => by decide⟩

/-- An instruction that begins as a reminder does. -/
def sampleSchedule : ScheduleWrite :=
  ⟨"Launch", .once 1893456000 "UTC", .agentJob (reminderPrefix ++ "Hello"), true, true⟩

def sampleSave : SaveArguments sampleRules := ⟨"owner", "launch", ⟨sampleSchedule, by decide +kernel⟩, none, "owner"⟩

def sampleMeeting : Meeting where
  fresh := ⟨"sch_1", by decide, by decide⟩
  now := 1800000000
  agents := Updatable.samplePlan.agents
  agentSpec := some Updatable.sampleRef
  validateActivation _ := true
  createdAt := 1
  activatedAt := 2
  afterLatest := []
  afterActive := []
  afterCreate := []
  afterRevision := []
  afterActivate := []

theorem sampleOwner_valid : protocolId "owner" = some "owner" := by decide

def samplePayload : Json :=
  dump sampleRules (triggerWrite
    ⟨"owner", "launch", triggerId sampleHex "launch", sampleOwner_valid, triggerId_valid sampleHex "launch"⟩ 1 sampleSchedule
    Updatable.sampleRef)

def samplePayloadDigest (payload : Json) : String := if payload = samplePayload then "1" else "0"

def sampleSaved : Except FacadeError (PayloadStore × Schedule) :=
  save sampleRules sampleHex samplePayloadDigest (runOps sampleRules samplePayloadDigest .empty []) sampleSave sampleMeeting

theorem sampleSaved_ok : ∃ stored schedule, sampleSaved = .ok (stored, schedule) ∧
    schedule.tenantId = "owner" ∧ schedule.id = "launch" ∧ ∀ row ∈ stored.revisions, row.write = samplePayload := by
  have done : (match sampleSaved with
      | .ok (stored, schedule) => decide (schedule.tenantId = "owner" ∧ schedule.id = "launch" ∧
          ∀ row ∈ stored.revisions, row.write = samplePayload)
      | .error _ => false) = true := by decide +kernel
  split at done
  · rename_i stored schedule saved
    exact ⟨stored, schedule, saved, of_decide_eq_true done⟩
  · cases done

theorem sampleDigest_tells {store : PayloadStore} (only : ∀ row ∈ store.revisions, row.write = samplePayload) :
    TellsApart samplePayloadDigest store := by
  intro row member payload same
  rw [only row member] at same ⊢
  by_contra other
  rw [samplePayloadDigest, if_pos rfl, samplePayloadDigest, if_neg (Ne.symm other)] at same
  exact absurd same (by decide)

/-- An instruction that begins with the prefix of a reminder stays an instruction. -/
theorem schedules_survive_prefixed : ∃ stored schedule, sampleSaved = .ok (stored, schedule) ∧
    schedule.action = .agentJob (reminderPrefix ++ "Hello") ∧ schedule.enabled = true ∧
      ∃ found, get sampleRules sampleHex stored "owner" "launch" "" = .ok (some found) ∧
        Carries sampleSchedule 1800000000 found := by
  obtain ⟨stored, schedule, saved, tenant, id, only⟩ := sampleSaved_ok
  obtain ⟨carries, active, later⟩ := schedules_survive sampleRules sampleHex samplePayloadDigest [] [] sampleSave sampleMeeting
    stored schedule saved (sampleDigest_tells only)
  have sameTenant : strip "owner" = schedule.tenantId := (by decide : strip "owner" = "owner").trans tenant.symm
  have sameSchedule : strip "launch" = schedule.id := (by decide : strip "launch" = "launch").trans id.symm
  exact ⟨stored, schedule, saved, carries.action, carries.enabled,
    later (active rfl) "owner" "launch" "" sameTenant sameSchedule⟩

end Samples

end OpenTulpa.Schedules.Projection
