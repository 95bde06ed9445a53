import OpenTulpa.Specs.Chains

/-! The schedule facade over the trigger store. A save first reads the latest and the active
revision, then appends a revision and activates it in two transactions; the dispatcher disables
a one-off schedule the same way after it has fired. -/

namespace OpenTulpa.Schedules.Service

open Library Outcome Text Specs.Models Specs.Store

inductive ScheduleTrigger where
  | once (runAt : Int) (timezone : String)
  | cron (expression timezone : String)
  deriving DecidableEq

inductive ScheduleAction where
  | reminder (message : String)
  | agentJob (instruction : String)
  deriving DecidableEq

structure ScheduleWrite where
  name : String
  trigger : ScheduleTrigger
  action : ScheduleAction
  notifyOwner : Bool := true
  enabled : Bool := true
  deriving DecidableEq

inductive ScheduleError where
  | tenantRequired
  | tenantTooLong
  | scheduleTooLong
  | actorRequired
  | actorTooLong
  | collides
  | inactive (scheduleId : String) (revision : Nat)
  | missing (scheduleId : String) (expected : Int)
  | expectedRequired
  | changed (expected : Int) (found : Nat)
  | changedOutside
  | notFound (scheduleId : String)
  deriving DecidableEq

def ScheduleError.message : ScheduleError → String
  | .tenantRequired => "tenant_id is required"
  | .tenantTooLong => "tenant_id must be at most 200 characters"
  | .scheduleTooLong => "schedule_id must be at most 100 characters"
  | .actorRequired => "actor_id is required"
  | .actorTooLong => "actor_id must be at most 200 characters"
  | .collides => "schedule identifier collides with another trigger"
  | .inactive id revision => "schedule '" ++ id ++ "' is inactive at revision " ++ toString revision
  | .missing id expected => "schedule '" ++ id ++ "' does not exist at revision " ++ toString expected
  | .expectedRequired => "expected_revision is required when updating"
  | .changed expected found => "expected revision " ++ toString expected ++ ", found " ++ toString found
  | .changedOutside => "schedule changed outside the schedule facade"
  | .notFound id => id

/-- `_tenant_id` -/
def safeTenantId (value : String) : Except ScheduleError String :=
  let tenantId := strip value
  if tenantId.isEmpty then .error .tenantRequired
  else if 200 < tenantId.length then .error .tenantTooLong
  else .ok tenantId

/-- `_schedule_id`; `fresh` is the new identifier for a blank one. -/
def safeScheduleId (value fresh : String) : Except ScheduleError String :=
  let scheduleId := if (strip value).isEmpty then fresh else strip value
  if 100 < scheduleId.length then .error .scheduleTooLong else .ok scheduleId

/-- `_actor_id` -/
def safeActorId (value : String) : Except ScheduleError String :=
  let actorId := strip value
  if actorId.isEmpty then .error .actorRequired
  else if 200 < actorId.length then .error .actorTooLong
  else .ok actorId

/-- `hashlib.sha256(text.encode()).hexdigest()` -/
structure HexDigest where
  hex : String → String
  lower : ∀ text, ∀ c ∈ (hex text).toList, isLowerHex c = true

def triggerId (sha256 : HexDigest) (scheduleId : String) : String :=
  String.ofList ("schedule_".toList ++ (sha256.hex scheduleId).toList.take 24)

def sourceKey (scheduleId : String) : String := "schedule:" ++ scheduleId

/-- One schedule of a tenant, with the trigger that stands for it. -/
structure Identity where
  tenantId : String
  scheduleId : String
  triggerId : String
  validTenant : protocolId tenantId = some tenantId
  validTrigger : protocolSlug triggerId = some triggerId

def Identity.key (schedule : Identity) : SpecKey := (schedule.tenantId, schedule.triggerId)

theorem safeTenantId_valid {value tenantId : String} (accepted : safeTenantId value = .ok tenantId) :
    protocolId tenantId = some tenantId := by
  simp only [safeTenantId] at accepted
  split at accepted
  · cases accepted
  rename_i nonempty
  split at accepted
  · cases accepted
  rename_i short
  cases accepted
  simp only [protocolId, trim_of_strip (strip_strip value)]
  rw [if_neg]
  simp [nonempty, short]

theorem slugChar_visible {c : Char} (slug : slugChar c = true) : isWhite c = false := by
  simp [isWhite, isSpace_of_slugChar slug]

theorem slugChar_of_isLowerHex {c : Char} (hex : isLowerHex c = true) : slugChar c = true := by
  simp only [isLowerHex, Bool.or_eq_true, Bool.and_eq_true, decide_eq_true_eq, Char.le_def, UInt32.le_iff_toNat_le] at hex
  simp only [slugChar, Bool.or_eq_true, Characters.isLower_iff, Char.isDigit_iff_toNat]
  rcases hex with digit | letter
  · exact Or.inl (Or.inl (Or.inr digit))
  · exact Or.inl (Or.inl (Or.inl ⟨letter.1, le_trans letter.2 (by decide)⟩))

theorem protocolSlug_of_slugChars {text : List Char} (short : text.length ≤ 63)
    (slugs : ∀ c ∈ text, slugChar c = true) :
    protocolSlug (String.ofList ('s' :: text)) = some (String.ofList ('s' :: text)) := by
  have visible : ∀ c ∈ 's' :: text, isWhite c = false := by
    intro c member
    rcases List.mem_cons.mp member with rfl | later
    · decide
    · exact slugChar_visible (slugs c later)
  have slug : isSlug ('s' :: text) = true := by
    simp only [isSlug, Bool.and_eq_true, decide_eq_true_eq, List.all_eq_true]
    exact ⟨⟨by decide, short⟩, slugs⟩
  simp only [protocolSlug, trim, String.toList_ofList, trimChars_of_visible visible, slug, if_true]

theorem triggerId_valid (sha256 : HexDigest) (scheduleId : String) :
    protocolSlug (triggerId sha256 scheduleId) = some (triggerId sha256 scheduleId) := by
  refine @protocolSlug_of_slugChars ("chedule_".toList ++ (sha256.hex scheduleId).toList.take 24) ?_ ?_
  · have taken : ((sha256.hex scheduleId).toList.take 24).length ≤ 24 := List.length_take_le ..
    have fixed : "chedule_".toList.length = 8 := by decide
    rw [List.length_append]
    omega
  · intro c member
    rcases List.mem_append.mp member with fixed | digest
    · exact List.all_eq_true.mp (by decide : "chedule_".toList.all slugChar = true) c fixed
    · exact slugChar_of_isLowerHex (sha256.lower scheduleId c (List.mem_of_mem_take digest))

/-- The schedule that a call is about. -/
def identify (sha256 : HexDigest) (tenantId scheduleId fresh : String) : Except ScheduleError Identity :=
  match accepted : safeTenantId tenantId with
  | .error error => .error error
  | .ok tenant =>
    match safeScheduleId scheduleId fresh with
    | .error error => .error error
    | .ok schedule =>
      .ok ⟨tenant, schedule, triggerId sha256 schedule, safeTenantId_valid accepted, triggerId_valid sha256 schedule⟩

structure SaveCall where
  write : ScheduleWrite
  expectedRevision : Option Int
  actorId : String
  deriving DecidableEq

abbrev TriggerRow := RevisionRow TriggerSpecWrite

/-- A missed one-off is kept, but never enabled. -/
def retired (write : ScheduleWrite) (now : Int) : ScheduleWrite :=
  match write.trigger with
  | .once runAt _ => if write.enabled && runAt ≤ now then { write with enabled := false } else write
  | .cron _ _ => write

/-- The next revision, and the active one that the save expects. -/
def saveChecks (schedule : Identity) (expectedRevision : Option Int) (latest active : Option TriggerRow) :
    Except ScheduleError (Nat × Option Nat) :=
  if latest.any fun row => row.write.sourceKey != some (sourceKey schedule.scheduleId) then .error .collides
  else
    match active, latest, expectedRevision with
    | none, some latest, _ => .error (.inactive schedule.scheduleId latest.revision)
    | none, none, some expected => .error (.missing schedule.scheduleId expected)
    | none, none, none => .ok (1, none)
    | some _, _, none => .error .expectedRequired
    | some active, latest, some expected =>
      if (active.revision : Int) ≠ expected then .error (.changed expected active.revision)
      else if latest.map RevisionRow.revision ≠ some active.revision then .error .changedOutside
      else .ok (active.revision + 1, some active.revision)

def reminderPrefix : String := "Deliver this reminder to the owner exactly as written:\n\n"

/-- `_trigger_write` -/
def triggerWrite (schedule : Identity) (revision : Nat) (write : ScheduleWrite) (agentSpec : AgentSpecRef) :
    TriggerSpecWrite where
  name := write.name
  source := match write.trigger with
    | .once runAt timezone => .atTrigger runAt timezone
    | .cron expression timezone => .cronTrigger expression timezone
  exposure := .privately
  agentSpec := agentSpec
  instruction := match write.action with
    | .agentJob instruction => instruction
    | .reminder message => reminderPrefix ++ message
  delivery := ⟨if write.notifyOwner then .owner else .none, none⟩
  enabled := write.enabled
  sourceKey := some (sourceKey schedule.scheduleId)
  sourceRevision := some revision
  labels := [("schedule_action", match write.action with
    | .agentJob _ => "agent_job"
    | .reminder _ => "reminder"), ("schedule_contract", "v1")]

/-- `_is_schedule` -/
def isSchedule (write : TriggerSpecWrite) : Bool :=
  write.sourceKey.any (fun key => "schedule:".toList.isPrefixOf key.toList) &&
    (write.labels.lookup "schedule_contract" == some "v1" || write.labels.lookup "migrated_from" == some "schedule")

/-- The write of `_disable_one_off`. -/
def disabled (write : TriggerSpecWrite) : TriggerSpecWrite :=
  { write with enabled := false, sourceRevision := write.sourceRevision.map (· + 1) }

/-- An operation on the schedule between two of its calls of the store. -/
inductive Task where
  | saving (call : SaveCall) (latest : Option TriggerRow)
  | creating (write : TriggerSpecWrite) (expectedRevision expectedActiveRevision : Option Nat) (actorId : String)
  | activating (revision : Nat) (expectedActiveRevision : Option Nat) (actorId : String)
  | deleting (expectedRevision : Int)
  deriving DecidableEq

/-- What an operation meets when it goes on: the agent specs, the answer of `resolve_agent_spec`,
and the time. -/
structure Plan where
  agents : AgentSpecStore
  agentSpec : Option AgentSpecRef
  now : Nat
  deriving DecidableEq

/-- The triggers, and the operations on the schedule that are in progress. -/
structure World where
  triggers : TriggerSpecStore
  tasks : List Task
  deriving DecidableEq

def World.empty : World := ⟨.empty, []⟩

section Schedule

variable (digest : TriggerSpecWrite → String) (schedule : Identity)

/-- `save` after it has read the latest revision: it reads the active one and checks both. -/
def saveTask (plan : Plan) (store : TriggerSpecStore) (call : SaveCall) (latest : Option TriggerRow) : Option Task :=
  let active := store.getActive schedule.key
  match saveChecks schedule call.expectedRevision latest active with
  | .error _ => none
  | .ok (next, expectedActive) =>
    ((active.map fun row => row.write.agentSpec).or plan.agentSpec).map fun agentSpec =>
      .creating (triggerWrite schedule next call.write agentSpec) (latest.map RevisionRow.revision) expectedActive
        call.actorId

/-- An operation makes its next call of the store; it is over when nothing is left of it. -/
@[grind =] def advance (plan : Plan) (store : TriggerSpecStore) : Task → TriggerSpecStore × Option Task
  | .saving call latest => (store, saveTask schedule plan store call latest)
  | .creating write expectedRevision expectedActive actorId =>
    match TriggerSpecStore.createRevision digest plan.agents store
        ⟨schedule.tenantId, schedule.triggerId, write, asInt expectedRevision, actorId⟩ plan.now with
    | .error _ => (store, none)
    | .ok (stored, row) => (stored, some (.activating row.revision expectedActive actorId))
  | .activating revision expectedActive actorId =>
    (committed store (TriggerSpecStore.activate store
      ⟨schedule.tenantId, schedule.triggerId, revision, asInt expectedActive, actorId⟩ plan.now), none)
  | .deleting expected => (committed store (TriggerSpecStore.deactivate store schedule.key expected), none)

inductive Op where
  | save (call : SaveCall) (now : Int)
  | delete (expectedRevision : Int) (actorId : String)
  | disableOneOff (revision : Nat) (write : TriggerSpecWrite)
  | advance (index : Nat) (plan : Plan)
  | stop (index : Nat)
  deriving DecidableEq

/-- `save` up to its first call of the store. -/
def beginSave (store : TriggerSpecStore) (call : SaveCall) (now : Int) : Option Task :=
  match safeActorId call.actorId with
  | .error _ => none
  | .ok actorId =>
    some (.saving ⟨retired call.write now, call.expectedRevision, actorId⟩ (store.latest schedule.key))

/-- `delete` up to its transaction. -/
def beginDelete (store : TriggerSpecStore) (expectedRevision : Int) (actorId : String) : Option Task :=
  match safeActorId actorId, store.getActive schedule.key with
  | .ok _, some active =>
    if active.write.sourceKey ≠ some (sourceKey schedule.scheduleId) || !isSchedule active.write then none
    else if (active.revision : Int) ≠ expectedRevision then none
    else some (.deleting expectedRevision)
  | _, _ => none

/-- `_disable_one_off` up to its first transaction, for the revision that has fired. -/
def beginDisable (store : TriggerSpecStore) (revision : Nat) (write : TriggerSpecWrite) : Option Task :=
  match store.getActive schedule.key with
  | none => none
  | some active =>
    if active.revision ≠ revision || !active.write.enabled then none
    else some (.creating (disabled write) (some revision) (some revision) "scheduler")

@[grind =] def step (w : World) : Op → World
  | .save call now => { w with tasks := w.tasks ++ (beginSave schedule w.triggers call now).toList }
  | .delete expectedRevision actorId =>
    { w with tasks := w.tasks ++ (beginDelete schedule w.triggers expectedRevision actorId).toList }
  | .disableOneOff revision write =>
    { w with tasks := w.tasks ++ (beginDisable schedule w.triggers revision write).toList }
  | .advance index plan =>
    match w.tasks[index]? with
    | none => w
    | some task =>
      let (stored, rest) := Service.advance digest schedule plan w.triggers task
      ⟨stored, w.tasks.eraseIdx index ++ rest.toList⟩
  | .stop index => { w with tasks := w.tasks.eraseIdx index }

end Schedule

end OpenTulpa.Schedules.Service
