import OpenTulpa.Library.Dict
import OpenTulpa.Library.Json
import OpenTulpa.Specs.Chains

/-! The payloads that the trigger store keeps. A write is checked and trimmed when it is made, written as a JSON object, and
checked again whenever its row is read. -/

namespace OpenTulpa.Specs.TriggerPayloads

open Library Outcome Text Models Store Chains

section Rules

/-- What the models ask of the packages for time: which names are time zones, which five fields make a recurrence in one, and
how an instant is written in ISO 8601 and read again. -/
structure TimeRules where
  isZone : String → Bool
  isCrontab : String → String → Bool
  writeInstant : Int → String
  readInstant : String → Option Int
  read_write : ∀ instant, readInstant (writeInstant instant) = some instant

variable (rules : TimeRules)

/-- A `str` field with `min_length` 1 and a `max_length` -/
def boundedText (limit : Nat) (value : String) : Option String :=
  if (trim value).isEmpty || limit < (trim value).length then none else some (trim value)

/-- `_iana_timezone` -/
def ianaTimezone (value : String) : Option String := if rules.isZone (strip value) then some (strip value) else none

def checkedSource : TriggerSource → Option TriggerSource
  | .atTrigger runAt timezone => do
    let timezone ← boundedText 100 timezone
    let timezone ← ianaTimezone rules timezone
    some (.atTrigger runAt timezone)
  | .cronTrigger expression timezone => do
    let expression ← boundedText 200 expression
    let timezone ← boundedText 100 timezone
    let zone ← ianaTimezone rules timezone
    if rules.isCrontab expression zone then some (.cronTrigger expression timezone) else none
  | .intervalTrigger everySeconds =>
    if 1 ≤ everySeconds ∧ everySeconds ≤ 31536000 then some (.intervalTrigger everySeconds) else none
  | .eventTrigger eventType source authentication => do
    let eventType ← protocolSlug eventType
    let source ← protocolSlug source
    some (.eventTrigger eventType source authentication)

def checkedDelivery (delivery : DeliverySpec) : Option DeliverySpec :=
  match delivery.interface with
  | none => some delivery
  | some interface => do
    let interface ← protocolSlug interface
    if delivery.mode = .none then none else some ⟨delivery.mode, some interface⟩

def checkedOptional {α : Type} (check : α → Option α) : Option α → Option (Option α)
  | none => some none
  | some value => (check value).map some

def checkedLabels (labels : JsonObject) : Option JsonObject :=
  if 100 < labels.length then none
  else
    labels.foldlM (fun checked entry => do
      let key ← protocolSlug entry.1
      some (Dict.insert key (trim entry.2) checked)) []

/-- `validate_exposure` -/
def exposable (exposure : Exposure) (source : TriggerSource) : Bool :=
  match exposure, source with
  | .privately, _ => true
  | .externally, .eventTrigger _ _ authentication => authentication = .required
  | .externally, _ => false

/-- The construction of a `TriggerSpecWrite` -/
def checkedWrite (write : TriggerSpecWrite) : Option TriggerSpecWrite := do
  let name ← boundedText 200 write.name
  let source ← checkedSource rules write.source
  let instruction ← boundedText 200000 write.instruction
  let delivery ← checkedDelivery write.delivery
  let sourceKey ← checkedOptional (boundedText 300) write.sourceKey
  let sourceRevision ← checkedOptional (fun revision => if 1 ≤ revision then some revision else none) write.sourceRevision
  let labels ← checkedLabels write.labels
  if protocolSlug write.agentSpec.specId = some write.agentSpec.specId ∧ 1 ≤ write.agentSpec.revision ∧
      exposable write.exposure source = true then
    some { write with name, source, instruction, delivery, sourceKey, sourceRevision, labels }
  else none

end Rules

section Payload

variable (rules : TimeRules)

def exposureText : Exposure → String
  | .privately => "private"
  | .externally => "external"

def authenticationText : EventAuthentication → String
  | .required => "required"
  | .trustedInternal => "trusted_internal"

def modeText : DeliveryMode → String
  | .none => "none"
  | .origin => "origin"
  | .owner => "owner"

def dumpSource : TriggerSource → Json
  | .atTrigger runAt timezone =>
    .object [("kind", .string "at"), ("run_at", .string (rules.writeInstant runAt)), ("timezone", .string timezone)]
  | .cronTrigger expression timezone =>
    .object [("expression", .string expression), ("kind", .string "cron"), ("timezone", .string timezone)]
  | .intervalTrigger everySeconds => .object [("every_seconds", .int everySeconds), ("kind", .string "interval")]
  | .eventTrigger eventType source authentication =>
    .object [("authentication", .string (authenticationText authentication)), ("event_type", .string eventType),
      ("kind", .string "event"), ("source", .string source)]

def dumpOptional {α : Type} (write : α → Json) : Option α → Json
  | none => .null
  | some value => write value

/-- `_canonical` -/
def dump (write : TriggerSpecWrite) : Json :=
  .object [
    ("agent_spec", .object [("revision", .int write.agentSpec.revision), ("spec_id", .string write.agentSpec.specId),
      ("tenant_id", .string write.agentSpec.tenantId)]),
    ("delivery", .object [("interface", dumpOptional Json.string write.delivery.interface),
      ("mode", .string (modeText write.delivery.mode))]),
    ("enabled", .bool write.enabled),
    ("exposure", .string (exposureText write.exposure)),
    ("instruction", .string write.instruction),
    ("labels", .object (write.labels.map fun entry => (entry.1, Json.string entry.2))),
    ("name", .string write.name),
    ("source", dumpSource rules write.source),
    ("source_key", dumpOptional Json.string write.sourceKey),
    ("source_revision", dumpOptional (fun revision : Nat => Json.int revision) write.sourceRevision)]

def readString : Json → Option String
  | .string value => some value
  | _ => none

def readBool : Json → Option Bool
  | .bool value => some value
  | _ => none

def readNat : Json → Option Nat
  | .int value => if 0 ≤ value then some value.toNat else none
  | _ => none

def readNullable {α : Type} (read : Json → Option α) : Json → Option (Option α)
  | .null => some none
  | json => (read json).map some

def readObject : Json → Option (List (String × Json))
  | .object fields => some fields
  | _ => none

/-- The fields of an object that has no others. -/
def readFields (known : List String) (json : Json) : Option (List (String × Json)) :=
  (readObject json).filter fun fields => fields.all fun field => field.1 ∈ known

def readExposure (text : String) : Option Exposure :=
  if text = "private" then some .privately else if text = "external" then some .externally else none

def readAuthentication (text : String) : Option EventAuthentication :=
  if text = "required" then some .required else if text = "trusted_internal" then some .trustedInternal else none

def readMode (text : String) : Option DeliveryMode :=
  if text = "none" then some .none else if text = "origin" then some .origin
  else if text = "owner" then some .owner else none

/-- The `kind` of a source chooses its model. -/
def readSource (json : Json) : Option TriggerSource := do
  let fields ← readObject json
  let kind ← (Dict.get fields "kind").bind readString
  if kind = "at" then
    let fields ← readFields ["kind", "run_at", "timezone"] json
    let runAt ← (Dict.get fields "run_at").bind readString
    let runAt ← rules.readInstant runAt
    let timezone ← (Dict.get fields "timezone").bind readString
    some (.atTrigger runAt timezone)
  else if kind = "cron" then
    let fields ← readFields ["expression", "kind", "timezone"] json
    let expression ← (Dict.get fields "expression").bind readString
    let timezone ← (Dict.get fields "timezone").bind readString
    some (.cronTrigger expression timezone)
  else if kind = "interval" then
    let fields ← readFields ["every_seconds", "kind"] json
    let everySeconds ← (Dict.get fields "every_seconds").bind readNat
    some (.intervalTrigger everySeconds)
  else if kind = "event" then
    let fields ← readFields ["authentication", "event_type", "kind", "source"] json
    let eventType ← (Dict.get fields "event_type").bind readString
    let source ← (Dict.get fields "source").bind readString
    let authentication ← readString ((Dict.get fields "authentication").getD (.string "required"))
    let authentication ← readAuthentication authentication
    some (.eventTrigger eventType source authentication)
  else none

/-- The construction of an `AgentSpecRef` -/
def checkedRef (tenantId specId : String) (revision : Nat) : Option AgentSpecRef :=
  match accepted : protocolId tenantId with
  | none => none
  | some tenant => (protocolSlug specId).map fun specId => ⟨tenant, specId, revision, protocolId_again accepted⟩

def readAgentSpec (json : Json) : Option AgentSpecRef := do
  let fields ← readFields ["revision", "spec_id", "tenant_id"] json
  let tenantId ← (Dict.get fields "tenant_id").bind readString
  let specId ← (Dict.get fields "spec_id").bind readString
  let revision ← (Dict.get fields "revision").bind readNat
  checkedRef tenantId specId revision

def readDelivery (json : Json) : Option DeliverySpec := do
  let fields ← readFields ["interface", "mode"] json
  let interface ← readNullable readString ((Dict.get fields "interface").getD .null)
  let mode ← readString ((Dict.get fields "mode").getD (.string "origin"))
  let mode ← readMode mode
  some ⟨mode, interface⟩

def readLabels : Json → Option JsonObject
  | .object fields => fields.mapM fun field => (readString field.2).map fun value => (field.1, value)
  | _ => none

/-- The fields of a payload, before they are checked. -/
def parse (json : Json) : Option TriggerSpecWrite := do
  let fields ← readFields ["agent_spec", "delivery", "enabled", "exposure", "instruction", "labels", "name", "source",
    "source_key", "source_revision"] json
  let name ← (Dict.get fields "name").bind readString
  let source ← (Dict.get fields "source").bind (readSource rules)
  let exposure ← (Dict.get fields "exposure").bind readString
  let exposure ← readExposure exposure
  let agentSpec ← (Dict.get fields "agent_spec").bind readAgentSpec
  let instruction ← (Dict.get fields "instruction").bind readString
  let delivery ← readDelivery ((Dict.get fields "delivery").getD (.object []))
  let enabled ← readBool ((Dict.get fields "enabled").getD (.bool true))
  let sourceKey ← readNullable readString ((Dict.get fields "source_key").getD .null)
  let sourceRevision ← readNullable readNat ((Dict.get fields "source_revision").getD .null)
  let labels ← readLabels ((Dict.get fields "labels").getD (.object []))
  some { name, source, exposure, agentSpec, instruction, delivery, enabled, sourceKey, sourceRevision, labels }

/-- `TriggerSpec.model_validate` on a payload -/
def readPayload (json : Json) : Option TriggerSpecWrite := (parse rules json).bind (checkedWrite rules)

theorem readFields_object {known : List String} {fields : List (String × Json)}
    (all : fields.all (fun field => field.1 ∈ known) = true) : readFields known (.object fields) = some fields := by
  rw [readFields, readObject, Option.filter_some, if_pos all]

@[simp] theorem readString_string (value : String) : readString (.string value) = some value := rfl

@[simp] theorem readBool_bool (value : Bool) : readBool (.bool value) = some value := rfl

@[simp] theorem readNat_int (number : Nat) : readNat (.int number) = some number := by
  simp [readNat]

theorem readExposure_text (exposure : Exposure) : readExposure (exposureText exposure) = some exposure := by
  cases exposure <;> rfl

theorem readAuthentication_text (authentication : EventAuthentication) :
    readAuthentication (authenticationText authentication) = some authentication := by
  cases authentication <;> rfl

theorem readMode_text (mode : DeliveryMode) : readMode (modeText mode) = some mode := by
  cases mode <;> rfl

theorem readNullable_string (value : Option String) :
    readNullable readString (dumpOptional Json.string value) = some value := by
  cases value <;> rfl

theorem readNullable_nat (value : Option Nat) :
    readNullable readNat (dumpOptional (fun number : Nat => Json.int number) value) = some value := by
  cases value with
  | none => rfl
  | some number => simp [readNullable, dumpOptional]

theorem readLabels_object (labels : JsonObject) :
    readLabels (.object (labels.map fun entry => (entry.1, Json.string entry.2))) = some labels := by
  rw [readLabels, List.mapM_map]
  induction labels with
  | nil => rfl
  | cons entry labels ih =>
    rw [List.mapM_cons, ih]
    rfl

theorem readSource_dump (source : TriggerSource) : readSource rules (dumpSource rules source) = some source := by
  cases source with
  | atTrigger runAt timezone =>
    simp [readSource, dumpSource, readObject, readFields_object, Dict.get, rules.read_write]
  | cronTrigger expression timezone => simp [readSource, dumpSource, readObject, readFields_object, Dict.get]
  | intervalTrigger everySeconds => simp [readSource, dumpSource, readObject, readFields_object, Dict.get]
  | eventTrigger eventType source authentication =>
    simp [readSource, dumpSource, readObject, readFields_object, Dict.get, readAuthentication_text]

theorem checkedRef_self {agentSpec : AgentSpecRef} (slug : protocolSlug agentSpec.specId = some agentSpec.specId) :
    checkedRef agentSpec.tenantId agentSpec.specId agentSpec.revision = some agentSpec := by
  unfold checkedRef
  split
  · rename_i refused
    rw [agentSpec.validTenant] at refused
    cases refused
  · rename_i tenant accepted
    obtain rfl : agentSpec.tenantId = tenant := Option.some.inj (agentSpec.validTenant.symm.trans accepted)
    rw [slug]
    rfl

theorem readAgentSpec_dump {agentSpec : AgentSpecRef} (slug : protocolSlug agentSpec.specId = some agentSpec.specId) :
    readAgentSpec (.object [("revision", .int agentSpec.revision), ("spec_id", .string agentSpec.specId),
      ("tenant_id", .string agentSpec.tenantId)]) = some agentSpec := by
  simp [readAgentSpec, readFields_object, Dict.get, checkedRef_self slug]

theorem readDelivery_dump (delivery : DeliverySpec) :
    readDelivery (.object [("interface", dumpOptional Json.string delivery.interface), ("mode", .string (modeText delivery.mode))]) = some delivery := by
  simp [readDelivery, readFields_object, Dict.get, readNullable_string, readMode_text]

/-- What is written is read as it was. -/
theorem parse_dump {write : TriggerSpecWrite} (slug : protocolSlug write.agentSpec.specId = some write.agentSpec.specId) :
    parse rules (dump rules write) = some write := by
  simp [parse, dump, readFields_object, Dict.get, readSource_dump, readAgentSpec_dump slug, readDelivery_dump,
    readExposure_text, readNullable_string, readNullable_nat, readLabels_object]

variable {rules}

theorem slug_of_checkedWrite {write other : TriggerSpecWrite} (checked : checkedWrite rules write = some other) :
    protocolSlug write.agentSpec.specId = some write.agentSpec.specId := by
  simp only [checkedWrite, Option.bind_eq_bind, Option.bind_eq_some_iff] at checked
  obtain ⟨_, -, _, -, _, -, _, -, _, -, _, -, _, -, valid⟩ := checked
  split at valid
  · rename_i sound
    exact sound.1
  · cases valid

/-- A payload is read as the write that it was made from is checked. -/
theorem readPayload_dump {write other : TriggerSpecWrite} (checked : checkedWrite rules write = some other) :
    readPayload rules (dump rules write) = some other := by
  rw [readPayload, parse_dump rules (slug_of_checkedWrite checked), Option.bind_some, checked]

end Payload

section Rows

variable (rules : TimeRules) (digest : Json → String)

/-- The store, with a payload in each row. -/
abbrev PayloadStore := SpecStore Json

/-- A row with the write that its payload is read as. -/
def typedRow (row : RevisionRow Json) (write : TriggerSpecWrite) : RevisionRow TriggerSpecWrite :=
  ⟨row.tenantId, row.id, row.revision, write, row.contentDigest, row.createdAt, row.createdBy⟩

/-- `TriggerSpecStore._row` -/
def readRow (row : RevisionRow Json) : Option (RevisionRow TriggerSpecWrite) :=
  (readPayload rules row.write).map (typedRow row)

def readLatest (store : PayloadStore) (key : SpecKey) : Except SpecError (Option (RevisionRow TriggerSpecWrite)) :=
  match store.latest key with
  | none => .ok none
  | some row =>
    match readRow rules row with
    | none => .error (.validation "payload_json")
    | some row => .ok (some row)

/-- `create_revision`; the write has been checked when it was made, as the new revision is. -/
def createRevision (agents : AgentSpecStore) (store : PayloadStore) (call : CreateCall TriggerSpecWrite) (now : Nat) :
    Except SpecError (PayloadStore × RevisionRow Json) := do
  TriggerSpecStore.validateTarget agents call.tenantId call.write
  let _ ← readLatest rules store call.key
  match checkedWrite rules call.write with
  | none => .error (.validation "TriggerSpec")
  | some _ =>
    store.appendRevision "TriggerSpec" digest call.key (dump rules call.write) call.expectedRevision call.createdBy now

/-- `activate` of the store -/
def activate (store : PayloadStore) (call : ActivateCall) (now : Nat) :
    Except SpecError (PayloadStore × RevisionRow TriggerSpecWrite) := do
  let (stored, target) ← store.moveActive "TriggerSpec" call.key call.revision call.expectedActiveRevision call.updatedBy now
  match readRow rules target with
  | none => .error (.validation "payload_json")
  | some target => .ok (stored, target)

def deactivate (store : PayloadStore) (key : SpecKey) (expectedActiveRevision : Int) : Except SpecError (PayloadStore × Nat) :=
  store.dropActive "TriggerSpec" key expectedActiveRevision

/-- The transactions of anyone on the store. -/
inductive Op where
  | create (agents : AgentSpecStore) (call : CreateCall TriggerSpecWrite) (now : Nat)
  | activate (call : ActivateCall) (now : Nat)
  | deactivate (key : SpecKey) (expectedActiveRevision : Int)

def step (store : PayloadStore) : Op → PayloadStore
  | .create agents call now => committed store (createRevision rules digest agents store call now)
  | .activate call now => committed store (TriggerPayloads.activate rules store call now)
  | .deactivate key expected => committed store (TriggerPayloads.deactivate store key expected)

/-- The row holds a write that passes its checks, under the digest of its payload. -/
def Readable (row : RevisionRow Json) : Prop :=
  ∃ write other, checkedWrite rules write = some other ∧ row.write = dump rules write ∧ row.contentDigest = digest row.write

structure Kept (store : PayloadStore) : Prop where
  archived : Archived store
  readable : ∀ row ∈ store.revisions, Readable rules digest row

theorem kept_empty : Kept rules digest .empty := ⟨archived_empty, by simp [SpecStore.empty]⟩

variable {rules} {digest} {store : PayloadStore}

theorem createRevision_appends {agents : AgentSpecStore} {call : CreateCall TriggerSpecWrite} {now : Nat}
    {result : PayloadStore × RevisionRow Json} (done : createRevision rules digest agents store call now = .ok result) :
    (∃ other, checkedWrite rules call.write = some other) ∧
      store.appendRevision "TriggerSpec" digest call.key (dump rules call.write) call.expectedRevision call.createdBy now =
        .ok result := by
  obtain ⟨_, -, rest⟩ := bind_eq_ok done
  obtain ⟨_, -, appended⟩ := bind_eq_ok rest
  split at appended
  · cases appended
  · rename_i checked
    exact ⟨⟨_, checked⟩, appended⟩

theorem activate_moves {call : ActivateCall} {now : Nat} {stored : PayloadStore} {row : RevisionRow TriggerSpecWrite}
    (done : activate rules store call now = .ok (stored, row)) :
    ∃ target, store.moveActive "TriggerSpec" call.key call.revision call.expectedActiveRevision call.updatedBy now =
      .ok (stored, target) ∧ readRow rules target = some row := by
  obtain ⟨⟨moved, target⟩, first, rest⟩ := bind_eq_ok done
  simp only at rest
  split at rest
  · cases rest
  · rename_i read
    obtain ⟨rfl, rfl⟩ := Prod.mk.inj (Except.ok.inj rest)
    exact ⟨target, first, read⟩

theorem readable_of_appended {call : CreateCall TriggerSpecWrite} {stored : PayloadStore} {row : RevisionRow Json}
    (checked : ∃ other, checkedWrite rules call.write = some other)
    (appended : Appended digest call.key (dump rules call.write) call.expectedRevision store stored row) :
    Readable rules digest row := by
  obtain ⟨other, passes⟩ := checked
  exact ⟨call.write, other, passes, appended.payload, appended.payload ▸ appended.content⟩

variable (rules digest) in
/-- The later store holds what the earlier one holds, and is kept. -/
structure Extends (before after : PayloadStore) : Prop where
  kept : Kept rules digest after
  grows : before.revisions <+: after.revisions

theorem createRevision_extends {agents : AgentSpecStore} {call : CreateCall TriggerSpecWrite} {now : Nat} {stored : PayloadStore}
    {row : RevisionRow Json} (kept : Kept rules digest store)
    (done : createRevision rules digest agents store call now = .ok (stored, row)) :
    Extends rules digest store stored := by
  obtain ⟨checked, append⟩ := createRevision_appends done
  rcases appendRevision_appended kept.archived append with ⟨rfl, -, -⟩ | appended
  · exact ⟨kept, List.prefix_rfl⟩
  · refine ⟨⟨appended.archived kept.archived, fun other member => ?_⟩, appended.revisions ▸ List.prefix_append _ _⟩
    rw [appended.revisions, List.mem_append, List.mem_singleton] at member
    rcases member with before | rfl
    · exact kept.readable other before
    · exact readable_of_appended checked appended

theorem extends_of_moved {key : SpecKey} {expected : Option Int} {stored : PayloadStore} (kept : Kept rules digest store)
    (moved : Moved key expected store stored) : Extends rules digest store stored :=
  ⟨⟨moved.archived, moved.revisions ▸ kept.readable⟩, moved.revisions ▸ List.prefix_rfl⟩

theorem step_extends (store : PayloadStore) (op : Op) (kept : Kept rules digest store) :
    Extends rules digest store (step rules digest store op) := by
  have stays : Extends rules digest store store := ⟨kept, List.prefix_rfl⟩
  cases op with
  | create agents call now =>
    rw [step]
    cases done : createRevision rules digest agents store call now with
    | error error => exact stays
    | ok result => exact createRevision_extends kept done
  | activate call now =>
    rw [step]
    cases done : activate rules store call now with
    | error error => exact stays
    | ok result =>
      obtain ⟨target, moved, -⟩ := activate_moves done
      exact extends_of_moved kept (moveActive_moved kept.archived moved)
  | deactivate key expected =>
    rw [step]
    cases done : deactivate store key expected with
    | error error => exact stays
    | ok result => exact extends_of_moved kept (dropActive_moved kept.archived done)

theorem exec_extends (kept : Kept rules digest store) (ops : List Op) :
    Extends rules digest store (Run.exec (step rules digest) store ops) :=
  ⟨Run.exec_invariant (fun store op kept => (step_extends store op kept).kept) kept ops,
    Run.exec_related (R := fun before after : PayloadStore => before.revisions <+: after.revisions)
      (fun _ => List.prefix_rfl) (fun _ _ _ first second => first.trans second)
      (fun store op kept => (step_extends store op kept).kept) (fun store op kept => (step_extends store op kept).grows) kept ops⟩

/-- A revision that was found is found in every later store. -/
theorem getRevision_grows {later : PayloadStore} (grows : store.revisions <+: later.revisions) {key : SpecKey} {revision : Int}
    {row : RevisionRow Json} (found : store.getRevision key revision = some row) : later.getRevision key revision = some row := by
  obtain ⟨added, same⟩ := grows
  rw [SpecStore.getRevision, ← same, List.find?_append]
  rw [SpecStore.getRevision] at found
  rw [found]
  rfl

/-- A stored revision is found by its key and number. -/
theorem getRevision_of_mem (archived : Archived store) {row : RevisionRow Json} (member : row ∈ store.revisions) :
    store.getRevision row.key row.revision = some row := by
  cases found : store.getRevision row.key row.revision with
  | none => simpa using List.find?_eq_none.mp found row member
  | some other =>
    obtain ⟨inside, own, number⟩ := getRevision_mem found
    have distinct : ((store.revisionsOf row.key).map RevisionRow.revision).Nodup :=
      archived.numbered row.key ▸ List.nodup_range'
    have same := Rows.eq_of_key_eq distinct (mem_revisionsOf.mpr ⟨inside, own⟩) (mem_revisionsOf.mpr ⟨member, rfl⟩)
      (Int.natCast_inj.mp number)
    rw [same]

theorem appendRevision_digest {label createdBy : String} {key : SpecKey} {payload : Json} {expected : Option Int} {now : Nat}
    {stored : PayloadStore} {row : RevisionRow Json}
    (done : store.appendRevision label digest key payload expected createdBy now = .ok (stored, row)) :
    row.contentDigest = digest payload := by
  unfold SpecStore.appendRevision at done
  split at done
  · split at done
    · cases done
    · exact (insertRevision_row done).2.2.2.2.2.2.1
  · split at done
    · rename_i same
      cases done
      exact same
    · split at done
      · cases done
      · exact (insertRevision_row done).2.2.2.2.2.2.1

/-- No other payload has the digest of a stored one. -/
def TellsApart (digest : Json → String) (store : PayloadStore) : Prop :=
  ∀ row ∈ store.revisions, ∀ payload, digest row.write = digest payload → row.write = payload

/-- The revision that a call comes to holds its write. -/
structure Holds (key : SpecKey) (payload : Json) (store : PayloadStore) (row : RevisionRow Json) : Prop where
  own : row.key = key
  payload : row.write = payload
  numbered : 1 ≤ row.revision
  found : store.getRevision key row.revision = some row

theorem Holds.later {key : SpecKey} {payload : Json} {row : RevisionRow Json} {later : PayloadStore}
    (holds : Holds key payload store row) (grows : store.revisions <+: later.revisions) : Holds key payload later row :=
  ⟨holds.own, holds.payload, holds.numbered, getRevision_grows grows holds.found⟩

theorem moveActive_target {label updatedBy : String} {key : SpecKey} {revision : Int} {expected : Option Int} {now : Nat}
    {stored : PayloadStore} {target : RevisionRow Json}
    (done : store.moveActive label key revision expected updatedBy now = .ok (stored, target)) :
    store.getRevision key revision = some target := by
  unfold SpecStore.moveActive at done
  split at done
  · cases done
  rename_i aim found
  rw [found]
  split at done
  · split at done <;> cases done
    rfl
  · split at done
    · cases done
      rfl
    split at done
    · cases done
    simp only at done
    split at done <;> cases done
    rfl

theorem createRevision_holds {agents : AgentSpecStore} {call : CreateCall TriggerSpecWrite} {now : Nat} {stored later : PayloadStore}
    {row : RevisionRow Json} (kept : Kept rules digest store) (tenant : protocolId call.tenantId = some call.tenantId)
    (slug : protocolSlug call.specId = some call.specId)
    (done : createRevision rules digest agents store call now = .ok (stored, row)) (grows : stored.revisions <+: later.revisions)
    (tells : TellsApart digest later) : Holds call.key (dump rules call.write) stored row := by
  have extended := createRevision_extends kept done
  obtain ⟨-, append⟩ := createRevision_appends done
  obtain ⟨own, inside⟩ : row.key = call.key ∧ row ∈ stored.revisions := by
    rcases appendRevision_appended kept.archived append with ⟨rfl, inside, own⟩ | appended
    · exact ⟨own, inside⟩
    · obtain ⟨named, titled⟩ := appended.trimmed
      have tenant' : row.tenantId = call.tenantId := Option.some.inj (named.symm.trans tenant)
      have id' : row.id = call.specId := Option.some.inj (titled.symm.trans slug)
      exact ⟨Prod.ext tenant' id', by simp [appended.revisions]⟩
  obtain ⟨_, _, _, _, content⟩ := extended.kept.readable row inside
  have payload := tells row (grows.subset inside) _ (content.symm.trans (appendRevision_digest append))
  have number := Rows.rank_of_numbered (extended.kept.archived.numbered row.key) (mem_revisionsOf.mpr ⟨inside, rfl⟩)
  exact ⟨own, payload, number.1, own ▸ getRevision_of_mem extended.kept.archived inside⟩

theorem readRow_of_readable {row : RevisionRow Json} (readable : Readable rules digest row) :
    ∃ read, readRow rules row = some read := by
  obtain ⟨write, other, checked, payload, -⟩ := readable
  exact ⟨_, by rw [readRow, payload, readPayload_dump checked]; rfl⟩

end Rows

end OpenTulpa.Specs.TriggerPayloads
