import OpenTulpa.Specs.Store
import Mathlib.Data.List.Chain

/-! The spec stores keep append-only chains without lost updates, over every interleaving of
their calls: a revision is appended only by a call that expected the one before it, an active
reference is moved only by a call that expected what it replaces, and every trigger revision
keeps the agent spec it was validated against. -/

namespace OpenTulpa.Specs.Chains

open Library Outcome Models Store

section Archive

variable {Write : Type}

/-- The revisions of a spec are numbered from one, no neighbours have the same content, and an
active reference names one of them. -/
structure Archived (store : SpecStore Write) : Prop where
  named : ∀ row ∈ store.revisions, protocolId row.tenantId = some row.tenantId ∧ protocolSlug row.id = some row.id
  numbered : ∀ key, (store.revisionsOf key).map RevisionRow.revision = List.range' 1 (store.revisionsOf key).length
  changing : ∀ key, (store.revisionsOf key).IsChain fun before after => before.contentDigest ≠ after.contentDigest
  single : (store.active.map ActiveRow.key).Nodup
  stored : ∀ row ∈ store.active, ∃ revision ∈ store.revisions,
    revision.key = row.key ∧ revision.revision = row.revision

theorem archived_empty : Archived (SpecStore.empty : SpecStore Write) where
  named := by simp [SpecStore.empty]
  numbered := fun _ => rfl
  changing := fun _ => by simp [SpecStore.empty, SpecStore.revisionsOf]
  single := by simp [SpecStore.empty]
  stored := by simp [SpecStore.empty]

variable {store stored : SpecStore Write}

theorem mem_revisionsOf {key : SpecKey} {row : RevisionRow Write} :
    row ∈ store.revisionsOf key ↔ row ∈ store.revisions ∧ row.key = key := by
  simp [SpecStore.revisionsOf]

theorem revisionsOf_append {row : RevisionRow Write} (appended : stored.revisions = store.revisions ++ [row])
    (key : SpecKey) : stored.revisionsOf key = store.revisionsOf key ++ if row.key = key then [row] else [] := by
  by_cases same : row.key = key <;> simp [SpecStore.revisionsOf, appended, List.filter_append, same]

/-- What `create_revision` appends. -/
structure Appended (digest : Write → String) (key : SpecKey) (write : Write) (expected : Option Int)
    (store stored : SpecStore Write) (row : RevisionRow Write) : Prop where
  revisions : stored.revisions = store.revisions ++ [row]
  active : stored.active = store.active
  trimmed : protocolId key.1 = some row.tenantId ∧ protocolSlug key.2 = some row.id
  payload : row.write = write
  content : row.contentDigest = digest write
  next : row.revision = (store.revisionsOf row.key).length + 1
  changed : ∀ last ∈ (store.revisionsOf row.key).getLast?, last.contentDigest ≠ row.contentDigest
  expected : ∀ k, 1 ≤ k → row.revision = k + 1 → expected = some (k : Int) ∧ row.key = key

theorem insertRevision_row {key : SpecKey} {revision now : Nat} {write : Write} {digest createdBy : String}
    {row : RevisionRow Write} (done : store.insertRevision key revision write digest now createdBy = .ok (stored, row)) :
    stored.revisions = store.revisions ++ [row] ∧ stored.active = store.active ∧
      protocolId key.1 = some row.tenantId ∧ protocolSlug key.2 = some row.id ∧ row.revision = revision ∧
      row.write = write ∧ row.contentDigest = digest ∧
      ∀ other ∈ store.revisionsOf row.key, other.revision ≠ revision := by
  unfold SpecStore.insertRevision at done
  split at done
  · cases done
  · cases done
  · cases done
  · rename_i tenantId id creator tenant slug _
    split at done
    · cases done
    · rename_i absent
      cases done
      refine ⟨rfl, rfl, tenant, slug, rfl, rfl, rfl, ?_⟩
      intro other member same
      obtain ⟨inside, named⟩ := mem_revisionsOf.mp member
      refine absent (List.any_eq_true.mpr ⟨other, inside, ?_⟩)
      rw [named, same]
      simp [RevisionRow.key]

theorem appendRevision_appended {label : String} {digest : Write → String} {key : SpecKey} {write : Write}
    {expected : Option Int} {createdBy : String} {now : Nat} {row : RevisionRow Write} (archived : Archived store)
    (done : store.appendRevision label digest key write expected createdBy now = .ok (stored, row)) :
    (stored = store ∧ row ∈ store.revisions ∧ row.key = key) ∨ Appended digest key write expected store stored row := by
  unfold SpecStore.appendRevision at done
  split at done
  · split at done
    · cases done
    right
    obtain ⟨revisions, active, tenant, slug, first, same, content, absent⟩ := insertRevision_row done
    -- a trimmed key may already have revisions, but then its first one is taken
    have empty : store.revisionsOf row.key = [] := by
      cases rows : store.revisionsOf row.key with
      | nil => rfl
      | cons head rest =>
        have numbered := archived.numbered row.key
        rw [rows] at numbered
        simp only [List.map_cons, List.length_cons, List.range'_succ, List.cons.injEq] at numbered
        exact absurd numbered.1 (absent head (by simp [rows]))
    refine ⟨revisions, active, ⟨tenant, slug⟩, same, content, ?_, ?_, ?_⟩
    · rw [empty, first]
      rfl
    · simp [empty]
    · intro k least above
      omega
  · rename_i current found
    have last : current ∈ (store.revisionsOf key).getLast? := by
      rw [← Rows.argmax_of_numbered (archived.numbered key)]
      exact found
    obtain ⟨inside, own⟩ := mem_revisionsOf.mp (List.mem_of_getLast? last)
    split at done
    · cases done
      exact Or.inl ⟨rfl, inside, own⟩
    rename_i differs
    split at done
    · cases done
    rename_i unexpected
    right
    obtain ⟨revisions, active, tenant, slug, number, same, content, absent⟩ := insertRevision_row done
    obtain ⟨validTenant, validSlug⟩ := archived.named current inside
    have kept : row.key = key := by
      subst own
      have tenantSame : row.tenantId = current.tenantId := Option.some.inj (tenant.symm.trans validTenant)
      have slugSame : row.id = current.id := Option.some.inj (slug.symm.trans validSlug)
      rw [RevisionRow.key, RevisionRow.key, tenantSame, slugSame]
    have count := Rows.rank_getLast (archived.numbered key) last
    refine ⟨revisions, active, ⟨tenant, slug⟩, same, content, ?_, ?_, ?_⟩
    · rw [kept, number, count]
    · intro other top
      rw [kept] at top
      obtain rfl : current = other := by rw [Option.mem_def] at top last; rw [last] at top; exact Option.some.inj top
      rw [content]
      exact differs
    · intro k least above
      obtain rfl : current.revision = k := by omega
      exact ⟨not_not.mp unexpected, kept⟩

theorem Appended.archived {digest : Write → String} {key : SpecKey} {write : Write} {expected : Option Int}
    {row : RevisionRow Write} (appended : Appended digest key write expected store stored row) (archived : Archived store) : Archived stored where
  named := by
    intro other member
    rw [appended.revisions, List.mem_append, List.mem_singleton] at member
    rcases member with before | rfl
    · exact archived.named other before
    · exact ⟨protocolId_again appended.trimmed.1, protocolSlug_again appended.trimmed.2⟩
  numbered := by
    intro key
    rw [revisionsOf_append appended.revisions]
    by_cases here : row.key = key
    · subst here
      rw [if_pos rfl]
      exact Rows.numbered_append (archived.numbered row.key) appended.next
    · simpa [here] using archived.numbered key
  changing := by
    intro key
    rw [revisionsOf_append appended.revisions]
    by_cases here : row.key = key
    · subst here
      rw [if_pos rfl, List.isChain_append]
      refine ⟨archived.changing row.key, by simp, ?_⟩
      intro last top next first
      obtain rfl : row = next := by simpa using first
      exact appended.changed last top
    · simpa [here] using archived.changing key
  single := appended.active ▸ archived.single
  stored := by
    intro active member
    rw [appended.active] at member
    obtain ⟨revision, inside, named, number⟩ := archived.stored active member
    exact ⟨revision, by simp [appended.revisions, inside], named, number⟩

/-- What a call does that moves the active reference of a spec. -/
structure Moved (key : SpecKey) (expected : Option Int) (store stored : SpecStore Write) : Prop where
  revisions : stored.revisions = store.revisions
  archived : Archived stored
  here : stored.activeRevision key = store.activeRevision key ∨
    expected = asInt (store.activeRevision key)
  elsewhere : ∀ other, other ≠ key → stored.activeRevision other = store.activeRevision other

theorem Moved.refl (archived : Archived store) (key : SpecKey) (expected : Option Int) : Moved key expected store store :=
  ⟨rfl, archived, Or.inl rfl, fun _ _ => rfl⟩

theorem getRevision_mem {key : SpecKey} {revision : Int} {row : RevisionRow Write}
    (found : store.getRevision key revision = some row) :
    row ∈ store.revisions ∧ row.key = key ∧ (row.revision : Int) = revision := by
  have chosen := List.find?_some found
  simp only [Bool.and_eq_true, beq_iff_eq] at chosen
  exact ⟨List.mem_of_find?_eq_some found, chosen⟩

theorem activeRow_key {key : SpecKey} {row : ActiveRow} (found : store.activeRow key = some row) :
    row ∈ store.active ∧ row.key = key :=
  ⟨List.mem_of_find?_eq_some found, by simpa using List.find?_some found⟩

theorem activate_fresh {key : SpecKey} {target : RevisionRow Write} {now : Nat} {updatedBy : String}
    (archived : Archived store) (inside : target ∈ store.revisions) (own : target.key = key)
    (absent : store.activeRow key = none) :
    Moved key none store
      { store with active := store.active ++ [⟨key.1, key.2, target.revision, now, updatedBy⟩] } where
  revisions := rfl
  archived :=
    { named := archived.named
      numbered := archived.numbered
      changing := archived.changing
      single := by
        have missing : key ∉ store.active.map ActiveRow.key := by
          intro member
          obtain ⟨row, present, named⟩ := List.mem_map.mp member
          exact List.find?_eq_none.mp absent row present (by simp [named])
        rw [List.map_append, List.nodup_append]
        refine ⟨archived.single, by simp, ?_⟩
        intro other present last same
        obtain rfl : last = key := by simpa [ActiveRow.key] using same
        rintro rfl
        exact missing present
      stored := by
        intro row member
        rcases List.mem_append.mp member with before | new
        · exact archived.stored row before
        · rw [List.mem_singleton.mp new]
          exact ⟨target, inside, own, rfl⟩ }
  here := Or.inr (by simp [asInt, SpecStore.activeRevision, absent])
  elsewhere := by
    intro other different
    have apart : ActiveRow.key ⟨key.1, key.2, target.revision, now, updatedBy⟩ ≠ other := fun same => different same.symm
    simp [SpecStore.activeRevision, SpecStore.activeRow, List.find?_append, apart]

section Swap

variable {key : SpecKey} {active : ActiveRow} {change : ActiveRow → ActiveRow}

/-- The update of the one active reference of a spec to a stored revision. -/
theorem activate_swap {target : RevisionRow Write} (archived : Archived store) (inside : target ∈ store.revisions)
    (own : target.key = key) (found : store.activeRow key = some active)
    (kept : ∀ row, (change row).key = row.key) (aims : ∀ row, (change row).revision = target.revision) :
    Moved key (some (active.revision : Int)) store { store with
      active := Rows.update (fun row => row.key == key && row.revision == active.revision) change store.active } where
  revisions := rfl
  archived :=
    { named := archived.named
      numbered := archived.numbered
      changing := archived.changing
      single := by
        rw [Rows.map_update ActiveRow.key fun row _ => kept row]
        exact archived.single
      stored := by
        intro row member
        rcases Rows.mem_update.mp member with ⟨old, _, chosen, rfl⟩ | ⟨before, _⟩
        · simp only [Bool.and_eq_true, beq_iff_eq] at chosen
          exact ⟨target, inside, by rw [own, kept, chosen.1], (aims old).symm⟩
        · exact archived.stored row before }
  here := Or.inr (by simp [asInt, SpecStore.activeRevision, found])
  elsewhere := by
    intro other different
    have search := Rows.find_update (fun row => row.key == other)
      (fun row : ActiveRow => row.key == key && row.revision == active.revision) change store.active
      fun row _ => by rw [kept]
    simp only [SpecStore.activeRevision, SpecStore.activeRow, search]
    cases present : store.active.find? fun row => row.key == other with
    | none => rfl
    | some row =>
      have named : row.key = other := by simpa using List.find?_some present
      simp [named, different]

theorem deactivate_moved (archived : Archived store) (found : store.activeRow key = some active) :
    Moved key (some (active.revision : Int)) store { store with
      active := store.active.filter fun row => !(row.key == key && row.revision == active.revision) } where
  revisions := rfl
  archived :=
    { named := archived.named
      numbered := archived.numbered
      changing := archived.changing
      single := archived.single.sublist (List.filter_sublist.map _)
      stored := fun row member => archived.stored row (List.mem_of_mem_filter member) }
  here := Or.inr (by simp [asInt, SpecStore.activeRevision, found])
  elsewhere := by
    intro other different
    simp only [SpecStore.activeRevision, SpecStore.activeRow, List.find?_filter]
    congr 2
    funext row
    by_cases named : row.key = other
    · simp [named, different]
    · simp [named]

end Swap

theorem moveActive_moved {label : String} {key : SpecKey} {revision : Int} {expected : Option Int} {updatedBy : String}
    {now : Nat} {row : RevisionRow Write} (archived : Archived store)
    (done : store.moveActive label key revision expected updatedBy now = .ok (stored, row)) :
    Moved key expected store stored := by
  unfold SpecStore.moveActive at done
  split at done
  · cases done
  rename_i target aimed
  obtain ⟨inside, own, _⟩ := getRevision_mem aimed
  split at done
  · rename_i absent
    split at done
    · cases done
    · rename_i unexpected
      cases done
      rw [not_not.mp unexpected]
      exact activate_fresh archived inside own absent
  · rename_i active found
    split at done
    · cases done
      exact .refl archived key expected
    split at done
    · cases done
    rename_i unexpected
    simp only at done
    split at done
    · cases done
    · cases done
      rw [not_not.mp unexpected]
      exact activate_swap archived inside own found (fun _ => rfl) fun _ => rfl

theorem dropActive_moved {label : String} {key : SpecKey} {expected : Int} {dropped : Nat} (archived : Archived store)
    (done : store.dropActive label key expected = .ok (stored, dropped)) :
    Moved key (some expected) store stored := by
  unfold SpecStore.dropActive at done
  split at done
  · cases done
  rename_i active found
  split at done
  · cases done
  rename_i unexpected
  simp only at done
  split at done
  · cases done
  · cases done
    rw [← not_not.mp unexpected]
    exact deactivate_moved archived found

end Archive

/-- Both stores, and the trigger calls that have validated their target. -/
structure SpecStores where
  agents : AgentSpecStore
  triggers : TriggerSpecStore
  validated : List (CreateCall TriggerSpecWrite)
  deriving DecidableEq

def SpecStores.empty : SpecStores := ⟨.empty, .empty, []⟩

/-- The transactions of the calls, by any number of clients. `createTriggerRevision` is that of a
call whose target was validated some time before. -/
inductive Op where
  | createAgentRevision (call : CreateCall AgentSpecWrite) (now : Nat)
  | activateAgent (ref : AgentSpecRef) (expectedActiveRevision : Option Int) (updatedBy : String) (now : Nat)
  | deactivateAgent (key : SpecKey) (expectedActiveRevision : Int)
  | validateTarget (call : CreateCall TriggerSpecWrite)
  | createTriggerRevision (call : CreateCall TriggerSpecWrite) (now : Nat)
  | activateTrigger (call : ActivateCall) (now : Nat)
  | deactivateTrigger (key : SpecKey) (expectedActiveRevision : Int)
  deriving DecidableEq

/-- What a call expects the active reference of an agent spec to be. -/
def Op.agentExpects (key : SpecKey) : Op → Option (Option Int)
  | .activateAgent ref expected _ _ => if (ref.tenantId, ref.specId) = key then some expected else none
  | .deactivateAgent other expected => if other = key then some (some expected) else none
  | _ => none

def Op.triggerExpects (key : SpecKey) : Op → Option (Option Int)
  | .activateTrigger call _ => if call.key = key then some call.expectedActiveRevision else none
  | .deactivateTrigger other expected => if other = key then some (some expected) else none
  | _ => none

section Run

variable (agentDigest : AgentSpecWrite → String) (triggerDigest : TriggerSpecWrite → String)

def step (s : SpecStores) : Op → SpecStores
  | .createAgentRevision call now =>
    { s with agents := committed s.agents (AgentSpecStore.createRevision agentDigest s.agents call now) }
  | .activateAgent ref expected updatedBy now =>
    { s with agents := committed s.agents (AgentSpecStore.activate s.agents ref expected updatedBy now) }
  | .deactivateAgent key expected =>
    { s with agents := committed s.agents (AgentSpecStore.deactivate s.agents key expected) }
  | .validateTarget call =>
    match TriggerSpecStore.validateTarget s.agents call.tenantId call.write with
    | .ok _ => { s with validated := s.validated ++ [call] }
    | .error _ => s
  | .createTriggerRevision call now =>
    if call ∈ s.validated then
      { s with
        triggers := committed s.triggers (TriggerSpecStore.appendValidated triggerDigest s.triggers call now)
        validated := s.validated.erase call }
    else s
  | .activateTrigger call now =>
    { s with triggers := committed s.triggers (TriggerSpecStore.activate s.triggers call now) }
  | .deactivateTrigger key expected =>
    { s with triggers := committed s.triggers (TriggerSpecStore.deactivate s.triggers key expected) }

end Run

/-- The write refers to a stored agent spec of the tenant that is isolated as the trigger is exposed. -/
def Bound (agents : AgentSpecStore) (tenantId : String) (write : TriggerSpecWrite) : Prop :=
  write.agentSpec.tenantId = tenantId ∧ ∃ target ∈ agents.revisions,
    target.key = (write.agentSpec.tenantId, write.agentSpec.specId) ∧
    target.revision = write.agentSpec.revision ∧ target.write.isolation = write.exposure

theorem Bound.mono {agents later : AgentSpecStore} {tenantId : String} {write : TriggerSpecWrite}
    (bound : Bound agents tenantId write) (grows : agents.revisions ⊆ later.revisions) : Bound later tenantId write := by
  obtain ⟨tenant, target, inside, rest⟩ := bound
  exact ⟨tenant, target, grows inside, rest⟩

theorem validateTarget_bound {agents : AgentSpecStore} {tenantId : String} {write : TriggerSpecWrite}
    (accepted : TriggerSpecStore.validateTarget agents tenantId write = .ok ()) : Bound agents tenantId write := by
  unfold TriggerSpecStore.validateTarget at accepted
  split at accepted
  · cases accepted
  rename_i tenant
  split at accepted
  · cases accepted
  rename_i target found
  split at accepted
  · cases accepted
  rename_i isolation
  obtain ⟨inside, own, revision⟩ := getRevision_mem found
  exact ⟨not_not.mp tenant, target, inside, own, by exact_mod_cast revision, not_not.mp isolation⟩

/-- A revision that a validated call appends is bound. -/
theorem Appended.bound {agents : AgentSpecStore} {digest : TriggerSpecWrite → String} {call : CreateCall TriggerSpecWrite}
    {store stored : TriggerSpecStore} {row : RevisionRow TriggerSpecWrite}
    (appended : Appended digest call.key call.write call.expectedRevision store stored row)
    (bound : Bound agents call.tenantId call.write) : Bound agents row.tenantId row.write := by
  obtain ⟨tenant, target⟩ := bound
  have trimmed : protocolId call.tenantId = some row.tenantId := appended.trimmed.1
  rw [← tenant, call.write.agentSpec.validTenant] at trimmed
  rw [appended.payload]
  exact ⟨Option.some.inj trimmed, target⟩

structure Sound (s : SpecStores) : Prop where
  agents : Archived s.agents
  triggers : Archived s.triggers
  bound : ∀ row ∈ s.triggers.revisions, Bound s.agents row.tenantId row.write
  validated : ∀ call ∈ s.validated, Bound s.agents call.tenantId call.write

theorem sound_empty : Sound .empty where
  agents := archived_empty
  triggers := archived_empty
  bound := by simp [SpecStores.empty, SpecStore.empty]
  validated := by simp [SpecStores.empty]

/-- What one transaction does to a store: it leaves it, appends one revision for a call, or
moves the active reference of one spec for a call. -/
inductive Change {Write : Type} (digest : Write → String) (creates : Option (CreateCall Write))
    (expects : SpecKey → Option (Option Int)) (store : SpecStore Write) : SpecStore Write → Prop where
  | stays : Change digest creates expects store store
  | appends {stored : SpecStore Write} (call : CreateCall Write) (row : RevisionRow Write)
      (called : creates = some call)
      (appended : Appended digest call.key call.write call.expectedRevision store stored row) :
      Change digest creates expects store stored
  | moves {stored : SpecStore Write} (key : SpecKey) (expected : Option Int) (called : expects key = some expected)
      (moved : Moved key expected store stored) : Change digest creates expects store stored

section Change

variable {Write : Type} {digest : Write → String} {creates : Option (CreateCall Write)}
  {expects : SpecKey → Option (Option Int)} {store stored : SpecStore Write}

theorem Change.archived (change : Change digest creates expects store stored) (archived : Archived store) :
    Archived stored := by
  cases change with
  | stays => exact archived
  | appends call row called appended => exact appended.archived archived
  | moves key expected called moved => exact moved.archived

theorem Change.grows (change : Change digest creates expects store stored) : store.revisions <+: stored.revisions := by
  cases change with
  | stays => exact List.prefix_rfl
  | appends call row called appended => exact appended.revisions ▸ List.prefix_append _ _
  | moves key expected called moved => exact moved.revisions ▸ List.prefix_rfl

/-- No update is lost: a new revision after the first was made by a call that expected the one
before it, and an active reference is moved by a call that expected what it replaces. -/
structure Expected (creates : Option (CreateCall Write)) (expects : SpecKey → Option (Option Int))
    (store stored : SpecStore Write) : Prop where
  created : ∀ row ∈ stored.revisions, row ∉ store.revisions → ∀ k, 1 ≤ k → row.revision = k + 1 →
    ∃ call, creates = some call ∧ call.key = row.key ∧ call.expectedRevision = some (k : Int)
  moved : ∀ key, stored.activeRevision key ≠ store.activeRevision key →
    expects key = some (asInt (store.activeRevision key))

theorem Change.created (change : Change digest creates expects store stored) {row : RevisionRow Write}
    (new : row ∈ stored.revisions) (absent : row ∉ store.revisions) {k : Nat} (least : 1 ≤ k)
    (number : row.revision = k + 1) :
    ∃ call, creates = some call ∧ call.key = row.key ∧ call.expectedRevision = some (k : Int) := by
  cases change with
  | stays => exact absurd new absent
  | appends call added called appended =>
    rw [appended.revisions, List.mem_append, List.mem_singleton] at new
    rcases new with old | rfl
    · exact absurd old absent
    · obtain ⟨expected, own⟩ := appended.expected k least number
      exact ⟨call, called, own.symm, expected⟩
  | moves key expected called moved => exact absurd (moved.revisions ▸ new) absent

theorem Change.activeRevision (change : Change digest creates expects store stored) {key : SpecKey}
    (moved : stored.activeRevision key ≠ store.activeRevision key) :
    expects key = some (asInt (store.activeRevision key)) := by
  cases change with
  | stays => exact absurd rfl moved
  | appends call row called appended =>
    refine absurd ?_ moved
    rw [SpecStore.activeRevision, SpecStore.activeRevision, SpecStore.activeRow, SpecStore.activeRow, appended.active]
  | moves other expected called changed =>
    by_cases same : key = other
    · subst same
      rcases changed.here with equal | replaced
      · exact absurd equal moved
      · rw [called, replaced]
    · exact absurd (changed.elsewhere key same) moved

theorem Change.expected (change : Change digest creates expects store stored) : Expected creates expects store stored :=
  ⟨fun _ new absent _ least number => change.created new absent least number, fun _ moved => change.activeRevision moved⟩

end Change

/-- The call whose revision a transaction may append. -/
def Op.agentCreates : Op → Option (CreateCall AgentSpecWrite)
  | .createAgentRevision call _ => some call
  | _ => none

def Op.triggerCreates (s : SpecStores) : Op → Option (CreateCall TriggerSpecWrite)
  | .createTriggerRevision call _ => if call ∈ s.validated then some call else none
  | _ => none

section Transactions

variable {Write : Type} {digest : Write → String} {creates : Option (CreateCall Write)}
  {expects : SpecKey → Option (Option Int)} {store : SpecStore Write} {label : String} {now : Nat}

theorem appendRevision_change {call : CreateCall Write} (archived : Archived store) (called : creates = some call) :
    Change digest creates expects store (committed store
      (store.appendRevision label digest call.key call.write call.expectedRevision call.createdBy now)) := by
  cases done : store.appendRevision label digest call.key call.write call.expectedRevision call.createdBy now with
  | error error => exact .stays
  | ok result =>
    obtain ⟨stored, row⟩ := result
    rcases appendRevision_appended archived done with ⟨rfl, _, _⟩ | appended
    · exact .stays
    · exact .appends call row called appended

theorem moveActive_change {key : SpecKey} {revision : Int} {expected : Option Int} {updatedBy : String}
    (archived : Archived store) (called : expects key = some expected) :
    Change digest creates expects store
      (committed store (store.moveActive label key revision expected updatedBy now)) := by
  cases done : store.moveActive label key revision expected updatedBy now with
  | error error => exact .stays
  | ok result => exact .moves key expected called (moveActive_moved archived done)

theorem dropActive_change {key : SpecKey} {expected : Int} (archived : Archived store)
    (called : expects key = some (some expected)) :
    Change digest creates expects store (committed store (store.dropActive label key expected)) := by
  cases done : store.dropActive label key expected with
  | error error => exact .stays
  | ok result => exact .moves key (some expected) called (dropActive_moved archived done)

end Transactions

section Steps

variable {agentDigest : AgentSpecWrite → String} {triggerDigest : TriggerSpecWrite → String} {s : SpecStores}

theorem step_agents (sound : Sound s) (op : Op) :
    Change agentDigest op.agentCreates (fun key => op.agentExpects key) s.agents
      (step agentDigest triggerDigest s op).agents := by
  cases op with
  | createAgentRevision call now => exact appendRevision_change sound.agents rfl
  | activateAgent ref expected updatedBy now => exact moveActive_change sound.agents (if_pos rfl)
  | deactivateAgent key expected => exact dropActive_change sound.agents (if_pos rfl)
  | validateTarget call =>
    simp only [step]
    split <;> exact .stays
  | createTriggerRevision call now =>
    simp only [step]
    split <;> exact .stays
  | activateTrigger call now => exact .stays
  | deactivateTrigger key expected => exact .stays

theorem step_triggers (sound : Sound s) (op : Op) :
    Change triggerDigest (op.triggerCreates s) (fun key => op.triggerExpects key) s.triggers
      (step agentDigest triggerDigest s op).triggers := by
  cases op with
  | createAgentRevision call now => exact .stays
  | activateAgent ref expected updatedBy now => exact .stays
  | deactivateAgent key expected => exact .stays
  | validateTarget call =>
    simp only [step]
    split <;> exact .stays
  | createTriggerRevision call now =>
    simp only [step]
    split
    · rename_i validated
      exact appendRevision_change sound.triggers (if_pos validated)
    · exact .stays
  | activateTrigger call now => exact moveActive_change sound.triggers (if_pos rfl)
  | deactivateTrigger key expected => exact dropActive_change sound.triggers (if_pos rfl)

theorem step_validated {op : Op} {call : CreateCall TriggerSpecWrite}
    (member : call ∈ (step agentDigest triggerDigest s op).validated) :
    call ∈ s.validated ∨ Bound s.agents call.tenantId call.write := by
  cases op with
  | validateTarget other =>
    simp only [step] at member
    split at member
    · rename_i accepted
      rcases List.mem_append.mp member with before | new
      · exact Or.inl before
      · rw [List.mem_singleton.mp new]
        exact Or.inr (validateTarget_bound accepted)
    · exact Or.inl member
  | createTriggerRevision other now =>
    simp only [step] at member
    split at member
    · exact Or.inl (List.mem_of_mem_erase member)
    · exact Or.inl member
  | createAgentRevision _ _ | activateAgent _ _ _ _ | deactivateAgent _ _ | activateTrigger _ _ | deactivateTrigger _ _ =>
    exact Or.inl member

theorem triggerCreates_validated {op : Op} {call : CreateCall TriggerSpecWrite} (called : op.triggerCreates s = some call) :
    call ∈ s.validated := by
  cases op with
  | createTriggerRevision other now =>
    simp only [Op.triggerCreates] at called
    split at called
    · cases called
      assumption
    · cases called
  | createAgentRevision _ _ | activateAgent _ _ _ _ | deactivateAgent _ _ | validateTarget _ => cases called
  | activateTrigger _ _ | deactivateTrigger _ _ => cases called

theorem step_sound (s : SpecStores) (op : Op) (sound : Sound s) : Sound (step agentDigest triggerDigest s op) := by
  have agents : Change agentDigest op.agentCreates (fun key => op.agentExpects key) s.agents
    (step agentDigest triggerDigest s op).agents := step_agents sound op
  have triggers : Change triggerDigest (op.triggerCreates s) (fun key => op.triggerExpects key) s.triggers
    (step agentDigest triggerDigest s op).triggers := step_triggers sound op
  refine ⟨agents.archived sound.agents, triggers.archived sound.triggers, ?_, ?_⟩
  · intro row member
    have old : row ∈ s.triggers.revisions → Bound (step agentDigest triggerDigest s op).agents row.tenantId row.write :=
      fun before => (sound.bound row before).mono agents.grows.subset
    generalize (step agentDigest triggerDigest s op).triggers = stored at triggers member
    cases triggers with
    | stays => exact old member
    | appends call added called appended =>
      rw [appended.revisions, List.mem_append, List.mem_singleton] at member
      rcases member with before | rfl
      · exact old before
      · exact (appended.bound (sound.validated call (triggerCreates_validated called))).mono agents.grows.subset
    | moves key expected called moved => exact old (moved.revisions ▸ member)
  · intro call member
    rcases step_validated member with before | bound
    · exact (sound.validated call before).mono agents.grows.subset
    · exact bound.mono agents.grows.subset

end Steps

/-- Nothing that is stored is rewritten. -/
structure Grown (s later : SpecStores) : Prop where
  agents : s.agents.revisions <+: later.agents.revisions
  triggers : s.triggers.revisions <+: later.triggers.revisions

theorem Grown.refl (s : SpecStores) : Grown s s := ⟨List.prefix_rfl, List.prefix_rfl⟩

theorem Grown.trans (s middle later : SpecStores) (first : Grown s middle) (second : Grown middle later) : Grown s later :=
  ⟨first.agents.trans second.agents, first.triggers.trans second.triggers⟩

/-- Both stores keep append-only chains: in every reachable state the revisions of each spec are
numbered from one and change from one to the next, the active reference names one of them, and
the triggers are bound; nothing stored is ever rewritten; and each transaction appends and
moves only for a call that expected what it found. -/
theorem spec_stores_lose_no_update (agentDigest : AgentSpecWrite → String) (triggerDigest : TriggerSpecWrite → String)
    (ops more : List Op) :
    let s := Run.exec (step agentDigest triggerDigest) .empty ops
    let later := Run.exec (step agentDigest triggerDigest) s more
    Archived s.agents ∧ Archived s.triggers ∧
      (∀ row ∈ s.triggers.revisions, Bound s.agents row.tenantId row.write) ∧
      Grown s later ∧
      ∀ op, Expected op.agentCreates (fun key => op.agentExpects key) s.agents
          (step agentDigest triggerDigest s op).agents ∧
        Expected (op.triggerCreates s) (fun key => op.triggerExpects key) s.triggers
          (step agentDigest triggerDigest s op).triggers := by
  intro s later
  have sound : Sound s := Run.exec_invariant step_sound sound_empty ops
  have grown : Grown s later :=
    Run.exec_related Grown.refl Grown.trans step_sound
      (fun _ op sound => ⟨(step_agents sound op).grows, (step_triggers sound op).grows⟩) sound more
  exact ⟨sound.agents, sound.triggers, sound.bound, grown, fun op =>
    ⟨(step_agents sound op).expected, (step_triggers sound op).expected⟩⟩

end OpenTulpa.Specs.Chains
