import OpenTulpa.Schedules.Service

/-! When a schedule stays updatable. Saves and the disabling of a one-off append a revision and
activate it later; as long as no operation is lost in between, and none activates a revision
that was overtaken, the active revision of a schedule is its latest one whenever no operation
is about to activate another. -/

namespace OpenTulpa.Schedules.Updatable

open Library Outcome Specs.Models Specs.Store Service
open Specs.Chains hiding Op step Sound sound_empty

section Store

variable {Write : Type} {store stored : SpecStore Write} {key : SpecKey}

def latestRevision (store : SpecStore Write) (key : SpecKey) : Option Nat :=
  (store.latest key).map RevisionRow.revision

theorem latestRevision_eq (archived : Archived store) (key : SpecKey) :
    latestRevision store key =
      if (store.revisionsOf key).length = 0 then none else some (store.revisionsOf key).length := by
  unfold latestRevision SpecStore.latest
  rw [Rows.argmax_of_numbered (archived.numbered key)]
  cases top : (store.revisionsOf key).getLast? with
  | none => simp [List.getLast?_eq_none_iff.mp top]
  | some last =>
    have count := Rows.rank_getLast (archived.numbered key) (Option.mem_def.mpr top)
    have some : (store.revisionsOf key).length ≠ 0 := by
      intro empty
      rw [List.length_eq_zero_iff.mp empty] at top
      cases top
    simp [some, count]

theorem activeRevision_bounds (archived : Archived store) {active : Nat}
    (found : store.activeRevision key = some active) : 1 ≤ active ∧ active ≤ (store.revisionsOf key).length := by
  obtain ⟨row, present, rfl⟩ := Option.map_eq_some_iff.mp found
  obtain ⟨member, own⟩ := activeRow_key present
  obtain ⟨revision, inside, named, number⟩ := archived.stored row member
  rw [← number]
  exact Rows.rank_of_numbered (archived.numbered key) (mem_revisionsOf.mpr ⟨inside, named.trans own⟩)

theorem getRevision_of_count (archived : Archived store) {revision : Nat} (least : 1 ≤ revision)
    (most : revision ≤ (store.revisionsOf key).length) : ∃ row, store.getRevision key revision = some row := by
  have present : revision ∈ (store.revisionsOf key).map RevisionRow.revision := by
    rw [archived.numbered key, List.mem_range'_1]
    omega
  obtain ⟨row, member, number⟩ := List.mem_map.mp present
  obtain ⟨inside, own⟩ := mem_revisionsOf.mp member
  cases found : store.getRevision key revision with
  | some row => exact ⟨row, rfl⟩
  | none =>
    have missed := List.find?_eq_none.mp found row inside
    simp [own, number] at missed

theorem getActive_revision (archived : Archived store) :
    (store.getActive key).map RevisionRow.revision = store.activeRevision key := by
  unfold SpecStore.getActive
  cases active : store.activeRevision key with
  | none => rfl
  | some revision =>
    obtain ⟨least, most⟩ := activeRevision_bounds archived active
    obtain ⟨row, found⟩ := getRevision_of_count archived least most
    have number := (getRevision_mem found).2.2
    simp only [Option.bind_some, found, Option.map_some, Option.some.injEq]
    exact_mod_cast number

/-- A call that expects the active reference and names a stored revision goes through. -/
theorem moveActive_goes {label : String} {revision : Nat} {target : RevisionRow Write} {updatedBy : String} {now : Nat}
    (archived : Archived store) (found : store.getRevision key revision = some target) :
    ∃ stored, store.moveActive label key revision (asInt (store.activeRevision key)) updatedBy now =
      .ok (stored, target) := by
  unfold SpecStore.moveActive
  simp only [found]
  cases present : store.activeRow key with
  | none => simp [asInt, SpecStore.activeRevision, present]
  | some active =>
    have one : store.active.countP (fun row => row.key == key && row.revision == active.revision) = 1 := by
      rw [Rows.countP_key archived.single key fun row => row.revision == active.revision]
      have search : store.active.find? (fun row => row.key == key) = some active := present
      simp [search]
    simp only [asInt, SpecStore.activeRevision, present, Option.map_some, ne_eq, not_true, if_false, one]
    split
    · exact ⟨_, rfl⟩
    · exact ⟨_, rfl⟩

theorem moveActive_value {label : String} {revision : Int} {expected : Option Int} {updatedBy : String} {now : Nat}
    {target : RevisionRow Write}
    (done : store.moveActive label key revision expected updatedBy now = .ok (stored, target)) :
    stored.activeRevision key = some target.revision ∧ (target.revision : Int) = revision := by
  unfold SpecStore.moveActive at done
  split at done
  · cases done
  rename_i aim found
  have number := (getRevision_mem found).2.2
  split at done
  · rename_i absent
    split at done
    · cases done
    · cases done
      refine ⟨?_, number⟩
      have missed : store.active.find? (fun row => row.key == key) = none := absent
      have own : ActiveRow.key ⟨key.1, key.2, target.revision, now, updatedBy⟩ = key := rfl
      simp [SpecStore.activeRevision, SpecStore.activeRow, List.find?_append, missed, own]
  · rename_i active present
    split at done
    · rename_i same
      cases done
      exact ⟨by rw [SpecStore.activeRevision, present, Option.map_some, same], number⟩
    split at done
    · cases done
    simp only at done
    split at done
    · cases done
    · cases done
      refine ⟨?_, number⟩
      have own := (activeRow_key present).2
      have search : store.active.find? (fun row => row.key == key) = some active := present
      have updated := Rows.find_update (fun row => row.key == key)
        (fun row : ActiveRow => row.key == key && row.revision == active.revision)
        (fun row => { row with revision := target.revision, updatedAt := now, updatedBy := updatedBy }) store.active
        fun row _ => rfl
      rw [SpecStore.activeRevision, SpecStore.activeRow, updated, search]
      simp [own]

theorem dropActive_value {label : String} {expected : Int} {dropped : Nat} (archived : Archived store)
    (done : store.dropActive label key expected = .ok (stored, dropped)) : stored.activeRevision key = none := by
  unfold SpecStore.dropActive at done
  split at done
  · cases done
  rename_i active present
  split at done
  · cases done
  simp only at done
  split at done
  · cases done
  · cases done
    have missed : (store.active.filter fun row => !(row.key == key && row.revision == active.revision)).find?
        (fun row => row.key == key) = none := by
      rw [List.find?_eq_none]
      intro row member own
      obtain ⟨inside, kept⟩ := List.mem_filter.mp member
      obtain ⟨activeInside, activeOwn⟩ := activeRow_key present
      have rowOwn : row.key = key := by simpa using own
      obtain rfl := Rows.eq_of_key_eq archived.single inside activeInside (rowOwn.trans activeOwn.symm)
      simp [rowOwn] at kept
    rw [SpecStore.activeRevision, SpecStore.activeRow, missed]
    rfl

end Store

section Schedule

variable {digest : TriggerSpecWrite → String} {schedule : Identity}

/-- The revisions that the operations in progress expect are not newer than what there is. -/
@[grind =] def Fits (store : TriggerSpecStore) (key : SpecKey) : Task → Prop
  | .creating _ expectedRevision expectedActive _ =>
    expectedRevision = expectedActive ∧ ∀ revision, expectedActive = some revision →
      revision ≤ (store.revisionsOf key).length ∧
        ∀ active, store.activeRevision key = some active → revision ≤ active
  | .activating revision _ _ => 1 ≤ revision ∧ revision ≤ (store.revisionsOf key).length
  | _ => True

/-- The active revision is the latest one, or an operation is about to replace it by that. -/
def Current (w : World) (key : SpecKey) : Prop :=
  ∀ active, w.triggers.activeRevision key = some active → active = (w.triggers.revisionsOf key).length ∨
    ∃ actorId, Task.activating (w.triggers.revisionsOf key).length (some active) actorId ∈ w.tasks

structure Sound (schedule : Identity) (w : World) : Prop where
  archived : Archived w.triggers
  fits : ∀ task ∈ w.tasks, Fits w.triggers schedule.key task
  current : Current w schedule.key

theorem sound_empty : Sound schedule .empty where
  archived := archived_empty
  fits := by simp [World.empty]
  current := by
    intro active found
    cases found

/-- A new operation changes nothing yet. -/
theorem Sound.begin {w : World} (sound : Sound schedule w) {new : Option Task}
    (fits : ∀ task, new = some task → Fits w.triggers schedule.key task) :
    Sound schedule { w with tasks := w.tasks ++ new.toList } where
  archived := sound.archived
  fits := by
    intro task member
    rcases List.mem_append.mp member with before | added
    · exact sound.fits task before
    · exact fits task (Option.mem_toList.mp added)
  current := by
    intro active found
    rcases sound.current active found with latest | ⟨actorId, member⟩
    · exact Or.inl latest
    · exact Or.inr ⟨actorId, List.mem_append_left _ member⟩

theorem beginSave_fits {store : TriggerSpecStore} {call : SaveCall} {now : Int} {task : Task}
    (begun : beginSave schedule store call now = some task) : Fits store schedule.key task := by
  unfold beginSave at begun
  split at begun
  · cases begun
  · cases begun
    trivial

theorem beginDelete_fits {store : TriggerSpecStore} {expected : Int} {actorId : String} {task : Task}
    (begun : beginDelete schedule store expected actorId = some task) : Fits store schedule.key task := by
  unfold beginDelete at begun
  repeat' split at begun
  all_goals cases begun
  trivial

theorem beginDisable_fits {store : TriggerSpecStore} {revision : Nat} {write : TriggerSpecWrite} {task : Task}
    (archived : Archived store) (begun : beginDisable schedule store revision write = some task) :
    Fits store schedule.key task := by
  unfold beginDisable at begun
  split at begun
  · cases begun
  rename_i active found
  split at begun
  · cases begun
  rename_i accepted
  cases begun
  have number : active.revision = revision := by
    by_contra different
    simp [different] at accepted
  have known : store.activeRevision schedule.key = some revision := by
    rw [← getActive_revision archived, found, ← number]
    rfl
  refine ⟨rfl, ?_⟩
  rintro other ⟨rfl⟩
  refine ⟨(activeRevision_bounds archived known).2, fun active now => ?_⟩
  rw [known] at now
  exact (Option.some.inj now).le

theorem saveChecks_expects {expected : Option Int} {latest active : Option TriggerRow} {next : Nat}
    {expectedActive : Option Nat}
    (passed : saveChecks schedule expected latest active = .ok (next, expectedActive)) :
    latest.map RevisionRow.revision = expectedActive ∧ active.map RevisionRow.revision = expectedActive := by
  unfold saveChecks at passed
  split at passed
  · cases passed
  split at passed
  · cases passed
  · cases passed
  · cases passed
    exact ⟨rfl, rfl⟩
  · cases passed
  · split at passed
    · cases passed
    split at passed
    · cases passed
    · rename_i same
      cases passed
      exact ⟨not_not.mp same, rfl⟩

theorem saveTask_fits {plan : Plan} {store : TriggerSpecStore} {call : SaveCall} {latest : Option TriggerRow}
    {task : Task} (archived : Archived store) (saved : saveTask schedule plan store call latest = some task) :
    Fits store schedule.key task := by
  unfold saveTask at saved
  simp only at saved
  split at saved
  · cases saved
  rename_i next expectedActive passed
  obtain ⟨agentSpec, _, rfl⟩ := Option.map_eq_some_iff.mp saved
  obtain ⟨known, active⟩ := saveChecks_expects passed
  rw [getActive_revision archived] at active
  refine ⟨known, ?_⟩
  rintro revision rfl
  refine ⟨(activeRevision_bounds archived active).2, fun other now => ?_⟩
  rw [active] at now
  exact (Option.some.inj now).le

/-- What becomes of the other operations when the store changes. -/
theorem Fits.later {store stored : TriggerSpecStore} {key : SpecKey} {task : Task} (fits : Fits store key task)
    (grown : (store.revisionsOf key).length ≤ (stored.revisionsOf key).length)
    (active : ∀ revision, stored.activeRevision key = some revision → store.activeRevision key = some revision ∨
      (store.revisionsOf key).length ≤ revision) : Fits stored key task := by
  cases task with
  | saving call latest => trivial
  | deleting expected => trivial
  | activating revision expected actorId => exact ⟨fits.1, fits.2.trans grown⟩
  | creating write expectedRevision expectedActive actorId =>
    obtain ⟨same, bounds⟩ := fits
    refine ⟨same, fun revision expects => ?_⟩
    obtain ⟨below, older⟩ := bounds revision expects
    refine ⟨below.trans grown, fun other found => ?_⟩
    rcases active other found with kept | newer
    · exact older other kept
    · exact below.trans newer

theorem mem_eraseIdx_of_ne {tasks : List Task} {index : Nat} {task other : Task} (here : tasks[index]? = some task)
    (different : other ≠ task) (member : other ∈ tasks) : other ∈ tasks.eraseIdx index := by
  rw [List.mem_eraseIdx_iff_getElem?]
  obtain ⟨place, found⟩ := List.mem_iff_getElem?.mp member
  refine ⟨place, ?_, found⟩
  rintro rfl
  rw [here] at found
  exact different (Option.some.inj found).symm

/-- An operation that moves the active reference moves it to the latest revision. -/
def UpToDate (schedule : Identity) (w : World) : Option Task → Prop
  | some (.activating revision expected _) =>
    w.triggers.activeRevision schedule.key = expected → expected ≠ some revision →
      latestRevision w.triggers schedule.key = some revision
  | _ => True

@[grind =] def activates (revision : Nat) (expected : Option Nat) : Task → Bool
  | .activating other replaced _ => other == revision && replaced == expected
  | _ => false

/-- An operation may be given up, unless it has appended a revision that would replace the active
one and none of the `others` is about to do the same. -/
def Dispensable (schedule : Identity) (w : World) (others : List Task) : Option Task → Prop
  | some (.activating revision expected _) =>
    w.triggers.activeRevision schedule.key = expected → expected ≠ none → expected ≠ some revision →
      others.any (activates revision expected) = true
  | _ => True

def Careful (schedule : Identity) (w : World) : Op → Prop
  | .advance index _ => UpToDate schedule w w.tasks[index]?
  | .stop index => Dispensable schedule w (w.tasks.eraseIdx index) w.tasks[index]?
  | _ => True

instance (schedule : Identity) (w : World) : (task : Option Task) → Decidable (UpToDate schedule w task)
  | some (.activating _ _ _) => inferInstanceAs (Decidable (_ → _ → _))
  | none | some (.saving _ _) | some (.creating _ _ _ _) | some (.deleting _) => inferInstanceAs (Decidable True)

instance (schedule : Identity) (w : World) (others : List Task) :
    (task : Option Task) → Decidable (Dispensable schedule w others task)
  | some (.activating _ _ _) => inferInstanceAs (Decidable (_ → _ → _ → _))
  | none | some (.saving _ _) | some (.creating _ _ _ _) | some (.deleting _) => inferInstanceAs (Decidable True)

instance (schedule : Identity) (w : World) : (op : Op) → Decidable (Careful schedule w op)
  | .advance index _ => inferInstanceAs (Decidable (UpToDate schedule w w.tasks[index]?))
  | .stop index => inferInstanceAs (Decidable (Dispensable schedule w (w.tasks.eraseIdx index) w.tasks[index]?))
  | .save _ _ | .delete _ _ | .disableOneOff _ _ => inferInstanceAs (Decidable True)

variable {w : World} {index : Nat} {task : Task}

theorem Sound.replace (sound : Sound schedule w) {stored : TriggerSpecStore} {rest : Option Task}
    (archived : Archived stored)
    (grown : (w.triggers.revisionsOf schedule.key).length ≤ (stored.revisionsOf schedule.key).length)
    (active : ∀ revision, stored.activeRevision schedule.key = some revision →
      w.triggers.activeRevision schedule.key = some revision ∨
        (w.triggers.revisionsOf schedule.key).length ≤ revision)
    (fits : ∀ task, rest = some task → Fits stored schedule.key task)
    (current : Current ⟨stored, w.tasks.eraseIdx index ++ rest.toList⟩ schedule.key) :
    Sound schedule ⟨stored, w.tasks.eraseIdx index ++ rest.toList⟩ where
  archived := archived
  fits := by
    intro other member
    rcases List.mem_append.mp member with before | added
    · exact (sound.fits other (List.mem_of_mem_eraseIdx before)).later grown active
    · exact fits other (Option.mem_toList.mp added)
  current := current

/-- An operation that goes on or ends without touching the store, unless it was the one about to
activate the latest revision. -/
theorem Sound.keeps (sound : Sound schedule w) (here : w.tasks[index]? = some task) {rest : Option Task}
    (fits : ∀ task, rest = some task → Fits w.triggers schedule.key task)
    (spare : ∀ active actorId, w.triggers.activeRevision schedule.key = some active →
      active ≠ (w.triggers.revisionsOf schedule.key).length →
      task ≠ .activating (w.triggers.revisionsOf schedule.key).length (some active) actorId) :
    Sound schedule ⟨w.triggers, w.tasks.eraseIdx index ++ rest.toList⟩ := by
  refine sound.replace sound.archived le_rfl (fun revision found => Or.inl found) fits ?_
  intro active found
  rcases sound.current active found with latest | ⟨actorId, member⟩
  · exact Or.inl latest
  · by_cases latest : active = (w.triggers.revisionsOf schedule.key).length
    · exact Or.inl latest
    · exact Or.inr ⟨actorId, List.mem_append_left _
        (mem_eraseIdx_of_ne here (fun same => spare active actorId found latest same.symm) member)⟩

theorem advance_creating (sound : Sound schedule w) {plan : Plan} {write : TriggerSpecWrite}
    {expectedRevision expectedActive : Option Nat} {actorId : String}
    (here : w.tasks[index]? = some (.creating write expectedRevision expectedActive actorId)) :
    Sound schedule (step digest schedule w (.advance index plan)) := by
  have other : ∀ active actor, w.triggers.activeRevision schedule.key = some active →
      active ≠ (w.triggers.revisionsOf schedule.key).length →
      Task.creating write expectedRevision expectedActive actorId ≠
        .activating (w.triggers.revisionsOf schedule.key).length (some active) actor := by
    intro active actor _ _ same
    cases same
  obtain ⟨same, bounds⟩ := sound.fits _ (List.mem_of_getElem? here)
  simp only [step, here, advance]
  cases done : TriggerSpecStore.createRevision digest plan.agents w.triggers
      ⟨schedule.tenantId, schedule.triggerId, write, asInt expectedRevision, actorId⟩ plan.now with
  | error error => exact sound.keeps here (by simp) other
  | ok result =>
    obtain ⟨stored, row⟩ := result
    obtain ⟨_, _, appending⟩ := bind_eq_ok done
    rcases appendRevision_appended sound.archived appending with ⟨rfl, inside, own⟩ | appended
    · refine sound.keeps here ?_ other
      rintro task ⟨rfl⟩
      exact Rows.rank_of_numbered (sound.archived.numbered schedule.key) (mem_revisionsOf.mpr ⟨inside, own⟩)
    · have own : row.key = schedule.key := by
        have tenant : row.tenantId = schedule.tenantId := Option.some.inj (appended.trimmed.1.symm.trans schedule.validTenant)
        have trigger : row.id = schedule.triggerId := Option.some.inj (appended.trimmed.2.symm.trans schedule.validTrigger)
        rw [RevisionRow.key, tenant, trigger]
        rfl
      have next : row.revision = (w.triggers.revisionsOf schedule.key).length + 1 := own ▸ appended.next
      have count : (stored.revisionsOf schedule.key).length = (w.triggers.revisionsOf schedule.key).length + 1 := by
        rw [revisionsOf_append appended.revisions, if_pos own]
        simp
      have unmoved : stored.activeRevision schedule.key = w.triggers.activeRevision schedule.key := by
        rw [SpecStore.activeRevision, SpecStore.activeRevision, SpecStore.activeRow, SpecStore.activeRow, appended.active]
      have grown : (w.triggers.revisionsOf schedule.key).length ≤ (stored.revisionsOf schedule.key).length := by omega
      refine sound.replace (appended.archived sound.archived) grown (fun revision found => Or.inl (unmoved ▸ found)) ?_ ?_
      · rintro task ⟨rfl⟩
        simp only [Fits, next, count]
        omega
      · -- the call expected the latest revision, and then no older one is active
        intro active found
        simp only [unmoved] at found
        have limits := activeRevision_bounds sound.archived found
        have expected : asInt expectedRevision = some ((w.triggers.revisionsOf schedule.key).length : Int) :=
          (appended.expected _ (by omega) next).1
        have known : expectedActive = some (w.triggers.revisionsOf schedule.key).length := by
          rw [← same]
          cases expectedRevision with
          | none => cases expected
          | some revision =>
            simp only [asInt, Option.map_some, Option.some.injEq] at expected ⊢
            exact_mod_cast expected
        have latest : active = (w.triggers.revisionsOf schedule.key).length := by
          have older := (bounds _ known).2 active found
          omega
        refine Or.inr ⟨actorId, List.mem_append_right _ ?_⟩
        simp [count, next, known, latest]

theorem advance_activating (sound : Sound schedule w) {plan : Plan} {revision : Nat} {expected : Option Nat}
    {actorId : String} (here : w.tasks[index]? = some (.activating revision expected actorId))
    (careful : Careful schedule w (.advance index plan)) :
    Sound schedule (step digest schedule w (.advance index plan)) := by
  obtain ⟨least, most⟩ := sound.fits _ (List.mem_of_getElem? here)
  obtain ⟨target, found⟩ := getRevision_of_count sound.archived least most
  simp only [step, here, advance]
  cases done : TriggerSpecStore.activate w.triggers
      ⟨schedule.tenantId, schedule.triggerId, revision, asInt expected, actorId⟩ plan.now with
  | error error =>
    refine sound.keeps here (by simp) ?_
    -- the one that is about to activate the latest revision would not have been refused
    rintro active actor now _ ⟨⟩
    obtain ⟨stored, goes⟩ : ∃ stored, TriggerSpecStore.activate w.triggers
        ⟨schedule.tenantId, schedule.triggerId, _, asInt (some active), actorId⟩ plan.now = .ok (stored, target) :=
      now ▸ moveActive_goes sound.archived found
    rw [goes] at done
    cases done
  | ok result =>
    obtain ⟨stored, row⟩ := result
    obtain ⟨value, number⟩ := moveActive_value done
    have moved := moveActive_moved sound.archived done
    have own : row.revision = revision := Int.natCast_inj.mp number
    have rows : stored.revisionsOf schedule.key = w.triggers.revisionsOf schedule.key := by
      rw [SpecStore.revisionsOf, SpecStore.revisionsOf, moved.revisions]
    have active : stored.activeRevision schedule.key = some revision := own ▸ value
    have outcome : (w.triggers.activeRevision schedule.key = some revision) ∨
        revision = (w.triggers.revisionsOf schedule.key).length := by
      rcases moved.here with unmoved | replaced
      · exact Or.inl (unmoved.symm.trans active)
      · by_cases same : w.triggers.activeRevision schedule.key = some revision
        · exact Or.inl same
        · have expects : expected = w.triggers.activeRevision schedule.key := asInt_injective replaced
          have latest : latestRevision w.triggers schedule.key = some revision := by
            have moves : UpToDate schedule w w.tasks[index]? := careful
            rw [here] at moves
            exact moves expects.symm (expects ▸ same)
          rw [latestRevision_eq sound.archived] at latest
          split at latest
          · cases latest
          · exact Or.inr (Option.some.inj latest).symm
    rw [committed_ok]
    refine sound.replace moved.archived (rows ▸ le_rfl) ?_ (by simp) ?_
    · intro other found
      obtain rfl : revision = other := Option.some.inj (active.symm.trans found)
      exact outcome.imp_right fun latest => latest.ge
    · intro other found
      obtain rfl : revision = other := Option.some.inj (active.symm.trans found)
      simp only [rows]
      rcases outcome with before | latest
      · rcases sound.current revision before with latest | ⟨actor, member⟩
        · exact Or.inl latest
        · by_cases latest : revision = (w.triggers.revisionsOf schedule.key).length
          · exact Or.inl latest
          · refine Or.inr ⟨actor, List.mem_append_left _ (mem_eraseIdx_of_ne here ?_ member)⟩
            intro same
            cases same
            exact latest rfl
      · exact Or.inl latest

theorem advance_deleting (sound : Sound schedule w) {plan : Plan} {expected : Int}
    (here : w.tasks[index]? = some (.deleting expected)) :
    Sound schedule (step digest schedule w (.advance index plan)) := by
  simp only [step, here, advance]
  cases done : TriggerSpecStore.deactivate w.triggers schedule.key expected with
  | error error =>
    refine sound.keeps here (by simp) ?_
    rintro active actor _ _ ⟨⟩
  | ok result =>
    obtain ⟨stored, dropped⟩ := result
    have moved := dropActive_moved sound.archived done
    have rows : stored.revisionsOf schedule.key = w.triggers.revisionsOf schedule.key := by
      rw [SpecStore.revisionsOf, SpecStore.revisionsOf, moved.revisions]
    have none : stored.activeRevision schedule.key = none := dropActive_value sound.archived done
    rw [committed_ok]
    refine sound.replace moved.archived (rows ▸ le_rfl) ?_ (by simp) ?_
    · intro revision found
      rw [none] at found
      cases found
    · intro active found
      have gone := none.symm.trans found
      cases gone

theorem advance_saving (sound : Sound schedule w) {plan : Plan} {call : SaveCall} {latest : Option TriggerRow}
    (here : w.tasks[index]? = some (.saving call latest)) :
    Sound schedule (step digest schedule w (.advance index plan)) := by
  simp only [step, here, advance]
  refine sound.keeps here (fun task saved => saveTask_fits sound.archived saved) ?_
  rintro active actor _ _ ⟨⟩

theorem activates_iff {revision : Nat} {expected : Option Nat} {task : Task} :
    activates revision expected task = true ↔ ∃ actorId, task = .activating revision expected actorId := by
  cases task with
  | activating other replaced actorId => simp [activates]
  | saving call latest => simp [activates]
  | creating write expectedRevision expectedActive actorId => simp [activates]
  | deleting other => simp [activates]

theorem stop_sound (sound : Sound schedule w) (careful : Careful schedule w (.stop index)) :
    Sound schedule (step digest schedule w (.stop index)) where
  archived := sound.archived
  fits := fun other member => sound.fits other (List.mem_of_mem_eraseIdx member)
  current := by
    intro active found
    rcases sound.current active found with latest | ⟨actorId, member⟩
    · exact Or.inl latest
    by_cases latest : active = (w.triggers.revisionsOf schedule.key).length
    · exact Or.inl latest
    right
    obtain ⟨place, stands⟩ := List.mem_iff_getElem?.mp member
    by_cases stopped : place = index
    · subst stopped
      have stops : Dispensable schedule w (w.tasks.eraseIdx place) w.tasks[place]? := careful
      rw [stands] at stops
      have spare := stops found (by simp) fun same => latest (Option.some.inj same)
      obtain ⟨other, kept, same⟩ := List.any_eq_true.mp spare
      obtain ⟨actor, rfl⟩ := activates_iff.mp same
      exact ⟨actor, kept⟩
    · exact ⟨actorId, List.mem_eraseIdx_iff_getElem?.mpr ⟨place, stopped, stands⟩⟩

theorem step_sound (w : World) (op : Op) (sound : Sound schedule w) (careful : Careful schedule w op) :
    Sound schedule (step digest schedule w op) := by
  cases op with
  | save call now => exact sound.begin fun task begun => beginSave_fits begun
  | delete expected actorId => exact sound.begin fun task begun => beginDelete_fits begun
  | disableOneOff revision write => exact sound.begin fun task begun => beginDisable_fits sound.archived begun
  | stop index => exact stop_sound sound careful
  | advance index plan =>
    cases here : w.tasks[index]? with
    | none =>
      simp only [step, here]
      exact sound
    | some task =>
      cases task with
      | saving call latest => exact advance_saving sound here
      | creating write expectedRevision expectedActive actorId => exact advance_creating sound here
      | activating revision expected actorId => exact advance_activating sound here careful
      | deleting expected => exact advance_deleting sound here

/-- The latest revision of the schedule is the active one, if any is. -/
def Settled (schedule : Identity) (w : World) : Prop :=
  ∀ active, w.triggers.activeRevision schedule.key = some active →
    latestRevision w.triggers schedule.key = some active

/-- No operation is between its two transactions. -/
def Quiet (w : World) : Prop := ∀ revision expected actorId, Task.activating revision expected actorId ∉ w.tasks

theorem Sound.settled (sound : Sound schedule w) (quiet : Quiet w) : Settled schedule w := by
  intro active found
  rcases sound.current active found with latest | ⟨actorId, member⟩
  · have bounds := activeRevision_bounds sound.archived found
    rw [latestRevision_eq sound.archived, if_neg (by omega), latest]
  · exact absurd member (quiet _ _ _)

/-- A save finds nothing that changed outside the facade. -/
theorem Settled.accepts (archived : Archived w.triggers) (settled : Settled schedule w) (expected : Option Int) :
    saveChecks schedule expected (w.triggers.latest schedule.key) (w.triggers.getActive schedule.key) ≠
      .error .changedOutside := by
  intro refused
  unfold saveChecks at refused
  split at refused
  · cases refused
  split at refused
  · cases refused
  · cases refused
  · cases refused
  · cases refused
  · rename_i active asked found
    split at refused
    · cases refused
    split at refused
    · rename_i behind
      have known : w.triggers.activeRevision schedule.key = some active.revision := by
        rw [← getActive_revision archived, found]
        rfl
      exact behind (settled _ known)
    · cases refused

/-- As long as every operation is careful, the active revision of a schedule is its latest one,
or the one that an operation in progress is about to replace by it. When no operation is
between its two transactions, the schedule can be saved again. -/
theorem schedule_stays_updatable (digest : TriggerSpecWrite → String) (schedule : Identity) (ops : List Op)
    (careful : Run.Guarded (step digest schedule) (Careful schedule) .empty ops) :
    Current (Run.exec (step digest schedule) .empty ops) schedule.key ∧
      (Quiet (Run.exec (step digest schedule) .empty ops) →
        Settled schedule (Run.exec (step digest schedule) .empty ops) ∧
        ∀ expected, saveChecks schedule expected
          ((Run.exec (step digest schedule) .empty ops).triggers.latest schedule.key)
          ((Run.exec (step digest schedule) .empty ops).triggers.getActive schedule.key) ≠ .error .changedOutside) := by
  have sound : Sound schedule (Run.exec (step digest schedule) .empty ops) :=
    Run.Guarded.invariant (fun w op sound ok => step_sound w op sound ok) careful sound_empty
  refine ⟨sound.current, fun quiet => ⟨sound.settled quiet, ?_⟩⟩
  exact (sound.settled quiet).accepts sound.archived

end Schedule

section Samples

def sampleSchedule : Identity := ⟨"owner", "daily", "schedule_0", by decide, by decide⟩

def sampleDigest (write : TriggerSpecWrite) : String := write.name

def sampleRef : AgentSpecRef := ⟨"owner", "assistant", 1, by decide⟩

def samplePlan : Plan where
  agents := ⟨[⟨"owner", "assistant", 1, { name := "Assistant", instructions := "help" }, "0", 0, "owner"⟩], []⟩
  agentSpec := some sampleRef
  now := 0

def sampleSave (name : String) (expected : Option Int) : SaveCall :=
  ⟨⟨name, .cron "0 9 * * *" "UTC", .reminder "stand up", true, true⟩, expected, "owner"⟩

/-- The schedule is saved, and then saved again as far as its new revision. -/
def sampleSaves : List Op :=
  [.save (sampleSave "Daily" none) 0, .advance 0 samplePlan, .advance 0 samplePlan, .advance 0 samplePlan,
    .save (sampleSave "Weekly" (some 1)) 0, .advance 0 samplePlan, .advance 0 samplePlan]

/-- The second save stops before its revision is active, and no later one is accepted. -/
theorem stopped_save_blocks_schedule :
    ¬ Settled sampleSchedule (Run.exec (step sampleDigest sampleSchedule) .empty (sampleSaves ++ [.stop 0])) ∧
      saveChecks sampleSchedule (some 1)
        ((Run.exec (step sampleDigest sampleSchedule) .empty (sampleSaves ++ [.stop 0])).triggers.latest sampleSchedule.key)
        ((Run.exec (step sampleDigest sampleSchedule) .empty (sampleSaves ++ [.stop 0])).triggers.getActive
          sampleSchedule.key) = .error .changedOutside :=
  ⟨fun settled => absurd (settled 1 (by decide +kernel)) (by decide +kernel), by decide +kernel⟩

theorem schedule_stays_updatable_sample :
    (Run.exec (step sampleDigest sampleSchedule) .empty (sampleSaves ++ [.advance 0 samplePlan])).triggers.activeRevision
        sampleSchedule.key = some 2 ∧
      Settled sampleSchedule
        (Run.exec (step sampleDigest sampleSchedule) .empty (sampleSaves ++ [.advance 0 samplePlan])) := by
  have updatable := schedule_stays_updatable sampleDigest sampleSchedule (sampleSaves ++ [.advance 0 samplePlan])
    (by decide +kernel)
  have drained : (Run.exec (step sampleDigest sampleSchedule) .empty (sampleSaves ++ [.advance 0 samplePlan])).tasks = [] := by
    decide +kernel
  refine ⟨by decide +kernel, (updatable.2 ?_).1⟩
  intro revision expected actorId
  rw [drained]
  exact List.not_mem_nil

end Samples

end OpenTulpa.Schedules.Updatable
