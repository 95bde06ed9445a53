import OpenTulpa.Context.Profiles

/-! Overlapping profile calls. A call reads the row, merges the fields it names and writes all fields back, with nothing
that holds the row in between: a field survives exactly when no call writes back a value that was replaced since its
read. -/

namespace OpenTulpa.Context.ProfileUpdates

open Library Profiles

section Specification

/-- The value that a call which wrote the row gave to the field, if it named it. -/
def Commit.names (cid : String) (field : Field) : Commit → Option String
  | .profile updates record => if record.customerId = cid then updates.get field else none
  | .binding _ => none

def lastNamed (log : List Commit) (cid : String) (field : Field) : Option String :=
  log.findSome? (Commit.names cid field)

/-- Every field holds the value of the last successful call that named it, or its first value when none did. -/
def Kept (initial : Tables) (s : State) : Prop :=
  ∀ cid field, (s.tables.fields cid).get field = (lastNamed s.log cid field).or ((initial.fields cid).get field)

/-- A call that writes finds the fields it does not name as it read them. -/
def WritesCurrent (s : State) : Event → Prop
  | .advance id _ => ∀ cid updatedAt existing upsert, s.phase id = some (.store cid updatedAt existing upsert) →
      ∀ field, upsert.updates.get field = none → existing.get field = (s.tables.fields cid).get field
  | _ => True

end Specification

section Steps

variable {initial : Tables} {s : State}

@[simp] theorem get_merge (existing updates : Fields) (field : Field) :
    (existing.merge updates).get field = (updates.get field).or (existing.get field) := by
  cases field <;> rfl

theorem fields_storeProfile (tables : Tables) (row : CustomerProfile) (cid : String) :
    (tables.storeProfile row).fields cid = if row.customerId = cid then row.fields else tables.fields cid := by
  split
  · rename_i same
    subst same
    simp [Tables.fields]
  · rename_i apart
    rw [Tables.fields, profile_storeProfile_of_ne tables (Ne.symm apart), Tables.fields]

theorem lastNamed_store (s : State) (row : CustomerProfile) (updates : Fields) (cid : String) (field : Field) :
    lastNamed (s.store row updates).log cid field =
      (if row.customerId = cid then updates.get field else none).or (lastNamed s.log cid field) := by
  have named : Commit.names cid field (.profile updates row.record) =
      if row.customerId = cid then updates.get field else none := rfl
  rw [lastNamed, State.store, List.findSome?_cons, named]
  generalize (if row.customerId = cid then updates.get field else none) = value
  cases value <;> rfl

theorem Kept.of_same {after : State} (kept : Kept initial s) (fields : ∀ cid, after.tables.fields cid = s.tables.fields cid)
    (log : ∀ cid field, lastNamed after.log cid field = lastNamed s.log cid field) : Kept initial after := by
  intro cid field
  rw [fields, log]
  exact kept cid field

theorem Kept.bind (kept : Kept initial s) (binding : Binding) (storageUserId : String) :
    Kept initial (s.bind binding storageUserId) :=
  kept.of_same (fun _ => rfl) (fun _ _ => rfl)

/-- A write keeps every field exactly when the fields it does not name were read as they are. -/
theorem store_kept_iff (kept : Kept initial s) (upsert : Upsert) (cid updatedAt : String) (existing : Fields) :
    Kept initial (s.store (upsert.row cid updatedAt existing) upsert.updates) ↔
      ∀ field, upsert.updates.get field = none → existing.get field = (s.tables.fields cid).get field := by
  have written : ∀ field, ((s.store (upsert.row cid updatedAt existing) upsert.updates).tables.fields cid).get field =
      (upsert.updates.get field).or (existing.get field) := by
    intro field
    rw [State.store, fields_storeProfile, row_customerId, if_pos rfl, Upsert.row, get_merge]
  constructor
  · intro after field unnamed
    have held := after cid field
    rw [written, lastNamed_store, row_customerId, if_pos rfl, unnamed, Option.none_or, Option.none_or] at held
    rw [held, kept cid field]
  · intro current other field
    rw [lastNamed_store, row_customerId]
    by_cases here : cid = other
    · subst here
      rw [written, if_pos rfl]
      cases named : upsert.updates.get field with
      | some value => rfl
      | none =>
        rw [Option.none_or, Option.none_or, current field named]
        exact kept cid field
    · rw [State.store, fields_storeProfile, row_customerId, if_neg here, if_neg here, Option.none_or]
      exact kept other field

theorem perform_kept_iff (kept : Kept initial s) (id : Nat) (now : String) (phase : Phase) :
    Kept initial (s.perform id now phase) ↔
      ∀ cid updatedAt existing upsert, phase = .store cid updatedAt existing upsert →
        ∀ field, upsert.updates.get field = none → existing.get field = (s.tables.fields cid).get field := by
  have quiet : ∀ after : State, after.tables = s.tables → after.log = s.log → Kept initial after :=
    fun after tables log => kept.of_same (fun _ => by rw [tables]) (fun _ _ => by rw [log])
  cases phase with
  | store cid updatedAt existing upsert =>
    constructor
    · rintro after _ _ _ _ ⟨⟩
      exact (store_kept_iff kept upsert cid updatedAt existing).mp after
    · exact fun current => (store_kept_iff kept upsert cid updatedAt existing).mpr (current _ _ _ _ rfl)
  | bind binding storageUserId => exact iff_of_true (kept.bind binding storageUserId) nofun
  | lookUp | read | userAlias | telegramAlias | userProfile => exact iff_of_true (quiet _ rfl rfl) nofun
  | lookedUp | resolve | telegramProfile =>
    refine iff_of_true ?_ nofun
    simp only [State.perform]
    split <;> exact quiet _ rfl rfl

variable (decimal : Char → Option Nat)

theorem step_kept_iff (kept : Kept initial s) (event : Event) :
    Kept initial (step decimal s event) ↔ WritesCurrent s event := by
  cases event with
  | begin id request now =>
    refine iff_of_true ?_ trivial
    simp only [step]
    split
    · exact kept.of_same (fun _ => rfl) (fun _ _ => rfl)
    · exact kept
  | advance id now =>
    simp only [step, WritesCurrent]
    cases found : s.phase id with
    | none => exact iff_of_true kept nofun
    | some phase =>
      simp only [Option.some.injEq]
      exact perform_kept_iff kept id now phase
  | fail id => exact iff_of_true (kept.of_same (fun _ => rfl) fun _ _ => rfl) trivial

end Steps

section Runs

variable (decimal : Char → Option Nat)

theorem start_kept (initial : Tables) : Kept initial (start initial) := fun _ _ => rfl

/-- In every run the fields hold what the last call that named them gave them, as long as every call that writes finds
the fields it does not name as it read them, and no longer. -/
theorem profile_updates_kept_iff (initial : Tables) (events : List Event) :
    (∀ n, Kept initial (Run.exec (step decimal) (start initial) (events.take n))) ↔
      Run.Guarded (step decimal) WritesCurrent (start initial) events := by
  have based : Run.Guarded (step decimal) (fun _ _ => True) (start initial) events :=
    Run.Guarded.of_forall (fun _ _ => trivial) _ _
  have holds : ∀ s, Kept initial s → Kept initial s := fun _ kept => kept
  exact Run.prefixes_iff_guarded holds
    (fun _ event kept _ current => (step_kept_iff decimal kept event).mpr current)
    (fun _ event kept _ after => (step_kept_iff decimal kept event).mp after) (start_kept initial) based

def asciiDigit (c : Char) : Option Nat := if c.isDigit then some (c.toNat - 48) else none

/-- Two calls read the empty row before either writes. -/
def overlapping : List Event :=
  [.begin 1 (.setDirective "ana" "be brief" "agent") "t1", .advance 1 "t1", .advance 1 "t1",
    .begin 2 (.setUtcOffset "ana" "+01:00" "agent") "t2", .advance 2 "t2", .advance 2 "t2",
    .advance 1 "t3", .advance 2 "t4"]

/-- The call that sets the offset puts back the missing directive it read. -/
theorem overlapping_call_loses_directive :
    ¬ ∀ (decimal : Char → Option Nat) (initial : Tables) (events : List Event) (n : Nat),
      Kept initial (Run.exec (step decimal) (start initial) (events.take n)) := by
  intro kept
  have lost := kept asciiDigit ⟨[], []⟩ overlapping 8 "ana" .directiveText
  revert lost
  decide +kernel

end Runs

end OpenTulpa.Context.ProfileUpdates
