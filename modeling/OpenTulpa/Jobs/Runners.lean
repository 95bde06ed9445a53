import OpenTulpa.Jobs.Service

/-! The tasks of a job service follow its store. The invariant holds for every job at most one live task and the status
that goes with it; each step of the service keeps it. -/

namespace OpenTulpa.Jobs.Runners

open Library Text Outcome Store Log Service
open Refinement hiding Op step

section Invariant

variable {s : System} {i j : Nat} {runner : Runner} {key : JobKey} {stored : JobStore}

/-- The store is one that the operations of stores lead to, `_running` knows every task that is not over, and the
jobs that have been claimed are those whose handlers run. -/
structure Base (s : System) : Prop where
  reached : ∃ calls, s.store = Run.exec Refinement.step .empty calls
  named : ∀ (i : Nat) (runner : Runner), s.runners[i]? = some runner → runner.live →
    Entries.get s.running runner.key = some i
  known : ∀ (key : JobKey) (i : Nat), Entries.get s.running key = some i →
    ∃ runner : Runner, s.runners[i]? = some runner ∧ runner.key = key
  idle : s.started = false → ∀ (i : Nat) (runner : Runner), s.runners[i]? = some runner → runner.live = false
  owned : ∀ (i : Nat) (runner : Runner), s.runners[i]? = some runner → runner.point = .handling →
    Executing s.store runner.key
  executing : s.started = true → ∀ key, Executing s.store key →
    ∃ (i : Nat) (runner : Runner), s.runners[i]? = some runner ∧ runner.key = key ∧ runner.point = .handling
  filed : ∀ (i : Nat) (runner : Runner), s.runners[i]? = some runner → status s.store runner.key ≠ none
  refused : s.stopping = false → ∀ (i : Nat) (runner : Runner), s.runners[i]? = some runner →
    runner.point = .waiting → runner.cancelling = true → status s.store runner.key ≠ some .queued
  awaited : s.stopping = true → s.started = true ∧ ∃ awaited, s.shutdowns = [awaited] ∧
    ∀ (i : Nat) (runner : Runner), s.runners[i]? = some runner → runner.live → i ∈ awaited
  calm : s.stopping = false → s.shutdowns = []

def Covered (s : System) (key : JobKey) : Prop :=
  ∃ (i : Nat) (runner : Runner), s.runners[i]? = some runner ∧ runner.key = key ∧ runner.Fresh

structure Inv (s : System) : Prop extends base : Base s where
  queued : s.started = true → s.stopping = false → ∀ key, status s.store key = some .queued → Covered s key

theorem Base.consistent (base : Base s) : Consistent s.store := by
  obtain ⟨calls, same⟩ := base.reached
  rw [same]
  exact run_consistent calls

theorem Base.calls (base : Base s) (op : Refinement.Op) :
    ∃ calls, Refinement.step s.store op = Run.exec Refinement.step .empty calls := by
  obtain ⟨calls, same⟩ := base.reached
  exact ⟨calls ++ [op], by rw [Run.exec_append, ← same]; rfl⟩

theorem Base.unique (base : Base s) {other : Runner} (here : s.runners[i]? = some runner) (live : runner.live)
    (there : s.runners[j]? = some other) (alive : other.live) (same : other.key = runner.key) : j = i := by
  have first := base.named i runner here live
  have second := base.named j other there alive
  rw [same, first] at second
  exact (Option.some.inj second).symm

theorem live_of_handling (handling : runner.point = .handling) : runner.live = true := by
  rw [Runner.live, handling]
  rfl

theorem live_of_waiting (waiting : runner.point = .waiting) : runner.live = true := by
  rw [Runner.live, waiting]
  rfl

theorem Base.running (base : Base s) (here : s.runners[i]? = some runner) (live : runner.live) : s.started = true := by
  by_contra off
  have past := base.idle (by simpa using off) i runner here
  rw [live] at past
  cases past

/-- The job of a task that waits is not being executed. -/
theorem Base.unclaimed (base : Base s) (here : s.runners[i]? = some runner) (waiting : runner.point = .waiting) :
    ¬ Executing s.store runner.key := by
  intro executing
  have live := live_of_waiting waiting
  obtain ⟨j, other, there, same, handling⟩ := base.executing (base.running here live) _ executing
  obtain rfl := base.unique here live there (live_of_handling handling) same
  rw [here] at there
  cases there
  rw [waiting] at handling
  cases handling

theorem getElem?_moveTo (s : System) (i : Nat) (point : Point) (stored : JobStore) (j : Nat) :
    (s.moveTo i point stored).runners[j]? =
      (s.runners[j]?).map fun runner => if i = j then { runner with point := point } else runner := by
  rw [System.moveTo, List.getElem?_modify]
  split
  · rfl
  · rfl

/-- A task after the step is the one that moved or an old one. -/
theorem moveTo_found (here : s.runners[i]? = some runner) {point : Point} {other : Runner}
    (there : (s.moveTo i point stored).runners[j]? = some other) :
    (i = j ∧ other = { runner with point := point }) ∨ (i ≠ j ∧ s.runners[j]? = some other) := by
  rw [getElem?_moveTo] at there
  obtain ⟨old, before, rfl⟩ := Option.map_eq_some_iff.mp there
  by_cases same : i = j
  · subst same
    rw [here] at before
    cases before
    exact Or.inl ⟨rfl, if_pos rfl⟩
  · rw [if_neg same]
    exact Or.inr ⟨same, before⟩

theorem moveTo_stays (here : s.runners[i]? = some runner) {point : Point} {other : Runner}
    (there : s.runners[j]? = some other) (different : other.key ≠ runner.key) :
    (s.moveTo i point stored).runners[j]? = some other := by
  have apart : i ≠ j := by
    rintro rfl
    rw [here] at there
    cases there
    exact different rfl
  rw [getElem?_moveTo, there, Option.map_some, if_neg apart]

/-- A live task claims its job or is over. The job is then executed if and only if the task handles it. -/
theorem Inv.moveTo (inv : Inv s) (here : s.runners[i]? = some runner) (live : runner.live) {point : Point}
    (further : point ≠ .waiting) (reached : ∃ calls, stored = Run.exec Refinement.step .empty calls)
    (others : ∀ other, other ≠ runner.key → status stored other = status s.store other)
    (own : status stored runner.key ≠ none) (executed : Executing stored runner.key ↔ point = .handling)
    (left : s.stopping = false → status stored runner.key ≠ some .queued) : Inv (s.moveTo i point stored) := by
  have moved : (s.moveTo i point stored).runners[i]? = some { runner with point := point } := by
    rw [getElem?_moveTo, here, Option.map_some, if_pos rfl]
  have elsewhere : ∀ (j : Nat) (other : Runner), s.runners[j]? = some other → other.live → i ≠ j →
      other.key ≠ runner.key :=
    fun j other there alive apart same => apart (inv.unique here live there alive same).symm
  constructor
  case base =>
    constructor
    case reached => exact reached
    case named =>
      intro j other there alive
      rcases moveTo_found here there with ⟨rfl, rfl⟩ | ⟨_, before⟩
      · exact inv.named i runner here live
      · exact inv.named j other before alive
    case known =>
      intro key j there
      obtain ⟨old, before, rfl⟩ := inv.known key j there
      refine ⟨_, by rw [getElem?_moveTo, before]; rfl, ?_⟩
      split <;> rfl
    case idle =>
      intro off
      exact absurd (inv.running here live) (by rw [show s.started = false from off]; simp)
    case owned =>
      intro j other there handling
      rcases moveTo_found here there with ⟨rfl, rfl⟩ | ⟨apart, before⟩
      · exact executed.mpr handling
      · have executing := inv.owned j other before handling
        rw [Executing, ← others _ (elsewhere j other before (live_of_handling handling) apart)] at executing
        exact executing
    case executing =>
      intro on key executing
      by_cases same : key = runner.key
      · subst same
        exact ⟨i, _, moved, rfl, executed.mp executing⟩
      · have before : Executing s.store key := by
          rw [Executing, ← others _ same]
          exact executing
        obtain ⟨j, other, there, rfl, handling⟩ := inv.executing on key before
        exact ⟨j, other, moveTo_stays here there same, rfl, handling⟩
    case filed =>
      intro j other there
      change status stored other.key ≠ none
      by_cases same : other.key = runner.key
      · rw [same]
        exact own
      · rw [others _ same]
        rcases moveTo_found here there with ⟨rfl, rfl⟩ | ⟨_, before⟩
        · exact absurd rfl same
        · exact inv.filed j other before
    case refused =>
      intro calm j other there waiting cancelling
      rcases moveTo_found here there with ⟨rfl, rfl⟩ | ⟨apart, before⟩
      · exact absurd waiting further
      · change status stored other.key ≠ some .queued
        rw [others _ (elsewhere j other before (live_of_waiting waiting) apart)]
        exact inv.refused calm j other before waiting cancelling
    case awaited =>
      intro stops
      obtain ⟨on, tasks, one, all⟩ := inv.awaited stops
      refine ⟨on, tasks, one, fun j other there alive => ?_⟩
      rcases moveTo_found here there with ⟨rfl, rfl⟩ | ⟨_, before⟩
      · exact all i runner here live
      · exact all j other before alive
    case calm => exact inv.calm
  case queued =>
    intro on calm key queued
    have different : key ≠ runner.key := by
      rintro rfl
      exact left calm queued
    have before : status s.store key = some .queued := by
      rw [← others _ different]
      exact queued
    obtain ⟨j, other, there, rfl, fresh⟩ := inv.queued on calm key before
    exact ⟨j, other, moveTo_stays here there different, rfl, fresh⟩

/-- A task that is over leaves its job settled. -/
theorem Inv.settle (inv : Inv s) (here : s.runners[i]? = some runner) (live : runner.live)
    (reached : ∃ calls, stored = Run.exec Refinement.step .empty calls)
    (settled : Settled s.stopping runner.key s.store stored) : Inv (s.moveTo i .done stored) := by
  obtain ⟨held, own, ends⟩ := settled.own
  refine inv.moveTo here live (by simp) reached settled.others (by simp [own])
    ⟨?_, fun handling => by cases handling⟩ ?_
  · rintro (running | asked)
    · rw [own, Option.some.injEq] at running
      subst running
      simp [JobStatus.terminal] at ends
    · rw [own, Option.some.injEq] at asked
      subst asked
      simp [JobStatus.terminal] at ends
  · intro calm queued
    rw [own, Option.some.injEq] at queued
    subst queued
    simp [JobStatus.terminal, calm] at ends

/-- The statuses stay, or a job is asked to end. -/
theorem Inv.restore (inv : Inv s) (reached : ∃ calls, stored = Run.exec Refinement.step .empty calls)
    (present : ∀ key, status s.store key ≠ none → status stored key ≠ none)
    (executed : ∀ key, Executing stored key ↔ Executing s.store key)
    (queued : ∀ key, status stored key = some .queued → status s.store key = some .queued) :
    Inv { s with store := stored } where
  reached := reached
  named := inv.named
  known := inv.known
  idle := inv.idle
  owned := fun j other there handling => (executed other.key).mpr (inv.owned j other there handling)
  executing := fun on key executing => inv.executing on key ((executed key).mp executing)
  filed := fun j other there => present other.key (inv.filed j other there)
  refused := fun calm j other there waiting cancelling still =>
    inv.refused calm j other there waiting cancelling (queued other.key still)
  awaited := inv.awaited
  calm := inv.calm
  queued := fun on calm key still => inv.queued on calm key (queued key still)

theorem Inv.unchanged (inv : Inv s) (reached : ∃ calls, stored = Run.exec Refinement.step .empty calls)
    (same : ∀ key, status stored key = status s.store key) : Inv { s with store := stored } :=
  inv.restore reached (fun key => by rw [same]; exact id) (fun key => by rw [Executing, Executing, same])
    fun key => by rw [same]; exact id

theorem Inv.asked (inv : Inv s) (reached : ∃ calls, stored = Run.exec Refinement.step .empty calls)
    (puts : Puts askedAs key s.store stored) : Inv { s with store := stored } := by
  have moves : ∀ other, status stored other = status s.store other ∨
      ∃ held, status s.store other = some held ∧ status stored other = some (askedAs held) := by
    intro other
    by_cases same : other = key
    · subst same
      rw [puts other, if_pos rfl]
      cases found : status s.store other with
      | none => exact Or.inl rfl
      | some held => exact Or.inr ⟨held, rfl, rfl⟩
    · rw [puts other, if_neg same]
      exact Or.inl rfl
  refine inv.restore reached ?_ ?_ ?_
  · intro other there
    rcases moves other with same | ⟨held, _, after⟩
    · rw [same]
      exact there
    · simp [after]
  · intro other
    rcases moves other with same | ⟨held, before, after⟩
    · rw [Executing, Executing, same]
    · rw [Executing, Executing, before, after]
      cases held <;> simp [askedAs]
  · intro other still
    rcases moves other with same | ⟨held, before, after⟩
    · rw [← same]
      exact still
    · rw [after] at still
      cases held <;> simp [askedAs] at still

/-- The tasks are those of before, at the same points. -/
def Marked (before after : List Runner) : Prop :=
  ∀ j : Nat, (after[j]?).map (fun runner => (runner.key, runner.point)) =
    (before[j]?).map fun runner => (runner.key, runner.point)

theorem Marked.found {before after : List Runner} (marked : Marked before after) {j : Nat} {other : Runner}
    (there : after[j]? = some other) :
    ∃ old, before[j]? = some old ∧ old.key = other.key ∧ old.point = other.point := by
  have same := marked j
  rw [there, Option.map_some] at same
  obtain ⟨old, here, equal⟩ := Option.map_eq_some_iff.mp same.symm
  exact ⟨old, here, (Prod.mk.inj equal).1, (Prod.mk.inj equal).2⟩

theorem Marked.stays {before after : List Runner} (marked : Marked before after) {j : Nat} {old : Runner}
    (there : before[j]? = some old) :
    ∃ later, after[j]? = some later ∧ later.key = old.key ∧ later.point = old.point :=
  Marked.found (fun i => (marked i).symm) there

theorem live_of_point {old other : Runner} (same : old.point = other.point) : other.live = old.live := by
  rw [Runner.live, Runner.live, same]

theorem marked_modify (runners : List Runner) (i : Nat) : Marked runners (runners.modify i Runner.cancel) := by
  intro j
  rw [List.getElem?_modify]
  cases runners[j]? with
  | none => rfl
  | some runner =>
    by_cases same : i = j
    · simp [same, Runner.cancel]
    · simp [same]

theorem marked_mapIdx (runners : List Runner) (chosen : List Nat) :
    Marked runners (runners.mapIdx fun i runner => if i ∈ chosen then runner.cancel else runner) := by
  intro j
  rw [List.getElem?_mapIdx]
  cases runners[j]? with
  | none => rfl
  | some runner =>
    by_cases member : j ∈ chosen
    · simp [member, Runner.cancel]
    · simp [member]

/-- Cancelling tasks leaves what the invariant says of their points. -/
theorem Base.mark (base : Base s) {runners : List Runner} {stopping : Bool} {shutdowns : List (List Nat)}
    (marked : Marked s.runners runners)
    (refused : stopping = false → ∀ (i : Nat) (runner : Runner), runners[i]? = some runner →
      runner.point = .waiting → runner.cancelling = true → status s.store runner.key ≠ some .queued)
    (awaited : stopping = true → s.started = true ∧ ∃ awaited, shutdowns = [awaited] ∧
      ∀ (i : Nat) (runner : Runner), s.runners[i]? = some runner → runner.live → i ∈ awaited)
    (calm : stopping = false → shutdowns = []) :
    Base { s with runners := runners, stopping := stopping, shutdowns := shutdowns } where
  reached := base.reached
  named := by
    intro j other there live
    obtain ⟨old, before, same, point⟩ := marked.found there
    rw [← same]
    exact base.named j old before ((live_of_point point).symm.trans live)
  known := by
    intro other j there
    obtain ⟨old, before, rfl⟩ := base.known other j there
    obtain ⟨later, after, same, _⟩ := marked.stays before
    exact ⟨later, after, same⟩
  idle := by
    intro off j other there
    obtain ⟨old, before, _, point⟩ := marked.found there
    exact (live_of_point point).trans (base.idle off j old before)
  owned := by
    intro j other there handling
    obtain ⟨old, before, same, point⟩ := marked.found there
    rw [← same]
    exact base.owned j old before (point.trans handling)
  executing := by
    intro on other executing
    obtain ⟨j, old, before, rfl, handling⟩ := base.executing on other executing
    obtain ⟨later, after, same, point⟩ := marked.stays before
    exact ⟨j, later, after, same, point.trans handling⟩
  filed := by
    intro j other there
    obtain ⟨old, before, same, _⟩ := marked.found there
    rw [← same]
    exact base.filed j old before
  refused := refused
  awaited := by
    intro stops
    obtain ⟨on, tasks, one, all⟩ := awaited stops
    refine ⟨on, tasks, one, fun j other there live => ?_⟩
    obtain ⟨old, before, _, point⟩ := marked.found there
    exact all j old before ((live_of_point point).symm.trans live)
  calm := calm

/-- The task of a job that is no longer queued is cancelled. -/
theorem Inv.interrupt (inv : Inv s) (past : status s.store key ≠ some .queued) : Inv (s.interrupt key) := by
  rw [System.interrupt]
  split
  swap
  · exact inv
  rename_i i current
  obtain ⟨target, here, named⟩ := inv.known key i current
  -- the tasks of other jobs are as they were
  have apart : ∀ {j : Nat} {old : Runner}, s.runners[j]? = some old → old.key ≠ key →
      (s.runners.modify i Runner.cancel)[j]? = s.runners[j]? := by
    intro j old there different
    have elsewhere : i ≠ j := by
      rintro rfl
      rw [here] at there
      cases there
      exact different named
    exact List.getElem?_modify_ne _ _ elsewhere
  refine ⟨inv.mark (marked_modify s.runners i) ?_ inv.awaited inv.calm, ?_⟩
  · intro calm j other there waiting cancelling
    by_cases equal : other.key = key
    · rw [equal]
      exact past
    · obtain ⟨old, before, same, _⟩ := (marked_modify s.runners i).found there
      rw [apart before (by rw [same]; exact equal)] at there
      exact inv.refused calm j other there waiting cancelling
  · intro on calm other queued
    obtain ⟨j, old, before, rfl, fresh⟩ := inv.queued on calm other queued
    have different : old.key ≠ key := by
      rintro equal
      exact past (equal ▸ queued)
    exact ⟨j, old, (apart before different).trans before, rfl, fresh⟩

end Invariant

section Steps

variable {s : System} {i : Nat} {runner : Runner} {key other : JobKey}

theorem Base.current (base : Base s) (found : s.current key = some runner) :
    ∃ i : Nat, s.runners[i]? = some runner ∧ runner.key = key := by
  obtain ⟨i, known, here⟩ := Option.bind_eq_some_iff.mp found
  obtain ⟨target, there, named⟩ := base.known key i known
  rw [here] at there
  cases there
  exact ⟨i, here, named⟩

/-- A task that is already live is not joined by another one. -/
theorem Base.spawn (base : Base s) (on : s.started = true) (calm : s.stopping = false)
    (filed : status s.store key ≠ none) : Base (s.spawn key) := by
  rw [System.spawn]
  split
  · exact base
  rename_i idle
  have free : ∀ (j : Nat) (old : Runner), s.runners[j]? = some old → old.live → old.key ≠ key := by
    rintro j old there live rfl
    have known := base.named j old there live
    rw [System.current, known, Option.bind_some, there] at idle
    exact idle live
  have found : ∀ (j : Nat) (other : Runner), (s.runners ++ [⟨key, .waiting, false⟩])[j]? = some other →
      s.runners[j]? = some other ∨ (j = s.runners.length ∧ other = ⟨key, .waiting, false⟩) := by
    intro j other there
    rw [List.getElem?_append] at there
    split at there
    · exact Or.inl there
    · rename_i beyond
      right
      have last : j - s.runners.length = 0 := by
        by_contra more
        rw [List.getElem?_eq_none (by simp; omega)] at there
        cases there
      rw [last] at there
      exact ⟨by omega, (Option.some.inj there).symm⟩
  have stays : ∀ {j : Nat} {old : Runner}, s.runners[j]? = some old →
      (s.runners ++ [⟨key, .waiting, false⟩])[j]? = some old := fun there => by
    rw [List.getElem?_append_left (List.getElem?_eq_some_iff.mp there).1]
    exact there
  constructor
  case reached => exact base.reached
  case named =>
    intro j other there live
    rcases found j other there with old | ⟨rfl, rfl⟩
    · rw [Entries.get_assign_of_ne (free j other old live)]
      exact base.named j other old live
    · exact Entries.get_assign_self
  case known =>
    intro other j there
    rw [Entries.get_assign] at there
    split at there
    · rename_i same
      cases there
      exact ⟨⟨key, .waiting, false⟩, by simp, same.symm⟩
    · obtain ⟨old, before, named⟩ := base.known other j there
      exact ⟨old, stays before, named⟩
  case idle =>
    intro off
    rw [on] at off
    cases off
  case owned =>
    intro j other there handling
    rcases found j other there with old | ⟨_, rfl⟩
    · exact base.owned j other old handling
    · cases handling
  case executing =>
    intro _ other executing
    obtain ⟨j, old, before, named, handling⟩ := base.executing on other executing
    exact ⟨j, old, stays before, named, handling⟩
  case filed =>
    intro j other there
    rcases found j other there with old | ⟨_, rfl⟩
    · exact base.filed j other old
    · exact filed
  case refused =>
    intro _ j other there waiting cancelling
    rcases found j other there with old | ⟨_, rfl⟩
    · exact base.refused calm j other old waiting cancelling
    · cases cancelling
  case awaited =>
    intro stops
    rw [show s.stopping = true from stops] at calm
    cases calm
  case calm => exact base.calm

theorem Covered.spawn (covered : Covered s key) : Covered (s.spawn other) key := by
  obtain ⟨j, old, there, named, fresh⟩ := covered
  rw [System.spawn]
  split
  · exact ⟨j, old, there, named, fresh⟩
  · refine ⟨j, old, ?_, named, fresh⟩
    rw [List.getElem?_append_left (List.getElem?_eq_some_iff.mp there).1]
    exact there

/-- A task of the key that is live is one that waits, or else a new one does. -/
theorem Base.spawn_covered (base : Base s)
    (fresh : ∀ (j : Nat) (old : Runner), s.runners[j]? = some old → old.key = key → old.live → old.Fresh) :
    Covered (s.spawn key) key := by
  rw [System.spawn]
  split
  · rename_i busy
    obtain ⟨old, current, live⟩ := (Option.any_eq_true _ _).mp busy
    obtain ⟨j, there, named⟩ := base.current current
    exact ⟨j, old, there, named, fresh j old there named live⟩
  · exact ⟨s.runners.length, ⟨key, .waiting, false⟩, by simp, rfl, rfl, rfl⟩

theorem get_filter_ne (entries : List (JobKey × Nat)) (different : other ≠ key) :
    Entries.get (entries.filter fun entry => entry.1 ≠ key) other = Entries.get entries other := by
  induction entries with
  | nil => rfl
  | cons entry entries ih =>
    rw [List.filter_cons]
    split
    · rw [Entries.get_cons, Entries.get_cons, ih]
    · rename_i here
      have same : entry.1 = key := by simpa using here
      rw [ih, Entries.get_cons, if_neg (by rw [same]; exact Ne.symm different)]

theorem get_filter_self (entries : List (JobKey × Nat)) :
    Entries.get (entries.filter fun entry => entry.1 ≠ key) key = none := by
  induction entries with
  | nil => rfl
  | cons entry entries ih =>
    rw [List.filter_cons]
    split
    · rename_i here
      rw [Entries.get_cons, if_neg (by simpa using here), ih]
    · exact ih

/-- The callback of a task that is over takes it out of `_running`. -/
theorem Inv.callback (inv : Inv s) (here : s.runners[i]? = some runner) (past : runner.live = false)
    (current : Entries.get s.running runner.key = some i) :
    Inv { s with running := s.running.filter fun entry => entry.1 ≠ runner.key } where
  reached := inv.reached
  named := by
    intro j other there live
    have known := inv.named j other there live
    have different : other.key ≠ runner.key := by
      intro same
      rw [same, current] at known
      cases known
      rw [here] at there
      cases there
      rw [past] at live
      cases live
    rw [get_filter_ne _ different]
    exact known
  known := by
    intro other j there
    by_cases same : other = runner.key
    · rw [same, get_filter_self] at there
      cases there
    · rw [get_filter_ne _ same] at there
      exact inv.known other j there
  idle := inv.idle
  owned := inv.owned
  executing := inv.executing
  filed := inv.filed
  refused := inv.refused
  awaited := inv.awaited
  calm := inv.calm
  queued := inv.queued

theorem Inv.shutdown (inv : Inv s) (on : s.started = true) (calm : s.stopping = false) :
    Inv { s with
      stopping := true
      runners := s.runners.mapIdx fun i runner => if i ∈ s.running.map Prod.snd then runner.cancel else runner
      shutdowns := s.shutdowns ++ [s.running.map Prod.snd] } := by
  have awaited : ∀ (j : Nat) (old : Runner), s.runners[j]? = some old → old.live → j ∈ s.running.map Prod.snd := by
    intro j old there live
    have known := inv.named j old there live
    rw [Entries.get] at known
    obtain ⟨entry, member, rfl⟩ := Option.map_eq_some_iff.mp known
    exact List.mem_map_of_mem (List.mem_of_find?_eq_some member)
  have alone : s.shutdowns ++ [s.running.map Prod.snd] = [s.running.map Prod.snd] := by
    rw [inv.calm calm]
    rfl
  refine ⟨inv.mark (marked_mapIdx s.runners _) ?_ (fun _ => ⟨on, _, alone, awaited⟩) ?_, ?_⟩
  · intro off
    cases off
  · intro off
    cases off
  · intro _ off
    cases off

/-- When all that a shutdown awaits is over, no task is live. -/
theorem Inv.stopped (inv : Inv s) {awaited : List Nat} (pending : s.shutdowns[i]? = some awaited)
    (past : (awaited.all fun j => (s.runners[j]?).all fun runner => !runner.live) = true) :
    Inv { s with running := [], started := false, stopping := false, shutdowns := s.shutdowns.eraseIdx i } := by
  have stops : s.stopping = true := by
    by_contra calm
    rw [inv.calm (by simpa using calm)] at pending
    cases pending
  obtain ⟨_, tasks, one, all⟩ := inv.awaited stops
  rw [one] at pending
  obtain ⟨rfl, rfl⟩ : i = 0 ∧ tasks = awaited := by
    cases i with
    | zero => exact ⟨rfl, Option.some.inj pending⟩
    | succ i => cases pending
  have dead : ∀ (j : Nat) (other : Runner), s.runners[j]? = some other → other.live = false := by
    intro j other there
    by_contra live
    have gone := List.all_eq_true.mp past j (all j other there (by simpa using live))
    rw [there] at gone
    simp at gone
    exact live gone
  constructor
  case base =>
    constructor
    case reached => exact inv.reached
    case named =>
      intro j other there live
      rw [dead j other there] at live
      cases live
    case known =>
      intro _ _ there
      cases there
    case idle => exact fun _ => dead
    case owned => exact inv.owned
    case executing =>
      intro on
      cases on
    case filed => exact inv.filed
    case refused =>
      intro _ j other there waiting
      have live := live_of_waiting waiting
      rw [dead j other there] at live
      cases live
    case awaited =>
      intro off
      cases off
    case calm =>
      intro _
      change s.shutdowns.eraseIdx 0 = []
      rw [one]
      rfl
  case queued =>
    intro on
    cases on

theorem inv_boot {store : JobStore} (reached : ∃ calls, store = Run.exec Refinement.step .empty calls) :
    Inv (.boot store) := by
  constructor
  case base =>
    constructor
    case reached => exact reached
    case named =>
      intro _ _ there
      cases there
    case known =>
      intro _ _ there
      cases there
    case idle =>
      intro _ _ _ there
      cases there
    case owned =>
      intro _ _ there
      cases there
    case executing =>
      intro on
      cases on
    case filed =>
      intro _ _ there
      cases there
    case refused =>
      intro _ _ _ there
      cases there
    case awaited =>
      intro stops
      cases stops
    case calm =>
      intro _
      rfl
  case queued =>
    intro on
    cases on

@[simp] theorem spawn_store : (s.spawn key).store = s.store := by
  rw [System.spawn]
  split <;> rfl

@[simp] theorem spawn_started : (s.spawn key).started = s.started := by
  rw [System.spawn]
  split <;> rfl

@[simp] theorem spawn_stopping : (s.spawn key).stopping = s.stopping := by
  rw [System.spawn]
  split <;> rfl

/-- Induction on the jobs: while the service starts, every live task is one that waits. -/
theorem Base.spawn_all (jobs : List Job) (base : Base s) (on : s.started = true) (calm : s.stopping = false)
    (filed : ∀ job ∈ jobs, status s.store job.key ≠ none)
    (fresh : ∀ (j : Nat) (old : Runner), s.runners[j]? = some old → old.live → old.Fresh) :
    Base (jobs.foldl (fun s job => s.spawn job.key) s) ∧
      (∀ key, Covered s key ∨ key ∈ jobs.map Job.key → Covered (jobs.foldl (fun s job => s.spawn job.key) s) key) ∧
      (jobs.foldl (fun s job => s.spawn job.key) s).store = s.store := by
  induction jobs generalizing s with
  | nil =>
    refine ⟨base, fun key either => ?_, rfl⟩
    rcases either with covered | inside
    · exact covered
    · cases inside
  | cons job jobs ih =>
    have next := base.spawn on calm (filed job List.mem_cons_self)
    have young : ∀ (j : Nat) (old : Runner), (s.spawn job.key).runners[j]? = some old → old.live → old.Fresh := by
      intro j old there live
      rw [System.spawn] at there
      split at there
      · exact fresh j old there live
      · dsimp only at there
        rw [List.getElem?_append] at there
        split at there
        · exact fresh j old there live
        · obtain rfl := List.mem_singleton.mp (List.mem_of_getElem? there)
          exact ⟨rfl, rfl⟩
    obtain ⟨kept, covers, same⟩ := ih next (by simpa using on) (by simpa using calm)
      (fun other member => by simpa using filed other (List.mem_cons_of_mem _ member)) young
    refine ⟨kept, fun key either => covers key ?_, by simpa using same⟩
    rcases either with covered | inside
    · exact Or.inl covered.spawn
    · rcases List.mem_cons.mp inside with rfl | later
      · exact Or.inl (base.spawn_covered fun j old there _ live => fresh j old there live)
      · exact Or.inr later

end Steps

section Runs

variable {s : System} {capacity : Nat} {registered : String → Nat → Bool}

theorem pick_eq_some {i : Nat} {chosen : Runner → Bool} {runner : Runner} (picked : s.pick i chosen = some runner) :
    s.runners[i]? = some runner ∧ chosen runner = true := Option.filter_eq_some_iff.mp picked

theorem Inv.recovered (inv : Inv s) (now : Nat) (off : s.started = false) (steady : s.stopping = false) :
    Base { s with store := (recover s.store now).1, started := true, stopping := false } := by
  have dead : ∀ (j : Nat) (other : Runner), s.runners[j]? = some other → other.live = false := inv.idle off
  constructor
  case reached => exact inv.calls (.recover now)
  case named => exact inv.named
  case known => exact inv.known
  case idle =>
    intro on
    cases on
  case owned =>
    intro j other there handling
    have live := live_of_handling handling
    rw [dead j other there] at live
    cases live
  case executing =>
    intro _ key executing
    simp only [Executing, recover_status inv.consistent, Option.map_eq_some_iff] at executing
    obtain ⟨held, _, after⟩ | ⟨held, _, after⟩ := executing <;> cases held <;> cases after
  case filed =>
    intro j other there
    have present := inv.filed j other there
    change status (recover s.store now).1 other.key ≠ none
    rw [recover_status inv.consistent]
    simpa using present
  case refused =>
    intro _ j other there waiting
    have live := live_of_waiting waiting
    rw [dead j other there] at live
    cases live
  case awaited =>
    intro stops
    cases stops
  case calm => exact fun _ => inv.calm steady

theorem step_start (inv : Inv s) (now : Nat) : Inv (step capacity registered s (.start now)) := by
  rw [step]
  split
  · exact inv
  rename_i off
  replace off : s.started = false := by simpa using off
  have steady : s.stopping = false := by
    by_contra stops
    rw [(inv.awaited (by simpa using stops)).1] at off
    cases off
  have base := inv.recovered now off steady
  have returned : ∀ job ∈ (recover s.store now).2, status (recover s.store now).1 job.key ≠ none := by
    intro job member
    obtain ⟨row, _, there⟩ := List.mem_filterMap.mp member
    have named : job.key = row.key := by simpa using List.find?_some there
    have shown : status (recover s.store now).1 row.key = some job.status := status_of_present there
    rw [named, shown]
    simp
  obtain ⟨kept, covers, same⟩ := base.spawn_all (recover s.store now).2 rfl rfl returned
    (fun j old there live => by
      rw [inv.idle off j old there] at live
      cases live)
  refine ⟨kept, fun _ _ key queued => covers key (Or.inr ?_)⟩
  rw [same] at queued
  obtain ⟨job, member, rfl⟩ := recover_returns inv.consistent queued
  exact List.mem_map_of_mem member

theorem step_create (inv : Inv s) (calm : s.stopping = false) (request : CreateRequest) (now : Nat) :
    Inv (step capacity registered s (.create request now)) := by
  rw [step]
  split
  · exact inv
  rename_i stored job fresh done
  have reached : ∃ calls, stored = Run.exec Refinement.step .empty calls := by
    have next := inv.calls (.create request now)
    rw [Refinement.step, done] at next
    exact next
  rcases create_spec inv.consistent done with ⟨rfl, held⟩ | ⟨free, queued, moved⟩
  · split
    · rename_i both
      simp only [Bool.and_eq_true, beq_iff_eq] at both
      rw [both.2] at held
      -- the job already has its task
      obtain ⟨j, old, there, named, waits⟩ := inv.queued both.1 calm _ held
      have busy : (s.current job.key).any Runner.live = true := by
        have known := inv.named j old there (live_of_waiting waits.1)
        rw [named] at known
        rw [System.current, known, Option.bind_some, there]
        exact live_of_waiting waits.1
      have same : System.spawn { s with store := s.store } job.key = s := if_pos busy
      rw [same]
      exact inv
    · exact inv
  · have absent : ∀ (j : Nat) (old : Runner), s.runners[j]? = some old → old.key ≠ job.key := by
      intro j old there same
      exact inv.filed j old there (by rw [same, free])
    have base : Base { s with store := stored } := by
      constructor
      case reached => exact reached
      case named => exact inv.named
      case known => exact inv.known
      case idle => exact inv.idle
      case owned =>
        intro j old there handling
        have before := inv.owned j old there handling
        rw [Executing, moved, if_neg (absent j old there)]
        exact before
      case executing =>
        intro on key executing
        refine inv.executing on key ?_
        by_cases same : key = job.key
        · rw [Executing, moved, if_pos same] at executing
          simp at executing
        · rw [Executing, moved, if_neg same] at executing
          exact executing
      case filed =>
        intro j old there
        change status stored old.key ≠ none
        rw [moved, if_neg (absent j old there)]
        exact inv.filed j old there
      case refused =>
        intro _ j old there waiting cancelling
        change status stored old.key ≠ some .queued
        rw [moved, if_neg (absent j old there)]
        exact inv.refused calm j old there waiting cancelling
      case awaited => exact inv.awaited
      case calm => exact inv.calm
    have older : ∀ key, status stored key = some .queued → key ≠ job.key → s.started = true →
        Covered { s with store := stored } key := by
      intro key still different on
      rw [moved, if_neg different] at still
      exact inv.queued on calm key still
    split
    · rename_i both
      simp only [Bool.and_eq_true, beq_iff_eq] at both
      have filed : status stored job.key ≠ none := by
        rw [moved, if_pos rfl]
        simp
      refine ⟨base.spawn both.1 calm filed, fun _ _ key still => ?_⟩
      rw [spawn_store] at still
      by_cases same : key = job.key
      · subst same
        exact base.spawn_covered fun j old there named _ => absurd named (absent j old there)
      · exact (older key still same both.1).spawn
    · rename_i neither
      refine ⟨base, fun on _ key still => ?_⟩
      by_cases same : key = job.key
      · have started : s.started = true := on
        simp [started, queued] at neither
      · exact older key still same on

theorem step_cancel (inv : Inv s) (key : JobKey) (now : Nat) :
    Inv (step capacity registered s (.cancel key now)) := by
  rw [step]
  split
  · exact inv
  rename_i stored job done
  have reached : ∃ calls, stored = Run.exec Refinement.step .empty calls := by
    have next := inv.calls (.requestCancel key now)
    rw [Refinement.step, done] at next
    exact next
  obtain ⟨puts, shown⟩ := requestCancel_spec done
  have asked := inv.asked reached puts
  split
  · rename_i past
    refine asked.interrupt ?_
    change status stored key ≠ some .queued
    rw [shown]
    rcases Bool.or_eq_true _ _ ▸ past with requested | cancelled
    · rw [eq_of_beq requested]
      simp
    · rw [eq_of_beq cancelled]
      simp
  · exact asked

theorem step_enter (inv : Inv s) {i : Nat} {runner : Runner} (here : s.runners[i]? = some runner)
    (waiting : runner.point = .waiting) (now : Nat) : Inv (s.enter registered i runner now) := by
  have live := live_of_waiting waiting
  rw [System.enter]
  rcases claim_spec s.store runner.key now with ⟨stored, job, done, queued, puts⟩ | ⟨unqueued, none⟩
  · have taken : Refinement.step s.store (.claim runner.key now) = stored := by rw [Refinement.step, done]; rfl
    have own : status stored runner.key = some .running := by
      rw [puts runner.key, if_pos rfl, queued]
      rfl
    have others : ∀ other, other ≠ runner.key → status stored other = status s.store other := fun other different => by
      rw [puts other, if_neg different]
    obtain ⟨calls, reached⟩ := inv.calls (.claim runner.key now)
    rw [taken] at reached
    rw [done]
    dsimp only
    split
    · exact inv.moveTo here live (by simp) ⟨calls, reached⟩ others (by simp [own])
        ⟨fun _ => rfl, fun _ => Or.inl own⟩ fun _ => by simp [own]
    · have settled : Settled s.stopping runner.key stored
          (committed stored (fail stored runner.key handlerUnavailable now)) :=
        (fail_puts stored runner.key handlerUnavailable now).settled (Or.inl own) (Or.inl rfl) rfl
      refine inv.settle here live ⟨calls ++ [.fail runner.key handlerUnavailable now], ?_⟩ ⟨?_, settled.own⟩
      · rw [Run.exec_append, ← reached]
        rfl
      · intro other different
        rw [settled.others other different, others other different]
  · have idle := inv.unclaimed here waiting
    have stays : Inv (s.moveTo i .done s.store) :=
      inv.moveTo here live (by simp) inv.reached (fun _ _ => rfl) (inv.filed i runner here)
        ⟨fun executing => absurd executing idle, fun handling => by cases handling⟩ fun _ => unqueued
    split
    · rename_i stored job done
      exact absurd done (none stored job)
    · exact stays

theorem step_inv (inv : Inv s) (op : Op) (calm : Calm s op) : Inv (step capacity registered s op) := by
  cases op with
  | start now => exact step_start inv now
  | create request now => exact step_create inv calm request now
  | cancel key now => exact step_cancel inv key now
  | enter i now =>
    rw [step]
    split
    · rename_i runner picked
      obtain ⟨here, waits⟩ := pick_eq_some picked
      simp only [Bool.and_eq_true, beq_iff_eq] at waits
      split
      · exact step_enter inv here waits.1 now
      · exact inv
    · exact inv
  | progress i payload now =>
    rw [step]
    split
    · rename_i runner picked
      refine inv.unchanged (inv.calls (.progress runner.key payload now)) fun key => ?_
      cases present : s.store.job runner.key with
      | none =>
        rw [progress, get_of_none present]
        rfl
      | some row =>
        rw [progress, get_of_some present, ok_bind]
        split <;> rfl
    · exact inv
  | finish i ending now =>
    rw [step]
    split
    · rename_i runner picked
      obtain ⟨here, handles⟩ := pick_eq_some picked
      have handling := eq_of_beq handles
      obtain ⟨call, same⟩ := ended_call s.store s.stopping runner.key now ending
      exact inv.settle here (live_of_handling handling) (by rw [same]; exact inv.calls call)
        (ended_settled (inv.owned i runner here handling) ending)
    · exact inv
  | abandon i =>
    rw [step]
    split
    · rename_i runner picked
      obtain ⟨here, waits⟩ := pick_eq_some picked
      simp only [Bool.and_eq_true, beq_iff_eq] at waits
      have idle := inv.unclaimed here waits.1
      exact inv.moveTo here (live_of_waiting waits.1) (by simp) inv.reached (fun _ _ => rfl) (inv.filed i runner here)
        ⟨fun executing => absurd executing idle, fun handling => by cases handling⟩
        fun steady => inv.refused steady i runner here waits.1 waits.2
    · exact inv
  | callback i =>
    rw [step]
    split
    · rename_i runner picked
      obtain ⟨here, past⟩ := pick_eq_some picked
      split
      · rename_i current
        exact inv.callback here (by simpa using past) current
      · exact inv
    · exact inv
  | shutdown =>
    rw [step]
    split
    · rename_i on
      exact inv.shutdown on calm
    · exact inv
  | stopped i =>
    rw [step]
    split
    · rename_i awaited pending
      split
      · rename_i past
        exact inv.stopped pending past
      · exact inv
    · exact inv
  | crash => exact inv_boot inv.reached

theorem Inv.drained (inv : Inv s) (on : s.started = true) (steady : s.stopping = false)
    (past : ∀ runner ∈ s.runners, runner.live = false) (job : Job) (member : job ∈ s.store.jobs) :
    job.status.terminal = true := by
  have shown : status s.store job.key = some job.status :=
    status_of_present (Rows.find_of_mem inv.consistent.distinct member)
  have unclaimed : ¬ Executing s.store job.key := by
    intro executing
    obtain ⟨i, runner, here, _, handling⟩ := inv.executing on _ executing
    have gone := past runner (List.mem_of_getElem? here)
    rw [live_of_handling handling] at gone
    cases gone
  have unqueued : status s.store job.key ≠ some .queued := by
    intro queued
    obtain ⟨i, runner, here, _, fresh⟩ := inv.queued on steady _ queued
    have gone := past runner (List.mem_of_getElem? here)
    rw [live_of_waiting fresh.1] at gone
    cases gone
  rw [Executing, shown] at unclaimed
  rw [shown] at unqueued
  cases held : job.status <;> simp_all [JobStatus.terminal]

/-- Over every order of calls, of what the tasks do and of deaths of the process, while no job is created and no second
shutdown begun during a shutdown: a job has at most one live task, so that its handler never runs twice at once; a task
handles a job that the store knows as claimed, and a claimed job of a started service has its task; every queued job of
a service that is up has a task that will claim it, so that no job is left when no task is. What is stored is what the
operations of the store lead to. -/
theorem runners_follow_store (capacity : Nat) (registered : String → Nat → Bool) (ops : List Op)
    (calm : Run.Guarded (step capacity registered) Calm (.boot .empty) ops) :
    let s := Run.exec (step capacity registered) (.boot .empty) ops
    (∃ calls, s.store = Run.exec Refinement.step .empty calls) ∧
      (∀ (i j : Nat) (first second : Runner), s.runners[i]? = some first → s.runners[j]? = some second →
        first.live → second.live → first.key = second.key → i = j) ∧
      (∀ runner ∈ s.runners, runner.point = .handling → Executing s.store runner.key) ∧
      (s.started = true → ∀ key, Executing s.store key →
        ∃ runner ∈ s.runners, runner.key = key ∧ runner.point = .handling) ∧
      (s.started = true → s.stopping = false → ∀ key, status s.store key = some .queued →
        ∃ runner ∈ s.runners, runner.key = key ∧ runner.point = .waiting ∧ runner.cancelling = false) ∧
      (s.started = true → s.stopping = false → (∀ runner ∈ s.runners, runner.live = false) →
        ∀ job ∈ s.store.jobs, job.status.terminal = true) := by
  intro s
  have inv : Inv s := @Run.Guarded.invariant System Op (step capacity registered) Calm Inv
    (fun _ op inv quiet => step_inv inv op quiet) _ ops calm (inv_boot ⟨[], rfl⟩)
  refine ⟨inv.reached, ?_, ?_, ?_, ?_, fun on steady => inv.drained on steady⟩
  · intro i j first second here there live alive same
    exact (inv.unique here live there alive same.symm).symm
  · intro runner member
    obtain ⟨i, here⟩ := List.mem_iff_getElem?.mp member
    exact inv.owned i runner here
  · intro on key executing
    obtain ⟨i, runner, here, rest⟩ := inv.executing on key executing
    exact ⟨runner, List.mem_of_getElem? here, rest⟩
  · intro on steady key queued
    obtain ⟨i, runner, here, named, fresh⟩ := inv.queued on steady key queued
    exact ⟨runner, List.mem_of_getElem? here, named, fresh⟩

def sampleRequest : CreateRequest := ⟨"t", "job", "report", 1, [], "k", "hash"⟩

/-- A job is claimed, the process dies, and another one starts. -/
def sampleOps : List Op := [.start 0, .create sampleRequest 1, .enter 0 2, .crash, .start 3]

theorem runners_follow_store_sample :
    let s := Run.exec (step 1 fun _ _ => true) (.boot .empty) sampleOps
    ∃ runner ∈ s.runners, runner.key = ("t", "job") ∧ runner.point = .waiting ∧ runner.cancelling = false := by
  have calm : Run.Guarded (step 1 fun _ _ => true) Calm (.boot .empty) sampleOps := by
    decide +kernel
  refine (runners_follow_store 1 (fun _ _ => true) sampleOps calm).2.2.2.2.1 ?_ ?_ ("t", "job") ?_
  · decide +kernel
  · decide +kernel
  · decide +kernel

/-- A job created while the service stops is claimed by a task that the shutdown does not await: after the next start
its handler runs twice at once. -/
example :
    let s := Run.exec (step 2 fun _ _ => true) (.boot .empty)
      [.start 0, .shutdown, .create sampleRequest 1, .enter 0 2, .stopped 0, .start 3, .enter 1 4]
    s.runners = [⟨("t", "job"), .handling, false⟩, ⟨("t", "job"), .handling, false⟩] := by
  decide +kernel

end Runs

end OpenTulpa.Jobs.Runners
