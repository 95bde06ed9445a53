import OpenTulpa.Library.Run

/-! Calls that share one database connection and are interleaved between their statements. A
transaction belongs to the connection: a data statement opens one if none is open, beginning one
inside an open one is refused, and a commit or a rollback ends whichever is open. -/

namespace OpenTulpa.Library.Connection

/-- What is left of a call: its next statement, and what follows each outcome of it. -/
inductive Call (δ ε α : Type) where
  | lock (next : Call δ ε α)
  | unlock (next : Call δ ε α)
  | beginImmediate (next refused : Call δ ε α)
  | read (next : δ → Call δ ε α)
  | write (statement : δ → Except ε (δ × Nat)) (next : Except ε Nat → Call δ ε α)
  | commit (next : Call δ ε α)
  | rollback (next : Call δ ε α)
  | done (result : Except ε α)

variable {δ ε α : Type}

/-- The call on its own, from a committed database and what the open transaction made of it. -/
@[grind =] def Call.run : Call δ ε α → δ → δ → δ × Except ε α
  | .lock next, durable, working => next.run durable working
  | .unlock next, durable, working => next.run durable working
  | .beginImmediate next _, durable, working => next.run durable working
  | .read next, durable, working => (next working).run durable working
  | .write statement next, durable, working =>
    match statement working with
    | .ok (changed, count) => (next (.ok count)).run durable changed
    | .error error => (next (.error error)).run durable working
  | .commit next, _, working => next.run working working
  | .rollback next, durable, _ => next.run durable durable
  | .done result, durable, _ => (durable, result)

/-- What the call returned or raised. -/
def Call.result : Call δ ε α → Option (Except ε α)
  | .done result => some result
  | _ => none

/-- A data statement that was executed, and the call that issued it. -/
structure Entry (δ ε : Type) where
  caller : Nat
  statement : δ → Except ε (δ × Nat)

/-- The statements that one call issued. -/
def ofCaller (i : Nat) (entries : List (Entry δ ε)) : List (Entry δ ε) :=
  entries.filter fun entry => entry.caller == i

def replay (start : δ) (entries : List (Entry δ ε)) : δ :=
  entries.foldl (fun db entry =>
    match entry.statement db with
    | .ok (changed, _) => changed
    | .error _ => db) start

/-- A call in progress. It has begun from its `BEGIN` until it releases the lock, and is dirty
from a data statement outside of that until it commits. -/
structure Task (δ ε α : Type) where
  call : Call δ ε α
  begun : Bool
  dirty : Bool

/-- The connection and its calls. `stored` and `pending` are the executed data statements that
were committed and those of the open transaction, `undone` are those that were rolled back, with
the call that did it, and `refused` are the calls that could not begin. -/
structure State (δ ε α : Type) where
  tasks : List (Task δ ε α)
  holder : Option Nat
  opened : Bool
  initial : δ
  issued : List (Entry δ ε)
  stored : List (Entry δ ε)
  pending : List (Entry δ ε)
  undone : List (Nat × Entry δ ε)
  refused : List Nat

def State.durable (s : State δ ε α) : δ := replay s.initial s.stored

def State.working (s : State δ ε α) : δ := replay s.initial (s.stored ++ s.pending)

def start (initial : δ) (calls : List (Call δ ε α)) : State δ ε α :=
  ⟨calls.map fun call => ⟨call, false, false⟩, none, false, initial, [], [], [], [], []⟩

/-- One statement of the call. A call that waits for the lock stays where it is. -/
def State.advance (s : State δ ε α) (i : Nat) (task : Task δ ε α) : State δ ε α :=
  match task.call with
  | .lock next =>
    if s.holder = none then { s with tasks := s.tasks.set i { task with call := next }, holder := some i } else s
  | .unlock next => { s with tasks := s.tasks.set i ⟨next, false, task.dirty⟩, holder := none }
  | .beginImmediate next refused =>
    if s.opened then { s with tasks := s.tasks.set i { task with call := refused }, refused := s.refused ++ [i] }
    else { s with tasks := s.tasks.set i ⟨next, true, task.dirty⟩, opened := true }
  | .read next => { s with tasks := s.tasks.set i { task with call := next s.working } }
  | .write statement next =>
    match statement s.working with
    | .ok (_, count) =>
      { s with
        tasks := s.tasks.set i ⟨next (.ok count), task.begun, !task.begun⟩
        opened := true
        issued := s.issued ++ [⟨i, statement⟩]
        pending := s.pending ++ [⟨i, statement⟩] }
    | .error error => { s with tasks := s.tasks.set i { task with call := next (.error error) }, opened := true }
  | .commit next =>
    { s with
      tasks := s.tasks.set i ⟨next, task.begun, false⟩
      opened := false
      stored := s.stored ++ s.pending
      pending := [] }
  | .rollback next =>
    { s with
      tasks := s.tasks.set i { task with call := next }
      opened := false
      pending := []
      undone := s.undone ++ s.pending.map fun entry => (i, entry) }
  | .done _ => s

def step (s : State δ ε α) (i : Nat) : State δ ε α :=
  match s.tasks[i]? with
  | some task => s.advance i task
  | none => s

/-- The call does not overlap a transaction that another one has begun: outside of the lock it
writes and commits only while none is begun, and it begins only while nothing is uncommitted. -/
def ClearCall (s : State δ ε α) (i : Nat) : Call δ ε α → Prop
  | .beginImmediate _ _ => ∀ task ∈ s.tasks, task.dirty = false
  | .write statement _ =>
    s.holder = some i ∨ (∀ task ∈ s.tasks, task.begun = false) ∧ (statement s.working).isOk = true
  | .commit _ => s.holder = some i ∨ ∀ task ∈ s.tasks, task.begun = false
  | _ => True

instance decidableClearCall (s : State δ ε α) (i : Nat) : ∀ call, Decidable (ClearCall s i call)
  | .beginImmediate _ _ => inferInstanceAs (Decidable (∀ task ∈ s.tasks, task.dirty = false))
  | .write statement _ =>
    inferInstanceAs (Decidable (s.holder = some i ∨
      (∀ task ∈ s.tasks, task.begun = false) ∧ (statement s.working).isOk = true))
  | .commit _ => inferInstanceAs (Decidable (s.holder = some i ∨ ∀ task ∈ s.tasks, task.begun = false))
  | .lock _ | .unlock _ | .read _ | .rollback _ | .done _ => isTrue trivial

def Clear (s : State δ ε α) (i : Nat) : Prop := ∀ task ∈ s.tasks[i]?, ClearCall s i task.call

instance decidableClear (s : State δ ε α) (i : Nat) : Decidable (Clear s i) :=
  inferInstanceAs (Decidable (∀ task ∈ s.tasks[i]?, ClearCall s i task.call))

/-- No call was refused for the transaction of another, a call that succeeded has its writes
stored, one that raised has none stored, and a rollback undid the writes of its own call only. -/
structure Serial (s : State δ ε α) : Prop where
  begins : s.refused = []
  saved : ∀ i task value, s.tasks[i]? = some task → task.call.result = some (.ok value) →
    ofCaller i s.issued = ofCaller i s.stored
  dropped : ∀ i task error, s.tasks[i]? = some task → task.call.result = some (.error error) →
    ofCaller i s.stored = []
  own : ∀ undoing ∈ s.undone, undoing.2.caller = undoing.1

/-- How far a call is. From `held` to `heldSaved` it holds the lock; `clean` and `wrote` are inside
of a transaction of its own, without and with a write. -/
inductive Phase where
  | idle
  | held
  | clean
  | wrote
  | reverted
  | failed
  | saved
  | heldDirty
  | heldSaved
  | dirty
  | lost
  | succeeded
  deriving DecidableEq

def Phase.locked : Phase → Bool
  | .held | .clean | .wrote | .reverted | .failed | .saved | .heldDirty | .heldSaved => true
  | .idle | .dirty | .lost | .succeeded => false

def Phase.begun : Phase → Bool
  | .clean | .wrote | .reverted | .failed | .saved => true
  | _ => false

def Phase.isDirty : Phase → Bool
  | .dirty | .heldDirty => true
  | _ => false

/-- The transaction of the call is over and its lock is still held. -/
def Phase.ended : Phase → Bool
  | .reverted | .failed | .saved => true
  | _ => false

/-- The call is disciplined from the phase on: it begins and ends its transactions under the lock,
or writes once and commits, and it returns a value only if nothing of it was rolled back. -/
def Fits : Call δ ε α → Phase → Prop
  | .lock next, phase => phase = .idle ∧ Fits next .held
  | .unlock next, .held | .unlock next, .reverted => Fits next .idle
  | .unlock next, .failed => Fits next .lost
  | .unlock next, .saved | .unlock next, .heldSaved => Fits next .succeeded
  | .unlock _, _ => False
  | .beginImmediate next _, phase => phase = .held ∧ Fits next .clean
  | .read next, phase => ∀ db, Fits (next db) phase
  | .write _ next, .idle => ∀ count, Fits (next (.ok count)) .dirty
  | .write statement next, .held => (∀ db, (statement db).isOk = true) ∧ ∀ count, Fits (next (.ok count)) .heldDirty
  | .write _ next, .clean => (∀ count, Fits (next (.ok count)) .wrote) ∧ ∀ error, Fits (next (.error error)) .clean
  | .write _ next, .wrote => ∀ outcome, Fits (next outcome) .wrote
  | .write _ _, _ => False
  | .commit next, .clean | .commit next, .wrote => Fits next .saved
  | .commit next, .heldDirty => Fits next .heldSaved
  | .commit next, .dirty => Fits next .succeeded
  | .commit _, _ => False
  | .rollback next, .clean | .rollback next, .reverted => Fits next .reverted
  | .rollback next, .wrote | .rollback next, .failed => Fits next .failed
  | .rollback _, _ => False
  | .done _, .idle => True
  | .done result, .lost => ∃ error, result = .error error
  | .done result, .succeeded => ∃ value, result = .ok value
  | .done _, _ => False

@[simp] theorem ofCaller_nil (i : Nat) : ofCaller i ([] : List (Entry δ ε)) = [] := rfl

theorem ofCaller_append (i : Nat) (first second : List (Entry δ ε)) :
    ofCaller i (first ++ second) = ofCaller i first ++ ofCaller i second := List.filter_append ..

theorem ofCaller_concat (i j : Nat) (entries : List (Entry δ ε)) (statement : δ → Except ε (δ × Nat)) :
    ofCaller i (entries ++ [⟨j, statement⟩]) = ofCaller i entries ++ if j = i then [⟨j, statement⟩] else [] := by
  by_cases same : j = i <;> simp [ofCaller, List.filter_append, same]

theorem ofCaller_eq_nil {i : Nat} {entries : List (Entry δ ε)} :
    ofCaller i entries = [] ↔ ∀ entry ∈ entries, entry.caller ≠ i := by
  simp [ofCaller, List.filter_eq_nil_iff]

/-- No write of the call was undone. -/
def Kept (s : State δ ε α) (i : Nat) : Prop := ∀ undoing ∈ s.undone, undoing.2.caller ≠ i

/-- What became of the writes of a call in the phase. -/
def Books (s : State δ ε α) (i : Nat) : Phase → Prop
  | .idle | .held | .clean | .reverted => ofCaller i s.issued = []
  | .wrote => ofCaller i s.stored = [] ∧ Kept s i
  | .failed | .lost => ofCaller i s.stored = [] ∧ ofCaller i s.pending = []
  | .saved | .heldSaved | .succeeded => ofCaller i s.pending = [] ∧ Kept s i
  | .dirty | .heldDirty => Kept s i

structure Phased (s : State δ ε α) (i : Nat) (task : Task δ ε α) (phase : Phase) : Prop where
  fits : Fits task.call phase
  begun : task.begun = phase.begun
  dirty : task.dirty = phase.isDirty
  locked : s.holder = some i ↔ phase.locked = true
  books : Books s i phase
  closed : phase.ended = true → s.opened = false

structure Disciplined (s : State δ ε α) : Prop where
  phased : ∀ i task, s.tasks[i]? = some task → ∃ phase, Phased s i task phase
  alone : ∀ i task, s.tasks[i]? = some task → task.begun = true →
    (∀ entry ∈ s.pending, entry.caller = i) ∧ ∀ other ∈ s.tasks, other.dirty = false
  traced : s.opened = true → ∃ task ∈ s.tasks, task.begun = true ∨ task.dirty = true
  empty : s.opened = false → s.pending = []
  balance : ∀ i, Kept s i → ofCaller i s.issued = ofCaller i s.stored ++ ofCaller i s.pending
  listed : ∀ i, ofCaller i s.issued = [] → ofCaller i s.stored = [] ∧ ofCaller i s.pending = [] ∧ Kept s i
  begins : s.refused = []
  own : ∀ undoing ∈ s.undone, undoing.2.caller = undoing.1

theorem start_disciplined {initial : δ} {calls : List (Call δ ε α)} (fits : ∀ call ∈ calls, Fits call .idle) :
    Disciplined (start initial calls) where
  phased := by
    intro i task found
    obtain ⟨call, member, rfl⟩ := List.mem_map.mp (List.mem_of_getElem? found)
    exact ⟨.idle, fits call member, rfl, rfl, by simp [start, Phase.locked], rfl, by simp [Phase.ended]⟩
  alone := by
    intro i task found begun
    obtain ⟨call, _, rfl⟩ := List.mem_map.mp (List.mem_of_getElem? found)
    cases begun
  traced := by simp [start]
  empty := fun _ => rfl
  balance := fun _ _ => rfl
  listed := fun _ _ => ⟨rfl, rfl, by simp [Kept, start]⟩
  begins := rfl
  own := by simp [start]

theorem result_eq_some {call : Call δ ε α} {result : Except ε α} (ended : call.result = some result) :
    call = .done result := by
  cases call with
  | done other =>
    cases ended
    rfl
  | _ => cases ended

theorem Disciplined.serial {s : State δ ε α} (disciplined : Disciplined s) : Serial s where
  begins := disciplined.begins
  own := disciplined.own
  saved := by
    intro i task value found ended
    obtain ⟨phase, phased⟩ := disciplined.phased i task found
    have fits := phased.fits
    have books := phased.books
    rw [result_eq_some ended] at fits
    cases phase <;> simp only [Fits] at fits
    case idle => rw [books, (disciplined.listed i books).1]
    case lost =>
      obtain ⟨_, equal⟩ := fits
      cases equal
    case succeeded => rw [disciplined.balance i books.2, books.1, List.append_nil]
  dropped := by
    intro i task error found ended
    obtain ⟨phase, phased⟩ := disciplined.phased i task found
    have fits := phased.fits
    have books := phased.books
    rw [result_eq_some ended] at fits
    cases phase <;> simp only [Fits] at fits
    case idle => exact (disciplined.listed i books).1
    case lost => exact books.1
    case succeeded =>
      obtain ⟨_, equal⟩ := fits
      cases equal

section Tasks

variable {tasks : List (Task δ ε α)} {i j : Nat} {old new task : Task δ ε α}

theorem set_cases (found : (tasks.set i new)[j]? = some task) : j = i ∧ task = new ∨ j ≠ i ∧ tasks[j]? = some task := by
  by_cases same : j = i
  · subst same
    rw [List.getElem?_set] at found
    simp only [if_true] at found
    split at found
    · exact Or.inl ⟨rfl, (Option.some.inj found).symm⟩
    · cases found
  · rw [List.getElem?_set_ne (Ne.symm same)] at found
    exact Or.inr ⟨same, found⟩

theorem set_mem (found : tasks[i]? = some old) (member : task ∈ tasks) : task = old ∨ task ∈ tasks.set i new := by
  obtain ⟨j, located⟩ := List.mem_iff_getElem?.mp member
  by_cases same : i = j
  · subst same
    exact Or.inl (Option.some.inj (located.symm.trans found))
  · exact Or.inr (List.mem_iff_getElem?.mpr ⟨j, by rw [List.getElem?_set_ne same, located]⟩)

theorem new_mem_set (found : tasks[i]? = some old) : new ∈ tasks.set i new := by
  obtain ⟨within, _⟩ := List.getElem?_eq_some_iff.mp found
  exact List.mem_set within new

end Tasks

section Steps

variable {s : State δ ε α} {i : Nat} {old new : Task δ ε α}

/-- A task that holds no lock and is not at the end of a transaction keeps its phase as long as the
fate of its writes is the same. -/
theorem Phased.frame {t : State δ ε α} {task : Task δ ε α} {phase : Phase} (phased : Phased s i task phase)
    (locked : t.holder = some i ↔ s.holder = some i) (books : Books s i phase → Books t i phase)
    (closed : phase.ended = true → s.opened = false → t.opened = false) : Phased t i task phase :=
  ⟨phased.fits, phased.begun, phased.dirty, locked.trans phased.locked, books phased.books,
    fun ended => closed ended (phased.closed ended)⟩

/-- The call takes or releases the lock, or reads. -/
theorem Disciplined.quiet {holder : Option Nat} (disciplined : Disciplined s) (found : s.tasks[i]? = some old)
    (mine : ∃ phase, Phased { s with tasks := s.tasks.set i new, holder := holder } i new phase)
    (holders : ∀ j, j ≠ i → (holder = some j ↔ s.holder = some j))
    (flags : new.begun = old.begun ∧ new.dirty = old.dirty ∨ s.opened = false ∧ new.begun = false ∧ new.dirty = false) :
    Disciplined { s with tasks := s.tasks.set i new, holder := holder } where
  phased := by
    intro j task located
    rcases set_cases located with ⟨rfl, rfl⟩ | ⟨other, before⟩
    · exact mine
    · obtain ⟨phase, phased⟩ := disciplined.phased j task before
      exact ⟨phase, phased.frame (holders j other) (fun books => by cases phase <;> exact books) fun _ closed => closed⟩
  alone := by
    have flag : ∀ task, task ∈ s.tasks.set i new → task.dirty = true → ∃ task ∈ s.tasks, task.dirty = true := by
      intro task member dirty
      rcases List.mem_or_eq_of_mem_set member with before | rfl
      · exact ⟨task, before, dirty⟩
      · rcases flags with ⟨_, same⟩ | ⟨_, _, clean⟩
        · exact ⟨old, List.mem_of_getElem? found, same ▸ dirty⟩
        · rw [clean] at dirty
          cases dirty
    have clear : ∀ j task, s.tasks[j]? = some task → task.begun = true →
        (∀ entry ∈ s.pending, entry.caller = j) ∧ ∀ other ∈ s.tasks.set i new, other.dirty = false := by
      intro j task located begun
      obtain ⟨pending, clean⟩ := disciplined.alone j task located begun
      refine ⟨pending, ?_⟩
      intro other member
      by_contra dirty
      obtain ⟨task, before, marked⟩ := flag other member (by simpa using dirty)
      rw [clean task before] at marked
      cases marked
    intro j task located begun
    rcases set_cases located with ⟨rfl, rfl⟩ | ⟨other, before⟩
    · rcases flags with ⟨same, _⟩ | ⟨_, ended, _⟩
      · exact clear j old found (same ▸ begun)
      · rw [ended] at begun
        cases begun
    · exact clear j task before begun
  traced := by
    intro opened
    obtain ⟨task, member, mark⟩ := disciplined.traced opened
    rcases set_mem found member with rfl | kept
    · rcases flags with ⟨begun, dirty⟩ | ⟨closed, _⟩
      · exact ⟨new, new_mem_set found, by rwa [begun, dirty]⟩
      · rw [closed] at opened
        cases opened
    · exact ⟨task, kept, mark⟩
  empty := disciplined.empty
  balance := disciplined.balance
  listed := disciplined.listed
  begins := disciplined.begins
  own := disciplined.own

theorem Phase.locked_of_begun {phase : Phase} (begun : phase.begun = true) : phase.locked = true := by
  cases phase <;> first | rfl | cases begun

theorem Phase.begun_of_ended {phase : Phase} (ended : phase.ended = true) : phase.begun = true := by
  cases phase <;> first | rfl | cases ended

theorem Disciplined.holds_of_begun (disciplined : Disciplined s) {j : Nat} {task : Task δ ε α}
    (found : s.tasks[j]? = some task) (begun : task.begun = true) : s.holder = some j := by
  obtain ⟨phase, phased⟩ := disciplined.phased j task found
  exact phased.locked.mpr (Phase.locked_of_begun (phased.begun ▸ begun))

/-- No other call has begun a transaction. -/
def Apart (s : State δ ε α) (i : Nat) : Prop := ∀ j task, j ≠ i → s.tasks[j]? = some task → task.begun = false

theorem Disciplined.apart_of_holder (disciplined : Disciplined s) (holder : s.holder = some i) : Apart s i := by
  intro j task other found
  by_contra begun
  have mine := disciplined.holds_of_begun found (by simpa using begun)
  rw [holder] at mine
  exact other (Option.some.inj mine).symm

/-- Whoever is not at the end of a begun transaction keeps its phase over a step of another call. -/
theorem Disciplined.others {t : State δ ε α} (disciplined : Disciplined s) (apart : Apart s i)
    (tasks : t.tasks = s.tasks.set i new) (holder : t.holder = s.holder)
    (books : ∀ j phase, j ≠ i → phase.begun = false → Books s j phase → Books t j phase)
    (mine : ∃ phase, Phased t i new phase) (j : Nat) (task : Task δ ε α) (located : t.tasks[j]? = some task) :
    ∃ phase, Phased t j task phase := by
  rw [tasks] at located
  rcases set_cases located with ⟨rfl, rfl⟩ | ⟨other, before⟩
  · exact mine
  · obtain ⟨phase, phased⟩ := disciplined.phased j task before
    have rests : phase.begun = false := phased.begun ▸ apart j task other before
    refine ⟨phase, phased.frame (by rw [holder]) (books j phase other rests) ?_⟩
    intro ended
    rw [Phase.begun_of_ended ended] at rests
    cases rests

/-- The only call that can have begun is the one that made the step. -/
theorem Disciplined.aloneAfter {t : State δ ε α} (apart : Apart s i) (tasks : t.tasks = s.tasks.set i new)
    (mine : new.begun = true → (∀ entry ∈ t.pending, entry.caller = i) ∧ new.dirty = false ∧
      ∀ other ∈ s.tasks, other.dirty = false) (j : Nat) (task : Task δ ε α) (located : t.tasks[j]? = some task)
    (begun : task.begun = true) :
    (∀ entry ∈ t.pending, entry.caller = j) ∧ ∀ other ∈ t.tasks, other.dirty = false := by
  rw [tasks] at located ⊢
  rcases set_cases located with ⟨rfl, rfl⟩ | ⟨other, before⟩
  · obtain ⟨pending, clean, rest⟩ := mine begun
    refine ⟨pending, ?_⟩
    intro other member
    rcases List.mem_or_eq_of_mem_set member with before | rfl
    · exact rest other before
    · exact clean
  · rw [apart j task other before] at begun
    cases begun

theorem Disciplined.begins_step (disciplined : Disciplined s) (found : s.tasks[i]? = some old) (apart : Apart s i)
    (rests : old.begun = false) (clean : ∀ task ∈ s.tasks, task.dirty = false) (begun : new.begun = true)
    (dirty : new.dirty = false) (mine : ∃ phase, Phased { s with tasks := s.tasks.set i new, opened := true } i new phase) :
    s.opened = false ∧ Disciplined { s with tasks := s.tasks.set i new, opened := true } := by
  have closed : s.opened = false := by
    by_contra opened
    obtain ⟨task, member, mark⟩ := disciplined.traced (by simpa using opened)
    obtain ⟨j, located⟩ := List.mem_iff_getElem?.mp member
    rcases mark with started | marked
    · by_cases same : j = i
      · subst same
        rw [Option.some.inj (located.symm.trans found), rests] at started
        cases started
      · rw [apart j task same located] at started
        cases started
    · rw [clean task member] at marked
      cases marked
  have nothing := disciplined.empty closed
  refine ⟨closed, ?_, ?_, fun _ => ⟨new, new_mem_set found, Or.inl begun⟩, fun _ => nothing, disciplined.balance,
    disciplined.listed, disciplined.begins, disciplined.own⟩
  · refine disciplined.others apart rfl rfl ?_ mine
    intro j phase _ _ books
    cases phase <;> exact books
  · refine Disciplined.aloneAfter apart rfl fun _ => ⟨?_, dirty, clean⟩
    intro entry member
    change entry ∈ s.pending at member
    rw [nothing] at member
    cases member

theorem Disciplined.writes_step {statement : δ → Except ε (δ × Nat)} (disciplined : Disciplined s)
    (found : s.tasks[i]? = some old) (apart : Apart s i) (begun : new.begun = old.begun) (dirty : new.dirty = !old.begun)
    (mine : ∃ phase, Phased { s with
      tasks := s.tasks.set i new, opened := true, issued := s.issued ++ [⟨i, statement⟩],
      pending := s.pending ++ [⟨i, statement⟩] } i new phase) :
    Disciplined { s with
      tasks := s.tasks.set i new, opened := true, issued := s.issued ++ [⟨i, statement⟩],
      pending := s.pending ++ [⟨i, statement⟩] } := by
  have same : ∀ j, j ≠ i → ∀ entries : List (Entry δ ε), ofCaller j (entries ++ [⟨i, statement⟩]) = ofCaller j entries := by
    intro j other entries
    rw [ofCaller_concat, if_neg (Ne.symm other), List.append_nil]
  refine ⟨?_, ?_, ?_, fun opened => (by cases opened), ?_, ?_, disciplined.begins, disciplined.own⟩
  · refine disciplined.others apart rfl rfl ?_ mine
    intro j phase other _ books
    cases phase <;> simpa only [Books, Kept, same j other] using books
  · refine Disciplined.aloneAfter apart rfl ?_
    intro started
    rw [begun] at started
    obtain ⟨pending, clean⟩ := disciplined.alone i old found started
    refine ⟨?_, by rw [dirty, started]; rfl, clean⟩
    intro entry member
    rcases List.mem_append.mp member with before | last
    · exact pending entry before
    · rw [List.mem_singleton.mp last]
  · intro _
    refine ⟨new, new_mem_set found, ?_⟩
    rw [begun, dirty]
    cases old.begun <;> simp
  · intro j kept
    have before := disciplined.balance j kept
    simp only [ofCaller_append, before, List.append_assoc]
  · intro j none
    simp only [ofCaller_append, List.append_eq_nil_iff] at none ⊢
    obtain ⟨stored, pending, kept⟩ := disciplined.listed j none.1
    exact ⟨stored, ⟨pending, none.2⟩, kept⟩

theorem Disciplined.fails_step (disciplined : Disciplined s) (found : s.tasks[i]? = some old) (apart : Apart s i)
    (was : old.begun = true) (begun : new.begun = true) (dirty : new.dirty = old.dirty)
    (mine : ∃ phase, Phased { s with tasks := s.tasks.set i new, opened := true } i new phase) :
    Disciplined { s with tasks := s.tasks.set i new, opened := true } := by
  obtain ⟨pending, clean⟩ := disciplined.alone i old found was
  refine ⟨?_, ?_, fun _ => ⟨new, new_mem_set found, Or.inl begun⟩, fun opened => (by cases opened), disciplined.balance,
    disciplined.listed, disciplined.begins, disciplined.own⟩
  · refine disciplined.others apart rfl rfl ?_ mine
    intro j phase _ _ books
    cases phase <;> exact books
  · exact Disciplined.aloneAfter apart rfl fun _ =>
      ⟨pending, by rw [dirty, clean old (List.mem_of_getElem? found)], clean⟩

theorem Disciplined.commits_step (disciplined : Disciplined s) (found : s.tasks[i]? = some old) (apart : Apart s i)
    (begun : new.begun = old.begun) (dirty : new.dirty = false)
    (mine : ∃ phase, Phased { s with
      tasks := s.tasks.set i new, opened := false, stored := s.stored ++ s.pending, pending := [] } i new phase) :
    Disciplined { s with
      tasks := s.tasks.set i new, opened := false, stored := s.stored ++ s.pending, pending := [] } := by
  refine ⟨?_, ?_, fun opened => (by cases opened), fun _ => rfl, ?_, ?_, disciplined.begins, disciplined.own⟩
  · refine disciplined.others apart rfl rfl ?_ mine
    intro j phase _ rests books
    cases phase
    case lost => exact ⟨by rw [ofCaller_append, books.1, books.2]; rfl, rfl⟩
    case heldSaved | succeeded => exact ⟨rfl, books.2⟩
    case idle | held | heldDirty | dirty => exact books
    all_goals cases rests
  · refine Disciplined.aloneAfter apart rfl fun started => ⟨fun _ member => (by cases member), dirty, ?_⟩
    exact (disciplined.alone i old found (begun ▸ started)).2
  · intro j kept
    rw [disciplined.balance j kept, ofCaller_append, ofCaller_nil, List.append_nil]
  · intro j none
    obtain ⟨stored, pending, kept⟩ := disciplined.listed j none
    exact ⟨by rw [ofCaller_append, stored, pending]; rfl, rfl, kept⟩

theorem Disciplined.reverts_step (disciplined : Disciplined s) (found : s.tasks[i]? = some old) (apart : Apart s i)
    (was : old.begun = true) (dirty : new.dirty = old.dirty)
    (mine : ∃ phase, Phased { s with
      tasks := s.tasks.set i new, opened := false, pending := [],
      undone := s.undone ++ s.pending.map fun entry => (i, entry) } i new phase) :
    Disciplined { s with
      tasks := s.tasks.set i new, opened := false, pending := [],
      undone := s.undone ++ s.pending.map fun entry => (i, entry) } := by
  obtain ⟨pending, clean⟩ := disciplined.alone i old found was
  have kept : ∀ j, Kept s j → ofCaller j s.pending = [] →
      ∀ undoing ∈ s.undone ++ s.pending.map (fun entry => (i, entry)), undoing.2.caller ≠ j := by
    intro j before none undoing member
    rcases List.mem_append.mp member with earlier | now
    · exact before undoing earlier
    · obtain ⟨entry, inside, rfl⟩ := List.mem_map.mp now
      exact ofCaller_eq_nil.mp none entry inside
  refine ⟨?_, ?_, fun opened => (by cases opened), fun _ => rfl, ?_, ?_, disciplined.begins, ?_⟩
  · refine disciplined.others apart rfl rfl ?_ mine
    intro j phase other rests books
    have none : ofCaller j s.pending = [] := ofCaller_eq_nil.mpr fun entry member same => other (same ▸ pending entry member)
    cases phase
    case lost => exact ⟨books.1, rfl⟩
    case heldSaved | succeeded => exact ⟨rfl, kept j books.2 none⟩
    case idle | held => exact books
    case heldDirty | dirty => exact kept j books none
    all_goals cases rests
  · exact Disciplined.aloneAfter apart rfl fun _ =>
      ⟨fun _ member => (by cases member), by rw [dirty, clean old (List.mem_of_getElem? found)], clean⟩
  · intro j spared
    have before : Kept s j := fun undoing member => spared undoing (List.mem_append_left _ member)
    have none : ofCaller j s.pending = [] := by
      refine ofCaller_eq_nil.mpr fun entry member => ?_
      exact spared (i, entry) (List.mem_append_right _ (List.mem_map_of_mem member))
    rw [disciplined.balance j before, none]
    rfl
  · intro j none
    obtain ⟨stored, empty, before⟩ := disciplined.listed j none
    exact ⟨stored, rfl, kept j before empty⟩
  · intro undoing member
    rcases List.mem_append.mp member with earlier | now
    · exact disciplined.own undoing earlier
    · obtain ⟨entry, inside, rfl⟩ := List.mem_map.mp now
      exact pending entry inside

theorem advance_lock {next : Call δ ε α} {begun dirty : Bool} (disciplined : Disciplined s)
    (found : s.tasks[i]? = some ⟨.lock next, begun, dirty⟩) : Disciplined (s.advance i ⟨.lock next, begun, dirty⟩) := by
  simp only [State.advance]
  split
  · rename_i free
    obtain ⟨phase, phased⟩ := disciplined.phased i _ found
    obtain ⟨rfl, fits⟩ := phased.fits
    refine disciplined.quiet found ⟨.held, fits, phased.begun, phased.dirty, ?_, phased.books, ?_⟩ ?_ (Or.inl ⟨rfl, rfl⟩)
    · simp [Phase.locked]
    · simp [Phase.ended]
    · intro j other
      simp [free, Ne.symm other]
  · exact disciplined

theorem advance_unlock {next : Call δ ε α} {begun dirty : Bool} (disciplined : Disciplined s)
    (found : s.tasks[i]? = some ⟨.unlock next, begun, dirty⟩) :
    Disciplined (s.advance i ⟨.unlock next, begun, dirty⟩) := by
  obtain ⟨phase, phased⟩ := disciplined.phased i _ found
  have fits := phased.fits
  have begins : begun = phase.begun := phased.begun
  have marks : dirty = phase.isDirty := phased.dirty
  have held : phase.locked = true := by cases phase <;> first | rfl | cases fits
  have holder := phased.locked.mpr held
  have holders : ∀ j, j ≠ i → ((none : Option Nat) = some j ↔ s.holder = some j) := by
    intro j other
    simp [holder, Ne.symm other]
  have released : ∀ later : Phase, Fits next later → later.begun = false → later.isDirty = dirty → later.locked = false →
      Books s i later →
      ∃ phase, Phased { s with tasks := s.tasks.set i ⟨next, false, dirty⟩, holder := none } i ⟨next, false, dirty⟩ phase := by
    intro later rest started marked free books
    refine ⟨later, rest, started.symm, marked.symm, by simp [free], by cases later <;> exact books, ?_⟩
    intro ended
    rw [Phase.begun_of_ended ended] at started
    cases started
  have flags : (false = begun ∧ dirty = dirty) ∨ s.opened = false ∧ false = false ∧ dirty = false := by
    cases started : phase.begun with
    | false => exact Or.inl ⟨by rw [begins, started], rfl⟩
    | true =>
      refine Or.inr ⟨phased.closed ?_, rfl, ?_⟩
      · cases phase <;> first | rfl | cases fits | cases started
      · rw [marks]
        cases phase <;> first | rfl | cases started
  refine disciplined.quiet found ?_ holders flags
  have books := phased.books
  cases phase
  case held | reverted => exact released .idle fits rfl marks.symm rfl books
  case failed => exact released .lost fits rfl marks.symm rfl books
  case saved | heldSaved => exact released .succeeded fits rfl marks.symm rfl books
  all_goals cases fits

theorem advance_read {next : δ → Call δ ε α} {begun dirty : Bool} (disciplined : Disciplined s)
    (found : s.tasks[i]? = some ⟨.read next, begun, dirty⟩) : Disciplined (s.advance i ⟨.read next, begun, dirty⟩) := by
  obtain ⟨phase, phased⟩ := disciplined.phased i _ found
  have fits : ∀ db, Fits (next db) phase := phased.fits
  refine disciplined.quiet found ⟨phase, fits _, phased.begun, phased.dirty, phased.locked, ?_, phased.closed⟩
    (fun _ _ => Iff.rfl) (Or.inl ⟨rfl, rfl⟩)
  have books := phased.books
  cases phase <;> exact books

theorem advance_begin {next refused : Call δ ε α} {begun dirty : Bool} (disciplined : Disciplined s)
    (found : s.tasks[i]? = some ⟨.beginImmediate next refused, begun, dirty⟩)
    (clean : ∀ task ∈ s.tasks, task.dirty = false) :
    Disciplined (s.advance i ⟨.beginImmediate next refused, begun, dirty⟩) := by
  obtain ⟨phase, phased⟩ := disciplined.phased i _ found
  obtain ⟨rfl, fits⟩ := phased.fits
  have apart := disciplined.apart_of_holder (phased.locked.mpr rfl)
  have marks : dirty = false := phased.dirty
  obtain ⟨closed, after⟩ := @Disciplined.begins_step δ ε α s i _ ⟨next, true, dirty⟩ disciplined found apart phased.begun clean
    rfl marks ⟨.clean, fits, rfl, marks, phased.locked, phased.books, by simp [Phase.ended]⟩
  simp only [State.advance, closed, Bool.false_eq_true, if_false]
  exact after

theorem advance_rollback {next : Call δ ε α} {begun dirty : Bool} (disciplined : Disciplined s)
    (found : s.tasks[i]? = some ⟨.rollback next, begun, dirty⟩) :
    Disciplined (s.advance i ⟨.rollback next, begun, dirty⟩) := by
  obtain ⟨phase, phased⟩ := disciplined.phased i _ found
  have fits := phased.fits
  have books := phased.books
  have started : phase.begun = true := by cases phase <;> first | rfl | cases fits
  have apart := disciplined.apart_of_holder (phased.locked.mpr (Phase.locked_of_begun started))
  have was : begun = true := phased.begun.trans started
  have marks : dirty = phase.isDirty := phased.dirty
  refine disciplined.reverts_step found apart was rfl ?_
  have locked := phased.locked
  cases phase
  case clean | reverted => exact ⟨.reverted, fits, was, marks, locked, books, fun _ => rfl⟩
  case wrote => exact ⟨.failed, fits, was, marks, locked, ⟨books.1, rfl⟩, fun _ => rfl⟩
  case failed => exact ⟨.failed, fits, was, marks, locked, ⟨books.1, rfl⟩, fun _ => rfl⟩
  all_goals cases fits

/-- Either the call holds the lock, or no call at all has begun a transaction. -/
theorem Disciplined.apart (disciplined : Disciplined s)
    (clear : s.holder = some i ∨ ∀ task ∈ s.tasks, task.begun = false) : Apart s i := by
  rcases clear with holder | none
  · exact disciplined.apart_of_holder holder
  · exact fun _ task _ found => none task (List.mem_of_getElem? found)

theorem advance_commit {next : Call δ ε α} {begun dirty : Bool} (disciplined : Disciplined s)
    (found : s.tasks[i]? = some ⟨.commit next, begun, dirty⟩)
    (clear : s.holder = some i ∨ ∀ task ∈ s.tasks, task.begun = false) :
    Disciplined (s.advance i ⟨.commit next, begun, dirty⟩) := by
  obtain ⟨phase, phased⟩ := disciplined.phased i _ found
  have fits := phased.fits
  have books := phased.books
  have begins : begun = phase.begun := phased.begun
  have locked := phased.locked
  refine disciplined.commits_step found (disciplined.apart clear) rfl rfl ?_
  cases phase
  case clean => exact ⟨.saved, fits, begins, rfl, locked, ⟨rfl, (disciplined.listed i books).2.2⟩, fun _ => rfl⟩
  case wrote => exact ⟨.saved, fits, begins, rfl, locked, ⟨rfl, books.2⟩, fun _ => rfl⟩
  case heldDirty => exact ⟨.heldSaved, fits, begins, rfl, locked, ⟨rfl, books⟩, by simp [Phase.ended]⟩
  case dirty => exact ⟨.succeeded, fits, begins, rfl, locked, ⟨rfl, books⟩, by simp [Phase.ended]⟩
  all_goals cases fits

theorem advance_write {statement : δ → Except ε (δ × Nat)} {next : Except ε Nat → Call δ ε α} {begun dirty : Bool}
    (disciplined : Disciplined s) (found : s.tasks[i]? = some ⟨.write statement next, begun, dirty⟩)
    (clear : s.holder = some i ∨ (∀ task ∈ s.tasks, task.begun = false) ∧ (statement s.working).isOk = true) :
    Disciplined (s.advance i ⟨.write statement next, begun, dirty⟩) := by
  obtain ⟨phase, phased⟩ := disciplined.phased i _ found
  have fits := phased.fits
  have books := phased.books
  have begins : begun = phase.begun := phased.begun
  have locked := phased.locked
  have apart := disciplined.apart (clear.imp_right And.left)
  simp only [State.advance]
  split
  · rename_i changed count outcome
    refine disciplined.writes_step found apart rfl rfl ?_
    cases phase
    case idle =>
      exact ⟨.dirty, fits count, begins, by rw [begins]; rfl, locked, (disciplined.listed i books).2.2, by simp [Phase.ended]⟩
    case held =>
      exact ⟨.heldDirty, fits.2 count, begins, by rw [begins]; rfl, locked, (disciplined.listed i books).2.2,
        by simp [Phase.ended]⟩
    case clean =>
      obtain ⟨stored, _, kept⟩ := disciplined.listed i books
      exact ⟨.wrote, fits.1 count, begins, by rw [begins]; rfl, locked, ⟨stored, kept⟩, by simp [Phase.ended]⟩
    case wrote => exact ⟨.wrote, fits (.ok count), begins, by rw [begins]; rfl, locked, books, by simp [Phase.ended]⟩
    all_goals cases fits
  · rename_i error outcome
    have marks : dirty = phase.isDirty := phased.dirty
    cases phase
    case idle =>
      -- outside of the lock the statement succeeds
      rcases clear with holder | ⟨_, succeeds⟩
      · cases locked.mp holder
      · rw [outcome] at succeeds
        cases succeeds
    case held =>
      have succeeds := fits.1 s.working
      rw [outcome] at succeeds
      cases succeeds
    case clean =>
      exact disciplined.fails_step found apart begins begins rfl
        ⟨.clean, fits.2 error, begins, marks, locked, books, by simp [Phase.ended]⟩
    case wrote =>
      exact disciplined.fails_step found apart begins begins rfl
        ⟨.wrote, fits (.error error), begins, marks, locked, books, by simp [Phase.ended]⟩
    all_goals cases fits

theorem step_disciplined (disciplined : Disciplined s) (i : Nat) (clear : Clear s i) : Disciplined (step s i) := by
  unfold step
  cases found : s.tasks[i]? with
  | none => exact disciplined
  | some task =>
    obtain ⟨call, begun, dirty⟩ := task
    have clear : ClearCall s i call := clear _ (Option.mem_def.mpr found)
    cases call with
    | lock next => exact advance_lock disciplined found
    | unlock next => exact advance_unlock disciplined found
    | beginImmediate next refused => exact advance_begin disciplined found clear
    | read next => exact advance_read disciplined found
    | write statement next => exact advance_write disciplined found clear
    | commit next => exact advance_commit disciplined found clear
    | rollback next => exact advance_rollback disciplined found
    | done result => exact disciplined

end Steps

/-- Disciplined calls that keep clear of each other's transactions are serial at every moment. -/
theorem exec_serial {initial : δ} {calls : List (Call δ ε α)} {schedule : List Nat}
    (fits : ∀ call ∈ calls, Fits call .idle) (clear : Run.Guarded step Clear (start initial calls) schedule) :
    ∀ n, Serial (Run.exec step (start initial calls) (schedule.take n)) := by
  intro n
  exact (Run.Guarded.invariant (fun _ i disciplined clear => step_disciplined disciplined i clear)
    (clear.take n) (start_disciplined fits)).serial

end OpenTulpa.Library.Connection
