import OpenTulpa.Mcp.Broker

/-! Tool calls that share an idempotency key. The lock of the key keeps executions apart, but a result that cannot be
redacted, serialized or written is dropped after its effect, and the next call executes the tool again. -/

namespace OpenTulpa.Mcp.ToolCalls

open Library Broker

variable {α τ : Type} (broker : MCPToolBroker α τ)

section Specification

/-- The execution of the key that returned normally, and what it returned. -/
def completion (key : String) (log : List (Entry α)) : Option (Nat × α) :=
  log.findSome? fun
    | .returned id (some other) raw => if other = key then some (id, raw) else none
    | _ => none

/-- The result of an execution, replayed to another call. -/
def Replay (key : String) (raw : α) (result : MCPBrokerResult α) : Prop :=
  ∃ data auditId, broker.redact raw = some data ∧
    result = { status := .ok, data := some data, auditId, idempotencyKey := some key, replayed := true }

/-- Behind a normal return no execution of the key begins, and every other call that ends returns the replay. -/
def Fine (earlier : List (Entry α)) : Entry α → Prop
  | .invoked _ (some key) => completion key earlier = none
  | .answered id (some key) answer => ∀ first raw, completion key earlier = some (first, raw) →
      id = first ∨ ∃ result, answer = some result ∧ Replay broker key raw result
  | _ => True

structure Once (s : State α τ) : Prop where
  apart : ∀ {first second : Nat} {one other : Call α} {key : String}, s.calls.get first = some one →
    s.calls.get second = some other → one.key = some key → other.key = some key →
      one.phase = .invoking → other.phase = .invoking → first = second
  history : ∀ later entry earlier, s.log = later ++ entry :: earlier → Fine broker earlier entry

/-- The store takes the result of the call and gives it back as it was. -/
def Saved (call : Call α) (raw : α) : Prop :=
  ∃ data row, broker.redact raw = some data ∧ broker.write (call.okResult data) = some row ∧
    broker.read row = some (call.okResult data)

/-- What is awaited goes well where a result is at stake: a result is saved and its call not cancelled before, and the
store and the audit sink do not raise for a call behind a normal return. -/
def Reliable (s : State α τ) : Event α → Prop
  | .save id ok => ∀ call key raw, s.calls.get id = some call → call.key = some key → call.phase = .saving raw →
      ok = true ∧ Saved broker call raw
  | .cancel id => ∀ call key raw, s.calls.get id = some call → call.key = some key → call.phase ≠ .saving raw
  | .lookUp id ok | .record id ok => ∀ call key first raw, s.calls.get id = some call → call.key = some key →
      completion key s.log = some (first, raw) → id = first ∨ ok = true
  | _ => True

end Specification

section Invariant

/-- The store gives the result of the execution back. -/
def Stored (stored : List (String × τ)) (key : String) (raw : α) : Prop :=
  ∃ data auditId row, stored.lookup key = some row ∧ broker.redact raw = some data ∧
    broker.read row = some { status := .ok, data := some data, auditId, idempotencyKey := some key }

/-- What is known at each point of a call with the key. -/
def Placed (log : List (Entry α)) (stored : List (String × τ)) (id : Nat) (key : String) : Phase α → Prop
  | .waiting | .entered => True
  | .missed | .invoking => completion key log = none ∧ stored.lookup key = none
  | .saving raw => completion key log = some (id, raw) ∧ stored.lookup key = none
  | .recording result => ∀ first raw, completion key log = some (first, raw) →
      Stored broker stored key raw ∧ (id = first ∨ Replay broker key raw result)

structure Inv (s : State α τ) : Prop where
  fresh : ∀ {id}, s.begun ≤ id → s.calls.get id = none
  alone : ∀ {first second : Nat} {one other : Call α} {key : String}, s.calls.get first = some one →
    s.calls.get second = some other → one.key = some key → other.key = some key →
      one.inside = true → other.inside = true → first = second
  placed : ∀ {id : Nat} {call : Call α} {key : String}, s.calls.get id = some call → call.key = some key →
    Placed broker s.log s.stored id key call.phase
  settled : ∀ {key : String} {first : Nat} {raw : α}, completion key s.log = some (first, raw) →
    Stored broker s.stored key raw ∨
      ∃ call, s.calls.get first = some call ∧ call.key = some key ∧ call.phase = .saving raw
  attached : s.detached = []
  history : ∀ later entry earlier, s.log = later ++ entry :: earlier → Fine broker earlier entry

variable {broker} {s : State α τ}

theorem Inv.once (inv : Inv broker s) : Once broker s where
  apart := by
    intro first second one other key found also sameKey otherKey invoking executing
    exact inv.alone found also sameKey otherKey (by simp [Call.inside, invoking]) (by simp [Call.inside, executing])
  history := inv.history

theorem start_inv (stored : List (String × τ)) : Inv broker (start stored) where
  fresh := fun _ => rfl
  alone := nofun
  placed := nofun
  settled := nofun
  attached := rfl
  history := by
    intro later entry earlier split
    cases later <;> cases split

/-- A log that grew by a fine entry is fine. -/
theorem history_cons {log : List (Entry α)} {entry : Entry α}
    (history : ∀ later old earlier, log = later ++ old :: earlier → Fine broker earlier old)
    (fine : Fine broker log entry) :
    ∀ later old earlier, entry :: log = later ++ old :: earlier → Fine broker earlier old := by
  intro later old earlier split
  cases later with
  | nil =>
    cases split
    exact fine
  | cons first later => exact history later old earlier (List.cons.inj split).2

theorem completion_answered (key : String) (id : Nat) (other : Option String) (answer : Option (MCPBrokerResult α))
    (log : List (Entry α)) : completion key (.answered id other answer :: log) = completion key log := rfl

theorem completion_invoked (key : String) (id : Nat) (other : Option String) (log : List (Entry α)) :
    completion key (.invoked id other :: log) = completion key log := rfl

theorem completion_returned_self (key : String) (id : Nat) (raw : α) (log : List (Entry α)) :
    completion key (.returned id (some key) raw :: log) = some (id, raw) := by
  simp [completion]

theorem completion_returned_of_ne {key : String} {other : Option String} (apart : other ≠ some key) (id : Nat) (raw : α)
    (log : List (Entry α)) : completion key (.returned id other raw :: log) = completion key log := by
  cases other with
  | none => rfl
  | some other =>
    have different : other ≠ key := fun same => apart (by rw [same])
    simp [completion, different]

theorem Placed.congr {log log' : List (Entry α)} {stored stored' : List (String × τ)} {id : Nat} {key : String}
    {phase : Phase α} (placed : Placed broker log stored id key phase) (logs : completion key log' = completion key log)
    (rows : stored'.lookup key = stored.lookup key) : Placed broker log' stored' id key phase := by
  cases phase with
  | waiting | entered => trivial
  | missed | invoking | saving =>
    simp only [Placed] at placed ⊢
    rw [logs, rows]
    exact placed
  | recording result =>
    intro first raw found
    rw [logs] at found
    obtain ⟨⟨data, auditId, row, held, rest⟩, whose⟩ := placed first raw found
    exact ⟨⟨data, auditId, row, rows.trans held, rest⟩, whose⟩

end Invariant

section Moves

variable {broker} {s after : State α τ} {id : Nat} {call : Call α}

/-- No other call is inside with the key of this one. -/
def Clear (s : State α τ) (id : Nat) (call : Call α) : Prop :=
  ∀ (other : Nat) (second : Call α) (key : String), other ≠ id → s.calls.get other = some second →
    call.key = some key → second.key = some key → second.inside = false

theorem Inv.clear (inv : Inv broker s) (found : s.calls.get id = some call) (inside : call.inside = true) :
    Clear s id call := by
  intro other second key apart also mine theirs
  by_contra within
  exact apart (inv.alone also found theirs mine (by simpa using within) inside)

theorem placed_of_outside {log : List (Entry α)} {stored : List (String × τ)} {other : Nat} {second : Call α}
    {key : String} (outside : second.inside = false) : Placed broker log stored other key second.phase := by
  obtain ⟨_, _, phase⟩ := second
  cases phase with
  | waiting => trivial
  | _ => cases outside

/-- The one way a step changes the state: a call goes on or ends, and only the entries and rows of its key change. -/
theorem Inv.move (inv : Inv broker s) (found : s.calls.get id = some call) {next : Option (Phase α)}
    (begun : after.begun = s.begun) (attached : after.detached = s.detached)
    (calls : ∀ other, after.calls.get other =
      if other = id then next.map fun phase => { call with phase := phase } else s.calls.get other)
    (clear : Clear s id call)
    (logs : ∀ key, call.key ≠ some key → completion key after.log = completion key s.log)
    (rows : ∀ key, call.key ≠ some key → after.stored.lookup key = s.stored.lookup key)
    (mine : ∀ key phase, call.key = some key → next = some phase → Placed broker after.log after.stored id key phase)
    (own : ∀ key first raw, call.key = some key → completion key after.log = some (first, raw) →
      Stored broker after.stored key raw ∨ first = id ∧ next = some (.saving raw))
    (history : ∀ later entry earlier, after.log = later ++ entry :: earlier → Fine broker earlier entry) :
    Inv broker after where
  fresh := by
    intro other late
    rw [begun] at late
    have absent := inv.fresh late
    rw [calls, if_neg]
    · exact absent
    · rintro rfl
      rw [found] at absent
      cases absent
  alone := by
    intro first second one other key here there mine theirs inside within
    rw [calls] at here there
    by_cases isFirst : first = id
    · by_cases isSecond : second = id
      · rw [isFirst, isSecond]
      · rw [if_pos isFirst] at here
        rw [if_neg isSecond] at there
        obtain ⟨phase, _, rfl⟩ := Option.map_eq_some_iff.mp here
        rw [clear second other key isSecond there mine theirs] at within
        cases within
    · rw [if_neg isFirst] at here
      by_cases isSecond : second = id
      · rw [if_pos isSecond] at there
        obtain ⟨phase, _, rfl⟩ := Option.map_eq_some_iff.mp there
        rw [clear first one key isFirst here theirs mine] at inside
        cases inside
      · rw [if_neg isSecond] at there
        exact inv.alone here there mine theirs inside within
  placed := by
    intro other second key here theirs
    rw [calls] at here
    by_cases same : other = id
    · rw [if_pos same] at here
      obtain ⟨phase, chosen, rfl⟩ := Option.map_eq_some_iff.mp here
      rw [same]
      exact mine key phase theirs chosen
    · rw [if_neg same] at here
      by_cases shared : call.key = some key
      · exact placed_of_outside (clear other second key same here shared theirs)
      · exact (inv.placed here theirs).congr (logs key shared) (rows key shared)
  settled := by
    intro key first raw done
    by_cases shared : call.key = some key
    · rcases own key first raw shared done with kept | ⟨rfl, saving⟩
      · exact Or.inl kept
      · refine Or.inr ⟨{ call with phase := .saving raw }, ?_, shared, rfl⟩
        rw [calls, if_pos rfl, saving]
        rfl
    · rw [logs key shared] at done
      rcases inv.settled done with ⟨data, auditId, row, held, rest⟩ | ⟨other, here, theirs, saving⟩
      · exact Or.inl ⟨data, auditId, row, (rows key shared).trans held, rest⟩
      · refine Or.inr ⟨other, ?_, theirs, saving⟩
        rw [calls, if_neg]
        · exact here
        · rintro rfl
          rw [found] at here
          cases here
          exact shared theirs
  attached := attached.trans inv.attached
  history := history

/-- A call inside that is not saving finds the result of its key stored. -/
theorem Inv.stored (inv : Inv broker s) (found : s.calls.get id = some call) (inside : call.inside = true)
    (other : ∀ raw, call.phase ≠ .saving raw) {key : String} {first : Nat} {raw : α} (mine : call.key = some key)
    (done : completion key s.log = some (first, raw)) : Stored broker s.stored key raw := by
  rcases inv.settled done with kept | ⟨second, here, theirs, saving⟩
  · exact kept
  · obtain rfl := inv.alone here found theirs mine (by simp [Call.inside, saving]) inside
    rw [found] at here
    cases here
    exact absurd saving (other raw)

/-- A call that goes on without an entry or a row. -/
theorem Inv.goOn (inv : Inv broker s) (found : s.calls.get id = some call) (clear : Clear s id call) {phase : Phase α}
    (mine : ∀ key, call.key = some key → Placed broker s.log s.stored id key phase)
    (own : ∀ key first raw, call.key = some key → completion key s.log = some (first, raw) →
      Stored broker s.stored key raw ∨ first = id ∧ phase = .saving raw) :
    Inv broker (s.goOn id call phase) := by
  have calls : ∀ other, (s.goOn id call phase).calls.get other =
      if other = id then (some phase).map fun phase => { call with phase := phase } else s.calls.get other :=
    fun other => Calls.get_put id other _
  refine inv.move found rfl rfl calls clear (fun _ _ => rfl) (fun _ _ => rfl) ?_ ?_ inv.history
  · rintro key _ theirs ⟨⟩
    exact mine key theirs
  · intro key first raw theirs done
    exact (own key first raw theirs done).imp_right fun ⟨same, saving⟩ => ⟨same, by rw [saving]⟩

/-- A call that ends, its answer being fine. -/
theorem Inv.answer (inv : Inv broker s) (found : s.calls.get id = some call) (inside : call.inside = true)
    (other : ∀ raw, call.phase ≠ .saving raw) {answer : Option (MCPBrokerResult α)}
    (fine : Fine broker s.log (.answered id call.key answer)) : Inv broker (s.answer id call answer) := by
  have calls : ∀ other, (s.answer id call answer).calls.get other =
      if other = id then (none : Option (Phase α)).map fun phase => { call with phase := phase }
      else s.calls.get other := fun other => Calls.get_drop id other
  refine inv.move found rfl rfl calls (inv.clear found inside) (fun _ _ => rfl) (fun _ _ => rfl) nofun ?_
    (history_cons inv.history fine)
  intro key first raw theirs done
  exact Or.inl (inv.stored found inside other theirs done)

end Moves

section Steps

variable {broker} {s : State α τ} {id : Nat} {call : Call α}

theorem lookup_insertOrIgnore_self {stored : List (String × τ)} {key : String} (absent : stored.lookup key = none) (row : τ) :
    (insertOrIgnore stored key row).lookup key = some row := by
  simp [insertOrIgnore, absent]

theorem lookup_insertOrIgnore_of_ne {stored : List (String × τ)} {key other : String} (apart : other ≠ key) (row : τ) :
    (insertOrIgnore stored key row).lookup other = stored.lookup other := by
  rw [insertOrIgnore]
  split
  · rfl
  · have different : (other == key) = false := by simpa using apart
    rw [List.lookup_cons, different]

theorem replay_of_stored {stored : List (String × τ)} {key : String} {raw : α} {row : τ} {cached : MCPBrokerResult α}
    (kept : Stored broker stored key raw) (held : stored.lookup key = some row) (read : broker.read row = some cached)
    (call : Call α) : Replay broker key raw (call.replay cached) := by
  obtain ⟨data, auditId, other, found, redacted, readback⟩ := kept
  rw [held] at found
  cases found
  rw [read] at readback
  cases readback
  exact ⟨data, call.auditId, redacted, rfl⟩

theorem lookUp_inv (inv : Inv broker s) (found : s.calls.get id = some call) (entered : call.phase = .entered) {ok : Bool}
    (reliable : Reliable broker s (.lookUp id ok)) : Inv broker (s.lookUp broker id call ok) := by
  have inside : call.inside = true := by simp [Call.inside, entered]
  have other : ∀ raw, call.phase ≠ .saving raw := by simp [entered]
  have clear := inv.clear found inside
  have kept : ∀ {key first raw}, call.key = some key → completion key s.log = some (first, raw) →
      Stored broker s.stored key raw := fun theirs done => inv.stored found inside other theirs done
  simp only [State.lookUp]
  split
  · rename_i keyless
    refine inv.goOn found clear ?_ ?_ <;> simp [keyless]
  rename_i key theirs
  have same : ∀ {other}, call.key = some other → other = key := by
    intro other mine
    rw [theirs] at mine
    exact (Option.some.inj mine).symm
  split
  · rename_i failed
    refine inv.answer found inside other ?_
    rw [theirs]
    intro first raw done
    rcases reliable call key first raw found theirs done with here | fine
    · exact Or.inl here
    · simp [fine] at failed
  split
  · rename_i absent
    have fresh : completion key s.log = none := by
      cases done : completion key s.log with
      | none => rfl
      | some pair =>
        obtain ⟨data, auditId, row, held, rest⟩ := kept theirs done
        rw [absent] at held
        cases held
    refine inv.goOn found clear ?_ ?_
    · intro other mine
      rw [same mine]
      exact ⟨fresh, absent⟩
    · intro other first raw mine done
      rw [same mine, fresh] at done
      cases done
  rename_i row held
  split
  · rename_i unread
    refine inv.answer found inside other ?_
    rw [theirs]
    intro first raw done
    obtain ⟨data, auditId, second, found, redacted, readback⟩ := kept theirs done
    rw [held] at found
    cases found
    rw [unread] at readback
    cases readback
  · rename_i cached readback
    refine inv.goOn found clear ?_ fun other first raw mine done => Or.inl (kept mine done)
    intro other mine first raw done
    rw [same mine] at done ⊢
    have stored := kept theirs done
    exact ⟨stored, Or.inr (replay_of_stored stored held readback call)⟩

theorem record_missed_inv (inv : Inv broker s) (found : s.calls.get id = some call) (missed : call.phase = .missed) :
    Inv broker ((s.goOn id call .invoking).note (.invoked id call.key)) := by
  have inside : call.inside = true := by simp [Call.inside, missed]
  have calls : ∀ other, ((s.goOn id call .invoking).note (.invoked id call.key)).calls.get other =
      if other = id then (some .invoking).map fun phase => { call with phase := phase } else s.calls.get other :=
    fun other => Calls.get_put id other _
  have placed : ∀ {key}, call.key = some key → completion key s.log = none ∧ s.stored.lookup key = none := by
    intro key theirs
    have here := inv.placed found theirs
    rwa [missed] at here
  refine inv.move found rfl rfl calls (inv.clear found inside) (fun _ _ => rfl) (fun _ _ => rfl) ?_ ?_
    (history_cons inv.history ?_)
  · rintro key _ theirs ⟨⟩
    exact placed theirs
  · intro key first raw theirs done
    have absent : completion key s.log = some (first, raw) := done
    rw [(placed theirs).1] at absent
    cases absent
  · cases theirs : call.key with
    | none => trivial
    | some key => exact (placed theirs).1

theorem record_recording_inv (inv : Inv broker s) (found : s.calls.get id = some call) {result : MCPBrokerResult α}
    (recording : call.phase = .recording result) {ok : Bool} (reliable : Reliable broker s (.record id ok)) :
    Inv broker (s.answer id call (if ok then some result else none)) := by
  refine inv.answer found (by simp [Call.inside, recording]) (by simp [recording]) ?_
  cases theirs : call.key with
  | none => trivial
  | some key =>
    intro first raw done
    have placed := inv.placed found theirs
    rw [recording] at placed
    rcases (placed first raw done).2 with here | replay
    · exact Or.inl here
    · rcases reliable call key first raw found theirs done with here | rfl
      · exact Or.inl here
      · exact Or.inr ⟨result, rfl, replay⟩

theorem settle_returned_inv (inv : Inv broker s) (found : s.calls.get id = some call) (invoking : call.phase = .invoking)
    (raw : α) : Inv broker ((s.goOn id call (.saving raw)).note (.returned id call.key raw)) := by
  have inside : call.inside = true := by simp [Call.inside, invoking]
  have calls : ∀ other, ((s.goOn id call (.saving raw)).note (.returned id call.key raw)).calls.get other =
      if other = id then (some (.saving raw)).map fun phase => { call with phase := phase } else s.calls.get other :=
    fun other => Calls.get_put id other _
  have now : ∀ {key}, call.key = some key →
      completion key ((s.goOn id call (.saving raw)).note (.returned id call.key raw)).log = some (id, raw) := by
    intro key theirs
    rw [theirs]
    exact completion_returned_self key id raw s.log
  refine inv.move found rfl rfl calls (inv.clear found inside)
    (fun key apart => completion_returned_of_ne apart id raw s.log) (fun _ _ => rfl) ?_ ?_
    (history_cons inv.history trivial)
  · rintro key _ theirs ⟨⟩
    have placed := inv.placed found theirs
    rw [invoking] at placed
    exact ⟨now theirs, placed.2⟩
  · intro key first other theirs done
    rw [now theirs] at done
    cases done
    exact Or.inr ⟨rfl, rfl⟩

/-- A call whose execution did not return normally records an error. -/
theorem settle_failed_inv (inv : Inv broker s) (found : s.calls.get id = some call) (invoking : call.phase = .invoking)
    (result : MCPBrokerResult α) : Inv broker (s.goOn id call (.recording result)) := by
  have absent : ∀ {key first raw}, call.key = some key → completion key s.log ≠ some (first, raw) := by
    intro key first raw theirs done
    have placed := inv.placed found theirs
    rw [invoking] at placed
    rw [placed.1] at done
    cases done
  refine inv.goOn found (inv.clear found (by simp [Call.inside, invoking])) ?_ ?_
  · exact fun key theirs first raw done => absurd done (absent theirs)
  · exact fun key first raw theirs done => absurd done (absent theirs)

theorem save_inv (inv : Inv broker s) (found : s.calls.get id = some call) {raw : α} (saving : call.phase = .saving raw)
    {ok : Bool} (reliable : Reliable broker s (.save id ok)) : Inv broker (s.save broker id call raw ok) := by
  have inside : call.inside = true := by simp [Call.inside, saving]
  have clear := inv.clear found inside
  cases theirs : call.key with
  | none =>
    have quiet : ∀ result, Inv broker (s.goOn id call (.recording result)) := by
      intro result
      refine inv.goOn found clear ?_ ?_ <;> simp [theirs]
    simp only [State.save, theirs]
    cases broker.redact raw with
    | none => exact quiet _
    | some data => exact quiet _
  | some key =>
    obtain ⟨rfl, data, row, redacted, written, readback⟩ := reliable call key raw found theirs saving
    have placed := inv.placed found theirs
    rw [saving] at placed
    have same : ∀ {other}, call.key = some other → other = key := by
      intro other mine
      rw [theirs] at mine
      exact (Option.some.inj mine).symm
    simp only [State.save, redacted, theirs, written, if_true]
    have calls : ∀ other, (State.goOn { s with stored := insertOrIgnore s.stored key row } id call
        (.recording (call.okResult data))).calls.get other =
          if other = id then (some (Phase.recording (call.okResult data))).map fun phase => { call with phase := phase }
          else s.calls.get other := fun other => Calls.get_put id other _
    have kept : Stored broker (insertOrIgnore s.stored key row) key raw := by
      refine ⟨data, call.auditId, row, lookup_insertOrIgnore_self placed.2 row, redacted, ?_⟩
      rw [readback, Call.okResult, theirs]
    have only : ∀ {first other}, completion key s.log = some (first, other) → first = id ∧ other = raw := by
      intro first other done
      rw [placed.1] at done
      cases done
      exact ⟨rfl, rfl⟩
    refine inv.move found rfl rfl calls clear (fun _ _ => rfl) ?_ ?_ ?_ inv.history
    · intro other apart
      exact lookup_insertOrIgnore_of_ne (fun here => apart (by rw [theirs, here])) row
    · rintro other _ mine ⟨⟩ first second done
      rw [same mine] at done ⊢
      obtain ⟨rfl, rfl⟩ := only done
      exact ⟨kept, Or.inl rfl⟩
    · intro other first second mine done
      rw [same mine] at done ⊢
      obtain ⟨rfl, rfl⟩ := only done
      exact Or.inl kept

/-- A call that vanishes with nothing at stake. -/
theorem Inv.drop (inv : Inv broker s) (found : s.calls.get id = some call)
    (other : ∀ key raw, call.key = some key → call.phase ≠ .saving raw) :
    Inv broker { s with calls := s.calls.drop id } := by
  have still : ∀ {number point}, (s.calls.drop id).get number = some point → s.calls.get number = some point := by
    intro number point here
    rw [Calls.get_drop] at here
    split at here
    · cases here
    · exact here
  refine ⟨?_, ?_, fun here theirs => inv.placed (still here) theirs, ?_, inv.attached, inv.history⟩
  · intro number late
    cases here : (s.calls.drop id).get number with
    | none => rfl
    | some point => exact (still here).symm.trans (inv.fresh late)
  · exact fun here there => inv.alone (still here) (still there)
  · intro key first raw done
    refine (inv.settled done).imp_right ?_
    rintro ⟨point, here, theirs, saving⟩
    refine ⟨point, ?_, theirs, saving⟩
    rw [Calls.get_drop, if_neg]
    · exact here
    · rintro rfl
      rw [found] at here
      cases here
      exact other key raw theirs saving

theorem cancel_inv (inv : Inv broker s) (found : s.calls.get id = some call)
    (reliable : Reliable broker s (.cancel id)) : Inv broker (s.cancel broker id call) := by
  simp only [State.cancel]
  split
  · rename_i raw key saving theirs
    exact absurd saving (reliable call key raw found theirs)
  · exact inv.drop found fun key raw theirs => reliable call key raw found theirs

theorem begin_inv (inv : Inv broker s) (key : Option String) (auditId : String) :
    Inv broker { s with calls := s.calls.put s.begun ⟨key, auditId, .waiting⟩, begun := s.begun + 1 } := by
  have earlier : ∀ {number point}, (s.calls.put s.begun ⟨key, auditId, .waiting⟩).get number = some point →
      point.phase = .waiting ∨ s.calls.get number = some point := by
    intro number point here
    rw [Calls.get_put] at here
    split at here
    · cases here
      exact Or.inl rfl
    · exact Or.inr here
  refine ⟨?_, ?_, ?_, ?_, inv.attached, inv.history⟩
  · intro number late
    have later : s.begun + 1 ≤ number := late
    rw [Calls.get_put, if_neg (by omega)]
    exact inv.fresh (by omega)
  · intro first second one other shared here there mine theirs inside within
    rcases earlier here with waiting | here
    · simp [Call.inside, waiting] at inside
    rcases earlier there with waiting | there
    · simp [Call.inside, waiting] at within
    exact inv.alone here there mine theirs inside within
  · intro number point shared here theirs
    rcases earlier here with waiting | here
    · rw [waiting]
      trivial
    · exact inv.placed here theirs
  · intro shared first raw done
    refine (inv.settled done).imp_right ?_
    rintro ⟨point, here, theirs, saving⟩
    refine ⟨point, ?_, theirs, saving⟩
    rw [Calls.get_put, if_neg]
    · exact here
    · rintro rfl
      rw [inv.fresh (Nat.le_refl _)] at here
      cases here

theorem acquire_inv (inv : Inv broker s) (found : s.calls.get id = some call) (waiting : call.phase = .waiting)
    (free : s.locked id call = false) : Inv broker (s.goOn id call .entered) := by
  have clear : Clear s id call := by
    intro number second key apart also mine theirs
    by_contra within
    have held : s.locked id call = true := by
      rw [State.locked, mine, Option.isSome_some, Bool.true_and, List.any_eq_true]
      exact ⟨(number, second), Calls.mem_of_get also, by simp [apart, theirs, within]⟩
    rw [free] at held
    cases held
  refine inv.goOn found clear (fun _ _ => trivial) ?_
  intro key first raw theirs done
  rcases inv.settled done with kept | ⟨point, here, mine, saving⟩
  · exact Or.inl kept
  · by_cases same : first = id
    · subst same
      rw [found] at here
      cases here
      rw [waiting] at saving
      cases saving
    · have outside := clear first point key same here theirs mine
      simp [Call.inside, saving] at outside

theorem settle_inv (inv : Inv broker s) (found : s.calls.get id = some call) (invoking : call.phase = .invoking)
    (outcome : Outcome α) : Inv broker (step broker s (.settle id outcome)) := by
  simp only [step, found, invoking]
  cases outcome with
  | returned raw => exact settle_returned_inv inv found invoking raw
  | timedOut | raised => exact settle_failed_inv inv found invoking _

theorem step_inv (inv : Inv broker s) (event : Event α) (reliable : Reliable broker s event) :
    Inv broker (step broker s event) := by
  cases event with
  | begin request auditId =>
    simp only [step]
    split
    · exact begin_inv inv _ _
    · exact inv
  | land =>
    simp only [step, inv.attached]
    exact inv
  | acquire id =>
    cases found : s.calls.get id with
    | none => simpa only [step, found] using inv
    | some call =>
      cases phase : call.phase with
      | waiting =>
        simp only [step, found, phase]
        split
        · exact inv
        · rename_i free
          exact acquire_inv inv found phase (by simpa using free)
      | _ => simpa only [step, found, phase] using inv
  | lookUp id ok =>
    cases found : s.calls.get id with
    | none => simpa only [step, found] using inv
    | some call =>
      cases phase : call.phase with
      | entered => simpa only [step, found, phase] using lookUp_inv inv found phase reliable
      | _ => simpa only [step, found, phase] using inv
  | record id ok =>
    cases found : s.calls.get id with
    | none => simpa only [step, found] using inv
    | some call =>
      cases phase : call.phase with
      | missed =>
        simp only [step, found, phase]
        split
        · exact record_missed_inv inv found phase
        · rename_i failed
          refine inv.answer found (by simp [Call.inside, phase]) (by simp [phase]) ?_
          cases theirs : call.key with
          | none => trivial
          | some key =>
            intro first raw done
            have placed := inv.placed found theirs
            rw [phase] at placed
            rw [placed.1] at done
            cases done
      | recording result => simpa only [step, found, phase] using record_recording_inv inv found phase reliable
      | _ => simpa only [step, found, phase] using inv
  | settle id outcome =>
    cases found : s.calls.get id with
    | none => simpa only [step, found] using inv
    | some call =>
      cases phase : call.phase with
      | invoking => exact settle_inv inv found phase outcome
      | _ => simpa only [step, found, phase] using inv
  | save id ok =>
    cases found : s.calls.get id with
    | none => simpa only [step, found] using inv
    | some call =>
      cases phase : call.phase with
      | saving raw => simpa only [step, found, phase] using save_inv inv found phase reliable
      | _ => simpa only [step, found, phase] using inv
  | cancel id =>
    cases found : s.calls.get id with
    | none => simpa only [step, found] using inv
    | some call => simpa only [step, found] using cancel_inv inv found reliable

end Steps

section Runs

/-- In every run in which the results are saved and later calls can read and record them, a key takes effect once. -/
theorem tool_call_once (stored : List (String × τ)) (events : List (Event α))
    (reliable : Run.Guarded (step broker) (Reliable broker) (start stored) events) (n : Nat) :
    Once broker (Run.exec (step broker) (start stored) (events.take n)) :=
  (Run.Guarded.invariant (fun _ event inv reliable => step_inv inv event reliable) (reliable.take n)
    (start_inv stored)).once

/-- A broker whose tool `send_note` returns text, as code points, and whose store is a database: it can neither bind
nor encode a lone surrogate. -/
def textBroker : MCPToolBroker (List Nat) (MCPBrokerResult (List Nat)) where
  bindings := [(("inst_1", "send_note"),
    ⟨"notes", 1, "main", ⟨.auto, .send, .derived⟩, ["text"], ["text"], false⟩)]
  sha256 := fun source => source.tool
  lower := Text.lower
  approvalHook := none
  redact := some
  write := fun result =>
    if (result.data.getD []).any fun point => 0xD800 ≤ point && point ≤ 0xDFFF then none else some result
  read := some

def sendNote : Request where
  instanceId := "inst_1"
  toolName := "send_note"
  arguments := [("text", some "\"hello\"")]
  tenantId := "tenant"
  toolCallId := "call_1"
  approvalGranted := true

/-- The execution returns, its call ends, and a second call goes through. -/
def twoCalls (returned : List Nat) : List (Event (List Nat)) :=
  [.begin sendNote "audit_1", .acquire 0, .lookUp 0 true, .record 0 true, .settle 0 (.returned returned), .save 0 true,
    .record 0 true, .begin sendNote "audit_2", .acquire 1, .lookUp 1 true, .record 1 true]

theorem tool_call_once_plain : Once textBroker (Run.exec (step textBroker) (start []) ((twoCalls [104]).take 11)) := by
  refine tool_call_once textBroker [] (twoCalls [104]) ?_ 11
  have recorded : ∀ (s : State (List Nat) (MCPBrokerResult (List Nat))) (id : Nat),
      Reliable textBroker s (.record id true) := fun _ _ _ _ _ _ _ _ _ => Or.inr rfl
  have read : ∀ (s : State (List Nat) (MCPBrokerResult (List Nat))) (id : Nat),
      Reliable textBroker s (.lookUp id true) := fun _ _ _ _ _ _ _ _ _ => Or.inr rfl
  refine ⟨trivial, trivial, read _ _, recorded _ _, trivial, ?_, recorded _ _, trivial, trivial, read _ _, recorded _ _,
    trivial⟩
  intro call key raw found theirs saving
  have here : (Run.exec (step textBroker) (start []) ((twoCalls [104]).take 5)).calls.get 0 =
      some ⟨some "mcp_send_note", "audit_1", .saving [104]⟩ := by decide +kernel
  cases here.symm.trans found
  cases saving
  exact ⟨rfl, [104], _, rfl, rfl, rfl⟩

/-- A result with a lone surrogate is dropped, and the tool runs a second time. -/
theorem unsaved_result_repeats_effect :
    ¬ Once textBroker (Run.exec (step textBroker) (start []) (twoCalls [0xD800])) := by
  intro once
  have log : (Run.exec (step textBroker) (start []) (twoCalls [0xD800])).log =
      [] ++ .invoked 1 (some "mcp_send_note") ::
        [.answered 0 (some "mcp_send_note") (some (Call.failedResult ⟨some "mcp_send_note", "audit_1", .invoking⟩)),
          .returned 0 (some "mcp_send_note") [0xD800], .invoked 0 (some "mcp_send_note")] := by decide +kernel
  have again : completion "mcp_send_note" _ = none := once.history _ _ _ log
  simp [completion] at again

end Runs

end OpenTulpa.Mcp.ToolCalls
