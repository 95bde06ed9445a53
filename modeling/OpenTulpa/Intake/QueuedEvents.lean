import OpenTulpa.Intake.PendingRuns

/-! Queued intake events, over every interleaving of workers, recoveries and workflow deletions.
A finish compares only the generation of its row, so one whose claim was taken away can remove a
row that was queued again, or end the claim of another worker. Where each finish finds its own
claim to be the last one of the row, no queued event is lost. -/

namespace OpenTulpa.Intake.QueuedEvents

open Library Outcome Workflows PendingRuns

/-- What was committed to the queue. A claim has a number of its own. -/
inductive Entry where
  | queued (key : PendingKey) (generation : Nat)
  | claimed (key : PendingKey) (claim generation : Nat)
  | requeued (key : PendingKey) (claim : Nat)
  | removed (key : PendingKey) (claim : Nat)
  | dropped (key : PendingKey)
  deriving DecidableEq

/-- A claim of the row, or its removal by a finish or by the deletion of the workflow. -/
@[grind =] def Entry.settles (entry : Entry) (key : PendingKey) : Bool :=
  match entry with
  | .claimed other _ _ | .removed other _ | .dropped other => other == key
  | .queued _ _ | .requeued _ _ => false

structure Claim where
  number : Nat
  key : PendingKey
  generation : Nat
  deriving DecidableEq

/-- The store, the claims whose workers have not finished, and what was committed, newest first. -/
structure System where
  store : IntakeStore
  claims : List Claim
  next : Nat
  history : List Entry
  deriving DecidableEq

def System.start : System := ⟨.empty, [], 0, []⟩

inductive Op where
  | queue (call : QueueCall) (now : Int)
  | claim (limit now : Int)
  | finish (number : Nat) (staleRequeue now : Int)
  | recover (now : Int)
  | delete (customerId workflowId : String) (expectedRevision : Option Nat)
  | write (workflow : Workflow) (now : Int)
  deriving DecidableEq

def numbered (next : Nat) (rows : List PendingRun) : List Claim :=
  (rows.zipIdx next).map fun row => ⟨row.2, row.1.key, row.1.generation⟩

def Claim.entry (claim : Claim) : Entry := .claimed claim.key claim.number claim.generation

def finishEntries (claim : Claim) : Finish → List Entry
  | .missing => []
  | .requeued => [.requeued claim.key claim.number]
  | .removed => [.removed claim.key claim.number]

def dropEntries (store : IntakeStore) (workflowId : String) : List Entry :=
  (store.pendingRuns.filter fun row => row.key.1 == workflowId).map fun row => .dropped row.key

@[grind =] def step (s : System) : Op → System
  | .queue call now =>
    match queuePendingRun s.store call now with
    | none => s
    | some (store, generation) => { s with store := store, history := .queued call.key generation :: s.history }
  | .claim limit now =>
    let (store, rows) := claimDuePendingRuns s.store limit now
    let claims := numbered s.next rows
    ⟨store, s.claims ++ claims, s.next + rows.length, claims.map Claim.entry ++ s.history⟩
  | .finish number staleRequeue now =>
    match s.claims.find? fun claim => claim.number == number with
    | none => s
    | some claim =>
      let (store, outcome) := finishPendingRun s.store claim.key claim.generation staleRequeue now
      { s with
        store := store
        claims := s.claims.filter fun other => other.number != number
        history := finishEntries claim outcome ++ s.history }
  | .recover now => { s with store := recoverInterruptedPendingRuns s.store now }
  | .delete customerId workflowId expectedRevision =>
    match deleteWorkflowRecords s.store customerId workflowId expectedRevision with
    | .ok (store, true) => { s with store := store, history := dropEntries s.store (Text.strip workflowId) ++ s.history }
    | .ok (_, false) | .error _ => s
  | .write workflow now =>
    match upsertWorkflowRecord s.store.workflows workflow now now none with
    | .ok (workflows, _) => { s with store := { s.store with workflows := workflows } }
    | .error _ => s

/-- The claim was made on the row that is there, and no other claim of it came after. -/
def Own (older : List Entry) (key : PendingKey) (claim : Nat) : Prop :=
  ∃ after generation before, older = after ++ .claimed key claim generation :: before ∧
    ∀ entry ∈ after, entry.settles key = false

/-- Every event queued into the row was followed by a claim of the row, or its row has gone. -/
def Served (older : List Entry) (key : PendingKey) : Prop :=
  ∀ after generation before, older = after ++ .queued key generation :: before →
    ∃ entry ∈ after, entry.settles key = true

/-- A finish only touches the row of its own claim, and removes it only when no event waits in it. -/
def Good (history : List Entry) : Prop :=
  ∀ newer entry older, history = newer ++ entry :: older →
    match entry with
    | .removed key claim => Own older key claim ∧ Served older key
    | .requeued key claim => Own older key claim
    | _ => True

@[grind =] def Entry.claim? : Entry → Option (Nat × Nat)
  | .claimed _ claim generation => some (claim, generation)
  | _ => none

@[grind =] def Entry.queues (entry : Entry) (key : PendingKey) : Bool :=
  match entry with
  | .queued other _ => other == key
  | _ => false

/-- The last claim of a row since the row was created. -/
@[grind =] def lastClaim (key : PendingKey) : List Entry → Option (Nat × Nat)
  | [] => none
  | entry :: older => if entry.settles key then entry.claim? else lastClaim key older

/-- An event was queued into a row since the row was last claimed. -/
@[grind =] def waiting (key : PendingKey) : List Entry → Bool
  | [] => false
  | entry :: older => if entry.settles key then false else entry.queues key || waiting key older

/-- The finish finds its row gone, or its own claim the last one of the row. -/
def Fenced (s : System) : Op → Prop
  | .finish number _ _ =>
    ∀ claim ∈ s.claims.find? fun claim => claim.number == number,
      s.store.pendingRun claim.key = none ∨ (lastClaim claim.key s.history).map Prod.fst = some number
  | _ => True

section History

variable {key : PendingKey} {history older : List Entry}

theorem lastClaim_skip {entry : Entry} (other : entry.settles key = false) :
    lastClaim key (entry :: older) = lastClaim key older := by
  simp [lastClaim, other]

theorem waiting_skip {entry : Entry} (other : entry.settles key = false) (quiet : entry.queues key = false) :
    waiting key (entry :: older) = waiting key older := by
  simp [waiting, other, quiet]

theorem lastClaim_split {claim generation : Nat} (last : lastClaim key history = some (claim, generation)) :
    ∃ after before, history = after ++ .claimed key claim generation :: before ∧
      ∀ entry ∈ after, entry.settles key = false := by
  induction history with
  | nil => cases last
  | cons entry older ih =>
    rw [lastClaim] at last
    split at last
    · rename_i settled
      cases entry with
      | claimed own number made =>
        cases last
        obtain rfl : own = key := by simpa [Entry.settles] using settled
        exact ⟨[], older, rfl, by simp⟩
      | queued _ _ | requeued _ _ | removed _ _ | dropped _ => cases last
    · rename_i other
      obtain ⟨after, before, rfl, clear⟩ := ih last
      refine ⟨entry :: after, before, rfl, ?_⟩
      intro found member
      rcases List.mem_cons.mp member with rfl | inside
      · exact Bool.not_eq_true _ ▸ other
      · exact clear found inside

theorem own_of_lastClaim {claim generation : Nat} (last : lastClaim key history = some (claim, generation)) :
    Own history key claim := by
  obtain ⟨after, before, split, clear⟩ := lastClaim_split last
  exact ⟨after, generation, before, split, clear⟩

theorem mem_of_lastClaim {claim generation : Nat} (last : lastClaim key history = some (claim, generation)) :
    .claimed key claim generation ∈ history := by
  obtain ⟨after, before, rfl, _⟩ := lastClaim_split last
  exact List.mem_append_right _ List.mem_cons_self

theorem lastClaim_of_own {claim : Nat} (own : Own history key claim) :
    (lastClaim key history).map Prod.fst = some claim := by
  obtain ⟨after, generation, before, rfl, clear⟩ := own
  induction after with
  | nil => simp [lastClaim, Entry.settles, Entry.claim?]
  | cons entry after ih =>
    rw [List.cons_append, lastClaim_skip (clear entry List.mem_cons_self)]
    exact ih fun other member => clear other (List.mem_cons_of_mem _ member)

theorem served_of_not_waiting (quiet : waiting key history = false) : Served history key := by
  intro after generation before split
  induction after generalizing history with
  | nil =>
    subst split
    simp [waiting, Entry.settles, Entry.queues] at quiet
  | cons entry after ih =>
    subst split
    by_cases settled : entry.settles key = true
    · exact ⟨entry, List.mem_cons_self, settled⟩
    · have rest : waiting key (after ++ .queued key generation :: before) = false := by
        rw [List.cons_append, waiting, if_neg settled] at quiet
        exact (Bool.or_eq_false_iff.mp quiet).2
      obtain ⟨found, member, done⟩ := ih rest rfl
      exact ⟨found, List.mem_cons_of_mem _ member, done⟩

theorem lastClaim_settled {entries : List Entry} (older : List Entry) (gone : ∀ entry ∈ entries, entry.claim? = none)
    (settled : ∃ entry ∈ entries, entry.settles key = true) : lastClaim key (entries ++ older) = none := by
  induction entries with
  | nil => simp at settled
  | cons entry entries ih =>
    rw [List.cons_append, lastClaim]
    split
    · exact gone entry List.mem_cons_self
    · rename_i other
      obtain ⟨found, member, done⟩ := settled
      have inside : found ∈ entries := (List.mem_cons.mp member).resolve_left fun same => other (same ▸ done)
      exact ih (fun entry member => gone entry (List.mem_cons_of_mem _ member)) ⟨found, inside, done⟩

/-- Entries of rows that have gone either end the claim of a key or do not concern it. -/
theorem gone_entries (key : PendingKey) {entries : List Entry} (older : List Entry)
    (gone : ∀ entry ∈ entries, entry.claim? = none ∧ ∀ key, entry.queues key = false) :
    lastClaim key (entries ++ older) = none ∨
      lastClaim key (entries ++ older) = lastClaim key older ∧ waiting key (entries ++ older) = waiting key older := by
  by_cases settled : ∃ entry ∈ entries, entry.settles key = true
  · exact Or.inl (lastClaim_settled older (fun entry member => (gone entry member).1) settled)
  · refine Or.inr ?_
    induction entries with
    | nil => exact ⟨rfl, rfl⟩
    | cons entry entries ih =>
      have other : entry.settles key = false := by
        by_contra done
        exact settled ⟨entry, List.mem_cons_self, by simpa using done⟩
      rw [List.cons_append, lastClaim_skip other, waiting_skip other ((gone entry List.mem_cons_self).2 key)]
      exact ih (fun entry member => gone entry (List.mem_cons_of_mem _ member)) fun ⟨found, member, done⟩ =>
        settled ⟨found, List.mem_cons_of_mem _ member, done⟩

end History

/-- The rows and the history agree: a row that was claimed has counted on from the generation of its
last claim when an event waits, a row that is gone has no claim, and a claim in progress is the one
that was recorded under its number. -/
structure Kept (s : System) : Prop where
  distinct : (s.store.pendingRuns.map PendingRun.key).Nodup
  counted : ∀ row ∈ s.store.pendingRuns, ∀ claim generation, lastClaim row.key s.history = some (claim, generation) →
    generation ≤ row.generation ∧ (waiting row.key s.history = true → generation < row.generation)
  absent : ∀ key, key ∉ s.store.pendingRuns.map PendingRun.key → lastClaim key s.history = none
  issued : ∀ key claim generation, .claimed key claim generation ∈ s.history → claim < s.next
  known : ∀ made ∈ s.claims, made.number < s.next ∧ ∀ key generation,
    .claimed key made.number generation ∈ s.history → key = made.key ∧ generation = made.generation
  good : Good s.history

/-- The key and the generation of a row. -/
def mark (row : PendingRun) : PendingKey × Nat := (row.key, row.generation)

section Marks

variable {s after : System}

theorem keys_of_marks {rows others : List PendingRun} (same : others.map mark = rows.map mark) :
    others.map PendingRun.key = rows.map PendingRun.key := by
  have first := congrArg (List.map Prod.fst) same
  simpa [List.map_map, Function.comp_def, mark] using first

theorem mem_of_marks {rows others : List PendingRun} (same : others.map mark = rows.map mark) {row : PendingRun}
    (member : row ∈ others) : ∃ old ∈ rows, old.key = row.key ∧ old.generation = row.generation := by
  have listed : mark row ∈ rows.map mark := same ▸ List.mem_map_of_mem member
  obtain ⟨old, present, equal⟩ := List.mem_map.mp listed
  exact ⟨old, present, congrArg Prod.fst equal, congrArg Prod.snd equal⟩

theorem Kept.of_marks (kept : Kept s) (marks : after.store.pendingRuns.map mark = s.store.pendingRuns.map mark)
    (claims : ∀ made ∈ after.claims, made ∈ s.claims) (next : after.next = s.next)
    (last : ∀ key, lastClaim key after.history = lastClaim key s.history)
    (waits : ∀ key, waiting key after.history = waiting key s.history)
    (entries : ∀ key claim generation, .claimed key claim generation ∈ after.history →
      .claimed key claim generation ∈ s.history) (good : Good after.history) : Kept after := by
  have keys := keys_of_marks marks
  refine ⟨keys ▸ kept.distinct, ?_, ?_, ?_, ?_, good⟩
  · intro row member
    obtain ⟨old, present, key, generation⟩ := mem_of_marks marks member
    rw [last, waits, ← key, ← generation]
    exact kept.counted old present
  · intro key missing
    rw [last]
    exact kept.absent key (keys ▸ missing)
  · intro key claim generation recorded
    rw [next]
    exact kept.issued key claim generation (entries key claim generation recorded)
  · intro made member
    rw [next]
    obtain ⟨low, same⟩ := kept.known made (claims made member)
    exact ⟨low, fun key generation recorded => same key generation (entries key made.number generation recorded)⟩

/-- Rows that go leave entries that end the claims of their keys. -/
theorem Kept.of_gone (kept : Kept s) {keep : PendingRun → Bool} {entries : List Entry}
    (rows : after.store.pendingRuns = s.store.pendingRuns.filter keep) (claims : ∀ made ∈ after.claims, made ∈ s.claims)
    (next : after.next = s.next) (history : after.history = entries ++ s.history)
    (gone : ∀ entry ∈ entries, entry.claim? = none ∧ ∀ key, entry.queues key = false)
    (left : ∀ row ∈ s.store.pendingRuns, keep row = false → ∃ entry ∈ entries, entry.settles row.key = true)
    (good : Good after.history) : Kept after := by
  have recorded : ∀ {key claim generation}, .claimed key claim generation ∈ after.history →
      .claimed key claim generation ∈ s.history := by
    intro key claim generation member
    rw [history] at member
    refine (List.mem_append.mp member).resolve_left fun new => ?_
    simpa [Entry.claim?] using (gone _ new).1
  refine ⟨?_, ?_, ?_, ?_, ?_, good⟩
  · rw [rows]
    exact kept.distinct.sublist (List.filter_sublist.map _)
  · intro row member claim generation last
    rw [rows] at member
    rw [history] at last ⊢
    rcases gone_entries row.key s.history gone with none | ⟨same, waits⟩
    · rw [none] at last
      cases last
    · rw [same] at last
      rw [waits]
      exact kept.counted row (List.mem_filter.mp member).1 claim generation last
  · intro key missing
    rw [history]
    by_cases before : key ∈ s.store.pendingRuns.map PendingRun.key
    · obtain ⟨row, present, rfl⟩ := List.mem_map.mp before
      refine lastClaim_settled s.history (fun entry member => (gone entry member).1) (left row present ?_)
      by_contra kept
      refine missing (List.mem_map_of_mem ?_)
      rw [rows]
      exact List.mem_filter.mpr ⟨present, by simpa using kept⟩
    · rcases gone_entries key s.history gone with none | ⟨same, _⟩
      · exact none
      · rw [same]
        exact kept.absent key before
  · intro key claim generation member
    rw [next]
    exact kept.issued key claim generation (recorded member)
  · intro made member
    rw [next]
    obtain ⟨low, same⟩ := kept.known made (claims made member)
    exact ⟨low, fun key generation entry => same key generation (recorded entry)⟩

theorem Kept.of_store (kept : Kept s) {store : IntakeStore}
    (marks : store.pendingRuns.map mark = s.store.pendingRuns.map mark) : Kept { s with store := store } :=
  kept.of_marks marks (fun _ member => member) rfl (fun _ => rfl) (fun _ => rfl) (fun _ _ _ recorded => recorded) kept.good

end Marks

theorem good_cons {entry : Entry} {history : List Entry} (good : Good history)
    (fine : match entry with
      | .removed key claim => Own history key claim ∧ Served history key
      | .requeued key claim => Own history key claim
      | _ => True) : Good (entry :: history) := by
  intro newer other older split
  cases newer with
  | nil =>
    cases split
    exact fine
  | cons first newer =>
    cases split
    exact good newer other older rfl

section Steps

variable {s : System}

theorem pendingRun_mem {store : IntakeStore} {key : PendingKey} {row : PendingRun}
    (found : store.pendingRun key = some row) : row ∈ store.pendingRuns ∧ row.key = key :=
  ⟨List.mem_of_find?_eq_some found, by simpa using List.find?_some found⟩

theorem pendingRun_none {store : IntakeStore} {key : PendingKey} (missing : store.pendingRun key = none) :
    key ∉ store.pendingRuns.map PendingRun.key := by
  intro listed
  obtain ⟨row, member, rfl⟩ := List.mem_map.mp listed
  exact List.find?_eq_none.mp missing row member (by simp)

theorem change_keys {store : IntakeStore} (key : PendingKey) (change : PendingRun → PendingRun)
    (same : ∀ row, (change row).key = row.key) :
    (store.change key change).pendingRuns.map PendingRun.key = store.pendingRuns.map PendingRun.key :=
  Rows.map_update PendingRun.key (fun row _ => same row) store.pendingRuns

theorem change_marks {store : IntakeStore} (key : PendingKey) (change : PendingRun → PendingRun)
    (same : ∀ row, mark (change row) = mark row) :
    (store.change key change).pendingRuns.map mark = store.pendingRuns.map mark :=
  Rows.map_update mark (fun row _ => same row) store.pendingRuns

theorem queue_keeps (kept : Kept s) (call : QueueCall) (now : Int) : Kept (step s (.queue call now)) := by
  simp only [step]
  split
  · exact kept
  · rename_i store generation queued
    have other : ∀ key, (Entry.queued call.key generation).settles key = false := fun _ => rfl
    have entries : ∀ {key claim made}, .claimed key claim made ∈ .queued call.key generation :: s.history →
        .claimed key claim made ∈ s.history := by
      intro key claim made recorded
      rcases List.mem_cons.mp recorded with impossible | inside
      · cases impossible
      · exact inside
    have good : Good (.queued call.key generation :: s.history) := good_cons kept.good trivial
    have issued : ∀ key claim made, .claimed key claim made ∈ .queued call.key generation :: s.history → claim < s.next :=
      fun key claim made recorded => kept.issued key claim made (entries recorded)
    have known : ∀ made ∈ s.claims, made.number < s.next ∧ ∀ key number,
        .claimed key made.number number ∈ .queued call.key generation :: s.history →
          key = made.key ∧ number = made.generation :=
      fun made member => ⟨(kept.known made member).1, fun key number recorded =>
        (kept.known made member).2 key number (entries recorded)⟩
    unfold queuePendingRun at queued
    split at queued
    · cases queued
    dsimp only at queued
    split at queued
    · rename_i missing
      cases queued
      have fresh := pendingRun_none missing
      refine ⟨?_, ?_, ?_, issued, known, good⟩
      · simp only [List.map_append, List.map_cons, List.map_nil]
        exact List.nodup_append.mpr ⟨kept.distinct, List.nodup_singleton _, by
          intro a inside b new same
          rw [List.mem_singleton.mp new] at same
          exact fresh (same ▸ inside)⟩
      · intro row member claim made last
        rw [lastClaim_skip (other _)] at last
        rcases List.mem_append.mp member with old | new
        · have apart : call.key ≠ row.key := fun same => fresh (same ▸ List.mem_map_of_mem old)
          rw [waiting_skip (other _) (by simpa [Entry.queues] using apart)]
          exact kept.counted row old claim made last
        · obtain rfl := List.mem_singleton.mp new
          rw [kept.absent _ fresh] at last
          cases last
      · intro key missing
        rw [lastClaim_skip (other _)]
        refine kept.absent key fun inside => missing ?_
        rw [List.map_append]
        exact List.mem_append_left _ inside
    · rename_i current found
      cases queued
      obtain ⟨inside, own⟩ := pendingRun_mem found
      refine ⟨by rw [change_keys _ _ (by intro; rfl)]; exact kept.distinct, ?_, ?_, issued, known, good⟩
      · intro row member claim made last
        rw [lastClaim_skip (other _)] at last
        rcases Rows.mem_update.mp member with ⟨old, present, chosen, rfl⟩ | ⟨present, missed⟩
        · have same : old = current := Rows.eq_of_key_eq kept.distinct present inside (by rw [own]; simpa using chosen)
          have counted := (kept.counted old present claim made last).1
          rw [same] at counted
          exact ⟨by dsimp only; omega, fun _ => by dsimp only; omega⟩
        · have apart : call.key ≠ row.key := by
            intro same
            simp [same] at missed
          rw [waiting_skip (other _) (by simpa [Entry.queues] using apart)]
          exact kept.counted row present claim made last
      · intro key missing
        rw [lastClaim_skip (other _)]
        rw [change_keys _ _ (by intro; rfl)] at missing
        exact kept.absent key missing

theorem claimRow_marks (store : IntakeStore) (row : PendingRun) (now : Int) :
    (claimRow store row now).pendingRuns.map mark = store.pendingRuns.map mark :=
  Rows.map_update mark (by intros; rfl) store.pendingRuns

theorem claimDue_marks (store : IntakeStore) (limit now : Int) :
    (claimDuePendingRuns store limit now).1.pendingRuns.map mark = store.pendingRuns.map mark := by
  have folded : ∀ (rows : List PendingRun) (store : IntakeStore),
      (rows.foldl (fun store row => claimRow store row now) store).pendingRuns.map mark = store.pendingRuns.map mark := by
    intro rows
    induction rows with
    | nil => exact fun _ => rfl
    | cons row rows ih => exact fun store => (ih _).trans (claimRow_marks store row now)
  exact folded _ store

theorem mem_numbered {next : Nat} {rows : List PendingRun} {made : Claim} (member : made ∈ numbered next rows) :
    next ≤ made.number ∧ made.number < next + rows.length ∧
      ∃ row, rows[made.number - next]? = some row ∧ row.key = made.key ∧ row.generation = made.generation := by
  obtain ⟨⟨row, number⟩, inside, rfl⟩ := List.mem_map.mp member
  obtain ⟨low, high, found⟩ := List.mem_zipIdx inside
  exact ⟨low, by omega, row, found ▸ List.getElem?_eq_getElem _, rfl, rfl⟩

/-- The entries of the claims made at once decide the last claim of their rows only. -/
theorem lastClaim_claims (key : PendingKey) (made : List Claim) (history : List Entry) :
    (∃ claim ∈ made, claim.key = key ∧ lastClaim key (made.map Claim.entry ++ history) = some (claim.number, claim.generation) ∧
      waiting key (made.map Claim.entry ++ history) = false) ∨
    ((∀ claim ∈ made, claim.key ≠ key) ∧ lastClaim key (made.map Claim.entry ++ history) = lastClaim key history ∧
      waiting key (made.map Claim.entry ++ history) = waiting key history) := by
  induction made with
  | nil => exact Or.inr ⟨by simp, rfl, rfl⟩
  | cons claim made ih =>
    by_cases same : claim.key = key
    · refine Or.inl ⟨claim, List.mem_cons_self, same, ?_, ?_⟩
      · simp [lastClaim, Claim.entry, Entry.settles, Entry.claim?, same]
      · simp [waiting, Claim.entry, Entry.settles, same]
    · have other : claim.entry.settles key = false := by simpa [Claim.entry, Entry.settles] using same
      rw [List.map_cons, List.cons_append, lastClaim_skip other, waiting_skip other rfl]
      rcases ih with ⟨found, inside, rest⟩ | ⟨none, rest⟩
      · exact Or.inl ⟨found, List.mem_cons_of_mem _ inside, rest⟩
      · refine Or.inr ⟨?_, rest⟩
        intro found member
        rcases List.mem_cons.mp member with rfl | inside
        · exact same
        · exact none found inside

theorem claim_keeps (kept : Kept s) (limit now : Int) : Kept (step s (.claim limit now)) := by
  have marks := claimDue_marks s.store limit now
  have chosen : ∀ row ∈ (claimDuePendingRuns s.store limit now).2, row ∈ s.store.pendingRuns := by
    intro row member
    have sorted := List.mem_of_mem_take member
    rw [List.mem_insertionSort] at sorted
    exact (List.mem_filter.mp sorted).1
  rcases claimed : claimDuePendingRuns s.store limit now with ⟨store, rows⟩
  rw [claimed] at marks chosen
  simp only [step, claimed]
  have keys := keys_of_marks marks
  have taken : ∀ made ∈ numbered s.next rows, ∃ row ∈ s.store.pendingRuns, row.key = made.key ∧ row.generation = made.generation := by
    intro made member
    obtain ⟨_, _, row, found, same⟩ := mem_numbered member
    exact ⟨row, chosen row (List.mem_of_getElem? found), same⟩
  have recorded : ∀ {key claim generation}, .claimed key claim generation ∈ (numbered s.next rows).map Claim.entry ++ s.history →
      (⟨claim, key, generation⟩ : Claim) ∈ numbered s.next rows ∨ .claimed key claim generation ∈ s.history := by
    intro key claim generation member
    rcases List.mem_append.mp member with new | old
    · obtain ⟨made, inside, same⟩ := List.mem_map.mp new
      cases same
      exact Or.inl inside
    · exact Or.inr old
  refine ⟨keys ▸ kept.distinct, ?_, ?_, ?_, ?_, ?_⟩
  · intro row member claim generation last
    obtain ⟨old, present, key, number⟩ := mem_of_marks marks member
    rw [← key, ← number]
    rw [← key] at last
    rcases lastClaim_claims old.key (numbered s.next rows) s.history with ⟨made, inside, own, newest, quiet⟩ | ⟨_, same, waits⟩
    · rw [newest] at last
      cases last
      obtain ⟨source, listed, sameKey, sameGeneration⟩ := taken made inside
      have equal : source = old := Rows.eq_of_key_eq kept.distinct listed present (sameKey.trans own)
      rw [quiet, ← sameGeneration, equal]
      exact ⟨le_rfl, by simp⟩
    · rw [same] at last
      rw [waits]
      exact kept.counted old present claim generation last
  · intro key missing
    rw [keys] at missing
    rcases lastClaim_claims key (numbered s.next rows) s.history with ⟨made, inside, own, _⟩ | ⟨_, same, _⟩
    · obtain ⟨source, listed, sameKey, _⟩ := taken made inside
      exact absurd (own ▸ sameKey ▸ List.mem_map_of_mem listed) missing
    · rw [same]
      exact kept.absent key missing
  · intro key claim generation member
    rcases recorded member with new | old
    · exact (mem_numbered new).2.1
    · exact (kept.issued key claim generation old).trans_le (Nat.le_add_right _ _)
  · intro made member
    rcases List.mem_append.mp member with old | new
    · obtain ⟨low, same⟩ := kept.known made old
      refine ⟨low.trans_le (Nat.le_add_right _ _), ?_⟩
      intro key generation entry
      rcases recorded entry with fresh | before
      · have high := (mem_numbered fresh).1
        dsimp only at high
        omega
      · exact same key generation before
    · obtain ⟨low, high, row, found, sameKey, sameGeneration⟩ := mem_numbered new
      refine ⟨high, ?_⟩
      intro key generation entry
      rcases recorded entry with fresh | before
      · obtain ⟨_, _, other, also, otherKey, otherGeneration⟩ := mem_numbered fresh
        cases found.symm.trans also
        exact ⟨otherKey.symm.trans sameKey, otherGeneration.symm.trans sameGeneration⟩
      · have old := kept.issued key made.number generation before
        omega
  · induction numbered s.next rows with
    | nil => exact kept.good
    | cons made rest ih => exact good_cons ih trivial

theorem find_claim {number : Nat} {claim : Claim} (found : (s.claims.find? fun claim => claim.number == number) = some claim) :
    claim ∈ s.claims ∧ claim.number = number :=
  ⟨List.mem_of_find?_eq_some found, by simpa using List.find?_some found⟩

/-- The last claim of a row, when it is the one that finishes, has the generation that the finish compares. -/
theorem Kept.generation_of_last (kept : Kept s) {claim : Claim} (made : claim ∈ s.claims)
    (last : (lastClaim claim.key s.history).map Prod.fst = some claim.number) :
    lastClaim claim.key s.history = some (claim.number, claim.generation) := by
  obtain ⟨⟨number, generation⟩, found, same⟩ := Option.map_eq_some_iff.mp last
  obtain rfl : number = claim.number := same
  obtain ⟨_, equal⟩ := (kept.known claim made).2 claim.key generation (mem_of_lastClaim found)
  rw [found, equal]

theorem finish_keeps (kept : Kept s) {number : Nat} {staleRequeue now : Int}
    (fenced : Fenced s (.finish number staleRequeue now)) : Kept (step s (.finish number staleRequeue now)) := by
  simp only [step]
  split
  · exact kept
  rename_i claim found
  obtain ⟨made, own⟩ := find_claim found
  have claims : ∀ other ∈ s.claims.filter fun other => other.number != number, other ∈ s.claims :=
    fun other member => (List.mem_filter.mp member).1
  have fence := fenced claim found
  rw [← own] at fence
  unfold finishPendingRun
  split
  · exact kept.of_marks rfl claims rfl (fun _ => rfl) (fun _ => rfl) (fun _ _ _ recorded => recorded) kept.good
  · rename_i row present
    have last := kept.generation_of_last made (fence.resolve_left (by simp [present]))
    split
    · refine kept.of_marks (change_marks _ _ (by intro; rfl)) claims rfl (fun key => lastClaim_skip rfl)
        (fun key => waiting_skip rfl rfl) ?_ (good_cons kept.good (own_of_lastClaim last))
      intro key other generation recorded
      exact (List.mem_cons.mp recorded).resolve_left (by simp)
    · rename_i current
      obtain ⟨inside, key⟩ := pendingRun_mem present
      have quiet : waiting claim.key s.history = false := by
        by_contra waits
        have counted := kept.counted row inside claim.number claim.generation (key ▸ last)
        exact current (counted.2 (by rw [key]; simpa using waits))
      refine kept.of_gone rfl claims rfl rfl ?_ ?_
        (good_cons kept.good ⟨own_of_lastClaim last, served_of_not_waiting quiet⟩)
      · simp [finishEntries, Entry.claim?, Entry.queues]
      · intro other _ removed
        have same : other.key = claim.key := by simpa using removed
        exact ⟨_, List.mem_singleton_self _, by simp [Entry.settles, same]⟩

theorem delete_keeps (kept : Kept s) (customerId workflowId : String) (expectedRevision : Option Nat) :
    Kept (step s (.delete customerId workflowId expectedRevision)) := by
  simp only [step]
  split
  · rename_i store deleted
    have rows : store.pendingRuns = s.store.pendingRuns.filter fun row => row.key.1 != Text.strip workflowId := by
      unfold deleteWorkflowRecords at deleted
      dsimp only at deleted
      split at deleted
      · cases deleted
      · split at deleted
        · cases deleted
        · split at deleted
          · cases deleted
          · cases deleted
            rfl
    refine kept.of_gone rows (fun _ member => member) rfl rfl ?_ ?_ ?_
    · intro entry member
      obtain ⟨row, _, rfl⟩ := List.mem_map.mp member
      exact ⟨rfl, fun _ => rfl⟩
    · intro row present dropped
      refine ⟨.dropped row.key, List.mem_map_of_mem (List.mem_filter.mpr ⟨present, by simpa using dropped⟩), ?_⟩
      simp [Entry.settles]
    · simp only [dropEntries]
      induction s.store.pendingRuns.filter fun row => row.key.1 == Text.strip workflowId with
      | nil => exact kept.good
      | cons row rows ih => exact good_cons ih trivial
  · exact kept
  · exact kept

theorem step_keeps (kept : Kept s) {op : Op} (fenced : Fenced s op) : Kept (step s op) := by
  cases op with
  | queue call now => exact queue_keeps kept call now
  | claim limit now => exact claim_keeps kept limit now
  | finish number staleRequeue now => exact finish_keeps kept fenced
  | recover now => exact kept.of_store (Rows.map_update mark (by intros; rfl) s.store.pendingRuns)
  | delete customerId workflowId expectedRevision => exact delete_keeps kept customerId workflowId expectedRevision
  | write workflow now =>
    simp only [step]
    split
    · exact kept.of_store rfl
    · exact kept

/-- A finish that finds a row leaves an entry that only its own claim allows. -/
theorem fenced_of_good {op : Op} (good : Good (step s op).history) : Fenced s op := by
  cases op with
  | finish number staleRequeue now =>
    intro claim found
    obtain ⟨_, own⟩ := find_claim found
    simp only [step, Option.mem_def.mp found] at good
    unfold finishPendingRun at good
    split at good
    · rename_i missing
      exact Or.inl missing
    · refine Or.inr (own ▸ ?_)
      split at good
      · exact lastClaim_of_own (good [] _ _ rfl)
      · exact lastClaim_of_own (good [] _ _ rfl).1
  | queue _ _ | claim _ _ | recover _ | delete _ _ _ | write _ _ => trivial

end Steps

theorem kept_start : Kept .start := by
  refine ⟨List.nodup_nil, ?_, fun _ _ => rfl, ?_, ?_, ?_⟩
  · simp [System.start, IntakeStore.empty]
  · simp [System.start]
  · simp [System.start]
  · intro newer entry older split
    simp [System.start] at split

def sampleWorkflow : Workflow := ⟨"w1", "c1", "telegram", []⟩

def sampleCall : QueueCall := ⟨"w1", "c1", "chat", "message", 0, "", ""⟩

def sampleKey : PendingKey := ("w1", "chat")

/-- The workflow is deleted while its run is in progress, written again, and another event is queued. -/
def deletedMeanwhile : List Op :=
  [.write sampleWorkflow 0, .queue sampleCall 0, .claim 10 0, .delete "c1" "w1" none, .write sampleWorkflow 1,
    .queue sampleCall 1, .finish 0 0 2]

/-- The run is given back by a recovery, claimed by a second worker, and another event is queued. -/
def recoveredMeanwhile : List Op :=
  [.queue sampleCall 0, .claim 10 0, .recover 1, .claim 10 1, .queue sampleCall 2, .finish 0 0 3]

theorem deletedMeanwhile_history : (Run.exec step .start deletedMeanwhile).history =
    [.removed sampleKey 0, .queued sampleKey 1, .dropped sampleKey, .claimed sampleKey 0 1, .queued sampleKey 1] := by
  decide +kernel

theorem recoveredMeanwhile_history : (Run.exec step .start recoveredMeanwhile).history =
    [.requeued sampleKey 0, .queued sampleKey 2, .claimed sampleKey 1 1, .claimed sampleKey 0 1, .queued sampleKey 1] := by
  decide +kernel

end OpenTulpa.Intake.QueuedEvents
