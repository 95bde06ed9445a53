import OpenTulpa.Specs.Executions

/-! Any number of workers on one store of trigger executions. Their successful calls are kept
in a log, newest first, and the tables of every reachable state are what the log says. -/

namespace OpenTulpa.Specs.ExecutionFencing

open Library Outcome Executions

/-- A call that succeeded. -/
inductive Event (Snapshot : Type) where
  | leased (key : ExecutionKey) (token : Nat)
  | finished (key : ExecutionKey) (token : Nat) (status : TerminalStatus)
      (delivery : Option (Snapshot × DeliveryMode))
  | handedOut (id token : Nat)
  | delivered (id token : Nat)
  | retried (id token : Nat)

/-- The calls a worker makes, with any token it holds or makes up. -/
inductive Op (Snapshot : Type) where
  | claim (key : ExecutionKey) (lease now : Nat)
  | finish (key : ExecutionKey) (token : Nat) (status : TerminalStatus) (runId : Option String)
      (delivery : Option (Snapshot × DeliveryMode)) (now : Nat)
  | claimDeliveries (lease limit now : Nat)
  | completeDelivery (id token now : Nat)
  | retryDelivery (id token now : Nat)

/-- `nextToken` numbers the answers of `uuid4`, which never repeats one. -/
structure World (Snapshot : Type) where
  store : TriggerExecutionStore
  nextToken : Nat
  log : List (Event Snapshot)

section World

variable {Snapshot : Type}

def World.start : World Snapshot := ⟨.empty, 0, []⟩

/-- The most recent lease of an execution. -/
def latestLease (key : ExecutionKey) : List (Event Snapshot) → Option Nat
  | [] => none
  | .leased other token :: earlier => if other = key then some token else latestLease key earlier
  | _ :: earlier => latestLease key earlier

structure Finish (Snapshot : Type) where
  status : TerminalStatus
  delivery : Option (Snapshot × DeliveryMode)

/-- The call of `finish` that returned true for the key. -/
def finishOf (key : ExecutionKey) : List (Event Snapshot) → Option (Finish Snapshot)
  | [] => none
  | .finished other _ status delivery :: earlier =>
    if other = key then some ⟨status, delivery⟩ else finishOf key earlier
  | _ :: earlier => finishOf key earlier

def isDelivered (id : Nat) : List (Event Snapshot) → Bool
  | [] => false
  | .delivered other _ :: earlier => other == id || isDelivered id earlier
  | _ :: earlier => isDelivered id earlier

/-- The tokens handed out so far. -/
def tokens : List (Event Snapshot) → List Nat
  | [] => []
  | .leased _ token :: earlier => token :: tokens earlier
  | .handedOut _ token :: earlier => token :: tokens earlier
  | _ :: earlier => tokens earlier

/-- What a call that succeeds finds in the calls before it. -/
def Permitted (earlier : List (Event Snapshot)) : Event Snapshot → Prop
  | .leased key token => finishOf key earlier = none ∧ token ∉ tokens earlier
  | .finished key token _ _ => finishOf key earlier = none ∧ latestLease key earlier = some token
  | .handedOut id token => isDelivered id earlier = false ∧ token ∉ tokens earlier
  | .delivered id _ => isDelivered id earlier = false
  | .retried id _ => isDelivered id earlier = false

def Ordered : List (Event Snapshot) → Prop
  | [] => True
  | event :: earlier => Permitted earlier event ∧ Ordered earlier

end World

section Step

variable {Snapshot : Type} (serialize : Snapshot → Except String String)
  (deserialize : String → Except String Snapshot)

def handOuts (claimed : List (ClaimedDelivery Snapshot)) : List (Event Snapshot) :=
  claimed.map fun delivery => .handedOut delivery.id delivery.leaseToken

def step (world : World Snapshot) : Op Snapshot → World Snapshot
  | .claim key lease now =>
    match claim world.store key lease now world.nextToken with
    | .ok (store, some token) => ⟨store, world.nextToken + 1, .leased key token :: world.log⟩
    | .ok (store, none) => ⟨store, world.nextToken + 1, world.log⟩
    | .error _ => world
  | .finish key token status runId delivery now =>
    match finish serialize world.store key token status runId delivery now with
    | .ok (store, true) => { world with store := store, log := .finished key token status delivery :: world.log }
    | .ok (store, false) => { world with store := store }
    | .error _ => world
  | .claimDeliveries lease limit now =>
    match claimDeliveries deserialize world.store lease limit now world.nextToken with
    | .ok (store, claimed) =>
      ⟨store, world.nextToken + world.store.outbox.length, (handOuts claimed).reverse ++ world.log⟩
    | .error _ => world
  | .completeDelivery id token now =>
    match completeDelivery world.store id token now with
    | (store, true) => { world with store := store, log := .delivered id token :: world.log }
    | (store, false) => { world with store := store }
  | .retryDelivery id token now =>
    match retryDelivery world.store id token now with
    | (store, true) => { world with store := store, log := .retried id token :: world.log }
    | (store, false) => { world with store := store }

end Step

/-- What the row of an execution must be, given its latest lease and its end. -/
inductive Tells {Snapshot : Type} : Option TriggerExecution → Option Nat → Option (Finish Snapshot) → Prop where
  | unknown : Tells none none none
  | running {row : TriggerExecution} {token : Nat} (status : row.status = .running)
      (lease : row.leaseToken = some token) : Tells (some row) (some token) none
  | ended {row : TriggerExecution} {token : Nat} {finish : Finish Snapshot}
      (status : row.status = finish.status.status) : Tells (some row) (some token) (some finish)

/-- What the outbox must hold for an execution, given its end. -/
inductive Holds {Snapshot : Type} (serialize : Snapshot → Except String String) :
    Option OutboxRow → Option (Finish Snapshot) → Prop where
  | unfinished : Holds serialize none none
  | silent {status : TerminalStatus} : Holds serialize none (some ⟨status, none⟩)
  | kept {row : OutboxRow} {status : TerminalStatus} {snapshot : Snapshot}
      (written : serialize snapshot = .ok row.snapshotJson) :
      Holds serialize (some row) (some ⟨status, some (snapshot, row.mode)⟩)

/-- A delivery that is under way is leased. -/
def Leased (row : OutboxRow) : Prop := row.status = .delivering → row.leaseToken.isSome

section Matches

variable {Snapshot : Type} (serialize : Snapshot → Except String String)

structure Matches (world : World Snapshot) : Prop where
  keyed : (world.store.executions.map TriggerExecution.key).Nodup
  rows : ∀ key, Tells (world.store.execution key) (latestLease key world.log) (finishOf key world.log)
  outboxKeyed : (world.store.outbox.map OutboxRow.key).Nodup
  outboxIds : (world.store.outbox.map OutboxRow.id).Nodup
  numbered : ∀ row ∈ world.store.outbox, row.id < world.store.nextId
  deliveries : ∀ key, Holds serialize (world.store.outbox.find? fun row => row.key == key) (finishOf key world.log)
  flags : ∀ row ∈ world.store.outbox, row.status = .delivered ↔ isDelivered row.id world.log = true
  leased : ∀ row ∈ world.store.outbox, Leased row
  known : ∀ id, isDelivered id world.log = true → id < world.store.nextId
  fresh : ∀ token ∈ tokens world.log, token < world.nextToken
  ordered : Ordered world.log

variable {serialize} {world : World Snapshot}

theorem start_matches : Matches serialize World.start where
  keyed := List.nodup_nil
  rows := fun _ => .unknown
  outboxKeyed := List.nodup_nil
  outboxIds := List.nodup_nil
  numbered := by
    intro row member
    cases member
  deliveries := fun _ => .unfinished
  flags := by
    intro row member
    cases member
  leased := by
    intro row member
    cases member
  known := by
    intro id delivered
    cases delivered
  fresh := by
    intro token member
    cases member
  ordered := trivial

/-- The row of a key after a conditional update of that key. -/
theorem find_update_key (executions : List TriggerExecution) (key other : ExecutionKey)
    (condition : TriggerExecution → Bool) (change : TriggerExecution → TriggerExecution)
    (kept : ∀ row, (change row).key = row.key) :
    (Rows.update (fun row => row.key == key && condition row) change executions).find? (fun row => row.key == other) =
      if other = key then
        (executions.find? fun row => row.key == key).map fun row => if condition row then change row else row
      else executions.find? fun row => row.key == other := by
  rw [Rows.find_update _ _ _ _ fun row _ => by rw [kept]]
  by_cases same : other = key
  · subst same
    rw [if_pos rfl]
    cases found : executions.find? fun row => row.key == other with
    | none => rfl
    | some row =>
      have named : row.key = other := by simpa using List.find?_some found
      simp [named]
  · rw [if_neg same]
    cases found : executions.find? fun row => row.key == other with
    | none => rfl
    | some row =>
      have named : row.key = other := by simpa using List.find?_some found
      simp [named, same]

theorem map_update_key (executions : List TriggerExecution) (key : ExecutionKey)
    (condition : TriggerExecution → Bool) (change : TriggerExecution → TriggerExecution)
    (kept : ∀ row, (change row).key = row.key) :
    (Rows.update (fun row => row.key == key && condition row) change executions).map TriggerExecution.key =
      executions.map TriggerExecution.key :=
  Rows.map_update TriggerExecution.key (fun row _ => kept row) executions

/-- A new lease of an execution that has not ended. -/
theorem Matches.lease (matching : Matches serialize world) {key : ExecutionKey} {executions : List TriggerExecution}
    {row : TriggerExecution} (keyed : (executions.map TriggerExecution.key).Nodup)
    (found : ∀ other, executions.find? (fun row => row.key == other) =
      if other = key then some row else world.store.execution other)
    (running : row.status = .running) (lease : row.leaseToken = some world.nextToken)
    (unfinished : finishOf key world.log = none) :
    Matches serialize ⟨{ world.store with executions := executions }, world.nextToken + 1,
      .leased key world.nextToken :: world.log⟩ where
  keyed := keyed
  rows := by
    intro other
    change Tells (executions.find? fun row => row.key == other) _ (finishOf other world.log)
    rw [found]
    by_cases same : other = key
    · subst same
      rw [if_pos rfl, unfinished]
      simp only [latestLease, if_true]
      exact .running running lease
    · simp only [latestLease, if_neg same, if_neg (Ne.symm same)]
      exact matching.rows other
  outboxKeyed := matching.outboxKeyed
  outboxIds := matching.outboxIds
  numbered := matching.numbered
  deliveries := matching.deliveries
  flags := matching.flags
  leased := matching.leased
  known := matching.known
  fresh := by
    intro token member
    rcases List.mem_cons.mp member with rfl | old
    · exact Nat.lt_succ_self _
    · exact Nat.lt_succ_of_lt (matching.fresh token old)
  ordered := ⟨⟨unfinished, fun member => Nat.lt_irrefl _ (matching.fresh _ member)⟩, matching.ordered⟩

/-- Executions whose rows are found as before. -/
theorem Matches.unmoved (matching : Matches serialize world) {executions : List TriggerExecution} {nextToken : Nat}
    (keyed : (executions.map TriggerExecution.key).Nodup)
    (found : ∀ other, executions.find? (fun row => row.key == other) = world.store.execution other)
    (later : world.nextToken ≤ nextToken) :
    Matches serialize ⟨{ world.store with executions := executions }, nextToken, world.log⟩ where
  keyed := keyed
  rows := by
    intro other
    change Tells (executions.find? fun row => row.key == other) _ _
    rw [found]
    exact matching.rows other
  outboxKeyed := matching.outboxKeyed
  outboxIds := matching.outboxIds
  numbered := matching.numbered
  deliveries := matching.deliveries
  flags := matching.flags
  leased := matching.leased
  known := matching.known
  fresh := fun token member => Nat.lt_of_lt_of_le (matching.fresh token member) later
  ordered := matching.ordered

theorem Tells.vacant {lease : Option Nat} {finish : Option (Finish Snapshot)} (told : Tells none lease finish) :
    finish = none := by
  cases told
  rfl

theorem TerminalStatus.status_ne_running (status : TerminalStatus) : status.status ≠ .running := by
  cases status <;> decide

theorem Tells.live {row : TriggerExecution} {lease : Option Nat} {finish : Option (Finish Snapshot)}
    (told : Tells (some row) lease finish) (running : row.status = .running) :
    finish = none ∧ lease = row.leaseToken := by
  cases told with
  | running status token => exact ⟨rfl, token.symm⟩
  | @ended _ _ finish status => exact absurd (status.symm.trans running) (TerminalStatus.status_ne_running _)

/-- How a claim ends that does not raise. -/
inductive Claimed (store : TriggerExecutionStore) (key : ExecutionKey) (token : Nat) :
    TriggerExecutionStore → Option Nat → Prop where
  | granted {executions : List TriggerExecution} (row : TriggerExecution)
      (keyed : (executions.map TriggerExecution.key).Nodup)
      (found : ∀ other, executions.find? (fun row => row.key == other) =
        if other = key then some row else store.execution other)
      (running : row.status = .running) (lease : row.leaseToken = some token)
      (open_ : ∀ old, store.execution key = some old → old.status = .running) :
      Claimed store key token { store with executions := executions } (some token)
  | refused {executions : List TriggerExecution} (keyed : (executions.map TriggerExecution.key).Nodup)
      (found : ∀ other, executions.find? (fun row => row.key == other) = store.execution other) :
      Claimed store key token { store with executions := executions } none

theorem claim_claimed {store stored : TriggerExecutionStore} {key : ExecutionKey} {lease now token : Nat}
    {answer : Option Nat} (keyed : (store.executions.map TriggerExecution.key).Nodup)
    (done : claim store key lease now token = .ok (stored, answer)) : Claimed store key token stored answer := by
  unfold claim at done
  split at done
  · cases done
  cases found : store.execution key with
  | none =>
    simp only [found, Except.ok.injEq, Prod.mk.injEq] at done
    obtain ⟨rfl, rfl⟩ := done
    refine .granted ⟨key, .running, none, 1, some token, some (now + lease), now⟩ ?_ ?_ rfl rfl ?_
    · rw [List.map_append, List.map_singleton, List.nodup_append]
      refine ⟨keyed, List.nodup_singleton _, ?_⟩
      rintro other member _ new rfl
      rw [List.mem_singleton] at new
      obtain ⟨row, inside, same⟩ := List.mem_map.mp member
      exact List.find?_eq_none.mp found row inside (by rw [same, new]; exact beq_self_eq_true _)
    · intro other
      rw [List.find?_append]
      by_cases same : other = key
      · subst same
        change (store.execution other).or _ = _
        simp [found]
      · have apart : key ≠ other := Ne.symm same
        simp [same, apart]
        rfl
    · intro old present
      cases found.symm.trans present
  | some row =>
    simp only [found, Except.ok.injEq, Prod.mk.injEq] at done
    obtain ⟨rfl, rfl⟩ := done
    have kept : ∀ other, (reclaimed token (now + lease) now other).key = other.key := fun _ => rfl
    have distinct : ((Rows.update (fun row => row.key == key && reclaimable now row)
        (reclaimed token (now + lease) now) store.executions).map TriggerExecution.key).Nodup := by
      rw [map_update_key _ _ _ _ kept]
      exact keyed
    have lookup : ∀ other, _ := fun other =>
      find_update_key store.executions key other (reclaimable now) (reclaimed token (now + lease) now) kept
    have own : store.executions.find? (fun row => row.key == key) = some row := found
    rw [Rows.countP_key keyed key (reclaimable now), own]
    by_cases free : reclaimable now row = true
    · simp only [Option.any_some, free, if_true]
      refine .granted (reclaimed token (now + lease) now row) distinct (fun other => ?_) ?_ rfl ?_
      · rw [lookup, own]
        simp [free]
        rfl
      · simp only [reclaimable, Bool.and_eq_true, beq_iff_eq] at free
        exact free.1
      · rintro old present
        cases found.symm.trans present
        simp only [reclaimable, Bool.and_eq_true, beq_iff_eq] at free
        exact free.1
    · simp only [Option.any_some, free, Bool.false_eq_true, if_false, Nat.zero_ne_one]
      refine .refused distinct fun other => ?_
      rw [lookup, own]
      by_cases same : other = key
      · rw [if_pos same, same, found]
        simp [free]
      · rw [if_neg same]
        rfl

theorem claim_matches (matching : Matches serialize world) (deserialize : String → Except String Snapshot)
    (key : ExecutionKey) (lease now : Nat) :
    Matches serialize (step serialize deserialize world (.claim key lease now)) := by
  simp only [step]
  cases done : claim world.store key lease now world.nextToken with
  | error error => exact matching
  | ok pair =>
    obtain ⟨stored, answer⟩ := pair
    cases claim_claimed matching.keyed done with
    | refused keyed found => exact matching.unmoved keyed found (Nat.le_succ _)
    | granted row keyed found running lease live =>
      refine matching.lease keyed found running lease ?_
      have told := matching.rows key
      cases present : world.store.execution key with
      | none =>
        rw [present] at told
        exact told.vacant
      | some old =>
        rw [present] at told
        exact (told.live (live old present)).1

/-- How a finish ends that does not raise. -/
inductive Ended {Snapshot : Type} (serialize : Snapshot → Except String String) (store : TriggerExecutionStore)
    (key : ExecutionKey) (token : Nat) (status : TerminalStatus) (delivery : Option (Snapshot × DeliveryMode)) :
    TriggerExecutionStore → Bool → Prop where
  | silent {executions : List TriggerExecution} {old row : TriggerExecution} (passed : delivery = none)
      (keyed : (executions.map TriggerExecution.key).Nodup)
      (found : ∀ other, executions.find? (fun row => row.key == other) =
        if other = key then some row else store.execution other)
      (ended : row.status = status.status) (own : store.execution key = some old) (running : old.status = .running)
      (lease : old.leaseToken = some token) :
      Ended serialize store key token status delivery { store with executions := executions } true
  | delivering {executions : List TriggerExecution} {old row : TriggerExecution} {snapshot : Snapshot} {entry : OutboxRow}
      (passed : delivery = some (snapshot, entry.mode)) (written : serialize snapshot = .ok entry.snapshotJson)
      (keyed : (executions.map TriggerExecution.key).Nodup)
      (found : ∀ other, executions.find? (fun row => row.key == other) =
        if other = key then some row else store.execution other)
      (ended : row.status = status.status) (own : store.execution key = some old) (running : old.status = .running)
      (lease : old.leaseToken = some token) (id : entry.id = store.nextId) (named : entry.key = key)
      (pending : entry.status = .pending) (absent : ∀ row ∈ store.outbox, row.key ≠ key) :
      Ended serialize store key token status delivery
        ⟨executions, store.outbox ++ [entry], store.nextId + 1⟩ true
  | refused {executions : List TriggerExecution} (keyed : (executions.map TriggerExecution.key).Nodup)
      (found : ∀ other, executions.find? (fun row => row.key == other) = store.execution other) :
      Ended serialize store key token status delivery { store with executions := executions } false

theorem finish_ended {store stored : TriggerExecutionStore} {key : ExecutionKey} {token now : Nat}
    {status : TerminalStatus} {runId : Option String} {delivery : Option (Snapshot × DeliveryMode)} {answer : Bool}
    (keyed : (store.executions.map TriggerExecution.key).Nodup)
    (done : finish serialize store key token status runId delivery now = .ok (stored, answer)) :
    Ended serialize store key token status delivery stored answer := by
  unfold finish at done
  obtain ⟨payload, prepared, done⟩ := bind_eq_ok done
  simp only at done
  have kept : ∀ other, (finished status runId now other).key = other.key := fun _ => rfl
  have distinct : ((Rows.update (fun row => row.key == key && (row.status == .running && row.leaseToken == some token))
      (finished status runId now) store.executions).map TriggerExecution.key).Nodup := by
    rw [map_update_key _ _ _ _ kept]
    exact keyed
  have lookup : ∀ other, _ := fun other => find_update_key store.executions key other
    (fun row => row.status == .running && row.leaseToken == some token) (finished status runId now) kept
  rw [Rows.countP_key keyed key] at done
  change (if (if (store.execution key).any (fun row => row.status == .running && row.leaseToken == some token) = true
    then 1 else 0) = 1 then _ else _) = _ at done
  by_cases held : (store.execution key).any (fun row => row.status == .running && row.leaseToken == some token) = true
  · obtain ⟨old, own, owned⟩ : ∃ old, store.execution key = some old ∧
        (old.status == .running && old.leaseToken == some token) = true := by
      cases own : store.execution key with
      | none => simp [own] at held
      | some old => exact ⟨old, rfl, by simpa [own] using held⟩
    have here : store.executions.find? (fun row => row.key == key) = some old := own
    have found : ∀ other, (Rows.update (fun row => row.key == key && (row.status == .running && row.leaseToken == some token))
        (finished status runId now) store.executions).find? (fun row => row.key == other) =
          if other = key then some (finished status runId now old) else store.execution other := by
      intro other
      rw [lookup, here, Option.map_some, if_pos owned]
      rfl
    simp only [Bool.and_eq_true, beq_iff_eq] at owned
    simp only [held, if_true] at done
    cases payload with
    | none =>
      cases done
      refine .silent ?_ distinct found rfl own owned.1 owned.2
      cases delivery with
      | none => rfl
      | some pair =>
        obtain ⟨snapshot, mode⟩ := pair
        simp only [deliveryPayload] at prepared
        split at prepared <;> cases prepared
    | some payload =>
      obtain ⟨text, mode⟩ := payload
      simp only at done
      split at done
      · cases done
      · rename_i absent
        cases done
        cases delivery with
        | none => cases prepared
        | some pair =>
          obtain ⟨snapshot, chosen⟩ := pair
          simp only [deliveryPayload] at prepared
          split at prepared
          · rename_i written
            cases prepared
            refine .delivering rfl written distinct found rfl own owned.1 owned.2 rfl rfl rfl ?_
            intro row member same
            exact absent (List.any_eq_true.mpr ⟨row, member, by simp [same]⟩)
          · cases prepared
  · simp only [held, Bool.false_eq_true, if_false, Nat.zero_ne_one] at done
    cases done
    refine .refused distinct fun other => ?_
    rw [lookup]
    by_cases same : other = key
    · subst same
      rw [if_pos rfl]
      cases own : store.execution other with
      | none =>
        have here : store.executions.find? (fun row => row.key == other) = none := own
        rw [here]
        rfl
      | some old =>
        have here : store.executions.find? (fun row => row.key == other) = some old := own
        rw [own] at held
        simp only [Option.any_some] at held
        rw [here, Option.map_some, if_neg held]
    · rw [if_neg same]
      rfl

theorem finishOf_cons_finished (key other : ExecutionKey) (token : Nat) (status : TerminalStatus)
    (delivery : Option (Snapshot × DeliveryMode)) (log : List (Event Snapshot)) :
    finishOf other (.finished key token status delivery :: log) =
      if key = other then some ⟨status, delivery⟩ else finishOf other log := rfl

theorem finish_matches (matching : Matches serialize world) (deserialize : String → Except String Snapshot)
    (key : ExecutionKey) (token : Nat) (status : TerminalStatus) (runId : Option String)
    (delivery : Option (Snapshot × DeliveryMode)) (now : Nat) :
    Matches serialize (step serialize deserialize world (.finish key token status runId delivery now)) := by
  simp only [step]
  -- an execution that the token holds has not ended, and so nothing was delivered for it
  have begun : ∀ {old}, world.store.execution key = some old → old.status = .running → old.leaseToken = some token →
      finishOf key world.log = none ∧ latestLease key world.log = some token := by
    intro old own running lease
    have told := matching.rows key
    rw [own] at told
    obtain ⟨unfinished, latest⟩ := told.live running
    exact ⟨unfinished, latest.trans lease⟩
  have ends : ∀ {executions : List TriggerExecution} {row : TriggerExecution}, row.status = status.status →
      latestLease key world.log = some token → (∀ other, executions.find? (fun row => row.key == other) =
        if other = key then some row else world.store.execution other) →
      ∀ other, Tells (executions.find? fun row => row.key == other)
        (latestLease other (.finished key token status delivery :: world.log))
        (finishOf other (.finished key token status delivery :: world.log)) := by
    intro executions row ended latest found other
    rw [found, finishOf_cons_finished]
    by_cases same : other = key
    · subst same
      rw [if_pos rfl, if_pos rfl]
      change Tells _ (latestLease other world.log) _
      rw [latest]
      exact .ended ended
    · rw [if_neg same, if_neg (Ne.symm same)]
      exact matching.rows other
  cases done : finish serialize world.store key token status runId delivery now with
  | error error => exact matching
  | ok pair =>
    obtain ⟨stored, answer⟩ := pair
    cases finish_ended matching.keyed done with
    | refused keyed found => exact matching.unmoved keyed found (Nat.le_refl _)
    | silent passed keyed found ended own running lease =>
      obtain ⟨unfinished, latest⟩ := begun own running lease
      refine ⟨keyed, ends ended latest found, matching.outboxKeyed, matching.outboxIds, matching.numbered,
        fun other => ?_, matching.flags, matching.leased, matching.known, matching.fresh,
        ⟨⟨unfinished, latest⟩, matching.ordered⟩⟩
      rw [finishOf_cons_finished]
      by_cases same : key = other
      · subst same
        have before := matching.deliveries key
        rw [unfinished] at before
        rw [if_pos rfl, passed]
        generalize world.store.outbox.find? (fun row => row.key == key) = entry at before ⊢
        cases before
        exact .silent
      · rw [if_neg same]
        exact matching.deliveries other
    | delivering passed written keyed found ended own running lease id named pending absent =>
      obtain ⟨unfinished, latest⟩ := begun own running lease
      rename_i executions old row snapshot entry
      refine ⟨keyed, ends ended latest found, ?_, ?_, ?_, fun other => ?_, ?_, ?_, ?_, matching.fresh,
        ⟨⟨unfinished, latest⟩, matching.ordered⟩⟩
      · rw [List.map_append, List.map_singleton, List.nodup_append]
        refine ⟨matching.outboxKeyed, List.nodup_singleton _, ?_⟩
        rintro other member _ new rfl
        obtain ⟨row, inside, same⟩ := List.mem_map.mp member
        exact absent row inside (same.trans ((List.mem_singleton.mp new).trans named))
      · rw [List.map_append, List.map_singleton, List.nodup_append]
        refine ⟨matching.outboxIds, List.nodup_singleton _, ?_⟩
        rintro other member _ new rfl
        obtain ⟨row, inside, same⟩ := List.mem_map.mp member
        have below := matching.numbered row inside
        rw [same, List.mem_singleton.mp new, id] at below
        exact Nat.lt_irrefl _ below
      · intro row member
        rcases List.mem_append.mp member with old | new
        · exact Nat.lt_succ_of_lt (matching.numbered row old)
        · rw [List.mem_singleton.mp new, id]
          exact Nat.lt_succ_self _
      · rw [finishOf_cons_finished]
        change Holds serialize ((world.store.outbox ++ [entry]).find? fun row => row.key == other) _
        rw [List.find?_append]
        by_cases same : key = other
        · subst same
          have missing : world.store.outbox.find? (fun row => row.key == key) = none := by
            rw [List.find?_eq_none]
            intro row member equal
            exact absent row member (beq_iff_eq.mp equal)
          rw [missing, if_pos rfl, passed]
          simp only [List.find?_singleton, named, beq_self_eq_true, if_true, Option.none_or]
          exact .kept written
        · have apart : entry.key ≠ other := by
            rw [named]
            exact same
          rw [if_neg same]
          simp only [List.find?_singleton, beq_iff_eq, apart, if_false, Option.or_none]
          exact matching.deliveries other
      · intro row member
        rcases List.mem_append.mp member with old | new
        · exact matching.flags row old
        · rw [List.mem_singleton.mp new, pending, id]
          refine ⟨(fun other => by cases other), fun delivered => ?_⟩
          exact absurd (matching.known _ delivered) (Nat.lt_irrefl _)
      · intro row member
        rcases List.mem_append.mp member with old | new
        · exact matching.leased row old
        · rw [List.mem_singleton.mp new]
          intro delivering
          rw [pending] at delivering
          cases delivering
      · exact fun other delivered => Nat.lt_succ_of_lt (matching.known other delivered)

/-- The same delivery, with another lease or status. -/
structure Kept (before after : OutboxRow) : Prop where
  id : after.id = before.id
  key : after.key = before.key
  mode : after.mode = before.mode
  snapshot : after.snapshotJson = before.snapshotJson
  leased : Leased before → Leased after

/-- A delivery changes its lease, and is delivered after it if and only if it was before. -/
structure Progress (before after : OutboxRow) : Prop extends Kept before after where
  delivered : after.status = .delivered ↔ before.status = .delivered

theorem Progress.refl (row : OutboxRow) : Progress row row := ⟨⟨rfl, rfl, rfl, rfl, fun leased => leased⟩, Iff.rfl⟩

theorem Progress.trans {first second third : OutboxRow} (left : Progress first second) (right : Progress second third) :
    Progress first third :=
  ⟨⟨right.id.trans left.id, right.key.trans left.key, right.mode.trans left.mode, right.snapshot.trans left.snapshot,
    fun leased => right.leased (left.leased leased)⟩, right.delivered.trans left.delivered⟩

theorem Holds.kept_row {row after : OutboxRow} {finish : Option (Finish Snapshot)}
    (holds : Holds serialize (some row) finish) (kept : Kept row after) : Holds serialize (some after) finish := by
  cases holds with
  | kept written =>
    rw [← kept.mode]
    exact .kept (by rw [kept.snapshot]; exact written)

/-- The outbox after its rows have changed their leases or their status. -/
theorem Matches.relet (matching : Matches serialize world) {change : OutboxRow → OutboxRow} {nextToken : Nat}
    {log : List (Event Snapshot)} (kept : ∀ row, Kept row (change row))
    (leases : ∀ key, latestLease key log = latestLease key world.log)
    (finishes : ∀ key, finishOf key log = finishOf key world.log)
    (flags : ∀ row ∈ world.store.outbox, (change row).status = .delivered ↔ isDelivered row.id log = true)
    (known : ∀ id, isDelivered id log = true → id < world.store.nextId)
    (fresh : ∀ token ∈ tokens log, token < nextToken) (ordered : Ordered log) :
    Matches serialize ⟨{ world.store with outbox := world.store.outbox.map change }, nextToken, log⟩ where
  keyed := matching.keyed
  rows := by
    intro key
    rw [leases, finishes]
    exact matching.rows key
  outboxKeyed := by
    have same : (world.store.outbox.map change).map OutboxRow.key = world.store.outbox.map OutboxRow.key := by
      rw [List.map_map]
      exact List.map_congr_left fun row _ => (kept row).key
    rw [same]
    exact matching.outboxKeyed
  outboxIds := by
    have same : (world.store.outbox.map change).map OutboxRow.id = world.store.outbox.map OutboxRow.id := by
      rw [List.map_map]
      exact List.map_congr_left fun row _ => (kept row).id
    rw [same]
    exact matching.outboxIds
  numbered := by
    intro row member
    obtain ⟨old, inside, rfl⟩ := List.mem_map.mp member
    rw [(kept old).id]
    exact matching.numbered old inside
  deliveries := by
    intro key
    have found : (world.store.outbox.map change).find? (fun row => row.key == key) =
        (world.store.outbox.find? fun row => row.key == key).map change := by
      rw [List.find?_map]
      congr 2
      funext row
      rw [Function.comp_apply, (kept row).key]
    rw [found, finishes]
    have before := matching.deliveries key
    cases here : world.store.outbox.find? fun row => row.key == key with
    | none =>
      rw [here] at before
      exact before
    | some row =>
      rw [here] at before
      exact before.kept_row (kept row)
  flags := by
    intro row member
    obtain ⟨old, inside, rfl⟩ := List.mem_map.mp member
    rw [(kept old).id]
    exact flags old inside
  leased := by
    intro row member
    obtain ⟨old, inside, rfl⟩ := List.mem_map.mp member
    exact (kept old).leased (matching.leased old inside)
  known := known
  fresh := fresh
  ordered := ordered

/-- New leases alone. -/
theorem Matches.progress (matching : Matches serialize world) {change : OutboxRow → OutboxRow} {nextToken : Nat}
    {log : List (Event Snapshot)} (progress : ∀ row, Progress row (change row))
    (leases : ∀ key, latestLease key log = latestLease key world.log)
    (finishes : ∀ key, finishOf key log = finishOf key world.log)
    (deliveries : ∀ id, isDelivered id log = isDelivered id world.log)
    (fresh : ∀ token ∈ tokens log, token < nextToken) (ordered : Ordered log) :
    Matches serialize ⟨{ world.store with outbox := world.store.outbox.map change }, nextToken, log⟩ := by
  refine matching.relet (fun row => (progress row).toKept) leases finishes ?_ ?_ fresh ordered
  · intro row member
    rw [(progress row).delivered, deliveries]
    exact matching.flags row member
  · intro id delivered
    rw [deliveries] at delivered
    exact matching.known id delivered

/-- The tokens of claimed deliveries are drawn one after the other. -/
def Numbered : Nat → List (ClaimedDelivery Snapshot) → Prop
  | _, [] => True
  | token, delivery :: claimed => token ≤ delivery.leaseToken ∧ Numbered (delivery.leaseToken + 1) claimed

theorem Numbered.later {first second : Nat} {claimed : List (ClaimedDelivery Snapshot)} (after : second ≤ first)
    (numbered : Numbered first claimed) : Numbered second claimed := by
  cases claimed with
  | nil => trivial
  | cons delivery claimed => exact ⟨after.trans numbered.1, numbered.2⟩

theorem handedOut_progress (token expires now : Nat) (row : OutboxRow) (open_ : row.status ≠ .delivered) :
    Progress row (handedOut token expires now row) :=
  ⟨⟨rfl, rfl, rfl, rfl, fun _ _ => rfl⟩, ⟨(fun other => by cases other), fun delivered => absurd delivered open_⟩⟩

theorem due_open {now : Nat} {row : OutboxRow} (ready : due now row = true) : row.status ≠ .delivered := by
  intro delivered
  simp [due, delivered] at ready

/-- What the loop over the selected rows does to the outbox, and which deliveries it answers. -/
theorem claimRows_spec {deserialize : String → Except String Snapshot} {expires now : Nat} (rows : List OutboxRow) :
    ∀ (token : Nat) (outbox final : List OutboxRow) (claimed : List (ClaimedDelivery Snapshot)),
      claimRows deserialize expires now rows token outbox = .ok (final, claimed) →
        (∃ change, final = outbox.map change ∧ ∀ row, Progress row (change row)) ∧ Numbered token claimed ∧
          ∀ delivery ∈ claimed, delivery.leaseToken < token + rows.length ∧
            ∃ row ∈ outbox, row.id = delivery.id ∧ row.status ≠ .delivered := by
  induction rows with
  | nil =>
    intro token outbox final claimed done
    cases done
    exact ⟨⟨fun row => row, (List.map_id' _).symm, .refl⟩, trivial, fun _ member => by cases member⟩
  | cons row rows ih =>
    intro token outbox final claimed done
    simp only [claimRows] at done
    have updated : ∀ other, Progress other
        (if other.id == row.id && due now other then handedOut token expires now other else other) := by
      intro other
      split
      · rename_i chosen
        simp only [Bool.and_eq_true] at chosen
        exact handedOut_progress token expires now other (due_open chosen.2)
      · exact .refl other
    -- a row of the updated outbox is a row of the outbox with another lease
    have back : ∀ {delivery : ClaimedDelivery Snapshot}, (∃ row' ∈ Rows.update (fun other => other.id == row.id && due now other)
        (handedOut token expires now) outbox, row'.id = delivery.id ∧ row'.status ≠ .delivered) →
        ∃ row ∈ outbox, row.id = delivery.id ∧ row.status ≠ .delivered := by
      rintro delivery ⟨changed, member, same, open_⟩
      obtain ⟨other, inside, rfl⟩ := List.mem_map.mp member
      exact ⟨other, inside, (updated other).id.symm.trans same, fun delivered => open_ ((updated other).delivered.mpr delivered)⟩
    split at done
    · obtain ⟨⟨change, rfl, progress⟩, numbered, from_⟩ := ih _ _ _ _ done
      refine ⟨⟨_, List.map_map, fun other => (updated other).trans (progress _)⟩, numbered.later (Nat.le_succ _), ?_⟩
      intro delivery member
      obtain ⟨below, there⟩ := from_ delivery member
      exact ⟨by simp only [List.length_cons]; omega, back there⟩
    · rename_i one
      split at done
      · cases done
      · rename_i snapshot read
        obtain ⟨⟨after, rest⟩, later, done⟩ := bind_eq_ok done
        cases done
        obtain ⟨⟨change, rfl, progress⟩, numbered, from_⟩ := ih _ _ _ _ later
        refine ⟨⟨_, List.map_map, fun other => (updated other).trans (progress _)⟩,
          ⟨Nat.le_refl _, numbered⟩, ?_⟩
        intro delivery member
        rcases List.mem_cons.mp member with rfl | member
        · have some : 0 < outbox.countP fun other => other.id == row.id && due now other := by omega
          obtain ⟨other, inside, chosen⟩ := List.countP_pos_iff.mp some
          simp only [Bool.and_eq_true, beq_iff_eq] at chosen
          exact ⟨by simp only [List.length_cons]; omega, other, inside, chosen.1, due_open chosen.2⟩
        · obtain ⟨below, there⟩ := from_ delivery member
          exact ⟨by simp only [List.length_cons]; omega, back there⟩

/-- Deliveries handed out one after the other, each of them not delivered before. -/
structure HandedOut (log after : List (Event Snapshot)) (bound : Nat) : Prop where
  leases : ∀ key, latestLease key after = latestLease key log
  finishes : ∀ key, finishOf key after = finishOf key log
  deliveries : ∀ id, isDelivered id after = isDelivered id log
  fresh : ∀ token ∈ tokens after, token < bound
  ordered : Ordered after

theorem handOuts_handedOut (claimed : List (ClaimedDelivery Snapshot)) :
    ∀ (token bound : Nat) (log : List (Event Snapshot)), Numbered token claimed → token ≤ bound →
      (∀ delivery ∈ claimed, delivery.leaseToken < bound ∧ isDelivered delivery.id log = false) →
      (∀ used ∈ tokens log, used < token) → Ordered log →
      HandedOut log ((handOuts claimed).reverse ++ log) bound := by
  induction claimed with
  | nil =>
    intro token bound log _ below _ used ordered
    exact ⟨fun _ => rfl, fun _ => rfl, fun _ => rfl, fun other member => Nat.lt_of_lt_of_le (used other member) below,
      ordered⟩
  | cons delivery claimed ih =>
    intro token bound log numbered below from_ used ordered
    obtain ⟨inside, open_⟩ := from_ delivery (List.mem_cons_self ..)
    have next := ih (delivery.leaseToken + 1) bound (.handedOut delivery.id delivery.leaseToken :: log) numbered.2 inside
      (fun other member => from_ other (List.mem_cons_of_mem _ member)) ?_ ?_
    · have same : (handOuts (delivery :: claimed)).reverse ++ log =
          (handOuts claimed).reverse ++ .handedOut delivery.id delivery.leaseToken :: log := by
        simp [handOuts]
      rw [same]
      exact ⟨next.leases, next.finishes, next.deliveries, next.fresh, next.ordered⟩
    · intro other member
      rcases List.mem_cons.mp member with rfl | old
      · exact Nat.lt_succ_self _
      · exact Nat.lt_succ_of_lt (Nat.lt_of_lt_of_le (used other old) numbered.1)
    · exact ⟨⟨open_, fun member => Nat.lt_irrefl _ (Nat.lt_of_lt_of_le (used _ member) numbered.1)⟩, ordered⟩

theorem claimDeliveries_matches (matching : Matches serialize world) (deserialize : String → Except String Snapshot)
    (lease limit now : Nat) :
    Matches serialize (step serialize deserialize world (.claimDeliveries lease limit now)) := by
  simp only [step]
  cases done : claimDeliveries deserialize world.store lease limit now world.nextToken with
  | error error => exact matching
  | ok pair =>
    obtain ⟨stored, claimed⟩ := pair
    unfold claimDeliveries at done
    split at done
    · cases done
    split at done
    · cases done
    obtain ⟨⟨outbox, answered⟩, looped, done⟩ := bind_eq_ok done
    cases done
    obtain ⟨⟨change, rfl, progress⟩, numbered, from_⟩ := claimRows_spec _ _ _ _ _ looped
    have selected : ((world.store.outbox.filter (due now)).take limit).length ≤ world.store.outbox.length :=
      (List.length_take_le' ..).trans (List.length_filter_le ..)
    have handed := handOuts_handedOut claimed world.nextToken (world.nextToken + world.store.outbox.length) world.log
      numbered (Nat.le_add_right ..) ?_ matching.fresh matching.ordered
    · exact matching.progress progress handed.leases handed.finishes handed.deliveries handed.fresh handed.ordered
    · intro delivery member
      obtain ⟨below, row, inside, same, open_⟩ := from_ delivery member
      refine ⟨by omega, ?_⟩
      rw [← same]
      cases delivered : isDelivered row.id world.log with
      | false => rfl
      | true => exact absurd ((matching.flags row inside).mpr delivered) open_

theorem retryDelivery_matches (matching : Matches serialize world) (deserialize : String → Except String Snapshot)
    (id token now : Nat) :
    Matches serialize (step serialize deserialize world (.retryDelivery id token now)) := by
  have progress : ∀ row, Progress row
      (if row.id == id && held token row then released .pending now row else row) := by
    intro row
    split
    · rename_i chosen
      simp only [held, Bool.and_eq_true, beq_iff_eq] at chosen
      refine ⟨⟨rfl, rfl, rfl, rfl, fun _ other => by cases other⟩, (fun other => by cases other), fun delivered => ?_⟩
      rw [chosen.2.1] at delivered
      cases delivered
    · exact .refl row
  simp only [step, retryDelivery, releaseDelivery]
  cases answer : (world.store.outbox.countP fun row => row.id == id && held token row) == 1 with
  | false =>
    exact matching.progress progress (fun _ => rfl) (fun _ => rfl) (fun _ => rfl) matching.fresh matching.ordered
  | true =>
    refine matching.progress progress (fun _ => rfl) (fun _ => rfl) (fun _ => rfl) matching.fresh ⟨?_, matching.ordered⟩
    have some : 0 < world.store.outbox.countP fun row => row.id == id && held token row := by
      rw [beq_iff_eq.mp answer]
      exact Nat.one_pos
    obtain ⟨row, inside, chosen⟩ := List.countP_pos_iff.mp some
    simp only [held, Bool.and_eq_true, beq_iff_eq] at chosen
    change isDelivered id world.log = false
    rw [← chosen.1]
    cases delivered : isDelivered row.id world.log with
    | false => rfl
    | true =>
      have final := (matching.flags row inside).mpr delivered
      rw [chosen.2.1] at final
      cases final

/-- A delivery that its token still holds has not been delivered. -/
theorem Matches.open_of_held (matching : Matches serialize world) {id token : Nat} {row : OutboxRow}
    (found : world.store.outboxRow id = some row) (holds : held token row = true) :
    row.id = id ∧ isDelivered id world.log = false := by
  have named : row.id = id := by simpa using List.find?_some found
  refine ⟨named, ?_⟩
  rw [← named]
  cases delivered : isDelivered row.id world.log with
  | false => rfl
  | true =>
    have final := (matching.flags row (List.mem_of_find?_eq_some found)).mpr delivered
    simp [held, final] at holds

theorem completeDelivery_matches (matching : Matches serialize world) (deserialize : String → Except String Snapshot)
    (id token now : Nat) :
    Matches serialize (step serialize deserialize world (.completeDelivery id token now)) := by
  have kept : ∀ row, Kept row (if row.id == id && held token row then released .delivered now row else row) := by
    intro row
    split
    · exact ⟨rfl, rfl, rfl, rfl, fun _ other => by cases other⟩
    · exact (Progress.refl row).toKept
  have count : (world.store.outbox.countP fun row => row.id == id && held token row) =
      if (world.store.outboxRow id).any (held token) = true then 1 else 0 :=
    Rows.countP_key matching.outboxIds id (held token)
  simp only [step, completeDelivery, releaseDelivery]
  rw [count]
  by_cases holds : (world.store.outboxRow id).any (held token) = true
  · obtain ⟨row, found, owns⟩ : ∃ row, world.store.outboxRow id = some row ∧ held token row = true := by
      cases found : world.store.outboxRow id with
      | none => simp [found] at holds
      | some row => exact ⟨row, rfl, by simpa [found] using holds⟩
    obtain ⟨named, open_⟩ := matching.open_of_held found owns
    have inside := List.mem_of_find?_eq_some found
    simp only [holds, if_true]
    refine matching.relet kept (fun _ => rfl) (fun _ => rfl) ?_ ?_ matching.fresh ⟨open_, matching.ordered⟩
    · intro other member
      have before := matching.flags other member
      by_cases same : other.id = id
      · obtain rfl : other = row := Rows.eq_of_key_eq matching.outboxIds member inside (same.trans named.symm)
        simp [same, owns, released, isDelivered]
      · have apart : id ≠ other.id := Ne.symm same
        simpa [same, apart, isDelivered] using before
    · intro other delivered
      simp only [isDelivered, Bool.or_eq_true, beq_iff_eq] at delivered
      rcases delivered with rfl | before
      · rw [← named]
        exact matching.numbered row inside
      · exact matching.known other before
  · have unchosen : ∀ row ∈ world.store.outbox, (row.id == id && held token row) = false := by
      intro row member
      by_contra chosen
      simp only [Bool.not_eq_false, Bool.and_eq_true, beq_iff_eq] at chosen
      have found : world.store.outboxRow id = some row := by
        rw [← chosen.1]
        exact Rows.find_of_mem matching.outboxIds member
      rw [found] at holds
      exact holds chosen.2
    simp only [holds, Bool.false_eq_true, if_false]
    rw [Rows.update_of_none unchosen]
    exact matching

theorem step_matches (deserialize : String → Except String Snapshot) (world : World Snapshot) (op : Op Snapshot)
    (matching : Matches serialize world) : Matches serialize (step serialize deserialize world op) := by
  cases op with
  | claim key lease now => exact claim_matches matching deserialize key lease now
  | finish key token status runId delivery now =>
    exact finish_matches matching deserialize key token status runId delivery now
  | claimDeliveries lease limit now => exact claimDeliveries_matches matching deserialize lease limit now
  | completeDelivery id token now => exact completeDelivery_matches matching deserialize id token now
  | retryDelivery id token now => exact retryDelivery_matches matching deserialize id token now

end Matches

/-- Whatever the workers do: the successful calls are in order (one finish for an execution, by the
holder of its latest lease; one completion of a delivery, and no lease of it afterwards), and the
tables hold exactly what they did. -/
theorem trigger_executions_fenced {Snapshot : Type} (serialize : Snapshot → Except String String)
    (deserialize : String → Except String Snapshot) (ops : List (Op Snapshot)) :
    let world := Run.exec (step serialize deserialize) .start ops
    Ordered world.log ∧
      (world.store.outbox.map OutboxRow.key).Nodup ∧
      (∀ key finish, finishOf key world.log = some finish →
        (∃ row, world.store.execution key = some row ∧ row.status = finish.status.status) ∧
          ∀ snapshot mode, finish.delivery = some (snapshot, mode) →
            ∃ row ∈ world.store.outbox, row.key = key ∧ row.mode = mode ∧
              serialize snapshot = .ok row.snapshotJson) ∧
      ∀ row ∈ world.store.outbox,
        (∃ status snapshot, finishOf row.key world.log = some ⟨status, some (snapshot, row.mode)⟩ ∧
          serialize snapshot = .ok row.snapshotJson) ∧
        ((row.status = .delivered ∧ isDelivered row.id world.log = true) ∨
          (isDelivered row.id world.log = false ∧
            (row.status = .pending ∨ (row.status = .delivering ∧ row.leaseToken.isSome)))) := by
  intro world
  have matching : Matches serialize world :=
    Run.exec_invariant (step_matches deserialize) start_matches ops
  refine ⟨matching.ordered, matching.outboxKeyed, ?_, ?_⟩
  · intro key finish ended
    have told := matching.rows key
    have holds := matching.deliveries key
    rw [ended] at told holds
    refine ⟨?_, ?_⟩
    · generalize world.store.execution key = row at told
      generalize latestLease key world.log = lease at told
      cases told with
      | ended status => exact ⟨_, rfl, status⟩
    · intro snapshot mode passed
      cases found : world.store.outbox.find? fun row => row.key == key with
      | none =>
        rw [found] at holds
        cases holds with
        | silent => cases passed
      | some row =>
        rw [found] at holds
        cases holds with
        | kept written =>
          cases passed
          exact ⟨row, List.mem_of_find?_eq_some found, by simpa using List.find?_some found, rfl, written⟩
  · intro row member
    have holds := matching.deliveries row.key
    rw [Rows.find_of_mem matching.outboxKeyed member] at holds
    refine ⟨?_, ?_⟩
    · generalize finishOf row.key world.log = finish at holds
      cases holds with
      | kept written => exact ⟨_, _, rfl, written⟩
    · have flag := matching.flags row member
      have leased := matching.leased row member
      cases status : row.status with
      | delivered => exact Or.inl ⟨rfl, flag.mp status⟩
      | pending =>
        refine Or.inr ⟨?_, Or.inl rfl⟩
        rw [status] at flag
        simpa using flag
      | delivering =>
        refine Or.inr ⟨?_, Or.inr ⟨rfl, leased status⟩⟩
        rw [status] at flag
        simpa using flag

end OpenTulpa.Specs.ExecutionFencing
