import OpenTulpa.Library.Run
import OpenTulpa.Notifications.Store
import OpenTulpa.Telegram.StateFile

/-! The delivery of owner notifications by the Telegram worker, between its awaits: pending acknowledgements are sent
first, then the rows behind the cursor are fetched, and each is sent with its approvals, marked and acknowledged. Other
tasks of the worker, other consumers and the writers of notifications act at every await. -/

namespace OpenTulpa.Telegram.Notifications

open Library Text WorkerState OpenTulpa.Notifications.Store

section Model

/-- The identity under which the worker calls the Agent API. -/
structure Principal where
  tenantId : String
  consumerId : String
  tenant : identity tenantId "tenant_id" 200 = .ok tenantId
  consumer : identity consumerId "consumer_id" 300 = .ok consumerId

/-- A message that reached its chat. -/
inductive Message where
  | notification (chatId : Int) (id : Nat) (text : String)
  | approval (chatId : Int) (runId approvalId : String)
  deriving DecidableEq

/-- The await at which `_deliver_notifications` stands, with its variables: the paired identity, and what is left of
the acknowledgements, of the fetched notifications and of the approvals. -/
inductive Stage where
  | idle
  | flushing (paired : Nat × Int) (pending : List Nat)
  | sending (paired : Nat × Int) (left : List OwnerNotification)
  | approving (paired : Nat × Int) (notification : OwnerNotification) (approvals : List NotificationApproval)
      (rest : List OwnerNotification)
  | presenting (paired : Nat × Int) (notification : OwnerNotification) (token : String) (record : Approval)
      (approvals : List NotificationApproval) (rest : List OwnerNotification)
  | acknowledging (paired : Nat × Int) (notification : OwnerNotification) (rest : List OwnerNotification)

/-- The store, the state of the worker in memory and in its file, the tokens drawn so far, those of the approvals that
other tasks have sent, the stage of the delivery, and the messages that reached a chat. -/
structure System where
  db : NotificationStore
  memory : TelegramWorkerState
  file : TelegramWorkerState
  drawn : List String
  shown : List String
  stage : Stage
  log : List Message

def System.start : System := ⟨.empty, defaultState, defaultState, [], [], .idle, []⟩

/-- A call returns, or fails after or before it has had its effect. -/
inductive Call where
  | returned
  | failed (reached : Bool)
  deriving DecidableEq

def Call.reaches : Call → Bool
  | .returned => true
  | .failed reached => reached

inductive Op where
  | append (tenantId dedupeKey : String) (payload : NotificationWrite) (createdAt : Int)
  | acknowledge (tenantId consumerId : String) (id : Nat) (ackedAt : Int)
  | other (operation : StateFile.Operation) (fails : Bool)
  | present (token : String)
  | deliver (call : Call) (fails : Bool) (token : String) (now : Int)
  | stop
  | restart

end Model

section Delivery

/-- The text that is sent. -/
def sentText (notification : OwnerNotification) : String := String.ofList (notification.text.toList.take 50000)

/-- The run of the approvals. -/
def approvalRun (notification : OwnerNotification) : String := strip (notification.runId.getD "")

def decisionOf : ApprovalDecision → Decision
  | .approve => .approve
  | .edit => .edit
  | .reject => .reject

/-- An operation on the state of the worker, whose write may fail, and whether it returned. -/
def System.write (s : System) (result : Result Unit) (fails : Bool) : System × Bool :=
  match result with
  | .raises _ => (s, false)
  | .returns _ => (s, true)
  | .writes state _ => if fails then ({ s with memory := state }, false) else ({ s with memory := state, file := state }, true)

/-- The delivery goes on where an operation returned, and ends where it raised. -/
def System.then (next : Stage) (result : System × Bool) : System :=
  { result.1 with stage := if result.2 then next else .idle }

def System.send (s : System) (message : Message) (call : Call) : System :=
  if call.reaches then { s with log := s.log ++ [message] } else s

variable (who : Principal)

/-- `acknowledge_notification`, and whether it returned. -/
def System.acknowledge (s : System) (id : Nat) (call : Call) (now : Int) : System × Bool :=
  if call.reaches then
    match s.db.acknowledge who.tenantId who.consumerId id now with
    | .ok (stored, _) => ({ s with db := stored }, call == .returned)
    | .error _ => (s, false)
  else (s, false)

/-- An acknowledgement and its mark. -/
def System.acknowledgeAndMark (s : System) (id : Nat) (call : Call) (fails : Bool) (now : Int) (next : Stage) : System :=
  match s.acknowledge who id call now with
  | (acked, true) => System.then next (acked.write (acked.memory.markNotificationAcknowledged id) fails)
  | (acked, false) => { acked with stage := .idle }

/-- The record that `_record_notification_approval` saves. -/
def approvalRecord (paired : Nat × Int) (notification : OwnerNotification) (approval : NotificationApproval) : Approval where
  runId := approvalRun notification
  approvalId := approval.approvalId
  chatId := paired.2
  userId := paired.1
  allowedDecisions := approval.allowedDecisions.map decisionOf
  toolName := String.ofList (approval.toolName.toList.take 120)
  description := String.ofList (approval.description.toList.take 1500)
  delivered := false

/-- The start of `_deliver_approval`: an approval that is gone or delivered is passed over. -/
def System.present (s : System) (paired : Nat × Int) (notification : OwnerNotification) (token : String)
    (approvals : List NotificationApproval) (rest : List OwnerNotification) : System :=
  match (Dict.get s.memory.approvals token).filter fun record => !record.delivered with
  | none => { s with stage := .approving paired notification approvals rest }
  | some record => { s with stage := .presenting paired notification token record approvals rest }

/-- `_record_notification_approval` and the start of `_deliver_approval`. A drawn token is new. -/
def System.approve (s : System) (paired : Nat × Int) (notification : OwnerNotification) (approval : NotificationApproval)
    (approvals : List NotificationApproval) (rest : List OwnerNotification) (fails : Bool) (token : String) : System :=
  if (approvalRun notification).isEmpty then { s with stage := .idle }
  else
    match s.memory.findApproval (approvalRun notification) approval.approvalId with
    | some (existing, _) => s.present paired notification existing approvals rest
    | none =>
      if s.drawn.contains token then s
      else
        let drawn := { s with drawn := token :: s.drawn }
        match drawn.write (s.memory.saveApproval token (approvalRecord paired notification approval)) fails with
        | (saved, true) => saved.present paired notification token approvals rest
        | (saved, false) => { saved with stage := .idle }

/-- `_deliver_notifications` up to its next await. -/
def System.deliver (s : System) (call : Call) (fails : Bool) (token : String) (now : Int) : System :=
  match s.stage with
  | .idle =>
    match s.memory.paired with
    | none => s
    | some paired =>
      { s with stage := .flushing paired ((s.memory.pendingNotificationAcks.dedup).insertionSort (· ≤ ·)) }
  | .flushing paired [] =>
    match call, s.db.listUnacked who.tenantId who.consumerId s.memory.notificationCursor 100 with
    | .returned, .ok rows => { s with stage := .sending paired rows }
    | _, _ => { s with stage := .idle }
  | .flushing paired (id :: pending) => s.acknowledgeAndMark who id call fails now (.flushing paired pending)
  | .sending _ [] => { s with stage := .idle }
  | .sending paired (notification :: rest) =>
    { s.send (.notification paired.2 notification.id (sentText notification)) call with
      stage := if call = .returned then .approving paired notification notification.approvals rest else .idle }
  | .approving paired notification [] rest =>
    System.then (.acknowledging paired notification rest)
      (s.write (s.memory.markNotificationDelivered notification.id) fails)
  | .approving paired notification (approval :: approvals) rest =>
    s.approve paired notification approval approvals rest fails token
  | .presenting paired notification token record approvals rest =>
    let sent := s.send (.approval record.chatId record.runId record.approvalId) call
    if call = .returned then
      System.then (.approving paired notification approvals rest)
        (sent.write (sent.memory.markApprovalDelivered token) fails)
    else { sent with stage := .idle }
  | .acknowledging paired notification rest => s.acknowledgeAndMark who notification.id call fails now (.sending paired rest)

end Delivery

section Steps

/-- What other tasks may do: tokens are new when they are drawn, and an approval is marked once it was sent. -/
def System.allows (s : System) : StateFile.Operation → Bool
  | .markNotificationDelivered _ | .markNotificationAcknowledged _ => false
  | .saveApproval token _ => !s.drawn.contains token
  | .markApprovalDelivered token => s.shown.contains token
  | _ => true

def draws : StateFile.Operation → List String
  | .saveApproval token _ => [token]
  | _ => []

variable (who : Principal) (hash : NotificationWrite → String) (maxSeen : Nat)

def step (s : System) : Op → System
  | .append tenantId dedupeKey payload createdAt =>
    match s.db.append hash tenantId dedupeKey payload createdAt with
    | .ok (stored, _, _) => { s with db := stored }
    | .error _ => s
  | .acknowledge tenantId consumerId id ackedAt =>
    if strip tenantId = who.tenantId ∧ strip consumerId = who.consumerId then s
    else
      match s.db.acknowledge tenantId consumerId id ackedAt with
      | .ok (stored, _) => { s with db := stored }
      | .error _ => s
  | .other operation fails =>
    if s.allows operation then
      ({ s with drawn := draws operation ++ s.drawn }.write (StateFile.change maxSeen s.memory operation) fails).1
    else s
  | .present token =>
    match (Dict.get s.memory.approvals token).filter fun record => !record.delivered with
    | none => s
    | some record =>
      { s with
        shown := token :: s.shown
        log := s.log ++ [.approval record.chatId record.runId record.approvalId] }
  | .deliver call fails token now => s.deliver who call fails token now
  | .stop => { s with stage := .idle }
  | .restart =>
    match StateFile.read (some s.file) with
    | .ok state => { s with memory := state, shown := [], stage := .idle }
    | .error _ => { s with stage := .idle }

end Steps

section Facts

variable (who : Principal)

/-- The identifiers of the notifications that were sent. -/
def sentIds (log : List Message) : List Nat :=
  log.filterMap fun message =>
    match message with
    | .notification _ id _ => some id
    | .approval .. => none

def Presented (log : List Message) (runId approvalId : String) : Prop :=
  ∃ chatId, Message.approval chatId runId approvalId ∈ log

/-- A notification was sent, and so was each of its approvals. -/
structure Delivered (row : OwnerNotification) (log : List Message) : Prop where
  text : ∃ chatId, Message.notification chatId row.id (sentText row) ∈ log
  approvals : ∀ approval ∈ row.approvals, Presented log (approvalRun row) approval.approvalId

def Owned (db : NotificationStore) (row : OwnerNotification) : Prop :=
  row ∈ db.notifications ∧ row.tenantId = who.tenantId

def Acked (db : NotificationStore) (id : Nat) : Prop := db.acked who.tenantId who.consumerId id = true

def Arrived (db : NotificationStore) (log : List Message) (id : Nat) : Prop :=
  ∃ row, Owned who db row ∧ row.id = id ∧ Delivered row log

/-- What a state of the worker, in memory or in the file, says of the notifications and approvals. -/
structure Known (db : NotificationStore) (log : List Message) (drawn : List String) (m : TelegramWorkerState) : Prop where
  bounded : m.notificationCursor ≤ db.sequence
  covered : ∀ row, Owned who db row → row.id ≤ m.notificationCursor →
    Acked who db row.id ∨ row.id ∈ m.pendingNotificationAcks
  pending : ∀ id ∈ m.pendingNotificationAcks, Arrived who db log id
  approvals : ∀ token approval, Dict.get m.approvals token = some approval →
    token ∈ drawn ∧ (approval.delivered = true → Presented log approval.runId approval.approvalId)
  ordered : Dict.Ordered m.approvals

/-- Fetched rows that are still to be acknowledged. Every row of the tenant before one of them is acknowledged or one
of them. -/
structure Queue (db : NotificationStore) (rows : List OwnerNotification) : Prop where
  increasing : rows.Pairwise fun first second => first.id < second.id
  owned : ∀ row ∈ rows, Owned who db row
  unacked : ∀ row ∈ rows, ¬ Acked who db row.id
  before : ∀ row, Owned who db row → ∀ last ∈ rows, row.id < last.id → Acked who db row.id ∨ row ∈ rows

def Behind (cursor : Nat) (rows : List OwnerNotification) : Prop := ∀ row ∈ rows, cursor < row.id

/-- The approvals that have been gone through have been sent. -/
def Through (log : List Message) (notification : OwnerNotification) (left : List NotificationApproval) : Prop :=
  ∃ done, notification.approvals = done ++ left ∧
    ∀ approval ∈ done, Presented log (approvalRun notification) approval.approvalId

structure AtNotification (s : System) (paired : Nat × Int) (notification : OwnerNotification)
    (left : List NotificationApproval) (rest : List OwnerNotification) : Prop where
  identity : s.memory.paired = some paired
  queue : Queue who s.db (notification :: rest)
  behind : Behind s.memory.notificationCursor (notification :: rest)
  sent : ∃ chatId, Message.notification chatId notification.id (sentText notification) ∈ s.log
  through : Through s.log notification left

/-- What holds at each stage. -/
def AtStage (s : System) : Stage → Prop
  | .idle => True
  | .flushing paired pending =>
    s.memory.paired = some paired ∧ (∀ id ∈ s.memory.pendingNotificationAcks, id ∈ pending) ∧
      ∀ id ∈ pending, Arrived who s.db s.log id
  | .sending paired left =>
    s.memory.paired = some paired ∧ Queue who s.db left ∧ Behind s.memory.notificationCursor left
  | .approving paired notification approvals rest => AtNotification who s paired notification approvals rest
  | .presenting paired notification token record approvals rest =>
    token ∈ s.drawn ∧ (∀ stored, Dict.get s.memory.approvals token = some stored →
      stored.runId = record.runId ∧ stored.approvalId = record.approvalId) ∧
    ∃ approval, record.runId = approvalRun notification ∧ record.approvalId = approval.approvalId ∧
      AtNotification who s paired notification (approval :: approvals) rest
  | .acknowledging paired notification rest =>
    s.memory.paired = some paired ∧ Queue who s.db (notification :: rest) ∧
      Behind s.memory.notificationCursor rest ∧ Arrived who s.db s.log notification.id

/-- What holds at every time. -/
structure Sound (s : System) : Prop where
  numbered : s.db.Numbered
  memory : Known who s.db s.log s.drawn s.memory
  file : Known who s.db s.log s.drawn s.file
  ahead : s.file.notificationCursor ≤ s.memory.notificationCursor
  acked : ∀ id, Acked who s.db id → Arrived who s.db s.log id
  sent : ∀ id ∈ sentIds s.log, id ≤ s.db.sequence ∧ ∀ row, Owned who s.db row → row.id < id → Acked who s.db row.id
  ordered : (sentIds s.log).Pairwise (· ≤ ·)
  shown : ∀ token ∈ s.shown, token ∈ s.drawn ∧ ∀ approval, Dict.get s.memory.approvals token = some approval →
    Presented s.log approval.runId approval.approvalId

theorem sound_start : Sound who System.start where
  numbered := numbered_empty
  memory := ⟨le_rfl, by rintro _ ⟨⟨⟩, _⟩, by rintro _ ⟨⟩, by rintro _ _ ⟨⟩, List.Pairwise.nil⟩
  file := ⟨le_rfl, by rintro _ ⟨⟨⟩, _⟩, by rintro _ ⟨⟩, by rintro _ _ ⟨⟩, List.Pairwise.nil⟩
  ahead := le_rfl
  acked := by rintro _ ⟨⟩
  sent := by rintro _ ⟨⟩
  ordered := List.Pairwise.nil
  shown := by rintro _ ⟨⟩

end Facts

section Growth

variable {who : Principal} {db stored : NotificationStore} {log : List Message} {drawn : List String}
  {m : TelegramWorkerState} {id : Nat} {row : OwnerNotification}

theorem Presented.append {runId approvalId : String} (presented : Presented log runId approvalId) (more : List Message) :
    Presented (log ++ more) runId approvalId :=
  presented.imp fun _ member => List.mem_append_left _ member

theorem Delivered.append (delivered : Delivered row log) (more : List Message) : Delivered row (log ++ more) where
  text := delivered.text.imp fun _ member => List.mem_append_left _ member
  approvals := fun approval member => (delivered.approvals approval member).append more

theorem Arrived.append (arrived : Arrived who db log id) (more : List Message) : Arrived who db (log ++ more) id :=
  arrived.imp fun _ ⟨owned, same, delivered⟩ => ⟨owned, same, delivered.append more⟩

theorem Owned.extends (owned : Owned who db row) (grows : Extends db stored) : Owned who stored row :=
  ⟨grows.rows row owned.1, owned.2⟩

theorem Arrived.extends (arrived : Arrived who db log id) (grows : Extends db stored) : Arrived who stored log id :=
  arrived.imp fun _ ⟨owned, rest⟩ => ⟨owned.extends grows, rest⟩

/-- A row up to the largest identifier was there before. -/
theorem Owned.earlier (owned : Owned who stored row) (grows : Extends db stored) (old : row.id ≤ db.sequence) :
    Owned who db row := by
  rcases grows.later row owned.1 with here | later
  · exact ⟨here, owned.2⟩
  · omega

theorem Known.append (known : Known who db log drawn m) (more : List Message) : Known who db (log ++ more) drawn m where
  bounded := known.bounded
  covered := known.covered
  pending := fun id member => (known.pending id member).append more
  approvals := fun token approval found =>
    ⟨(known.approvals token approval found).1, fun flag => ((known.approvals token approval found).2 flag).append more⟩
  ordered := known.ordered

theorem Known.extends (known : Known who db log drawn m) (grows : Extends db stored) : Known who stored log drawn m where
  bounded := known.bounded.trans grows.sequence
  covered := by
    intro row owned old
    have earlier := owned.earlier grows (old.trans known.bounded)
    exact (known.covered row earlier old).imp_left grows.acked
  pending := fun id member => (known.pending id member).extends grows
  approvals := known.approvals
  ordered := known.ordered

theorem Known.draw (known : Known who db log drawn m) (more : List String) : Known who db log (more ++ drawn) m where
  bounded := known.bounded
  covered := known.covered
  pending := known.pending
  approvals := fun token approval found =>
    ⟨List.mem_append_right _ (known.approvals token approval found).1, (known.approvals token approval found).2⟩
  ordered := known.ordered

/-- The rest of the fetched rows is not touched by what is acknowledged elsewhere. -/
theorem Queue.extends {rows : List OwnerNotification} (queue : Queue who db rows) (numbered : db.Numbered)
    (grows : Extends db stored) (apart : ∀ row ∈ rows, Acked who stored row.id → Acked who db row.id) :
    Queue who stored rows where
  increasing := queue.increasing
  owned := fun row member => (queue.owned row member).extends grows
  unacked := fun row member acked => queue.unacked row member (apart row member acked)
  before := by
    intro row owned last member lower
    have bounded := numbered.bounded last (queue.owned last member).1
    exact (queue.before row (owned.earlier grows (by omega)) last member lower).imp_left grows.acked

theorem Queue.tail {first : OwnerNotification} {rest : List OwnerNotification} (queue : Queue who db (first :: rest))
    (acked : Acked who stored first.id) (numbered : db.Numbered) (grows : Extends db stored)
    (apart : ∀ row ∈ rest, Acked who stored row.id → Acked who db row.id) : Queue who stored rest where
  increasing := (List.pairwise_cons.mp queue.increasing).2
  owned := fun row member => (queue.owned row (List.mem_cons_of_mem _ member)).extends grows
  unacked := fun row member acked => queue.unacked row (List.mem_cons_of_mem _ member) (apart row member acked)
  before := by
    intro row owned last member lower
    have bounded := numbered.bounded last (queue.owned last (List.mem_cons_of_mem _ member)).1
    rcases queue.before row (owned.earlier grows (by omega)) last (List.mem_cons_of_mem _ member) lower with done | waits
    · exact Or.inl (grows.acked done)
    · rcases List.mem_cons.mp waits with rfl | later
      · exact Or.inl acked
      · exact Or.inr later

end Growth

section Background

variable {who : Principal} {s t : System}

/-- What may happen at an await, as far as the delivery depends on it. -/
structure Background (who : Principal) (s t : System) : Prop where
  grows : Extends s.db t.db
  acked : ∀ id, Acked who t.db id → Acked who s.db id
  log : ∃ more, t.log = s.log ++ more
  drawn : ∀ token ∈ s.drawn, token ∈ t.drawn
  paired : ∀ paired, s.memory.paired = some paired → t.memory.paired = some paired
  cursor : t.memory.notificationCursor = s.memory.notificationCursor
  acks : t.memory.pendingNotificationAcks = s.memory.pendingNotificationAcks
  approvals : ∀ token ∈ s.drawn, ∀ stored, Dict.get t.memory.approvals token = some stored →
    ∃ earlier, Dict.get s.memory.approvals token = some earlier ∧
      stored.runId = earlier.runId ∧ stored.approvalId = earlier.approvalId

theorem Background.arrived (moves : Background who s t) {id : Nat} (arrived : Arrived who s.db s.log id) :
    Arrived who t.db t.log id := by
  obtain ⟨more, log⟩ := moves.log
  rw [log]
  exact (arrived.extends moves.grows).append more

theorem Background.queue (moves : Background who s t) (sound : Sound who s) {rows : List OwnerNotification}
    (queue : Queue who s.db rows) : Queue who t.db rows :=
  queue.extends sound.numbered moves.grows fun row _ acked => moves.acked row.id acked

theorem Background.behind (moves : Background who s t) {rows : List OwnerNotification}
    (behind : Behind s.memory.notificationCursor rows) : Behind t.memory.notificationCursor rows := by
  rw [moves.cursor]
  exact behind

theorem AtNotification.background {paired : Nat × Int} {notification : OwnerNotification}
    {left : List NotificationApproval} {rest : List OwnerNotification} (sound : Sound who s)
    (here : AtNotification who s paired notification left rest) (moves : Background who s t) :
    AtNotification who t paired notification left rest where
  identity := moves.paired paired here.identity
  queue := moves.queue sound here.queue
  behind := moves.behind here.behind
  sent := by
    obtain ⟨more, log⟩ := moves.log
    rw [log]
    exact here.sent.imp fun _ member => List.mem_append_left _ member
  through := by
    obtain ⟨more, log⟩ := moves.log
    obtain ⟨done, split, presented⟩ := here.through
    rw [log]
    exact ⟨done, split, fun approval member => (presented approval member).append more⟩

/-- The stage of the delivery is kept by what happens at its await. -/
theorem AtStage.background (sound : Sound who s) {stage : Stage} (here : AtStage who s stage) (moves : Background who s t) :
    AtStage who t stage := by
  cases stage with
  | idle => trivial
  | flushing paired pending =>
    obtain ⟨identity, covers, arrived⟩ := here
    refine ⟨moves.paired paired identity, ?_, fun id member => moves.arrived (arrived id member)⟩
    rw [moves.acks]
    exact covers
  | sending paired left =>
    obtain ⟨identity, queue, behind⟩ := here
    exact ⟨moves.paired paired identity, moves.queue sound queue, moves.behind behind⟩
  | approving paired notification approvals rest => exact AtNotification.background sound here moves
  | presenting paired notification token record approvals rest =>
    obtain ⟨drawn, same, approval, run, named, at'⟩ := here
    refine ⟨moves.drawn token drawn, ?_, approval, run, named, at'.background sound moves⟩
    intro stored found
    obtain ⟨earlier, there, sameRun, sameApproval⟩ := moves.approvals token drawn stored found
    obtain ⟨isRun, isApproval⟩ := same earlier there
    exact ⟨sameRun.trans isRun, sameApproval.trans isApproval⟩
  | acknowledging paired notification rest =>
    obtain ⟨identity, queue, behind, arrived⟩ := here
    exact ⟨moves.paired paired identity, moves.queue sound queue, moves.behind behind, moves.arrived arrived⟩

end Background

section Sound

variable {who : Principal} {s : System}

theorem Sound.at_stage (sound : Sound who s) (stage : Stage) : Sound who { s with stage := stage } :=
  ⟨sound.numbered, sound.memory, sound.file, sound.ahead, sound.acked, sound.sent, sound.ordered, sound.shown⟩

/-- The store grows by rows, and by acknowledgements of what has arrived. -/
theorem Sound.store (sound : Sound who s) {stored : NotificationStore} (numbered : stored.Numbered)
    (grows : Extends s.db stored) (acked : ∀ id, Acked who stored id → Acked who s.db id ∨ Arrived who s.db s.log id) :
    Sound who { s with db := stored } where
  numbered := numbered
  memory := sound.memory.extends grows
  file := sound.file.extends grows
  ahead := sound.ahead
  acked := by
    intro id new
    rcases acked id new with old | arrived
    · exact (sound.acked id old).extends grows
    · exact arrived.extends grows
  sent := by
    intro id member
    obtain ⟨bounded, before⟩ := sound.sent id member
    refine ⟨bounded.trans grows.sequence, ?_⟩
    intro row owned lower
    exact grows.acked (before row (owned.earlier grows (by omega)) lower)
  ordered := sound.ordered
  shown := sound.shown

@[simp] theorem sentIds_append (first second : List Message) : sentIds (first ++ second) = sentIds first ++ sentIds second :=
  List.filterMap_append

/-- A message of an approval. -/
theorem Sound.approval (sound : Sound who s) (chatId : Int) (runId approvalId : String) :
    Sound who { s with log := s.log ++ [.approval chatId runId approvalId] } where
  numbered := sound.numbered
  memory := sound.memory.append _
  file := sound.file.append _
  ahead := sound.ahead
  acked := fun id acked => (sound.acked id acked).append _
  sent := by
    rw [sentIds_append]
    simpa [sentIds] using sound.sent
  ordered := by
    rw [sentIds_append]
    simpa [sentIds] using sound.ordered
  shown := fun token member =>
    ⟨(sound.shown token member).1, fun approval found => ((sound.shown token member).2 approval found).append _⟩

/-- The message of a notification that heads the queue comes behind all others. -/
theorem Sound.notification (sound : Sound who s) {first : OwnerNotification} {rest : List OwnerNotification}
    (queue : Queue who s.db (first :: rest)) (chatId : Int) (text : String) :
    Sound who { s with log := s.log ++ [.notification chatId first.id text] } := by
  have owned := queue.owned first List.mem_cons_self
  have settled : ∀ row, Owned who s.db row → row.id < first.id → Acked who s.db row.id := by
    intro row owned lower
    rcases queue.before row owned first List.mem_cons_self lower with acked | waits
    · exact acked
    · rcases List.mem_cons.mp waits with rfl | later
      · omega
      · have above := (List.pairwise_cons.mp queue.increasing).1 row later
        omega
  refine ⟨sound.numbered, sound.memory.append _, sound.file.append _, sound.ahead,
    fun id acked => (sound.acked id acked).append _, ?_, ?_, ?_⟩
  · intro id member
    rw [sentIds_append, List.mem_append] at member
    rcases member with old | new
    · exact sound.sent id old
    · obtain rfl : id = first.id := by simpa [sentIds] using new
      exact ⟨sound.numbered.bounded first owned.1, settled⟩
  · rw [sentIds_append]
    refine List.pairwise_append.mpr ⟨sound.ordered, List.pairwise_singleton _ _, ?_⟩
    intro id old last new
    obtain rfl : last = first.id := by simpa [sentIds] using new
    by_contra above
    exact queue.unacked first List.mem_cons_self ((sound.sent id old).2 first owned (by omega))
  · exact fun token member =>
      ⟨(sound.shown token member).1, fun approval found => ((sound.shown token member).2 approval found).append _⟩

theorem Sound.draw (sound : Sound who s) (more : List String) : Sound who { s with drawn := more ++ s.drawn } where
  numbered := sound.numbered
  memory := sound.memory.draw more
  file := sound.file.draw more
  ahead := sound.ahead
  acked := sound.acked
  sent := sound.sent
  ordered := sound.ordered
  shown := fun token member => ⟨List.mem_append_right _ (sound.shown token member).1, (sound.shown token member).2⟩

/-- A state that may take the place of the one in memory. -/
structure Follows (who : Principal) (s : System) (state : TelegramWorkerState) : Prop where
  known : Known who s.db s.log s.drawn state
  cursor : s.memory.notificationCursor ≤ state.notificationCursor
  shown : ∀ token ∈ s.shown, ∀ approval, Dict.get state.approvals token = some approval →
    Presented s.log approval.runId approval.approvalId

theorem Sound.write (sound : Sound who s) {result : Result Unit} (fails : Bool)
    (follows : ∀ state, result = .writes state () → Follows who s state) : Sound who (s.write result fails).1 := by
  unfold System.write
  split
  · exact sound
  · exact sound
  · rename_i state _
    have next := follows state rfl
    have shown : ∀ token ∈ s.shown, token ∈ s.drawn ∧ ∀ approval, Dict.get state.approvals token = some approval →
        Presented s.log approval.runId approval.approvalId :=
      fun token member => ⟨(sound.shown token member).1, next.shown token member⟩
    split
    · exact ⟨sound.numbered, next.known, sound.file, sound.ahead.trans next.cursor, sound.acked, sound.sent, sound.ordered,
        shown⟩
    · exact ⟨sound.numbered, next.known, next.known, le_rfl, sound.acked, sound.sent, sound.ordered, shown⟩

end Sound

section Others

/-- What an operation other than the marks of notifications does: the cursor and the acknowledgements stay, and an
approval that is found afterwards was there, is saved by it or is marked by it. -/
structure Beside (m after : TelegramWorkerState) (operation : StateFile.Operation) : Prop where
  cursor : after.notificationCursor = m.notificationCursor
  acks : after.pendingNotificationAcks = m.pendingNotificationAcks
  paired : ∀ paired, m.paired = some paired → after.paired = some paired
  approvals : ∀ token approval, Dict.get after.approvals token = some approval →
    Dict.get m.approvals token = some approval ∨ (token ∈ draws operation ∧ approval.delivered = false) ∨
    (operation = .markApprovalDelivered token ∧ ∃ earlier, Dict.get m.approvals token = some earlier ∧
      approval = { earlier with delivered := true })
  ordered : Dict.Ordered m.approvals → Dict.Ordered after.approvals

variable {m after : TelegramWorkerState}

theorem Beside.of_same {operation : StateFile.Operation} (cursor : after.notificationCursor = m.notificationCursor)
    (acks : after.pendingNotificationAcks = m.pendingNotificationAcks) (paired : after.paired = m.paired)
    (approvals : after.approvals = m.approvals) : Beside m after operation where
  cursor := cursor
  acks := acks
  paired := fun _ is => paired.trans is
  approvals := by
    rw [approvals]
    exact fun token approval found => Or.inl found
  ordered := by
    rw [approvals]
    exact fun ordered => ordered

theorem completeUpdate_beside {maxSeen updateId : Nat} {sourceEventId : String} {token : Option String}
    (written : StateFile.change maxSeen m (.completeUpdate updateId sourceEventId token) = .writes after ()) :
    Beside m after (.completeUpdate updateId sourceEventId token) := by
  simp only [StateFile.change, TelegramWorkerState.completeUpdate] at written
  split at written
  · cases written
    exact .of_same rfl rfl rfl rfl
  · cases written
    exact ⟨rfl, rfl, fun _ is => is, fun token approval found => Or.inl (Dict.get_of_get_erase found),
      fun ordered => ordered.erase _⟩

theorem removeApproval_beside {maxSeen : Nat} {token : String}
    (written : StateFile.change maxSeen m (.removeApproval token) = .writes after ()) :
    Beside m after (.removeApproval token) := by
  simp only [StateFile.change, TelegramWorkerState.removeApproval] at written
  split at written
  · cases written
    exact ⟨rfl, rfl, fun _ is => is, fun token approval found => Or.inl (Dict.get_of_get_erase found),
      fun ordered => ordered.erase _⟩
  · cases written

theorem saveApproval_beside (maxSeen : Nat) {token : String} {record : Approval}
    (written : StateFile.change maxSeen m (.saveApproval token record) = .writes after ()) :
    Beside m after (.saveApproval token record) := by
  cases written
  refine ⟨rfl, rfl, fun _ is => is, ?_, fun ordered => ordered.insert _ _⟩
  intro other approval found
  rcases eq_or_ne other token with rfl | differs
  · rw [Dict.get_insert_self] at found
    cases found
    exact Or.inr (Or.inl ⟨List.mem_singleton_self _, rfl⟩)
  · rw [Dict.get_insert_of_ne differs] at found
    exact Or.inl found

theorem markApprovalDelivered_beside (maxSeen : Nat) {token : String}
    (written : StateFile.change maxSeen m (.markApprovalDelivered token) = .writes after ()) :
    Beside m after (.markApprovalDelivered token) := by
  simp only [StateFile.change, TelegramWorkerState.markApprovalDelivered] at written
  split at written
  · cases written
  · rename_i earlier there
    cases written
    refine ⟨rfl, rfl, fun _ is => is, ?_, fun ordered => ordered.insert _ _⟩
    intro other approval found
    rcases eq_or_ne other token with rfl | differs
    · rw [Dict.get_insert_self] at found
      cases found
      exact Or.inr (Or.inr ⟨rfl, earlier, (Option.filter_eq_some_iff.mp there).1, rfl⟩)
    · rw [Dict.get_insert_of_ne differs] at found
      exact Or.inl found

theorem change_beside {maxSeen : Nat} {s : System} (operation : StateFile.Operation) (allowed : s.allows operation = true)
    (written : StateFile.change maxSeen m operation = .writes after ()) : Beside m after operation := by
  cases operation with
  | completeUpdate updateId sourceEventId token => exact completeUpdate_beside written
  | removeApproval token => exact removeApproval_beside written
  | saveApproval token record => exact saveApproval_beside maxSeen written
  | markApprovalDelivered token => exact markApprovalDelivered_beside maxSeen written
  | markNotificationDelivered notificationId => cases allowed
  | markNotificationAcknowledged notificationId => cases allowed
  | pair userId chatId =>
    simp only [StateFile.change, TelegramWorkerState.pair] at written
    split at written
    · rename_i unpaired
      cases written
      refine ⟨rfl, rfl, ?_, fun _ _ found => Or.inl found, fun ordered => ordered⟩
      intro paired is
      rw [unpaired] at is
      cases is
    · cases written
  | threadId chatId uuid =>
    simp only [StateFile.change, TelegramWorkerState.threadId] at written
    split at written
    · cases written
      exact .of_same rfl rfl rfl rfl
    · cases written
  | replaceThread chatId expected replacement =>
    simp only [StateFile.change, TelegramWorkerState.replaceThread] at written
    split at written
    · cases written
    · split at written
      · cases written
      · cases written
        exact .of_same rfl rfl rfl rfl
  | setCodexLogin chatId loginId =>
    simp only [StateFile.change, TelegramWorkerState.setCodexLogin] at written
    split at written
    · cases written
      exact .of_same rfl rfl rfl rfl
    · cases written
      exact .of_same rfl rfl rfl rfl
  | acceptUpdate updateId update =>
    simp only [StateFile.change, TelegramWorkerState.acceptUpdate] at written
    split at written
    · cases written
    · cases written
      exact .of_same rfl rfl rfl rfl
  | coalesceUpdates updateIds merged =>
    simp only [StateFile.change, TelegramWorkerState.coalesceUpdates] at written
    split at written
    · cases written
    · split at written
      · cases written
        exact .of_same rfl rfl rfl rfl
      · cases written
  | savePendingRun record =>
    cases written
    exact .of_same rfl rfl rfl rfl
  | savePendingDelivery sourceEventId messageId rendered =>
    simp only [StateFile.change, TelegramWorkerState.savePendingDelivery] at written
    split at written
    · cases written
    · cases written
      exact .of_same rfl rfl rfl rfl
  | removePendingRun sourceEventId =>
    simp only [StateFile.change, TelegramWorkerState.removePendingRun] at written
    split at written
    · cases written
    · cases written
      exact .of_same rfl rfl rfl rfl
  | awaitEdit chatId token =>
    cases written
    exact .of_same rfl rfl rfl rfl
  | clearAwaitingEdit chatId token =>
    simp only [StateFile.change, TelegramWorkerState.clearAwaitingEdit] at written
    split at written
    · cases written
    · cases written
      exact .of_same rfl rfl rfl rfl

variable {who : Principal} {s : System} {operation : StateFile.Operation}

/-- A token that an operation saves under was drawn for it, and the approval that it marks was sent. -/
structure Licensed (s : System) (operation : StateFile.Operation) : Prop where
  saves : ∀ token ∈ draws operation, token ∈ s.drawn ∧ token ∉ s.shown
  marks : ∀ token, operation = .markApprovalDelivered token → ∀ approval,
    Dict.get s.memory.approvals token = some approval → Presented s.log approval.runId approval.approvalId

theorem Beside.follows (sound : Sound who s) (licensed : Licensed s operation) (beside : Beside s.memory after operation) :
    Follows who s after where
  known := by
    refine ⟨?_, ?_, ?_, ?_, beside.ordered sound.memory.ordered⟩
    · rw [beside.cursor]
      exact sound.memory.bounded
    · rw [beside.cursor, beside.acks]
      exact sound.memory.covered
    · rw [beside.acks]
      exact sound.memory.pending
    · intro token approval found
      rcases beside.approvals token approval found with old | ⟨saved, unsent⟩ | ⟨marked, earlier, there, rfl⟩
      · exact sound.memory.approvals token approval old
      · exact ⟨(licensed.saves token saved).1, fun flag => by rw [unsent] at flag; cases flag⟩
      · exact ⟨(sound.memory.approvals token earlier there).1, fun _ => licensed.marks token marked earlier there⟩
  cursor := beside.cursor.ge
  shown := by
    intro token member approval found
    rcases beside.approvals token approval found with old | ⟨saved, -⟩ | ⟨marked, earlier, there, rfl⟩
    · exact (sound.shown token member).2 approval old
    · exact absurd member (licensed.saves token saved).2
    · exact licensed.marks token marked earlier there

/-- An operation of another kind is background to the delivery. -/
theorem write_background (drawn : List String) {result : Result Unit} {fails : Bool} {t : System}
    (is : t = ({ s with drawn := drawn ++ s.drawn }.write result fails).1)
    (beside : ∀ state, result = .writes state () → Beside s.memory state operation)
    (new : ∀ token ∈ draws operation, token ∉ s.drawn) : Background who s t := by
  have moves : ∀ state file, result = .writes state () →
      Background who s { s with drawn := drawn ++ s.drawn, memory := state, file := file } := by
    intro state file written
    have side := beside state written
    refine ⟨.refl s.db, fun _ acked => acked, ⟨[], (List.append_nil _).symm⟩,
      fun token member => List.mem_append_right _ member, side.paired, side.cursor, side.acks, ?_⟩
    intro token drawn stored found
    rcases side.approvals token stored found with old | ⟨saved, -⟩ | ⟨-, earlier, there, rfl⟩
    · exact ⟨stored, old, rfl, rfl⟩
    · exact absurd drawn (new token saved)
    · exact ⟨earlier, there, rfl, rfl⟩
  have still : Background who s { s with drawn := drawn ++ s.drawn } :=
    ⟨.refl s.db, fun _ acked => acked, ⟨[], (List.append_nil _).symm⟩, fun token member => List.mem_append_right _ member,
      fun _ is => is, rfl, rfl, fun _ _ stored found => ⟨stored, found, rfl, rfl⟩⟩
  rw [is]
  unfold System.write
  split
  · exact still
  · exact still
  · split
    · exact moves _ _ rfl
    · exact moves _ _ rfl

end Others

section Marks

variable {who : Principal} {s : System} {state : TelegramWorkerState} {id : Nat}

/-- The mark of an acknowledged notification. -/
theorem markNotificationAcknowledged_spec (written : s.memory.markNotificationAcknowledged id = .writes state ()) :
    state = { s.memory with
      pendingNotificationAcks := s.memory.pendingNotificationAcks.filter fun item => item != id } := by
  unfold TelegramWorkerState.markNotificationAcknowledged at written
  dsimp only at written
  split at written
  · cases written
    rfl
  · cases written

theorem acknowledged_follows (sound : Sound who s) (acked : Acked who s.db id)
    (written : s.memory.markNotificationAcknowledged id = .writes state ()) : Follows who s state := by
  obtain rfl := markNotificationAcknowledged_spec written
  refine ⟨⟨sound.memory.bounded, ?_, ?_, sound.memory.approvals, sound.memory.ordered⟩, le_rfl,
    fun token member => (sound.shown token member).2⟩
  · intro row owned old
    rcases sound.memory.covered row owned old with settled | pending
    · exact Or.inl settled
    · rcases eq_or_ne row.id id with same | differs
      · rw [same]
        exact Or.inl acked
      · exact Or.inr (List.mem_filter.mpr ⟨pending, by simpa using differs⟩)
  · intro other member
    exact sound.memory.pending other (List.mem_filter.mp member).1

theorem markNotificationDelivered_spec (written : s.memory.markNotificationDelivered id = .writes state ()) :
    state = { s.memory with
      pendingNotificationAcks := ((id :: s.memory.pendingNotificationAcks).dedup).insertionSort (· ≤ ·)
      notificationCursor := max s.memory.notificationCursor id } := by
  unfold TelegramWorkerState.markNotificationDelivered at written
  split at written
  · cases written
  · cases written
    rfl

/-- The mark of the notification that heads the queue. -/
theorem delivered_follows (sound : Sound who s) {first : OwnerNotification} {rest : List OwnerNotification}
    (queue : Queue who s.db (first :: rest)) (arrived : Arrived who s.db s.log first.id)
    (written : s.memory.markNotificationDelivered first.id = .writes state ()) : Follows who s state := by
  obtain rfl := markNotificationDelivered_spec written
  have owned := queue.owned first List.mem_cons_self
  refine ⟨⟨?_, ?_, ?_, sound.memory.approvals, sound.memory.ordered⟩, le_max_left _ _,
    fun token member => (sound.shown token member).2⟩
  · exact max_le sound.memory.bounded (sound.numbered.bounded first owned.1)
  · intro row mine old
    have listed : ∀ other, other ∈ ((first.id :: s.memory.pendingNotificationAcks).dedup).insertionSort (· ≤ ·) ↔
        other = first.id ∨ other ∈ s.memory.pendingNotificationAcks := by simp
    rcases le_max_iff.mp old with before | upto
    · rcases sound.memory.covered row mine before with settled | pending
      · exact Or.inl settled
      · exact Or.inr ((listed _).mpr (Or.inr pending))
    · rcases upto.lt_or_eq with lower | same
      · rcases queue.before row mine first List.mem_cons_self lower with settled | waits
        · exact Or.inl settled
        · rcases List.mem_cons.mp waits with rfl | later
          · omega
          · have above := (List.pairwise_cons.mp queue.increasing).1 row later
            omega
      · exact Or.inr ((listed _).mpr (Or.inl same))
  · intro other member
    have either : other = first.id ∨ other ∈ s.memory.pendingNotificationAcks := by simpa using member
    rcases either with rfl | pending
    · exact arrived
    · exact sound.memory.pending other pending

end Marks

section Invariant

variable {who : Principal} {s t : System}

structure Inv (who : Principal) (s : System) : Prop where
  sound : Sound who s
  stage : AtStage who s s.stage

theorem Background.of_same (db : t.db = s.db) (log : t.log = s.log) (drawn : t.drawn = s.drawn)
    (memory : t.memory = s.memory) : Background who s t where
  grows := by
    rw [db]
    exact .refl s.db
  acked := by
    rw [db]
    exact fun _ acked => acked
  log := ⟨[], by rw [log, List.append_nil]⟩
  drawn := by
    rw [drawn]
    exact fun _ member => member
  paired := by
    rw [memory]
    exact fun _ is => is
  cursor := by rw [memory]
  acks := by rw [memory]
  approvals := by
    rw [memory]
    exact fun _ _ stored found => ⟨stored, found, rfl, rfl⟩

theorem Sound.idle (sound : Sound who s) : Inv who { s with stage := .idle } := ⟨sound.at_stage .idle, trivial⟩

theorem Sound.move (sound : Sound who s) {stage : Stage} (here : AtStage who s stage) : Inv who { s with stage := stage } :=
  ⟨sound.at_stage stage, AtStage.background sound here (.of_same rfl rfl rfl rfl)⟩

theorem then_inv {result : System × Bool} {next : Stage} (sound : Sound who result.1)
    (here : result.2 = true → AtStage who result.1 next) : Inv who (System.then next result) := by
  unfold System.then
  split
  · rename_i returned
    exact sound.move (here returned)
  · exact sound.idle

/-- A message of an approval is background to the delivery. -/
theorem approval_background (chatId : Int) (runId approvalId : String) (shown : List String) :
    Background who s { s with shown := shown, log := s.log ++ [.approval chatId runId approvalId] } :=
  ⟨.refl s.db, fun _ acked => acked, ⟨_, rfl⟩, fun _ member => member, fun _ is => is, rfl, rfl,
    fun _ _ stored found => ⟨stored, found, rfl, rfl⟩⟩

end Invariant

section Acknowledging

variable {who : Principal} {s : System} {id : Nat} {call : Call} {fails : Bool} {now : Int} {next : Stage}

theorem acknowledge_cases : (s.acknowledge who id call now = (s, false)) ∨
    ∃ stored returned, Acknowledged who.tenantId who.consumerId id s.db stored ∧
      s.acknowledge who id call now = ({ s with db := stored }, returned) := by
  unfold System.acknowledge
  split
  · split
    · rename_i stored new done
      obtain ⟨tenant, consumer, known, reads, acknowledged⟩ := acknowledge_spec done
      obtain rfl : who.tenantId = tenant := Except.ok.inj (who.tenant.symm.trans known)
      obtain rfl : who.consumerId = consumer := Except.ok.inj (who.consumer.symm.trans reads)
      exact Or.inr ⟨stored, _, acknowledged, rfl⟩
    · exact Or.inl rfl
  · exact Or.inl rfl

/-- Only what an acknowledgement names is acknowledged by it. -/
theorem acked_of_acknowledged {stored : NotificationStore} (done : Acknowledged who.tenantId who.consumerId id s.db stored)
    {other : Nat} (acked : Acked who stored other) : Acked who s.db other ∨ other = id := by
  obtain ⟨ack, member, is⟩ := List.any_eq_true.mp acked
  rcases done.added ack member with old | ⟨-, -, named⟩
  · exact Or.inl (List.any_eq_true.mpr ⟨ack, old, is⟩)
  · right
    have same : (ack.tenantId = who.tenantId ∧ ack.consumerId = who.consumerId) ∧ ack.notificationId = other := by
      simpa using is
    exact same.2.symm.trans named

/-- The state after an acknowledgement and its mark. -/
structure Marked (who : Principal) (id : Nat) (s t : System) : Prop where
  store : Acknowledged who.tenantId who.consumerId id s.db t.db
  log : t.log = s.log
  paired : t.memory.paired = s.memory.paired
  cursor : t.memory.notificationCursor = s.memory.notificationCursor
  pending : ∀ other ∈ t.memory.pendingNotificationAcks, other ∈ s.memory.pendingNotificationAcks ∧ other ≠ id

theorem mark_marked {stored : NotificationStore} (done : Acknowledged who.tenantId who.consumerId id s.db stored)
    (returned : (System.write { s with db := stored } (s.memory.markNotificationAcknowledged id) fails).2 = true) :
    Marked who id s (System.write { s with db := stored } (s.memory.markNotificationAcknowledged id) fails).1 := by
  have removed : ∀ other ∈ s.memory.pendingNotificationAcks.filter (fun item => item != id),
      other ∈ s.memory.pendingNotificationAcks ∧ other ≠ id := by
    intro other member
    obtain ⟨pending, differs⟩ := List.mem_filter.mp member
    exact ⟨pending, by simpa using differs⟩
  unfold TelegramWorkerState.markNotificationAcknowledged at returned ⊢
  dsimp only at returned ⊢
  split at returned
  · rename_i some
    rw [if_pos some]
    cases fails with
    | true => cases returned
    | false => exact ⟨done, rfl, rfl, rfl, removed⟩
  · rename_i none
    rw [if_neg none]
    refine ⟨done, rfl, rfl, rfl, ?_⟩
    have same : s.memory.pendingNotificationAcks.filter (fun item => item != id) = s.memory.pendingNotificationAcks :=
      List.filter_sublist.eq_of_length (not_ne_iff.mp none)
    rw [same] at removed
    exact removed

theorem acknowledgeAndMark_inv (sound : Sound who s) (arrived : Arrived who s.db s.log id)
    (here : ∀ t, Marked who id s t → AtStage who t next) :
    Inv who (s.acknowledgeAndMark who id call fails now next) := by
  unfold System.acknowledgeAndMark
  rcases acknowledge_cases (s := s) with refused | ⟨stored, returned, done, is⟩
  · rw [refused]
    exact sound.idle
  · have stored_sound : Sound who { s with db := stored } := by
      refine sound.store (done.numbered sound.numbered) done.extends ?_
      intro other acked
      rcases acked_of_acknowledged done acked with old | rfl
      · exact Or.inl old
      · exact Or.inr arrived
    rw [is]
    cases returned with
    | false => exact stored_sound.idle
    | true =>
      refine then_inv ?_ fun passed => here _ (mark_marked done passed)
      exact stored_sound.write fails fun state written => acknowledged_follows stored_sound done.acked written

end Acknowledging

section Approving

variable {who : Principal} {s : System} {paired : Nat × Int} {notification : OwnerNotification}
  {approval : NotificationApproval} {approvals : List NotificationApproval} {rest : List OwnerNotification}

/-- An approval that has been sent is gone through. -/
theorem AtNotification.pass (here : AtNotification who s paired notification (approval :: approvals) rest)
    (presented : Presented s.log (approvalRun notification) approval.approvalId) :
    AtNotification who s paired notification approvals rest := by
  refine ⟨here.identity, here.queue, here.behind, here.sent, ?_⟩
  obtain ⟨done, split, before⟩ := here.through
  refine ⟨done ++ [approval], by simpa using split, ?_⟩
  intro other member
  rcases List.mem_append.mp member with old | new
  · exact before other old
  · rw [List.mem_singleton.mp new]
    exact presented

theorem present_inv (sound : Sound who s) (here : AtNotification who s paired notification (approval :: approvals) rest)
    {token : String} {record : Approval} (found : Dict.get s.memory.approvals token = some record)
    (run : record.runId = approvalRun notification) (named : record.approvalId = approval.approvalId) :
    Inv who (s.present paired notification token approvals rest) := by
  obtain ⟨drawn, flagged⟩ := sound.memory.approvals token record found
  unfold System.present
  rw [found]
  cases delivered : record.delivered with
  | true =>
    simp only [Option.filter_some, delivered, Bool.not_true, Bool.false_eq_true, if_false]
    have presented := flagged delivered
    rw [run, named] at presented
    exact sound.move (here.pass presented)
  | false =>
    simp only [Option.filter_some, delivered, Bool.not_false, if_true]
    refine sound.move ⟨drawn, ?_, approval, run, named, here⟩
    intro stored again
    obtain rfl := Option.some.inj (found.symm.trans again)
    exact ⟨rfl, rfl⟩

theorem findApproval_get (ordered : Dict.Ordered s.memory.approvals) {runId approvalId token : String} {record : Approval}
    (found : s.memory.findApproval runId approvalId = some (token, record)) :
    Dict.get s.memory.approvals token = some record ∧ record.runId = runId ∧ record.approvalId = approvalId := by
  unfold TelegramWorkerState.findApproval at found
  have matched := List.find?_some found
  simp only [Bool.and_eq_true, beq_iff_eq] at matched
  exact ⟨ordered.get_of_mem (List.mem_of_find?_eq_some found), matched⟩

theorem approve_inv (sound : Sound who s) (here : AtNotification who s paired notification (approval :: approvals) rest)
    (fails : Bool) (token : String) (stage : s.stage = .approving paired notification (approval :: approvals) rest) :
    Inv who (s.approve paired notification approval approvals rest fails token) := by
  unfold System.approve
  split
  · exact sound.idle
  · split
    · rename_i existing record found
      obtain ⟨there, run, named⟩ := findApproval_get sound.memory.ordered found
      exact present_inv sound here there run named
    · split
      · refine ⟨sound, ?_⟩
        rw [stage]
        exact here
      · rename_i fresh
        have new : token ∉ s.drawn := by simpa using fresh
        let record := approvalRecord paired notification approval
        let drawn : System := { s with drawn := [token] ++ s.drawn }
        have drawn_sound : Sound who drawn := sound.draw [token]
        have beside : ∀ state, s.memory.saveApproval token record = .writes state () →
            Beside s.memory state (.saveApproval token record) :=
          fun state written => saveApproval_beside 0 written
        have licensed : Licensed drawn (.saveApproval token record) := by
          refine ⟨?_, by rintro _ ⟨⟩⟩
          intro other member
          rw [List.mem_singleton.mp member]
          exact ⟨List.mem_cons_self, fun shown => new (sound.shown token shown).1⟩
        have saved_sound : Sound who (drawn.write (s.memory.saveApproval token record) fails).1 :=
          drawn_sound.write fails fun state written => (beside state written).follows drawn_sound licensed
        have moves : Background who s (drawn.write (s.memory.saveApproval token record) fails).1 :=
          write_background [token] rfl beside (by simpa [draws] using new)
        cases fails with
        | true => exact saved_sound.idle
        | false =>
          exact present_inv saved_sound (here.background sound moves) (Dict.get_insert_self token _ _) rfl rfl

theorem presenting_inv (sound : Sound who s) {token : String} {record : Approval}
    (same : ∀ stored, Dict.get s.memory.approvals token = some stored →
      stored.runId = record.runId ∧ stored.approvalId = record.approvalId)
    (run : record.runId = approvalRun notification) (named : record.approvalId = approval.approvalId)
    (here : AtNotification who s paired notification (approval :: approvals) rest) (fails : Bool) :
    let sent : System := { s with log := s.log ++ [.approval record.chatId record.runId record.approvalId] }
    Inv who (System.then (.approving paired notification approvals rest)
      (sent.write (sent.memory.markApprovalDelivered token) fails)) := by
  intro sent
  have sent_sound : Sound who sent := sound.approval _ _ _
  have presented : Presented sent.log record.runId record.approvalId :=
    ⟨record.chatId, List.mem_append_right _ (List.mem_singleton_self _)⟩
  have beside : ∀ state, sent.memory.markApprovalDelivered token = .writes state () →
      Beside sent.memory state (.markApprovalDelivered token) :=
    fun state written => markApprovalDelivered_beside 0 written
  have licensed : Licensed sent (.markApprovalDelivered token) := by
    refine ⟨by rintro _ ⟨⟩, ?_⟩
    rintro _ ⟨rfl⟩ stored found
    obtain ⟨sameRun, sameApproval⟩ := same stored found
    rw [sameRun, sameApproval]
    exact presented
  have moves : Background who sent (sent.write (sent.memory.markApprovalDelivered token) fails).1 :=
    write_background [] rfl beside (by rintro _ ⟨⟩)
  have reached : AtNotification who sent paired notification (approval :: approvals) rest :=
    here.background sound (approval_background _ _ _ s.shown)
  rw [run, named] at presented
  refine then_inv ?_ fun _ => (reached.pass presented).background sent_sound moves
  exact sent_sound.write fails fun state written => (beside state written).follows sent_sound licensed

end Approving

section Delivering

variable {who : Principal} {s : System}

/-- What is fetched once no acknowledgement is pending is a queue behind the cursor. -/
theorem listed_queue (sound : Sound who s) (flushed : ∀ id ∈ s.memory.pendingNotificationAcks, id ∈ ([] : List Nat))
    {rows : List OwnerNotification}
    (done : s.db.listUnacked who.tenantId who.consumerId s.memory.notificationCursor 100 = .ok rows) :
    Queue who s.db rows ∧ Behind s.memory.notificationCursor rows := by
  have listed := listUnacked_spec sound.numbered who.tenant who.consumer done
  refine ⟨⟨listed.increasing, ?_, ?_, ?_⟩, ?_⟩
  · intro row member
    obtain ⟨present, owner, -, -⟩ := mem_unacked.mp (listed.waiting row member)
    exact ⟨present, owner⟩
  · intro row member acked
    obtain ⟨-, -, -, waits⟩ := mem_unacked.mp (listed.waiting row member)
    unfold Acked at acked
    rw [waits] at acked
    cases acked
  · intro row owned last member lower
    by_cases acked : Acked who s.db row.id
    · exact Or.inl acked
    · right
      have beyond : s.memory.notificationCursor < row.id := by
        by_contra covered
        rcases sound.memory.covered row owned (by omega) with done | pending
        · exact acked done
        · cases flushed row.id pending
      exact listed.first row (mem_unacked.mpr ⟨owned.1, owned.2, beyond, Bool.not_eq_true _ ▸ acked⟩) last member lower
  · intro row member
    exact (mem_unacked.mp (listed.waiting row member)).2.2.1

/-- A notification that was gone through has arrived. -/
theorem AtNotification.arrived {paired : Nat × Int} {notification : OwnerNotification} {rest : List OwnerNotification}
    (here : AtNotification who s paired notification [] rest) : Arrived who s.db s.log notification.id := by
  obtain ⟨done, split, presented⟩ := here.through
  rw [List.append_nil] at split
  refine ⟨notification, here.queue.owned notification List.mem_cons_self, rfl, here.sent, ?_⟩
  rw [split]
  exact presented

theorem marked_flushing {paired : Nat × Int} {id : Nat} {pending : List Nat} {t : System}
    (here : AtStage who s (.flushing paired (id :: pending))) (marked : Marked who id s t) :
    AtStage who t (.flushing paired pending) := by
  obtain ⟨identity, covers, arrived⟩ := here
  refine ⟨marked.paired.trans identity, ?_, ?_⟩
  · intro other member
    obtain ⟨before, differs⟩ := marked.pending other member
    exact (List.mem_cons.mp (covers other before)).resolve_left differs
  · intro other member
    rw [marked.log]
    exact (arrived other (List.mem_cons_of_mem _ member)).extends marked.store.extends

theorem marked_sending {paired : Nat × Int} {notification : OwnerNotification} {rest : List OwnerNotification} {t : System}
    (sound : Sound who s) (here : AtStage who s (.acknowledging paired notification rest))
    (marked : Marked who notification.id s t) : AtStage who t (.sending paired rest) := by
  obtain ⟨identity, queue, behind, -⟩ := here
  refine ⟨marked.paired.trans identity, queue.tail marked.store.acked sound.numbered marked.store.extends ?_, ?_⟩
  · intro row member acked
    rcases acked_of_acknowledged marked.store acked with old | same
    · exact old
    · have above := (List.pairwise_cons.mp queue.increasing).1 row member
      omega
  · rw [marked.cursor]
    exact behind

/-- The mark of a notification leaves the rest of the queue behind the cursor. -/
theorem delivered_stage {paired : Nat × Int} {notification : OwnerNotification} {rest : List OwnerNotification}
    (here : AtNotification who s paired notification [] rest) (fails : Bool)
    (returned : (s.write (s.memory.markNotificationDelivered notification.id) fails).2 = true) :
    AtStage who (s.write (s.memory.markNotificationDelivered notification.id) fails).1
      (.acknowledging paired notification rest) := by
  have above := (List.pairwise_cons.mp here.queue.increasing).1
  unfold TelegramWorkerState.markNotificationDelivered at returned ⊢
  split at returned
  · cases returned
  · rename_i positive
    rw [if_neg positive]
    cases fails with
    | true => cases returned
    | false =>
      refine ⟨here.identity, here.queue, ?_, here.arrived⟩
      intro row member
      exact max_lt (here.behind row (List.mem_cons_of_mem _ member)) (above row member)

/-- One step of the delivery. -/
theorem deliver_inv (inv : Inv who s) (call : Call) (fails : Bool) (token : String) (now : Int) :
    Inv who (s.deliver who call fails token now) := by
  obtain ⟨sound, here⟩ := inv
  unfold System.deliver
  split
  · split
    · exact ⟨sound, here⟩
    · rename_i paired identity
      have listed : ∀ id, id ∈ (s.memory.pendingNotificationAcks.dedup).insertionSort (· ≤ ·) ↔
          id ∈ s.memory.pendingNotificationAcks := by simp
      exact sound.move ⟨identity, fun id member => (listed id).mpr member,
        fun id member => sound.memory.pending id ((listed id).mp member)⟩
  · rename_i paired stage
    rw [stage] at here
    split
    · rename_i rows done
      obtain ⟨queue, behind⟩ := listed_queue sound here.2.1 done
      exact sound.move ⟨here.1, queue, behind⟩
    · exact sound.idle
  · rename_i paired id pending stage
    rw [stage] at here
    exact acknowledgeAndMark_inv sound (here.2.2 id List.mem_cons_self) fun t marked => marked_flushing here marked
  · exact sound.idle
  · rename_i paired notification rest stage
    rw [stage] at here
    obtain ⟨identity, queue, behind⟩ := here
    have sent := sound.notification queue paired.2 (sentText notification)
    cases call with
    | returned =>
      exact sent.move ⟨identity, queue, behind, ⟨paired.2, List.mem_append_right _ (List.mem_singleton_self _)⟩,
        [], rfl, by rintro _ ⟨⟩⟩
    | failed reached =>
      cases reached with
      | true => exact sent.idle
      | false => exact sound.idle
  · rename_i paired notification rest stage
    rw [stage] at here
    refine then_inv ?_ fun returned => delivered_stage here fails returned
    exact sound.write fails fun state written => delivered_follows sound here.queue here.arrived written
  · rename_i paired notification approval approvals rest stage
    have there := here
    rw [stage] at there
    exact approve_inv sound there fails token stage
  · rename_i paired notification drawn record approvals rest stage
    rw [stage] at here
    obtain ⟨-, same, approval, run, named, there⟩ := here
    cases call with
    | returned => exact presenting_inv sound same run named there fails
    | failed reached =>
      cases reached with
      | true => exact (sound.approval _ _ _).idle
      | false => exact sound.idle
  · rename_i paired notification rest stage
    rw [stage] at here
    exact acknowledgeAndMark_inv sound here.2.2.2 fun t marked => marked_sending sound here marked

end Delivering

section Runs

variable {who : Principal} {s t : System} {hash : NotificationWrite → String} {maxSeen : Nat}

theorem append_inv (inv : Inv who s) (tenantId dedupeKey : String) (payload : NotificationWrite) (createdAt : Int) :
    Inv who (step who hash maxSeen s (.append tenantId dedupeKey payload createdAt)) := by
  unfold step
  dsimp only
  split
  · rename_i stored row created done
    obtain ⟨numbered, grows, acks⟩ := append_spec inv.sound.numbered done
    have same : ∀ id, Acked who stored id → Acked who s.db id := by
      unfold Acked NotificationStore.acked
      rw [acks]
      exact fun _ acked => acked
    refine ⟨inv.sound.store numbered grows fun id acked => Or.inl (same id acked), ?_⟩
    exact AtStage.background inv.sound inv.stage ⟨grows, same, ⟨[], (List.append_nil _).symm⟩, fun _ member => member,
      fun _ is => is, rfl, rfl, fun _ _ stored found => ⟨stored, found, rfl, rfl⟩⟩
  · exact inv

theorem identity_strip {value safe label : String} {maxLength : Nat} (valid : identity value label maxLength = .ok safe) :
    strip value = safe := by
  unfold identity at valid
  dsimp only at valid
  split at valid
  · cases valid
  · exact Except.ok.inj valid

theorem acknowledge_inv (inv : Inv who s) (tenantId consumerId : String) (id : Nat) (ackedAt : Int) :
    Inv who (step who hash maxSeen s (.acknowledge tenantId consumerId id ackedAt)) := by
  unfold step
  dsimp only
  split
  · exact inv
  · rename_i apart
    split
    · rename_i stored new done
      obtain ⟨tenant, consumer, known, reads, acknowledged⟩ := acknowledge_spec done
      have same : ∀ other, Acked who stored other → Acked who s.db other := by
        intro other acked
        obtain ⟨ack, member, is⟩ := List.any_eq_true.mp acked
        have ours : (ack.tenantId = who.tenantId ∧ ack.consumerId = who.consumerId) ∧ ack.notificationId = other := by
          simpa using is
        rcases acknowledged.added ack member with old | ⟨ofTenant, ofConsumer, -⟩
        · exact List.any_eq_true.mpr ⟨ack, old, is⟩
        · refine absurd ⟨?_, ?_⟩ apart
          · rw [identity_strip known, ← ofTenant, ours.1.1]
          · rw [identity_strip reads, ← ofConsumer, ours.1.2]
      refine ⟨inv.sound.store (acknowledged.numbered inv.sound.numbered) acknowledged.extends
        fun other acked => Or.inl (same other acked), ?_⟩
      exact AtStage.background inv.sound inv.stage ⟨acknowledged.extends, same, ⟨[], (List.append_nil _).symm⟩,
        fun _ member => member, fun _ is => is, rfl, rfl, fun _ _ stored found => ⟨stored, found, rfl, rfl⟩⟩
    · exact inv

/-- What other tasks may do is licensed once their tokens are drawn. -/
theorem licensed_of_allows {operation : StateFile.Operation} (sound : Sound who s) (allowed : s.allows operation = true) :
    Licensed { s with drawn := draws operation ++ s.drawn } operation ∧ ∀ token ∈ draws operation, token ∉ s.drawn := by
  have new : ∀ token ∈ draws operation, token ∉ s.drawn := by
    cases operation with
    | saveApproval token record => simpa [draws, System.allows] using allowed
    | _ => rintro _ ⟨⟩
  refine ⟨⟨?_, ?_⟩, new⟩
  · exact fun token member =>
      ⟨List.mem_append_left _ member, fun shown => new token member (sound.shown token shown).1⟩
  · rintro token rfl approval found
    have shown : token ∈ s.shown := by simpa [System.allows] using allowed
    exact (sound.shown token shown).2 approval found

theorem other_inv (inv : Inv who s) (operation : StateFile.Operation) (fails : Bool) :
    Inv who (step who hash maxSeen s (.other operation fails)) := by
  unfold step
  dsimp only
  split
  · rename_i allowed
    obtain ⟨licensed, new⟩ := licensed_of_allows inv.sound allowed
    have beside : ∀ state, StateFile.change maxSeen s.memory operation = .writes state () →
        Beside s.memory state operation := fun state written => change_beside operation allowed written
    have drawn := inv.sound.draw (draws operation)
    refine ⟨drawn.write fails fun state written => (beside state written).follows drawn licensed, ?_⟩
    have same : (System.write { s with drawn := draws operation ++ s.drawn }
        (StateFile.change maxSeen s.memory operation) fails).1.stage = s.stage := by
      unfold System.write
      split
      · rfl
      · rfl
      · split <;> rfl
    rw [same]
    exact AtStage.background inv.sound inv.stage (write_background (draws operation) rfl beside new)
  · exact inv

theorem present_shown_inv (inv : Inv who s) (token : String) : Inv who (step who hash maxSeen s (.present token)) := by
  unfold step
  dsimp only
  split
  · exact inv
  · rename_i record found
    have there := (Option.filter_eq_some_iff.mp found).1
    have sent := inv.sound.approval record.chatId record.runId record.approvalId
    refine ⟨⟨sent.numbered, sent.memory, sent.file, sent.ahead, sent.acked, sent.sent, sent.ordered, ?_⟩,
      AtStage.background inv.sound inv.stage (approval_background _ _ _ _)⟩
    intro other member
    rcases List.mem_cons.mp member with rfl | earlier
    · refine ⟨(inv.sound.memory.approvals other record there).1, ?_⟩
      intro approval again
      obtain rfl := Option.some.inj (there.symm.trans again)
      exact ⟨record.chatId, List.mem_append_right _ (List.mem_singleton_self _)⟩
    · exact sent.shown other earlier

theorem restart_inv (inv : Inv who s) : Inv who (step who hash maxSeen s .restart) := by
  unfold step
  dsimp only
  split
  · rename_i state done
    obtain rfl : s.file = state := by
      simp only [StateFile.read] at done
      split at done
      · cases done
      · split at done
        · cases done
        · exact Except.ok.inj done
    exact ⟨⟨inv.sound.numbered, inv.sound.file, inv.sound.file, le_rfl, inv.sound.acked, inv.sound.sent, inv.sound.ordered,
      by rintro _ ⟨⟩⟩, trivial⟩
  · exact inv.sound.idle

theorem step_inv (inv : Inv who s) (op : Op) : Inv who (step who hash maxSeen s op) := by
  cases op with
  | append tenantId dedupeKey payload createdAt => exact append_inv inv tenantId dedupeKey payload createdAt
  | acknowledge tenantId consumerId id ackedAt => exact acknowledge_inv inv tenantId consumerId id ackedAt
  | other operation fails => exact other_inv inv operation fails
  | present token => exact present_shown_inv inv token
  | deliver call fails token now => exact deliver_inv inv call fails token now
  | stop => exact inv.sound.idle
  | restart => exact restart_inv inv

end Runs

section Sends

variable {who : Principal} {s t : System}

/-- A step that sends nothing, and does not take the persisted cursor back. -/
structure Quiet (s t : System) : Prop where
  log : t.log = s.log
  cursor : s.file.notificationCursor ≤ t.file.notificationCursor

theorem Quiet.refl (s : System) : Quiet s s := ⟨rfl, le_rfl⟩

theorem Quiet.at_stage (quiet : Quiet s t) (stage : Stage) : Quiet s { t with stage := stage } := ⟨quiet.log, quiet.cursor⟩

theorem write_quiet {result : Result Unit} {fails : Bool} (quiet : Quiet s t)
    (ahead : ∀ state, result = .writes state () → s.file.notificationCursor ≤ state.notificationCursor) :
    Quiet s (t.write result fails).1 := by
  unfold System.write
  split
  · exact quiet
  · exact quiet
  · split
    · exact ⟨quiet.log, quiet.cursor⟩
    · exact ⟨quiet.log, ahead _ rfl⟩

theorem acknowledgeAndMark_quiet (sound : Sound who s) {id : Nat} {call : Call} {fails : Bool} {now : Int} {next : Stage} :
    Quiet s (s.acknowledgeAndMark who id call fails now next) := by
  unfold System.acknowledgeAndMark
  rcases acknowledge_cases (s := s) with refused | ⟨stored, returned, -, is⟩
  · rw [refused]
    exact ⟨rfl, le_rfl⟩
  · rw [is]
    cases returned with
    | false => exact ⟨rfl, le_rfl⟩
    | true =>
      have marked : Quiet s (System.write { s with db := stored } (s.memory.markNotificationAcknowledged id) fails).1 := by
        refine write_quiet ⟨rfl, le_rfl⟩ ?_
        intro state written
        rw [markNotificationAcknowledged_spec written]
        exact sound.ahead
      exact marked.at_stage _

theorem present_quiet (quiet : Quiet s t) (paired : Nat × Int) (notification : OwnerNotification) (token : String)
    (approvals : List NotificationApproval) (rest : List OwnerNotification) :
    Quiet s (t.present paired notification token approvals rest) := by
  unfold System.present
  split
  · exact quiet.at_stage _
  · exact quiet.at_stage _

theorem approve_quiet (sound : Sound who s) (paired : Nat × Int) (notification : OwnerNotification)
    (approval : NotificationApproval) (approvals : List NotificationApproval) (rest : List OwnerNotification) (fails : Bool)
    (token : String) : Quiet s (s.approve paired notification approval approvals rest fails token) := by
  unfold System.approve
  split
  · exact ⟨rfl, le_rfl⟩
  · split
    · exact present_quiet (.refl s) _ _ _ _ _
    · split
      · exact .refl s
      · cases fails with
        | true => exact ⟨rfl, le_rfl⟩
        | false =>
          have saved : Quiet s (System.write { s with drawn := token :: s.drawn }
              (s.memory.saveApproval token (approvalRecord paired notification approval)) false).1 := ⟨rfl, sound.ahead⟩
          exact present_quiet saved _ _ _ _ _

/-- What a step sends of the notifications: a row of the tenant behind the persisted cursor, to the paired chat. -/
structure Sends (who : Principal) (s t : System) : Prop where
  cursor : s.file.notificationCursor ≤ t.file.notificationCursor
  log : ∃ sent, t.log = s.log ++ sent ∧ ∀ chatId id text, Message.notification chatId id text ∈ sent →
    s.memory.paired.map Prod.snd = some chatId ∧ s.file.notificationCursor < id ∧
      ∃ row, Owned who s.db row ∧ row.id = id ∧ text = sentText row

theorem Quiet.sends (quiet : Quiet s t) : Sends who s t :=
  ⟨quiet.cursor, [], by rw [quiet.log, List.append_nil], by rintro _ _ _ ⟨⟩⟩

theorem sends_approval {chatId : Int} {runId approvalId : String}
    (cursor : s.file.notificationCursor ≤ t.file.notificationCursor)
    (log : t.log = s.log ++ [.approval chatId runId approvalId]) : Sends who s t := by
  refine ⟨cursor, _, log, ?_⟩
  intro _ _ _ member
  cases List.mem_singleton.mp member

theorem deliver_sends (inv : Inv who s) (call : Call) (fails : Bool) (token : String) (now : Int) :
    Sends who s (s.deliver who call fails token now) := by
  obtain ⟨sound, here⟩ := inv
  unfold System.deliver
  split
  · split
    · exact (Quiet.refl s).sends
    · exact ((Quiet.refl s).at_stage _).sends
  · split
    · exact ((Quiet.refl s).at_stage _).sends
    · exact ((Quiet.refl s).at_stage _).sends
  · exact (acknowledgeAndMark_quiet sound).sends
  · exact ((Quiet.refl s).at_stage _).sends
  · rename_i paired notification rest stage
    rw [stage] at here
    obtain ⟨identity, queue, behind⟩ := here
    unfold System.send
    split
    · refine ⟨le_rfl, _, rfl, ?_⟩
      intro chatId id text member
      cases List.mem_singleton.mp member
      refine ⟨by rw [identity]; rfl, ?_, notification, queue.owned notification List.mem_cons_self, rfl, rfl⟩
      exact lt_of_le_of_lt sound.ahead (behind notification List.mem_cons_self)
    · exact ((Quiet.refl s).at_stage _).sends
  · refine ((write_quiet (.refl s) ?_).at_stage _).sends
    intro state written
    rw [markNotificationDelivered_spec written]
    exact sound.ahead.trans (le_max_left _ _)
  · exact (approve_quiet sound _ _ _ _ _ fails token).sends
  · rename_i paired notification drawn record approvals rest stage
    cases call with
    | returned =>
      let sent := s.send (.approval record.chatId record.runId record.approvalId) .returned
      have marked : Quiet sent (sent.write (sent.memory.markApprovalDelivered drawn) fails).1 := by
        refine write_quiet (.refl sent) ?_
        intro state written
        rw [(markApprovalDelivered_beside 0 written).cursor]
        exact sound.ahead
      exact sends_approval marked.cursor marked.log
    | failed reached =>
      cases reached with
      | true => exact sends_approval le_rfl rfl
      | false => exact ((Quiet.refl s).at_stage _).sends
  · exact (acknowledgeAndMark_quiet sound).sends

theorem step_sends {hash : NotificationWrite → String} {maxSeen : Nat} (inv : Inv who s) (op : Op) :
    Sends who s (step who hash maxSeen s op) := by
  cases op with
  | append tenantId dedupeKey payload createdAt =>
    unfold step
    dsimp only
    split
    · exact Quiet.sends ⟨rfl, le_rfl⟩
    · exact (Quiet.refl s).sends
  | acknowledge tenantId consumerId id ackedAt =>
    unfold step
    dsimp only
    split
    · exact (Quiet.refl s).sends
    · split
      · exact Quiet.sends ⟨rfl, le_rfl⟩
      · exact (Quiet.refl s).sends
  | other operation fails =>
    unfold step
    dsimp only
    split
    · rename_i allowed
      refine Quiet.sends (write_quiet ⟨rfl, le_rfl⟩ ?_)
      intro state written
      rw [(change_beside operation allowed written).cursor]
      exact inv.sound.ahead
    · exact (Quiet.refl s).sends
  | present token =>
    unfold step
    dsimp only
    split
    · exact (Quiet.refl s).sends
    · exact sends_approval le_rfl rfl
  | deliver call fails token now => exact deliver_sends inv call fails token now
  | stop => exact ((Quiet.refl s).at_stage _).sends
  | restart =>
    unfold step
    dsimp only
    split
    · exact Quiet.sends ⟨rfl, le_rfl⟩
    · exact ((Quiet.refl s).at_stage _).sends

end Sends

section Reliable

variable (who : Principal) (hash : NotificationWrite → String) (maxSeen : Nat)

/-- Notifications are sent in the order of their identifiers, those up to the persisted cursor have been sent with all
their approvals, those that are acknowledged too, and what any step sends is a notification of the tenant behind the
persisted cursor, to the paired chat. -/
structure Reliable (s : System) : Prop where
  ordered : (sentIds s.log).Pairwise (· ≤ ·)
  complete : ∀ row, Owned who s.db row → row.id ≤ s.file.notificationCursor → Delivered row s.log
  acknowledged : ∀ id, Acked who s.db id → Arrived who s.db s.log id
  sends : ∀ op, Sends who s (step who hash maxSeen s op)

variable {who}

/-- A row is the only one of its identifier. -/
theorem eq_of_id {db : NotificationStore} (numbered : db.Numbered) {first second : OwnerNotification}
    (here : first ∈ db.notifications) (there : second ∈ db.notifications) (same : first.id = second.id) :
    first = second := by
  have distinct : (db.notifications.map OwnerNotification.id).Nodup :=
    List.pairwise_map.mpr (numbered.increasing.imp Nat.ne_of_lt)
  exact Rows.eq_of_key_eq distinct here there same

theorem Inv.reliable {s : System} (inv : Inv who s) : Reliable who hash maxSeen s where
  ordered := inv.sound.ordered
  complete := by
    intro row owned upto
    have arrived : Arrived who s.db s.log row.id := by
      rcases inv.sound.file.covered row owned upto with acked | pending
      · exact inv.sound.acked row.id acked
      · exact inv.sound.file.pending row.id pending
    obtain ⟨other, there, same, delivered⟩ := arrived
    rwa [eq_of_id inv.sound.numbered there.1 owned.1 same] at delivered
  acknowledged := inv.sound.acked
  sends := step_sends inv

theorem exec_inv {s : System} (inv : Inv who s) (ops : List Op) : Inv who (Run.exec (step who hash maxSeen) s ops) := by
  have preserved : ∀ s op, Inv who s → Inv who (step who hash maxSeen s op) := fun _ op inv => step_inv inv op
  exact Run.exec_invariant preserved inv ops

theorem inv_start : Inv who System.start := ⟨sound_start who, trivial⟩

/-- What a run sends of the notifications lies behind the cursor that was persisted when it began. -/
theorem exec_sends {s : System} (inv : Inv who s) (ops : List Op) :
    ∃ later, (Run.exec (step who hash maxSeen) s ops).log = s.log ++ later ∧
      ∀ id ∈ sentIds later, s.file.notificationCursor < id := by
  induction ops generalizing s with
  | nil => exact ⟨[], (List.append_nil _).symm, by rintro _ ⟨⟩⟩
  | cons op ops ih =>
    have moved : Sends who s (step who hash maxSeen s op) := step_sends inv op
    obtain ⟨advances, sent, log, behind⟩ := moved
    obtain ⟨later, logged, beyond⟩ := ih (step_inv inv op)
    refine ⟨sent ++ later, ?_, ?_⟩
    · rw [Run.exec_cons, logged, log, List.append_assoc]
    · intro id member
      rw [sentIds_append, List.mem_append] at member
      rcases member with first | after
      · obtain ⟨message, here, named⟩ := List.mem_filterMap.mp first
        cases message with
        | notification chatId other text =>
          cases named
          exact (behind chatId id text here).2.1
        | approval chatId runId approvalId => cases named
      · exact lt_of_le_of_lt advances (beyond id after)

end Reliable

/-- However the writers of notifications, the other consumers and the other tasks of the worker are interleaved with the
delivery, and wherever it is stopped or restarted, the delivery is reliable, and what is sent after any time lies behind
the cursor that was persisted then. -/
theorem notifications_reliable (who : Principal) (hash : NotificationWrite → String) (maxSeen : Nat)
    (first second : List Op) :
    Reliable who hash maxSeen (Run.exec (step who hash maxSeen) System.start first) ∧
      ∃ later, (Run.exec (step who hash maxSeen) System.start (first ++ second)).log =
          (Run.exec (step who hash maxSeen) System.start first).log ++ later ∧
        ∀ id ∈ sentIds later, (Run.exec (step who hash maxSeen) System.start first).file.notificationCursor < id := by
  have inv : Inv who (Run.exec (step who hash maxSeen) System.start first) := exec_inv hash maxSeen inv_start first
  refine ⟨inv.reliable hash maxSeen, ?_⟩
  rw [Run.exec_append]
  exact exec_sends hash maxSeen inv second

end OpenTulpa.Telegram.Notifications
