import OpenTulpa.Library.Run
import OpenTulpa.Library.Rows

/-! Device logins: calls that poll the authorization server under a lock of their login and exchange its answer for a
credential, while other calls of the same tenant poll, cancel the login or delete the credential. -/

namespace OpenTulpa.Inference.DeviceLogins

open Library

section Model

inductive LoginStatus where
  | pending
  | authorized
  | failed
  | expired
  deriving DecidableEq

structure DeviceLogin where
  id : String
  tenantId : String
  status : LoginStatus
  userCode : String
  deviceAuthId : String
  intervalSeconds : Nat
  nextPollAt : Int
  expiresAt : Int
  errorCode : Option String
  deriving DecidableEq

structure CodexCredential where
  accessToken : String
  refreshToken : String
  idToken : Option String
  accountId : Option String
  expiresAt : Int
  revision : Nat
  deriving DecidableEq

/-- Where a call of `get_device_login` waits: for the lock, for the answer to a poll, or for a credential. -/
inductive Point where
  | waiting
  | polling (login : DeviceLogin)
  | exchanging (login : DeviceLogin)
  deriving DecidableEq

structure Call where
  id : Nat
  loginId : String
  lock : Nat
  point : Point
  deriving DecidableEq

/-- What has happened: credentials obtained through a login and saved, logins cancelled, and calls that raised
because their login was gone. -/
inductive Entry where
  | saved (loginId : String)
  | cancelled (loginId : String)
  | raised (call : Nat)
  deriving DecidableEq

/-- The tables, the locks by login, the calls in flight, and the history, the newest entry first. -/
structure State where
  logins : List DeviceLogin
  credential : Option CodexCredential
  revision : Nat
  locks : List (String × Nat)
  nextLock : Nat
  calls : List Call
  history : List Entry
  deriving DecidableEq

/-- The answers of the server to a poll, as the code tells them apart. -/
inductive PollAnswer where
  | unreachable
  | authorized
  | later (slowDown : Bool)
  | refused
  deriving DecidableEq

inductive Event where
  | get (call : Nat) (loginId : String)
  | enter (call : Nat) (now : Int)
  | pollAnswer (call : Nat) (answer : PollAnswer) (now : Int)
  | exchangeAnswer (call : Nat) (credential : Option CodexCredential)
  | abandon (call : Nat)
  | cancel (loginId : String)
  | deleteCredential
  deriving DecidableEq

end Model

section Store

variable (tenantId : String)

def DeviceLogin.named (loginId : String) (login : DeviceLogin) : Bool :=
  login.tenantId == tenantId && login.id == loginId

def State.loadDeviceLogin (s : State) (loginId : String) : Option DeviceLogin :=
  s.logins.find? (DeviceLogin.named tenantId loginId)

/-- `update_device_login`, which raises when the row is gone. -/
def State.updateDeviceLogin (s : State) (call : Nat) (login : DeviceLogin) : State :=
  if (s.loadDeviceLogin tenantId login.id).isSome then
    { s with logins := Rows.update (DeviceLogin.named tenantId login.id) (fun _ => login) s.logins }
  else { s with history := .raised call :: s.history }

def State.saveCredential (s : State) (loginId : String) (credential : CodexCredential) : State :=
  { s with
    credential := some { credential with revision := s.revision + 1 }
    revision := s.revision + 1
    history := .saved loginId :: s.history }

def State.deleteCredential (s : State) : State :=
  match s.credential with
  | none => s
  | some _ => { s with credential := none, revision := s.revision + 1 }

end Store

section Calls

variable (tenantId : String)

def Point.login : Point → Option DeviceLogin
  | .waiting => none
  | .polling login | .exchanging login => some login

/-- The call waits for the server, and so holds its lock. -/
def Call.inFlight (call : Call) : Bool := call.point.login.isSome

def State.call (s : State) (id : Nat) : Option Call := s.calls.find? fun call => call.id == id

def State.finish (s : State) (id : Nat) : State := { s with calls := s.calls.filter fun call => call.id != id }

def State.moveTo (s : State) (id : Nat) (point : Point) : State :=
  { s with calls := s.calls.map fun call => if call.id = id then { call with point := point } else call }

def State.lockOf (s : State) (loginId : String) : Option Nat :=
  (s.locks.find? fun entry => entry.1 == loginId).map Prod.snd

def State.held (s : State) (lock : Nat) : Bool := s.calls.any fun call => call.inFlight && call.lock == lock

/-- The call of `get_device_login` takes the lock of its login from the map, or puts a new one there. -/
def State.getDeviceLogin (s : State) (id : Nat) (loginId : String) : State :=
  match s.lockOf loginId with
  | some lock => { s with calls := s.calls ++ [⟨id, loginId, lock, .waiting⟩] }
  | none =>
    { s with
      locks := s.locks ++ [(loginId, s.nextLock)]
      nextLock := s.nextLock + 1
      calls := s.calls ++ [⟨id, loginId, s.nextLock, .waiting⟩] }

/-- The body of `get_device_login` under the lock, up to its first answer. -/
def State.enter (s : State) (id : Nat) (loginId : String) (now : Int) : State :=
  match s.loadDeviceLogin tenantId loginId with
  | none => s.finish id
  | some login =>
    if login.status ≠ .pending then s.finish id
    else if login.expiresAt ≤ now then
      (s.updateDeviceLogin tenantId id { login with status := .expired, errorCode := some "expired" }).finish id
    else if now < login.nextPollAt then s.finish id
    else s.moveTo id (.polling login)

/-- The login after an answer that does not authorize it. -/
def DeviceLogin.afterPoll (login : DeviceLogin) (now : Int) : PollAnswer → DeviceLogin
  | .unreachable | .authorized => { login with nextPollAt := now + login.intervalSeconds }
  | .later slowDown =>
    let interval := login.intervalSeconds + if slowDown then 5 else 0
    { login with intervalSeconds := interval, nextPollAt := now + interval }
  | .refused => { login with status := .failed, errorCode := some "authorization_failed" }

/-- `_poll_device_login` -/
def State.polled (s : State) (id : Nat) (login : DeviceLogin) (answer : PollAnswer) (now : Int) : State :=
  match answer with
  | .authorized => s.moveTo id (.exchanging login)
  | answer => (s.updateDeviceLogin tenantId id (login.afterPoll now answer)).finish id

/-- `_exchange_device_login` -/
def State.exchanged (s : State) (id : Nat) (login : DeviceLogin) : Option CodexCredential → State
  | none =>
    (s.updateDeviceLogin tenantId id { login with status := .failed, errorCode := some "authorization_failed" }).finish id
  | some credential =>
    ((s.saveCredential login.id credential).updateDeviceLogin tenantId id
      { login with status := .authorized, errorCode := none }).finish id

/-- `cancel_device_login` -/
def State.cancelDeviceLogin (s : State) (loginId : String) : State :=
  { s with
    locks := s.locks.filter fun entry => entry.1 != loginId
    logins := s.logins.filter fun login => !login.named tenantId loginId
    history := if (s.loadDeviceLogin tenantId loginId).isSome then .cancelled loginId :: s.history else s.history }

def step (s : State) : Event → State
  | .get id loginId => if (s.call id).isSome then s else s.getDeviceLogin id loginId
  | .enter id now =>
    match s.call id with
    | some ⟨_, loginId, lock, .waiting⟩ => if s.held lock then s else s.enter tenantId id loginId now
    | _ => s
  | .pollAnswer id answer now =>
    match s.call id with
    | some ⟨_, _, _, .polling login⟩ => s.polled tenantId id login answer now
    | _ => s
  | .exchangeAnswer id credential =>
    match s.call id with
    | some ⟨_, _, _, .exchanging login⟩ => s.exchanged tenantId id login credential
    | _ => s
  | .abandon id => s.finish id
  | .cancel loginId => s.cancelDeviceLogin tenantId loginId
  | .deleteCredential => s.deleteCredential

/-- The service with the stored logins, before any call. -/
def start (logins : List DeviceLogin) (credential : Option CodexCredential) (revision : Nat) : State :=
  ⟨logins, credential, revision, [], 0, [], []⟩

end Calls

section Specification

/-- No call raised, and a credential is saved at most once through a login, and never after its cancellation. -/
def Authorized : List Entry → Prop
  | [] => True
  | .raised _ :: _ => False
  | .saved loginId :: earlier => .cancelled loginId ∉ earlier ∧ .saved loginId ∉ earlier ∧ Authorized earlier
  | .cancelled _ :: earlier => Authorized earlier

/-- At most one poll of a login is in flight, and the history authorizes no more than it should. -/
def Sound (s : State) : Prop :=
  (∀ first ∈ s.calls, ∀ second ∈ s.calls, first.inFlight = true → second.inFlight = true →
    first.loginId = second.loginId → first = second) ∧ Authorized s.history

/-- A cancellation finds no poll of its login in flight. -/
def CancelsIdle (s : State) : Event → Prop
  | .cancel loginId => ∀ call ∈ s.calls, call.loginId = loginId → call.inFlight = false
  | _ => True

instance (s : State) : (event : Event) → Decidable (CancelsIdle s event)
  | .get .. | .enter .. | .pollAnswer .. | .exchangeAnswer .. | .abandon .. | .deleteCredential => isTrue trivial
  | .cancel loginId => inferInstanceAs (Decidable (∀ call ∈ s.calls, call.loginId = loginId → call.inFlight = false))

end Specification

section Invariant

variable {tenantId : String} {s : State}

/-- A call in flight polls the pending login of its name, a call on a stored login uses the lock in the map, a lock has
one holder, and the history agrees with the stored logins. -/
structure Inv (tenantId : String) (s : State) : Prop where
  ids : (s.calls.map Call.id).Nodup
  polls : ∀ call ∈ s.calls, ∀ login, call.point.login = some login →
    login.named tenantId call.loginId = true ∧
      ∃ row, s.loadDeviceLogin tenantId call.loginId = some row ∧ row.status = .pending
  current : ∀ call ∈ s.calls, s.loadDeviceLogin tenantId call.loginId ≠ none → s.lockOf call.loginId = some call.lock
  single : ∀ first ∈ s.calls, ∀ second ∈ s.calls, first.inFlight = true → second.inFlight = true →
    first.lock = second.lock → first.id = second.id
  saved : ∀ loginId row, .saved loginId ∈ s.history → s.loadDeviceLogin tenantId loginId = some row →
    row.status ≠ .pending
  cancelled : ∀ loginId, .cancelled loginId ∈ s.history → s.loadDeviceLogin tenantId loginId = none
  authorized : Authorized s.history

theorem inFlight_iff {call : Call} : call.inFlight = true ↔ ∃ login, call.point.login = some login :=
  Option.isSome_iff_exists

/-- Two calls in flight on one login are one call. -/
theorem Inv.same_id (inv : Inv tenantId s) {first second : Call} (left : first ∈ s.calls) (right : second ∈ s.calls)
    (flies : first.inFlight = true) (also : second.inFlight = true) (login : first.loginId = second.loginId) :
    first.id = second.id := by
  obtain ⟨polled, known⟩ := inFlight_iff.mp flies
  obtain ⟨-, row, stored, -⟩ := inv.polls first left polled known
  have present : s.loadDeviceLogin tenantId first.loginId ≠ none := by
    rw [stored]
    exact Option.some_ne_none row
  have one := inv.current first left present
  rw [login] at present one
  exact inv.single first left second right flies also (Option.some.inj (one.symm.trans (inv.current second right present)))

theorem Inv.sound (inv : Inv tenantId s) : Sound s := by
  refine ⟨?_, inv.authorized⟩
  intro first left second right flies also login
  exact Rows.eq_of_key_eq inv.ids left right (inv.same_id left right flies also login)

theorem call_mem {id : Nat} {call : Call} (found : s.call id = some call) : call ∈ s.calls ∧ call.id = id :=
  ⟨List.mem_of_find?_eq_some found, by simpa using List.find?_some found⟩

theorem start_inv (logins : List DeviceLogin) (credential : Option CodexCredential) (revision : Nat) :
    Inv tenantId (start logins credential revision) where
  ids := List.nodup_nil
  polls := by rintro _ ⟨⟩
  current := by rintro _ ⟨⟩
  single := by rintro _ ⟨⟩
  saved := by rintro _ _ ⟨⟩
  cancelled := by rintro _ ⟨⟩
  authorized := trivial

/-- Ending a call keeps the invariant. -/
theorem Inv.finish (inv : Inv tenantId s) (id : Nat) : Inv tenantId (s.finish id) where
  ids := inv.ids.sublist (List.filter_sublist.map Call.id)
  polls := fun call member => inv.polls call (List.mem_of_mem_filter member)
  current := fun call member => inv.current call (List.mem_of_mem_filter member)
  single := fun first left second right => inv.single first (List.mem_of_mem_filter left) second (List.mem_of_mem_filter right)
  saved := inv.saved
  cancelled := inv.cancelled
  authorized := inv.authorized

end Invariant

section Rows

variable {tenantId : String} {s : State}

theorem load_named {loginId : String} {login : DeviceLogin} (found : s.loadDeviceLogin tenantId loginId = some login) :
    login.named tenantId loginId = true := List.find?_some found

theorem named_iff {loginId : String} {login : DeviceLogin} :
    login.named tenantId loginId = true ↔ login.tenantId = tenantId ∧ login.id = loginId := by
  simp [DeviceLogin.named]

/-- The tables after a row was replaced by another of its name. -/
def State.replaced (s : State) (login : DeviceLogin) : List DeviceLogin :=
  Rows.update (DeviceLogin.named login.tenantId login.id) (fun _ => login) s.logins

theorem find_replaced {login row : DeviceLogin} (stored : s.loadDeviceLogin login.tenantId login.id = some row) :
    (s.replaced login).find? (DeviceLogin.named login.tenantId login.id) = some login := by
  have same : login.named login.tenantId login.id = true := named_iff.mpr ⟨rfl, rfl⟩
  unfold State.replaced
  rw [Rows.find_update _ _ _ _ fun other chosen => same.trans chosen.symm]
  unfold State.loadDeviceLogin at stored
  rw [stored]
  simp only [Option.map_some, List.find?_some stored, if_true]

theorem find_replaced_of_ne {login : DeviceLogin} {loginId : String} (other : loginId ≠ login.id) :
    (s.replaced login).find? (DeviceLogin.named tenantId loginId) = s.loadDeviceLogin tenantId loginId := by
  have misses : ∀ row : DeviceLogin, row.named login.tenantId login.id = true → row.named tenantId loginId = false := by
    intro row chosen
    rw [Bool.eq_false_iff]
    intro named
    exact other ((named_iff.mp named).2.symm.trans (named_iff.mp chosen).2)
  have missed : login.named tenantId loginId = false := misses login (named_iff.mpr ⟨rfl, rfl⟩)
  unfold State.replaced
  rw [Rows.find_update _ _ _ _ fun row chosen => missed.trans (misses row chosen).symm]
  unfold State.loadDeviceLogin
  cases found : s.logins.find? (DeviceLogin.named tenantId loginId) with
  | none => rfl
  | some row =>
    have named := List.find?_some found
    have unchosen : row.named login.tenantId login.id = false := by
      rw [Bool.eq_false_iff]
      intro chosen
      rw [misses row chosen] at named
      cases named
    simp [unchosen]

end Rows

section Steps

variable {tenantId : String} {s : State}

/-- The pending login of a call that no other call polls is written back, and the call ends; a credential may have
been saved for it unless it stays pending. -/
theorem Inv.settle {after : State} (inv : Inv tenantId s) {id : Nat} {login row : DeviceLogin}
    (tenant : login.tenantId = tenantId) (stored : s.loadDeviceLogin tenantId login.id = some row)
    (pending : row.status = .pending)
    (alone : ∀ call ∈ s.calls, call.inFlight = true → call.loginId = login.id → call.id = id)
    (logins : after.logins = s.replaced login) (locks : after.locks = s.locks) (calls : after.calls = (s.finish id).calls)
    (history : after.history = s.history ∨
      (after.history = .saved login.id :: s.history ∧ login.status ≠ .pending)) : Inv tenantId after := by
  have own : after.loadDeviceLogin tenantId login.id = some login := by
    subst tenant
    unfold State.loadDeviceLogin
    rw [logins]
    exact find_replaced stored
  have others : ∀ loginId, loginId ≠ login.id →
      after.loadDeviceLogin tenantId loginId = s.loadDeviceLogin tenantId loginId := by
    intro loginId other
    conv_lhs => unfold State.loadDeviceLogin
    rw [logins]
    exact find_replaced_of_ne other
  have unsaved : .saved login.id ∉ s.history := fun member => inv.saved login.id row member stored pending
  have kept : ∀ call ∈ after.calls, call ∈ s.calls ∧ call.id ≠ id := by
    intro call member
    rw [calls] at member
    simpa [State.finish] using member
  refine ⟨?_, ?_, ?_, ?_, ?_, ?_, ?_⟩
  · rw [calls]
    exact (inv.finish id).ids
  · intro call member polled known
    obtain ⟨present, other⟩ := kept call member
    obtain ⟨named, found, loaded, waits⟩ := inv.polls call present polled known
    have apart : call.loginId ≠ login.id := fun same =>
      other (alone call present (inFlight_iff.mpr ⟨polled, known⟩) same)
    exact ⟨named, found, (others _ apart).trans loaded, waits⟩
  · intro call member loaded
    have same : after.lockOf call.loginId = s.lockOf call.loginId := by
      unfold State.lockOf
      rw [locks]
    rw [same]
    apply inv.current call (kept call member).1
    by_cases own : call.loginId = login.id
    · rw [own, stored]
      exact Option.some_ne_none row
    · rwa [← others _ own]
  · intro first left second right
    exact inv.single first (kept first left).1 second (kept second right).1
  · intro loginId found member loaded
    by_cases same : loginId = login.id
    · rw [same] at member loaded
      obtain rfl : login = found := Option.some.inj (own.symm.trans loaded)
      rcases history with unchanged | ⟨-, decided⟩
      · rw [unchanged] at member
        exact absurd member unsaved
      · exact decided
    · rw [others _ same] at loaded
      refine inv.saved loginId found ?_ loaded
      rcases history with unchanged | ⟨grown, -⟩
      · rwa [unchanged] at member
      · rw [grown, List.mem_cons] at member
        rcases member with new | old
        · exact absurd (Entry.saved.inj new) same
        · exact old
  · intro loginId member
    have gone : s.loadDeviceLogin tenantId loginId = none := by
      apply inv.cancelled
      rcases history with unchanged | ⟨grown, -⟩
      · rwa [unchanged] at member
      · rw [grown, List.mem_cons] at member
        rcases member with ⟨⟨⟩⟩ | old
        exact old
    rw [others loginId, gone]
    rintro rfl
    rw [stored] at gone
    cases gone
  · rcases history with unchanged | ⟨grown, -⟩
    · rw [unchanged]
      exact inv.authorized
    · rw [grown]
      refine ⟨?_, unsaved, inv.authorized⟩
      intro member
      rw [inv.cancelled _ member] at stored
      cases stored

theorem updateDeviceLogin_stored {id : Nat} {login row : DeviceLogin} (tenant : login.tenantId = tenantId)
    (stored : s.loadDeviceLogin tenantId login.id = some row) :
    s.updateDeviceLogin tenantId id login = { s with logins := s.replaced login } := by
  subst tenant
  simp [State.updateDeviceLogin, stored, State.replaced]

/-- Writing the polled login back under its name ends the call. -/
theorem Inv.written (inv : Inv tenantId s) {id : Nat} {login row : DeviceLogin} (tenant : login.tenantId = tenantId)
    (stored : s.loadDeviceLogin tenantId login.id = some row) (pending : row.status = .pending)
    (alone : ∀ call ∈ s.calls, call.inFlight = true → call.loginId = login.id → call.id = id) :
    Inv tenantId ((s.updateDeviceLogin tenantId id login).finish id) := by
  rw [updateDeviceLogin_stored tenant stored]
  exact inv.settle tenant stored pending alone rfl rfl rfl (Or.inl rfl)

/-- A call in flight goes on to wait for another answer about the same login. -/
theorem Inv.moveTo (inv : Inv tenantId s) {call : Call} (member : call ∈ s.calls) {point : Point} {login row : DeviceLogin}
    (moved : point.login = some login) (named : login.named tenantId call.loginId = true)
    (stored : s.loadDeviceLogin tenantId call.loginId = some row) (pending : row.status = .pending)
    (alone : ∀ other ∈ s.calls, other.inFlight = true → other.lock = call.lock → other.id = call.id) :
    Inv tenantId (s.moveTo call.id point) := by
  have shape : ∀ other ∈ (s.moveTo call.id point).calls, ∃ old ∈ s.calls, other.id = old.id ∧ other.loginId = old.loginId ∧
      other.lock = old.lock ∧ ((old = call ∧ other.point = point) ∨ (old.id ≠ call.id ∧ other.point = old.point)) := by
    intro other present
    obtain ⟨old, before, rfl⟩ := List.mem_map.mp present
    refine ⟨old, before, ?_⟩
    by_cases same : old.id = call.id
    · obtain rfl := Rows.eq_of_key_eq inv.ids before member same
      simp
    · simp [same]
  refine ⟨?_, ?_, ?_, ?_, inv.saved, inv.cancelled, inv.authorized⟩
  · have same : (s.moveTo call.id point).calls.map Call.id = s.calls.map Call.id := by
      simp only [State.moveTo, List.map_map]
      apply List.map_congr_left
      intro old _
      simp only [Function.comp_apply]
      split <;> rfl
    rw [same]
    exact inv.ids
  · intro other present polled known
    obtain ⟨old, before, -, name, -, ⟨rfl, here⟩ | ⟨-, here⟩⟩ := shape other present
    · rw [here, moved] at known
      obtain rfl := Option.some.inj known
      rw [name]
      exact ⟨named, row, stored, pending⟩
    · rw [here] at known
      rw [name]
      exact inv.polls old before polled known
  · intro other present loaded
    obtain ⟨old, before, -, name, lock, -⟩ := shape other present
    rw [name] at loaded ⊢
    rw [lock]
    exact inv.current old before loaded
  · intro first left second right flies also lock
    obtain ⟨old, before, id, -, held, here⟩ := shape first left
    obtain ⟨later, there, id', -, held', here'⟩ := shape second right
    rw [held, held'] at lock
    rw [id, id']
    rcases here with ⟨rfl, -⟩ | ⟨-, same⟩
    · rcases here' with ⟨rfl, -⟩ | ⟨-, same'⟩
      · rfl
      · have flying : later.inFlight = true := by
          unfold Call.inFlight at also ⊢
          rwa [same'] at also
        exact (alone later there flying lock.symm).symm
    · have flying : old.inFlight = true := by
        unfold Call.inFlight at flies ⊢
        rwa [same] at flies
      rcases here' with ⟨rfl, -⟩ | ⟨-, same'⟩
      · exact alone old before flying lock
      · have also' : later.inFlight = true := by
          unfold Call.inFlight at also ⊢
          rwa [same'] at also
        exact inv.single old before later there flying also' lock

theorem lockOf_append {loginId other : String} {lock : Nat} (absent : s.lockOf loginId = none) :
    ((s.locks ++ [(loginId, lock)]).find? fun entry => entry.1 == other).map Prod.snd =
      if other = loginId then some lock else s.lockOf other := by
  unfold State.lockOf at absent ⊢
  rw [List.find?_append]
  split
  · rename_i same
    subst same
    rw [Option.map_eq_none_iff] at absent
    rw [absent]
    simp
  · rename_i different
    cases found : s.locks.find? fun entry => entry.1 == other with
    | none => simp [Ne.symm different]
    | some entry => rfl

theorem Inv.get (inv : Inv tenantId s) {id : Nat} (fresh : s.call id = none) (loginId : String) :
    Inv tenantId (s.getDeviceLogin id loginId) := by
  have unused : id ∉ s.calls.map Call.id := by
    intro member
    obtain ⟨call, present, same⟩ := List.mem_map.mp member
    have missed := List.find?_eq_none.mp fresh call present
    simp [same] at missed
  have shape : ∃ lock, (s.getDeviceLogin id loginId).calls = s.calls ++ [⟨id, loginId, lock, .waiting⟩] ∧
      (s.getDeviceLogin id loginId).lockOf loginId = some lock ∧
      ∀ other lock', s.lockOf other = some lock' → (s.getDeviceLogin id loginId).lockOf other = some lock' := by
    unfold State.getDeviceLogin
    split
    · rename_i lock found
      exact ⟨lock, rfl, found, fun _ _ held => held⟩
    · rename_i absent
      refine ⟨s.nextLock, rfl, ?_, ?_⟩
      · exact (lockOf_append absent).trans (if_pos rfl)
      · intro other lock' held
        refine (lockOf_append absent).trans ?_
        rw [if_neg, held]
        rintro rfl
        rw [absent] at held
        cases held
  have rows : (s.getDeviceLogin id loginId).logins = s.logins ∧ (s.getDeviceLogin id loginId).history = s.history := by
    unfold State.getDeviceLogin
    split <;> exact ⟨rfl, rfl⟩
  have loads : ∀ other, (s.getDeviceLogin id loginId).loadDeviceLogin tenantId other = s.loadDeviceLogin tenantId other := by
    intro other
    unfold State.loadDeviceLogin
    rw [rows.1]
  obtain ⟨lock, calls, locked, keeps⟩ := shape
  have member : ∀ call ∈ (s.getDeviceLogin id loginId).calls, call ∈ s.calls ∨ call = ⟨id, loginId, lock, .waiting⟩ := by
    intro call present
    rw [calls] at present
    simpa using present
  refine ⟨?_, ?_, ?_, ?_, ?_, ?_, ?_⟩
  · rw [calls, List.map_append, List.nodup_append]
    refine ⟨inv.ids, by simp, ?_⟩
    rintro first left second right rfl
    obtain rfl : first = id := by simpa using right
    exact unused left
  · intro call present polled known
    rcases member call present with old | rfl
    · rw [loads]
      exact inv.polls call old polled known
    · cases known
  · intro call present loaded
    rw [loads] at loaded
    rcases member call present with old | rfl
    · exact keeps _ _ (inv.current call old loaded)
    · exact locked
  · intro first left second right flies also same
    rcases member first left with old | rfl
    · rcases member second right with old' | rfl
      · exact inv.single first old second old' flies also same
      · cases also
    · cases flies
  · intro name row
    rw [rows.2, loads]
    exact inv.saved name row
  · intro name
    rw [rows.2, loads]
    exact inv.cancelled name
  · rw [rows.2]
    exact inv.authorized

theorem Inv.enter (inv : Inv tenantId s) {call : Call} (member : call ∈ s.calls) (free : s.held call.lock = false)
    (now : Int) : Inv tenantId (s.enter tenantId call.id call.loginId now) := by
  have idle : ∀ other ∈ s.calls, other.inFlight = true → other.lock ≠ call.lock := by
    intro other present flies same
    have held : s.held call.lock = true := List.any_eq_true.mpr ⟨other, present, by simp [flies, same]⟩
    rw [free] at held
    cases held
  unfold State.enter
  split
  · exact inv.finish call.id
  · rename_i login stored
    obtain ⟨tenant, name⟩ := named_iff.mp (load_named stored)
    split
    · exact inv.finish call.id
    · rename_i pending
      rw [not_not] at pending
      have alone : ∀ other ∈ s.calls, other.inFlight = true → other.loginId = login.id → other.id = call.id := by
        intro other present flies same
        have loaded : s.loadDeviceLogin tenantId call.loginId ≠ none := by
          rw [stored]
          exact Option.some_ne_none login
        have one := inv.current call member loaded
        rw [name] at same
        rw [← same] at one loaded
        exact absurd (Option.some.inj ((inv.current other present loaded).symm.trans one)) (idle other present flies)
      split
      · rw [← name] at stored
        exact inv.written tenant stored pending alone
      · split
        · exact inv.finish call.id
        · exact inv.moveTo member rfl (load_named stored) stored pending
            fun other present flies same => absurd same (idle other present flies)

/-- What is known of the login that a call in flight polls. -/
theorem Inv.flying (inv : Inv tenantId s) {call : Call} (member : call ∈ s.calls) {login : DeviceLogin}
    (polled : call.point.login = some login) :
    login.tenantId = tenantId ∧ login.id = call.loginId ∧
      (∃ row, s.loadDeviceLogin tenantId login.id = some row ∧ row.status = .pending) ∧
      ∀ other ∈ s.calls, other.inFlight = true → other.loginId = login.id → other.id = call.id := by
  obtain ⟨named, row, stored, pending⟩ := inv.polls call member login polled
  obtain ⟨tenant, name⟩ := named_iff.mp named
  refine ⟨tenant, name, ⟨row, name ▸ stored, pending⟩, ?_⟩
  intro other present flies same
  exact inv.same_id present member flies (inFlight_iff.mpr ⟨login, polled⟩) (same.trans name)

theorem afterPoll_name (login : DeviceLogin) (now : Int) (answer : PollAnswer) :
    (login.afterPoll now answer).tenantId = login.tenantId ∧ (login.afterPoll now answer).id = login.id := by
  cases answer <;> exact ⟨rfl, rfl⟩

theorem Inv.polled (inv : Inv tenantId s) {call : Call} (member : call ∈ s.calls) {login : DeviceLogin}
    (here : call.point = .polling login) (answer : PollAnswer) (now : Int) :
    Inv tenantId (s.polled tenantId call.id login answer now) := by
  have flies : call.point.login = some login := by rw [here]; rfl
  obtain ⟨tenant, name, ⟨row, stored, pending⟩, alone⟩ := inv.flying member flies
  unfold State.polled
  split
  · have named : login.named tenantId call.loginId = true := named_iff.mpr ⟨tenant, name⟩
    exact inv.moveTo member rfl named (name ▸ stored) pending fun other present flying lock =>
      inv.single other present call member flying (inFlight_iff.mpr ⟨login, flies⟩) lock
  · obtain ⟨sameTenant, sameName⟩ := afterPoll_name login now answer
    apply inv.written (sameTenant.trans tenant) (sameName ▸ stored) pending
    rw [sameName]
    exact alone

theorem Inv.exchanged (inv : Inv tenantId s) {call : Call} (member : call ∈ s.calls) {login : DeviceLogin}
    (here : call.point = .exchanging login) (credential : Option CodexCredential) :
    Inv tenantId (s.exchanged tenantId call.id login credential) := by
  have flies : call.point.login = some login := by rw [here]; rfl
  obtain ⟨tenant, name, ⟨row, stored, pending⟩, alone⟩ := inv.flying member flies
  cases credential with
  | none =>
    let refused : DeviceLogin := { login with status := .failed, errorCode := some "authorization_failed" }
    have written : Inv tenantId ((s.updateDeviceLogin tenantId call.id refused).finish call.id) :=
      inv.written tenant stored pending alone
    exact written
  | some credential =>
    let decided : DeviceLogin := { login with status := .authorized, errorCode := none }
    have written : (s.saveCredential login.id credential).updateDeviceLogin tenantId call.id decided =
        { s.saveCredential login.id credential with logins := s.replaced decided } :=
      updateDeviceLogin_stored tenant stored
    simp only [State.exchanged]
    rw [written]
    have owned : decided.tenantId = tenantId := tenant
    have undecided : decided.status ≠ .pending := by rintro ⟨⟩
    exact inv.settle owned stored pending alone rfl rfl rfl (Or.inr ⟨rfl, undecided⟩)

theorem Inv.cancel (inv : Inv tenantId s) {loginId : String}
    (idle : ∀ call ∈ s.calls, call.loginId = loginId → call.inFlight = false) :
    Inv tenantId (s.cancelDeviceLogin tenantId loginId) := by
  have gone : (s.cancelDeviceLogin tenantId loginId).loadDeviceLogin tenantId loginId = none := by
    simp only [State.loadDeviceLogin, State.cancelDeviceLogin, List.find?_eq_none, List.mem_filter]
    rintro login ⟨-, other⟩
    simpa using other
  have others : ∀ name, name ≠ loginId →
      (s.cancelDeviceLogin tenantId loginId).loadDeviceLogin tenantId name = s.loadDeviceLogin tenantId name := by
    intro name different
    simp only [State.loadDeviceLogin, State.cancelDeviceLogin, List.find?_filter]
    congr 1
    funext login
    cases named : login.named tenantId name with
    | false => simp
    | true =>
      have kept : login.named tenantId loginId = false := by
        rw [Bool.eq_false_iff]
        intro cancelled
        exact different ((named_iff.mp named).2.symm.trans (named_iff.mp cancelled).2)
      simp [kept]
  have locks : ∀ name, name ≠ loginId → (s.cancelDeviceLogin tenantId loginId).lockOf name = s.lockOf name := by
    intro name different
    simp only [State.lockOf, State.cancelDeviceLogin, List.find?_filter]
    congr 2
    funext entry
    by_cases same : entry.1 = name
    · simp [same, different]
    · simp [same]
  have history : ∀ entry ∈ (s.cancelDeviceLogin tenantId loginId).history,
      entry ∈ s.history ∨ entry = .cancelled loginId := by
    intro entry member
    simp only [State.cancelDeviceLogin] at member
    split at member
    · rcases List.mem_cons.mp member with rfl | old
      · exact Or.inr rfl
      · exact Or.inl old
    · exact Or.inl member
  refine ⟨inv.ids, ?_, ?_, inv.single, ?_, ?_, ?_⟩
  · intro call member login polled
    obtain ⟨named, row, stored, pending⟩ := inv.polls call member login polled
    have different : call.loginId ≠ loginId := by
      intro same
      have flies : call.inFlight = true := inFlight_iff.mpr ⟨login, polled⟩
      rw [idle call member same] at flies
      cases flies
    exact ⟨named, row, (others _ different).trans stored, pending⟩
  · intro call member loaded
    have different : call.loginId ≠ loginId := by
      intro same
      rw [same] at loaded
      exact loaded gone
    rw [others _ different] at loaded
    rw [locks _ different]
    exact inv.current call member loaded
  · intro name row member stored
    have different : name ≠ loginId := by
      rintro rfl
      rw [gone] at stored
      cases stored
    rw [others _ different] at stored
    rcases history _ member with old | ⟨⟨⟩⟩
    exact inv.saved name row old stored
  · intro name member
    by_cases same : name = loginId
    · rw [same]
      exact gone
    · rw [others _ same]
      rcases history _ member with old | new
      · exact inv.cancelled name old
      · exact absurd (Entry.cancelled.inj new) same
  · simp only [State.cancelDeviceLogin]
    split
    · exact inv.authorized
    · exact inv.authorized

theorem Inv.deleteCredential (inv : Inv tenantId s) : Inv tenantId s.deleteCredential := by
  unfold State.deleteCredential
  split
  · exact inv
  · exact ⟨inv.ids, inv.polls, inv.current, inv.single, inv.saved, inv.cancelled, inv.authorized⟩

theorem step_inv (s : State) (event : Event) (inv : Inv tenantId s) (idle : CancelsIdle s event) :
    Inv tenantId (step tenantId s event) := by
  cases event with
  | get id loginId =>
    simp only [step]
    split
    · exact inv
    · rename_i fresh
      exact inv.get (by simpa using fresh) loginId
  | enter id now =>
    simp only [step]
    split
    · rename_i own loginId lock found
      obtain ⟨member, same⟩ := call_mem found
      split
      · exact inv
      · rename_i free
        have entered := inv.enter member (by simpa using free) now
        rwa [same] at entered
    · exact inv
  | pollAnswer id answer now =>
    simp only [step]
    split
    · rename_i own loginId lock login found
      obtain ⟨member, same⟩ := call_mem found
      have answered := inv.polled member rfl answer now
      rwa [same] at answered
    · exact inv
  | exchangeAnswer id credential =>
    simp only [step]
    split
    · rename_i own loginId lock login found
      obtain ⟨member, same⟩ := call_mem found
      have answered := inv.exchanged member rfl credential
      rwa [same] at answered
    · exact inv
  | abandon id => exact inv.finish id
  | cancel loginId => exact inv.cancel idle
  | deleteCredential => exact inv.deleteCredential

end Steps

/-- In a run of polls, cancellations and deletions of one tenant, with any answers of the server, in which no login is
cancelled while a poll of it is in flight, at most one poll of a login is in flight, a credential is saved at most
once through a login and never after its cancellation, and no call raises for want of its login. -/
theorem cancelled_login_authorizes_nothing (tenantId : String) (logins : List DeviceLogin)
    (credential : Option CodexCredential) (revision : Nat) (events : List Event)
    (idle : Run.Guarded (step tenantId) CancelsIdle (start logins credential revision) events) (n : Nat) :
    Sound (Run.exec (step tenantId) (start logins credential revision) (events.take n)) :=
  ((idle.take n).invariant step_inv (start_inv logins credential revision)).sound

def sampleLogin : DeviceLogin where
  id := "login_1"
  tenantId := "owner"
  status := .pending
  userCode := "ABCD-EFGH"
  deviceAuthId := "device"
  intervalSeconds := 5
  nextPollAt := 0
  expiresAt := 900
  errorCode := none

def sampleCredential : CodexCredential := ⟨"access", "refresh", none, none, 3600, 1⟩

/-- A poll that is authorized and waits for the credential. -/
def samplePoll : List Event := [.get 1 "login_1", .enter 1 1, .pollAnswer 1 .authorized 1]

def sampleCancelledAfter : List Event := samplePoll ++ [.exchangeAnswer 1 (some sampleCredential), .cancel "login_1"]

theorem cancelled_login_authorizes_nothing_cancelledAfter :
    Sound (Run.exec (step "owner") (start [sampleLogin] none 0) sampleCancelledAfter) :=
  cancelled_login_authorizes_nothing "owner" [sampleLogin] none 0 sampleCancelledAfter (by decide +kernel) 5

/-- A login cancelled during the exchange: the credential is saved all the same, and the call raises. -/
theorem cancelled_exchange_saves :
    ¬Sound (Run.exec (step "owner") (start [sampleLogin] none 0)
      (samplePoll ++ [.cancel "login_1", .exchangeAnswer 1 (some sampleCredential)])) := by
  have history : (Run.exec (step "owner") (start [sampleLogin] none 0)
      (samplePoll ++ [.cancel "login_1", .exchangeAnswer 1 (some sampleCredential)])).history =
        [.raised 1, .saved "login_1", .cancelled "login_1"] := by decide +kernel
  rintro ⟨-, authorized⟩
  rw [history] at authorized
  exact authorized

end OpenTulpa.Inference.DeviceLogins
