import OpenTulpa.Telegram.Worker
import OpenTulpa.Library.Run

/-! What the retries of a message send. An attempt that failed before its first event is made again
from the inbox, and the texts that wait behind the message by then are merged into it. -/

namespace OpenTulpa.Telegram.Retries

open Library Text Worker

/-- How far an attempt has come. Uploads are made between `ready` and `started`. -/
inductive Stage where
  | gathering
  | waiting
  | ready (text : String)
  | started
  deriving DecidableEq

/-- An attempt to process an update. -/
structure Flight where
  updateId : Nat
  update : Update
  stage : Stage
  deriving DecidableEq

/-- A call of `start_run`, with the update that it was made for. -/
structure StartRun where
  updateId : Nat
  sourceEventId : String
  update : Update
  text : String
  deriving DecidableEq

/-- The worker with its attempts, the calls it made, oldest first, and the plain texts that were accepted
or merged, each with the update that carries it. -/
structure System where
  state : State
  flights : List Flight
  log : List StartRun
  parts : List (Nat × String)
  deriving DecidableEq

def System.start : System := ⟨defaultState, [], [], []⟩

inductive Op where
  | accept (updateId : Nat) (update : Update)
  | begin (updateId : Nat)
  | proceed (flight : Nat)
  | call (flight : Nat)
  | event (flight : Nat)
  | finish (flight : Nat)
  | fail (flight : Nat)
  | recover (updateId : Nat)
  | pair (userId : Nat) (chatId : Int)
  | awaitEdits (chats : List Int)
  | restart
  deriving DecidableEq

section Step

variable (bot : Bot)

def partOf (updateId : Nat) (update : Update) : List (Nat × String) :=
  ((coalescibleText bot update).map fun plain => (updateId, plain.2.2)).toList

/-- The update that is processed and the parts that are merged into it. -/
def gathered (s : System) (flight : Flight) : Option (State × Update × List (Nat × String)) :=
  match flight.stage with
  | .gathering =>
    (coalesceTextUpdates bot s.state flight.updateId flight.update).map fun (state, update) =>
      (state, update, (textBatch bot s.state flight.updateId flight.update).map fun item => (flight.updateId, item.2.2))
  | _ => some (s.state, flight.update, [])

/-- An attempt stops waiting and processes its update. -/
def proceed (s : System) (n : Nat) (flight : Flight) : System :=
  match gathered bot s flight with
  | none => { s with flights := s.flights.eraseIdx n }
  | some (state, update, parts) =>
    match process bot state flight.updateId update with
    | .complete =>
      ⟨state.completeUpdate flight.updateId (sourceEventId bot flight.updateId), s.flights.eraseIdx n, s.log,
        s.parts ++ parts⟩
    | .startRun text => ⟨state, s.flights.set n ⟨flight.updateId, update, .ready text⟩, s.log, s.parts ++ parts⟩
    | .respond => ⟨state, s.flights.set n ⟨flight.updateId, update, .started⟩, s.log, s.parts ++ parts⟩

/-- The stage that an attempt begins in, if the lock and the running attempts let it begin. -/
def beginStage (s : System) (updateId : Nat) (update : Update) : Option Stage :=
  if s.flights.any fun flight => flight.updateId == updateId then none
  else if isCancelUpdate bot update then some .waiting
  else if s.flights.any fun flight => !isCancelUpdate bot flight.update then none
  else if !s.state.sourceSeen (sourceEventId bot updateId) &&
      (s.state.pendingRun (sourceEventId bot updateId)).isNone && coalesces bot s.state update then some .gathering
  else some .waiting

def step (s : System) : Op → System
  | .accept updateId update =>
    match s.state.acceptUpdate updateId update with
    | none => s
    | some state => { s with state := state, parts := s.parts ++ partOf bot updateId update }
  | .begin updateId =>
    match s.state.inbox updateId with
    | none => s
    | some update =>
      match beginStage bot s updateId update with
      | none => s
      | some stage => { s with flights := s.flights ++ [⟨updateId, update, stage⟩] }
  | .proceed n =>
    match s.flights[n]? with
    | none => s
    | some flight => if flight.stage = .gathering ∨ flight.stage = .waiting then proceed bot s n flight else s
  | .call n =>
    match s.flights[n]? with
    | some ⟨updateId, update, .ready text⟩ =>
      { s with
        flights := s.flights.set n ⟨updateId, update, .started⟩
        log := s.log ++ [⟨updateId, sourceEventId bot updateId, update, text⟩] }
    | _ => s
  | .event n =>
    match s.flights[n]? with
    | some ⟨updateId, _, .started⟩ =>
      { s with state := s.state.savePendingRun (sourceEventId bot updateId) updateId }
    | _ => s
  | .finish n =>
    match s.flights[n]? with
    | some ⟨updateId, _, .started⟩ =>
      { s with
        state := s.state.completeUpdate updateId (sourceEventId bot updateId)
        flights := s.flights.eraseIdx n }
    | _ => s
  | .fail n => { s with flights := s.flights.eraseIdx n }
  | .recover updateId =>
    match s.state.pendingRun (sourceEventId bot updateId) with
    | none => s
    | some pending =>
      if s.flights.any fun flight => flight.updateId == pending then s
      else { s with flights := s.flights ++ [⟨pending, .unknown, .started⟩] }
  | .pair userId chatId => { s with state := s.state.pair userId chatId }
  | .awaitEdits chats => { s with state := { s.state with awaitingEdits := chats } }
  | .restart => { s with flights := [] }

end Step

section Statement

variable (bot : Bot)

/-- Telegram delivers no update below the offset that it was asked for. -/
def Delivered (s : System) : Op → Prop
  | .accept updateId _ => s.state.nextUpdateId ≤ updateId
  | _ => True

instance (s : System) (op : Op) : Decidable (Delivered s op) := by
  cases op <;> unfold Delivered <;> infer_instance

def issued (log : List StartRun) (updateId : Nat) : Bool := log.any fun call => call.updateId == updateId

/-- An attempt that stops waiting for texts finds none behind an update that a run was requested for. -/
def Unmerged (s : System) : Op → Prop
  | .proceed n =>
    ∀ flight, s.flights[n]? = some flight → flight.stage = .gathering → issued s.log flight.updateId = true →
      (textBatch bot s.state flight.updateId flight.update).length < 2
  | _ => True

instance (s : System) (op : Op) : Decidable (Unmerged bot s op) :=
  match op with
  | .proceed n =>
    decidable_of_iff ((s.flights[n]?).all (fun flight => decide (flight.stage = .gathering →
        issued s.log flight.updateId = true →
        (textBatch bot s.state flight.updateId flight.update).length < 2)) = true) (by
      simp only [Unmerged]
      rw [Option.all_eq_true]
      simp only [decide_eq_true_eq])
  | .accept _ _ | .begin _ | .call _ | .event _ | .finish _ | .fail _ | .recover _ | .pair _ _ | .awaitEdits _ | .restart =>
    isTrue trivial

/-- Calls with the same source event carry the same text. -/
def SameRequest (log : List StartRun) : Prop :=
  ∀ first ∈ log, ∀ second ∈ log, first.sourceEventId = second.sourceEventId → first.text = second.text

/-- Each plain text is part of the message that the first call for its update was made from. In a private
chat that is the text of the call, and elsewhere a leading mention of the bot is taken off. -/
def Included (s : System) : Prop :=
  ∀ part ∈ s.parts, ∀ call, s.log.find? (fun call => call.updateId == part.1) = some call →
    ∃ message, call.update = .message message ∧ part.2.toList <:+: (strip message.text).toList ∧
      (message.nonPrivate = false → call.text = strip message.text)

end Statement

section Requests

variable {bot : Bot}

theorem sourceEventId_inj {first second : Nat} (same : sourceEventId bot first = sourceEventId bot second) :
    first = second := by
  have digits : Nat.toDigits 10 first = Nat.toDigits 10 second := by
    have texts : toString first = toString second := by simpa [sourceEventId, String.append_right_inj] using same
    simpa [Nat.toList_repr] using congrArg String.toList texts
  rw [← Nat.ofDigitChars_toDigits (n := first) (by decide) (le_refl 10), digits,
    Nat.ofDigitChars_toDigits (by decide) (le_refl 10)]

theorem handleMessage_startRun {state : State} {message : Message} {text : String}
    (handled : handleMessage bot state message = .startRun text) : text = requestText bot message := by
  unfold handleMessage at handled
  split at handled
  · split at handled
    · cases handled
    · split at handled
      · cases handled
      · split at handled
        · split at handled <;> cases handled
        · split at handled
          · cases handled
          · split at handled
            · cases handled
            · split at handled
              · cases handled
              · exact (Handling.startRun.inj handled).symm
  · cases handled

/-- The text of a request does not depend on the state in which it is made. -/
theorem handleUpdate_startRun {state other : State} {update : Update} {text again : String}
    (handled : handleUpdate bot state update = .startRun text)
    (handledAgain : handleUpdate bot other update = .startRun again) : text = again := by
  cases update with
  | message message =>
    exact (handleMessage_startRun handled).trans (handleMessage_startRun handledAgain).symm
  | editedMessage message =>
    exact (handleMessage_startRun handled).trans (handleMessage_startRun handledAgain).symm
  | callbackQuery data => cases handled
  | unknown => cases handled

theorem coalescibleText_some {update : Update} {userId : Nat} {chatId : Int} {text : String}
    (plain : coalescibleText bot update = some (userId, chatId, text)) :
    ∃ message, update = .message message ∧ text = strip message.text ∧ message.attachments = [] ∧
      message.userId = some userId ∧ message.chatId = some chatId ∧ text.isEmpty = false ∧
      (command bot text).1.toList.head? ≠ some '/' := by
  cases update with
  | message message =>
    unfold coalescibleText at plain
    simp only at plain
    split at plain
    · cases plain
    · rename_i bare
      split at plain
      · rename_i user chat sender place
        split at plain
        · cases plain
        · rename_i shown
          obtain ⟨rfl, rest⟩ := Prod.mk.inj (Option.some.inj plain)
          obtain ⟨rfl, rfl⟩ := Prod.mk.inj rest
          simp only [Bool.or_eq_true, not_or, Bool.not_eq_true, beq_eq_false_iff_ne] at shown
          exact ⟨message, rfl, rfl, by simpa using bare, sender, place, shown.1, shown.2⟩
      · cases plain
  | editedMessage message => cases plain
  | callbackQuery data => cases plain
  | unknown => cases plain

/-- The update is a plain text that has the part. -/
def Carries (bot : Bot) (part : String) (update : Update) : Prop :=
  ∃ userId chatId text, coalescibleText bot update = some (userId, chatId, text) ∧ part.toList <:+: text.toList

theorem requestText_plain {message : Message} {userId : Nat} {chatId : Int} {text : String}
    (plain : coalescibleText bot (.message message) = some (userId, chatId, text)) (direct : message.nonPrivate = false) :
    requestText bot message = strip message.text := by
  obtain ⟨same, equal, stripped, -, -, -, shown, worded⟩ := coalescibleText_some plain
  obtain rfl := Update.message.inj equal
  subst stripped
  have written : message.text.isEmpty = false := by
    by_contra empty
    have blank : message.text = "" := by simpa using empty
    rw [blank] at shown
    exact absurd shown (by decide)
  have command_ne : command bot (strip message.text) ≠ ("/regenerate", "") := by
    intro regenerate
    rw [regenerate] at worded
    exact worded rfl
  simp [requestText, sentText, addressedText, Message.content, written, direct, command_ne, shown]

/-- The request for an update that carries a part has it, up to a mention of the bot. -/
theorem Carries.request {part : String} {update : Update} {state : State} {text : String}
    (carries : Carries bot part update) (handled : handleUpdate bot state update = .startRun text) :
    ∃ message, update = .message message ∧ part.toList <:+: (strip message.text).toList ∧
      (message.nonPrivate = false → text = strip message.text) := by
  obtain ⟨userId, chatId, whole, plain, inside⟩ := carries
  obtain ⟨message, rfl, rfl, -⟩ := coalescibleText_some plain
  refine ⟨message, rfl, inside, ?_⟩
  intro direct
  rw [handleMessage_startRun handled]
  exact requestText_plain plain direct

end Requests

section Batches

variable {bot : Bot}

/-- A batch holds pending plain texts of one identity, the first of them under the identifier it starts at. -/
theorem pendingTextBatch_mem (first : Nat) (identity : Nat × Int) (pending : List (Nat × Update)) :
    ∀ (batch : List (Nat × Update × String)), ∀ item ∈ pendingTextBatch bot first identity batch pending,
      item ∈ batch ∨ ((item.1, item.2.1) ∈ pending ∧
        coalescibleText bot item.2.1 = some (identity.1, identity.2, item.2.2)) := by
  induction pending with
  | nil => exact fun batch item member => Or.inl member
  | cons entry pending ih =>
    intro batch item member
    obtain ⟨updateId, update⟩ := entry
    unfold pendingTextBatch at member
    split at member
    · rcases ih batch item member with earlier | ⟨waits, plain⟩
      · exact Or.inl earlier
      · exact Or.inr ⟨List.mem_cons_of_mem _ waits, plain⟩
    · split at member
      · exact Or.inl member
      · split at member
        · exact Or.inl member
        · rename_i userId chatId text plain
          split at member
          · exact Or.inl member
          · rename_i same
            rcases ih _ item member with earlier | ⟨waits, plain'⟩
            · rcases List.mem_append.mp earlier with earlier | last
              · exact Or.inl earlier
              · rw [List.mem_singleton.mp last]
                exact Or.inr ⟨List.mem_cons_self, by rw [plain, ← not_not.mp same]⟩
            · exact Or.inr ⟨List.mem_cons_of_mem _ waits, plain'⟩

theorem pendingTextBatch_head (first : Nat) (identity : Nat × Int) (pending : List (Nat × Update)) :
    ∀ (batch : List (Nat × Update × String)), (∀ item ∈ batch.head?, item.1 = first) →
      ∀ item ∈ (pendingTextBatch bot first identity batch pending).head?, item.1 = first := by
  induction pending with
  | nil => exact fun batch head => head
  | cons entry pending ih =>
    intro batch head
    obtain ⟨updateId, update⟩ := entry
    unfold pendingTextBatch
    split
    · exact ih batch head
    · split
      · exact head
      · rename_i here
        split
        · exact head
        · split
          · exact head
          · apply ih
            cases batch with
            | nil =>
              have same : updateId = first := by simpa using here
              simpa using same
            | cons held batch => simpa using head

theorem textBatch_mem {state : State} {updateId : Nat} {update : Update} {item : Nat × Update × String}
    (member : item ∈ textBatch bot state updateId update) :
    (item.1, item.2.1) ∈ state.updateInbox ∧
      ∃ userId chatId, coalescibleText bot item.2.1 = some (userId, chatId, item.2.2) := by
  unfold textBatch at member
  split at member
  · cases member
  · rename_i userId chatId text plain
    rcases pendingTextBatch_mem updateId (userId, chatId) state.pendingUpdates [] item member with none | ⟨waits, same⟩
    · cases none
    · exact ⟨(List.perm_insertionSort _ _).mem_iff.mp waits, userId, chatId, same⟩

theorem textBatch_head {state : State} {updateId : Nat} {update : Update} {item : Nat × Update × String}
    {rest : List (Nat × Update × String)} (batch : textBatch bot state updateId update = item :: rest) :
    item.1 = updateId := by
  unfold textBatch at batch
  split at batch
  · cases batch
  · rename_i userId chatId text plain
    exact pendingTextBatch_head updateId (userId, chatId) state.pendingUpdates [] (by simp) item (by rw [batch]; rfl)

theorem joinTexts_cons (text : String) {rest : List String} (more : rest ≠ []) :
    joinTexts (text :: rest) = text ++ "\n\n" ++ joinTexts rest :=
  String.intercalate_cons_of_ne_nil more

theorem mem_joinTexts {texts : List String} {text : String} (member : text ∈ texts) :
    text.toList <:+: (joinTexts texts).toList := by
  induction texts with
  | nil => cases member
  | cons first rest ih =>
    cases rest with
    | nil =>
      obtain rfl := List.mem_singleton.mp member
      have alone : joinTexts [text] = text := String.intercalate_singleton
      exact alone.symm ▸ List.infix_rfl
    | cons second rest =>
      rw [joinTexts_cons first (List.cons_ne_nil second rest), String.toList_append, String.toList_append]
      rcases List.mem_cons.mp member with rfl | later
      · exact ((List.prefix_append _ _).trans (List.prefix_append _ _)).isInfix
      · exact (ih later).trans (List.suffix_append _ _).isInfix

/-- Texts that are joined behind a text leave its first word. -/
theorem command_joinTexts {text : String} {rest : List String} (more : rest ≠ []) (stripped : strip text = text)
    (shown : text.isEmpty = false) :
    (command bot (strip (joinTexts (text :: rest)))).1 = (command bot text).1 := by
  have chars : stripChars text.toList = text.toList := by
    simpa [strip] using congrArg String.toList stripped
  have front : text.toList.dropWhile isSpace = text.toList := (trimChars_eq_self.mp chars).1
  have whole : ∃ tail, (joinTexts (text :: rest)).toList = text.toList ++ '\n' :: tail := by
    rw [joinTexts_cons text more, String.toList_append, String.toList_append]
    exact ⟨'\n' :: (joinTexts rest).toList, by simp⟩
  obtain ⟨tail, split⟩ := whole
  have unled : (text.toList ++ '\n' :: tail).dropWhile isSpace = text.toList ++ '\n' :: tail := by
    rw [List.dropWhile_append, front]
    simp [String.isEmpty] at shown
    simp [shown]
  have words : ((strip (joinTexts (text :: rest))).toList.dropWhile isSpace).takeWhile (fun c => !isSpace c) =
      (text.toList.dropWhile isSpace).takeWhile fun c => !isSpace c := by
    rw [strip, String.toList_ofList, dropWhile_stripChars, takeWhile_stripChars, split, unled, front]
    refine takeWhile_append_stop ?_
    intro c first
    obtain rfl : '\n' = c := by simpa using first
    rfl
  unfold command
  simp only [words]

theorem withText_plain {update : Update} {userId : Nat} {chatId : Int} {text joined : String}
    (plain : coalescibleText bot update = some (userId, chatId, text)) (shown : (strip joined).isEmpty = false)
    (word : (command bot (strip joined)).1 = (command bot text).1) :
    coalescibleText bot (update.withText joined) = some (userId, chatId, strip joined) := by
  obtain ⟨message, rfl, rfl, bare, sender, place, -, worded⟩ := coalescibleText_some plain
  rw [← word] at worded
  simp [Update.withText, coalescibleText, bare, sender, place, shown, worded]

/-- A batch is merged into one plain text that carries what its texts carry. -/
theorem merged_carries {update : Update} {userId : Nat} {chatId : Int} {first text part : String} {rest : List String}
    (more : rest ≠ []) (plain : coalescibleText bot update = some (userId, chatId, first)) (member : text ∈ first :: rest)
    (stripped : strip text = text) (inside : part.toList <:+: text.toList) :
    Carries bot part (update.withText (joinTexts (first :: rest))) := by
  obtain ⟨message, -, same, -, -, -, shown, -⟩ := coalescibleText_some plain
  have ends : strip first = first := by rw [same, strip_strip]
  have keptFirst := strip_within ends (mem_joinTexts (List.mem_cons_self (a := first) (l := rest)))
  have nonempty : (strip (joinTexts (first :: rest))).isEmpty = false := by
    by_contra empty
    have blank : strip (joinTexts (first :: rest)) = "" := by simpa using empty
    rw [blank] at keptFirst
    have none : first = "" := by simpa using keptFirst
    simp [none] at shown
  exact ⟨userId, chatId, _, withText_plain plain nonempty (command_joinTexts more ends shown),
    inside.trans (strip_within stripped (mem_joinTexts member))⟩

end Batches

section Holders

/-- The update that a run is or was requested for under an identifier: the one that is pending, was called
for, or is about to be. -/
def Holds (s : System) (updateId : Nat) (update : Update) : Prop :=
  (updateId, update) ∈ s.state.updateInbox ∨ (∃ call ∈ s.log, call.updateId = updateId ∧ call.update = update) ∨
    ∃ flight ∈ s.flights, flight.stage ≠ .started ∧ flight.updateId = updateId ∧ flight.update = update

variable (bot : Bot)

def StartRun.Made (call : StartRun) : Prop :=
  call.sourceEventId = Worker.sourceEventId bot call.updateId ∧
    ∃ state, handleUpdate bot state call.update = .startRun call.text

def Flight.Prepared (flight : Flight) : Prop :=
  ∀ text, flight.stage = .ready text → ∃ state, handleUpdate bot state flight.update = .startRun text

/-- Whatever holds an identifier holds the same update, and the update carries the texts that were merged
into it. -/
structure Kept (s : System) : Prop where
  keys : (s.state.updateInbox.map Prod.fst).Nodup
  apart : (s.flights.map Flight.updateId).Nodup
  below : ∀ updateId update, Holds s updateId update → updateId < s.state.nextUpdateId
  partsBelow : ∀ part ∈ s.parts, part.1 < s.state.nextUpdateId
  agree : ∀ updateId first second, Holds s updateId first → Holds s updateId second → first = second
  carried : ∀ part ∈ s.parts, ∀ update, Holds s part.1 update → Carries bot part.2 update
  made : ∀ call ∈ s.log, call.Made bot
  prepared : ∀ flight ∈ s.flights, flight.Prepared bot

variable {bot} {s : System}

theorem kept_start : Kept bot System.start := by
  have none : ∀ updateId update, ¬ Holds System.start updateId update := by
    rintro updateId update (pending | ⟨call, made, -⟩ | ⟨flight, flying, -⟩)
    · cases pending
    · cases made
    · cases flying
  exact ⟨List.nodup_nil, List.nodup_nil, fun updateId update holds => absurd holds (none updateId update),
    List.forall_mem_nil _, fun updateId first second holds => absurd holds (none updateId first),
    List.forall_mem_nil _, List.forall_mem_nil _, List.forall_mem_nil _⟩

/-- A step that only drops holders keeps what they agree on. -/
theorem kept_fewer (kept : Kept bot s) {after : System} (keys : (after.state.updateInbox.map Prod.fst).Nodup)
    (apart : (after.flights.map Flight.updateId).Nodup) (later : s.state.nextUpdateId ≤ after.state.nextUpdateId)
    (fewer : ∀ updateId update, Holds after updateId update → Holds s updateId update) (parts : after.parts = s.parts)
    (made : ∀ call ∈ after.log, call.Made bot) (prepared : ∀ flight ∈ after.flights, flight.Prepared bot) :
    Kept bot after := by
  refine ⟨keys, apart, ?_, ?_, ?_, ?_, made, prepared⟩
  · intro updateId update holds
    exact lt_of_lt_of_le (kept.below updateId update (fewer updateId update holds)) later
  · rw [parts]
    intro part member
    exact lt_of_lt_of_le (kept.partsBelow part member) later
  · intro updateId first second left right
    exact kept.agree updateId first second (fewer updateId first left) (fewer updateId second right)
  · rw [parts]
    intro part member update holds
    exact kept.carried part member update (fewer part.1 update holds)

theorem eraseIdx_apart (kept : Kept bot s) (n : Nat) : ((s.flights.eraseIdx n).map Flight.updateId).Nodup :=
  kept.apart.sublist ((List.eraseIdx_sublist s.flights n).map _)

theorem set_ids {n : Nat} {flight next : Flight} (flying : s.flights[n]? = some flight)
    (same : next.updateId = flight.updateId) : (s.flights.set n next).map Flight.updateId = s.flights.map Flight.updateId := by
  rw [List.map_set, same]
  apply List.ext_getElem?
  intro m
  rw [List.getElem?_set]
  split
  · rename_i here
    subst here
    split
    · rw [List.getElem?_map, flying]
      rfl
    · rename_i outside
      rw [List.getElem?_eq_none (by omega)]
  · rfl

/-- The other attempts are for other updates. -/
theorem mem_set_apart (kept : Kept bot s) {n : Nat} {flight next other : Flight} (flying : s.flights[n]? = some flight)
    (member : other ∈ s.flights.set n next) : other = next ∨ (other ∈ s.flights ∧ other.updateId ≠ flight.updateId) := by
  obtain ⟨m, found⟩ := List.mem_iff_getElem?.mp member
  rw [List.getElem?_set] at found
  split at found
  · split at found
    · exact Or.inl (Option.some.inj found).symm
    · cases found
  · rename_i elsewhere
    refine Or.inr ⟨List.mem_of_getElem? found, ?_⟩
    intro same
    have inside : m < (s.flights.map Flight.updateId).length := by
      rw [List.length_map]
      exact (List.getElem?_eq_some_iff.mp found).1
    have equal : (s.flights.map Flight.updateId)[m]? = (s.flights.map Flight.updateId)[n]? := by
      rw [List.getElem?_map, List.getElem?_map, found, flying, Option.map_some, Option.map_some, same]
    exact elsewhere ((List.getElem?_inj inside kept.apart).mp equal).symm

/-- An attempt that is dropped, or that only changes its stage, adds no holder. -/
theorem holds_flights {flights : List Flight} {updateId : Nat} {update : Update}
    (held : ∀ flight ∈ flights, flight.stage ≠ .started → Holds s flight.updateId flight.update)
    (holds : Holds { s with flights := flights } updateId update) : Holds s updateId update := by
  rcases holds with pending | called | ⟨flight, flying, open_, rfl, rfl⟩
  · exact Or.inl pending
  · exact Or.inr (Or.inl called)
  · exact held flight flying open_

theorem kept_flights (kept : Kept bot s) {flights : List Flight} (apart : (flights.map Flight.updateId).Nodup)
    (held : ∀ flight ∈ flights, flight.stage ≠ .started → Holds s flight.updateId flight.update)
    (prepared : ∀ flight ∈ flights, flight.Prepared bot) : Kept bot { s with flights := flights } :=
  kept_fewer kept kept.keys apart (le_refl _) (fun _ _ => holds_flights held) rfl kept.made prepared

theorem kept_erased (kept : Kept bot s) (n : Nat) : Kept bot { s with flights := s.flights.eraseIdx n } := by
  refine kept_flights kept (eraseIdx_apart kept n) ?_ ?_
  · intro flight member open_
    exact Or.inr (Or.inr ⟨flight, List.mem_of_mem_eraseIdx member, open_, rfl, rfl⟩)
  · intro flight member
    exact kept.prepared flight (List.mem_of_mem_eraseIdx member)

theorem kept_set (kept : Kept bot s) {n : Nat} {flight : Flight} (next : Flight) (flying : s.flights[n]? = some flight)
    (id : next.updateId = flight.updateId) (held : next.stage ≠ .started → Holds s next.updateId next.update)
    (prepared : next.Prepared bot) : Kept bot { s with flights := s.flights.set n next } := by
  refine kept_flights kept (by rw [set_ids flying id]; exact kept.apart) ?_ ?_
  · intro other member open_
    rcases List.mem_or_eq_of_mem_set member with was | rfl
    · exact Or.inr (Or.inr ⟨other, was, open_, rfl, rfl⟩)
    · exact held open_
  · intro other member
    rcases List.mem_or_eq_of_mem_set member with was | rfl
    · exact kept.prepared other was
    · exact prepared

/-- A state whose pending updates were pending before. -/
theorem kept_state (kept : Kept bot s) {state : State} (sub : state.updateInbox.Sublist s.state.updateInbox)
    (later : s.state.nextUpdateId ≤ state.nextUpdateId) : Kept bot { s with state := state } := by
  refine kept_fewer kept (kept.keys.sublist (sub.map _)) kept.apart later ?_ rfl kept.made kept.prepared
  rintro updateId update (pending | called | flying)
  · exact Or.inl (sub.subset pending)
  · exact Or.inr (Or.inl called)
  · exact Or.inr (Or.inr flying)

theorem kept_completed (kept : Kept bot s) (updateId : Nat) (source : String) :
    Kept bot { s with state := s.state.completeUpdate updateId source } :=
  kept_state kept List.filter_sublist (le_max_left _ _)

/-- Merging leaves the merged update under the first identifier and drops the others. -/
theorem coalesceUpdates_some {state after : State} {primary : Nat} {others : List Nat} {merged : Update}
    (done : state.coalesceUpdates (primary :: others) merged = some after) :
    after.nextUpdateId = state.nextUpdateId ∧
    (after.updateInbox.map Prod.fst).Sublist (state.updateInbox.map Prod.fst) ∧
    ∀ updateId update, (updateId, update) ∈ after.updateInbox →
      (updateId = primary ∧ update = merged) ∨ (updateId ≠ primary ∧ (updateId, update) ∈ state.updateInbox) := by
  unfold State.coalesceUpdates at done
  simp only at done
  split at done
  · obtain rfl := Option.some.inj done
    refine ⟨rfl, ?_, ?_⟩
    · have same : (Prod.fst ∘ fun entry : Nat × Update => if entry.1 = primary then (primary, merged) else entry) =
          Prod.fst := by
        funext entry
        by_cases here : entry.1 = primary <;> simp [here]
      simp only [List.map_map, same]
      exact List.filter_sublist.map _
    · intro updateId update member
      obtain ⟨entry, was, rfl_⟩ := List.mem_map.mp member
      by_cases here : entry.1 = primary
      · rw [if_pos here] at rfl_
        obtain ⟨rfl, rfl⟩ := Prod.mk.inj rfl_
        exact Or.inl ⟨rfl, rfl⟩
      · rw [if_neg here] at rfl_
        subst rfl_
        exact Or.inr ⟨here, List.mem_of_mem_filter was⟩
  · cases done

/-- The parts of a batch are carried by whatever holds the identifier. -/
theorem carries_self {update : Update} {userId : Nat} {chatId : Int} {text : String}
    (plain : coalescibleText bot update = some (userId, chatId, text)) : Carries bot text update :=
  ⟨userId, chatId, text, plain, List.infix_rfl⟩

theorem not_issued {log : List StartRun} {updateId : Nat} (fresh : issued log updateId = false) (call : StartRun)
    (made : call ∈ log) : call.updateId ≠ updateId := by
  intro same
  have found : issued log updateId = true := List.any_eq_true.mpr ⟨call, made, by simpa using same⟩
  rw [fresh] at found
  cases found

theorem kept_parts (kept : Kept bot s) {parts : List (Nat × String)}
    (carried : ∀ part ∈ parts, part.1 < s.state.nextUpdateId ∧ ∀ update, Holds s part.1 update → Carries bot part.2 update) :
    Kept bot { s with parts := s.parts ++ parts } := by
  refine ⟨kept.keys, kept.apart, kept.below, ?_, kept.agree, ?_, kept.made, kept.prepared⟩
  · intro part member
    rcases List.mem_append.mp member with was | added
    · exact kept.partsBelow part was
    · exact (carried part added).1
  · intro part member update holds
    rcases List.mem_append.mp member with was | added
    · exact kept.carried part was update holds
    · exact (carried part added).2 update holds

/-- A merge for an update that no run was requested for yet. -/
theorem kept_merged (kept : Kept bot s) {n : Nat} {flight : Flight} (flying : s.flights[n]? = some flight)
    (fresh : issued s.log flight.updateId = false) {first second : Nat × Update × String}
    {rest : List (Nat × Update × String)}
    (batch : textBatch bot s.state flight.updateId flight.update = first :: second :: rest) {state : State}
    (done : s.state.coalesceUpdates ((first :: second :: rest).map Prod.fst)
      (first.2.1.withText (joinTexts ((first :: second :: rest).map fun item => item.2.2))) = some state) :
    Kept bot ⟨state, s.flights.set n ⟨flight.updateId,
        first.2.1.withText (joinTexts ((first :: second :: rest).map fun item => item.2.2)), .waiting⟩, s.log,
      s.parts ++ (first :: second :: rest).map fun item => (flight.updateId, item.2.2)⟩ := by
  generalize merging : first.2.1.withText (joinTexts ((first :: second :: rest).map fun item => item.2.2)) = merged at done ⊢
  have texts : ∀ item ∈ first :: second :: rest, (item.1, item.2.1) ∈ s.state.updateInbox ∧
      ∃ userId chatId, coalescibleText bot item.2.1 = some (userId, chatId, item.2.2) := by
    intro item member
    exact textBatch_mem (batch ▸ member)
  obtain ⟨pendingFirst, userId, chatId, plain⟩ := texts first List.mem_cons_self
  have primary : first.1 = flight.updateId := textBatch_head batch
  rw [primary] at pendingFirst
  obtain ⟨next, keys, inbox⟩ := coalesceUpdates_some done
  have carries : ∀ text ∈ (first :: second :: rest).map fun item => item.2.2, ∀ part : String,
      part.toList <:+: text.toList → Carries bot part merged := by
    intro text member part inside
    obtain ⟨item, listed, rfl⟩ := List.mem_map.mp member
    obtain ⟨-, itemUser, itemChat, itemPlain⟩ := texts item listed
    obtain ⟨message, -, same, -⟩ := coalescibleText_some itemPlain
    rw [← merging]
    exact merged_carries (by simp) plain member (by rw [same, strip_strip]) inside
  have here : ∀ update, Holds ⟨state, s.flights.set n ⟨flight.updateId, merged, .waiting⟩, s.log,
      s.parts ++ (first :: second :: rest).map fun item => (flight.updateId, item.2.2)⟩ flight.updateId update →
      update = merged := by
    rintro update (pending | ⟨call, made, same, -⟩ | ⟨other, member, -, same, rfl⟩)
    · rcases inbox _ _ pending with ⟨-, equal⟩ | ⟨different, -⟩
      · exact equal
      · exact absurd primary.symm different
    · exact absurd same (not_issued fresh call made)
    · rcases mem_set_apart kept flying member with rfl | ⟨-, different⟩
      · rfl
      · exact absurd same different
  have there : ∀ updateId update, updateId ≠ flight.updateId → Holds ⟨state, s.flights.set n
      ⟨flight.updateId, merged, .waiting⟩, s.log,
      s.parts ++ (first :: second :: rest).map fun item => (flight.updateId, item.2.2)⟩ updateId update →
      Holds s updateId update := by
    rintro updateId update apart (pending | called | ⟨other, member, unstarted, same, rfl⟩)
    · rcases inbox _ _ pending with ⟨equal, -⟩ | ⟨-, was⟩
      · exact absurd (equal.trans primary) apart
      · exact Or.inl was
    · exact Or.inr (Or.inl called)
    · rcases mem_set_apart kept flying member with rfl | ⟨was, -⟩
      · exact absurd same.symm apart
      · exact Or.inr (Or.inr ⟨other, was, unstarted, same, rfl⟩)
  have below : flight.updateId < state.nextUpdateId := by
    rw [next]
    exact kept.below _ _ (Or.inl pendingFirst)
  refine ⟨kept.keys.sublist keys, by simp only [set_ids flying]; exact kept.apart, ?_, ?_, ?_, ?_, kept.made, ?_⟩
  · intro updateId update holds
    by_cases same : updateId = flight.updateId
    · exact same ▸ below
    · exact next ▸ kept.below _ _ (there updateId update same holds)
  · intro part member
    rcases List.mem_append.mp member with was | added
    · exact next ▸ kept.partsBelow part was
    · obtain ⟨item, -, rfl⟩ := List.mem_map.mp added
      exact below
  · intro updateId one other left right
    by_cases same : updateId = flight.updateId
    · subst same
      exact (here one left).trans (here other right).symm
    · exact kept.agree updateId one other (there _ _ same left) (there _ _ same right)
  · intro part member update holds
    rcases List.mem_append.mp member with was | added
    · by_cases same : part.1 = flight.updateId
      · rw [same] at holds
        rw [here update holds]
        obtain ⟨_, _, text, found, inside⟩ := kept.carried part was first.2.1 (Or.inl (same ▸ pendingFirst))
        rw [plain] at found
        obtain ⟨-, found⟩ := Prod.mk.inj (Option.some.inj found)
        obtain ⟨-, rfl⟩ := Prod.mk.inj found
        exact carries first.2.2 (by simp) part.2 inside
      · exact kept.carried part was update (there _ _ same holds)
    · obtain ⟨item, listed, rfl⟩ := List.mem_map.mp added
      rw [here update holds]
      exact carries item.2.2 (List.mem_map_of_mem listed) item.2.2 List.infix_rfl
  · intro other member
    rcases List.mem_or_eq_of_mem_set member with was | rfl
    · exact kept.prepared other was
    · intro text ready
      cases ready

/-- An attempt stops waiting: what is merged into its update is carried by it. -/
theorem kept_gathered (kept : Kept bot s) {n : Nat} {flight : Flight} (flying : s.flights[n]? = some flight)
    (unstarted : flight.stage = .gathering ∨ flight.stage = .waiting)
    (unmerged : flight.stage = .gathering → issued s.log flight.updateId = true →
      (textBatch bot s.state flight.updateId flight.update).length < 2)
    {state : State} {update : Update} {parts : List (Nat × String)}
    (done : gathered bot s flight = some (state, update, parts)) :
    Kept bot ⟨state, s.flights.set n ⟨flight.updateId, update, .waiting⟩, s.log, s.parts ++ parts⟩ := by
  have held : Holds s flight.updateId flight.update :=
    Or.inr (Or.inr ⟨flight, List.mem_of_getElem? flying, by rcases unstarted with h | h <;> simp [h], rfl, rfl⟩)
  have unmoved : Kept bot { s with flights := s.flights.set n ⟨flight.updateId, flight.update, .waiting⟩ } :=
    kept_set kept ⟨flight.updateId, flight.update, .waiting⟩ flying rfl (fun _ => held) (by intro text ready; cases ready)
  unfold gathered at done
  split at done
  · rename_i waits
    obtain ⟨⟨merged, current⟩, coalesced, equal⟩ := Option.map_eq_some_iff.mp done
    obtain ⟨rfl, added⟩ := Prod.mk.inj equal
    obtain ⟨rfl, rfl⟩ := Prod.mk.inj added
    unfold coalesceTextUpdates at coalesced
    split at coalesced
    · rename_i first second rest batch
      obtain ⟨after, merge, equal⟩ := Option.map_eq_some_iff.mp coalesced
      obtain ⟨rfl, rfl⟩ := Prod.mk.inj equal
      have fresh : issued s.log flight.updateId = false := by
        by_contra called
        have short := unmerged waits (by simpa using called)
        rw [batch, List.length_cons, List.length_cons] at short
        omega
      simpa only [batch] using kept_merged kept flying fresh batch merge
    · rename_i short
      obtain ⟨rfl, rfl⟩ := Prod.mk.inj (Option.some.inj coalesced)
      refine kept_parts unmoved ?_
      intro part added
      obtain ⟨item, listed, rfl⟩ := List.mem_map.mp added
      have head : textBatch bot s.state flight.updateId flight.update = [item] := by
        cases batch : textBatch bot s.state flight.updateId flight.update with
        | nil => rw [batch] at listed; cases listed
        | cons first rest =>
          cases rest with
          | nil =>
            rw [batch] at listed
            rw [List.mem_singleton.mp listed]
          | cons second rest => exact absurd batch (short first second rest)
      obtain ⟨pending, userId, chatId, plain⟩ := textBatch_mem listed
      rw [textBatch_head head] at pending
      refine ⟨kept.below _ _ held, ?_⟩
      intro update holds
      rw [unmoved.agree _ update item.2.1 holds (Or.inl pending)]
      exact carries_self plain
  · obtain ⟨rfl, equal⟩ := Prod.mk.inj (Option.some.inj done)
    obtain ⟨rfl, rfl⟩ := Prod.mk.inj equal
    simpa using unmoved

end Holders

section Runs

variable {bot : Bot} {s : System}

theorem process_startRun {state : State} {updateId : Nat} {update : Update} {text : String}
    (processed : process bot state updateId update = .startRun text) : handleUpdate bot state update = .startRun text := by
  unfold process at processed
  split at processed
  · cases processed
  · split at processed
    · cases processed
    · exact processed

theorem kept_proceed (kept : Kept bot s) {n : Nat} {flight : Flight} (flying : s.flights[n]? = some flight)
    (unstarted : flight.stage = .gathering ∨ flight.stage = .waiting)
    (unmerged : flight.stage = .gathering → issued s.log flight.updateId = true →
      (textBatch bot s.state flight.updateId flight.update).length < 2) : Kept bot (proceed bot s n flight) := by
  have inside : n < s.flights.length := (List.getElem?_eq_some_iff.mp flying).1
  unfold proceed
  split
  · exact kept_erased kept n
  · rename_i state update parts done
    have ready := kept_gathered kept flying unstarted unmerged done
    have here : (s.flights.set n ⟨flight.updateId, update, .waiting⟩)[n]? = some ⟨flight.updateId, update, .waiting⟩ :=
      List.getElem?_set_self inside
    have held : Holds ⟨state, s.flights.set n ⟨flight.updateId, update, .waiting⟩, s.log, s.parts ++ parts⟩
        flight.updateId update :=
      Or.inr (Or.inr ⟨_, List.mem_of_getElem? here, by simp, rfl, rfl⟩)
    split
    · have dropped := kept_completed (kept_erased ready n) flight.updateId (sourceEventId bot flight.updateId)
      simpa only [List.eraseIdx_set_eq] using dropped
    · rename_i text processed
      have prepared : Flight.Prepared bot ⟨flight.updateId, update, .ready text⟩ := by
        intro sent same
        obtain rfl := Stage.ready.inj same
        exact ⟨state, process_startRun processed⟩
      have next := kept_set ready ⟨flight.updateId, update, .ready text⟩ here rfl (fun _ => held) prepared
      simpa only [List.set_set] using next
    · have next := kept_set ready ⟨flight.updateId, update, .started⟩ here rfl (fun open_ => absurd rfl open_)
        (by intro sent ready; cases ready)
      simpa only [List.set_set] using next

theorem kept_accept (kept : Kept bot s) {updateId : Nat} {update : Update} (fresh : s.state.nextUpdateId ≤ updateId) :
    Kept bot (step bot s (.accept updateId update)) := by
  have unheld : ∀ held, ¬ Holds s updateId held := by
    intro held holds
    exact absurd (kept.below updateId held holds) (by omega)
  have absent : s.state.inbox updateId = none := by
    rw [State.inbox, Option.map_eq_none_iff, List.find?_eq_none]
    rintro ⟨other, held⟩ member same
    obtain rfl : other = updateId := by simpa using same
    exact unheld held (Or.inl member)
  have split : ∀ other held, Holds (step bot s (.accept updateId update)) other held →
      (other = updateId ∧ held = update) ∨ (other ≠ updateId ∧ Holds s other held) := by
    intro other held holds
    simp only [step, State.acceptUpdate, absent] at holds
    rcases holds with pending | called | flying
    · rcases List.mem_append.mp pending with was | added
      · exact Or.inr ⟨by rintro rfl; exact unheld held (Or.inl was), Or.inl was⟩
      · exact Or.inl (by simpa using added)
    · exact Or.inr ⟨by rintro rfl; exact unheld held (Or.inr (Or.inl called)), Or.inr (Or.inl called)⟩
    · exact Or.inr ⟨by rintro rfl; exact unheld held (Or.inr (Or.inr flying)), Or.inr (Or.inr flying)⟩
  have keys : ((s.state.updateInbox ++ [(updateId, update)]).map Prod.fst).Nodup := by
    rw [List.map_append, List.nodup_append]
    refine ⟨kept.keys, by simp, ?_⟩
    intro other member last added same
    obtain ⟨⟨id, held⟩, was, rfl⟩ := List.mem_map.mp member
    obtain rfl : last = updateId := by simpa using added
    exact unheld held (Or.inl (same ▸ was))
  refine ⟨?_, ?_, ?_, ?_, ?_, ?_, ?_, ?_⟩
  · simpa only [step, State.acceptUpdate, absent] using keys
  · simpa only [step, State.acceptUpdate, absent] using kept.apart
  · intro other held holds
    have next : (step bot s (.accept updateId update)).state.nextUpdateId = max s.state.nextUpdateId (updateId + 1) := by
      simp only [step, State.acceptUpdate, absent]
    rw [next]
    rcases split other held holds with ⟨rfl, -⟩ | ⟨-, was⟩
    · omega
    · exact lt_of_lt_of_le (kept.below other held was) (le_max_left _ _)
  · intro part member
    simp only [step, State.acceptUpdate, absent] at member ⊢
    rcases List.mem_append.mp member with was | added
    · exact lt_of_lt_of_le (kept.partsBelow part was) (le_max_left _ _)
    · obtain ⟨plain, -, rfl⟩ := Option.map_eq_some_iff.mp (Option.mem_toList.mp added)
      simp
  · intro other first second left right
    rcases split other first left with ⟨rfl, rfl⟩ | ⟨different, was⟩
    · rcases split other second right with ⟨-, rfl⟩ | ⟨different, -⟩
      · rfl
      · exact absurd rfl different
    · rcases split other second right with ⟨same, -⟩ | ⟨-, too⟩
      · exact absurd same different
      · exact kept.agree other first second was too
  · intro part member held holds
    have added : part ∈ s.parts ∨ part ∈ partOf bot updateId update := by
      simp only [step, State.acceptUpdate, absent] at member
      exact List.mem_append.mp member
    rcases split part.1 held holds with ⟨same, rfl⟩ | ⟨different, was⟩
    · rcases added with old | new
      · exact absurd (kept.partsBelow part old) (by omega)
      · obtain ⟨⟨userId, chatId, text⟩, plain, rfl⟩ := Option.map_eq_some_iff.mp (Option.mem_toList.mp new)
        exact carries_self plain
    · rcases added with old | new
      · exact kept.carried part old held was
      · obtain ⟨plain, -, rfl⟩ := Option.map_eq_some_iff.mp (Option.mem_toList.mp new)
        exact absurd rfl different
  · simpa only [step, State.acceptUpdate, absent] using kept.made
  · simpa only [step, State.acceptUpdate, absent] using kept.prepared

theorem kept_begin (kept : Kept bot s) {updateId : Nat} {update : Update} {stage : Stage}
    (found : s.state.inbox updateId = some update) (begun : beginStage bot s updateId update = some stage) :
    Kept bot { s with flights := s.flights ++ [⟨updateId, update, stage⟩] } := by
  obtain ⟨⟨id, held⟩, find, rfl⟩ := Option.map_eq_some_iff.mp found
  obtain rfl : id = updateId := by simpa using List.find?_some find
  have pending : (id, held) ∈ s.state.updateInbox := List.mem_of_find?_eq_some find
  have apart : ∀ flight ∈ s.flights, flight.updateId ≠ id := by
    intro flight member same
    have clash : (s.flights.any fun flight => flight.updateId == id) = true :=
      List.any_eq_true.mpr ⟨flight, member, by simpa using same⟩
    simp [beginStage, clash] at begun
  have unready : ∀ text, stage ≠ .ready text := by
    rintro text rfl
    unfold beginStage at begun
    repeat' split at begun
    all_goals cases begun
  refine kept_flights kept ?_ ?_ ?_
  · rw [List.map_append, List.nodup_append]
    refine ⟨kept.apart, by simp, ?_⟩
    intro other member last added
    obtain ⟨flight, was, rfl⟩ := List.mem_map.mp member
    obtain rfl : last = id := by simpa using added
    exact apart flight was
  · intro flight member open_
    rcases List.mem_append.mp member with was | added
    · exact Or.inr (Or.inr ⟨flight, was, open_, rfl, rfl⟩)
    · rw [List.mem_singleton.mp added]
      exact Or.inl pending
  · intro flight member
    rcases List.mem_append.mp member with was | added
    · exact kept.prepared flight was
    · rw [List.mem_singleton.mp added]
      intro text ready
      exact absurd ready (unready text)

theorem kept_call (kept : Kept bot s) {n : Nat} {updateId : Nat} {update : Update} {text : String}
    (flying : s.flights[n]? = some ⟨updateId, update, .ready text⟩) :
    Kept bot { s with
      flights := s.flights.set n ⟨updateId, update, .started⟩
      log := s.log ++ [⟨updateId, sourceEventId bot updateId, update, text⟩] } := by
  have member := List.mem_of_getElem? flying
  refine kept_fewer kept kept.keys (by simp only [set_ids flying]; exact kept.apart) (le_refl _) ?_ rfl ?_ ?_
  · rintro other held (pending | ⟨call, made, rfl, rfl⟩ | ⟨flight, listed, open_, rfl, rfl⟩)
    · exact Or.inl pending
    · rcases List.mem_append.mp made with was | added
      · exact Or.inr (Or.inl ⟨call, was, rfl, rfl⟩)
      · rw [List.mem_singleton.mp added]
        exact Or.inr (Or.inr ⟨_, member, by simp, rfl, rfl⟩)
    · rcases List.mem_or_eq_of_mem_set listed with was | rfl
      · exact Or.inr (Or.inr ⟨flight, was, open_, rfl, rfl⟩)
      · exact absurd rfl open_
  · intro call made
    rcases List.mem_append.mp made with was | added
    · exact kept.made call was
    · rw [List.mem_singleton.mp added]
      exact ⟨rfl, kept.prepared _ member text rfl⟩
  · intro flight listed
    rcases List.mem_or_eq_of_mem_set listed with was | rfl
    · exact kept.prepared flight was
    · intro sent ready
      cases ready

theorem kept_recover (kept : Kept bot s) {pending : Nat} (apart : ∀ flight ∈ s.flights, flight.updateId ≠ pending) :
    Kept bot { s with flights := s.flights ++ [⟨pending, .unknown, .started⟩] } := by
  refine kept_flights kept ?_ ?_ ?_
  · rw [List.map_append, List.nodup_append]
    refine ⟨kept.apart, by simp, ?_⟩
    intro other member last added
    obtain ⟨flight, was, rfl⟩ := List.mem_map.mp member
    obtain rfl : last = pending := by simpa using added
    exact apart flight was
  · intro flight member open_
    rcases List.mem_append.mp member with was | added
    · exact Or.inr (Or.inr ⟨flight, was, open_, rfl, rfl⟩)
    · rw [List.mem_singleton.mp added] at open_
      exact absurd rfl open_
  · intro flight member
    rcases List.mem_append.mp member with was | added
    · exact kept.prepared flight was
    · rw [List.mem_singleton.mp added]
      intro text ready
      cases ready

theorem step_kept (s : System) (op : Op) (kept : Kept bot s) (guard : Delivered s op ∧ Unmerged bot s op) :
    Kept bot (step bot s op) := by
  cases op with
  | accept updateId update => exact kept_accept kept guard.1
  | begin updateId =>
    simp only [step]
    split
    · exact kept
    · rename_i update found
      split
      · exact kept
      · rename_i stage begun
        exact kept_begin kept found begun
  | proceed n =>
    simp only [step]
    split
    · exact kept
    · rename_i flight flying
      split
      · rename_i unstarted
        exact kept_proceed kept flying unstarted (guard.2 flight flying)
      · exact kept
  | call n =>
    simp only [step]
    split
    · rename_i updateId update text flying
      exact kept_call kept flying
    · exact kept
  | event n =>
    simp only [step]
    split
    · exact kept_state kept (List.Sublist.refl _) (le_refl _)
    · exact kept
  | finish n =>
    simp only [step]
    split
    · exact kept_completed (kept_erased kept n) _ _
    · exact kept
  | fail n => exact kept_erased kept n
  | recover updateId =>
    simp only [step]
    split
    · exact kept
    · split
      · exact kept
      · rename_i pending found absent
        refine kept_recover kept ?_
        intro flight member same
        exact absent (List.any_eq_true.mpr ⟨flight, member, by simpa using same⟩)
  | pair userId chatId =>
    simp only [step, State.pair]
    split
    · exact kept_state kept (List.Sublist.refl _) (le_refl _)
    · exact kept
  | awaitEdits chats => exact kept_state kept (List.Sublist.refl _) (le_refl _)
  | restart => exact kept_flights kept List.nodup_nil (List.forall_mem_nil _) (List.forall_mem_nil _)

theorem Kept.sameRequest (kept : Kept bot s) : SameRequest s.log := by
  intro first made second madeToo same
  obtain ⟨source, state, handled⟩ := kept.made first made
  obtain ⟨sourceToo, other, handledToo⟩ := kept.made second madeToo
  have id : first.updateId = second.updateId := sourceEventId_inj (source.symm.trans (same.trans sourceToo))
  have update : first.update = second.update :=
    kept.agree first.updateId _ _ (Or.inr (Or.inl ⟨first, made, rfl, rfl⟩))
      (Or.inr (Or.inl ⟨second, madeToo, id.symm, rfl⟩))
  exact handleUpdate_startRun handled (update ▸ handledToo)

theorem Kept.included (kept : Kept bot s) : Included s := by
  intro part member call found
  have made := List.mem_of_find?_eq_some found
  have id : call.updateId = part.1 := by simpa using List.find?_some found
  obtain ⟨-, state, handled⟩ := kept.made call made
  exact (kept.carried part member call.update (Or.inr (Or.inl ⟨call, made, id, rfl⟩))).request handled

/-- As long as no text is merged into an update after a run was requested for it, every retry sends the
same request, and the request has every text that was merged. -/
theorem retries_send_same_request {ops : List Op} (delivered : Run.Guarded (step bot) Delivered System.start ops)
    (unmerged : Run.Guarded (step bot) (Unmerged bot) System.start ops) (n : Nat) :
    SameRequest (Run.exec (step bot) System.start (ops.take n)).log ∧
      Included (Run.exec (step bot) System.start (ops.take n)) := by
  have kept : Kept bot (Run.exec (step bot) System.start (ops.take n)) :=
    ((delivered.and unmerged).take n).invariant step_kept kept_start
  exact ⟨kept.sameRequest, kept.included⟩

end Runs

section Samples

def sampleBot : Bot := ⟨7, "tulpa_bot", Text.lower⟩

def sampleText (text : String) : Update := .message ⟨some 5, some 50, false, text, "", none, []⟩

/-- Two texts that wait together, and two attempts that reach the server before the first event. -/
def retriedTogether : List Op :=
  [.pair 5 50, .accept 1 (sampleText "Buy milk"), .accept 2 (sampleText "and bread"), .begin 1, .proceed 0, .call 0,
    .fail 0, .begin 1, .proceed 0, .call 0, .event 0]

theorem retries_send_same_request_retriedTogether :
    (Run.exec (step sampleBot) System.start retriedTogether).log.map StartRun.text =
      ["Buy milk\n\nand bread", "Buy milk\n\nand bread"] ∧
    SameRequest (Run.exec (step sampleBot) System.start retriedTogether).log := by
  have delivered : Run.Guarded (step sampleBot) Delivered System.start retriedTogether := by decide +kernel
  have unmerged : Run.Guarded (step sampleBot) (Unmerged sampleBot) System.start retriedTogether := by decide +kernel
  exact ⟨by decide +kernel, by simpa [retriedTogether] using (retries_send_same_request delivered unmerged 11).1⟩

/-- The second text arrives after the first attempt failed. -/
def retriedWithMore : List Op :=
  [.pair 5 50, .accept 1 (sampleText "Buy milk"), .begin 1, .proceed 0, .call 0, .fail 0,
    .accept 2 (sampleText "and bread"), .begin 1, .proceed 0, .call 0]

theorem retry_sends_more :
    Run.Guarded (step sampleBot) Delivered System.start retriedWithMore ∧
    ¬ SameRequest (Run.exec (step sampleBot) System.start retriedWithMore).log := by
  have log : (Run.exec (step sampleBot) System.start retriedWithMore).log =
      [⟨1, "telegram:7:1", sampleText "Buy milk", "Buy milk"⟩,
        ⟨1, "telegram:7:1", sampleText "Buy milk\n\nand bread", "Buy milk\n\nand bread"⟩] := by decide +kernel
  refine ⟨by decide +kernel, ?_⟩
  rw [log]
  intro same
  have equal := same _ List.mem_cons_self _ (List.mem_cons_of_mem _ List.mem_cons_self) rfl
  exact absurd equal (by decide)

end Samples

end OpenTulpa.Telegram.Retries
