import OpenTulpa.Intake.Drafts
import OpenTulpa.Library.Run
import Mathlib.Data.List.Perm.Basic

/-! What a confirmation token authorizes, over every interleaving of draft calls. A preparation and an
activation read outside of their transactions, and whatever commits in between is caught by the
revision, the proposal and the hash that the transaction of the activation compares. -/

namespace OpenTulpa.Intake.Confirmations

open Library Text Outcome Workflows Drafts

/-- What was committed to drafts. -/
inductive Entry where
  | saved (key : DraftKey)
  | prepared (key : DraftKey) (revision : Nat) (token : String) (proposal : Proposal)
  | activated (key : DraftKey) (revision : Nat) (token : String) (workflow : Workflow) (workflowRevision : Nat)
  | deleted (key : DraftKey)
  deriving DecidableEq

@[grind =] def Entry.key : Entry → DraftKey
  | .saved key | .prepared key _ _ _ | .activated key _ _ _ _ | .deleted key => key

/-- The token that a preparation gave out. -/
@[grind =] def Entry.given : Entry → Option String
  | .prepared _ _ token _ => some token
  | _ => none

/-- The token that an activation used up. -/
@[grind =] def Entry.spent : Entry → Option String
  | .activated _ _ token _ _ => some token
  | _ => none

/-- A call between its reads and its transaction. -/
inductive Call where
  | prepare (key : DraftKey) (actorId : String) (expectedRevision : Nat) (proposal : Proposal) (token : String)
  | activate (key : DraftKey) (actorId : String) (expectedRevision : Nat) (proposal : Proposal) (token : String)
  | replace (key : DraftKey) (actorId : String) (expectedRevision : Nat) (proposal : Proposal) (token : String)
      (existing : Option WorkflowRow) (workflow : Workflow)
  deriving DecidableEq

@[grind =] def Call.drawn : Call → Option String
  | .prepare _ _ _ _ token => some token
  | _ => none

/-- Both databases, the calls under way, the tokens drawn, and what was committed, newest first. -/
structure System where
  drafts : DraftTable
  workflows : WorkflowTable
  calls : List Call
  drawn : List String
  history : List Entry
  deriving DecidableEq

def System.start : System := ⟨[], [], [], [], []⟩

inductive Op where
  | save (scope : Scope) (workflowId : String) (patch : JsonObject) (expectedRevision : Option Nat) (now : Int)
  | delete (scope : Scope) (expectedRevision : Nat)
  | prepare (scope : Scope) (expectedRevision : Nat) (token : String)
  | activate (scope : Scope) (expectedRevision : Nat) (token : String)
  | lookUp (call : Nat)
  | commit (call : Nat) (attemptId : String) (now : Int)
  | elsewhere (workflows : WorkflowTable)
  deriving DecidableEq

section Step

variable (service : Service)

/-- The token that `prepare` draws, which is at least 32 characters long. -/
def drawToken (token : String) : Except DraftError String :=
  if (strip token).length < 32 then .error .token else .ok (strip token)

def beginPrepare (s : System) (scope : Scope) (expectedRevision : Nat) (token : String) : Except DraftError Call := do
  let (key, actor) ← scope.resolve
  let proposal ← service.propose s.drafts key expectedRevision
  let drawn ← drawToken token
  return .prepare key actor expectedRevision proposal drawn

def beginActivate (s : System) (scope : Scope) (expectedRevision : Nat) (token : String) : Except DraftError Call := do
  let (key, actor) ← scope.resolve
  let proposal ← service.preparedProposal s.drafts key
  return .activate key actor expectedRevision proposal (strip token)

/-- What the transaction of a call leaves, and the entry of what it committed. -/
def transact (s : System) (call : Call) (attemptId : String) (now : Int) :
    Except DraftError (DraftTable × WorkflowTable × Entry) :=
  match call with
  | .prepare key actor expected proposal token => do
    let hash := service.proposalHash proposal
    let drafts ← prepare s.drafts key actor expected proposal hash (service.tokenHash key expected hash token) now
    return (drafts, s.workflows, .prepared key expected token proposal)
  | .replace key actor expected proposal token existing workflow => do
    let hash := service.tokenHash key expected (service.proposalHash proposal) token
    let (drafts, workflows, revision) ←
      activateDraft s.drafts s.workflows key actor expected hash proposal existing workflow attemptId now
    return (drafts, workflows, .activated key expected token workflow revision)
  | .activate _ _ _ _ _ => .error .activation

/-- The call looks up the workflow that it replaces, or ends. -/
def lookedUp (s : System) : Call → Option Call
  | .activate key actor expected proposal token =>
    match service.replacement s.workflows key.1 proposal with
    | .ok (existing, workflow) => some (.replace key actor expected proposal token existing workflow)
    | .error _ => none
  | call => some call

@[grind =] def step (s : System) : Op → System
  | .save scope workflowId patch expectedRevision now =>
    match scope.resolve with
    | .error _ => s
    | .ok (key, actor) =>
      match save s.drafts key actor workflowId patch expectedRevision now with
      | .error _ => s
      | .ok drafts => { s with drafts := drafts, history := .saved key :: s.history }
  | .delete scope expectedRevision =>
    match scope.resolve with
    | .error _ => s
    | .ok (key, _) =>
      match delete s.drafts key expectedRevision with
      | .error _ => s
      | .ok drafts => { s with drafts := drafts, history := .deleted key :: s.history }
  | .prepare scope expectedRevision token =>
    match beginPrepare service s scope expectedRevision token with
    | .error _ => s
    | .ok call => { s with calls := s.calls ++ [call], drawn := strip token :: s.drawn }
  | .activate scope expectedRevision token =>
    match beginActivate service s scope expectedRevision token with
    | .error _ => s
    | .ok call => { s with calls := s.calls ++ [call] }
  | .lookUp n =>
    match s.calls[n]? with
    | none => s
    | some call =>
      match lookedUp service s call with
      | none => { s with calls := s.calls.eraseIdx n }
      | some next => { s with calls := s.calls.set n next }
  | .commit n attemptId now =>
    match s.calls[n]? with
    | none => s
    | some call =>
      match transact service s call attemptId now with
      | .error _ => { s with calls := s.calls.eraseIdx n }
      | .ok (drafts, workflows, entry) =>
        ⟨drafts, workflows, s.calls.eraseIdx n, s.drawn, entry :: s.history⟩
  | .elsewhere workflows => { s with workflows := workflows }

end Step

/-- A token was not drawn before. -/
def Fresh (s : System) : Op → Prop
  | .prepare _ _ token => strip token ∉ s.drawn
  | _ => True

instance (s : System) (op : Op) : Decidable (Fresh s op) := by
  cases op <;> unfold Fresh <;> infer_instance

/-- The token was given out by the latest preparation of the draft, which prepared the proposal at the
revision, and nothing was committed to the draft since. -/
def Standing (history : List Entry) (key : DraftKey) (revision : Nat) (token : String) (proposal : Proposal) : Prop :=
  ∃ since before, history = since ++ .prepared key revision token proposal :: before ∧
    ∀ entry ∈ since, entry.key ≠ key

/-- The token stands for a proposal that the workflow is a normalization of. -/
def Authorized (service : Service) (older : List Entry) (key : DraftKey) (revision : Nat) (token : String)
    (workflow : Workflow) : Prop :=
  ∃ proposal existing, Standing older key revision token proposal ∧
    service.normalizeWorkflow key.1 existing proposal = some workflow

/-- Every activation was authorized, and no token was used twice. -/
def Good (service : Service) (history : List Entry) : Prop :=
  (∀ newer key revision token workflow number older,
    history = newer ++ .activated key revision token workflow number :: older →
      Authorized service older key revision token workflow) ∧
  (history.filterMap Entry.spent).Nodup

/-- An activation finds its draft at the expected revision and writes the workflow under its number. Nothing
else that is committed to a draft writes a workflow. -/
def Wrote (s after : System) : Entry → Prop
  | .activated key revision _ workflow number =>
    (get s.drafts key).map Draft.revision = some revision ∧
      (row after.workflows workflow.workflowId).map (fun row => (row.workflow, row.revision)) = some (workflow, number)
  | _ => after.workflows = s.workflows

/-- A step commits one entry, or leaves the drafts as they were and the workflows too, unless someone else
writes them. -/
def Faithful (s after : System) (op : Op) : Prop :=
  (after.history = s.history ∧ after.drafts = s.drafts ∧
    (after.workflows = s.workflows ∨ ∃ workflows, op = .elsewhere workflows)) ∨
  ∃ entry, after.history = entry :: s.history ∧ Wrote s after entry

section Histories

/-- A value that is drawn from a list only once is drawn at one place. -/
theorem drawn_at_one_place {α β : Type*} {f : α → Option β} {value : β} {x y : α} :
    ∀ {a b c d : List α}, ((a ++ x :: b).filterMap f).Nodup → a ++ x :: b = c ++ y :: d →
      f x = some value → f y = some value → a = c ∧ x = y := by
  intro a
  induction a with
  | nil =>
    intro b c d once same left right
    cases c with
    | nil => exact ⟨rfl, (List.cons.inj same).1⟩
    | cons z c =>
      obtain ⟨rfl, rfl⟩ := List.cons.inj same
      rw [List.nil_append, List.filterMap_cons_some left] at once
      exact absurd (List.mem_filterMap.mpr ⟨y, by simp, right⟩) (List.nodup_cons.mp once).1
  | cons z a ih =>
    intro b c d once same left right
    cases c with
    | nil =>
      obtain ⟨rfl, rfl⟩ := List.cons.inj same
      rw [List.cons_append, List.filterMap_cons_some right] at once
      exact absurd (List.mem_filterMap.mpr ⟨x, by simp, left⟩) (List.nodup_cons.mp once).1
    | cons w c =>
      obtain ⟨rfl, later⟩ := List.cons.inj same
      have rest : ((a ++ x :: b).filterMap f).Nodup := by
        rw [List.cons_append, List.filterMap_cons] at once
        cases drawn : f z with
        | none => simpa [drawn] using once
        | some other => exact (List.nodup_cons.mp (by simpa [drawn] using once)).2
      obtain ⟨rfl, rfl⟩ := ih rest later left right
      exact ⟨rfl, rfl⟩

variable {service : Service} {history : List Entry} {key : DraftKey} {revision : Nat} {token : String}
  {proposal : Proposal}

theorem Standing.cons (standing : Standing history key revision token proposal) {entry : Entry}
    (apart : entry.key ≠ key) : Standing (entry :: history) key revision token proposal := by
  obtain ⟨since, before, rfl, others⟩ := standing
  exact ⟨entry :: since, before, rfl, List.forall_mem_cons.mpr ⟨apart, others⟩⟩

theorem Good.cons (good : Good service history) {entry : Entry} (unspent : entry.spent = none) :
    Good service (entry :: history) := by
  refine ⟨?_, by rw [List.filterMap_cons_none unspent]; exact good.2⟩
  intro newer key revision token workflow number older same
  cases newer with
  | nil =>
    obtain ⟨rfl, -⟩ := List.cons.inj same
    cases unspent
  | cons first newer =>
    exact good.1 newer key revision token workflow number older (List.cons.inj same).2

/-- A token that stands was not used: the activation that used it would have been committed to the draft
since the token was given out. -/
theorem Standing.unspent (standing : Standing history key revision token proposal) (good : Good service history)
    (once : (history.filterMap Entry.given).Nodup) : token ∉ history.filterMap Entry.spent := by
  intro used
  obtain ⟨entry, member, spent⟩ := List.mem_filterMap.mp used
  obtain ⟨newer, older, rfl⟩ := List.append_of_mem member
  cases entry with
  | saved _ => cases spent
  | prepared _ _ _ _ => cases spent
  | deleted _ => cases spent
  | activated key' revision' token' workflow number =>
    obtain rfl : token' = token := Option.some.inj spent
    obtain ⟨since, before, same, others⟩ := standing
    obtain ⟨proposal', existing, ⟨since', before', rfl, -⟩, -⟩ :=
      good.1 newer key' revision' token' workflow number older rfl
    have regroup : newer ++ .activated key' revision' token' workflow number ::
        (since' ++ .prepared key' revision' token' proposal' :: before') =
        (newer ++ .activated key' revision' token' workflow number :: since') ++
          .prepared key' revision' token' proposal' :: before' := by simp
    rw [regroup] at same once
    obtain ⟨rfl, equal⟩ := drawn_at_one_place once same rfl rfl
    obtain ⟨rfl, -⟩ := Entry.prepared.inj equal
    exact others (.activated key' revision' token' workflow number) (by simp) rfl

theorem Good.activated (good : Good service history) (once : (history.filterMap Entry.given).Nodup)
    {workflow : Workflow} {existing : Option WorkflowRow}
    (standing : Standing history key revision token proposal)
    (normal : service.normalizeWorkflow key.1 existing proposal = some workflow) (number : Nat) :
    Good service (.activated key revision token workflow number :: history) := by
  constructor
  · intro newer key' revision' token' workflow' number' older same
    cases newer with
    | nil =>
      obtain ⟨equal, rfl⟩ := List.cons.inj same
      obtain ⟨rfl, rfl, rfl, rfl, rfl⟩ := Entry.activated.inj equal
      exact ⟨proposal, existing, standing, normal⟩
    | cons first newer => exact good.1 newer key' revision' token' workflow' number' older (List.cons.inj same).2
  · rw [List.filterMap_cons_some (show Entry.spent _ = some token from rfl)]
    exact List.nodup_cons.mpr ⟨standing.unspent good once, good.2⟩

end Histories

section Tables

/-- The drafts of other keys are the ones of the table, and those of the key meet the property. -/
def Touched (table : DraftTable) (key : DraftKey) (P : Draft → Prop) (drafts : DraftTable) : Prop :=
  (drafts.map Draft.key).Nodup ∧ ∀ draft ∈ drafts, (draft ∈ table ∧ draft.key ≠ key) ∨ (draft.key = key ∧ P draft)

variable {table drafts : DraftTable} {key : DraftKey} {actorId : String} {expected : Nat} {now : Int}

theorem get_mem {draft : Draft} (found : get table key = some draft) : draft ∈ table ∧ draft.key = key :=
  ⟨List.mem_of_find?_eq_some found, by simpa using List.find?_some found⟩

theorem change_touched (distinct : (table.map Draft.key).Nodup) {draft : Draft} (found : get table key = some draft)
    {change : Draft → Draft} (kept : ∀ draft, (change draft).key = draft.key) :
    Touched table key (fun after => after = change draft) (Drafts.change table key change) := by
  obtain ⟨member, here⟩ := get_mem found
  constructor
  · rw [Drafts.change, Rows.map_update Draft.key fun row _ => kept row]
    exact distinct
  · intro after changed
    rcases Rows.mem_update.mp changed with ⟨old, was, chosen, rfl⟩ | ⟨was, missed⟩
    · have same : old.key = key := by simpa using chosen
      refine Or.inr ⟨(kept old).trans same, ?_⟩
      rw [Rows.eq_of_key_eq distinct was member (same.trans here.symm)]
    · exact Or.inl ⟨was, by simpa using missed⟩

theorem Touched.mono {P Q : Draft → Prop} (touched : Touched table key P drafts) (weaker : ∀ draft, P draft → Q draft) :
    Touched table key Q drafts :=
  ⟨touched.1, fun draft member => (touched.2 draft member).imp_right fun ⟨here, holds⟩ => ⟨here, weaker draft holds⟩⟩

theorem save_touched (distinct : (table.map Draft.key).Nodup) {workflowId : String} {patch : JsonObject}
    {expectedRevision : Option Nat}
    (saved : save table key actorId workflowId patch expectedRevision now = .ok drafts) :
    Touched table key (fun draft => draft.confirmationTokenHash = none) drafts := by
  unfold save at saved
  cases found : get table key with
  | none =>
    rw [found] at saved
    cases expectedRevision with
    | some expected => cases saved
    | none =>
      obtain rfl := Except.ok.inj saved
      have absent : ∀ draft ∈ table, draft.key ≠ key := by
        intro draft member
        simpa using List.find?_eq_none.mp found draft member
      constructor
      · rw [List.map_append, List.nodup_append]
        refine ⟨distinct, by simp, ?_⟩
        intro other member last added
        obtain ⟨draft, was, rfl⟩ := List.mem_map.mp member
        have same : last = key := by simpa using added
        rw [same]
        exact absent draft was
      · intro draft member
        rcases List.mem_append.mp member with was | added
        · exact Or.inl ⟨was, absent draft was⟩
        · obtain rfl := List.mem_singleton.mp added
          exact Or.inr ⟨rfl, rfl⟩
  | some draft =>
    rw [found] at saved
    simp only at saved
    split at saved
    · cases saved
    · cases expectedRevision with
      | none => cases saved
      | some expected =>
        simp only at saved
        split at saved
        · cases saved
        · split at saved
          · cases saved
          · obtain rfl := Except.ok.inj saved
            refine (change_touched distinct found (by intros; rfl)).mono ?_
            rintro after rfl
            rfl

theorem delete_touched (distinct : (table.map Draft.key).Nodup) (deleted : delete table key expected = .ok drafts) :
    Touched table key (fun draft => draft.confirmationTokenHash = none) drafts := by
  unfold delete at deleted
  split at deleted
  · cases deleted
  · split at deleted
    · cases deleted
    · split at deleted
      · cases deleted
      · obtain rfl := Except.ok.inj deleted
        refine ⟨distinct.sublist (List.filter_sublist.map Draft.key), ?_⟩
        intro draft member
        obtain ⟨was, apart⟩ := List.mem_filter.mp member
        exact Or.inl ⟨was, by simpa using apart⟩

theorem prepare_touched (distinct : (table.map Draft.key).Nodup) {proposal : Proposal} {proposalHash tokenHash : String}
    (prepared : prepare table key actorId expected proposal proposalHash tokenHash now = .ok drafts) :
    Touched table key (fun draft => draft.revision = expected ∧ draft.proposal = some proposal ∧
      draft.confirmationTokenHash = some tokenHash) drafts := by
  unfold prepare at prepared
  split at prepared
  · cases prepared
  · rename_i draft found
    split at prepared
    · cases prepared
    · rename_i current
      split at prepared
      · cases prepared
      · obtain rfl := Except.ok.inj prepared
        refine (change_touched distinct found (by intros; rfl)).mono ?_
        rintro after rfl
        exact ⟨not_not.mp current, rfl, rfl⟩

theorem claimActivation_ok {tokenHash attemptId : String} {claimedTable : DraftTable} {claimed : Draft}
    (distinct : (table.map Draft.key).Nodup)
    (taken : claimActivation table key actorId expected tokenHash attemptId now = .ok (claimedTable, claimed)) :
    Touched table key (fun draft => draft.revision = expected ∧ draft.status = .activating ∧
      draft.activationAttemptId = some attemptId) claimedTable ∧
    ∃ draft, get table key = some draft ∧ draft.revision = expected ∧ draft.confirmationTokenHash = some tokenHash ∧
      claimed.proposal = draft.proposal := by
  unfold claimActivation at taken
  split at taken
  · cases taken
  · rename_i draft found
    split at taken
    · cases taken
    · rename_i current
      split at taken
      · cases taken
      · split at taken
        · cases taken
        · simp only at taken
          split at taken
          · cases taken
          · rename_i valid
            obtain ⟨rfl, rfl⟩ := Prod.mk.inj (Except.ok.inj taken)
            have stored : draft.confirmationTokenHash = some tokenHash := by
              cases hash : draft.confirmationTokenHash with
              | none => simp [hash] at valid
              | some text =>
                have same : text = tokenHash := by
                  by_contra different
                  simp [hash, different] at valid
                rw [same]
            refine ⟨?_, draft, found, not_not.mp current, stored, rfl⟩
            refine (change_touched distinct found (by intros; rfl)).mono ?_
            rintro after rfl
            exact ⟨not_not.mp current, rfl, rfl⟩

theorem finishActivation_touched {attemptId : String} {claimedTable : DraftTable}
    (claimed : Touched table key (fun draft => draft.revision = expected ∧ draft.status = .activating ∧
      draft.activationAttemptId = some attemptId) claimedTable)
    (finished : finishActivation claimedTable key actorId expected attemptId now = .ok drafts) :
    Touched table key (fun draft => draft.confirmationTokenHash = none) drafts := by
  unfold finishActivation at finished
  simp only at finished
  split at finished
  · cases finished
  · obtain rfl := Except.ok.inj finished
    constructor
    · rw [Rows.map_update Draft.key (by intros; rfl)]
      exact claimed.1
    · intro draft member
      rcases Rows.mem_update.mp member with ⟨old, was, chosen, rfl⟩ | ⟨was, missed⟩
      · simp only [Bool.and_eq_true, beq_iff_eq] at chosen
        exact Or.inr ⟨chosen.1.1.1, rfl⟩
      · rcases claimed.2 draft was with other | ⟨here, current, status, attempt⟩
        · exact Or.inl other
        · simp [here, current, status, attempt] at missed

theorem row_writeRow (workflows : WorkflowTable) (written : WorkflowRow) :
    (row (writeRow workflows written) written.workflow.workflowId).map (fun row => (row.workflow, row.revision)) =
      some (written.workflow, written.revision) := by
  unfold writeRow
  cases found : row workflows written.workflow.workflowId with
  | none =>
    rw [row] at found
    simp [row, List.find?_append, found]
  | some old =>
    have here : old.workflow.workflowId = written.workflow.workflowId := by simpa using List.find?_some found
    rw [row] at found
    rw [row, Rows.find_update _ _ _ _ (by simp), found]
    simp [here]

theorem upsertWorkflowRecord_row {workflows written : WorkflowTable} {workflow : Workflow} {createdAt updatedAt : Int}
    {revision : Option Nat} {number : Nat}
    (done : upsertWorkflowRecord workflows workflow createdAt updatedAt revision = .ok (written, number)) :
    (row written workflow.workflowId).map (fun row => (row.workflow, row.revision)) = some (workflow, number) := by
  unfold upsertWorkflowRecord at done
  simp only at done
  split at done
  · cases done
  · split at done
    · cases done
    · split at done
      · cases done
      · obtain ⟨rfl, rfl⟩ := Prod.mk.inj (Except.ok.inj done)
        exact row_writeRow workflows ⟨workflow, _, createdAt, updatedAt⟩

/-- The transaction of an activation commits only for the draft at the expected revision, under the stored
hash and with the stored proposal, and it clears the hash. -/
theorem activateDraft_ok {workflows written : WorkflowTable} {tokenHash attemptId : String} {proposal : Proposal}
    {existing : Option WorkflowRow} {workflow : Workflow} {number : Nat} (distinct : (table.map Draft.key).Nodup)
    (done : activateDraft table workflows key actorId expected tokenHash proposal existing workflow attemptId now =
      .ok (drafts, written, number)) :
    Touched table key (fun draft => draft.confirmationTokenHash = none) drafts ∧
    (∃ draft, get table key = some draft ∧ draft.revision = expected ∧
      draft.confirmationTokenHash = some tokenHash ∧ draft.proposal = some proposal) ∧
    (row written workflow.workflowId).map (fun row => (row.workflow, row.revision)) = some (workflow, number) := by
  unfold activateDraft at done
  obtain ⟨⟨claimedTable, claimed⟩, taken, rest⟩ := bind_eq_ok done
  obtain ⟨touched, draft, found, current, stored, same⟩ := claimActivation_ok distinct taken
  simp only at rest
  split at rest
  · cases rest
  · rename_i unchanged
    split at rest
    · cases rest
    · rename_i table number upserted
      obtain ⟨finishedTable, finished, result⟩ := bind_eq_ok rest
      obtain ⟨rfl, numbered⟩ := Prod.mk.inj (Except.ok.inj result)
      obtain ⟨rfl, rfl⟩ := Prod.mk.inj numbered
      have proposed : claimed.proposal = some proposal := by
        by_contra different
        exact unchanged (Or.inr different)
      exact ⟨finishActivation_touched touched finished,
        ⟨draft, found, current, stored, same.symm.trans proposed⟩, upsertWorkflowRecord_row upserted⟩

end Tables

section Runs

variable (service : Service)

/-- The hash of a draft is the one of a token that stands for the proposal of the draft. -/
def Bound (history : List Entry) (draft : Draft) : Prop :=
  ∀ hash, draft.confirmationTokenHash = some hash →
    ∃ token proposal, Standing history draft.key draft.revision token proposal ∧ draft.proposal = some proposal ∧
      hash = service.tokenHash draft.key draft.revision (service.proposalHash proposal) token

/-- The workflow of a call is a normalization of its proposal. -/
def Call.Normal : Call → Prop
  | .replace key _ _ proposal _ existing workflow => service.normalizeWorkflow key.1 existing proposal = some workflow
  | _ => True

/-- The tokens that preparations gave out or are about to give out. -/
def tokens (s : System) : List String := s.history.filterMap Entry.given ++ s.calls.filterMap Call.drawn

structure Kept (s : System) : Prop where
  distinct : (s.drafts.map Draft.key).Nodup
  bound : ∀ draft ∈ s.drafts, Bound service s.history draft
  once : (tokens s).Nodup
  drawn : ∀ token ∈ tokens s, token ∈ s.drawn
  normal : ∀ call ∈ s.calls, call.Normal service
  good : Good service s.history

variable {service} {s : System}

theorem kept_start : Kept service System.start := by
  refine ⟨List.nodup_nil, List.forall_mem_nil _, List.nodup_nil, List.forall_mem_nil _, List.forall_mem_nil _, ?_,
    List.nodup_nil⟩
  intro newer key revision token workflow number older same
  cases newer <;> cases same

theorem bound_of_touched (kept : Kept service s) (entry : Entry) {P : Draft → Prop} {drafts : DraftTable}
    (touched : Touched s.drafts entry.key P drafts)
    (holds : ∀ draft, draft.key = entry.key → P draft → Bound service (entry :: s.history) draft) :
    ∀ draft ∈ drafts, Bound service (entry :: s.history) draft := by
  intro draft member
  rcases touched.2 draft member with ⟨was, apart⟩ | ⟨here, property⟩
  · intro hash stored
    obtain ⟨token, proposal, standing, proposed, same⟩ := kept.bound draft was hash stored
    exact ⟨token, proposal, standing.cons (Ne.symm apart), proposed, same⟩
  · exact holds draft here property

theorem bound_of_cleared {history : List Entry} {draft : Draft} (cleared : draft.confirmationTokenHash = none) :
    Bound service history draft := by
  intro hash stored
  rw [cleared] at stored
  cases stored

/-- Saving and deleting commit an entry that neither gives out a token nor uses one. -/
theorem kept_touched (kept : Kept service s) {entry : Entry} {drafts : DraftTable} (given : entry.given = none)
    (spent : entry.spent = none)
    (touched : Touched s.drafts entry.key (fun draft => draft.confirmationTokenHash = none) drafts) :
    Kept service { s with drafts := drafts, history := entry :: s.history } := by
  have same : tokens { s with drafts := drafts, history := entry :: s.history } = tokens s := by
    simp [tokens, List.filterMap_cons_none given]
  refine ⟨touched.1, bound_of_touched kept entry touched fun draft _ cleared => bound_of_cleared cleared, ?_, ?_,
    kept.normal, kept.good.cons spent⟩
  · rw [same]
    exact kept.once
  · rw [same]
    exact kept.drawn

/-- A call that holds no token other than its predecessor's may take its place. -/
theorem kept_calls (kept : Kept service s) {calls : List Call}
    (fewer : (calls.filterMap Call.drawn).Sublist (s.calls.filterMap Call.drawn))
    (normal : ∀ call ∈ calls, call.Normal service) : Kept service { s with calls := calls } := by
  have sub : (tokens { s with calls := calls }).Sublist (tokens s) := (List.Sublist.refl _).append fewer
  exact ⟨kept.distinct, kept.bound, kept.once.sublist sub, fun token member => kept.drawn token (sub.subset member),
    normal, kept.good⟩

theorem kept_erased (kept : Kept service s) (n : Nat) : Kept service { s with calls := s.calls.eraseIdx n } :=
  kept_calls kept ((List.eraseIdx_sublist s.calls n).filterMap _)
    fun call member => kept.normal call (List.mem_of_mem_eraseIdx member)

theorem boundText_token {key : DraftKey} {revision : Nat} {proposalHash token other : String}
    (same : boundText key revision proposalHash token = boundText key revision proposalHash other) : token = other := by
  unfold boundText at same
  simpa [String.append_right_inj] using same

theorem tokenHash_token (injective : Function.Injective service.digest) {key : DraftKey} {revision : Nat}
    {proposalHash token other : String}
    (same : service.tokenHash key revision proposalHash token = service.tokenHash key revision proposalHash other) :
    token = other :=
  boundText_token (injective same)

/-- A preparation draws a token that no other preparation has. -/
theorem kept_begun (kept : Kept service s) {key : DraftKey} {actor : String} {expected : Nat} {proposal : Proposal}
    {token : String} (fresh : token ∉ s.drawn) :
    Kept service { s with calls := s.calls ++ [.prepare key actor expected proposal token], drawn := token :: s.drawn } := by
  have same : tokens { s with calls := s.calls ++ [.prepare key actor expected proposal token]
                              drawn := token :: s.drawn } = tokens s ++ [token] := by
    simp [tokens, Call.drawn]
  refine ⟨kept.distinct, kept.bound, ?_, ?_, ?_, kept.good⟩
  · rw [same, List.nodup_append]
    refine ⟨kept.once, by simp, ?_⟩
    intro earlier member last added equal
    obtain rfl := List.mem_singleton.mp added
    exact fresh (equal ▸ kept.drawn earlier member)
  · rw [same]
    intro other member
    rcases List.mem_append.mp member with earlier | last
    · exact List.mem_cons_of_mem _ (kept.drawn other earlier)
    · rw [List.mem_singleton.mp last]
      exact List.mem_cons_self
  · intro call member
    rcases List.mem_append.mp member with earlier | last
    · exact kept.normal call earlier
    · rw [List.mem_singleton.mp last]
      trivial

theorem kept_prepared (kept : Kept service s) {n : Nat} {key : DraftKey} {actor : String} {expected : Nat}
    {proposal : Proposal} {token : String} {drafts : DraftTable} {now : Int}
    (called : s.calls[n]? = some (.prepare key actor expected proposal token))
    (done : prepare s.drafts key actor expected proposal (service.proposalHash proposal)
      (service.tokenHash key expected (service.proposalHash proposal) token) now = .ok drafts) :
    Kept service ⟨drafts, s.workflows, s.calls.eraseIdx n, s.drawn,
      .prepared key expected token proposal :: s.history⟩ := by
  have touched := prepare_touched kept.distinct done
  obtain ⟨inside, taken⟩ := List.getElem?_eq_some_iff.mp called
  have moved : (tokens ⟨drafts, s.workflows, s.calls.eraseIdx n, s.drawn,
      .prepared key expected token proposal :: s.history⟩).Perm (tokens s) := by
    have calls := (List.getElem_cons_eraseIdx_perm inside).filterMap Call.drawn
    rw [taken, List.filterMap_cons_some (show Call.drawn _ = some token from rfl)] at calls
    simp only [tokens, List.filterMap_cons_some (show Entry.given (.prepared key expected token proposal) = some token
      from rfl), List.cons_append]
    exact List.perm_middle.symm.trans (calls.append_left _)
  refine ⟨touched.1, bound_of_touched kept (.prepared key expected token proposal) touched ?_,
    moved.nodup_iff.mpr kept.once, fun other member => kept.drawn other (moved.mem_iff.mp member),
    fun call member => kept.normal call (List.mem_of_mem_eraseIdx member), kept.good.cons rfl⟩
  rintro draft here ⟨current, proposed, stored⟩ hash same
  have equal : draft.key = key := here
  obtain rfl : service.tokenHash key expected (service.proposalHash proposal) token = hash :=
    Option.some.inj (stored.symm.trans same)
  exact ⟨token, proposal, ⟨[], s.history, by rw [equal, current]; rfl, List.forall_mem_nil _⟩, proposed,
    by rw [equal, current]⟩

/-- The stored hash that an activation presents is the one of its own token, so the token stands. -/
theorem standing_of_stored (injective : Function.Injective service.digest) (kept : Kept service s) {key : DraftKey}
    {expected : Nat} {proposal : Proposal} {token : String} {draft : Draft} (found : get s.drafts key = some draft)
    (current : draft.revision = expected) (proposed : draft.proposal = some proposal)
    (stored : draft.confirmationTokenHash =
      some (service.tokenHash key expected (service.proposalHash proposal) token)) :
    Standing s.history key expected token proposal := by
  obtain ⟨member, here⟩ := get_mem found
  obtain ⟨given, stood, standing, same, hash⟩ := kept.bound draft member _ stored
  obtain rfl : proposal = stood := Option.some.inj (proposed.symm.trans same)
  rw [here, current] at standing hash
  rwa [tokenHash_token injective hash]

theorem kept_activated (injective : Function.Injective service.digest) (kept : Kept service s) {n : Nat}
    {key : DraftKey} {actor : String} {expected number : Nat} {proposal : Proposal} {token attemptId : String}
    {existing : Option WorkflowRow} {workflow : Workflow} {drafts : DraftTable} {written : WorkflowTable} {now : Int}
    (called : s.calls[n]? = some (.replace key actor expected proposal token existing workflow))
    (done : activateDraft s.drafts s.workflows key actor expected
      (service.tokenHash key expected (service.proposalHash proposal) token) proposal existing workflow attemptId now =
        .ok (drafts, written, number)) :
    Kept service ⟨drafts, written, s.calls.eraseIdx n, s.drawn,
      .activated key expected token workflow number :: s.history⟩ := by
  obtain ⟨touched, ⟨draft, found, current, stored, proposed⟩, -⟩ := activateDraft_ok kept.distinct done
  have standing := standing_of_stored injective kept found current proposed stored
  have normal : service.normalizeWorkflow key.1 existing proposal = some workflow :=
    kept.normal _ (List.mem_of_getElem? called)
  have good := kept.good.activated (kept.once.sublist (List.sublist_append_left _ _)) standing normal number
  have fewer : (tokens ⟨drafts, written, s.calls.eraseIdx n, s.drawn,
      .activated key expected token workflow number :: s.history⟩).Sublist (tokens s) := by
    simp only [tokens, List.filterMap_cons_none (show Entry.given (.activated key expected token workflow number) = none
      from rfl)]
    exact (List.Sublist.refl _).append ((List.eraseIdx_sublist s.calls n).filterMap _)
  exact ⟨touched.1, bound_of_touched kept (.activated key expected token workflow number) touched
      fun draft _ cleared => bound_of_cleared cleared,
    kept.once.sublist fewer, fun other member => kept.drawn other (fewer.subset member),
    fun call member => kept.normal call (List.mem_of_mem_eraseIdx member), good⟩

theorem kept_lookedUp (kept : Kept service s) {n : Nat} {call next : Call} (called : s.calls[n]? = some call)
    (found : lookedUp service s call = some next) : Kept service { s with calls := s.calls.set n next } := by
  have drawn : next.drawn = call.drawn ∧ next.Normal service := by
    cases call with
    | prepare key actor expected proposal token =>
      obtain rfl := Option.some.inj found
      exact ⟨rfl, trivial⟩
    | replace key actor expected proposal token existing workflow =>
      obtain rfl := Option.some.inj found
      exact ⟨rfl, kept.normal _ (List.mem_of_getElem? called)⟩
    | activate key actor expected proposal token =>
      unfold lookedUp at found
      cases replaced : service.replacement s.workflows key.1 proposal with
      | error error => simp [replaced] at found
      | ok pair =>
        obtain ⟨existing, workflow⟩ := pair
        simp only [replaced, Option.some.injEq] at found
        subst found
        refine ⟨rfl, ?_⟩
        unfold Service.replacement at replaced
        simp only at replaced
        split at replaced
        · cases replaced
        · split at replaced
          · cases replaced
          · rename_i normal
            obtain ⟨rfl, rfl⟩ := Prod.mk.inj (Except.ok.inj replaced)
            exact normal
  apply kept_calls kept
  · have same : (s.calls.set n next).filterMap Call.drawn = s.calls.filterMap Call.drawn := by
      obtain ⟨inside, taken⟩ := List.getElem?_eq_some_iff.mp called
      rw [List.set_eq_take_append_cons_drop, if_pos inside]
      conv_rhs => rw [← List.take_append_drop n s.calls, List.drop_eq_getElem_cons inside, taken]
      simp only [List.filterMap_append, List.filterMap_cons, drawn.1]
    rw [same]
  · intro other member
    rcases List.mem_or_eq_of_mem_set member with was | rfl
    · exact kept.normal other was
    · exact drawn.2

theorem beginPrepare_ok {scope : Scope} {expected : Nat} {token : String} {call : Call}
    (begun : beginPrepare service s scope expected token = .ok call) :
    ∃ key actor proposal, call = .prepare key actor expected proposal (strip token) := by
  obtain ⟨⟨key, actor⟩, -, rest⟩ := bind_eq_ok begun
  obtain ⟨proposal, -, rest⟩ := bind_eq_ok rest
  obtain ⟨drawn, long, result⟩ := bind_eq_ok rest
  refine ⟨key, actor, proposal, ?_⟩
  unfold drawToken at long
  split at long
  · cases long
  · obtain rfl := Except.ok.inj long
    exact (Except.ok.inj result).symm

theorem beginActivate_ok {scope : Scope} {expected : Nat} {token : String} {call : Call}
    (begun : beginActivate service s scope expected token = .ok call) :
    ∃ key actor proposal, call = .activate key actor expected proposal (strip token) := by
  obtain ⟨⟨key, actor⟩, -, rest⟩ := bind_eq_ok begun
  obtain ⟨proposal, -, result⟩ := bind_eq_ok rest
  exact ⟨key, actor, proposal, (Except.ok.inj result).symm⟩

theorem kept_commit (injective : Function.Injective service.digest) (kept : Kept service s) {n : Nat} {call : Call}
    {attemptId : String} {now : Int} {drafts : DraftTable} {workflows : WorkflowTable} {entry : Entry}
    (called : s.calls[n]? = some call)
    (done : transact service s call attemptId now = .ok (drafts, workflows, entry)) :
    Kept service ⟨drafts, workflows, s.calls.eraseIdx n, s.drawn, entry :: s.history⟩ ∧
      Wrote s ⟨drafts, workflows, s.calls.eraseIdx n, s.drawn, entry :: s.history⟩ entry := by
  cases call with
  | activate key actor expected proposal token => cases done
  | prepare key actor expected proposal token =>
    obtain ⟨table, prepared, result⟩ := bind_eq_ok done
    obtain ⟨rfl, committed⟩ := Prod.mk.inj (Except.ok.inj result)
    obtain ⟨rfl, rfl⟩ := Prod.mk.inj committed
    exact ⟨kept_prepared kept called prepared, rfl⟩
  | replace key actor expected proposal token existing workflow =>
    obtain ⟨⟨table, written, number⟩, activated, result⟩ := bind_eq_ok done
    obtain ⟨rfl, committed⟩ := Prod.mk.inj (Except.ok.inj result)
    obtain ⟨rfl, rfl⟩ := Prod.mk.inj committed
    obtain ⟨-, ⟨draft, found, current, -⟩, stored⟩ := activateDraft_ok kept.distinct activated
    exact ⟨kept_activated injective kept called activated, by rw [found]; exact congrArg some current, stored⟩

theorem faithful_of_same {after : System} {op : Op} (history : after.history = s.history)
    (drafts : after.drafts = s.drafts) (workflows : after.workflows = s.workflows) : Faithful s after op :=
  Or.inl ⟨history, drafts, Or.inl workflows⟩

theorem save_kept (kept : Kept service s) (scope : Scope) (workflowId : String) (patch : JsonObject)
    (expected : Option Nat) (now : Int) :
    Kept service (step service s (.save scope workflowId patch expected now)) ∧
      Faithful s (step service s (.save scope workflowId patch expected now)) (.save scope workflowId patch expected now) := by
  simp only [step]
  split
  · exact ⟨kept, faithful_of_same rfl rfl rfl⟩
  · rename_i key actor resolved
    split
    · exact ⟨kept, faithful_of_same rfl rfl rfl⟩
    · rename_i drafts saved
      have touched : Touched s.drafts (Entry.saved key).key _ drafts := save_touched kept.distinct saved
      exact ⟨kept_touched kept rfl rfl touched, Or.inr ⟨_, rfl, rfl⟩⟩

theorem delete_kept (kept : Kept service s) (scope : Scope) (expected : Nat) :
    Kept service (step service s (.delete scope expected)) ∧
      Faithful s (step service s (.delete scope expected)) (.delete scope expected) := by
  simp only [step]
  split
  · exact ⟨kept, faithful_of_same rfl rfl rfl⟩
  · rename_i key actor resolved
    split
    · exact ⟨kept, faithful_of_same rfl rfl rfl⟩
    · rename_i drafts deleted
      have touched : Touched s.drafts (Entry.deleted key).key _ drafts := delete_touched kept.distinct deleted
      exact ⟨kept_touched kept rfl rfl touched, Or.inr ⟨_, rfl, rfl⟩⟩

theorem activate_kept (kept : Kept service s) (scope : Scope) (expected : Nat) (token : String) :
    Kept service (step service s (.activate scope expected token)) ∧
      Faithful s (step service s (.activate scope expected token)) (.activate scope expected token) := by
  simp only [step]
  split
  · exact ⟨kept, faithful_of_same rfl rfl rfl⟩
  · rename_i call begun
    obtain ⟨key, actor, proposal, rfl⟩ := beginActivate_ok begun
    refine ⟨kept_calls kept (by simp [Call.drawn]) ?_, faithful_of_same rfl rfl rfl⟩
    intro call member
    rcases List.mem_append.mp member with earlier | last
    · exact kept.normal call earlier
    · rw [List.mem_singleton.mp last]
      trivial

theorem lookUp_kept (kept : Kept service s) (n : Nat) :
    Kept service (step service s (.lookUp n)) ∧ Faithful s (step service s (.lookUp n)) (.lookUp n) := by
  simp only [step]
  split
  · exact ⟨kept, faithful_of_same rfl rfl rfl⟩
  · rename_i call called
    split
    · exact ⟨kept_erased kept n, faithful_of_same rfl rfl rfl⟩
    · rename_i next found
      exact ⟨kept_lookedUp kept called found, faithful_of_same rfl rfl rfl⟩

theorem commit_kept (injective : Function.Injective service.digest) (kept : Kept service s) (n : Nat)
    (attemptId : String) (now : Int) :
    Kept service (step service s (.commit n attemptId now)) ∧
      Faithful s (step service s (.commit n attemptId now)) (.commit n attemptId now) := by
  simp only [step]
  split
  · exact ⟨kept, faithful_of_same rfl rfl rfl⟩
  · rename_i call called
    split
    · exact ⟨kept_erased kept n, faithful_of_same rfl rfl rfl⟩
    · rename_i drafts workflows entry done
      obtain ⟨after, wrote⟩ := kept_commit injective kept called done
      exact ⟨after, Or.inr ⟨entry, rfl, wrote⟩⟩

/-- What a step keeps, and what it does to the two databases. -/
theorem step_kept (injective : Function.Injective service.digest) (s : System) (op : Op) (kept : Kept service s)
    (fresh : Fresh s op) : Kept service (step service s op) ∧ Faithful s (step service s op) op := by
  cases op with
  | save scope workflowId patch expected now => exact save_kept kept scope workflowId patch expected now
  | delete scope expected => exact delete_kept kept scope expected
  | prepare scope expected token =>
    simp only [step]
    split
    · exact ⟨kept, faithful_of_same rfl rfl rfl⟩
    · rename_i call begun
      obtain ⟨key, actor, proposal, rfl⟩ := beginPrepare_ok begun
      exact ⟨kept_begun kept fresh, faithful_of_same rfl rfl rfl⟩
  | activate scope expected token => exact activate_kept kept scope expected token
  | lookUp n => exact lookUp_kept kept n
  | commit n attemptId now => exact commit_kept injective kept n attemptId now
  | elsewhere workflows =>
    exact ⟨⟨kept.distinct, kept.bound, kept.once, kept.drawn, kept.normal, kept.good⟩,
      Or.inl ⟨rfl, rfl, Or.inr ⟨workflows, rfl⟩⟩⟩

/-- A confirmation token authorizes one activation of the proposal that its preparation returned, and a call
that does not commit changes neither database. -/
theorem token_authorizes_once (injective : Function.Injective service.digest) {ops : List Op}
    (fresh : Run.Guarded (step service) Fresh System.start ops) :
    (∀ n, Good service (Run.exec (step service) System.start (ops.take n)).history) ∧
    ∀ n op, ops[n]? = some op →
      Faithful (Run.exec (step service) System.start (ops.take n))
        (Run.exec (step service) System.start (ops.take (n + 1))) op := by
  have preserved : ∀ s op, Kept service s → Fresh s op → Kept service (step service s op) :=
    fun s op kept unused => (step_kept injective s op kept unused).1
  constructor
  · intro n
    exact ((fresh.take n).invariant preserved kept_start).good
  · intro n op now
    obtain ⟨kept, unused⟩ := fresh.reached preserved kept_start now
    rw [Run.exec_take_succ _ _ now]
    exact (step_kept injective _ op kept unused).2

end Runs

section Samples

def sampleService : Service where
  normalizeProposal := fun workflowId payload => some ⟨workflowId, "telegram", payload⟩
  normalizeWorkflow := fun tenantId _ proposal => some ⟨proposal.workflowId, tenantId, proposal.channel, proposal.fields⟩
  canonical := fun proposal => proposal.workflowId ++ proposal.channel
  digest := fun text => "sha256:" ++ text

def sampleScope : Scope := ⟨"tenant", "actor", "draft"⟩

def sampleToken : String := "token-0123456789abcdef0123456789abcdef"

/-- A draft is prepared and activated while a second activation under the same token is under way. -/
def activatedTwice : List Op :=
  [.save sampleScope "orders" [] none 0, .prepare sampleScope 1 sampleToken, .commit 0 "" 1,
    .activate sampleScope 1 sampleToken, .activate sampleScope 1 sampleToken, .lookUp 0, .lookUp 1, .commit 0 "first" 2,
    .commit 0 "second" 3]

theorem token_authorizes_once_activatedTwice :
    (Run.exec (step sampleService) System.start activatedTwice).history =
      [.activated ("tenant", "draft") 1 sampleToken ⟨"orders", "tenant", "telegram", []⟩ 1,
        .prepared ("tenant", "draft") 1 sampleToken ⟨"orders", "telegram", []⟩, .saved ("tenant", "draft")] ∧
    Good sampleService (Run.exec (step sampleService) System.start activatedTwice).history := by
  have injective : Function.Injective sampleService.digest := by
    intro first second same
    simpa [sampleService] using same
  have fresh : Run.Guarded (step sampleService) Fresh System.start activatedTwice := by decide +kernel
  exact ⟨by decide +kernel, by simpa [activatedTwice] using (token_authorizes_once injective fresh).1 9⟩

end Samples

end OpenTulpa.Intake.Confirmations
