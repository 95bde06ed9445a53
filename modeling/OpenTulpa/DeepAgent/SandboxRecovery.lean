import OpenTulpa.DeepAgent.Sandbox

/-! What an execution leaves for the recovery. Every layout that a crash may leave resolves to one tree, and
the tree changes at one place only, the rename of the committed journal. -/

namespace OpenTulpa.DeepAgent.SandboxRecovery

open Library Sandbox

variable {τ : Type} (valid : τ → Bool) (empty : τ) {tear : τ → τ} {faults : Faults}

section Layouts

/-- The tree that an uninterrupted recovery makes the live workspace. -/
inductive Resolves (tree : τ) : Layout τ → Prop
  | idle (marker : Bool) (garbage : List (Transaction τ)) (few : garbage.length ≤ 1) :
      Resolves tree ⟨marker, some tree, [], garbage⟩
  | fresh (initial : tree = empty) : Resolves tree ⟨false, none, [], []⟩
  | left (transaction : Transaction τ) (released : transaction.previous = none) :
      Resolves tree ⟨true, some tree, [transaction], []⟩
  | held (transaction : Transaction τ) (workspace : Option τ) (holds : transaction.previous = some tree)
      (open_ : transaction.phase ≠ some .committed)
      (single : workspace.isSome → transaction.rejectedRecovery = none) :
      Resolves tree ⟨true, workspace, [transaction], []⟩
  | committed (transaction : Transaction τ) (done : transaction.phase = some .committed) :
      Resolves tree ⟨true, some tree, [transaction], []⟩

/-- No journal of the layout says that a previous workspace may go. -/
def Uncommitted (layout : Layout τ) : Prop :=
  ∀ transaction ∈ layout.transactions, transaction.previous.isSome → transaction.phase ≠ some .committed

/-- Whatever a crash leaves resolves to the tree, and no garbage that holds a previous workspace is still
reachable as a transaction. -/
structure Rest (tree : τ) (disk : Disk τ) : Prop where
  valid : valid tree = true
  allowed : tree = disk.base ∨ disk.reached = some tree
  live : Resolves empty tree disk.live
  lost : ∀ layout ∈ disk.lost, Resolves empty tree layout ∧ Uncommitted layout
  apart : ∀ garbage ∈ disk.live.garbage, garbage.previous.isSome → ∀ layout ∈ disk.lost, layout.transactions = []

def Anyhow (disk : Disk τ) : Prop := ∃ tree, Rest valid empty tree disk

variable {valid empty}

theorem uncommitted_idle {layout : Layout τ} (idle : layout.transactions = []) : Uncommitted layout := by
  intro transaction member
  rw [idle] at member
  cases member

theorem resolves_torn (tear : τ → τ) {tree : τ} {layout : Layout τ} {removed : Transaction τ} (resolves : Resolves empty tree layout)
    (uncommitted : Uncommitted layout) (apart : removed.previous.isSome → layout.transactions = []) :
    Resolves empty tree (layout.torn tear removed) ∧ Uncommitted (layout.torn tear removed) ∧
      (layout.transactions = [] → (layout.torn tear removed).transactions = []) := by
  cases resolves with
  | idle marker garbage few => exact ⟨.idle marker garbage few, uncommitted_idle rfl, fun _ => rfl⟩
  | fresh initial => exact ⟨.fresh initial, uncommitted_idle rfl, fun _ => rfl⟩
  | left transaction released =>
    by_cases named : transaction.name = removed.name
    · simp only [Layout.torn, Layout.change, Rows.update, List.map_cons, List.map_nil, named, beq_self_eq_true, if_true,
        released, Option.map_none, ite_self]
      exact ⟨.left _ rfl, by intro other member; simp_all, by simp⟩
    · simp only [Layout.torn, Layout.change, Rows.update, List.map_cons, List.map_nil, beq_iff_eq, named, if_false]
      exact ⟨.left transaction released, uncommitted, by simp⟩
  | held transaction workspace holds open_ single =>
    have kept : removed.previous.isSome = false := by
      rw [← Bool.not_eq_true]
      intro taken
      exact absurd (apart taken) (by simp)
    by_cases named : transaction.name = removed.name
    · simp only [Layout.torn, Layout.change, Rows.update, List.map_cons, List.map_nil, named, beq_self_eq_true, if_true,
        kept, Bool.false_eq_true, if_false]
      exact ⟨.held _ workspace holds (by simp) single, by intro other member; simp_all, by simp⟩
    · simp only [Layout.torn, Layout.change, Rows.update, List.map_cons, List.map_nil, beq_iff_eq, named, if_false]
      exact ⟨.held transaction workspace holds open_ single, uncommitted, by simp⟩
  | committed transaction done =>
    by_cases holds : transaction.previous.isSome
    · exact absurd done (uncommitted transaction (by simp) holds)
    · have released : transaction.previous = none := by simpa using holds
      by_cases named : transaction.name = removed.name
      · simp only [Layout.torn, Layout.change, Rows.update, List.map_cons, List.map_nil, named, beq_self_eq_true, if_true,
          released, Option.map_none, ite_self]
        exact ⟨.left _ rfl, by intro other member; simp_all, by simp⟩
      · simp only [Layout.torn, Layout.change, Rows.update, List.map_cons, List.map_nil, beq_iff_eq, named, if_false]
        exact ⟨.committed transaction done, uncommitted, by simp⟩

end Layouts

section Specs

variable (faults)

/-- Some call meets a fault. -/
def Faulty : Prop := ∃ clock site, faults clock site ≠ .none

/-- What a program leaves when it returns and when it raises. A crash always leaves something to recover. -/
def Spec {α : Type} (program : Program τ α) (disk : Disk τ) (Returns : α → Disk τ → Prop) (Raises : Disk τ → Prop) :
    Prop :=
  Action.Ends program disk fun outcome after =>
    match outcome with
    | .ok value => Returns value after
    | .error .error => Raises after
    | .error .crash => Anyhow valid empty after ∧ Faulty faults

variable {valid empty faults} {α β : Type} {disk : Disk τ} {Raises : Disk τ → Prop}

theorem spec_bind {first : Program τ α} {next : α → Program τ β} {Middle : α → Disk τ → Prop}
    {Returns : β → Disk τ → Prop} (head : Spec valid empty faults first disk Middle Raises)
    (tail : ∀ value after, Middle value after → Spec valid empty faults (next value) after Returns Raises) :
    Spec valid empty faults (first >>= next) disk Returns Raises := by
  apply Action.ends_bind
  refine Action.Ends.mono head ?_
  intro outcome after
  cases outcome with
  | ok value => exact tail value after
  | error failure => cases failure <;> exact id

theorem spec_read {next : Disk τ → Program τ β} {Returns : β → Disk τ → Prop}
    (tail : Spec valid empty faults (next disk) disk Returns Raises) :
    Spec valid empty faults (Action.read >>= next) disk Returns Raises := tail

theorem spec_pure {value : α} {Returns : α → Disk τ → Prop} (holds : Returns value disk) :
    Spec valid empty faults (pure value) disk Returns Raises := holds

theorem spec_raise {Returns : α → Disk τ → Prop} (holds : Raises disk) :
    Spec valid empty faults (Action.raise .error) disk Returns Raises := holds

theorem spec_modify_bind {change : Disk τ → Disk τ} {next : Unit → Program τ β} {Returns : β → Disk τ → Prop}
    (tail : Spec valid empty faults (next ()) (change disk) Returns Raises) :
    Spec valid empty faults (Action.modify change >>= next) disk Returns Raises := tail

theorem spec_modify {change : Disk τ → Disk τ} {Returns : Unit → Disk τ → Prop} (holds : Returns () (change disk)) :
    Spec valid empty faults (Action.modify change) disk Returns Raises := holds

theorem spec_mono {program : Program τ α} {Returns Weaker : α → Disk τ → Prop} {Milder : Disk τ → Prop}
    (spec : Spec valid empty faults program disk Returns Raises)
    (returns : ∀ value after, Returns value after → Weaker value after) (raises : ∀ after, Raises after → Milder after) :
    Spec valid empty faults program disk Weaker Milder := by
  refine Action.Ends.mono spec ?_
  intro outcome after
  cases outcome with
  | ok value => exact returns value after
  | error failure =>
    cases failure with
    | error => exact raises after
    | crash => exact id

theorem spec_onException {program handler : Program τ α} {Returns : α → Disk τ → Prop} {Milder : Disk τ → Prop}
    (spec : Spec valid empty faults program disk Returns Raises)
    (handled : ∀ after, Raises after → Spec valid empty faults handler after Returns Milder) :
    Spec valid empty faults (onException program handler) disk Returns Milder := by
  apply Action.ends_handle
  refine Action.Ends.mono spec ?_
  intro outcome after
  cases outcome with
  | ok value => exact id
  | error failure =>
    cases failure with
    | error => exact handled after
    | crash => exact id

end Specs

section Calls

variable {valid empty} {disk : Disk τ} {tree : τ}

theorem crash_anyhow {survivor : Nat} (valid_ : valid tree = true) (allowed : tree = disk.base ∨ disk.reached = some tree)
    (all : ∀ layout ∈ disk.live :: disk.lost, Resolves empty tree layout) :
    Anyhow valid empty (disk.crash survivor) := by
  refine ⟨tree, valid_, allowed, ?_, List.forall_mem_nil _, fun _ _ _ => List.forall_mem_nil _⟩
  have member : (disk.live :: disk.lost).getD survivor disk.live ∈ disk.live :: disk.lost := by
    rw [List.getD_eq_getElem?_getD]
    cases found : (disk.live :: disk.lost)[survivor]? with
    | none => exact List.mem_cons_self
    | some layout => exact List.mem_of_getElem? found
  exact all _ member

theorem Rest.all (rest : Rest valid empty tree disk) : ∀ layout ∈ disk.live :: disk.lost, Resolves empty tree layout := by
  intro layout member
  rcases List.mem_cons.mp member with rfl | older
  · exact rest.live
  · exact (rest.lost layout older).1

theorem Rest.tick (rest : Rest valid empty tree disk) : Rest valid empty tree { disk with clock := disk.clock + 1 } :=
  ⟨rest.valid, rest.allowed, rest.live, rest.lost, rest.apart⟩

theorem Rest.crash (rest : Rest valid empty tree disk) (survivor : Nat) : Anyhow valid empty (disk.crash survivor) :=
  crash_anyhow rest.valid rest.allowed rest.all

/-- The variables and the notes that a program leaves alone. -/
def Same (disk after : Disk τ) : Prop :=
  after.base = disk.base ∧ after.reached = disk.reached ∧ after.locals = disk.locals

theorem Same.trans {first second third : Disk τ} (left : Same first second) (right : Same second third) :
    Same first third :=
  ⟨right.1.trans left.1, right.2.1.trans left.2.1, right.2.2.trans left.2.2⟩

variable (valid empty)

/-- The disk rests on the tree, with this layout in sight. -/
structure At (tree : τ) (disk : Disk τ) (layout : Layout τ) (after : Disk τ) : Prop where
  rest : Rest valid empty tree after
  live : after.live = layout
  same : Same disk after

variable {valid empty}

theorem Rest.at (rest : Rest valid empty tree disk) : At valid empty tree disk disk.live disk :=
  ⟨rest, rfl, rfl, rfl, rfl⟩

/-- What a call or a sync leaves when it raises: the same layout, and a fault was met. -/
def Unmoved (valid : τ → Bool) (empty : τ) (faults : Faults) (tree : τ) (disk after : Disk τ) : Prop :=
  At valid empty tree disk disk.live after ∧ Faulty faults

theorem call_lost_spec {change : Layout τ → Option (Layout τ)} {next : Layout τ} (rest : Rest valid empty tree disk)
    (changed : change disk.live = some next) (resolves : Resolves empty tree next) (pushed : Uncommitted disk.live)
    (apart : ∀ garbage ∈ next.garbage, garbage.previous.isSome →
      ∀ layout ∈ disk.live :: disk.lost, layout.transactions = []) :
    Spec valid empty faults (call faults change) disk
      (fun _ after => At valid empty tree disk next after ∧ after.lost = disk.live :: disk.lost)
      (Unmoved valid empty faults tree disk) := by
  unfold Spec Action.Ends
  cases fault : faults disk.clock .elsewhere with
  | none =>
    simp only [Action.run, call, fault, changed]
    refine ⟨⟨⟨rest.valid, rest.allowed, resolves, ?_, apart⟩, rfl, rfl, rfl, rfl⟩, trivial⟩
    intro layout member
    rcases List.mem_cons.mp member with rfl | older
    · exact ⟨rest.live, pushed⟩
    · exact rest.lost layout older
  | error =>
    simp only [Action.run, call, fault]
    exact ⟨⟨rest.tick, rfl, rfl, rfl, rfl⟩, disk.clock, .elsewhere, by simp [fault]⟩
  | crash survivor =>
    simp only [Action.run, call, fault]
    exact ⟨rest.tick.crash survivor, disk.clock, .elsewhere, by simp [fault]⟩

theorem call_spec {change : Layout τ → Option (Layout τ)} {next : Layout τ} (rest : Rest valid empty tree disk)
    (changed : change disk.live = some next) (resolves : Resolves empty tree next) (pushed : Uncommitted disk.live)
    (apart : ∀ garbage ∈ next.garbage, garbage.previous.isSome →
      ∀ layout ∈ disk.live :: disk.lost, layout.transactions = []) :
    Spec valid empty faults (call faults change) disk (fun _ => At valid empty tree disk next)
      (Unmoved valid empty faults tree disk) :=
  spec_mono (call_lost_spec rest changed resolves pushed apart) (fun _ _ reached => reached.1) (fun _ unmoved => unmoved)

theorem sync_spec (site : Site) (keep : Layout τ → Bool) (rest : Rest valid empty tree disk) :
    Spec valid empty faults (sync faults site keep) disk
      (fun _ after => At valid empty tree disk disk.live after ∧ after.lost = disk.lost.filter keep)
      (Unmoved valid empty faults tree disk) := by
  unfold Spec Action.Ends
  cases fault : faults disk.clock site with
  | none =>
    simp only [Action.run, sync, fault]
    refine ⟨⟨⟨rest.valid, rest.allowed, rest.live, ?_, ?_⟩, rfl, rfl, rfl, rfl⟩, trivial⟩
    · intro layout member
      exact rest.lost layout (List.mem_of_mem_filter member)
    · intro garbage listed holds layout member
      exact rest.apart garbage listed holds layout (List.mem_of_mem_filter member)
  | error =>
    simp only [Action.run, sync, fault]
    exact ⟨⟨rest.tick, rfl, rfl, rfl, rfl⟩, disk.clock, site, by simp [fault]⟩
  | crash survivor =>
    simp only [Action.run, sync, fault]
    exact ⟨rest.tick.crash survivor, disk.clock, site, by simp [fault]⟩

/-- What a program leaves when it raises although nothing but a fault can make it. -/
def Raised (valid : τ → Bool) (empty : τ) (faults : Faults) (tree : τ) (disk after : Disk τ) : Prop :=
  Rest valid empty tree after ∧ Same disk after ∧ Faulty faults

theorem Unmoved.raised {first after : Disk τ} (same : Same disk first) (unmoved : Unmoved valid empty faults tree first after) :
    Raised valid empty faults tree disk after :=
  ⟨unmoved.1.rest, same.trans unmoved.1.same, unmoved.2⟩

theorem Raised.trans {first after : Disk τ} (same : Same disk first) (raised : Raised valid empty faults tree first after) :
    Raised valid empty faults tree disk after :=
  ⟨raised.1, same.trans raised.2.1, raised.2.2⟩

theorem At.trans {first after : Disk τ} {layout : Layout τ} (same : Same disk first)
    (reached : At valid empty tree first layout after) : At valid empty tree disk layout after :=
  ⟨reached.rest, reached.live, same.trans reached.same⟩

end Calls

section Discarding

variable {valid empty} {disk : Disk τ} {tree : τ}

/-- The failures that no recovery survives do not happen: the sync behind the committed journal, and the
sync that makes a transaction garbage while it holds the previous workspace. -/
def Steady (faults : Faults) : Prop :=
  ∀ clock, faults clock .committedJournal ≠ .error ∧ faults clock (.discarded true) ≠ .error

/-- A rename that is followed by a sync that does not fail. -/
theorem call_sync_spec {change : Layout τ → Option (Layout τ)} {next : Layout τ} {site : Site} {keep : Layout τ → Bool}
    (never : ∀ clock, faults clock site ≠ .error) (rest : Rest valid empty tree disk)
    (changed : change disk.live = some next) (resolves : Resolves empty tree next)
    (gone : (disk.live :: disk.lost).filter keep = []) :
    Spec valid empty faults (call faults change >>= fun _ => sync faults site keep) disk
      (fun _ after => At valid empty tree disk next after ∧ after.lost = []) (Unmoved valid empty faults tree disk) := by
  unfold Spec Action.Ends
  rw [Action.run_bind]
  cases fault : faults disk.clock .elsewhere with
  | error =>
    simp only [Action.run, call, fault]
    exact ⟨⟨rest.tick, rfl, rfl, rfl, rfl⟩, disk.clock, .elsewhere, by simp [fault]⟩
  | crash survivor =>
    simp only [Action.run, call, fault]
    exact ⟨rest.tick.crash survivor, disk.clock, .elsewhere, by simp [fault]⟩
  | none =>
    simp only [Action.run, call, fault, changed]
    cases second : faults (disk.clock + 1) site with
    | error => exact absurd second (never _)
    | none =>
      simp only [sync, second, gone]
      exact ⟨⟨⟨rest.valid, rest.allowed, resolves, List.forall_mem_nil _, fun _ _ _ => List.forall_mem_nil _⟩, rfl, rfl,
        rfl, rfl⟩, trivial⟩
    | crash survivor =>
      simp only [sync, second]
      refine ⟨crash_anyhow rest.valid rest.allowed ?_, disk.clock + 1, site, by simp [second]⟩
      intro layout member
      rcases List.mem_cons.mp member with rfl | older
      · exact resolves
      · exact rest.all layout older

/-- At most one directory of garbage is left behind, and no transaction is next to it. -/
theorem Resolves.garbage {layout : Layout τ} (resolves : Resolves empty tree layout) :
    layout.garbage = [] ∨ ∃ marker garbage, layout = ⟨marker, some tree, [], [garbage]⟩ := by
  cases resolves with
  | idle marker garbage few =>
    cases garbage with
    | nil => exact Or.inl rfl
    | cons first rest =>
      obtain rfl : rest = [] := by simpa using few
      exact Or.inr ⟨marker, first, rfl⟩
  | fresh initial => exact Or.inl rfl
  | left _ _ => exact Or.inl rfl
  | held _ _ _ _ _ => exact Or.inl rfl
  | committed _ _ => exact Or.inl rfl

theorem Rest.torn (tear : τ → τ) (rest : Rest valid empty tree disk) {removed : Transaction τ} (listed : removed ∈ disk.live.garbage) :
    Rest valid empty tree { disk with lost := disk.lost ++ disk.lost.map (Layout.torn tear removed) } := by
  refine ⟨rest.valid, rest.allowed, rest.live, ?_, ?_⟩
  · intro layout member
    rcases List.mem_append.mp member with whole | damaged
    · exact rest.lost layout whole
    · obtain ⟨original, was, rfl⟩ := List.mem_map.mp damaged
      obtain ⟨resolves, uncommitted⟩ := rest.lost original was
      have torn := resolves_torn tear resolves uncommitted fun holds => rest.apart removed listed holds original was
      exact ⟨torn.1, torn.2.1⟩
  · intro garbage found holds layout member
    rcases List.mem_append.mp member with whole | damaged
    · exact rest.apart garbage found holds layout whole
    · obtain ⟨original, was, rfl⟩ := List.mem_map.mp damaged
      obtain ⟨resolves, uncommitted⟩ := rest.lost original was
      have torn := resolves_torn tear resolves uncommitted fun holds => rest.apart removed listed holds original was
      exact torn.2.2 (rest.apart garbage found holds original was)

theorem removeTree_spec (rest : Rest valid empty tree disk) {marker : Bool} {removed : Transaction τ}
    (live : disk.live = ⟨marker, some tree, [], [removed]⟩) :
    Spec valid empty faults (removeTree tear faults removed) disk
      (fun _ => At valid empty tree disk ⟨marker, some tree, [], []⟩) (Raised valid empty faults tree disk) := by
  have listed : removed ∈ disk.live.garbage := by simp [live]
  have torn := rest.torn tear listed
  have same : Same disk { disk with lost := disk.lost ++ disk.lost.map (Layout.torn tear removed) } := ⟨rfl, rfl, rfl⟩
  apply spec_modify_bind
  refine spec_mono (call_spec torn ?_ (.idle marker [] (by simp)) (uncommitted_idle (by simp [live])) ?_)
    (fun _ _ reached => At.trans same reached) (fun _ unmoved => Unmoved.raised same unmoved)
  · simp [Layout.remove, live]
  · intro garbage found
    cases found

/-- A transaction goes with what it holds, once the live workspace is the one to keep. -/
theorem discardTransaction_spec (steady : Steady faults) (rest : Rest valid empty tree disk) {transaction : Transaction τ}
    (live : disk.live = ⟨true, some tree, [transaction], []⟩) :
    Spec valid empty faults (discardTransaction tear faults transaction.name) disk
      (fun _ => At valid empty tree disk ⟨true, some tree, [], []⟩) (Raised valid empty faults tree disk) := by
  have found : disk.live.transaction transaction.name = some transaction := by simp [live, Layout.transaction]
  have changed : disk.live.discard transaction.name = some ⟨true, some tree, [], [transaction]⟩ := by
    simp [Layout.discard, Layout.transaction, live]
  have same : Same disk disk := ⟨rfl, rfl, rfl⟩
  have renamed : Spec valid empty faults
      (call faults (Layout.discard transaction.name) >>= fun _ =>
        syncRoot faults (.discarded transaction.previous.isSome)) disk
      (fun _ after => At valid empty tree disk ⟨true, some tree, [], [transaction]⟩ after ∧ after.lost = [])
      (Raised valid empty faults tree disk) := by
    cases holds : transaction.previous.isSome with
    | true =>
      exact spec_mono (call_sync_spec (fun clock => (steady clock).2) rest changed (.idle true [transaction] (by simp)) (by simp))
        (fun _ _ reached => reached) (fun _ unmoved => Unmoved.raised same unmoved)
    | false =>
      have released : transaction.previous = none := by simpa using holds
      refine spec_bind (spec_mono (call_spec rest changed (.idle true [transaction] (by simp)) ?_ ?_) (fun _ _ reached => reached)
        (fun _ unmoved => Unmoved.raised same unmoved)) ?_
      · intro other member
        rw [live] at member
        rw [List.mem_singleton.mp member, released]
        intro none
        cases none
      · intro garbage member
        rw [List.mem_singleton.mp member, released]
        intro none
        cases none
      · intro _ after reached
        refine spec_mono (sync_spec (.discarded false) _ reached.rest) ?_ (fun _ unmoved => Unmoved.raised reached.same unmoved)
        rintro _ last ⟨synced, lost⟩
        rw [reached.live] at synced
        exact ⟨At.trans reached.same synced, by simpa using lost⟩
  unfold discardTransaction
  apply spec_read
  rw [found]
  simp only
  rw [← Action.bind_assoc]
  refine spec_bind renamed ?_
  rintro _ after ⟨reached, lost⟩
  refine spec_bind (spec_mono (removeTree_spec reached.rest reached.live) (fun _ _ removed => removed)
    (fun _ raised => raised.trans reached.same)) ?_
  intro _ removed gone
  refine spec_mono (sync_spec .elsewhere _ gone.rest) ?_
    (fun _ unmoved => Unmoved.raised (reached.same.trans gone.same) unmoved)
  rintro _ last ⟨synced, -⟩
  rw [gone.live] at synced
  exact At.trans (reached.same.trans gone.same) synced

end Discarding

section Recovering

variable {valid empty} {disk : Disk τ} {tree : τ}

theorem recoverGarbage_spec (rest : Rest valid empty tree disk) :
    Spec valid empty faults (recoverGarbage tear faults disk.live.garbage) disk
      (fun _ => At valid empty tree disk { disk.live with garbage := [] }) (Raised valid empty faults tree disk) := by
  rcases rest.live.garbage with none | ⟨marker, garbage, live⟩
  · have kept : { disk.live with garbage := [] } = disk.live := by rw [← none]
    rw [kept, none]
    exact rest.at
  · simp only [live, recoverGarbage]
    refine spec_bind (removeTree_spec rest live) ?_
    intro _ removed gone
    refine spec_bind (spec_mono (sync_spec .elsewhere _ gone.rest) (fun _ _ synced => synced)
      (fun _ unmoved => Unmoved.raised gone.same unmoved)) ?_
    rintro _ last ⟨synced, -⟩
    rw [gone.live] at synced
    exact At.trans gone.same synced

theorem requireWorkspace_spec {Raises : Disk τ → Prop} (present : disk.live.workspace = some tree)
    (rest : Rest valid empty tree disk) :
    Spec valid empty faults requireWorkspace disk (fun _ => At valid empty tree disk disk.live) Raises := by
  apply spec_read
  rw [if_pos (by simp [present])]
  exact rest.at

theorem validateTree_spec (rest : Rest valid empty tree disk) :
    Spec valid empty faults (validateTree valid faults (some tree)) disk (fun _ => At valid empty tree disk disk.live)
      (Unmoved valid empty faults tree disk) := by
  unfold validateTree
  refine spec_bind (sync_spec .elsewhere _ rest) ?_
  rintro _ after ⟨reached, -⟩
  rw [if_pos (by simp [rest.valid])]
  exact reached

theorem validateWorkspace_spec (present : disk.live.workspace = some tree) (rest : Rest valid empty tree disk) :
    Spec valid empty faults (validateWorkspace valid faults) disk (fun _ => At valid empty tree disk disk.live)
      (Unmoved valid empty faults tree disk) := by
  apply spec_read
  rw [present]
  exact validateTree_spec rest

/-- A rename and the two syncs behind it. -/
theorem call_syncs_spec {change : Layout τ → Option (Layout τ)} {next : Layout τ} {first second : Layout τ → Bool}
    (rest : Rest valid empty tree disk) (changed : change disk.live = some next) (resolves : Resolves empty tree next)
    (pushed : Uncommitted disk.live) (clean : next.garbage = []) :
    Spec valid empty faults
      (call faults change >>= fun _ => sync faults .elsewhere first >>= fun _ => sync faults .elsewhere second) disk
      (fun _ => At valid empty tree disk next)
      (fun after => Raised valid empty faults tree disk after ∧ (after.live = disk.live ∨ after.live = next)) := by
  refine spec_bind (spec_mono (call_spec rest changed resolves pushed ?_) (fun _ _ reached => reached) ?_) ?_
  · rw [clean]
    exact List.forall_mem_nil _
  · intro after unmoved
    exact ⟨Unmoved.raised ⟨rfl, rfl, rfl⟩ unmoved, Or.inl unmoved.1.live⟩
  · intro _ renamed reached
    refine spec_bind (spec_mono (sync_spec .elsewhere first reached.rest) (fun _ _ synced => synced) ?_) ?_
    · intro after unmoved
      exact ⟨Unmoved.raised reached.same unmoved, Or.inr (unmoved.1.live.trans reached.live)⟩
    · rintro _ once ⟨synced, -⟩
      have same := reached.same.trans synced.same
      refine spec_mono (sync_spec .elsewhere second synced.rest) ?_ ?_
      · rintro _ twice ⟨again, -⟩
        rw [synced.live, reached.live] at again
        exact At.trans same again
      · intro after unmoved
        exact ⟨Unmoved.raised same unmoved, Or.inr (unmoved.1.live.trans (synced.live.trans reached.live))⟩

theorem uncommitted_single {marker : Bool} {workspace : Option τ} {transaction : Transaction τ}
    {garbage : List (Transaction τ)} (open_ : transaction.phase ≠ some .committed) :
    Uncommitted ⟨marker, workspace, [transaction], garbage⟩ := by
  intro other member _
  rw [List.mem_singleton.mp member]
  exact open_

theorem rejectWorkspace_spec (rest : Rest valid empty tree disk) {workspace : Option τ} {transaction : Transaction τ}
    (live : disk.live = ⟨true, workspace, [transaction], []⟩) (holds : transaction.previous = some tree)
    (open_ : transaction.phase ≠ some .committed) (single : workspace.isSome → transaction.rejectedRecovery = none) :
    Spec valid empty faults (rejectWorkspace faults transaction) disk
      (fun _ after => ∃ next, At valid empty tree disk ⟨true, none, [next], []⟩ after ∧ next.name = transaction.name ∧
        next.previous = some tree ∧ next.phase ≠ some .committed) (Raised valid empty faults tree disk) := by
  unfold rejectWorkspace
  apply spec_read
  cases workspace with
  | none =>
    rw [if_pos (by simp [live])]
    exact ⟨transaction, ⟨rest, live, rfl, rfl, rfl⟩, rfl, holds, open_⟩
  | some found =>
    rw [if_neg (by simp [live]), if_neg (by simp [single rfl])]
    have changed : disk.live.rejectRecovery transaction.name =
        some ⟨true, none, [{ transaction with rejectedRecovery := some found }], []⟩ := by
      simp [Layout.rejectRecovery, Layout.change, Rows.update, live]
    refine spec_mono (call_syncs_spec rest changed (.held _ none holds open_ (by simp))
      (by rw [live]; exact uncommitted_single open_) rfl) ?_ (fun _ raised => raised.1)
    intro _ after reached
    exact ⟨_, reached, rfl, holds, open_⟩

theorem restorePrevious_spec (rest : Rest valid empty tree disk) {transaction : Transaction τ}
    (live : disk.live = ⟨true, none, [transaction], []⟩) (holds : transaction.previous = some tree)
    (open_ : transaction.phase ≠ some .committed) :
    Spec valid empty faults (restorePrevious faults transaction.name) disk
      (fun _ after => ∃ next, At valid empty tree disk ⟨true, some tree, [next], []⟩ after ∧ next.name = transaction.name ∧
        next.previous = none) (Raised valid empty faults tree disk) := by
  have found : disk.live.transaction transaction.name = some transaction := by simp [live, Layout.transaction]
  have changed : disk.live.restore transaction.name = some ⟨true, some tree, [{ transaction with previous := none }], []⟩ := by
    simp [Layout.restore, Layout.transaction, Layout.change, Rows.update, live, holds]
  unfold restorePrevious
  apply spec_read
  rw [if_pos (by simp [found, holds])]
  refine spec_mono (call_syncs_spec rest changed (.left _ rfl) (by rw [live]; exact uncommitted_single open_) rfl) ?_
    (fun _ raised => raised.1)
  intro _ after reached
  exact ⟨_, reached, rfl, rfl⟩

/-- The live workspace is checked once more, and the transaction goes. -/
theorem finishTransaction_spec (steady : Steady faults) (rest : Rest valid empty tree disk) {transaction : Transaction τ}
    (live : disk.live = ⟨true, some tree, [transaction], []⟩) :
    Spec valid empty faults
      (requireWorkspace >>= fun _ => validateWorkspace valid faults >>= fun _ =>
        discardTransaction tear faults transaction.name) disk
      (fun _ => At valid empty tree disk ⟨true, some tree, [], []⟩) (Raised valid empty faults tree disk) := by
  have present : disk.live.workspace = some tree := by rw [live]
  refine spec_bind (requireWorkspace_spec present rest) ?_
  intro _ required reached
  refine spec_bind (spec_mono (validateWorkspace_spec (by rw [reached.live, present]) reached.rest)
    (fun _ _ checked => checked) (fun _ unmoved => Unmoved.raised reached.same unmoved)) ?_
  intro _ validated checked
  have same := reached.same.trans checked.same
  exact spec_mono (discardTransaction_spec steady checked.rest (checked.live.trans (reached.live.trans live)))
    (fun _ _ gone => At.trans same gone) (fun _ raised => raised.trans same)

theorem recoverTransaction_spec (steady : Steady faults) (rest : Rest valid empty tree disk) {transaction : Transaction τ}
    (live : disk.live = ⟨true, some tree, [transaction], []⟩) :
    Spec valid empty faults (recoverTransaction valid tear faults true transaction) disk
      (fun _ => At valid empty tree disk ⟨true, some tree, [], []⟩) (Raised valid empty faults tree disk) := by
  unfold recoverTransaction
  split
  · exact finishTransaction_spec steady rest live
  · exact finishTransaction_spec steady rest live
  · exact discardTransaction_spec steady rest live

theorem recoverPrevious_spec (steady : Steady faults) (rest : Rest valid empty tree disk) {workspace : Option τ}
    {transaction : Transaction τ} (live : disk.live = ⟨true, workspace, [transaction], []⟩)
    (holds : transaction.previous.isSome) :
    Spec valid empty faults (recoverPrevious valid tear faults transaction) disk
      (fun _ => At valid empty tree disk ⟨true, some tree, [], []⟩) (Raised valid empty faults tree disk) := by
  have resolves := rest.live
  rw [live] at resolves
  unfold recoverPrevious
  cases resolves with
  | left _ released => simp [released] at holds
  | committed _ done =>
    rw [if_pos done]
    exact finishTransaction_spec steady rest live
  | held _ _ held open_ single =>
    rw [if_neg open_]
    refine spec_bind (rejectWorkspace_spec rest live held open_ single) ?_
    rintro _ rejected ⟨kept, reached, named, keeps, opened⟩
    rw [← named]
    refine spec_bind (spec_mono (restorePrevious_spec reached.rest reached.live keeps opened) (fun _ _ restored => restored)
      (fun _ raised => raised.trans reached.same)) ?_
    rintro _ restored ⟨last, back, renamed, released⟩
    have same := reached.same.trans back.same
    rw [← renamed]
    refine spec_bind (requireWorkspace_spec (by rw [back.live]) back.rest) ?_
    intro _ required there
    refine spec_bind (spec_mono (validateWorkspace_spec (by rw [there.live, back.live]) there.rest)
      (fun _ _ checked => checked) (fun _ unmoved => Unmoved.raised (same.trans there.same) unmoved)) ?_
    intro _ validated checked
    have again := (same.trans there.same).trans checked.same
    refine spec_bind (spec_mono (sync_spec .elsewhere _ checked.rest) (fun _ _ flushed => flushed)
      (fun _ unmoved => Unmoved.raised again unmoved)) ?_
    rintro _ probed ⟨flushed, -⟩
    have layout := flushed.live.trans (checked.live.trans (there.live.trans back.live))
    exact spec_mono (discardTransaction_spec steady flushed.rest layout)
      (fun _ _ gone => At.trans (again.trans flushed.same) gone) (fun _ raised => raised.trans (again.trans flushed.same))

/-- A change of the root directory alone, and its sync. -/
theorem call_syncRoot_spec {change : Layout τ → Option (Layout τ)} {next : Layout τ} (rest : Rest valid empty tree disk)
    (changed : change disk.live = some next) (resolves : Resolves empty tree next)
    (idle : disk.live.transactions = []) (clean : next.garbage = []) :
    Spec valid empty faults (call faults change >>= fun _ => syncRoot faults .elsewhere) disk
      (fun _ => At valid empty tree disk next) (Raised valid empty faults tree disk) := by
  refine spec_bind (spec_mono (call_spec rest changed resolves (uncommitted_idle idle) ?_) (fun _ _ reached => reached)
    (fun _ unmoved => Unmoved.raised ⟨rfl, rfl, rfl⟩ unmoved)) ?_
  · rw [clean]
    exact List.forall_mem_nil _
  · intro _ renamed reached
    refine spec_mono (sync_spec .elsewhere _ reached.rest) ?_ (fun _ unmoved => Unmoved.raised reached.same unmoved)
    rintro _ last ⟨synced, -⟩
    rw [reached.live] at synced
    exact At.trans reached.same synced

theorem makeWorkspace_spec {marker : Bool} {workspace : Option τ} (rest : Rest valid empty tree disk)
    (live : disk.live = ⟨marker, workspace, [], []⟩) :
    Spec valid empty faults (makeWorkspace empty faults marker) disk
      (fun _ => At valid empty tree disk ⟨marker, some tree, [], []⟩) (Raised valid empty faults tree disk) := by
  have resolves := rest.live
  rw [live] at resolves
  unfold makeWorkspace
  apply spec_read
  cases resolves with
  | idle _ _ _ =>
    rw [if_pos (by simp [live])]
    exact ⟨rest, live, rfl, rfl, rfl⟩
  | fresh initial =>
    subst initial
    rw [if_neg (by simp [live]), if_neg (by simp)]
    exact call_syncRoot_spec rest (by rw [live]) (.idle false [] (by simp)) (by rw [live]) rfl

theorem settleWorkspace_spec {marker : Bool} {workspace : Option τ} (rest : Rest valid empty tree disk)
    (live : disk.live = ⟨marker, workspace, [], []⟩) :
    Spec valid empty faults (settleWorkspace valid empty faults marker) disk
      (fun _ => At valid empty tree disk ⟨true, some tree, [], []⟩) (Raised valid empty faults tree disk) := by
  unfold settleWorkspace
  refine spec_bind (makeWorkspace_spec rest live) ?_
  intro _ settled reached
  refine spec_bind (spec_mono (validateWorkspace_spec (by rw [reached.live]) reached.rest) (fun _ _ checked => checked)
    (fun _ unmoved => Unmoved.raised reached.same unmoved)) ?_
  intro _ validated checked
  have same := reached.same.trans checked.same
  have layout := checked.live.trans reached.live
  cases marker with
  | true => exact ⟨checked.rest, layout, same⟩
  | false =>
    exact spec_mono (call_syncRoot_spec checked.rest (by rw [layout]) (.idle true [] (by simp)) (by rw [layout]) rfl)
      (fun _ _ marked => At.trans same marked) (fun _ raised => raised.trans same)

/-- The transaction that is found goes, and the live workspace is the tree. -/
theorem recoverFound_spec (steady : Steady faults) (rest : Rest valid empty tree disk) (clean : disk.live.garbage = []) :
    Spec valid empty faults (recoverFound valid tear faults disk.live.marker) disk
      (fun _ after => ∃ workspace, At valid empty tree disk ⟨disk.live.marker, workspace, [], []⟩ after)
      (Raised valid empty faults tree disk) := by
  unfold recoverFound
  apply spec_read
  obtain ⟨layout, live⟩ : ∃ layout, disk.live = layout := ⟨_, rfl⟩
  have resolves := rest.live
  rw [live] at resolves clean
  cases resolves with
  | idle marker garbage few =>
    obtain rfl : garbage = [] := clean
    simp only [live, List.filter_nil, List.length_nil]
    rw [if_neg (by simp)]
    exact ⟨_, rest, live, rfl, rfl, rfl⟩
  | fresh initial =>
    simp only [live, List.filter_nil, List.length_nil]
    rw [if_neg (by simp)]
    exact ⟨_, rest, live, rfl, rfl, rfl⟩
  | left transaction released =>
    simp only [live, List.filter_cons, released, Option.isSome_none, List.filter_nil]
    rw [if_neg (by simp)]
    refine spec_bind (recoverTransaction_spec steady rest live) ?_
    intro _ after reached
    exact ⟨_, reached⟩
  | held transaction workspace holds open_ single =>
    simp only [live, List.filter_cons, holds, Option.isSome_some, if_true, List.filter_nil, List.length_cons, List.length_nil]
    rw [if_neg (by simp)]
    refine spec_mono (recoverPrevious_spec steady rest live (by simp [holds])) ?_ (fun _ raised => raised)
    intro _ after reached
    exact ⟨_, reached⟩
  | committed transaction done =>
    cases holds : transaction.previous.isSome with
    | true =>
      simp only [live, List.filter_cons, holds, if_true, List.filter_nil, List.length_cons, List.length_nil]
      rw [if_neg (by simp)]
      refine spec_mono (recoverPrevious_spec steady rest live holds) ?_ (fun _ raised => raised)
      intro _ after reached
      exact ⟨_, reached⟩
    | false =>
      simp only [live, List.filter_cons, holds, List.filter_nil]
      rw [if_neg (by simp)]
      refine spec_bind (recoverTransaction_spec steady rest live) ?_
      intro _ after reached
      exact ⟨_, reached⟩

/-- The recovery makes the tree live that the layout resolves to, and only a fault can stop it. -/
theorem recoverWorkspace_spec (steady : Steady faults) (rest : Rest valid empty tree disk) :
    Spec valid empty faults (recoverWorkspace valid empty tear faults) disk
      (fun _ => At valid empty tree disk ⟨true, some tree, [], []⟩) (Raised valid empty faults tree disk) := by
  unfold recoverWorkspace
  apply spec_read
  refine spec_bind (recoverGarbage_spec rest) ?_
  intro _ cleaned reached
  have marker : cleaned.live.marker = disk.live.marker := by rw [reached.live]
  have clean : cleaned.live.garbage = [] := by rw [reached.live]
  rw [← marker]
  refine spec_bind (spec_mono (recoverFound_spec steady reached.rest clean) (fun _ _ gone => gone)
    (fun _ raised => raised.trans reached.same)) ?_
  rintro _ emptied ⟨workspace, gone⟩
  have same := reached.same.trans gone.same
  exact spec_mono (settleWorkspace_spec gone.rest gone.live) (fun _ _ settled => At.trans same settled)
    (fun _ raised => raised.trans same)

end Recovering

section Executing

variable {valid empty} {disk : Disk τ} {tree : τ}

/-- The disk rests on the tree, with one of these layouts in sight. -/
def Within (valid : τ → Bool) (empty : τ) (tree : τ) (disk : Disk τ) (P : Layout τ → Prop) (after : Disk τ) : Prop :=
  Rest valid empty tree after ∧ Same disk after ∧ P after.live

theorem Unmoved.within {first after : Disk τ} {P : Layout τ → Prop} (same : Same disk first) (here : P first.live)
    (unmoved : Unmoved valid empty faults tree first after) : Within valid empty tree disk P after :=
  ⟨unmoved.1.rest, same.trans unmoved.1.same, unmoved.1.live ▸ here⟩

/-- A journal that does not say `committed`. -/
theorem writeTransactionJournal_spec (rest : Rest valid empty tree disk) {workspace : Option τ}
    {transaction : Transaction τ} {name : Nat} {phase : Phase}
    (live : disk.live = ⟨true, workspace, [transaction], []⟩) (named : transaction.name = name)
    (resolves : Resolves empty tree ⟨true, workspace, [{ transaction with phase := some phase }], []⟩)
    (open_ : transaction.phase ≠ some .committed) (early : phase ≠ .committed) :
    Spec valid empty faults (writeTransactionJournal faults name phase) disk
      (fun _ after => At valid empty tree disk ⟨true, workspace, [{ transaction with phase := some phase }], []⟩ after ∧
        after.lost = disk.lost.filter fun layout => layout.transactions.isEmpty)
      (Within valid empty tree disk fun layout => layout = ⟨true, workspace, [transaction], []⟩ ∨
        layout = ⟨true, workspace, [{ transaction with phase := some phase }], []⟩) := by
  subst named
  unfold writeTransactionJournal
  refine spec_bind (spec_mono (sync_spec .elsewhere _ rest) (fun _ _ probed => probed)
    (fun _ unmoved => Unmoved.within ⟨rfl, rfl, rfl⟩ (Or.inl live) unmoved)) ?_
  rintro _ probed ⟨there, kept⟩
  have here := there.live.trans live
  have changed : probed.live.journal transaction.name phase =
      some ⟨true, workspace, [{ transaction with phase := some phase }], []⟩ := by
    simp [Layout.journal, Layout.change, Rows.update, here]
  refine spec_bind (spec_mono (call_lost_spec there.rest changed resolves (by rw [here]; exact uncommitted_single open_)
    (List.forall_mem_nil _)) (fun _ _ written => written)
    (fun _ unmoved => Unmoved.within there.same (Or.inl here) unmoved)) ?_
  rintro _ written ⟨reached, pushed⟩
  have same := there.same.trans reached.same
  simp only [noteCommitted, if_neg early]
  refine spec_mono (sync_spec .elsewhere _ reached.rest) ?_
    (fun _ unmoved => Unmoved.within same (Or.inr reached.live) unmoved)
  rintro _ last ⟨synced, lost⟩
  rw [reached.live] at synced
  refine ⟨At.trans same synced, ?_⟩
  rw [lost, pushed, kept, here]
  simp

/-- The one rename that changes the tree. Its sync does not fail, so a crash leaves either tree and a return
leaves the committed one. -/
theorem writeCommitted_spec (steady : Steady faults) (rest : Rest valid empty tree disk) {promoted : τ}
    {transaction : Transaction τ} {name : Nat} (live : disk.live = ⟨true, some promoted, [transaction], []⟩)
    (named : transaction.name = name) (based : disk.base = tree) (good : valid promoted = true) (synced : disk.lost = []) :
    Spec valid empty faults (writeTransactionJournal faults name .committed) disk
      (fun _ after => Rest valid empty promoted after ∧ after.live.workspace = some promoted ∧ after.locals = disk.locals)
      (Within valid empty tree disk fun layout => layout = disk.live) := by
  subst named
  unfold writeTransactionJournal
  refine spec_bind (spec_mono (sync_spec .elsewhere _ rest) (fun _ _ probed => probed)
    (fun _ unmoved => Unmoved.within ⟨rfl, rfl, rfl⟩ rfl unmoved)) ?_
  rintro _ probed ⟨there, kept⟩
  have here := there.live.trans live
  have changed : probed.live.journal transaction.name .committed =
      some ⟨true, some promoted, [{ transaction with phase := some .committed }], []⟩ := by
    simp [Layout.journal, Layout.change, Rows.update, here]
  have none : probed.lost = [] := by rw [kept, synced, List.filter_nil]
  have based' : probed.base = tree := there.same.1.trans based
  unfold Spec Action.Ends
  rw [Action.run_bind]
  cases fault : faults probed.clock .elsewhere with
  | error =>
    simp only [Action.run, call, fault]
    exact ⟨there.rest.tick, there.same, there.live⟩
  | crash survivor =>
    simp only [Action.run, call, fault]
    exact ⟨there.rest.tick.crash survivor, probed.clock, .elsewhere, by simp [fault]⟩
  | none =>
    simp only [Action.run, call, fault, changed, noteCommitted, if_true, Action.modify, syncTransaction, bind]
    cases second : faults (probed.clock + 1) .committedJournal with
    | error => exact absurd second (steady _).1
    | none =>
      simp only [sync, second, none, here]
      exact ⟨⟨good, Or.inr rfl, .committed _ rfl, by simp, by simp⟩, trivial, there.same.2.2⟩
    | crash survivor =>
      simp only [sync, second, none, here]
      refine ⟨?_, probed.clock + 1, .committedJournal, by simp [second]⟩
      have resolves := rest.live
      rw [live] at resolves
      cases survivor with
      | zero => exact ⟨promoted, good, Or.inr rfl, .committed _ rfl, List.forall_mem_nil _, fun _ _ _ => List.forall_mem_nil _⟩
      | succ survivor =>
        cases survivor with
        | zero => exact ⟨tree, rest.valid, Or.inl based'.symm, resolves, List.forall_mem_nil _,
            fun _ _ _ => List.forall_mem_nil _⟩
        | succ survivor => exact ⟨promoted, good, Or.inr rfl, .committed _ rfl, List.forall_mem_nil _, fun _ _ _ => List.forall_mem_nil _⟩

/-- A transaction that took nothing from the live workspace yet. -/
def Staging (tree : τ) (name : Nat) (layout : Layout τ) : Prop :=
  ∃ transaction, layout = ⟨true, some tree, [transaction], []⟩ ∧ transaction.name = name ∧
    transaction.previous = none ∧ transaction.rejectedRecovery = none ∧ transaction.phase ≠ some .committed

/-- A transaction that holds the workspace it is to replace. -/
def Holding (tree : τ) (name : Nat) (workspace : Option τ) (layout : Layout τ) : Prop :=
  ∃ transaction, layout = ⟨true, workspace, [transaction], []⟩ ∧ transaction.name = name ∧
    transaction.previous = some tree ∧ transaction.rejectedRecovery = none ∧ transaction.phase ≠ some .committed

theorem Raised.within {after : Disk τ} (raised : Raised valid empty faults tree disk after) :
    Within valid empty tree disk (fun _ => True) after :=
  ⟨raised.1, raised.2.1, trivial⟩

theorem Within.weaken {P Q : Layout τ → Prop} {after : Disk τ} (within : Within valid empty tree disk P after)
    (weaker : ∀ layout, P layout → Q layout) : Within valid empty tree disk Q after :=
  ⟨within.1, within.2.1, weaker _ within.2.2⟩

theorem Within.trans {first after : Disk τ} {P : Layout τ → Prop} (same : Same disk first)
    (within : Within valid empty tree first P after) : Within valid empty tree disk P after :=
  ⟨within.1, same.trans within.2.1, within.2.2⟩

theorem At.within {after : Disk τ} {layout : Layout τ} {P : Layout τ → Prop} (reached : At valid empty tree disk layout after)
    (holds : P layout) : Within valid empty tree disk P after :=
  ⟨reached.rest, reached.same, reached.live ▸ holds⟩

theorem probe_spec (rest : Rest valid empty tree disk) :
    Spec valid empty faults (probe faults) disk
      (fun _ after => At valid empty tree disk disk.live after ∧ after.lost = disk.lost)
      (Within valid empty tree disk fun layout => layout = disk.live) := by
  refine spec_mono (sync_spec .elsewhere _ rest) ?_ (fun _ unmoved => Unmoved.within ⟨rfl, rfl, rfl⟩ rfl unmoved)
  rintro _ after ⟨reached, lost⟩
  exact ⟨reached, by rw [lost, List.filter_true]⟩

theorem checkTree_spec (rest : Rest valid empty tree disk) (candidate : Option τ) :
    Spec valid empty faults (validateTree valid faults candidate) disk
      (fun _ after => At valid empty tree disk disk.live after ∧ after.lost = disk.lost ∧ candidate.any valid = true)
      (Within valid empty tree disk fun layout => layout = disk.live) := by
  unfold validateTree
  refine spec_bind (probe_spec rest) ?_
  rintro _ after ⟨reached, lost⟩
  split
  · rename_i accepted
    exact ⟨reached, lost, accepted⟩
  · exact spec_raise (reached.within rfl)

theorem checkWorkspace_spec (rest : Rest valid empty tree disk) :
    Spec valid empty faults (validateWorkspace valid faults) disk
      (fun _ after => At valid empty tree disk disk.live after ∧ after.lost = disk.lost)
      (Within valid empty tree disk fun layout => layout = disk.live) :=
  spec_read (spec_mono (checkTree_spec rest disk.live.workspace) (fun _ _ checked => ⟨checked.1, checked.2.1⟩)
    (fun _ within => within))

/-- The journal of a staged transaction. -/
theorem journalStaging_spec (rest : Rest valid empty tree disk) {name : Nat} {phase : Phase}
    (staging : Staging tree name disk.live) (early : phase ≠ .committed) :
    Spec valid empty faults (writeTransactionJournal faults name phase) disk
      (fun _ => Within valid empty tree disk (Staging tree name)) (Within valid empty tree disk (Staging tree name)) := by
  obtain ⟨transaction, live, rfl, released, unrejected, open_⟩ := staging
  have here : Staging tree transaction.name ⟨true, some tree, [transaction], []⟩ :=
    ⟨transaction, rfl, rfl, released, unrejected, open_⟩
  have next : Staging tree transaction.name ⟨true, some tree, [{ transaction with phase := some phase }], []⟩ :=
    ⟨_, rfl, rfl, released, unrejected, by simpa using early⟩
  refine spec_mono (writeTransactionJournal_spec rest live rfl (.left _ released) open_ early)
    (fun _ _ written => written.1.within next) ?_
  intro after within
  refine within.weaken ?_
  rintro layout (rfl | rfl)
  · exact here
  · exact next

/-- A change inside a staged transaction. -/
theorem changeStaging_spec (rest : Rest valid empty tree disk) {name : Nat} {change : Layout τ → Option (Layout τ)}
    {next : Layout τ} (staging : Staging tree name disk.live) (changed : change disk.live = some next)
    (kept : Staging tree name next) :
    Spec valid empty faults (call faults change) disk (fun _ => Within valid empty tree disk (Staging tree name))
      (Within valid empty tree disk (Staging tree name)) := by
  obtain ⟨transaction, live, -, -, -, open_⟩ := id staging
  obtain ⟨after, rfl, -, released, -, -⟩ := id kept
  refine spec_mono (call_spec rest changed (.left _ released) (by rw [live]; exact uncommitted_single open_)
    (List.forall_mem_nil _)) (fun _ _ reached => reached.within kept)
    (fun _ unmoved => Unmoved.within ⟨rfl, rfl, rfl⟩ staging unmoved)

theorem validateStaging_spec (rest : Rest valid empty tree disk) {name : Nat} (staging : Staging tree name disk.live) :
    Spec valid empty faults (validateStaged valid faults name) disk
      (fun _ => Within valid empty tree disk (Staging tree name)) (Within valid empty tree disk (Staging tree name)) := by
  unfold validateStaged
  apply spec_read
  refine spec_mono (checkTree_spec rest _) (fun _ _ checked => checked.1.within staging) ?_
  intro after within
  refine within.weaken ?_
  rintro layout rfl
  exact staging

theorem copyWorkspace_spec (rest : Rest valid empty tree disk) {name : Nat} (staging : Staging tree name disk.live) :
    Spec valid empty faults (copyWorkspace valid faults name) disk
      (fun _ => Within valid empty tree disk (Staging tree name)) (Within valid empty tree disk (Staging tree name)) := by
  obtain ⟨transaction, live, named, released, unrejected, open_⟩ := id staging
  have copied : disk.live.copy name = some ⟨true, some tree, [{ transaction with staged := some tree }], []⟩ := by
    simp [Layout.copy, Layout.change, Rows.update, live, named]
  unfold copyWorkspace
  refine spec_bind (changeStaging_spec rest staging copied ⟨_, rfl, named, released, unrejected, open_⟩) ?_
  rintro _ filled ⟨there, same, holds⟩
  refine spec_bind (spec_mono (validateStaging_spec there holds) (fun _ _ checked => checked)
    (fun _ within => within.trans same)) ?_
  rintro _ checked ⟨again, still, kept⟩
  refine spec_bind (spec_mono (journalStaging_spec again kept (by simp)) (fun _ _ written => written)
    (fun _ within => within.trans (same.trans still))) ?_
  rintro _ written ⟨last, once, held⟩
  have whole := (same.trans still).trans once
  exact spec_mono (sync_spec .elsewhere _ last) (fun _ _ synced => (At.trans whole synced.1).within held)
    (fun _ unmoved => Unmoved.within whole held unmoved)

theorem abandonTransaction_spec (steady : Steady faults) (rest : Rest valid empty tree disk) {name : Nat}
    (staging : Staging tree name disk.live) {Returns : Unit → Disk τ → Prop} :
    Spec valid empty faults (abandonTransaction tear faults name) disk Returns (Within valid empty tree disk fun _ => True) := by
  obtain ⟨transaction, live, rfl, -⟩ := staging
  refine spec_bind (spec_mono (discardTransaction_spec steady rest live) (fun _ _ gone => gone)
    (fun _ raised => raised.within)) ?_
  intro _ after gone
  exact spec_raise (gone.within trivial)

theorem stageWorkspace_spec (steady : Steady faults) (rest : Rest valid empty tree disk)
    (live : disk.live = ⟨true, some tree, [], []⟩) :
    Spec valid empty faults (stageWorkspace valid tear faults) disk
      (fun name => Within valid empty tree disk (Staging tree name)) (Within valid empty tree disk fun _ => True) := by
  unfold stageWorkspace
  apply spec_read
  have opened : disk.live.open disk.clock = some ⟨true, some tree, [⟨disk.clock, none, none, none, none, none⟩], []⟩ := by
    simp [Layout.open, live]
  refine spec_bind (spec_mono (call_spec rest opened (.left _ rfl) (uncommitted_idle (by rw [live])) (List.forall_mem_nil _))
    (fun _ _ reached => reached) (fun _ unmoved => Unmoved.within ⟨rfl, rfl, rfl⟩ trivial unmoved)) ?_
  intro _ made reached
  have staging : Staging tree disk.clock made.live := by
    rw [reached.live]
    exact ⟨_, rfl, rfl, rfl, rfl, by simp⟩
  have copying : Spec valid empty faults
      (onException (copyWorkspace valid faults disk.clock) (abandonTransaction tear faults disk.clock)) made
      (fun _ => Within valid empty tree disk (Staging tree disk.clock)) (Within valid empty tree disk fun _ => True) := by
    refine spec_onException (spec_mono (copyWorkspace_spec reached.rest staging)
      (fun _ _ copied => copied.trans reached.same) (fun _ within => within.trans reached.same)) ?_
    rintro after ⟨there, same, holds⟩
    exact spec_mono (abandonTransaction_spec steady there holds) (fun _ _ never => never)
      (fun _ within => within.trans same)
  refine spec_bind copying ?_
  intro _ after staged
  exact spec_pure staged

/-- The handler brings the previous workspace back, or leaves it to the recovery. -/
theorem rollBack_spec (rest : Rest valid empty tree disk) {name : Nat} {workspace : Option τ} {promoted : Bool}
    (holding : Holding tree name workspace disk.live) (unpromoted : promoted = false → workspace = none)
    {Returns : Unit → Disk τ → Prop} :
    Spec valid empty faults (rollBack faults name promoted) disk Returns (Within valid empty tree disk fun _ => True) := by
  obtain ⟨transaction, live, rfl, holds, unrejected, open_⟩ := holding
  have rejected : Spec valid empty faults (rejectPromoted faults transaction.name promoted) disk
      (fun _ => Within valid empty tree disk (Holding tree transaction.name none))
      (Within valid empty tree disk fun _ => True) := by
    unfold rejectPromoted
    apply spec_read
    cases workspace with
    | none =>
      rw [if_neg (by simp [live])]
      exact ⟨rest, ⟨rfl, rfl, rfl⟩, transaction, live, rfl, holds, unrejected, open_⟩
    | some found =>
      cases promoted with
      | false => cases unpromoted rfl
      | true =>
        rw [if_pos (by simp [live])]
        have changed : disk.live.reject transaction.name =
            some ⟨true, none, [{ transaction with rejected := some found }], []⟩ := by
          simp [Layout.reject, Layout.change, Rows.update, live]
        refine spec_mono (call_syncs_spec rest changed (.held _ none holds open_ (by simp))
          (by rw [live]; exact uncommitted_single open_) rfl) ?_ (fun _ raised => raised.1.within)
        intro _ after reached
        exact reached.within ⟨_, rfl, rfl, holds, unrejected, open_⟩
  unfold rollBack
  refine spec_bind rejected ?_
  rintro _ moved ⟨there, same, next, here, named, keeps, -, opened⟩
  rw [← named]
  refine spec_bind (spec_mono (restorePrevious_spec there here keeps opened) (fun _ _ restored => restored)
    (fun _ raised => raised.within.trans same)) ?_
  rintro _ restored ⟨last, back, -⟩
  exact spec_raise ((At.trans same back).within trivial)

/-- The tree that an execution leaves, and that it committed if it says so. -/
def Ended (valid : τ → Bool) (empty : τ) (disk : Disk τ) : Prop :=
  ∃ tree, Rest valid empty tree disk ∧ (disk.locals.committed = true → disk.live.workspace = some tree)

/-- An execution before its commit. -/
def Begun (tree : τ) (disk : Disk τ) : Prop := disk.base = tree ∧ disk.locals.committed = false

theorem Begun.same {after : Disk τ} (begun : Begun tree disk) (same : Same disk after) : Begun tree after :=
  ⟨same.1.trans begun.1, by rw [same.2.2]; exact begun.2⟩

theorem Within.ended {after : Disk τ} {P : Layout τ → Prop} (within : Within valid empty tree disk P after)
    (begun : Begun tree disk) : Ended valid empty after := by
  refine ⟨tree, within.1, ?_⟩
  rw [(begun.same within.2.1).2]
  intro impossible
  cases impossible

/-- The part of a commit behind the promotion: it returns with the promoted tree, or raises with the
transaction still holding the previous one. -/
theorem commitPromoted_spec (steady : Steady faults) (rest : Rest valid empty tree disk) {name : Nat} {promoted : τ}
    (holding : Holding tree name (some promoted) disk.live) (based : disk.base = tree) (good : valid promoted = true) :
    Spec valid empty faults (commitPromoted valid faults name) disk
      (fun _ after => Rest valid empty promoted after ∧ after.live.workspace = some promoted ∧ after.locals = disk.locals)
      (Within valid empty tree disk (Holding tree name (some promoted))) := by
  obtain ⟨transaction, live, rfl, holds, unrejected, open_⟩ := id holding
  have next : Holding tree transaction.name (some promoted)
      ⟨true, some promoted, [{ transaction with phase := some .promoted }], []⟩ :=
    ⟨_, rfl, rfl, holds, unrejected, by simp⟩
  unfold commitPromoted
  refine spec_bind (spec_mono (sync_spec .elsewhere _ rest) (fun _ _ synced => synced)
    (fun _ unmoved => Unmoved.within ⟨rfl, rfl, rfl⟩ holding unmoved)) ?_
  rintro _ once ⟨there, -⟩
  have here : Holding tree transaction.name (some promoted) once.live := there.live ▸ holding
  refine spec_bind (spec_mono (sync_spec .elsewhere _ there.rest) (fun _ _ synced => synced)
    (fun _ unmoved => Unmoved.within there.same here unmoved)) ?_
  rintro _ twice ⟨again, lost⟩
  have same := there.same.trans again.same
  have layout := again.live.trans (there.live.trans live)
  refine spec_bind (spec_mono (writeTransactionJournal_spec again.rest layout rfl (.held _ _ holds (by simp) (fun _ => unrejected))
    open_ (by simp)) (fun _ _ written => written) ?_) ?_
  · intro after within
    refine (within.trans same).weaken ?_
    rintro _ (rfl | rfl)
    · exact ⟨transaction, rfl, rfl, holds, unrejected, open_⟩
    · exact next
  · rintro _ written ⟨reached, dropped⟩
    have none : written.lost = [] := by simp [dropped, lost]
    have whole := same.trans reached.same
    have held : Holding tree transaction.name (some promoted) written.live := reached.live ▸ next
    refine spec_bind (spec_mono (checkWorkspace_spec reached.rest) (fun _ _ checked => checked) ?_) ?_
    · intro after within
      exact (within.trans whole).weaken fun _ same => same ▸ held
    · rintro _ checked ⟨stays, kept⟩
      have steps := whole.trans stays.same
      refine spec_bind (spec_mono (probe_spec stays.rest) (fun _ _ flushed => flushed) ?_) ?_
      · intro after within
        exact (within.trans steps).weaken fun _ same => by rw [same, stays.live]; exact held
      · rintro _ flushed ⟨settled, still⟩
        have all := steps.trans settled.same
        have final := settled.live.trans (stays.live.trans reached.live)
        refine spec_mono (writeCommitted_spec steady settled.rest final rfl (all.1.trans based) good
          (by rw [still, kept, none])) ?_ ?_
        · rintro _ after ⟨committed, workspace, locals⟩
          exact ⟨committed, workspace, locals.trans all.2.2⟩
        · intro after within
          exact (within.trans all).weaken fun _ same => by rw [same, final]; exact next

/-- A commit returns with the staged tree, or raises with something to recover. -/
theorem commitWorkspace_spec (steady : Steady faults) (rest : Rest valid empty tree disk) {name : Nat}
    (staging : Staging tree name disk.live) (begun : Begun tree disk) :
    Spec valid empty faults (commitWorkspace valid faults name) disk
      (fun _ after => ∃ committed, Rest valid empty committed after ∧ after.live.workspace = some committed ∧
        after.locals = disk.locals) (Ended valid empty) := by
  obtain ⟨transaction, live, rfl, released, unrejected, open_⟩ := id staging
  have found : disk.live.transaction transaction.name = some transaction := by simp [live, Layout.transaction]
  unfold commitWorkspace
  apply spec_read
  rw [found]
  simp only
  split
  · exact spec_raise ⟨tree, rest, by rw [begun.2]; intro impossible; cases impossible⟩
  · refine spec_bind (spec_mono (checkTree_spec rest transaction.staged) (fun _ _ checked => checked)
      (fun _ within => within.ended begun)) ?_
    rintro _ checked ⟨there, -, accepted⟩
    obtain ⟨promoted, staged, good⟩ : ∃ promoted, transaction.staged = some promoted ∧ valid promoted = true := by
      cases staged : transaction.staged with
      | none => simp [staged] at accepted
      | some promoted => exact ⟨promoted, rfl, by simpa [staged] using accepted⟩
    refine spec_bind (spec_mono (probe_spec there.rest) (fun _ _ flushed => flushed)
      (fun _ within => (within.trans there.same).ended begun)) ?_
    rintro _ flushed ⟨again, -⟩
    have same := there.same.trans again.same
    have layout := again.live.trans (there.live.trans live)
    have retired : flushed.live.retire transaction.name =
        some ⟨true, none, [{ transaction with previous := some tree }], []⟩ := by
      simp [Layout.retire, Layout.change, Rows.update, layout]
    refine spec_bind (spec_mono (call_spec again.rest retired (.held _ none rfl open_ (by simp))
      (by rw [layout]; exact uncommitted_single open_) (List.forall_mem_nil _)) (fun _ _ moved => moved)
      (fun _ unmoved => (Unmoved.within (P := fun _ => True) same trivial unmoved).ended begun)) ?_
    intro _ moved away
    have first := same.trans away.same
    refine spec_bind (spec_mono (sync_spec .elsewhere _ away.rest) (fun _ _ synced => synced)
      (fun _ unmoved => (Unmoved.within (P := fun _ => True) first trivial unmoved).ended begun)) ?_
    rintro _ once ⟨synced, -⟩
    have second := first.trans synced.same
    refine spec_bind (spec_mono (sync_spec .elsewhere _ synced.rest) (fun _ _ twice => twice)
      (fun _ unmoved => (Unmoved.within (P := fun _ => True) second trivial unmoved).ended begun)) ?_
    rintro _ twice ⟨durable, -⟩
    have third := second.trans durable.same
    have empty_ := durable.live.trans (synced.live.trans away.live)
    refine spec_bind (spec_mono (writeTransactionJournal_spec durable.rest empty_ rfl
      (.held _ none rfl (by simp) (by simp)) open_ (by simp)) (fun _ _ written => written)
      (fun _ within => (within.trans third).ended begun)) ?_
    rintro _ written ⟨noted, -⟩
    have fourth := third.trans noted.same
    have holding : Holding tree transaction.name none written.live := by
      rw [noted.live]
      exact ⟨_, rfl, rfl, rfl, unrejected, by simp⟩
    have promoting : written.live.promote transaction.name = some ⟨true, some promoted,
        [{ transaction with phase := some .previous, previous := some tree, staged := none }], []⟩ := by
      simp [Layout.promote, Layout.transaction, Layout.change, Rows.update, noted.live, staged]
    have shown : Holding tree transaction.name (some promoted) ⟨true, some promoted,
        [{ transaction with phase := some .previous, previous := some tree, staged := none }], []⟩ :=
      ⟨_, rfl, rfl, rfl, unrejected, by simp⟩
    have guarded : Spec valid empty faults
        (onException (call faults (Layout.promote transaction.name)) (rollBack faults transaction.name false)) written
        (fun _ => Within valid empty tree disk (Holding tree transaction.name (some promoted))) (Ended valid empty) := by
      refine spec_onException (spec_mono (call_spec noted.rest promoting (.held _ _ rfl (by simp) (fun _ => unrejected))
        (by rw [noted.live]; exact uncommitted_single (by simp)) (List.forall_mem_nil _))
        (fun _ _ reached => (At.trans fourth reached).within shown)
        (fun _ unmoved => Unmoved.within fourth holding unmoved)) ?_
      rintro after ⟨kept, stays, held⟩
      exact spec_mono (rollBack_spec kept held (fun _ => rfl)) (fun _ _ never => never)
        (fun _ within => (within.trans stays).ended begun)
    refine spec_bind guarded ?_
    rintro _ live_ ⟨kept, stays, held⟩
    refine spec_onException (spec_mono (commitPromoted_spec steady kept held (stays.1.trans begun.1) good) ?_
      (fun _ within => within.trans stays)) ?_
    · rintro _ after ⟨committed, workspace, locals⟩
      exact ⟨promoted, committed, workspace, locals.trans stays.2.2⟩
    · rintro after ⟨back, again, holds⟩
      exact spec_mono (rollBack_spec back holds (by simp)) (fun _ _ never => never)
        (fun _ within => (within.trans again).ended begun)

/-- A staged execution that has not committed. -/
structure Ready (valid : τ → Bool) (empty : τ) (tree : τ) (name : Nat) (disk : Disk τ) : Prop where
  rest : Rest valid empty tree disk
  begun : Begun tree disk
  staging : Staging tree name disk.live

theorem Ready.ended {name : Nat} (ready : Ready valid empty tree name disk) : Ended valid empty disk := by
  refine ⟨tree, ready.rest, ?_⟩
  rw [ready.begun.2]
  intro impossible
  cases impossible

theorem Ready.next {name : Nat} {after : Disk τ} (ready : Ready valid empty tree name disk)
    (within : Within valid empty tree disk (Staging tree name) after) : Ready valid empty tree name after :=
  ⟨within.1, ready.begun.same within.2.1, within.2.2⟩

theorem commitStaged_spec (steady : Steady faults) {name : Nat} (ready : Ready valid empty tree name disk) :
    Spec valid empty faults (commitStaged valid faults name) disk (fun _ => Ended valid empty) (Ended valid empty) := by
  unfold commitStaged
  refine spec_bind (spec_mono (validateStaging_spec ready.rest ready.staging) (fun _ _ within => ready.next within)
    (fun _ within => (ready.next within).ended)) ?_
  intro _ checked staged
  refine spec_bind (spec_mono (probe_spec staged.rest)
    (fun _ _ probed => staged.next (probed.1.within staged.staging)) (fun _ within => within.ended staged.begun)) ?_
  intro _ probed granted
  refine spec_bind (commitWorkspace_spec steady granted.rest granted.staging granted.begun) ?_
  rintro _ committed ⟨last, rest, workspace, locals⟩
  have uncommitted : committed.locals.committed = false := by rw [locals, granted.begun.2]
  refine spec_bind (spec_mono (probe_spec rest) (fun _ _ released => released) ?_) ?_
  · intro after within
    refine ⟨last, within.1, ?_⟩
    rw [within.2.1.2.2, uncommitted]
    intro impossible
    cases impossible
  · rintro _ released ⟨there, -⟩
    refine spec_modify ⟨last, ⟨there.rest.valid, there.rest.allowed, there.rest.live, there.rest.lost, there.rest.apart⟩, ?_⟩
    intro _
    exact (congrArg Layout.workspace there.live).trans workspace

theorem workStaging_spec {name : Nat} {effect : τ → τ} (ready : Ready valid empty tree name disk) :
    Spec valid empty faults (call faults (Layout.work name effect)) disk (fun _ => Ready valid empty tree name)
      (Ended valid empty) := by
  obtain ⟨transaction, live, rfl, released, unrejected, open_⟩ := ready.staging
  have worked : disk.live.work transaction.name effect =
      some ⟨true, some tree, [{ transaction with staged := transaction.staged.map effect }], []⟩ := by
    simp [Layout.work, Layout.change, Rows.update, live]
  exact spec_mono (changeStaging_spec ready.rest ready.staging worked ⟨_, rfl, rfl, released, unrejected, open_⟩)
    (fun _ _ within => ready.next within) (fun _ within => (ready.next within).ended)

theorem journalReady_spec {name : Nat} {phase : Phase} (ready : Ready valid empty tree name disk)
    (early : phase ≠ .committed) :
    Spec valid empty faults (writeTransactionJournal faults name phase) disk (fun _ => Ready valid empty tree name)
      (Ended valid empty) :=
  spec_mono (journalStaging_spec ready.rest ready.staging early) (fun _ _ within => ready.next within)
    (fun _ within => (ready.next within).ended)

theorem setQuiescent_spec {name : Nat} {Raises : Disk τ → Prop} (ready : Ready valid empty tree name disk) :
    Spec valid empty faults setQuiescent disk (fun _ => Ready valid empty tree name) Raises :=
  spec_modify ⟨⟨ready.rest.valid, ready.rest.allowed, ready.rest.live, ready.rest.lost, ready.rest.apart⟩, ready.begun,
    ready.staging⟩

theorem runContainer_spec (steady : Steady faults) {name : Nat} (request : Call τ)
    (ready : Ready valid empty tree name disk) :
    Spec valid empty faults (runContainer valid faults request name) disk (fun _ => Ended valid empty)
      (Ended valid empty) := by
  unfold runContainer
  refine spec_bind (journalReady_spec ready (by simp)) ?_
  intro _ executing started
  have stopped : Spec valid empty faults (call faults (Layout.work name request.effect) >>= fun _ => setQuiescent) executing
      (fun _ => Ended valid empty) (Ended valid empty) := by
    refine spec_bind (workStaging_spec started) ?_
    intro _ worked done
    exact spec_mono (setQuiescent_spec done) (fun _ _ quiet => quiet.ended) (fun _ ended => ended)
  cases request.outcome with
  | cancelledBefore => exact spec_mono (setQuiescent_spec started) (fun _ _ quiet => quiet.ended) (fun _ ended => ended)
  | failed => exact stopped
  | stopped => exact stopped
  | completed cancelled =>
    refine spec_bind (workStaging_spec started) ?_
    intro _ worked done
    refine spec_bind (setQuiescent_spec done) ?_
    intro _ silent quiet
    refine spec_bind (journalReady_spec quiet (by simp)) ?_
    intro _ noted recorded
    cases cancelled with
    | true => exact spec_pure recorded.ended
    | false => exact commitStaged_spec steady recorded

theorem runProvider_spec (steady : Steady faults) {name : Nat} (request : Call τ)
    (ready : Ready valid empty tree name disk) :
    Spec valid empty faults (runProvider valid faults request name) disk (fun _ => Ended valid empty)
      (Ended valid empty) := by
  unfold runProvider
  refine spec_bind (workStaging_spec ready) ?_
  intro _ worked done
  cases request.outcome with
  | cancelledBefore => exact spec_pure done.ended
  | failed => exact spec_raise done.ended
  | stopped => exact spec_raise done.ended
  | completed cancelled =>
    cases cancelled with
    | true => exact spec_pure done.ended
    | false => exact commitStaged_spec steady done

theorem runCommand_spec (steady : Steady faults) (request : Call τ) (rest : Rest valid empty tree disk)
    (fresh : disk.locals.committed = false) :
    Spec valid empty faults (runCommand valid empty tear faults request) disk (fun _ => Ended valid empty)
      (Ended valid empty) := by
  have uncommitted : ∀ {after : Disk τ}, Rest valid empty tree after → Same disk after → Ended valid empty after := by
    intro after there same
    refine ⟨tree, there, ?_⟩
    rw [same.2.2, fresh]
    intro impossible
    cases impossible
  unfold runCommand
  refine spec_bind (spec_mono (recoverWorkspace_spec steady rest) (fun _ _ recovered => recovered)
    (fun _ raised => uncommitted raised.1 raised.2.1)) ?_
  intro _ recovered reached
  apply spec_modify_bind
  have noted : Rest valid empty tree
      { recovered with base := recovered.live.workspace.getD recovered.base, reached := none } :=
    ⟨rest.valid, Or.inl (by simp [reached.live]), reached.rest.live, reached.rest.lost, reached.rest.apart⟩
  have begun : Begun tree { recovered with base := recovered.live.workspace.getD recovered.base, reached := none } :=
    ⟨by simp [reached.live], by simp [reached.same.2.2, fresh]⟩
  refine spec_bind (spec_mono (checkWorkspace_spec noted) (fun _ _ checked => checked)
    (fun _ within => within.ended begun)) ?_
  rintro _ checked ⟨there, -⟩
  have layout : checked.live = ⟨true, some tree, [], []⟩ := there.live.trans reached.live
  refine spec_bind (spec_mono (stageWorkspace_spec steady there.rest layout) (fun _ _ staged => staged)
    (fun _ within => within.ended (begun.same there.same))) ?_
  intro name staged within
  apply spec_modify_bind
  have ready : Ready valid empty tree name
      { staged with locals := { staged.locals with transaction := some name } } := by
    have begunStaged := (begun.same there.same).same within.2.1
    exact ⟨⟨within.1.valid, within.1.allowed, within.1.live, within.1.lost, within.1.apart⟩, begunStaged, within.2.2⟩
  cases request.provider with
  | true => exact runProvider_spec steady request ready
  | false => exact runContainer_spec steady request ready

theorem Ended.anyhow (ended : Ended valid empty disk) : Anyhow valid empty disk := by
  obtain ⟨tree, rest, -⟩ := ended
  exact ⟨tree, rest⟩

/-- A transaction that is found goes only when the live workspace is the one to keep. -/
theorem cleanUp_spec (steady : Steady faults) (request : Call τ) (ended : Ended valid empty disk) :
    Spec valid empty faults (cleanUp tear faults request) disk (fun _ => Anyhow valid empty) (Anyhow valid empty) := by
  obtain ⟨tree, rest, kept⟩ := ended
  unfold cleanUp
  apply spec_read
  split
  · exact spec_pure ⟨tree, rest⟩
  · rename_i transaction found
    split
    · rename_i chosen
      have listed : transaction ∈ disk.live.transactions := by
        obtain ⟨name, -, seen⟩ := Option.bind_eq_some_iff.mp found
        exact List.mem_of_find?_eq_some seen
      have live : disk.live = ⟨true, some tree, [transaction], []⟩ := by
        obtain ⟨layout, same⟩ : ∃ layout, disk.live = layout := ⟨_, rfl⟩
        have resolves := rest.live
        rw [same] at resolves listed kept ⊢
        cases resolves with
        | idle _ _ _ => cases listed
        | fresh _ => cases listed
        | left held _ => rw [List.mem_singleton.mp listed]
        | committed held _ => rw [List.mem_singleton.mp listed]
        | held held workspace holds open_ single =>
          obtain rfl := List.mem_singleton.mp listed
          simp only [holds, Option.isNone_some, Bool.and_false, Bool.or_false] at chosen
          have shown : workspace = some tree := kept chosen
          rw [shown]
      exact spec_mono (discardTransaction_spec steady rest live) (fun _ _ gone => ⟨tree, gone.rest⟩)
        (fun _ raised => ⟨tree, raised.1⟩)
    · exact spec_pure ⟨tree, rest⟩

theorem execute_spec (steady : Steady faults) (request : Call τ) (anyhow : Anyhow valid empty disk) :
    Spec valid empty faults (execute valid empty tear faults request) disk (fun _ => Anyhow valid empty)
      (Anyhow valid empty) := by
  obtain ⟨tree, rest⟩ := anyhow
  unfold execute
  apply spec_modify_bind
  have reset : Rest valid empty tree { disk with locals := ⟨none, false, false⟩ } :=
    ⟨rest.valid, rest.allowed, rest.live, rest.lost, rest.apart⟩
  have body : Spec valid empty faults (onException (runCommand valid empty tear faults request) (pure ()))
      { disk with locals := ⟨none, false, false⟩ } (fun _ => Ended valid empty) (Anyhow valid empty) :=
    spec_onException (runCommand_spec steady request reset rfl) fun _ ended => spec_pure ended
  refine spec_bind body ?_
  intro _ after ended
  exact spec_onException (cleanUp_spec steady request ended) fun _ left => spec_pure left

end Executing

section Runs

variable {valid empty}

theorem step_anyhow (steady : Steady faults) (disk : Disk τ) (op : Op τ) (anyhow : Anyhow valid empty disk) :
    Anyhow valid empty (step valid empty tear faults disk op) := by
  cases op with
  | crash survivor =>
    obtain ⟨tree, rest⟩ := anyhow
    exact rest.crash survivor
  | execute request =>
    have spec : Spec valid empty faults (execute valid empty tear faults request) disk (fun _ => Anyhow valid empty)
      (Anyhow valid empty) := execute_spec steady request anyhow
    unfold Spec Action.Ends at spec
    change Anyhow valid empty ((execute valid empty tear faults request).run disk).2
    rcases done : (execute valid empty tear faults request).run disk with ⟨outcome, after⟩
    rw [done] at spec
    cases outcome with
    | ok value => exact spec
    | error failure =>
      cases failure with
      | error => exact spec
      | crash => exact spec.1

theorem anyhow_start (initial : valid empty = true) : Anyhow valid empty (Disk.start empty) :=
  ⟨empty, initial, Or.inl rfl, .fresh rfl, List.forall_mem_nil _, fun _ _ _ => List.forall_mem_nil _⟩

end Runs

section Samples

def sampleRequest : Call Nat := ⟨false, (· + 1), .completed false⟩

def accepts : Nat → Bool := fun _ => true

/-- The process is killed while the journal says `promoted`. -/
def killedAtPromoted : Faults := fun clock _ => if clock = 38 then .crash 0 else .none

/-- The sync behind the committed journal fails, and the process is killed in the middle of the rollback. -/
def killedInRollback : Faults := fun clock site =>
  if site = .committedJournal then .error else if clock = 42 then .crash 0 else .none

end Samples

end OpenTulpa.DeepAgent.SandboxRecovery
