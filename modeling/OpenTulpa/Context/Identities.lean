import OpenTulpa.Context.Profiles

/-! The identity bindings of the profile store. A binding selects the storage id by four statements and writes it by a
fifth, and a profile write resolves its id some statements before it stores the row. The store stays sound exactly when
each of these writes finds the choice it carries still right. -/

namespace OpenTulpa.Context.Identities

open Library Text Profiles

section Specification

/-- Resolution is idempotent, what was once bound stays bound to the same storage id, and every stored row is the one
its own id resolves to. -/
structure Sound (s : State) : Prop where
  idempotent : ∀ id, s.tables.resolveCustomerId (s.tables.resolveCustomerId id) = s.tables.resolveCustomerId id
  bound : ∀ record, Commit.binding record ∈ s.log →
    s.tables.resolveCustomerId record.userId = record.storageUserId ∧
      s.tables.resolveCustomerId record.aliasUserId = record.storageUserId
  stored : ∀ row ∈ s.tables.profiles, s.tables.resolveCustomerId row.customerId = row.customerId

/-- `_select_identity_storage` on the tables as they are. -/
def select (tables : Tables) (binding : Binding) : Except ProfileError String :=
  selectIdentityStorage binding (tables.storage binding.userId) (tables.storage binding.telegramAlias)
    (tables.profileExists binding.userId) (tables.profileExists binding.telegramAlias)

/-- What a call is about to write is still what it would choose now. -/
def Current (tables : Tables) : Phase → Prop
  | .store cid .. => tables.resolveCustomerId cid = cid
  | .bind binding storageUserId => select tables binding = .ok storageUserId
  | _ => True

def WritesCurrent (s : State) : Event → Prop
  | .advance id _ => ∀ phase, s.phase id = some phase → Current s.tables phase
  | _ => True

end Specification

section Resolution

variable {tables after : Tables} {binding : Binding}

/-- An id as the store keeps it. -/
def Clean (id : String) : Prop := strip id = id ∧ id.isEmpty = false

theorem resolve_of_clean {id : String} (clean : Clean id) :
    tables.resolveCustomerId id = (tables.storage id).getD id := by
  simp only [Tables.resolveCustomerId, clean.1, clean.2, Bool.false_eq_true, if_false]

theorem clean_strip {id : String} (nonempty : ¬ (strip id).isEmpty = true) : Clean (strip id) :=
  ⟨strip_strip id, by simpa using nonempty⟩

theorem isSpace_last_of_clean {id : String} (clean : Clean id) : ∀ c ∈ id.toList.getLast?, isSpace c = false := by
  have chars : stripChars id.toList = id.toList := by
    simpa [strip] using congrArg String.toList clean.1
  exact (stripChars_ends chars).2

theorem clean_telegramPrefixed {telegramId : String} (clean : Clean telegramId) : Clean (telegramPrefixed telegramId) := by
  have chars : (telegramPrefixed telegramId).toList = 't' :: ("elegram_".toList ++ telegramId.toList) := by
    simp [telegramPrefixed]
  have filled : telegramId.toList ≠ [] := by
    intro empty
    have none : telegramId = "" := String.toList_eq_nil_iff.mp empty
    simp [none, Clean] at clean
  have nonempty : (telegramPrefixed telegramId).toList ≠ [] := by simp [chars]
  refine ⟨strip_of_ends nonempty ?_ ?_, ?_⟩
  · simp only [chars, List.head_cons]
    rfl
  · apply isSpace_last_of_clean clean
    rw [List.getLast?_eq_getLast_of_ne_nil filled]
    simp [chars, filled]
  · have some : telegramPrefixed telegramId ≠ "" := fun empty => nonempty (by simp [empty])
    simpa using some

/-- The arguments of a binding that passed its checks. -/
structure Proper (binding : Binding) : Prop where
  user : Clean binding.userId
  telegram : Clean binding.telegramAlias
  apart : binding.userId ≠ binding.telegramAlias

/-- The tables have grown: no alias moved and no profile went. -/
structure Extends (tables after : Tables) : Prop where
  storage : ∀ {id storageUserId}, tables.storage id = some storageUserId → after.storage id = some storageUserId
  profile : ∀ {id}, tables.profileExists id = true → after.profileExists id = true

theorem Extends.refl (tables : Tables) : Extends tables tables := ⟨id, id⟩

/-- What a binding has read so far still holds; what it has not read counts as absent. -/
structure Reads (tables : Tables) (binding : Binding) (uidStorage telegramStorage : Option String)
    (uidHasProfile telegramHasProfile : Bool) : Prop where
  user : ∀ {found}, uidStorage = some found → tables.storage binding.userId = some found
  telegram : ∀ {found}, telegramStorage = some found → tables.storage binding.telegramAlias = some found
  userProfile : uidHasProfile = true → tables.profileExists binding.userId = true
  telegramProfile : telegramHasProfile = true → tables.profileExists binding.telegramAlias = true

theorem Reads.grow {uidStorage telegramStorage : Option String} {uidHasProfile telegramHasProfile : Bool}
    (reads : Reads tables binding uidStorage telegramStorage uidHasProfile telegramHasProfile)
    (grown : Extends tables after) :
    Reads after binding uidStorage telegramStorage uidHasProfile telegramHasProfile where
  user := fun found => grown.storage (reads.user found)
  telegram := fun found => grown.storage (reads.telegram found)
  userProfile := fun found => grown.profile (reads.userProfile found)
  telegramProfile := fun found => grown.profile (reads.telegramProfile found)

/-- What a selection promises about the two ids and their profiles. -/
structure Selected (binding : Binding) (uidStorage telegramStorage : Option String)
    (uidHasProfile telegramHasProfile : Bool) (storageUserId : String) : Prop where
  user : ∀ found, uidStorage = some found → found = storageUserId
  telegram : ∀ found, telegramStorage = some found → found = storageUserId
  userProfile : uidHasProfile = true → uidStorage = none → storageUserId = binding.userId
  telegramProfile : telegramHasProfile = true → telegramStorage = none → storageUserId = binding.telegramAlias
  origin : uidStorage = some storageUserId ∨ telegramStorage = some storageUserId ∨ storageUserId = binding.userId ∨
    storageUserId = binding.telegramAlias

theorem selected_of_ok {uidStorage telegramStorage : Option String} {uidHasProfile telegramHasProfile : Bool}
    {storageUserId : String}
    (ok : selectIdentityStorage binding uidStorage telegramStorage uidHasProfile telegramHasProfile = .ok storageUserId) :
    Selected binding uidStorage telegramStorage uidHasProfile telegramHasProfile storageUserId := by
  cases uidStorage with
  | some first =>
    simp only [selectIdentityStorage] at ok
    split at ok
    · cases ok
    rename_i agree
    split at ok
    · cases ok
    rename_i telegram
    cases ok
    refine ⟨by simp, ?_, by simp, ?_, Or.inl rfl⟩
    · intro found same
      simpa [same] using agree
    · intro held _
      have same : binding.telegramAlias = storageUserId := by simpa [held] using telegram
      exact same.symm
  | none =>
    cases telegramStorage with
    | some second =>
      simp only [selectIdentityStorage] at ok
      split at ok
      · cases ok
      rename_i user
      cases ok
      refine ⟨by simp, by simp, ?_, by simp, Or.inr (Or.inl rfl)⟩
      intro held _
      have same : binding.userId = storageUserId := by simpa [held] using user
      exact same.symm
    | none =>
      simp only [selectIdentityStorage] at ok
      cases uidHasProfile <;> cases telegramHasProfile <;> simp at ok <;> subst ok <;>
        refine ⟨by simp, by simp, by simp, by simp, by simp⟩

theorem select_of_agree {uidStorage telegramStorage : Option String} {uidHasProfile telegramHasProfile : Bool}
    {storageUserId : String} (apart : binding.userId ≠ binding.telegramAlias)
    (user : ∀ found, uidStorage = some found → found = storageUserId)
    (telegram : ∀ found, telegramStorage = some found → found = storageUserId)
    (userProfile : uidHasProfile = true → storageUserId = binding.userId)
    (telegramProfile : telegramHasProfile = true → storageUserId = binding.telegramAlias)
    (absent : uidStorage = none → telegramStorage = none → uidHasProfile = false → telegramHasProfile = false →
      storageUserId = binding.userId) :
    selectIdentityStorage binding uidStorage telegramStorage uidHasProfile telegramHasProfile = .ok storageUserId := by
  cases uidStorage with
  | some first =>
    obtain rfl := user first rfl
    have agree : telegramStorage.any (· != first) = false := by
      cases telegramStorage with
      | none => rfl
      | some second => simp [telegram second rfl]
    simp only [selectIdentityStorage, agree, Bool.false_eq_true, if_false]
    rw [if_neg]
    cases telegramHasProfile with
    | false => simp
    | true => simp [← telegramProfile rfl]
  | none =>
    cases telegramStorage with
    | some second =>
      obtain rfl := telegram second rfl
      simp only [selectIdentityStorage]
      rw [if_neg]
      cases uidHasProfile with
      | false => simp
      | true => simp [← userProfile rfl]
    | none =>
      simp only [selectIdentityStorage]
      cases uidHasProfile with
      | true =>
        have here := userProfile rfl
        cases telegramHasProfile with
        | true => exact absurd (here.symm.trans (telegramProfile rfl)) apart
        | false => simp [here]
      | false =>
        cases telegramHasProfile with
        | true => simp [telegramProfile rfl]
        | false => simp [absent rfl rfl rfl rfl]

end Resolution

section Invariant

/-- What is known of the tables and of the call at each point. -/
def Fits (tables : Tables) : Phase → Prop
  | .read cid .. | .store cid .. => Clean cid
  | .userAlias binding => Proper binding
  | .telegramAlias binding uidStorage => Proper binding ∧ Reads tables binding uidStorage none false false
  | .userProfile binding uidStorage telegramStorage =>
    Proper binding ∧ Reads tables binding uidStorage telegramStorage false false
  | .telegramProfile binding uidStorage telegramStorage uidHasProfile =>
    Proper binding ∧ Reads tables binding uidStorage telegramStorage uidHasProfile false
  | .bind binding storageUserId => Proper binding ∧
      ∃ uidStorage telegramStorage uidHasProfile telegramHasProfile,
        Reads tables binding uidStorage telegramStorage uidHasProfile telegramHasProfile ∧
          selectIdentityStorage binding uidStorage telegramStorage uidHasProfile telegramHasProfile = .ok storageUserId
  | _ => True

/-- Every storage id is an alias of itself, a stored profile is not an alias of another, and the aliases are those of
the bindings made. -/
structure Inv (s : State) : Prop where
  self : ∀ {id storageUserId}, s.tables.storage id = some storageUserId →
    Clean storageUserId ∧ s.tables.storage storageUserId = some storageUserId
  stored : ∀ {cid}, s.tables.profileExists cid = true →
    Clean cid ∧ ∀ storageUserId, s.tables.storage cid = some storageUserId → storageUserId = cid
  bound : ∀ {record}, Commit.binding record ∈ s.log → (Clean record.userId ∧ Clean record.aliasUserId) ∧
    s.tables.storage record.userId = some record.storageUserId ∧
      s.tables.storage record.aliasUserId = some record.storageUserId
  logged : ∀ {id storageUserId}, s.tables.storage id = some storageUserId →
    ∃ record, Commit.binding record ∈ s.log ∧ record.storageUserId = storageUserId ∧
      (record.userId = id ∨ record.aliasUserId = id)
  calls : ∀ call ∈ s.calls, Fits s.tables call.2

variable {tables after : Tables} {s : State}

theorem Fits.grow {phase : Phase} (fits : Fits tables phase) (grown : Extends tables after) : Fits after phase := by
  cases phase with
  | read | store | userAlias | lookUp | lookedUp | resolve => exact fits
  | telegramAlias | userProfile | telegramProfile => exact ⟨fits.1, fits.2.grow grown⟩
  | bind binding storageUserId =>
    obtain ⟨proper, uidStorage, telegramStorage, uidHasProfile, telegramHasProfile, reads, chosen⟩ := fits
    exact ⟨proper, uidStorage, telegramStorage, uidHasProfile, telegramHasProfile, reads.grow grown, chosen⟩

theorem Inv.clean_resolve (inv : Inv s) {id : String} (nonempty : ¬ (s.tables.resolveCustomerId id).isEmpty = true) :
    Clean (s.tables.resolveCustomerId id) := by
  simp only [Tables.resolveCustomerId] at nonempty ⊢
  split
  · rename_i empty
    simp [empty] at nonempty
  · rename_i filled
    cases found : s.tables.storage (strip id) with
    | none => exact clean_strip filled
    | some storageUserId => exact (inv.self found).1

theorem profileExists_iff_mem {cid : String} :
    tables.profileExists cid = true ↔ ∃ row ∈ tables.profiles, row.customerId = cid := by
  simp [Tables.profileExists, Tables.profile, List.find?_isSome]

theorem Inv.sound (inv : Inv s) : Sound s where
  idempotent := by
    intro id
    cases empty : (s.tables.resolveCustomerId id).isEmpty with
    | true =>
      have none : s.tables.resolveCustomerId id = "" := by simpa using empty
      rw [none]
      rfl
    | false =>
      have clean : Clean (s.tables.resolveCustomerId id) := inv.clean_resolve (by simp [empty])
      rw [resolve_of_clean clean]
      cases found : s.tables.storage (s.tables.resolveCustomerId id) with
      | none => rfl
      | some storageUserId =>
        simp only [Tables.resolveCustomerId] at found ⊢
        split at found
        · rename_i blank
          simp only [blank, if_true]
          simp only [Tables.resolveCustomerId, blank, if_true] at clean
          exact absurd clean.2 (by decide)
        · rename_i filled
          simp only [filled, Option.getD_some]
          cases direct : s.tables.storage (strip id) with
          | none =>
            rw [direct, Option.getD_none, direct] at found
            cases found
          | some target =>
            rw [direct, Option.getD_some, (inv.self direct).2] at found
            exact (Option.some.inj found).symm
  bound := by
    intro record member
    obtain ⟨⟨user, telegram⟩, first, second⟩ := inv.bound member
    rw [resolve_of_clean user, resolve_of_clean telegram, first, second]
    exact ⟨rfl, rfl⟩
  stored := by
    intro row member
    obtain ⟨clean, self⟩ := inv.stored (profileExists_iff_mem.mpr ⟨row, member, rfl⟩)
    rw [resolve_of_clean clean]
    cases found : s.tables.storage row.customerId with
    | none => rfl
    | some storageUserId => exact self storageUserId found

/-- A call that goes on to a phase it fits, or ends, keeps the invariant. -/
theorem Inv.end (inv : Inv s) (id : Nat) : Inv (s.end id) where
  self := inv.self
  stored := inv.stored
  bound := inv.bound
  logged := inv.logged
  calls := fun call member => inv.calls call (Calls.of_mem_drop member)

theorem Inv.goOn (inv : Inv s) (id : Nat) {phase : Phase} (fits : Fits s.tables phase) : Inv (s.goOn id phase) where
  self := inv.self
  stored := inv.stored
  bound := inv.bound
  logged := inv.logged
  calls := by
    intro call member
    rcases Calls.of_mem_put member with rfl | other
    · exact fits
    · exact inv.calls call other

end Invariant

section Writes

variable {s : State} {binding : Binding} {storageUserId : String}

theorem profileExists_storeProfile (tables : Tables) (row : CustomerProfile) (cid : String) :
    (tables.storeProfile row).profileExists cid = (cid == row.customerId || tables.profileExists cid) := by
  by_cases here : cid = row.customerId
  · subst here
    simp [Tables.profileExists]
  · simp [Tables.profileExists, profile_storeProfile_of_ne tables here, here]

theorem resolve_store (s : State) (row : CustomerProfile) (updates : Fields) (id : String) :
    (s.store row updates).tables.resolveCustomerId id = s.tables.resolveCustomerId id := rfl

theorem Inv.store (inv : Inv s) {row : CustomerProfile} (clean : Clean row.customerId)
    (current : s.tables.resolveCustomerId row.customerId = row.customerId) (updates : Fields) :
    Inv (s.store row updates) := by
  have grown : Extends s.tables (s.tables.storeProfile row) :=
    ⟨fun found => found, fun found => by rw [profileExists_storeProfile, found, Bool.or_true]⟩
  refine ⟨inv.self, ?_, ?_, ?_, fun call member => (inv.calls call member).grow grown⟩
  · intro cid exists'
    rw [State.store, profileExists_storeProfile, Bool.or_eq_true, beq_iff_eq] at exists'
    rcases exists' with rfl | before
    · refine ⟨clean, fun storageUserId found => ?_⟩
      have held : s.tables.storage row.customerId = some storageUserId := found
      rw [resolve_of_clean clean, held, Option.getD_some] at current
      exact current
    · exact inv.stored before
  · intro record member
    exact inv.bound (by simpa [State.store] using member)
  · intro id storageUserId found
    obtain ⟨record, member, rest⟩ := inv.logged found
    exact ⟨record, List.mem_cons_of_mem _ member, rest⟩

theorem store_current {row : CustomerProfile} {updates : Fields} (sound : Sound (s.store row updates)) :
    s.tables.resolveCustomerId row.customerId = row.customerId := by
  obtain ⟨held, member, same⟩ := profileExists_iff_mem.mp
    (show (s.store row updates).tables.profileExists row.customerId = true by
      rw [State.store, profileExists_storeProfile, beq_self_eq_true, Bool.true_or])
  have settled := sound.stored held member
  rwa [same] at settled

theorem storage_bind (s : State) (binding : Binding) (storageUserId id : String) :
    (s.bind binding storageUserId).tables.storage id =
      if id = binding.telegramAlias ∨ id = binding.userId then some storageUserId else s.tables.storage id := by
  by_cases second : id = binding.telegramAlias
  · subst second
    rw [if_pos (Or.inl rfl)]
    exact storage_upsertIdentityAlias_self _ (binding.telegramRow storageUserId)
  · have later : (s.bind binding storageUserId).tables.storage id =
        (s.tables.upsertIdentityAlias (binding.genericRow storageUserId)).storage id :=
      storage_upsertIdentityAlias_of_ne _ second
    by_cases first : id = binding.userId
    · subst first
      rw [later, if_pos (Or.inr rfl)]
      exact storage_upsertIdentityAlias_self s.tables (binding.genericRow storageUserId)
    · rw [later, if_neg (by simp [first, second])]
      exact storage_upsertIdentityAlias_of_ne s.tables first

theorem profileExists_bind (s : State) (binding : Binding) (storageUserId id : String) :
    (s.bind binding storageUserId).tables.profileExists id = s.tables.profileExists id := rfl

theorem bind_extends (current : select s.tables binding = .ok storageUserId) :
    Extends s.tables (s.bind binding storageUserId).tables := by
  have selected := selected_of_ok current
  refine ⟨?_, fun found => found⟩
  intro id held found
  rw [storage_bind]
  split
  · rename_i here
    rcases here with rfl | rfl
    · rw [selected.telegram held found]
    · rw [selected.user held found]
  · exact found

/-- The storage id of a binding is clean and becomes an alias of itself. -/
theorem bind_self (inv : Inv s) (proper : Proper binding) (current : select s.tables binding = .ok storageUserId) :
    Clean storageUserId ∧ (s.bind binding storageUserId).tables.storage storageUserId = some storageUserId := by
  have grown := bind_extends current
  rcases (selected_of_ok current).origin with user | telegram | rfl | rfl
  · exact ⟨(inv.self user).1, grown.storage (inv.self user).2⟩
  · exact ⟨(inv.self telegram).1, grown.storage (inv.self telegram).2⟩
  · exact ⟨proper.user, by simp [storage_bind]⟩
  · exact ⟨proper.telegram, by simp [storage_bind]⟩

theorem bind_profile {id : String} (inv : Inv s) (held : s.tables.profileExists id = true)
    (fresh : s.tables.storage id = none → storageUserId = id)
    (same : ∀ found, s.tables.storage id = some found → found = storageUserId) : storageUserId = id := by
  cases found : s.tables.storage id with
  | none => exact fresh found
  | some other =>
    rw [← same other found]
    exact (inv.stored held).2 other found

theorem Inv.bind (inv : Inv s) (proper : Proper binding) (current : select s.tables binding = .ok storageUserId) :
    Inv (s.bind binding storageUserId) := by
  have grown := bind_extends current
  have selected := selected_of_ok current
  refine ⟨?_, ?_, ?_, ?_, fun call member => (inv.calls call member).grow grown⟩
  · intro id held found
    rw [storage_bind] at found
    split at found
    · cases found
      exact bind_self inv proper current
    · exact ⟨(inv.self found).1, grown.storage (inv.self found).2⟩
  · intro cid held
    have before : s.tables.profileExists cid = true := held
    refine ⟨(inv.stored before).1, ?_⟩
    intro found stored
    rw [storage_bind] at stored
    split at stored
    · rename_i here
      cases stored
      rcases here with rfl | rfl
      · exact bind_profile inv before (selected.telegramProfile before) selected.telegram
      · exact bind_profile inv before (selected.userProfile before) selected.user
    · exact (inv.stored before).2 found stored
  · intro record member
    rcases List.mem_cons.mp member with same | earlier
    · cases same
      exact ⟨⟨proper.user, proper.telegram⟩, by simp [storage_bind, Binding.record], by simp [storage_bind, Binding.record]⟩
    · obtain ⟨clean, user, telegram⟩ := inv.bound earlier
      exact ⟨clean, grown.storage user, grown.storage telegram⟩
  · intro id held found
    rw [storage_bind] at found
    split at found
    · rename_i here
      cases found
      exact ⟨binding.record storageUserId, List.mem_cons_self, rfl, here.symm.imp Eq.symm Eq.symm⟩
    · obtain ⟨record, member, rest⟩ := inv.logged found
      exact ⟨record, List.mem_cons_of_mem _ member, rest⟩

/-- An id that was bound before is bound to the same storage id. -/
theorem bind_rebinds (inv : Inv s) (sound : Sound (s.bind binding storageUserId)) {id : String} (clean : Clean id)
    (written : (s.bind binding storageUserId).tables.storage id = some storageUserId) :
    ∀ found, s.tables.storage id = some found → found = storageUserId := by
  intro found held
  have resolves : (s.bind binding storageUserId).tables.resolveCustomerId id = storageUserId := by
    rw [resolve_of_clean clean, written, Option.getD_some]
  obtain ⟨record, member, rfl, here⟩ := inv.logged held
  have kept := sound.bound record (List.mem_cons_of_mem _ member)
  rcases here with rfl | rfl
  · exact kept.1.symm.trans resolves
  · exact kept.2.symm.trans resolves

theorem bind_owner (sound : Sound (s.bind binding storageUserId)) {id : String} (clean : Clean id)
    (written : (s.bind binding storageUserId).tables.storage id = some storageUserId)
    (held : s.tables.profileExists id = true) : storageUserId = id := by
  obtain ⟨row, member, rfl⟩ := profileExists_iff_mem.mp held
  have settled := sound.stored row member
  rwa [resolve_of_clean clean, written, Option.getD_some] at settled

theorem bind_current (inv : Inv s) (fits : Fits s.tables (.bind binding storageUserId))
    (sound : Sound (s.bind binding storageUserId)) : select s.tables binding = .ok storageUserId := by
  obtain ⟨proper, uidStorage, telegramStorage, uidHasProfile, telegramHasProfile, reads, chosen⟩ := fits
  have user : (s.bind binding storageUserId).tables.storage binding.userId = some storageUserId := by simp [storage_bind]
  have telegram : (s.bind binding storageUserId).tables.storage binding.telegramAlias = some storageUserId := by
    simp [storage_bind]
  refine select_of_agree proper.apart (bind_rebinds inv sound proper.user user)
    (bind_rebinds inv sound proper.telegram telegram) (bind_owner sound proper.user user)
    (bind_owner sound proper.telegram telegram) ?_
  -- with nothing stored now, nothing was read
  intro noUser noTelegram noUserProfile noTelegramProfile
  obtain rfl : uidStorage = none := by
    cases uidStorage with
    | none => rfl
    | some found => cases noUser.symm.trans (reads.user rfl)
  obtain rfl : telegramStorage = none := by
    cases telegramStorage with
    | none => rfl
    | some found => cases noTelegram.symm.trans (reads.telegram rfl)
  obtain rfl : uidHasProfile = false := by
    cases uidHasProfile with
    | false => rfl
    | true => cases noUserProfile.symm.trans (reads.userProfile rfl)
  obtain rfl : telegramHasProfile = false := by
    cases telegramHasProfile with
    | false => rfl
    | true => cases noTelegramProfile.symm.trans (reads.telegramProfile rfl)
  exact (Except.ok.inj chosen).symm

end Writes

section Steps

variable {s : State}

theorem fits_of_phase (inv : Inv s) {id : Nat} {phase : Phase} (found : s.phase id = some phase) :
    Fits s.tables phase :=
  inv.calls (id, phase) (Calls.mem_of_get found)

theorem prepare_fits {decimal : Char → Option Nat} {now : String} {request : Request} {phase : Phase} (tables : Tables)
    (accepted : request.prepare decimal now = .ok (some phase)) : Fits tables phase := by
  cases request with
  | updateProfile customerId updates source =>
    simp only [Request.prepare] at accepted
    cases checked : checkedUpdates decimal updates <;> rw [checked] at accepted <;> cases accepted
    trivial
  | setDirective customerId directive source =>
    simp only [Request.prepare] at accepted
    split at accepted <;> cases accepted
    trivial
  | clearDirective customerId source =>
    simp only [Request.prepare] at accepted
    split at accepted <;> cases accepted
    trivial
  | setUtcOffset customerId utcOffset source =>
    simp only [Request.prepare] at accepted
    cases checked : normalizeUtcOffset decimal utcOffset <;> rw [checked] at accepted <;> cases accepted
    trivial
  | bindTelegramUserId userId telegramUserId =>
    simp only [Request.prepare] at accepted
    split at accepted
    · cases accepted
    rename_i user
    split at accepted
    · cases accepted
    rename_i telegram
    split at accepted
    · cases accepted
    rename_i apart
    cases accepted
    exact ⟨clean_strip user, clean_telegramPrefixed (clean_strip telegram), apart⟩

theorem perform_inv (inv : Inv s) (id : Nat) (now : String) {phase : Phase} (fits : Fits s.tables phase)
    (current : Current s.tables phase) : Inv (s.perform id now phase) := by
  cases phase with
  | lookUp upsert => exact inv.goOn id trivial
  | lookedUp cid upsert =>
    simp only [State.perform]
    split
    · exact inv.end id
    · exact inv.goOn id trivial
  | resolve upsert =>
    simp only [State.perform]
    split
    · exact inv.end id
    · rename_i nonempty
      exact inv.goOn id (inv.clean_resolve nonempty)
  | read cid updatedAt upsert => exact inv.goOn id fits
  | store cid updatedAt existing upsert =>
    have clean : Clean (upsert.row cid updatedAt existing).customerId := fits
    exact (inv.store clean current upsert.updates).end id
  | userAlias binding => exact inv.goOn id ⟨fits, fun found => found, nofun, nofun, nofun⟩
  | telegramAlias binding uidStorage =>
    exact inv.goOn id ⟨fits.1, fits.2.user, fun found => found, nofun, nofun⟩
  | userProfile binding uidStorage telegramStorage =>
    exact inv.goOn id ⟨fits.1, fits.2.user, fits.2.telegram, fun found => found, nofun⟩
  | telegramProfile binding uidStorage telegramStorage uidHasProfile =>
    simp only [State.perform]
    split
    · rename_i chosen
      exact inv.goOn id ⟨fits.1, _, _, _, _, ⟨fits.2.user, fits.2.telegram, fits.2.userProfile, fun found => found⟩, chosen⟩
    · exact inv.end id
  | bind binding storageUserId => exact (inv.bind fits.1 current).end id

theorem Sound.of_end {id : Nat} (sound : Sound (s.end id)) : Sound s := ⟨sound.1, sound.2, sound.3⟩

theorem perform_current (inv : Inv s) {id : Nat} {now : String} {phase : Phase} (fits : Fits s.tables phase)
    (sound : Sound (s.perform id now phase)) : Current s.tables phase := by
  cases phase with
  | store cid updatedAt existing upsert =>
    have stored : Sound (s.store (upsert.row cid updatedAt existing) upsert.updates) := sound.of_end
    have owned := store_current stored
    exact owned
  | bind binding storageUserId => exact bind_current inv fits sound.of_end
  | _ => trivial

variable (decimal : Char → Option Nat)

theorem step_inv (inv : Inv s) (event : Event) (current : WritesCurrent s event) : Inv (step decimal s event) := by
  cases event with
  | begin id request now =>
    simp only [step]
    split
    · rename_i accepted
      exact inv.goOn id (prepare_fits s.tables accepted)
    · exact inv
  | advance id now =>
    simp only [step]
    split
    · rename_i phase found
      exact perform_inv inv id now (fits_of_phase inv found) (current phase found)
    · exact inv
  | fail id => exact inv.end id

theorem step_current (inv : Inv s) (event : Event) (sound : Sound (step decimal s event)) : WritesCurrent s event := by
  cases event with
  | begin | fail => trivial
  | advance id now =>
    intro phase found
    simp only [step, found] at sound
    exact perform_current inv (fits_of_phase inv found) sound

theorem start_inv : Inv (start ⟨[], []⟩) := ⟨nofun, nofun, nofun, nofun, nofun⟩

end Steps

section Runs

variable (decimal : Char → Option Nat)

/-- From an empty store on, every state of a run is sound exactly when each profile write still owns the id it resolved
and each binding still selects the storage id it writes. -/
theorem identities_sound_iff (events : List Event) :
    (∀ n, Sound (Run.exec (step decimal) (start ⟨[], []⟩) (events.take n))) ↔
      Run.Guarded (step decimal) WritesCurrent (start ⟨[], []⟩) events := by
  have based : Run.Guarded (step decimal) (fun _ _ => True) (start ⟨[], []⟩) events :=
    Run.Guarded.of_forall (fun _ _ => trivial) _ _
  have holds : ∀ s, Inv s → Sound s := fun _ inv => inv.sound
  exact Run.prefixes_iff_guarded holds (fun _ event inv _ current => step_inv decimal inv event current)
    (fun _ event inv _ sound => step_current decimal inv event sound) start_inv based

/-- A directive for an unbound chat is on its way to the table when the chat is bound to another id. -/
def overtakenWrite : List Event :=
  [.begin 1 (.setDirective "telegram_5" "be brief" "agent") "t1", .advance 1 "t1",
    .begin 2 (.bindTelegramUserId "ana" "5") "t2", .advance 2 "t2", .advance 2 "t2", .advance 2 "t2", .advance 2 "t2",
    .advance 2 "t2", .advance 1 "t3", .advance 1 "t3"]

/-- The row is stored under an id that resolves to another one. -/
theorem overtaken_write_orphans_profile :
    ¬ ∀ (decimal : Char → Option Nat) (events : List Event) (n : Nat),
      Sound (Run.exec (step decimal) (start ⟨[], []⟩) (events.take n)) := by
  intro sound
  have lost := (sound (fun _ => none) overtakenWrite 10).stored
  revert lost
  decide +kernel

end Runs

end OpenTulpa.Context.Identities
