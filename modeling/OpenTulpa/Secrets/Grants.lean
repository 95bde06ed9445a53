import OpenTulpa.Secrets.Vault

/-! Secret grants are one-time and bound to a revision, over every sequence of vault operations.
A grant is redeemed at most once, while its revision is the current active one, for what was
written under that revision; a rotation or a revocation ends every earlier grant of its secret. -/

namespace OpenTulpa.Secrets.Grants

open Library Outcome Vault

/-- The revisions of a secret are numbered from one and its one reference names the last of them. -/
structure Filed (vault : SecretVault) : Prop where
  numbered : ∀ key, (vault.revisionsOf key).map SecretRevision.revision =
    List.range' 1 (vault.revisionsOf key).length
  single : (vault.current.map CurrentRef.key).Nodup
  latest : ∀ ref ∈ vault.current, ref.revision = (vault.revisionsOf ref.key).length
  referred : ∀ row ∈ vault.revisions, ∃ ref ∈ vault.current, ref.key = row.key

section Filed

variable {vault stored : SecretVault} {row handle : SecretRevision} {key : SecretKey}

theorem mem_revisionsOf : row ∈ vault.revisionsOf key ↔ row ∈ vault.revisions ∧ row.key = key := by
  simp [SecretVault.revisionsOf]

theorem revisionsOf_append (appended : stored.revisions = vault.revisions ++ [row]) (key : SecretKey) :
    stored.revisionsOf key = vault.revisionsOf key ++ if row.key = key then [row] else [] := by
  by_cases same : row.key = key <;> simp [SecretVault.revisionsOf, appended, List.filter_append, same]

theorem revision_eq_find (vault : SecretVault) (key : SecretKey) (revision : Nat) :
    vault.revision key revision = (vault.revisionsOf key).find? fun row => row.revision == revision := by
  simp only [SecretVault.revision, SecretVault.revisionsOf, List.find?_filter, Bool.decide_and, Bool.decide_eq_true]

theorem currentRef_mem {ref : CurrentRef} (found : vault.currentRef key = some ref) :
    ref ∈ vault.current ∧ ref.key = key :=
  ⟨List.mem_of_find?_eq_some found, by simpa using List.find?_some found⟩

theorem Filed.currentRow (filed : Filed vault) (key : SecretKey) :
    vault.currentRow key = (vault.revisionsOf key).getLast? := by
  rw [SecretVault.currentRow]
  cases found : vault.currentRef key with
  | none =>
    have empty : vault.revisionsOf key = [] := by
      rw [List.eq_nil_iff_forall_not_mem]
      intro row member
      obtain ⟨inside, named⟩ := mem_revisionsOf.mp member
      obtain ⟨ref, present, same⟩ := filed.referred row inside
      exact List.find?_eq_none.mp found ref present (by simp [same, named])
    rw [empty]
    rfl
  | some ref =>
    obtain ⟨inside, named⟩ := currentRef_mem found
    have last := filed.latest ref inside
    rw [named] at last
    rw [Option.bind_some, revision_eq_find, last]
    exact Rows.find_of_numbered (filed.numbered key)

theorem Filed.current (filed : Filed vault) (found : vault.currentRow key = some handle) :
    handle ∈ vault.revisions ∧ handle.key = key ∧ handle.revision = (vault.revisionsOf key).length := by
  rw [filed.currentRow] at found
  obtain ⟨inside, named⟩ := mem_revisionsOf.mp (List.mem_of_getLast? found)
  exact ⟨inside, named, Rows.rank_getLast (filed.numbered key) found⟩

theorem filed_empty : Filed .empty where
  numbered := fun _ => rfl
  single := by simp [SecretVault.empty]
  latest := by simp [SecretVault.empty]
  referred := by simp [SecretVault.empty]

/-- What an operation does that adds a revision to a secret. -/
structure Extended (vault stored : SecretVault) (row : SecretRevision) : Prop where
  revisions : stored.revisions = vault.revisions ++ [row]
  grants : stored.grants = vault.grants
  filed : Filed stored
  next : row.revision = (vault.revisionsOf row.key).length + 1
  live : ∀ last ∈ (vault.revisionsOf row.key).getLast?, last.state ≠ .revoked

theorem numbered_of_append (filed : Filed vault) (appended : stored.revisions = vault.revisions ++ [row])
    (next : row.revision = (vault.revisionsOf row.key).length + 1) (key : SecretKey) :
    (stored.revisionsOf key).map SecretRevision.revision = List.range' 1 (stored.revisionsOf key).length := by
  rw [revisionsOf_append appended]
  by_cases here : row.key = key
  · subst here
    rw [if_pos rfl]
    exact Rows.numbered_append (filed.numbered row.key) next
  · simpa [here] using filed.numbered key

theorem insertRevision_eq (done : vault.insertRevision row = .ok stored) :
    stored = { vault with revisions := vault.revisions ++ [row] } := by
  unfold SecretVault.insertRevision at done
  split at done
  · cases done
  · cases done
    rfl

theorem succeed_rows {expected : Nat} {updatedBy : String} (done : vault.succeed row expected updatedBy = .ok stored) :
    stored.revisions = vault.revisions ++ [row] ∧ stored.grants = vault.grants ∧
      ∃ advance : CurrentRef → CurrentRef, (∀ ref, (advance ref).key = ref.key) ∧
        (∀ ref, (advance ref).revision = row.revision) ∧
        stored.current = Rows.update (fun ref => ref.key == row.key && ref.revision == expected) advance vault.current := by
  obtain ⟨inserted, insertion, moved⟩ := bind_eq_ok done
  obtain rfl := insertRevision_eq insertion
  unfold SecretVault.advanceCurrentRef at moved
  simp only at moved
  split at moved
  · cases moved
  · cases moved
    refine ⟨rfl, rfl, _, ?_, ?_, rfl⟩
    · exact fun _ => rfl
    · exact fun _ => rfl

theorem succeed_filed {advance : CurrentRef → CurrentRef} (filed : Filed vault)
    (found : vault.currentRow row.key = some handle) (next : row.revision = handle.revision + 1)
    (revisions : stored.revisions = vault.revisions ++ [row]) (kept : ∀ ref, (advance ref).key = ref.key)
    (moved : ∀ ref, (advance ref).revision = row.revision)
    (current : stored.current =
      Rows.update (fun ref => ref.key == row.key && ref.revision == handle.revision) advance vault.current) :
    Filed stored := by
  obtain ⟨inside, named, number⟩ := filed.current found
  refine ⟨numbered_of_append filed revisions (number ▸ next), ?_, ?_, ?_⟩
  · rw [current, Rows.map_update CurrentRef.key fun ref _ => kept ref]
    exact filed.single
  · intro ref member
    rw [revisionsOf_append revisions]
    rw [current] at member
    rcases Rows.mem_update.mp member with ⟨old, _, chosen, rfl⟩ | ⟨before, missed⟩
    · simp only [Bool.and_eq_true, beq_iff_eq] at chosen
      simp [kept, moved, chosen.1, next, number]
    · have last := filed.latest ref before
      have apart : row.key ≠ ref.key := by
        intro same
        rw [← same, ← number] at last
        simp [same, last] at missed
      simpa [apart] using last
  · intro other member
    have known : ∃ ref ∈ vault.current, ref.key = other.key := by
      rw [revisions, List.mem_append, List.mem_singleton] at member
      rcases member with before | rfl
      · exact filed.referred other before
      · rw [← named]
        exact filed.referred handle inside
    obtain ⟨ref, present, same⟩ := known
    rw [current]
    refine ⟨_, List.mem_map_of_mem present, ?_⟩
    split
    · rw [kept, same]
    · exact same

theorem succeed_extended {updatedBy : String} (filed : Filed vault) (found : vault.currentRow row.key = some handle)
    (live : handle.state ≠ .revoked) (next : row.revision = handle.revision + 1)
    (done : vault.succeed row handle.revision updatedBy = .ok stored) : Extended vault stored row := by
  obtain ⟨revisions, grants, advance, kept, moved, current⟩ := succeed_rows done
  refine ⟨revisions, grants, succeed_filed filed found next revisions kept moved current, ?_, ?_⟩
  · rw [next, (filed.current found).2.2]
  · intro last top
    rw [← filed.currentRow, found] at top
    obtain rfl : handle = last := by simpa using top
    exact live

end Filed

section Operations

variable {cipher : HostKeySecretCipher} {hash : String → String} {vault stored : SecretVault} {row : SecretRevision}
  {now : Int}

theorem currentRef_none (filed : Filed vault) {key : SecretKey} (absent : vault.currentRef key = none) :
    vault.revisionsOf key = [] := by
  have none : vault.currentRow key = none := by rw [SecretVault.currentRow, absent, Option.bind_none]
  rw [filed.currentRow] at none
  exact List.getLast?_eq_none_iff.mp none

theorem createPending_extended {call : PendingCall} {fresh : String} (filed : Filed vault)
    (done : createPending vault call fresh now = .ok (stored, row)) :
    Extended vault stored row ∧ row.state = .pending := by
  obtain ⟨scopes, _, rest⟩ := bind_eq_ok done
  simp only at rest
  split at rest
  · split at rest
    · cases rest
    rename_i tenantId id name scopes createdBy _ _ _ _ _ taken
    obtain ⟨inserted, insertion, same⟩ := bind_eq_ok rest
    cases same
    obtain rfl := insertRevision_eq insertion
    have absent : vault.currentRef (tenantId, id) = none := by simpa using taken
    have empty := currentRef_none filed absent
    have next : 1 = (vault.revisionsOf (tenantId, id)).length + 1 := by simp [empty]
    refine ⟨⟨rfl, rfl, ⟨numbered_of_append filed rfl next, ?_, ?_, ?_⟩, next, ?_⟩, rfl⟩
    · rw [List.map_append, List.nodup_append]
      refine ⟨filed.single, by simp, ?_⟩
      rintro key present _ last rfl
      obtain ⟨ref, member, named⟩ := List.mem_map.mp present
      obtain rfl : key = (tenantId, id) := List.mem_singleton.mp last
      exact List.find?_eq_none.mp absent ref member (by simp [named])
    · intro ref member
      rw [revisionsOf_append rfl]
      rcases List.mem_append.mp member with before | new
      · have apart : (tenantId, id) ≠ ref.key := by
          intro same
          exact List.find?_eq_none.mp absent ref before (by simp [same])
        simpa [SecretRevision.key, apart] using filed.latest ref before
      · rw [List.mem_singleton.mp new]
        simp [SecretRevision.key, CurrentRef.key, empty]
    · intro other member
      rcases List.mem_append.mp member with before | new
      · obtain ⟨ref, present, same⟩ := filed.referred other before
        exact ⟨ref, List.mem_append_left _ present, same⟩
      · rw [List.mem_singleton.mp new]
        exact ⟨_, List.mem_append_right _ (List.mem_singleton_self _), rfl⟩
    · intro last top
      simp [SecretRevision.key, empty] at top
  · cases rest

theorem expectCurrent_row {key : SecretKey} {expected : Int} {handle : SecretRevision}
    (done : vault.expectCurrent key expected = .ok handle) : vault.currentRow key = some handle := by
  unfold SecretVault.expectCurrent at done
  split at done
  · cases done
  · rename_i found
    split at done
    · cases done
    · cases done
      exact found

theorem cleanValue_eq {value : String} {plaintext : ByteArray} (done : cleanValue value = .ok plaintext) :
    plaintext = value.toUTF8 := by
  unfold cleanValue at done
  split at done
  · cases done
  split at done
  · cases done
  · cases done
    rfl

/-- The row holds the value under its own associated data. -/
def Sealed (cipher : HostKeySecretCipher) (row : SecretRevision) (value : String) : Prop :=
  ∃ nonce, row.encrypted = some (cipher.encrypt nonce value.toUTF8 (associatedData row.key row.revision row.name))

theorem Sealed.decrypt {value : String} (holds : Sealed cipher row value) : decryptRow cipher row.key row = some value := by
  obtain ⟨nonce, encrypted⟩ := holds
  simp only [decryptRow, encrypted, Option.bind_eq_bind, Option.bind_some, cipher.inverts]
  rw [String.fromUTF8?, String.toUTF8_eq_toByteArray, dif_pos value.isValidUTF8]
  rfl

theorem writeActiveRevision_extended {call : WriteCall} {expected : SecretState} {scopes : Option (List String)}
    {nonce : ByteArray} (filed : Filed vault) (usable : expected ≠ .revoked)
    (done : writeActiveRevision cipher vault call expected scopes nonce now = .ok (stored, row)) :
    Extended vault stored row ∧ row.state = .active ∧ row.key = call.key ∧ Sealed cipher row call.value := by
  obtain ⟨plaintext, cleaned, rest⟩ := bind_eq_ok done
  obtain rfl := cleanValue_eq cleaned
  obtain ⟨handle, located, rest⟩ := bind_eq_ok rest
  have found := expectCurrent_row located
  split at rest
  · cases rest
  rename_i state
  simp only at rest
  split at rest
  · obtain ⟨_, moved, same⟩ := bind_eq_ok rest
    cases same
    have named := (filed.current found).2.1
    have live : handle.state ≠ .revoked := not_not.mp state ▸ usable
    refine ⟨succeed_extended filed (named.symm ▸ found) live rfl moved, rfl, named, nonce, rfl⟩
  · cases rest

theorem revoke_extended {key : SecretKey} {expected : Int} {updatedBy : String} (filed : Filed vault)
    (done : revoke vault key expected updatedBy now = .ok (stored, row)) :
    row.state = .revoked ∧ row.key = key ∧
      ((stored = vault ∧ vault.currentRow key = some row) ∨ Extended vault stored row) := by
  obtain ⟨handle, located, rest⟩ := bind_eq_ok done
  have found := expectCurrent_row located
  have named := (filed.current found).2.1
  split at rest
  · rename_i ended
    cases rest
    exact ⟨ended, named, Or.inl ⟨rfl, found⟩⟩
  rename_i live
  split at rest
  · cases rest
  · obtain ⟨_, moved, same⟩ := bind_eq_ok rest
    cases same
    exact ⟨rfl, named, Or.inr (succeed_extended filed (named.symm ▸ found) live rfl moved)⟩

/-- What `issue_grant` does: it adds a fresh grant on the current active revision of a secret. -/
structure Issued (vault stored : SecretVault) (grant : SecretGrant) : Prop where
  revisions : stored.revisions = vault.revisions
  current : stored.current = vault.current
  grants : stored.grants = vault.grants ++ [grant]
  unused : grant.consumedAt = none
  fresh : grant.id ∉ vault.grants.map SecretGrant.id
  unguessed : grant.tokenHash ∉ vault.grants.map SecretGrant.tokenHash
  bound : ∃ row, vault.currentRow grant.key = some row ∧ row.state = .active ∧ row.revision = grant.secretRevision

theorem issueGrant_issued {call : GrantCall} {grantId rawToken : String} {grant : SecretGrant} (filed : Filed vault)
    (done : issueGrant hash vault call grantId rawToken now = .ok (stored, grant)) : Issued vault stored grant := by
  obtain ⟨requested, _, rest⟩ := bind_eq_ok done
  split at rest
  · cases rest
  split at rest
  · cases rest
  rename_i handle found
  split at rest
  · cases rest
  rename_i active
  split at rest
  · cases rest
  split at rest
  · simp only at rest
    split at rest
    · cases rest
    · rename_i collision
      cases rest
      have named : handle.key = (call.tenantId, call.secretId) := (filed.current found).2.1
      refine ⟨rfl, rfl, rfl, rfl, ?_, ?_, handle, ?_, not_not.mp active, rfl⟩
      · intro member
        obtain ⟨other, present, same⟩ := List.mem_map.mp member
        exact collision (List.any_eq_true.mpr ⟨other, present, by simp [same]⟩)
      · intro member
        obtain ⟨other, present, same⟩ := List.mem_map.mp member
        exact collision (List.any_eq_true.mpr ⟨other, present, by simp [same]⟩)
      · change vault.currentRow handle.key = some handle
        rw [named, found]
  · cases rest

/-- The grant and the revision that a redemption rests on. -/
structure Redeems (cipher : HostKeySecretCipher) (vault : SecretVault) (tokenHash capabilityId scope : String)
    (now : Int) (material : SecretMaterial) (grant : SecretGrant) (row : SecretRevision) : Prop where
  grant_mem : grant ∈ vault.grants
  token : grant.tokenHash = tokenHash
  unused : grant.consumedAt = none
  unexpired : now < grant.expiresAt
  capability : grant.capabilityId = Text.strip capabilityId
  scope_mem : scope ∈ grant.scopes
  row_mem : row ∈ vault.revisions
  key : row.key = grant.key
  revision : row.revision = grant.secretRevision
  current : ∃ ref ∈ vault.current, ref.key = grant.key ∧ ref.revision = grant.secretRevision
  active : row.state = .active
  value : decryptRow cipher grant.key row = some material.value
  material : material.grantId = grant.id ∧ material.secretId = grant.secretId ∧ material.name = row.name ∧
    material.scope = scope

theorem granted_mem {token : String} {grant : SecretGrant} {ref : CurrentRef}
    (found : vault.granted hash token = some (grant, row, ref)) :
    grant ∈ vault.grants ∧ grant.tokenHash = hash token ∧ row ∈ vault.revisions ∧ row.key = grant.key ∧
      row.revision = grant.secretRevision ∧ ref ∈ vault.current ∧ ref.key = grant.key := by
  simp only [SecretVault.granted, Option.bind_eq_bind, Option.bind_eq_some_iff, Option.pure_def, Option.some.injEq,
    Prod.mk.injEq] at found
  obtain ⟨candidate, chosen, _, located, _, referred, same, rfl, rfl⟩ := found
  subst same
  have token : candidate.tokenHash = hash token := by simpa using List.find?_some chosen
  have selected := List.find?_some located
  simp only [Bool.and_eq_true, beq_iff_eq] at selected
  obtain ⟨inside, named⟩ := currentRef_mem referred
  exact ⟨List.mem_of_find?_eq_some chosen, token, List.mem_of_find?_eq_some located, selected.1, selected.2, inside, named⟩

theorem redeemGrant_redeems {token capabilityId scope : String} {material : SecretMaterial}
    (done : redeemGrant hash cipher vault token capabilityId scope now = .ok (stored, material)) :
    (∃ grant row, Redeems cipher vault (hash token) capabilityId scope now material grant row) ∧
      stored = { vault with
        grants := Rows.update (fun grant => grant.id == material.grantId && grant.consumedAt.isNone)
          (fun grant => { grant with consumedAt := some now }) vault.grants } := by
  unfold redeemGrant at done
  split at done
  · cases done
  rename_i grant row ref found
  obtain ⟨inside, hashed, stored, named, revision, referred, same⟩ := granted_mem found
  split at done
  · cases done
  rename_i unused
  split at done
  · cases done
  rename_i unexpired
  split at done
  · cases done
  rename_i capability
  split at done
  · cases done
  rename_i included
  split at done
  · cases done
  rename_i current
  split at done
  · cases done
  rename_i active
  split at done
  · cases done
  rename_i value plaintext
  obtain ⟨consumed, marked, equal⟩ := bind_eq_ok done
  cases equal
  unfold SecretVault.consume at marked
  simp only at marked
  split at marked
  · cases marked
  · cases marked
    refine ⟨⟨grant, row, inside, hashed, by simpa using unused, by omega, not_not.mp capability, not_not.mp included,
      stored, named, revision, ⟨ref, referred, same, not_not.mp current⟩, not_not.mp active, plaintext,
      rfl, rfl, rfl, rfl⟩, rfl⟩

end Operations

/-- The vault, and what its operations returned so far: the revisions with the values that were
written as them, the grants as they were issued, and the released material. -/
structure State where
  vault : SecretVault
  written : List (SecretRevision × String)
  issued : List SecretGrant
  redeemed : List SecretMaterial
  deriving DecidableEq

def State.empty : State := ⟨.empty, [], [], []⟩

inductive Op where
  | createPending (call : PendingCall) (fresh : String) (now : Int)
  | fulfill (call : WriteCall) (nonce : ByteArray) (now : Int)
  | rotate (call : WriteCall) (nonce : ByteArray) (now : Int)
  | revoke (key : SecretKey) (expectedRevision : Int) (updatedBy : String) (now : Int)
  | issueGrant (call : GrantCall) (grantId rawToken : String) (now : Int)
  | redeemGrant (token capabilityId scope : String) (now : Int)

def State.wrote (s : State) (value : String) : Except VaultError (SecretVault × SecretRevision) → State
  | .ok (stored, row) => { s with vault := stored, written := s.written ++ [(row, value)] }
  | .error _ => s

def step (cipher : HostKeySecretCipher) (hash : String → String) (s : State) : Op → State
  | .createPending call fresh now => { s with vault := committed s.vault (createPending s.vault call fresh now) }
  | .fulfill call nonce now => s.wrote call.value (fulfill cipher s.vault call nonce now)
  | .rotate call nonce now => s.wrote call.value (rotate cipher s.vault call nonce now)
  | .revoke key expected updatedBy now => { s with vault := committed s.vault (revoke s.vault key expected updatedBy now) }
  | .issueGrant call grantId rawToken now =>
    match issueGrant hash s.vault call grantId rawToken now with
    | .ok (stored, grant) => { s with vault := stored, issued := s.issued ++ [grant] }
    | .error _ => s
  | .redeemGrant token capabilityId scope now =>
    match redeemGrant hash cipher s.vault token capabilityId scope now with
    | .ok (stored, material) => { s with vault := stored, redeemed := s.redeemed ++ [material] }
    | .error _ => s

/-- The operation retires the grants of the secret: it rotates or revokes it and commits. -/
inductive Retires (cipher : HostKeySecretCipher) (vault : SecretVault) : Op → SecretKey → Prop where
  | rotated {call : WriteCall} {nonce : ByteArray} {now : Int} {result : SecretVault × SecretRevision}
      (done : rotate cipher vault call nonce now = .ok result) : Retires cipher vault (.rotate call nonce now) call.key
  | revoked {key : SecretKey} {expected now : Int} {updatedBy : String} {result : SecretVault × SecretRevision}
      (done : revoke vault key expected updatedBy now = .ok result) :
      Retires cipher vault (.revoke key expected updatedBy now) key

/-- What a successful redemption releases, and on which grant. -/
structure Released (s : State) (tokenHash capabilityId scope : String) (now : Int) (material : SecretMaterial) : Prop where
  sound : ∃ grant ∈ s.issued, ∃ row, grant.id = material.grantId ∧ grant.tokenHash = tokenHash ∧
    now < grant.expiresAt ∧ grant.capabilityId = Text.strip capabilityId ∧ scope ∈ grant.scopes ∧
    s.vault.currentRow grant.key = some row ∧ row.revision = grant.secretRevision ∧ row.state = .active ∧
    (row, material.value) ∈ s.written

section Steps

variable {cipher : HostKeySecretCipher} {hash : String → String} {s t : State}

def spend (vault : SecretVault) (grantId : String) (now : Int) : SecretVault :=
  { vault with
    grants := Rows.update (fun grant => grant.id == grantId && grant.consumedAt.isNone)
      (fun grant => { grant with consumedAt := some now }) vault.grants }

/-- A grant as it was when it was issued. -/
def asIssued (grant : SecretGrant) : SecretGrant := { grant with consumedAt := none }

/-- What one operation can do. -/
inductive Change (cipher : HostKeySecretCipher) (s : State) : State → Prop where
  | stays : Change cipher s s
  | marks {stored : SecretVault} {row : SecretRevision} (extended : Extended s.vault stored row)
      (inactive : row.state ≠ .active) : Change cipher s { s with vault := stored }
  | writes {stored : SecretVault} {row : SecretRevision} {value : String} (extended : Extended s.vault stored row)
      (active : row.state = .active) (holds : Sealed cipher row value) :
      Change cipher s { s with vault := stored, written := s.written ++ [(row, value)] }
  | issues {stored : SecretVault} {grant : SecretGrant} (issued : Issued s.vault stored grant) :
      Change cipher s { s with vault := stored, issued := s.issued ++ [grant] }
  | redeems {tokenHash capabilityId scope : String} {now : Int} {material : SecretMaterial} {grant : SecretGrant}
      {row : SecretRevision} (redeems : Redeems cipher s.vault tokenHash capabilityId scope now material grant row) :
      Change cipher s { s with vault := spend s.vault material.grantId now, redeemed := s.redeemed ++ [material] }

theorem wrote_change {call : WriteCall} {expected : SecretState} {scopes : Option (List String)} {nonce : ByteArray}
    {now : Int} (filed : Filed s.vault) (usable : expected ≠ .revoked) :
    Change cipher s (s.wrote call.value (writeActiveRevision cipher s.vault call expected scopes nonce now)) := by
  cases done : writeActiveRevision cipher s.vault call expected scopes nonce now with
  | error error => exact .stays
  | ok result =>
    obtain ⟨extended, active, _, holds⟩ := writeActiveRevision_extended filed usable done
    exact .writes extended active holds

/-- A committed rotation is a write to the secret. -/
theorem rotate_written {vault stored : SecretVault} {call : WriteCall} {nonce : ByteArray} {now : Int}
    {row : SecretRevision} (filed : Filed vault) (done : rotate cipher vault call nonce now = .ok (stored, row)) :
    Extended vault stored row ∧ row.state = .active ∧ row.key = call.key ∧ Sealed cipher row call.value := by
  unfold rotate at done
  split at done
  · exact writeActiveRevision_extended filed (by decide) done
  · obtain ⟨cleaned, _, rest⟩ := bind_eq_ok done
    exact writeActiveRevision_extended filed (by decide) rest

theorem step_change (filed : Filed s.vault) (op : Op) : Change cipher s (step cipher hash s op) := by
  cases op with
  | createPending call fresh now =>
    simp only [step]
    cases done : createPending s.vault call fresh now with
    | error error => exact .stays
    | ok result =>
      obtain ⟨extended, pending⟩ := createPending_extended filed done
      exact .marks extended (by rw [pending]; decide)
  | fulfill call nonce now => exact wrote_change filed (by decide)
  | rotate call nonce now =>
    simp only [step]
    cases done : rotate cipher s.vault call nonce now with
    | error error => exact .stays
    | ok result =>
      obtain ⟨extended, active, _, holds⟩ := rotate_written filed done
      exact .writes extended active holds
  | revoke key expected updatedBy now =>
    simp only [step]
    cases done : revoke s.vault key expected updatedBy now with
    | error error => exact .stays
    | ok result =>
      obtain ⟨ended, _, ⟨same, _⟩ | extended⟩ := revoke_extended filed done
      · rw [committed_ok, same]
        exact .stays
      · exact .marks extended (by rw [ended]; decide)
  | issueGrant call grantId rawToken now =>
    simp only [step]
    split
    · rename_i done
      exact .issues (issueGrant_issued filed done)
    · exact .stays
  | redeemGrant token capabilityId scope now =>
    simp only [step]
    split
    · rename_i done
      obtain ⟨⟨grant, row, redeems⟩, same⟩ := redeemGrant_redeems done
      rw [same]
      exact .redeems redeems
    · exact .stays

structure Sound (cipher : HostKeySecretCipher) (s : State) : Prop where
  filed : Filed s.vault
  written : s.written.map Prod.fst = s.vault.revisions.filter fun row => row.state == .active
  holds : ∀ entry ∈ s.written, Sealed cipher entry.1 entry.2
  issued : s.vault.grants.map asIssued = s.issued
  ids : (s.vault.grants.map SecretGrant.id).Nodup
  bound : ∀ grant ∈ s.vault.grants, ∃ row ∈ s.vault.revisions, row.key = grant.key ∧ row.revision = grant.secretRevision
  spent : ∀ material ∈ s.redeemed, ∃ grant ∈ s.vault.grants,
    grant.id = material.grantId ∧ grant.consumedAt.isSome = true
  once : (s.redeemed.map SecretMaterial.grantId).Nodup

theorem sound_empty : Sound cipher .empty where
  filed := filed_empty
  written := rfl
  holds := by simp [State.empty]
  issued := rfl
  ids := by simp [State.empty, SecretVault.empty]
  bound := by simp [State.empty, SecretVault.empty]
  spent := by simp [State.empty]
  once := by simp [State.empty]

theorem Extended.bound {vault stored : SecretVault} {row : SecretRevision} (extended : Extended vault stored row)
    (bound : ∀ grant ∈ vault.grants, ∃ row ∈ vault.revisions, row.key = grant.key ∧ row.revision = grant.secretRevision) :
    ∀ grant ∈ stored.grants, ∃ row ∈ stored.revisions, row.key = grant.key ∧ row.revision = grant.secretRevision := by
  intro grant member
  obtain ⟨other, inside, same⟩ := bound grant (extended.grants ▸ member)
  exact ⟨other, by simp [extended.revisions, inside], same⟩

/-- The rows of `spend` are those of the vault, one of them marked as consumed. -/
theorem mem_spend {vault : SecretVault} {grantId : String} {now : Int} {grant : SecretGrant}
    (member : grant ∈ (spend vault grantId now).grants) :
    ∃ old ∈ vault.grants, asIssued old = asIssued grant := by
  rcases Rows.mem_update.mp member with ⟨old, inside, _, rfl⟩ | ⟨inside, _⟩
  · exact ⟨old, inside, rfl⟩
  · exact ⟨grant, inside, rfl⟩

theorem spend_mem {vault : SecretVault} {grantId : String} {now : Int} {grant : SecretGrant} (member : grant ∈ vault.grants) :
    ∃ new ∈ (spend vault grantId now).grants, asIssued new = asIssued grant ∧
      (grant.consumedAt.isSome = true ∨ grant.id = grantId → new.consumedAt.isSome = true) := by
  refine ⟨_, List.mem_map_of_mem member, ?_⟩
  split
  · exact ⟨rfl, fun _ => rfl⟩
  · rename_i missed
    refine ⟨rfl, ?_⟩
    rintro (consumed | same)
    · exact consumed
    · simpa [same, Option.isSome_iff_ne_none] using missed

theorem spend_map {κ : Type} (field : SecretGrant → κ) (kept : ∀ grant, field (asIssued grant) = field grant)
    (vault : SecretVault) (grantId : String) (now : Int) :
    (spend vault grantId now).grants.map field = vault.grants.map field := by
  refine Rows.map_update field ?_ vault.grants
  intro grant _
  rw [← kept, ← kept grant]
  rfl

theorem id_eq {first second : SecretGrant} (same : asIssued first = asIssued second) :
    first.id = second.id ∧ first.key = second.key ∧ first.secretRevision = second.secretRevision := by
  simp only [asIssued, SecretGrant.mk.injEq] at same
  obtain ⟨id, tenant, secret, revision, _⟩ := same
  exact ⟨id, by rw [SecretGrant.key, SecretGrant.key, tenant, secret], revision⟩

theorem Change.sound (change : Change cipher s t) (sound : Sound cipher s) : Sound cipher t := by
  cases change with
  | stays => exact sound
  | @marks stored row extended inactive =>
    have grants := extended.grants
    refine ⟨extended.filed, ?_, sound.holds, grants ▸ sound.issued, grants ▸ sound.ids, extended.bound sound.bound,
      grants ▸ sound.spent, sound.once⟩
    simpa [extended.revisions, List.filter_append, inactive] using sound.written
  | @writes stored row value extended active holds =>
    have grants := extended.grants
    refine ⟨extended.filed, ?_, ?_, grants ▸ sound.issued, grants ▸ sound.ids, extended.bound sound.bound,
      grants ▸ sound.spent, sound.once⟩
    · simp [extended.revisions, List.filter_append, active, sound.written]
    · intro entry member
      rcases List.mem_append.mp member with before | new
      · exact sound.holds entry before
      · rw [List.mem_singleton.mp new]
        exact holds
  | @issues stored grant issued =>
    have filed : Filed stored := by
      obtain ⟨numbered, single, latest, referred⟩ := sound.filed
      have same : stored.revisionsOf = s.vault.revisionsOf := by
        funext key
        rw [SecretVault.revisionsOf, SecretVault.revisionsOf, issued.revisions]
      exact ⟨same ▸ numbered, issued.current ▸ single, issued.current ▸ same ▸ latest,
        issued.current ▸ issued.revisions ▸ referred⟩
    refine ⟨filed, issued.revisions ▸ sound.written, sound.holds, ?_, ?_, ?_, ?_, sound.once⟩
    · have fresh : asIssued grant = grant := by rw [asIssued, ← issued.unused]
      rw [issued.grants, List.map_append, sound.issued, List.map_singleton, fresh]
    · rw [issued.grants, List.map_append, List.nodup_append]
      refine ⟨sound.ids, by simp, ?_⟩
      rintro id present _ last rfl
      rw [List.map_singleton, List.mem_singleton] at last
      exact issued.fresh (last ▸ present)
    · intro other member
      rw [issued.revisions]
      rw [issued.grants, List.mem_append, List.mem_singleton] at member
      rcases member with before | rfl
      · exact sound.bound other before
      · obtain ⟨row, found, _, revision⟩ := issued.bound
        obtain ⟨inside, named, _⟩ := sound.filed.current found
        exact ⟨row, inside, named, revision⟩
    · intro material member
      obtain ⟨other, inside, rest⟩ := sound.spent material member
      exact ⟨other, by simp [issued.grants, inside], rest⟩
  | @redeems tokenHash capabilityId scope now material grant row redeems =>
    refine ⟨⟨sound.filed.numbered, sound.filed.single, sound.filed.latest, sound.filed.referred⟩, sound.written,
      sound.holds, ?_, ?_, ?_, ?_, ?_⟩
    · rw [spend_map asIssued fun _ => rfl, sound.issued]
    · rw [spend_map SecretGrant.id fun _ => rfl]
      exact sound.ids
    · intro other member
      obtain ⟨old, inside, same⟩ := mem_spend member
      obtain ⟨_, key, revision⟩ := id_eq same
      obtain ⟨row, stored, matched⟩ := sound.bound old inside
      exact ⟨row, stored, key ▸ revision ▸ matched⟩
    · intro other member
      rcases List.mem_append.mp member with before | new
      · obtain ⟨old, inside, same, consumed⟩ := sound.spent other before
        obtain ⟨marked, present, kept, still⟩ := spend_mem inside
        exact ⟨marked, present, (id_eq kept).1.trans same, still (Or.inl consumed)⟩
      · obtain ⟨marked, present, kept, still⟩ := spend_mem redeems.grant_mem
        rw [List.mem_singleton.mp new]
        exact ⟨marked, present, (id_eq kept).1.trans redeems.material.1.symm, still (Or.inr redeems.material.1.symm)⟩
    · rw [List.map_append, List.nodup_append]
      refine ⟨sound.once, by simp, ?_⟩
      rintro id present _ last rfl
      rw [List.map_singleton, List.mem_singleton] at last
      obtain ⟨earlier, member, named⟩ := List.mem_map.mp present
      obtain ⟨other, inside, same, consumed⟩ := sound.spent earlier member
      -- the grant that is redeemed now would be consumed already
      have again : other = grant := by
        refine Rows.eq_of_key_eq sound.ids inside redeems.grant_mem ?_
        rw [same, named, last, redeems.material.1]
      rw [again, redeems.unused] at consumed
      cases consumed

theorem step_sound (sound : Sound cipher s) (op : Op) : Sound cipher (step cipher hash s op) :=
  (step_change sound.filed op).sound sound

theorem exec_sound (sound : Sound cipher s) (ops : List Op) : Sound cipher (Run.exec (step cipher hash) s ops) :=
  @Run.exec_invariant State Op (step cipher hash) (Sound cipher) (fun _ op sound => step_sound sound op) s sound ops

/-- What every later state keeps: the grants that were issued, and the current revision of each
secret, which only gives way to a later one and is final once it is revoked. -/
structure Follows (vault later : SecretVault) : Prop where
  grants : ∀ grant ∈ vault.grants, ∃ kept ∈ later.grants, asIssued kept = asIssued grant
  current : ∀ key row, vault.currentRow key = some row → ∃ last, later.currentRow key = some last ∧
    (last = row ∨ row.state ≠ .revoked ∧ row.revision < last.revision)

theorem Follows.refl (vault : SecretVault) : Follows vault vault :=
  ⟨fun grant member => ⟨grant, member, rfl⟩, fun _ row found => ⟨row, found, Or.inl rfl⟩⟩

theorem Follows.trans {first second third : SecretVault} (left : Follows first second) (right : Follows second third) :
    Follows first third where
  grants := by
    intro grant member
    obtain ⟨kept, inside, same⟩ := left.grants grant member
    obtain ⟨last, present, equal⟩ := right.grants kept inside
    exact ⟨last, present, equal.trans same⟩
  current := by
    intro key row found
    obtain ⟨middle, located, passed⟩ := left.current key row found
    obtain ⟨last, reached, further⟩ := right.current key middle located
    refine ⟨last, reached, ?_⟩
    rcases passed with rfl | ⟨live, above⟩
    · exact further
    · rcases further with rfl | ⟨_, higher⟩
      · exact Or.inr ⟨live, above⟩
      · exact Or.inr ⟨live, above.trans higher⟩

theorem Extended.follows {vault stored : SecretVault} {row : SecretRevision} (extended : Extended vault stored row)
    (filed : Filed vault) : Follows vault stored where
  grants := fun grant member => ⟨grant, extended.grants ▸ member, rfl⟩
  current := by
    intro key old found
    have top := found
    rw [filed.currentRow] at top
    rw [extended.filed.currentRow, revisionsOf_append extended.revisions]
    by_cases here : row.key = key
    · subst here
      refine ⟨row, by simp, Or.inr ⟨extended.live old top, ?_⟩⟩
      rw [(filed.current found).2.2, extended.next]
      exact Nat.lt_succ_self _
    · exact ⟨old, by simpa [here] using top, Or.inl rfl⟩

theorem Change.follows (change : Change cipher s t) (sound : Sound cipher s) : Follows s.vault t.vault := by
  cases change with
  | stays => exact .refl s.vault
  | marks extended inactive => exact extended.follows sound.filed
  | writes extended active holds => exact extended.follows sound.filed
  | @issues stored grant issued =>
    refine ⟨fun other member => ⟨other, by simp [issued.grants, member], rfl⟩, ?_⟩
    intro key row found
    refine ⟨row, ?_, Or.inl rfl⟩
    rw [← found]
    simp only [SecretVault.currentRow, SecretVault.currentRef, SecretVault.revision, issued.current, issued.revisions]
  | redeems redeems =>
    refine ⟨?_, fun _ row found => ⟨row, found, Or.inl rfl⟩⟩
    intro other member
    obtain ⟨marked, present, kept, _⟩ := spend_mem member
    exact ⟨marked, present, kept⟩

theorem exec_follows (sound : Sound cipher s) (ops : List Op) :
    Follows s.vault (Run.exec (step cipher hash) s ops).vault :=
  @Run.exec_related State Op (step cipher hash) (Sound cipher) (fun s t => Follows s.vault t.vault)
    (fun s => .refl s.vault) (fun _ _ _ => .trans) (fun _ op sound => step_sound sound op)
    (fun _ op sound => (step_change sound.filed op).follows sound) s sound ops

theorem Filed.eq_of_revision {vault : SecretVault} (filed : Filed vault) {first second : SecretRevision}
    (left : first ∈ vault.revisions) (right : second ∈ vault.revisions) (key : first.key = second.key)
    (revision : first.revision = second.revision) : first = second := by
  have distinct : ((vault.revisionsOf second.key).map SecretRevision.revision).Nodup :=
    filed.numbered second.key ▸ List.nodup_range'
  exact Rows.eq_of_key_eq distinct (mem_revisionsOf.mpr ⟨left, key⟩) (mem_revisionsOf.mpr ⟨right, rfl⟩) revision

theorem Filed.nodup {vault : SecretVault} (filed : Filed vault) : vault.revisions.Nodup := by
  rw [List.nodup_iff_count_le_one]
  intro row
  have distinct : (vault.revisionsOf row.key).Nodup :=
    List.Nodup.of_map SecretRevision.revision (filed.numbered row.key ▸ List.nodup_range')
  have counted : (vault.revisionsOf row.key).count row = vault.revisions.count row :=
    List.count_filter (by simp)
  rw [← counted]
  exact List.nodup_iff_count_le_one.mp distinct row

/-- A redemption rests on the current revision of its secret. -/
theorem Redeems.currentRow {vault : SecretVault} {tokenHash capabilityId scope : String} {now : Int}
    {material : SecretMaterial} {grant : SecretGrant} {row : SecretRevision} (filed : Filed vault)
    (redeems : Redeems cipher vault tokenHash capabilityId scope now material grant row) :
    vault.currentRow grant.key = some row := by
  obtain ⟨ref, inside, named, revision⟩ := redeems.current
  have last := filed.latest ref inside
  rw [named, revision, ← redeems.revision] at last
  have chosen : row ∈ vault.revisionsOf grant.key := mem_revisionsOf.mpr ⟨redeems.row_mem, redeems.key⟩
  rw [filed.currentRow]
  cases top : (vault.revisionsOf grant.key).getLast? with
  | none =>
    rw [List.getLast?_eq_none_iff.mp top] at chosen
    cases chosen
  | some final =>
    obtain ⟨stored, same⟩ := mem_revisionsOf.mp (List.mem_of_getLast? top)
    have count := Rows.rank_getLast (filed.numbered grant.key) top
    rw [filed.eq_of_revision stored redeems.row_mem (same.trans redeems.key.symm) (count.trans last.symm)]

theorem Redeems.released {tokenHash capabilityId scope : String} {now : Int} {material : SecretMaterial}
    {grant : SecretGrant} {row : SecretRevision} (sound : Sound cipher s)
    (redeems : Redeems cipher s.vault tokenHash capabilityId scope now material grant row) :
    Released s tokenHash capabilityId scope now material := by
  have recorded : row ∈ s.written.map Prod.fst := by
    rw [sound.written, List.mem_filter]
    exact ⟨redeems.row_mem, by simp [redeems.active]⟩
  obtain ⟨⟨_, value⟩, entry, rfl⟩ := List.mem_map.mp recorded
  have plaintext := (sound.holds _ entry).decrypt
  rw [redeems.key, redeems.value] at plaintext
  obtain rfl := Option.some.inj plaintext
  have current := redeems.currentRow sound.filed
  refine ⟨asIssued grant, ?_, _, redeems.material.1.symm, redeems.token, redeems.unexpired, redeems.capability,
    redeems.scope_mem, current, redeems.revision, redeems.active, entry⟩
  rw [← sound.issued]
  exact List.mem_map_of_mem redeems.grant_mem

/-- The current revision of the secret of the grant is a later one than that of the grant, or revoked. -/
def Ended (vault : SecretVault) (grant : SecretGrant) : Prop :=
  ∃ row, vault.currentRow grant.key = some row ∧ (grant.secretRevision < row.revision ∨ row.state = .revoked)

theorem Ended.follows {vault later : SecretVault} {grant : SecretGrant} (ended : Ended vault grant)
    (follows : Follows vault later) : Ended later grant := by
  obtain ⟨row, found, spent⟩ := ended
  obtain ⟨last, reached, passed⟩ := follows.current grant.key row found
  refine ⟨last, reached, ?_⟩
  rcases passed with rfl | ⟨live, above⟩
  · exact spent
  · rcases spent with before | revoked
    · exact Or.inl (before.trans above)
    · exact absurd revoked live

theorem Ended.not_redeemed {grant : SecretGrant} (ended : Ended s.vault grant) (sound : Sound cipher s)
    (kept : ∃ same ∈ s.vault.grants, asIssued same = asIssued grant) {tokenHash capabilityId scope : String} {now : Int}
    {material : SecretMaterial} {other : SecretGrant} {row : SecretRevision}
    (redeems : Redeems cipher s.vault tokenHash capabilityId scope now material other row) :
    material.grantId ≠ grant.id := by
  intro named
  obtain ⟨same, inside, equal⟩ := kept
  obtain ⟨id, key, revision⟩ := id_eq equal
  obtain rfl : same = other := by
    refine Rows.eq_of_key_eq sound.ids inside redeems.grant_mem ?_
    rw [id, ← named, redeems.material.1]
  obtain ⟨last, found, spent⟩ := ended
  have current := redeems.currentRow sound.filed
  rw [key, found] at current
  obtain rfl := Option.some.inj current
  rcases spent with before | revoked
  · rw [← revision, ← redeems.revision] at before
    exact Nat.lt_irrefl _ before
  · rw [redeems.active] at revoked
    cases revoked

/-- A committed rotation or revocation ends the grants that its secret had. -/
theorem retires_ended {op : Op} {key : SecretKey} {grant : SecretGrant} (sound : Sound cipher s)
    (retires : Retires cipher s.vault op key) (issued : grant ∈ s.vault.grants) (own : grant.key = key) :
    Ended (step cipher hash s op).vault grant := by
  obtain ⟨old, inside, named, revision⟩ := sound.bound grant issued
  have number := (Rows.rank_of_numbered (sound.filed.numbered grant.key) (mem_revisionsOf.mpr ⟨inside, named⟩)).2
  have extends_ended : ∀ {stored : SecretVault} {row : SecretRevision}, Extended s.vault stored row → row.key = key →
      Ended stored grant := by
    intro stored row extended same
    have here : row.key = grant.key := same.trans own.symm
    refine ⟨row, ?_, Or.inl ?_⟩
    · rw [extended.filed.currentRow, revisionsOf_append extended.revisions, if_pos here, List.getLast?_concat]
    · rw [extended.next, here, ← revision]
      omega
  cases retires with
  | @rotated call nonce now result done =>
    obtain ⟨extended, _, same, _⟩ := rotate_written sound.filed done
    simp only [step, done, State.wrote]
    exact extends_ended extended same
  | @revoked _ expected now updatedBy result done =>
    obtain ⟨spent, same, ⟨unchanged, found⟩ | extended⟩ := revoke_extended sound.filed done
    · simp only [step, done]
      refine ⟨result.2, ?_, Or.inr spent⟩
      rw [committed_ok s.vault result.1 result.2, unchanged, own, found]
    · simp only [step, done]
      exact extends_ended extended same

end Steps

variable (cipher : HostKeySecretCipher) (hash : String → String)

/-- Every run of vault operations: revisions are contiguous and each active one has one written
value; a grant is redeemed at most once, before it expires, for its capability and one of its
scopes, while its revision is the current active one, and releases what was written as that
revision; a committed rotation or revocation ends every grant issued before; and a revoked secret
stays revoked. -/
theorem secret_grants_one_time_and_bound (ops : List Op) :
    let s := Run.exec (step cipher hash) .empty ops
    (∀ key, (s.vault.revisionsOf key).map SecretRevision.revision = List.range' 1 (s.vault.revisionsOf key).length) ∧
    (s.written.map Prod.fst).Nodup ∧
    (s.redeemed.map SecretMaterial.grantId).Nodup ∧
    (∀ token capabilityId scope now stored material,
      redeemGrant hash cipher s.vault token capabilityId scope now = .ok (stored, material) →
      material.grantId ∉ s.redeemed.map SecretMaterial.grantId ∧
        Released s (hash token) capabilityId scope now material) ∧
    (∀ op key, Retires cipher s.vault op key → ∀ grant ∈ s.issued, grant.key = key →
      ∀ later token capabilityId scope now stored material,
        redeemGrant hash cipher (Run.exec (step cipher hash) (step cipher hash s op) later).vault
          token capabilityId scope now = .ok (stored, material) → material.grantId ≠ grant.id) ∧
    (∀ key row, s.vault.currentRow key = some row → row.state = .revoked → ∀ later,
      (Run.exec (step cipher hash) s later).vault.currentRow key = some row) := by
  intro s
  have sound : Sound cipher s := exec_sound sound_empty ops
  refine ⟨sound.filed.numbered, ?_, sound.once, ?_, ?_, ?_⟩
  · rw [sound.written]
    exact sound.filed.nodup.filter _
  · intro token capabilityId scope now stored material done
    obtain ⟨⟨grant, row, redeems⟩, _⟩ := redeemGrant_redeems done
    refine ⟨?_, redeems.released sound⟩
    have after : Sound cipher (step cipher hash s (.redeemGrant token capabilityId scope now)) := step_sound sound _
    have once := after.once
    simp only [step, done, List.map_append, List.nodup_append] at once
    intro before
    exact once.2.2 _ before _ (by simp) rfl
  · intro op key retires grant issued own later token capabilityId scope now stored material done
    rw [← sound.issued] at issued
    obtain ⟨row, inside, rfl⟩ := List.mem_map.mp issued
    have after : Sound cipher (step cipher hash s op) := step_sound sound op
    have reached : Follows (step cipher hash s op).vault
        (Run.exec (step cipher hash) (step cipher hash s op) later).vault := exec_follows after later
    obtain ⟨⟨other, revision, redeems⟩, _⟩ := redeemGrant_redeems done
    have ended : Ended (step cipher hash s op).vault row := retires_ended sound retires inside own
    have kept := (((step_change sound.filed op).follows sound).trans reached).grants row inside
    exact (ended.follows reached).not_redeemed (exec_sound after later) kept redeems
  · intro key row found revoked later
    have reached : Follows s.vault (Run.exec (step cipher hash) s later).vault := exec_follows sound later
    obtain ⟨last, found, same | ⟨live, _⟩⟩ := reached.current key row found
    · rw [found, same]
    · exact absurd revoked live

/-- A cipher that keeps the plaintext. -/
def clearCipher : HostKeySecretCipher where
  encrypt nonce plaintext _ := ⟨"host-v1", nonce, plaintext⟩
  decrypt value _ := some value.ciphertext
  inverts _ _ _ := rfl

example :
    let ops : List Op := [.createPending ⟨"t", "n", ["a.b"], "u", some "x"⟩ "sec" 0,
      .fulfill ⟨"t", "x", 1, "v", "u", none⟩ .empty 0, .issueGrant ⟨"t", "x", "c", ["a.b"], 60⟩ "g" "k" 0,
      .issueGrant ⟨"t", "x", "c", ["a.b"], 60⟩ "h" "l" 0, .redeemGrant "k" "c" "a.b" 1, .redeemGrant "k" "c" "a.b" 2,
      .rotate ⟨"t", "x", 2, "w", "u", none⟩ .empty 3, .redeemGrant "l" "c" "a.b" 4]
    (Run.exec (step clearCipher id) .empty ops).redeemed = [⟨"g", "x", "n", "a.b", "v"⟩] := by
  decide +kernel

end OpenTulpa.Secrets.Grants
