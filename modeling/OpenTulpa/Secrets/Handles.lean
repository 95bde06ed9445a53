import OpenTulpa.Secrets.Grants
import OpenTulpa.Secrets.Redaction

/-! The handles under which ingress stores the values of a message. A value goes under the first handle of its kind or
name that is not revoked; where two values of a message are led to one handle, the later one replaces the earlier. -/

namespace OpenTulpa.Secrets.Handles

open Library Outcome Text Specs.Models Vault Ingress
open Grants (Filed Extended Sealed)

section Candidates

variable {vault : SecretVault} {tenantId preferred : String}

/-- The handles that `_store_value` tries, one after the other. -/
def candidate (preferred : String) : Nat → String
  | 0 => preferred
  | n + 1 => preferred ++ "_replacement_" ++ toString (n + 2)

def Revoked (vault : SecretVault) (key : SecretKey) : Prop :=
  ∃ row, vault.currentRow key = some row ∧ row.state = .revoked

/-- A value is led to the first of its handles that is not revoked. -/
def Leads (vault : SecretVault) (tenantId preferred id : String) : Prop :=
  ∃ n, id = candidate preferred n ∧ ¬ Revoked vault (tenantId, id) ∧
    ∀ m < n, Revoked vault (tenantId, candidate preferred m)

theorem Leads.unique {first second : String} (left : Leads vault tenantId preferred first)
    (right : Leads vault tenantId preferred second) : first = second := by
  obtain ⟨n, rfl, live, before⟩ := left
  obtain ⟨m, rfl, alive, earlier⟩ := right
  rcases lt_trichotomy n m with lower | rfl | upper
  · exact absurd (earlier n lower) live
  · rfl
  · exact absurd (before m upper) alive

theorem leads_congr {stored : SecretVault} (same : ∀ key, Revoked stored key ↔ Revoked vault key) {id : String} :
    Leads stored tenantId preferred id ↔ Leads vault tenantId preferred id := by
  unfold Leads
  simp only [same]

/-- The search stops at a handle before which all are revoked. -/
theorem settle_spec (fuel n : Nat) (before : ∀ m < n, Revoked vault (tenantId, candidate preferred m)) :
    ∃ k, settle vault tenantId preferred fuel (n + 2) (candidate preferred n) =
        (candidate preferred k, vault.currentRow (tenantId, candidate preferred k)) ∧
      ∀ m < k, Revoked vault (tenantId, candidate preferred m) := by
  induction fuel generalizing n with
  | zero => exact ⟨n, rfl, before⟩
  | succ fuel ih =>
    unfold settle
    cases found : vault.currentRow (tenantId, candidate preferred n) with
    | none => exact ⟨n, by rw [found], before⟩
    | some row =>
      dsimp only
      split
      · rename_i revoked
        refine ih (n + 1) ?_
        intro m lower
        rcases Nat.lt_succ_iff_lt_or_eq.mp lower with earlier | rfl
        · exact before m earlier
        · exact ⟨row, found, revoked⟩
      · exact ⟨n, by rw [found], before⟩

end Candidates

section Writes

variable {vault stored : SecretVault} {row : SecretRevision}

theorem currentRow_extended (extended : Extended vault stored row) : stored.currentRow row.key = some row := by
  rw [extended.filed.currentRow, Grants.revisionsOf_append extended.revisions, if_pos rfl]
  simp

theorem currentRow_other (filed : Filed vault) (extended : Extended vault stored row) {key : SecretKey}
    (apart : key ≠ row.key) : stored.currentRow key = vault.currentRow key := by
  rw [extended.filed.currentRow, filed.currentRow, Grants.revisionsOf_append extended.revisions, if_neg apart.symm,
    List.append_nil]

variable {cipher : HostKeySecretCipher} {tenantId actorId : String} {nonce : ByteArray} {now : Int}

/-- `SecretVaultService.store` adds an active revision that holds the value to a handle that is not revoked. -/
theorem store_extended {secretId value : String} {expected : Nat} (filed : Filed vault)
    (done : store cipher tenantId actorId vault secretId expected value nonce now = .ok (stored, row)) :
    Extended vault stored row ∧ row.state = .active ∧ row.key = (tenantId, secretId) ∧ Sealed cipher row value ∧
      ∃ handle, vault.currentRow (tenantId, secretId) = some handle ∧ handle.state ≠ .revoked := by
  unfold store at done
  dsimp only at done
  split at done
  · cases done
  · rename_i handle found
    split at done
    · rename_i state
      obtain ⟨extended, active, named, holds⟩ := Grants.writeActiveRevision_extended filed (by decide) done
      exact ⟨extended, active, named, holds, handle, found, by rw [state]; decide⟩
    · rename_i state
      obtain ⟨extended, active, named, holds⟩ := Grants.writeActiveRevision_extended filed (by decide) done
      exact ⟨extended, active, named, holds, handle, found, by rw [state]; decide⟩
    · cases done

/-- A text without white space. -/
def Visible (text : String) : Prop := ∀ c ∈ text.toList, slugChar c = true

theorem Visible.strip {text : String} (visible : Visible text) : strip text = text := by
  have chars : stripChars text.toList = text.toList :=
    trimChars_of_visible fun c member => isSpace_of_slugChar (visible c member)
  rw [Text.strip, chars, String.ofList_toList]

theorem createPending_id {call : PendingCall} {id : String} {now : Int} (given : call.secretId = some id)
    (visible : Visible id) (done : createPending vault call "" now = .ok (stored, row)) : row.id = id := by
  obtain ⟨scopes, _, rest⟩ := bind_eq_ok done
  rw [given, Option.getD_some, visible.strip] at rest
  have same : (if id.isEmpty then "" else id) = id := by
    split
    · rename_i empty
      exact (String.isEmpty_iff.mp empty).symm
    · rfl
  rw [same] at rest
  simp only at rest
  split at rest
  · rename_i tenant slug name valid creator _ slugged _ _ _
    split at rest
    · cases rest
    · obtain ⟨inserted, _, ended⟩ := bind_eq_ok rest
      cases ended
      unfold protocolSlug at slugged
      dsimp only at slugged
      split at slugged
      · rw [← Option.some.inj slugged]
        exact trim_of_strip visible.strip
      · cases slugged
  · cases rest

/-- What `_store_value` does: the handle is now active and holds the value, and no other handle has changed. -/
structure Stored (cipher : HostKeySecretCipher) (tenantId value : String) (vault stored : SecretVault)
    (handle : SecretRevision) : Prop where
  filed : Filed stored
  current : stored.currentRow (tenantId, handle.id) = some handle
  active : handle.state = .active
  holds : Sealed cipher handle value
  live : ¬ Revoked vault (tenantId, handle.id)
  others : ∀ key ≠ (tenantId, handle.id), stored.currentRow key = vault.currentRow key

theorem Stored.revoked {value : String} (done : Stored cipher tenantId value vault stored row) (key : SecretKey) :
    Revoked stored key ↔ Revoked vault key := by
  rcases eq_or_ne key (tenantId, row.id) with rfl | apart
  · refine ⟨?_, fun revoked => absurd revoked done.live⟩
    rintro ⟨other, found, revoked⟩
    obtain rfl := Option.some.inj (done.current.symm.trans found)
    rw [done.active] at revoked
    cases revoked
  · unfold Revoked
    rw [done.others key apart]

theorem Visible.append {first second : String} (left : Visible first) (right : Visible second) :
    Visible (first ++ second) := by
  intro c member
  rw [String.toList_append] at member
  exact (List.mem_append.mp member).elim (left c) (right c)

theorem visible_toString (n : Nat) : Visible (toString n) := by
  intro c member
  have inside : c ∈ Nat.toDigits 10 n := by simpa using member
  have digit : c.isDigit = true := Nat.isDigit_of_mem_toDigits (by decide) (by decide) inside
  simp [slugChar, digit]

theorem Visible.candidate {preferred : String} (visible : Visible preferred) (n : Nat) : Visible (candidate preferred n) := by
  cases n with
  | zero => exact visible
  | succ n =>
    have middle : Visible "_replacement_" :=
      fun c => List.all_eq_true.mp (by decide : "_replacement_".toList.all slugChar = true) c
    exact (visible.append middle).append (visible_toString _)

theorem storeValue_stored {preferred : String} {found : IngressMatch} (filed : Filed vault) (visible : Visible preferred)
    (done : storeValue cipher tenantId actorId vault preferred found nonce now = .ok (stored, row)) :
    Stored cipher tenantId found.plaintext vault stored row ∧ Leads vault tenantId preferred row.id := by
  obtain ⟨k, settled, before⟩ : ∃ k, settle vault tenantId preferred (vault.current.length + 1) 2 preferred =
      (candidate preferred k, vault.currentRow (tenantId, candidate preferred k)) ∧
      ∀ m < k, Revoked vault (tenantId, candidate preferred m) := settle_spec (vault.current.length + 1) 0 (by simp)
  unfold storeValue at done
  rw [settled] at done
  dsimp only at done
  cases known : vault.currentRow (tenantId, candidate preferred k) with
  | some handle =>
    rw [known] at done
    have key := (filed.current known).2.1
    have id : handle.id = candidate preferred k := congrArg Prod.snd key
    obtain ⟨extended, active, named, holds, other, again, live⟩ := store_extended filed done
    have same : row.id = candidate preferred k := (congrArg Prod.snd named).trans id
    rw [id] at named again
    have usable : ¬ Revoked vault (tenantId, row.id) := by
      rintro ⟨current, there, revoked⟩
      rw [same, again] at there
      obtain rfl := Option.some.inj there
      exact live revoked
    refine ⟨⟨extended.filed, ?_, active, holds, usable, ?_⟩, k, same, usable, before⟩
    · rw [same, ← named]
      exact currentRow_extended extended
    · rw [same, ← named]
      exact fun key apart => currentRow_other filed extended apart
  | none =>
    rw [known] at done
    obtain ⟨⟨created, handle⟩, creation, storing⟩ := bind_eq_ok done
    obtain ⟨first, -⟩ := Grants.createPending_extended filed creation
    have id : handle.id = candidate preferred k := createPending_id rfl (visible.candidate k) creation
    obtain ⟨extended, active, named, holds, other, again, live⟩ := store_extended first.filed storing
    have same : row.id = candidate preferred k := (congrArg Prod.snd named).trans id
    have tenant : handle.key = (tenantId, handle.id) := by
      by_contra apart
      rw [currentRow_other filed first (Ne.symm apart), id, known] at again
      cases again
    have usable : ¬ Revoked vault (tenantId, row.id) := by
      rintro ⟨current, there, -⟩
      rw [same, known] at there
      cases there
    rw [id] at named tenant
    refine ⟨⟨extended.filed, ?_, active, holds, usable, ?_⟩, k, same, usable, before⟩
    · rw [same, ← named]
      exact currentRow_extended extended
    · intro key apart
      rw [same] at apart
      rw [currentRow_other first.filed extended (by rwa [named]), currentRow_other filed first (by rwa [tenant])]

end Writes

section Names

variable {unicode : Unicode} {text : List Char}

theorem slug_replaceOthers (text : List Char) : ∀ c ∈ replaceOthers text, slugChar c = true := by
  induction text with
  | nil => rintro _ ⟨⟩
  | cons first rest ih =>
    have dash : slugChar '_' = true := by decide
    unfold replaceOthers
    split
    · rename_i kept
      intro c member
      rcases List.mem_cons.mp member with rfl | later
      · exact kept
      · exact ih c later
    · split
      · rename_i later d tail merged
        rw [merged] at ih
        split
        · intro c member
          rcases List.mem_cons.mp member with rfl | behind
          · exact dash
          · exact ih c behind
        · exact ih
      · intro c member
        rcases List.mem_cons.mp member with rfl | behind
        · exact dash
        · exact ih c behind

theorem slug_mergeDashes {text : List Char} (slugs : ∀ c ∈ text, slugChar c = true) :
    ∀ c ∈ mergeDashes text, slugChar c = true := by
  have dash : slugChar '_' = true := by decide
  fun_induction mergeDashes text with
  | case1 => exact slugs
  | case2 => exact slugs
  | case3 c d rest dashes e later merged dashed ih =>
    have tail := ih fun other member => slugs other (List.mem_cons_of_mem _ member)
    intro other member
    rcases List.mem_cons.mp member with rfl | behind
    · exact dash
    · exact tail other (by rw [merged]; exact List.mem_cons_of_mem _ behind)
  | case4 c d rest dashes e later merged kept ih =>
    have tail := ih fun other member => slugs other (List.mem_cons_of_mem _ member)
    intro other member
    rcases List.mem_cons.mp member with rfl | behind
    · exact dash
    · exact tail other (by rw [merged]; exact behind)
  | case5 c d rest dashes merged ih =>
    intro other member
    rw [List.mem_singleton.mp member]
    exact dash
  | case6 c d rest apart ih =>
    have tail := ih fun other member => slugs other (List.mem_cons_of_mem _ member)
    intro other member
    rcases List.mem_cons.mp member with rfl | behind
    · exact slugs other List.mem_cons_self
    · exact tail other behind

theorem visible_normalizeName {value : List Char} {name : String} (done : normalizeName unicode value = .ok name) :
    Visible name := by
  unfold normalizeName at done
  dsimp only at done
  split at done
  · cases done
    intro c member
    rw [String.toList_ofList] at member
    have trimmed := (List.rdropWhile_prefix isDash _).subset (List.mem_of_mem_take member)
    exact slug_mergeDashes (slug_replaceOthers _) c (List.dropWhile_subset isDash trimmed)
  · cases done

theorem visible_secretBlockName {attrs plaintext : List Char} {name : String}
    (done : secretBlockName unicode attrs plaintext = .ok name) : Visible name := by
  unfold secretBlockName at done
  split at done
  · exact visible_normalizeName done
  · split at done
    · exact visible_normalizeName done
    · cases done
      unfold inferSecretName
      split
      · exact fun c => List.all_eq_true.mp (by decide : "ssh_private_key".toList.all slugChar = true) c
      · rintro _ ⟨⟩

theorem visible_addBlock {found : Regex.Match} {before after : List IngressMatch}
    (known : ∀ entry ∈ before, Visible entry.pattern.handleId) (done : addBlock unicode text before found = .ok after) :
    ∀ entry ∈ after, Visible entry.pattern.handleId := by
  unfold addBlock at done
  split at done
  · cases done
    exact known
  · obtain ⟨name, named, rest⟩ := bind_eq_ok done
    split at rest
    · cases rest
      exact known
    · cases rest
      intro entry member
      rcases List.mem_append.mp member with old | new
      · exact known entry old
      · rw [List.mem_singleton.mp new]
        exact visible_secretBlockName named

theorem visible_addAssignment {found : Regex.Match} {before after : List IngressMatch}
    (known : ∀ entry ∈ before, Visible entry.pattern.handleId)
    (done : addAssignment unicode text before found = .ok after) :
    ∀ entry ∈ after, Visible entry.pattern.handleId := by
  unfold addAssignment at done
  split at done
  · cases done
    exact known
  · split at done
    · cases done
      exact known
    · obtain ⟨name, named, rest⟩ := bind_eq_ok done
      generalize (if name = "ssh_password" then 1 else 8) = least at rest
      split at rest
      · cases rest
        exact known
      · cases rest
        intro entry member
        rcases List.mem_append.mp member with old | new
        · exact known entry old
        · rw [List.mem_singleton.mp new]
          exact visible_normalizeName named

theorem visible_named {named : List IngressMatch} (done : namedMatches unicode text = .ok named) :
    ∀ entry ∈ named, Visible entry.pattern.handleId := by
  obtain ⟨blocks, blocked, assigned⟩ := bind_eq_ok done
  have first : ∀ entry ∈ blocks, Visible entry.pattern.handleId :=
    Redaction.foldlM_forall (fun _ _ _ _ known stepped => visible_addBlock known stepped) (by simp) blocked
  exact Redaction.foldlM_forall (fun _ _ _ _ known stepped => visible_addAssignment known stepped) first assigned

theorem visible_pattern {found : IngressMatch} (member : found ∈ patternMatches unicode text) :
    Visible found.pattern.handleId := by
  have all : credentialPatterns.all (fun entry => entry.1.handleId.toList.all slugChar) = true := by decide +kernel
  obtain ⟨entry, listed, inside⟩ := List.mem_flatMap.mp member
  obtain ⟨raw, present, bound⟩ := List.mem_filterMap.mp inside
  obtain ⟨span, captured, chosen⟩ := Option.bind_eq_some_iff.mp bound
  split at chosen
  · cases chosen
  · cases chosen
    exact List.all_eq_true.mp (List.all_eq_true.mp all entry listed)

theorem visible_accepted {accepted : List IngressMatch} (done : acceptedMatches unicode text = .ok accepted) :
    ∀ entry ∈ accepted, Visible entry.pattern.handleId := by
  intro entry member
  rcases Redaction.mem_candidates done member with ⟨named, taken, first⟩ | second
  · exact visible_named taken entry first
  · exact visible_pattern second

theorem visible_preferredIds (earlier : List String) {accepted : List IngressMatch}
    (visible : ∀ entry ∈ accepted, Visible entry.pattern.handleId) : ∀ id ∈ preferredIds earlier accepted, Visible id := by
  induction accepted generalizing earlier with
  | nil => rintro _ ⟨⟩
  | cons found rest ih =>
    intro id member
    rcases List.mem_cons.mp member with rfl | later
    · have base := visible found List.mem_cons_self
      split
      · exact base
      · have dash : Visible "_" := fun c => List.all_eq_true.mp (by decide : "_".toList.all slugChar = true) c
        exact (base.append dash).append (visible_toString _)
    · exact ih _ (fun entry member => visible entry (List.mem_cons_of_mem _ member)) id later

end Names

section Messages

variable {cipher : HostKeySecretCipher} {tenantId actorId : String}

/-- The reference to a handle resolves to a value. -/
def Resolves (cipher : HostKeySecretCipher) (tenantId : String) (stored : SecretVault) (found : IngressMatch)
    (handle : SecretRevision) : Prop :=
  ∃ row, stored.currentRow (tenantId, handle.id) = some row ∧ row.state = .active ∧
    decryptRow cipher row.key row = some found.plaintext

theorem storeAll_stored {vault last : SecretVault} {entries : List (IngressMatch × String)}
    {draws : List (ByteArray × Int)} {handles : List SecretRevision} (filed : Filed vault)
    (visible : ∀ entry ∈ entries, Visible entry.2)
    (done : storeAll cipher tenantId actorId vault entries draws = .ok (last, handles)) :
    List.Forall₂ (fun entry handle => Leads vault tenantId entry.2 handle.id) entries handles ∧
      (∀ key, (∀ handle ∈ handles, key ≠ (tenantId, handle.id)) → last.currentRow key = vault.currentRow key) ∧
      ((handles.map SecretRevision.id).Nodup →
        List.Forall₂ (fun entry handle => Resolves cipher tenantId last entry.1 handle) entries handles) := by
  induction entries generalizing vault draws handles with
  | nil =>
    cases done
    exact ⟨.nil, fun _ _ => rfl, fun _ => .nil⟩
  | cons entry rest ih =>
    cases draws with
    | nil => cases done
    | cons draw draws =>
      obtain ⟨⟨stored, handle⟩, storing, more⟩ := bind_eq_ok done
      obtain ⟨⟨final, others⟩, later, ended⟩ := bind_eq_ok more
      cases ended
      obtain ⟨here, leads⟩ := storeValue_stored filed (visible entry List.mem_cons_self) storing
      obtain ⟨led, apart, resolve⟩ := ih here.filed (fun other member => visible other (List.mem_cons_of_mem _ member)) later
      refine ⟨.cons leads ?_, ?_, ?_⟩
      · exact led.imp fun _ _ leads => (leads_congr here.revoked).mp leads
      · intro key differs
        rw [apart key fun other member => differs other (List.mem_cons_of_mem _ member)]
        exact here.others key (differs handle List.mem_cons_self)
      · intro distinct
        obtain ⟨new, tail⟩ := List.nodup_cons.mp distinct
        refine .cons ⟨handle, ?_, here.active, here.holds.decrypt⟩ (resolve tail)
        rw [apart (tenantId, handle.id) ?_]
        · exact here.current
        · intro other member same
          exact new (List.mem_map.mpr ⟨other, member, (congrArg Prod.snd same).symm⟩)

/-- The handles of a message are distinct, and every reference resolves to the value that it replaced. -/
structure Faithful (cipher : HostKeySecretCipher) (tenantId : String) (stored : SecretVault) (accepted : List IngressMatch)
    (handles : List SecretRevision) : Prop where
  distinct : (handles.map SecretRevision.id).Nodup
  resolve : List.Forall₂ (Resolves cipher tenantId stored) accepted handles

/-- No two values of a message are led to one handle. -/
def Apart (vault : SecretVault) (tenantId : String) (ids : List String) : Prop :=
  ids.Pairwise fun first second => ∀ id, ¬ (Leads vault tenantId first id ∧ Leads vault tenantId second id)

theorem exists_related {α β : Type} {R : α → β → Prop} {first : List α} {second : List β}
    (related : List.Forall₂ R first second) {left : α} (member : left ∈ first) : ∃ right ∈ second, R left right := by
  induction related with
  | nil => cases member
  | cons here _ ih =>
    rcases List.mem_cons.mp member with rfl | later
    · exact ⟨_, List.mem_cons_self, here⟩
    · obtain ⟨right, listed, holds⟩ := ih later
      exact ⟨right, List.mem_cons_of_mem _ listed, holds⟩

theorem apart_iff {vault : SecretVault} {ids handles : List String}
    (led : List.Forall₂ (Leads vault tenantId) ids handles) : Apart vault tenantId ids ↔ handles.Nodup := by
  induction led with
  | nil => simp [Apart]
  | @cons first handle rest handles leads led ih =>
    unfold Apart at ih ⊢
    rw [List.pairwise_cons, List.nodup_cons, ih]
    refine and_congr_left fun _ => ?_
    constructor
    · intro differs member
      obtain ⟨second, listed, leadsToo⟩ := exists_related led.flip member
      exact differs second listed handle ⟨leads, leadsToo⟩
    · rintro new second listed id ⟨here, there⟩
      obtain ⟨other, member, leadsThere⟩ := exists_related led listed
      rw [here.unique leads] at there
      exact new (there.unique leadsThere ▸ member)

/-- For every message and every vault that its operations can reach, the references that ingest writes are faithful if
and only if no two values are led to one handle. -/
theorem references_faithful_iff (cipher : HostKeySecretCipher) (hash : String → String) (ops : List Grants.Op)
    (tenantId actorId : String) (unicode : Unicode) (text : String) (draws : List (ByteArray × Int))
    (stored : SecretVault) (result : IngressResult) (accepted : List IngressMatch)
    (done : ingest cipher tenantId actorId unicode (Run.exec (Grants.step cipher hash) .empty ops).vault text draws =
      .ok (stored, result))
    (matched : acceptedMatches unicode text.toList = .ok accepted) :
    Faithful cipher tenantId stored accepted result.handles ↔
      Apart (Run.exec (Grants.step cipher hash) .empty ops).vault tenantId (preferredIds [] accepted) := by
  have filed : Filed (Run.exec (Grants.step cipher hash) .empty ops).vault :=
    (Grants.exec_sound Grants.sound_empty ops).filed
  generalize (Run.exec (Grants.step cipher hash) .empty ops).vault = vault at done filed
  obtain ⟨storing, -⟩ := Redaction.ingest_ok done matched
  have lengths := Redaction.preferredIds_length [] accepted
  have visible : ∀ entry ∈ accepted.zip (preferredIds [] accepted), Visible entry.2 :=
    fun entry member => visible_preferredIds [] (visible_accepted matched) entry.2 (List.of_mem_zip member).2
  obtain ⟨led, -, resolve⟩ := storeAll_stored filed visible storing
  have ids : List.Forall₂ (Leads vault tenantId) (preferredIds [] accepted) (result.handles.map SecretRevision.id) := by
    have mapped : (accepted.zip (preferredIds [] accepted)).map Prod.snd = preferredIds [] accepted :=
      List.map_snd_zip lengths.le
    rw [← mapped, List.forall₂_map_left_iff, List.forall₂_map_right_iff]
    exact led
  rw [apart_iff ids]
  refine ⟨Faithful.distinct, fun distinct => ⟨distinct, ?_⟩⟩
  have mapped : (accepted.zip (preferredIds [] accepted)).map Prod.fst = accepted := List.map_fst_zip lengths.ge
  rw [← mapped, List.forall₂_map_left_iff]
  exact resolve distinct

end Messages

section Samples

open Redaction (sampleUnicode sampleCipher sampleIngest exists_of_isOk)

/-- A named value before a token. -/
def namedBefore (name : String) : String := "<secret name=\"" ++ name ++ "\">hunter22</secret> sk-aaaaaaaaaaaaaaaa"

def sampleMatches (name : String) (scopes : List String) (stop : Nat) : List IngressMatch :=
  [⟨0, stop, "hunter22", ⟨"named:" ++ name, name, name, scopes⟩⟩,
    ⟨stop + 1, stop + 20, "sk-aaaaaaaaaaaaaaaa", ⟨"api", "api_token", "api_token", ["api.invoke"]⟩⟩]

theorem leads_empty {tenantId preferred id : String} (leads : Leads .empty tenantId preferred id) : id = preferred := by
  obtain ⟨n, rfl, -, before⟩ := leads
  cases n with
  | zero => rfl
  | succ n =>
    obtain ⟨row, found, -⟩ := before 0 (Nat.succ_pos n)
    cases found

theorem references_faithful_iff_named :
    ∃ outcome, sampleIngest (namedBefore "db_password") = .ok outcome ∧
      Faithful sampleCipher "tenant" outcome.1 (sampleMatches "db_password" ["credential.use"] 44) outcome.2.handles := by
  obtain ⟨⟨stored, result⟩, done⟩ : ∃ outcome, sampleIngest (namedBefore "db_password") = .ok outcome :=
    exists_of_isOk (by decide +kernel)
  have matched : acceptedMatches sampleUnicode (namedBefore "db_password").toList =
      .ok (sampleMatches "db_password" ["credential.use"] 44) := by decide +kernel
  refine ⟨_, done, (references_faithful_iff sampleCipher (fun token => token) [] "tenant" "owner" sampleUnicode _ _ stored
    result _ done matched).mpr ?_⟩
  have ids : preferredIds [] (sampleMatches "db_password" ["credential.use"] 44) = ["db_password", "api_token"] := by
    decide +kernel
  rw [ids]
  refine List.pairwise_cons.mpr ⟨?_, List.pairwise_singleton _ _⟩
  intro second listed id
  rw [List.mem_singleton.mp listed]
  rintro ⟨first, other⟩
  exact absurd ((leads_empty first).symm.trans (leads_empty other)) (by decide)

/-- A value that is named as the handle of the token behind it is lost. -/
theorem named_value_overwritten :
    ∃ outcome, sampleIngest (namedBefore "api_token") = .ok outcome ∧
      acceptedMatches sampleUnicode (namedBefore "api_token").toList =
        .ok (sampleMatches "api_token" ["credential.use"] 42) ∧
      ¬ Faithful sampleCipher "tenant" outcome.1 (sampleMatches "api_token" ["credential.use"] 42) outcome.2.handles := by
  obtain ⟨outcome, done⟩ : ∃ outcome, sampleIngest (namedBefore "api_token") = .ok outcome :=
    exists_of_isOk (by decide +kernel)
  have handles : (sampleIngest (namedBefore "api_token")).map (fun outcome => outcome.2.handles.map SecretRevision.id) =
      .ok ["api_token", "api_token"] := by decide +kernel
  rw [done] at handles
  have ids : outcome.2.handles.map SecretRevision.id = ["api_token", "api_token"] := Except.ok.inj handles
  refine ⟨outcome, done, by decide +kernel, ?_⟩
  intro faithful
  have distinct := faithful.distinct
  rw [ids] at distinct
  exact absurd distinct (by decide)

end Samples

end OpenTulpa.Secrets.Handles
