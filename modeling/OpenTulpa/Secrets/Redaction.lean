import OpenTulpa.Library.Provenance
import OpenTulpa.Secrets.Ingress

/-! What secret ingress takes out of a message. The accepted matches and the invalid blocks are two
lists of spans, and the text is spliced over the invalid ones first. An invalid block that is not
as long as its marker moves the text behind it, and an accepted match there is missed. -/

namespace OpenTulpa.Secrets.Redaction

open Library Outcome Splice Provenance Regex Vault Ingress

section Spans

variable {unicode : Unicode} {text : List Char}

def needs (name : String) : Nat := if name = "value" then 1 else 0

/-- The match lies in the text and is not empty. -/
def Proper (text : List Char) (span : Nat × Nat) : Prop := span.1 < span.2 ∧ span.2 ≤ text.length

theorem proper_of_finditer {pattern : Pattern} (captures : pattern.captures (fun _ => 0) = true) (long : 0 < pattern.least)
    {found : Match} (member : found ∈ finditer pattern text) : Proper text found.span := by
  obtain ⟨ahead, inside⟩ := (finditer_spans captures text found member).whole
  exact ⟨by dsimp only [Match.span]; omega, inside⟩

theorem proper_of_value {pattern : Pattern} (captures : pattern.captures needs = true) {found : Match}
    (member : found ∈ finditer pattern text) {span : Nat × Nat} (captured : found.groups.span "value" = some span) :
    Proper text span := by
  obtain ⟨ahead, inside⟩ := group_span (finditer_spans captures text found member) captured
  have one : needs "value" = 1 := by decide
  exact ⟨by omega, inside⟩

theorem captures_zero (pattern : Pattern) : pattern.captures (fun _ => 0) = true := by
  induction pattern with
  | empty | char _ | same _ | assert _ => rfl
  | seq _ _ left right | either _ _ left right => simp [Pattern.captures, left, right]
  | many _ _ _ _ ih | group _ _ ih => simp [Pattern.captures, ih]

theorem proper_of_block {found : Match} (member : found ∈ finditer secretTagBlock text ++ finditer secretLineBlock text) :
    Proper text found.span := by
  rcases List.mem_append.mp member with tag | line
  · exact proper_of_finditer (captures_zero _) (by decide) tag
  · exact proper_of_finditer (captures_zero _) (by decide) line

theorem mem_insertSpan {span other : Nat × Nat} {spans : List (Nat × Nat)} :
    other ∈ insertSpan span spans ↔ other = span ∨ other ∈ spans := by
  induction spans with
  | nil => simp [insertSpan]
  | cons first rest ih =>
    simp only [insertSpan]
    split
    · simp
    · simp only [List.mem_cons, ih]
      tauto

theorem mem_sortedSet {span : Nat × Nat} {spans : List (Nat × Nat)} : span ∈ sortedSet spans ↔ span ∈ spans := by
  have folded : ∀ list : List (Nat × Nat), span ∈ list.foldr insertSpan [] ↔ span ∈ list := by
    intro list
    induction list with
    | nil => simp
    | cons first rest ih => rw [List.foldr_cons, mem_insertSpan, ih, List.mem_cons]
  rw [sortedSet, folded, List.mem_dedup]

theorem insertSpan_sorted {span : Nat × Nat} {spans : List (Nat × Nat)}
    (sorted : spans.Pairwise fun first second => first.1 ≤ second.1) :
    (insertSpan span spans).Pairwise fun first second => first.1 ≤ second.1 := by
  induction spans with
  | nil => exact List.pairwise_singleton _ _
  | cons other rest ih =>
    obtain ⟨least, later⟩ := List.pairwise_cons.mp sorted
    simp only [insertSpan]
    split
    · rename_i before
      have low : span.1 ≤ other.1 := by omega
      refine List.pairwise_cons.mpr ⟨?_, sorted⟩
      intro third member
      rcases List.mem_cons.mp member with rfl | inside
      · exact low
      · exact low.trans (least third inside)
    · rename_i after
      refine List.pairwise_cons.mpr ⟨?_, ih later⟩
      intro third member
      rcases mem_insertSpan.mp member with rfl | inside
      · omega
      · exact least third inside

theorem sortedSet_sorted (spans : List (Nat × Nat)) :
    (sortedSet spans).Pairwise fun first second => first.1 ≤ second.1 := by
  rw [sortedSet]
  induction spans.dedup with
  | nil => exact List.Pairwise.nil
  | cons first rest ih => exact insertSpan_sorted ih

theorem proper_of_secretBlock {span : Nat × Nat} (member : span ∈ secretBlockSpans unicode text) : Proper text span := by
  simp only [secretBlockSpans] at member
  rcases List.mem_append.mp (mem_sortedSet.mp member) with complete | opened
  · obtain ⟨found, present, rfl⟩ := List.mem_map.mp (mem_sortedSet.mp complete)
    exact proper_of_block present
  · obtain ⟨found, present, rfl⟩ := List.mem_map.mp opened
    have opening : (literalIgnoringCase "<secret").least = 7 := by decide
    have long : 0 < (secretOpen unicode).least := by simp [secretOpen, Pattern.least, opening]
    obtain ⟨low, high⟩ := proper_of_finditer (captures_zero _) long (List.mem_filter.mp present).1
    exact ⟨low.trans_le high, le_rfl⟩

theorem foldlM_forall {α β ε : Type} {step : List α → β → Except ε (List α)} {good : α → Prop} {items : List β}
    (keeps : ∀ item ∈ items, ∀ before after, (∀ x ∈ before, good x) → step before item = .ok after → ∀ x ∈ after, good x)
    {before after : List α} (start : ∀ x ∈ before, good x) (done : items.foldlM step before = .ok after) :
    ∀ x ∈ after, good x := by
  induction items generalizing before with
  | nil =>
    cases done
    exact start
  | cons item rest ih =>
    rw [List.foldlM_cons] at done
    obtain ⟨middle, stepped, rest⟩ := bind_eq_ok done
    refine ih (fun other member => keeps other (List.mem_cons_of_mem _ member)) ?_ rest
    exact keeps item List.mem_cons_self before middle start stepped

theorem proper_of_addBlock {found : Match} (placed : Proper text found.span) {before after : List IngressMatch}
    (known : ∀ entry ∈ before, Proper text entry.span) (done : addBlock unicode text before found = .ok after) :
    ∀ entry ∈ after, Proper text entry.span := by
  unfold addBlock at done
  split at done
  · cases done
    exact known
  · obtain ⟨name, _, rest⟩ := bind_eq_ok done
    split at rest
    · cases rest
      exact known
    · cases rest
      intro entry member
      rcases List.mem_append.mp member with old | new
      · exact known entry old
      · rw [List.mem_singleton.mp new]
        exact placed

theorem proper_of_addAssignment {found : Match} (member : found ∈ finditer namedSecretAssignment text)
    {before after : List IngressMatch} (known : ∀ entry ∈ before, Proper text entry.span)
    (done : addAssignment unicode text before found = .ok after) : ∀ entry ∈ after, Proper text entry.span := by
  unfold addAssignment at done
  split at done
  · cases done
    exact known
  · rename_i span captured
    split at done
    · cases done
      exact known
    · obtain ⟨name, _, rest⟩ := bind_eq_ok done
      generalize (if name = "ssh_password" then 1 else 8) = least at rest
      split at rest
      · cases rest
        exact known
      · cases rest
        have captures : namedSecretAssignment.captures needs = true := by decide
        intro entry present
        rcases List.mem_append.mp present with old | new
        · exact known entry old
        · rw [List.mem_singleton.mp new]
          exact proper_of_value captures member captured

theorem proper_of_named {named : List IngressMatch} (done : namedMatches unicode text = .ok named) :
    ∀ entry ∈ named, Proper text entry.span := by
  obtain ⟨blocks, blocked, assigned⟩ := bind_eq_ok done
  have first : ∀ entry ∈ blocks, Proper text entry.span := by
    refine foldlM_forall ?_ (by simp) blocked
    intro found member before after known stepped
    exact proper_of_addBlock (proper_of_block member) known stepped
  refine foldlM_forall ?_ first assigned
  intro found member before after known stepped
  exact proper_of_addAssignment member known stepped

theorem captures_value {entry : CredentialPattern × Pattern} (member : entry ∈ credentialPatterns) :
    entry.2.captures needs = true := by
  have all : credentialPatterns.all (fun entry => entry.2.captures needs) = true := by decide
  exact List.all_eq_true.mp all entry member

theorem proper_of_pattern {found : IngressMatch} (member : found ∈ patternMatches unicode text) :
    Proper text found.span := by
  obtain ⟨entry, listed, inside⟩ := List.mem_flatMap.mp member
  obtain ⟨raw, present, bound⟩ := List.mem_filterMap.mp inside
  obtain ⟨span, captured, chosen⟩ := Option.bind_eq_some_iff.mp bound
  split at chosen
  · cases chosen
  · cases chosen
    exact proper_of_value (captures_value listed) present captured

theorem mem_insertMatch {before : IngressMatch → IngressMatch → Bool} {found other : IngressMatch}
    {rest : List IngressMatch} : other ∈ insertMatch before found rest ↔ other = found ∨ other ∈ rest := by
  induction rest with
  | nil => simp [insertMatch]
  | cons first rest ih =>
    simp only [insertMatch]
    split
    · simp
    · simp only [List.mem_cons, ih]
      tauto

theorem accept_ordered {candidates : List IngressMatch} {previousEnd : Nat}
    (proper : ∀ entry ∈ candidates, Proper text entry.span) (low : previousEnd ≤ text.length) :
    Ordered text.length previousEnd ((accept previousEnd candidates).map IngressMatch.span) ∧
      ∀ entry ∈ accept previousEnd candidates, entry ∈ candidates := by
  induction candidates generalizing previousEnd with
  | nil => exact ⟨low, by simp [accept]⟩
  | cons found rest ih =>
    have later := fun entry member => proper entry (List.mem_cons_of_mem _ member)
    obtain ⟨forward, inside⟩ := proper found List.mem_cons_self
    simp only [accept]
    split
    · obtain ⟨ordered, chosen⟩ := ih later low
      exact ⟨ordered, fun entry member => List.mem_cons_of_mem _ (chosen entry member)⟩
    · rename_i after
      obtain ⟨ordered, chosen⟩ := ih later inside
      refine ⟨⟨Nat.not_lt.mp after, forward.le, ordered⟩, ?_⟩
      intro entry member
      rcases List.mem_cons.mp member with rfl | behind
      · exact List.mem_cons_self
      · exact List.mem_cons_of_mem _ (chosen entry behind)

theorem mem_accept {candidates : List IngressMatch} {previousEnd : Nat} {found : IngressMatch}
    (member : found ∈ accept previousEnd candidates) : found ∈ candidates := by
  induction candidates generalizing previousEnd with
  | nil => cases member
  | cons first rest ih =>
    simp only [accept] at member
    split at member
    · exact List.mem_cons_of_mem _ (ih member)
    · rcases List.mem_cons.mp member with rfl | later
      · exact List.mem_cons_self
      · exact List.mem_cons_of_mem _ (ih later)

/-- An accepted match was named or found by a pattern. -/
theorem mem_candidates {accepted : List IngressMatch} (done : acceptedMatches unicode text = .ok accepted)
    {found : IngressMatch} (member : found ∈ accepted) :
    (∃ named, namedMatches unicode text = .ok named ∧ found ∈ named) ∨ found ∈ patternMatches unicode text := by
  obtain ⟨named, taken, rest⟩ := bind_eq_ok done
  cases rest
  have sorted : ∀ candidates : List IngressMatch, found ∈ candidates.foldr (insertMatch (precedes named)) [] →
      found ∈ candidates := by
    intro candidates inside
    induction candidates with
    | nil => exact inside
    | cons first rest ih =>
      rcases mem_insertMatch.mp inside with rfl | later
      · exact List.mem_cons_self
      · exact List.mem_cons_of_mem _ (ih later)
  rcases List.mem_append.mp (sorted _ (mem_accept member)) with first | second
  · exact Or.inl ⟨named, taken, first⟩
  · exact Or.inr second

theorem accepted_ordered {accepted : List IngressMatch} (done : acceptedMatches unicode text = .ok accepted) :
    Ordered text.length 0 (accepted.map IngressMatch.span) ∧ ∀ entry ∈ accepted, Proper text entry.span := by
  obtain ⟨named, taken, rest⟩ := bind_eq_ok done
  cases rest
  have proper : ∀ entry ∈ (named ++ patternMatches unicode text).foldr (insertMatch (precedes named)) [],
      Proper text entry.span := by
    have known : ∀ entry ∈ named ++ patternMatches unicode text, Proper text entry.span := by
      intro entry member
      rcases List.mem_append.mp member with first | second
      · exact proper_of_named taken entry first
      · exact proper_of_pattern second
    generalize named ++ patternMatches unicode text = candidates at known
    induction candidates with
    | nil => simp
    | cons first rest ih =>
      intro entry member
      rcases mem_insertMatch.mp member with rfl | inside
      · exact known _ List.mem_cons_self
      · exact ih (fun other present => known other (List.mem_cons_of_mem _ present)) entry inside
  obtain ⟨ordered, chosen⟩ := accept_ordered proper (Nat.zero_le _)
  exact ⟨ordered, fun entry member => proper entry (chosen entry member)⟩

end Spans

section Ingesting

variable {cipher : HostKeySecretCipher} {tenantId actorId : String} {unicode : Unicode}

theorem storeAll_length {vault stored : SecretVault} {entries : List (IngressMatch × String)}
    {draws : List (ByteArray × Int)} {handles : List SecretRevision}
    (done : storeAll cipher tenantId actorId vault entries draws = .ok (stored, handles)) :
    handles.length = entries.length := by
  induction entries generalizing vault handles draws with
  | nil =>
    cases done
    rfl
  | cons entry rest ih =>
    cases draws with
    | nil => cases done
    | cons draw draws =>
      obtain ⟨⟨next, handle⟩, _, more⟩ := bind_eq_ok done
      obtain ⟨⟨last, others⟩, later, ended⟩ := bind_eq_ok more
      cases ended
      rw [List.length_cons, ih later, List.length_cons]

theorem preferredIds_length (earlier : List String) (accepted : List IngressMatch) :
    (preferredIds earlier accepted).length = accepted.length := by
  induction accepted generalizing earlier with
  | nil => rfl
  | cons found rest ih => rw [preferredIds, List.length_cons, ih, List.length_cons]

/-- What ingest returns when the vault takes every value. -/
theorem ingest_ok {vault stored : SecretVault} {text : String} {draws : List (ByteArray × Int)} {result : IngressResult}
    (done : ingest cipher tenantId actorId unicode vault text draws = .ok (stored, result)) {accepted : List IngressMatch}
    (matched : acceptedMatches unicode text.toList = .ok accepted) :
    storeAll cipher tenantId actorId vault (accepted.zip (preferredIds [] accepted)) draws = .ok (stored, result.handles) ∧
      result.sanitized = spliceAll text.toList (replacements accepted (result.handles.map SecretRevision.id)
        (invalidSecretSpans unicode text.toList accepted)) := by
  obtain ⟨taken, same, rest⟩ := bind_eq_ok done
  rw [matched] at same
  cases same
  obtain ⟨⟨last, handles⟩, kept, ended⟩ := bind_eq_ok rest
  cases ended
  exact ⟨kept, rfl⟩

/-- The spans of a message share no position, but for invalid blocks that all run to its end. -/
structure Separate (text : List Char) (accepted : List IngressMatch) (invalid : List (Nat × Nat)) : Prop where
  disjoint : invalid.Pairwise fun span other => span.2 ≤ other.1 ∨ span.2 = text.length ∧ other.2 = text.length
  across : ∀ found ∈ accepted, ∀ span ∈ invalid, found.stop ≤ span.1 ∨ span.2 ≤ found.start

/-- The invalid blocks before each accepted match are as long as the markers that replace them. -/
def Unmoved (accepted : List IngressMatch) (invalid : List (Nat × Nat)) : Prop :=
  ∀ found ∈ accepted, removedBefore invalid found.start =
    notStored.length * (invalid.filter fun span => span.2 ≤ found.start).length

theorem sizes_replacements (accepted : List IngressMatch) (ids : List String) (invalid : List (Nat × Nat)) :
    sizes (replacements accepted ids invalid) =
      ((accepted.zip ids).map fun stored => (stored.1.span, (reference stored.2).toList.length)) ++
        invalid.map fun span => (span, notStored.toList.length) := by
  simp [sizes, replacements, Function.comp_def]

theorem zip_spans {accepted : List IngressMatch} {ids : List String} (same : ids.length = accepted.length) :
    ((accepted.zip ids).map fun stored => (stored.1.span, (reference stored.2).toList.length)).map Prod.fst =
      accepted.map IngressMatch.span := by
  have firsts : (accepted.zip ids).map Prod.fst = accepted := List.map_fst_zip (by omega)
  rw [List.map_map]
  exact (List.map_map (f := Prod.fst) (g := IngressMatch.span)).symm.trans (by rw [firsts])

theorem insertedBefore_markers (invalid : List (Nat × Nat)) (position : Nat) :
    insertedBefore (invalid.map fun span => (span, notStored.toList.length)) position =
      notStored.length * (invalid.filter fun span => span.2 ≤ position).length := by
  rw [insertedBefore, List.filter_map, List.map_map]
  simp [Function.comp_def, List.map_const', Nat.mul_comm, String.length_toList]

theorem balanced_iff_unmoved {accepted : List IngressMatch} {ids : List String} (same : ids.length = accepted.length)
    {invalid : List (Nat × Nat)} :
    Balanced ((accepted.zip ids).map fun stored => (stored.1.span, (reference stored.2).toList.length))
      (invalid.map fun span => (span, notStored.toList.length)) ↔ Unmoved accepted invalid := by
  have firsts : (invalid.map fun span => (span, notStored.toList.length)).map Prod.fst = invalid := by
    rw [List.map_map]
    exact List.map_id invalid
  rw [Provenance.Balanced, Unmoved, firsts]
  constructor
  · intro balanced found member
    have listed : found.span ∈ ((accepted.zip ids).map fun stored =>
        (stored.1.span, (reference stored.2).toList.length)).map Prod.fst := by
      rw [zip_spans same]
      exact List.mem_map_of_mem member
    obtain ⟨size, present, span⟩ := List.mem_map.mp listed
    have equal := balanced size present
    rw [span, insertedBefore_markers] at equal
    exact equal
  · intro unmoved size member
    obtain ⟨⟨found, id⟩, present, rfl⟩ := List.mem_map.mp member
    rw [insertedBefore_markers]
    exact unmoved found (List.of_mem_zip present).1

theorem passes_of_separate {text : List Char} {accepted : List IngressMatch} {ids : List String}
    (matched : acceptedMatches unicode text = .ok accepted) (same : ids.length = accepted.length)
    (separate : Separate text accepted (invalidSecretSpans unicode text accepted)) :
    Passes text.length ((accepted.zip ids).map fun stored => (stored.1.span, (reference stored.2).toList.length))
      ((invalidSecretSpans unicode text accepted).map fun span => (span, notStored.toList.length)) := by
  obtain ⟨ordered, proper⟩ := accepted_ordered matched
  have firsts : ∀ spans : List (Nat × Nat), (spans.map fun span => (span, notStored.toList.length)).map Prod.fst = spans := by
    intro spans
    rw [List.map_map]
    exact List.map_id spans
  refine ⟨by rwa [zip_spans same], ?_, ⟨?_, ?_, ?_⟩, ?_, ?_⟩
  · intro size member
    obtain ⟨⟨found, id⟩, present, rfl⟩ := List.mem_map.mp member
    refine ⟨(proper found (List.of_mem_zip present).1).1, ?_⟩
    simp [reference]
  · rw [firsts]
    exact fun span member => proper_of_secretBlock (List.mem_filter.mp member).1
  · rw [firsts]
    exact (sortedSet_sorted _).filter _
  · rw [firsts]
    exact separate.disjoint
  · intro size member
    obtain ⟨span, _, rfl⟩ := List.mem_map.mp member
    simp [notStored]
  · intro size member other present
    obtain ⟨⟨found, id⟩, inside, rfl⟩ := List.mem_map.mp member
    obtain ⟨span, invalid, rfl⟩ := List.mem_map.mp present
    exact separate.across found (List.of_mem_zip inside).1 span invalid

end Ingesting

section Samples

/-- The character database on ASCII. -/
def sampleUnicode : Unicode := ⟨fun c => c.isAlphanum || c == '_', Text.lower, Text.lower⟩

def sampleCipher : HostKeySecretCipher :=
  ⟨fun nonce plaintext _ => ⟨"k1", nonce, plaintext⟩, fun encrypted _ => some encrypted.ciphertext, fun _ _ _ => rfl⟩

def sampleDraws : List (ByteArray × Int) := [(.empty, 1), (.empty, 2)]

def sampleIngest (text : String) : Except VaultError (SecretVault × IngressResult) :=
  ingest sampleCipher "tenant" "owner" sampleUnicode .empty text sampleDraws

/-- A token before an invalid block. -/
def tokenFirst : String := "sk-aaaaaaaaaaaaaaaa <secret name=\"x\">***</secret>"

/-- An invalid block before a token. -/
def tokenLast : String := "<secret name=\"x\">***</secret> sk-aaaaaaaaaaaaaaaa"

def sampleToken (start : Nat) : IngressMatch :=
  ⟨start, start + 19, "sk-aaaaaaaaaaaaaaaa", ⟨"api", "api_token", "api_token", ["api.invoke"]⟩⟩

theorem exists_of_isOk {ε α : Type} {outcome : Except ε α} (done : outcome.isOk = true) : ∃ value, outcome = .ok value := by
  cases outcome with
  | ok value => exact ⟨value, rfl⟩
  | error _ => cases done

end Samples

end OpenTulpa.Secrets.Redaction
