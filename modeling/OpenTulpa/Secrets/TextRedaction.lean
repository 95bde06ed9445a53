import OpenTulpa.Secrets.PayloadRedaction

/-! The redaction of texts by the vault and by the supervisor: one secret after the other, the longer ones first, is replaced
by a marker. What is left of a secret in the result has a character of a marker in it. -/

namespace OpenTulpa.Secrets.TextRedaction

open Library.Masking PayloadRedaction

section Model

/-- `text.replace(old, new)`; an empty `old` stands before every character and at the end. -/
def replaceAll (old new text : List Char) : List Char :=
  if old.isEmpty then new ++ text.flatMap fun c => c :: new else replace id old new text

/-- `SecretVault._redact_text` -/
def vaultRedactText (text : String) (values : List String) : String :=
  String.ofList ((sortedValues values).foldl
    (fun redacted value => if value.isEmpty then redacted else replaceAll value marker redacted) text.toList)

/-- `RuntimeSupervisor.redact` before its line pattern -/
def supervisorRedact (redactionValues : List String) (text : String) : String :=
  String.ofList ((sortedValues redactionValues).foldl (fun safeText value => replaceAll value marker safeText) text.toList)

end Model

section Results

variable (values : List String) (text : String)

theorem vaultRedactText_eq : vaultRedactText text values = redactText values text := by
  have step : (fun redacted value : List Char => if value.isEmpty then redacted else replaceAll value marker redacted) =
      fun redacted value => replace id value marker redacted := by
    funext redacted value
    unfold replaceAll
    split
    · rename_i blank
      rw [replace, if_pos blank]
    · rfl
  rw [vaultRedactText, step, redactText, mask]

theorem foldl_replaceAll {words : List (List Char)} (filled : [] ∉ words) (text : List Char) :
    words.foldl (fun safeText value => replaceAll value marker safeText) text = mask id words marker text := by
  induction words generalizing text with
  | nil => rfl
  | cons word words ih =>
    rw [List.mem_cons, not_or] at filled
    have some_ : ¬ word.isEmpty = true := by simpa using Ne.symm filled.1
    rw [List.foldl_cons, ih filled.2, replaceAll, if_neg some_]
    rfl

variable {values}

theorem supervisorRedact_eq (filled : "" ∉ values) : supervisorRedact values text = redactText values text := by
  have words : [] ∉ sortedValues values := by
    rw [sortedValues, List.mem_insertionSort, List.mem_map]
    rintro ⟨value, member, empty⟩
    exact filled (String.toList_eq_nil_iff.mp empty ▸ member)
  rw [supervisorRedact, foldl_replaceAll words, redactText]

/-- Both redactions are the trace without its flags. The characters that no flag says were put in are characters of the text
in their order, and wherever a secret occurs in the result one of its characters was put in. -/
theorem redaction_complete (values : List String) (text : String) (filled : "" ∉ values) :
    erase (trace values text) = vaultRedactText text values ∧ erase (trace values text) = supervisorRedact values text ∧
      (remaining (trace values text)).Sublist text.toList ∧
      ∀ value ∈ values, ∀ before after, (erase (trace values text)).toList = before ++ value.toList ++ after →
        ∃ cell ∈ ((trace values text).drop before.length).take value.toList.length, cell.2 = true := by
  refine ⟨(erase_trace values text).trans (vaultRedactText_eq values text).symm,
    (erase_trace values text).trans (supervisorRedact_eq text filled).symm, ?_, ?_⟩
  · have kept_ := remaining_mask (sortedValues values) marker (kept text.toList)
    rwa [remaining_kept] at kept_
  · intro value member before after occurs
    have some_ : value ≠ "" := fun empty => filled (empty ▸ member)
    have reads : (trace values text).map Prod.fst = before ++ value.toList ++ after := by
      rwa [erase, String.toList_ofList] at occurs
    exact overlaps_of_not_shown (hidden_trace values text value member some_) reads

/-- A shorter secret stands in the marker of a longer one. -/
theorem redaction_complete_inMarker :
    erase (trace ["act", "secret"] "a secret") = "a [red[redacted]ed]" ∧
      ∀ value ∈ ["act", "secret"], ∀ before after,
        (erase (trace ["act", "secret"] "a secret")).toList = before ++ value.toList ++ after →
        ∃ cell ∈ ((trace ["act", "secret"] "a secret").drop before.length).take value.toList.length, cell.2 = true :=
  ⟨by decide +kernel, (redaction_complete ["act", "secret"] "a secret" (by decide)).2.2.2⟩

end Results

end OpenTulpa.Secrets.TextRedaction
