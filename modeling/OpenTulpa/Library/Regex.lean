import OpenTulpa.Library.Splice
import OpenTulpa.Library.Text

/-! Regular expressions as a backtracking engine matches them: alternatives in order, greedy and
lazy repetition, named groups, references back to them, and assertions about the neighbourhood. -/

namespace OpenTulpa.Library.Regex

open Splice

inductive Pattern where
  | empty
  | char (accepts : Char → Bool)
  | seq (first second : Pattern)
  | either (first second : Pattern)
  | many (greedy : Bool) (least : Nat) (most : Option Nat) (body : Pattern)
  | group (name : String) (body : Pattern)
  | same (name : String)
  | assert (holds : Option Char → List Char → Bool)

/-- A position in the text, with the character before it and the characters from it on. -/
structure Cursor where
  previous : Option Char
  rest : List Char
  position : Nat
  deriving DecidableEq

/-- Where the groups matched, the latest first. -/
abbrev Groups := List (String × Nat × Nat)

abbrev Found := Cursor × Groups

abbrev Next := Cursor → Groups → Option Found

def Groups.span (groups : Groups) (name : String) : Option (Nat × Nat) :=
  (groups.find? fun group => group.1 == name).map Prod.snd

/-- The repetition of a matcher. An iteration that matches nothing is not taken once there are enough. -/
def iterate (body : Cursor → Groups → Next → Option Found) (greedy : Bool) (least : Nat) (most : Option Nat) :
    Nat → Nat → Cursor → Groups → Next → Option Found
  | 0, count, cursor, groups, next => if least ≤ count then next cursor groups else none
  | fuel + 1, count, cursor, groups, next =>
    let again := fun _ : Unit =>
      if most.any fun bound => bound ≤ count then none
      else
        body cursor groups fun later found =>
          if later.position = cursor.position ∧ least ≤ count then none
          else iterate body greedy least most fuel (count + 1) later found next
    if count < least then again ()
    else if greedy then again () <|> next cursor groups
    else next cursor groups <|> again ()

/-- `literal` at the cursor, and what comes after it. -/
def consume : List Char → Cursor → Option Cursor
  | [], cursor => some cursor
  | expected :: literal, ⟨_, rest, position⟩ =>
    match rest with
    | [] => none
    | c :: rest => if c = expected then consume literal ⟨some c, rest, position + 1⟩ else none

def run (text : List Char) : Pattern → Cursor → Groups → Next → Option Found
  | .empty, cursor, groups, next => next cursor groups
  | .char accepts, ⟨_, rest, position⟩, groups, next =>
    match rest with
    | [] => none
    | c :: rest => if accepts c then next ⟨some c, rest, position + 1⟩ groups else none
  | .seq first second, cursor, groups, next =>
    run text first cursor groups fun later found => run text second later found next
  | .either first second, cursor, groups, next => run text first cursor groups next <|> run text second cursor groups next
  | .many greedy least most body, cursor, groups, next =>
    iterate (run text body) greedy least most (cursor.rest.length + least + 1) 0 cursor groups next
  | .group name body, cursor, groups, next =>
    run text body cursor groups fun later found => next later ((name, cursor.position, later.position) :: found)
  | .same name, cursor, groups, next =>
    match groups.span name with
    | none => none
    | some (start, stop) => (consume (slice text start stop) cursor).bind fun later => next later groups
  | .assert holds, cursor, groups, next => if holds cursor.previous cursor.rest then next cursor groups else none

structure Match where
  start : Nat
  stop : Nat
  groups : Groups
  deriving DecidableEq

def Match.span (found : Match) : Nat × Nat := (found.start, found.stop)

def Match.group (found : Match) (text : List Char) (name : String) : Option (List Char) :=
  (found.groups.span name).map fun span => slice text span.1 span.2

/-- The matches from the cursor on, each search starting where the match before it ended. -/
def scan (regex : Pattern) (text : List Char) : Nat → Cursor → List Match
  | 0, _ => []
  | fuel + 1, cursor =>
    let skip := fun _ : Unit =>
      match cursor.rest with
      | [] => []
      | c :: rest => scan regex text fuel ⟨some c, rest, cursor.position + 1⟩
    match run text regex cursor [] fun later groups => some (later, groups) with
    | none => skip ()
    | some (later, groups) =>
      ⟨cursor.position, later.position, groups⟩ ::
        if later.position = cursor.position then skip () else scan regex text fuel later

/-- `finditer` -/
def finditer (regex : Pattern) (text : List Char) : List Match := scan regex text (text.length + 1) ⟨none, text, 0⟩

/-- `search` -/
def search (regex : Pattern) (text : List Char) : Option Match := (finditer regex text).head?

/-- `fullmatch` -/
def fullmatch (regex : Pattern) (text : List Char) : Option Match :=
  (run text regex ⟨none, text, 0⟩ [] fun later groups => if later.rest = [] then some (later, groups) else none).map
    fun found => ⟨0, found.1.position, found.2⟩

section Building

def ofList : List Pattern → Pattern
  | [] => .empty
  | first :: rest => rest.foldl .seq first

def literal (text : String) : Pattern := ofList (text.toList.map fun c => .char (· == c))

def alternatives : List Pattern → Pattern
  | [] => .char fun _ => false
  | first :: rest => rest.foldl .either first

def star (accepts : Char → Bool) : Pattern := .many true 0 none (.char accepts)

def plus (accepts : Char → Bool) : Pattern := .many true 1 none (.char accepts)

def between (accepts : Char → Bool) (least most : Nat) : Pattern := .many true least (some most) (.char accepts)

def optional (body : Pattern) : Pattern := .many true 0 (some 1) body

/-- `.*?` with `DOTALL` -/
def shortest : Pattern := .many false 0 none (.char fun _ => true)

/-- `.*` with `DOTALL` -/
def longest : Pattern := .many true 0 none (.char fun _ => true)

/-- `IGNORECASE` for a letter of a pattern: beyond the two cases of ASCII it relates the dotted and
dotless i, the long s and the sign of the kelvin to their letters. -/
def sameIgnoringCase (expected actual : Char) : Bool :=
  actual.toLower == expected.toLower ||
    (expected.toLower == 'i' && (actual.toNat == 0x130 || actual.toNat == 0x131)) ||
    (expected.toLower == 's' && actual.toNat == 0x17F) || (expected.toLower == 'k' && actual.toNat == 0x212A)

def literalIgnoringCase (text : String) : Pattern := ofList (text.toList.map fun c => .char (sameIgnoringCase c))

/-- `[A-Za-z]` under `IGNORECASE` -/
def isLetterIgnoringCase (c : Char) : Bool :=
  c.isAlpha || c.toNat == 0x130 || c.toNat == 0x131 || c.toNat == 0x17F || c.toNat == 0x212A

end Building

section Spans

/-- The least length of a match. -/
def Pattern.least : Pattern → Nat
  | .empty | .same _ | .assert _ => 0
  | .char _ => 1
  | .seq first second => first.least + second.least
  | .either first second => min first.least second.least
  | .many _ least _ body => least * body.least
  | .group _ body => body.least

/-- Each group matches at least as much as its name needs. -/
def Pattern.captures (need : String → Nat) : Pattern → Bool
  | .empty | .char _ | .same _ | .assert _ => true
  | .seq first second | .either first second => first.captures need && second.captures need
  | .many _ _ _ body => body.captures need
  | .group name body => need name ≤ body.least && body.captures need

/-- The cursor stands in a text of the length, and each group is in it and as long as it needs to be. -/
structure Placed (need : String → Nat) (length : Nat) (cursor : Cursor) (groups : Groups) : Prop where
  cursor : cursor.position + cursor.rest.length = length
  groups : ∀ group ∈ groups, group.2.1 + need group.1 ≤ group.2.2 ∧ group.2.2 ≤ length

/-- A matcher only moves forward, and by its least length. -/
def Forward (need : String → Nat) (length least : Nat) (matcher : Cursor → Groups → Next → Option Found) : Prop :=
  ∀ cursor groups next found, matcher cursor groups next = some found → Placed need length cursor groups →
    ∃ later captured, cursor.position + least ≤ later.position ∧ Placed need length later captured ∧
      next later captured = some found

variable {need : String → Nat} {length : Nat} {text : List Char}

theorem orElse_cases {first second : Option Found} {found : Found} (done : (first <|> second) = some found) :
    first = some found ∨ second = some found := by
  cases first with
  | none => exact Or.inr done
  | some other => exact Or.inl done

theorem iterate_forward {body : Cursor → Groups → Next → Option Found} {shortest : Nat}
    (forward : Forward need length shortest body) (greedy : Bool) (least : Nat) (most : Option Nat) (fuel count : Nat) :
    Forward need length ((least - count) * shortest) (iterate body greedy least most fuel count) := by
  induction fuel generalizing count with
  | zero =>
    intro cursor groups next found done placed
    simp only [iterate] at done
    split at done
    · rename_i enough
      exact ⟨cursor, groups, by simp [Nat.sub_eq_zero_of_le enough], placed, done⟩
    · cases done
  | succ fuel ih =>
    intro cursor groups next found done placed
    have again : ∀ {result}, (if most.any fun bound => bound ≤ count then none
        else body cursor groups fun later captured =>
          if later.position = cursor.position ∧ least ≤ count then none
          else iterate body greedy least most fuel (count + 1) later captured next) = some result →
        ∃ later captured, cursor.position + (least - count) * shortest ≤ later.position ∧
          Placed need length later captured ∧ next later captured = some result := by
      intro result more
      split at more
      · cases more
      obtain ⟨middle, captured, ahead, within, rest⟩ := forward _ _ _ _ more placed
      split at rest
      · cases rest
      obtain ⟨later, all, further, placed, ended⟩ := ih _ _ _ _ _ rest within
      refine ⟨later, all, ?_, placed, ended⟩
      have once : (least - count) * shortest ≤ (least - (count + 1)) * shortest + shortest := by
        rw [← Nat.succ_mul]
        exact Nat.mul_le_mul_right _ (by omega)
      omega
    simp only [iterate] at done
    split at done
    · exact again done
    · rename_i enough
      have stays : cursor.position + (least - count) * shortest ≤ cursor.position := by
        simp [Nat.sub_eq_zero_of_le (Nat.not_lt.mp enough)]
      split at done
      · rcases orElse_cases done with more | stop
        · exact again more
        · exact ⟨cursor, groups, stays, placed, stop⟩
      · rcases orElse_cases done with stop | more
        · exact ⟨cursor, groups, stays, placed, stop⟩
        · exact again more

theorem consume_forward {expected : List Char} {cursor later : Cursor} (done : consume expected cursor = some later) :
    cursor.position ≤ later.position ∧
      later.position + later.rest.length = cursor.position + cursor.rest.length := by
  induction expected generalizing cursor with
  | nil =>
    cases done
    exact ⟨le_rfl, rfl⟩
  | cons c expected ih =>
    obtain ⟨previous, rest, position⟩ := cursor
    simp only [consume] at done
    split at done
    · cases done
    split at done
    · obtain ⟨ahead, same⟩ := ih done
      simp only [List.length_cons] at ahead same ⊢
      omega
    · cases done

theorem run_forward {pattern : Pattern} (captures : pattern.captures need = true) :
    Forward need length pattern.least (run text pattern) := by
  induction pattern with
  | empty => exact fun cursor groups next found done placed => ⟨cursor, groups, le_rfl, placed, done⟩
  | char accepts =>
    intro cursor groups next found done placed
    obtain ⟨previous, rest, position⟩ := cursor
    simp only [run] at done
    split at done
    · cases done
    split at done
    · refine ⟨_, groups, ?_, ⟨?_, placed.groups⟩, done⟩
      · exact le_refl (position + 1)
      have same := placed.cursor
      simp only [List.length_cons] at same ⊢
      omega
    · cases done
  | seq first second left right =>
    obtain ⟨leftCaptures, rightCaptures⟩ := Bool.and_eq_true_iff.mp captures
    intro cursor groups next found done placed
    obtain ⟨middle, captured, ahead, within, rest⟩ := left leftCaptures _ _ _ _ done placed
    obtain ⟨later, all, further, placed, ended⟩ := right rightCaptures _ _ _ _ rest within
    refine ⟨later, all, ?_, placed, ended⟩
    simp only [Pattern.least]
    omega
  | either first second left right =>
    obtain ⟨leftCaptures, rightCaptures⟩ := Bool.and_eq_true_iff.mp captures
    intro cursor groups next found done placed
    have least : (Pattern.either first second).least = min first.least second.least := rfl
    rcases orElse_cases done with chosen | chosen
    · obtain ⟨later, all, ahead, rest⟩ := left leftCaptures _ _ _ _ chosen placed
      exact ⟨later, all, by omega, rest⟩
    · obtain ⟨later, all, ahead, rest⟩ := right rightCaptures _ _ _ _ chosen placed
      exact ⟨later, all, by omega, rest⟩
  | many greedy least most body forward =>
    intro cursor groups next found done placed
    exact iterate_forward (forward captures) greedy least most _ 0 _ _ _ _ done placed
  | group name body forward =>
    obtain ⟨enough, bodyCaptures⟩ := Bool.and_eq_true_iff.mp captures
    intro cursor groups next found done placed
    obtain ⟨later, captured, ahead, within, ended⟩ := forward bodyCaptures _ _ _ _ done placed
    refine ⟨later, _, ahead, ⟨within.cursor, ?_⟩, ended⟩
    intro group member
    rcases List.mem_cons.mp member with rfl | before
    · have inside := within.cursor
      have long := of_decide_eq_true enough
      exact ⟨by dsimp only; omega, by dsimp only; omega⟩
    · exact within.groups group before
  | same name =>
    intro cursor groups next found done placed
    simp only [run] at done
    split at done
    · cases done
    obtain ⟨later, moved, ended⟩ := Option.bind_eq_some_iff.mp done
    obtain ⟨ahead, same⟩ := consume_forward moved
    exact ⟨later, groups, ahead, ⟨same.trans placed.cursor, placed.groups⟩, ended⟩
  | assert holds =>
    intro cursor groups next found done placed
    simp only [run] at done
    split at done
    · exact ⟨cursor, groups, le_rfl, placed, done⟩
    · cases done

/-- A match is in the text and has its least length, and so is and has each of its groups. -/
structure Match.Spans (need : String → Nat) (least length : Nat) (found : Match) : Prop where
  whole : found.start + least ≤ found.stop ∧ found.stop ≤ length
  groups : ∀ group ∈ found.groups, group.2.1 + need group.1 ≤ group.2.2 ∧ group.2.2 ≤ length

theorem scan_spans {pattern : Pattern} (captures : pattern.captures need = true) (fuel : Nat) {cursor : Cursor}
    (placed : Placed need length cursor []) :
    ∀ found ∈ scan pattern text fuel cursor, found.Spans need pattern.least length := by
  induction fuel generalizing cursor with
  | zero => simp [scan]
  | succ fuel ih =>
    have skipped : ∀ found ∈ (match cursor.rest with
        | [] => []
        | c :: rest => scan pattern text fuel ⟨some c, rest, cursor.position + 1⟩),
        found.Spans need pattern.least length := by
      intro found member
      split at member
      · cases member
      · rename_i c rest split
        refine ih ⟨?_, placed.groups⟩ found member
        have same := placed.cursor
        rw [split, List.length_cons] at same
        change cursor.position + 1 + rest.length = length
        omega
    intro found member
    simp only [scan] at member
    split at member
    · exact skipped found member
    · rename_i later groups done
      obtain ⟨_, _, ahead, within, same⟩ := run_forward captures _ _ _ _ done placed
      cases same
      have bound := within.cursor
      rcases List.mem_cons.mp member with rfl | rest
      · exact ⟨⟨ahead, by dsimp only; omega⟩, within.groups⟩
      split at rest
      · exact skipped found rest
      · exact ih ⟨within.cursor, by simp⟩ found rest

theorem finditer_spans {pattern : Pattern} (captures : pattern.captures need = true) (text : List Char) :
    ∀ found ∈ finditer pattern text, found.Spans need pattern.least text.length :=
  scan_spans captures _ ⟨Nat.zero_add _, by simp⟩

theorem group_span {found : Match} {least : Nat} (spans : found.Spans need least length) {name : String} {span : Nat × Nat}
    (captured : found.groups.span name = some span) : span.1 + need name ≤ span.2 ∧ span.2 ≤ length := by
  obtain ⟨group, chosen, rfl⟩ := Option.map_eq_some_iff.mp captured
  have named : group.1 = name := by simpa using List.find?_some chosen
  rw [← named]
  exact spans.groups group (List.mem_of_find?_eq_some chosen)

end Spans

end OpenTulpa.Library.Regex
