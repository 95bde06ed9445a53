import Mathlib.Computability.Language
import OpenTulpa.Library.Regex

/-! The texts that a regular expression matches. What the engine finds has been read as the expression says, and it finds
something wherever the expression can be read; the language of an expression is what it reads but for its assertions. -/

namespace OpenTulpa.Library.Regex

open Splice

section Reading

/-- Steps of a relation -/
@[grind =] def Repeats (steps : Cursor → Cursor → Prop) : Nat → Cursor → Cursor → Prop
  | 0, cursor, later => later = cursor
  | count + 1, cursor, later => ∃ middle, steps cursor middle ∧ Repeats steps count middle later

/-- The expression can be read from one cursor to another. -/
@[grind =] def Pattern.Reads : Pattern → Cursor → Cursor → Prop
  | .empty, cursor, later => later = cursor
  | .char accepts, cursor, later =>
    ∃ c rest, cursor.rest = c :: rest ∧ accepts c = true ∧ later = ⟨some c, rest, cursor.position + 1⟩
  | .seq first second, cursor, later => ∃ middle, first.Reads cursor middle ∧ second.Reads middle later
  | .either first second, cursor, later => first.Reads cursor later ∨ second.Reads cursor later
  | .many _ least most body, cursor, later =>
    ∃ count, least ≤ count ∧ (∀ bound ∈ most, count ≤ bound) ∧ Repeats body.Reads count cursor later
  | .group _ body, cursor, later => body.Reads cursor later
  | .same _, _, _ => False
  | .assert holds, cursor, later => holds cursor.previous cursor.rest = true ∧ later = cursor

/-- The texts that the expression matches, wherever its assertions hold. -/
def Pattern.language : Pattern → Language Char
  | .empty | .assert _ => 1
  | .char accepts => {word | ∃ c, accepts c = true ∧ word = [c]}
  | .seq first second => first.language * second.language
  | .either first second => first.language + second.language
  | .many _ least most body =>
    {word | ∃ count, least ≤ count ∧ (∀ bound ∈ most, count ≤ bound) ∧ word ∈ body.language ^ count}
  | .group _ body => body.language
  | .same _ => ⊤

/-- A cursor has moved over a text. -/
structure Moves (cursor : Cursor) (word : List Char) (later : Cursor) : Prop where
  rest : cursor.rest = word ++ later.rest
  position : later.position = cursor.position + word.length
  previous : later.previous = word.getLast?.or cursor.previous

theorem Moves.refl (cursor : Cursor) : Moves cursor [] cursor := ⟨rfl, rfl, rfl⟩

theorem Moves.trans {cursor middle later : Cursor} {first second : List Char} (before : Moves cursor first middle)
    (behind : Moves middle second later) : Moves cursor (first ++ second) later where
  rest := by rw [before.rest, behind.rest, List.append_assoc]
  position := by rw [behind.position, before.position, List.length_append, Nat.add_assoc]
  previous := by rw [behind.previous, before.previous, List.getLast?_append, Option.or_assoc]

theorem Moves.length {cursor later : Cursor} {word : List Char} (moves : Moves cursor word later) :
    later.position + later.rest.length = cursor.position + cursor.rest.length := by
  rw [moves.position, moves.rest, List.length_append, Nat.add_assoc]

/-- What is read is a text of the language. -/
theorem reads_moves {pattern : Pattern} {cursor later : Cursor} (reads : pattern.Reads cursor later) :
    ∃ word ∈ pattern.language, Moves cursor word later := by
  induction pattern generalizing cursor later with
  | empty => exact ⟨[], rfl, reads ▸ Moves.refl cursor⟩
  | char accepts =>
    obtain ⟨c, rest, same, accepted, rfl⟩ := reads
    exact ⟨[c], ⟨c, accepted, rfl⟩, same, rfl, rfl⟩
  | seq first second left right =>
    obtain ⟨middle, before, behind⟩ := reads
    obtain ⟨one, inFirst, moves⟩ := left before
    obtain ⟨two, inSecond, onward⟩ := right behind
    exact ⟨one ++ two, Language.mem_mul.mpr ⟨one, inFirst, two, inSecond, rfl⟩, moves.trans onward⟩
  | either first second left right =>
    rcases reads with chosen | chosen
    · obtain ⟨word, member, moves⟩ := left chosen
      exact ⟨word, Or.inl member, moves⟩
    · obtain ⟨word, member, moves⟩ := right chosen
      exact ⟨word, Or.inr member, moves⟩
  | many greedy least most body moved =>
    obtain ⟨count, enough, within, repeats⟩ := reads
    obtain ⟨word, member, moves⟩ : ∃ word ∈ body.language ^ count, Moves cursor word later := by
      clear enough within
      induction count generalizing cursor with
      | zero => exact ⟨[], rfl, repeats ▸ Moves.refl cursor⟩
      | succ count ih =>
        obtain ⟨middle, step, rest⟩ := repeats
        obtain ⟨one, inBody, moves⟩ := moved step
        obtain ⟨others, inRest, onward⟩ := ih rest
        have member : one ++ others ∈ body.language ^ (count + 1) := by
          rw [pow_succ']
          exact Language.mem_mul.mpr ⟨one, inBody, others, inRest, rfl⟩
        exact ⟨one ++ others, member, moves.trans onward⟩
    exact ⟨word, ⟨count, enough, within, member⟩, moves⟩
  | group name body moved => exact moved reads
  | same name => exact reads.elim
  | assert holds => exact ⟨[], rfl, reads.2 ▸ Moves.refl cursor⟩

/-- The expression captures nothing, and refers to nothing captured. -/
@[grind =] def Pattern.plain : Pattern → Bool
  | .empty | .char _ | .assert _ => true
  | .group _ _ | .same _ => false
  | .seq first second | .either first second => first.plain && second.plain
  | .many _ _ _ body => body.plain

/-- Every iteration reads something. -/
@[grind =] def Pattern.advances : Pattern → Bool
  | .empty | .char _ | .assert _ | .same _ => true
  | .group _ body => body.advances
  | .seq first second | .either first second => first.advances && second.advances
  | .many _ _ _ body => body.advances && 1 ≤ body.least

variable {text : List Char}

theorem iterate_sound {body : Cursor → Groups → Next → Option Found} {steps : Cursor → Cursor → Prop}
    (sound : ∀ cursor groups next found, body cursor groups next = some found →
      ∃ later, steps cursor later ∧ next later groups = some found)
    {greedy : Bool} {least : Nat} {most : Option Nat} {fuel count : Nat} {cursor : Cursor} {groups : Groups} {next : Next}
    {found : Found} (bounded : ∀ bound ∈ most, count ≤ bound)
    (done : iterate body greedy least most fuel count cursor groups next = some found) :
    ∃ more later, least ≤ count + more ∧ (∀ bound ∈ most, count + more ≤ bound) ∧ Repeats steps more cursor later ∧
      next later groups = some found := by
  induction fuel generalizing count cursor with
  | zero =>
    rw [iterate] at done
    split at done
    · rename_i enough
      exact ⟨0, cursor, enough, bounded, rfl, done⟩
    · cases done
  | succ fuel ih =>
    have again {result : Option Found} (more : (if most.any fun bound => bound ≤ count then none
        else body cursor groups fun later found =>
          if later.position = cursor.position ∧ least ≤ count then none
          else iterate body greedy least most fuel (count + 1) later found next) = result) (is : result = some found) :
        ∃ more later, least ≤ count + more ∧ (∀ bound ∈ most, count + more ≤ bound) ∧ Repeats steps more cursor later ∧
          next later groups = some found := by
      subst is
      split at more
      · cases more
      rename_i below
      obtain ⟨middle, step, rest⟩ := sound _ _ _ _ more
      split at rest
      · cases rest
      have room : ∀ bound ∈ most, count + 1 ≤ bound := by
        intro bound member
        rw [Option.mem_def.mp member] at below
        exact Nat.succ_le_of_lt (by simpa using below)
      obtain ⟨others, later, enough, within, repeats, ended⟩ := ih room rest
      refine ⟨others + 1, later, by omega, fun bound member => ?_, ⟨middle, step, repeats⟩, ended⟩
      have few := within bound member
      omega
    have stop (enough : least ≤ count) (ended : next cursor groups = some found) :
        ∃ more later, least ≤ count + more ∧ (∀ bound ∈ most, count + more ≤ bound) ∧ Repeats steps more cursor later ∧
          next later groups = some found :=
      ⟨0, cursor, enough, bounded, rfl, ended⟩
    simp only [iterate] at done
    split at done
    · exact again rfl done
    · rename_i enough
      split at done
      · exact (orElse_cases done).elim (again rfl) (stop (Nat.not_lt.mp enough))
      · exact (orElse_cases done).elim (stop (Nat.not_lt.mp enough)) (again rfl)

/-- What an expression that captures nothing finds has been read. -/
theorem run_sound {pattern : Pattern} (plain : pattern.plain = true) :
    ∀ cursor groups next found, run text pattern cursor groups next = some found →
      ∃ later, pattern.Reads cursor later ∧ next later groups = some found := by
  induction pattern with
  | empty => exact fun cursor groups next found done => ⟨cursor, rfl, done⟩
  | char accepts =>
    rintro ⟨previous, rest, position⟩ groups next found done
    simp only [run] at done
    split at done
    · cases done
    split at done
    · rename_i c rest accepted
      exact ⟨_, ⟨c, rest, rfl, accepted, rfl⟩, done⟩
    · cases done
  | seq first second left right =>
    obtain ⟨leftPlain, rightPlain⟩ := Bool.and_eq_true_iff.mp plain
    intro cursor groups next found done
    obtain ⟨middle, reads, rest⟩ := left leftPlain _ _ _ _ done
    obtain ⟨later, more, ended⟩ := right rightPlain _ _ _ _ rest
    exact ⟨later, ⟨middle, reads, more⟩, ended⟩
  | either first second left right =>
    obtain ⟨leftPlain, rightPlain⟩ := Bool.and_eq_true_iff.mp plain
    intro cursor groups next found done
    rcases orElse_cases done with chosen | chosen
    · obtain ⟨later, reads, ended⟩ := left leftPlain _ _ _ _ chosen
      exact ⟨later, Or.inl reads, ended⟩
    · obtain ⟨later, reads, ended⟩ := right rightPlain _ _ _ _ chosen
      exact ⟨later, Or.inr reads, ended⟩
  | many greedy least most body sound =>
    intro cursor groups next found done
    obtain ⟨count, later, enough, within, repeats, ended⟩ := iterate_sound (sound plain) (fun _ _ => Nat.zero_le _) done
    exact ⟨later, ⟨count, by omega, fun bound member => by have := within bound member; omega, repeats⟩, ended⟩
  | group name body => cases plain
  | same name => cases plain
  | assert holds =>
    intro cursor groups next found done
    simp only [run] at done
    split at done
    · rename_i held
      exact ⟨cursor, ⟨held, rfl⟩, done⟩
    · cases done

/-- Reading only moves forward, and by the least length. -/
theorem reads_forward {pattern : Pattern} {cursor later : Cursor} (reads : pattern.Reads cursor later) :
    cursor.position + pattern.least ≤ later.position := by
  induction pattern generalizing cursor later with
  | empty => exact reads ▸ le_rfl
  | char accepts =>
    obtain ⟨c, rest, -, -, rfl⟩ := reads
    exact le_rfl
  | seq first second left right =>
    obtain ⟨middle, before, behind⟩ := reads
    have one := left before
    have two := right behind
    simp only [Pattern.least]
    omega
  | either first second left right =>
    have least : (Pattern.either first second).least = min first.least second.least := rfl
    rcases reads with chosen | chosen
    · have one := left chosen
      omega
    · have two := right chosen
      omega
  | many greedy least most body forward =>
    obtain ⟨count, enough, -, repeats⟩ := reads
    have whole : cursor.position + count * body.least ≤ later.position := by
      clear enough
      induction count generalizing cursor with
      | zero => rw [Nat.zero_mul, Nat.add_zero, repeats]
      | succ count ih =>
        obtain ⟨middle, step, rest⟩ := repeats
        have one := forward step
        have others := ih rest
        rw [Nat.succ_mul]
        omega
    exact (Nat.add_le_add_left (Nat.mul_le_mul_right _ enough) _).trans whole
  | group name body forward => exact forward reads
  | same name => exact reads.elim
  | assert holds => exact reads.2 ▸ le_rfl

theorem orElse_ne_none {first second : Option Found} (either : first ≠ none ∨ second ≠ none) : (first <|> second) ≠ none := by
  cases first with
  | none => exact either.resolve_left (not_not.mpr rfl)
  | some found => exact Option.some_ne_none found

theorem iterate_complete {body : Cursor → Groups → Next → Option Found} {steps : Cursor → Cursor → Prop}
    (complete : ∀ cursor later next, steps cursor later → (∀ groups, next later groups ≠ none) →
      ∀ groups, body cursor groups next ≠ none)
    (ahead : ∀ cursor later, steps cursor later → cursor.position < later.position)
    {greedy : Bool} {least : Nat} {most : Option Nat} {fuel count more : Nat} {cursor later : Cursor} {next : Next}
    (enough : least ≤ count + more) (bounded : ∀ bound ∈ most, count + more ≤ bound) (fueled : more ≤ fuel)
    (repeats : Repeats steps more cursor later) (accepts : ∀ groups, next later groups ≠ none) (groups : Groups) :
    iterate body greedy least most fuel count cursor groups next ≠ none := by
  induction fuel generalizing count more cursor groups with
  | zero =>
    obtain rfl : more = 0 := Nat.le_zero.mp fueled
    obtain rfl : later = cursor := repeats
    rw [Nat.add_zero] at enough
    rw [iterate, if_pos enough]
    exact accepts groups
  | succ fuel ih =>
    cases more with
    | zero =>
      obtain rfl : later = cursor := repeats
      rw [Nat.add_zero] at enough
      simp only [iterate, if_neg (Nat.not_lt.mpr enough)]
      split
      · exact orElse_ne_none (Or.inr (accepts groups))
      · exact orElse_ne_none (Or.inl (accepts groups))
    | succ more =>
      obtain ⟨middle, step, rest⟩ := repeats
      have again : (if most.any fun bound => bound ≤ count then none
          else body cursor groups fun later found =>
            if later.position = cursor.position ∧ least ≤ count then none
            else iterate body greedy least most fuel (count + 1) later found next) ≠ none := by
        have room : ¬ (most.any fun bound => bound ≤ count) = true := by
          cases most with
          | none => exact Bool.false_ne_true
          | some bound =>
            have within := bounded bound rfl
            simp only [Option.any_some, decide_eq_true_eq]
            omega
        rw [if_neg room]
        refine complete cursor middle _ step (fun found => ?_) groups
        have moved := ahead cursor middle step
        rw [if_neg fun stays => absurd stays.1 (Nat.ne_of_gt moved)]
        refine ih (by omega) (fun bound member => ?_) (Nat.le_of_succ_le_succ fueled) rest found
        have few := bounded bound member
        omega
      simp only [iterate]
      split
      · exact again
      · split
        · exact orElse_ne_none (Or.inl again)
        · exact orElse_ne_none (Or.inr again)

/-- Where an expression can be read the engine finds something. -/
theorem run_complete {pattern : Pattern} (advances : pattern.advances = true) :
    ∀ cursor later next, pattern.Reads cursor later → (∀ groups, next later groups ≠ none) →
      ∀ groups, run text pattern cursor groups next ≠ none := by
  induction pattern with
  | empty => exact fun cursor later next reads accepts groups => reads ▸ accepts groups
  | char accepts =>
    rintro ⟨previous, rest, position⟩ later next ⟨c, rest, same, accepted, rfl⟩ ends groups
    obtain rfl : _ = c :: rest := same
    simp only [run, if_pos accepted]
    exact ends groups
  | seq first second left right =>
    obtain ⟨leftAdvances, rightAdvances⟩ := Bool.and_eq_true_iff.mp advances
    rintro cursor later next ⟨middle, before, behind⟩ accepts groups
    exact left leftAdvances cursor middle _ before (right rightAdvances middle later next behind accepts) groups
  | either first second left right =>
    obtain ⟨leftAdvances, rightAdvances⟩ := Bool.and_eq_true_iff.mp advances
    rintro cursor later next reads accepts groups
    exact orElse_ne_none (reads.imp (fun chosen => left leftAdvances cursor later next chosen accepts groups)
      fun chosen => right rightAdvances cursor later next chosen accepts groups)
  | many greedy least most body complete =>
    obtain ⟨bodyAdvances, long⟩ := Bool.and_eq_true_iff.mp advances
    have long : 1 ≤ body.least := of_decide_eq_true long
    rintro cursor later next ⟨count, enough, within, repeats⟩ accepts groups
    have ahead : ∀ cursor later, body.Reads cursor later → cursor.position < later.position := by
      intro cursor later reads
      have forward := reads_forward reads
      omega
    have steps : ∀ {count : Nat} {cursor later : Cursor}, Repeats body.Reads count cursor later →
        cursor.position + count ≤ later.position := by
      intro count
      induction count with
      | zero => exact fun same => same ▸ le_rfl
      | succ count ih =>
        rintro cursor later ⟨middle, step, rest⟩
        have one := ahead _ _ step
        have others := ih rest
        omega
    have far := steps repeats
    have whole : later.position + later.rest.length = cursor.position + cursor.rest.length := by
      obtain ⟨word, -, moves⟩ := reads_moves (show (Pattern.many greedy least most body).Reads cursor later from
        ⟨count, enough, within, repeats⟩)
      exact moves.length
    refine iterate_complete (complete bodyAdvances) ahead (by omega) (fun bound member => ?_) (by omega) repeats accepts groups
    have := within bound member
    omega
  | group name body complete =>
    intro cursor later next reads accepts groups
    exact complete advances cursor later (fun later captured => next later ((name, cursor.position, later.position) :: captured))
      reads (fun captured => accepts _) groups
  | same name => exact fun _ _ _ reads => reads.elim
  | assert holds =>
    rintro cursor later next ⟨held, rfl⟩ accepts groups
    simp only [run, if_pos held]
    exact accepts groups

end Reading

section Texts

/-- Nothing that the expression reads holds the character. -/
@[grind =] def Pattern.rejects (c : Char) : Pattern → Bool
  | .empty | .assert _ => true
  | .char accepts => !accepts c
  | .seq first second | .either first second => first.rejects c && second.rejects c
  | .many _ _ _ body | .group _ body => body.rejects c
  | .same _ => false

theorem not_mem_of_rejects {pattern : Pattern} {c : Char} (rejects : pattern.rejects c = true) {word : List Char}
    (member : word ∈ pattern.language) : c ∉ word := by
  induction pattern generalizing word with
  | empty | assert => exact (show word = [] from member) ▸ List.not_mem_nil
  | char accepts =>
    obtain ⟨d, accepted, rfl⟩ := member
    intro inside
    rw [Pattern.rejects, List.mem_singleton.mp inside, accepted] at rejects
    cases rejects
  | seq first second left right =>
    obtain ⟨leftRejects, rightRejects⟩ := Bool.and_eq_true_iff.mp rejects
    obtain ⟨one, inFirst, two, inSecond, rfl⟩ := Language.mem_mul.mp member
    exact fun inside => (List.mem_append.mp inside).elim (left leftRejects inFirst) (right rightRejects inSecond)
  | either first second left right =>
    obtain ⟨leftRejects, rightRejects⟩ := Bool.and_eq_true_iff.mp rejects
    exact member.elim (left leftRejects) (right rightRejects)
  | many greedy least most body free =>
    obtain ⟨count, -, -, repeats⟩ := member
    induction count generalizing word with
    | zero => exact (show word = [] from repeats) ▸ List.not_mem_nil
    | succ count ih =>
      rw [pow_succ'] at repeats
      obtain ⟨one, inBody, others, inRest, rfl⟩ := Language.mem_mul.mp repeats
      exact fun inside => (List.mem_append.mp inside).elim (free rejects inBody) (ih inRest)
  | group name body free => exact free rejects member
  | same name => cases rejects

theorem least_le_length {pattern : Pattern} {word : List Char} (member : word ∈ pattern.language) :
    pattern.least ≤ word.length := by
  induction pattern generalizing word with
  | empty | assert | same => exact Nat.zero_le _
  | char accepts =>
    obtain ⟨c, -, rfl⟩ := member
    exact le_rfl
  | seq first second left right =>
    obtain ⟨one, inFirst, two, inSecond, rfl⟩ := Language.mem_mul.mp member
    rw [List.length_append]
    exact Nat.add_le_add (left inFirst) (right inSecond)
  | either first second left right =>
    exact member.elim (fun chosen => (Nat.min_le_left _ _).trans (left chosen))
      fun chosen => (Nat.min_le_right _ _).trans (right chosen)
  | many greedy least most body short =>
    obtain ⟨count, enough, -, repeats⟩ := member
    refine (Nat.mul_le_mul_right body.least enough).trans ?_
    clear enough
    induction count generalizing word with
    | zero => exact (Nat.zero_mul _).le.trans (Nat.zero_le _)
    | succ count ih =>
      rw [pow_succ'] at repeats
      obtain ⟨one, inBody, others, inRest, rfl⟩ := Language.mem_mul.mp repeats
      rw [List.length_append, Nat.succ_mul, Nat.add_comm]
      exact Nat.add_le_add (short inBody) (ih inRest)
  | group name body short => exact short member

/-- The expression asserts nothing, and refers to nothing captured. -/
@[grind =] def Pattern.free : Pattern → Bool
  | .empty | .char _ => true
  | .assert _ | .same _ => false
  | .seq first second | .either first second => first.free && second.free
  | .many _ _ _ body | .group _ body => body.free

/-- The cursor behind a text. -/
def Cursor.behind (cursor : Cursor) (word rest : List Char) : Cursor :=
  ⟨word.getLast?.or cursor.previous, rest, cursor.position + word.length⟩

theorem Moves.eq_behind {cursor later : Cursor} {word : List Char} (moves : Moves cursor word later) :
    later = cursor.behind word later.rest := by
  obtain ⟨previous, rest, position⟩ := later
  obtain ⟨-, rfl, rfl⟩ := moves
  rfl

theorem Moves.eq_of_nil {cursor later : Cursor} (moves : Moves cursor [] later) : later = cursor := by
  obtain ⟨previous, rest, position⟩ := cursor
  obtain rfl : rest = later.rest := moves.rest
  exact moves.eq_behind

theorem Moves.append {cursor later : Cursor} {first second : List Char} (moves : Moves cursor (first ++ second) later) :
    Moves cursor first (cursor.behind first (second ++ later.rest)) ∧
      Moves (cursor.behind first (second ++ later.rest)) second later := by
  refine ⟨⟨by rw [moves.rest, List.append_assoc]; rfl, rfl, rfl⟩, ⟨rfl, ?_, ?_⟩⟩
  · rw [moves.position, List.length_append, ← Nat.add_assoc]
    rfl
  · rw [moves.previous, List.getLast?_append, Option.or_assoc]
    rfl

/-- Without assertions every text of the language is read wherever it stands. -/
theorem reads_of_language {pattern : Pattern} (free : pattern.free = true) {cursor later : Cursor} {word : List Char}
    (member : word ∈ pattern.language) (moves : Moves cursor word later) : pattern.Reads cursor later := by
  induction pattern generalizing cursor later word with
  | empty =>
    obtain rfl : word = [] := member
    exact moves.eq_of_nil
  | char accepts =>
    obtain ⟨c, accepted, rfl⟩ := member
    exact ⟨c, later.rest, moves.rest, accepted, moves.eq_behind⟩
  | seq first second left right =>
    obtain ⟨leftFree, rightFree⟩ := Bool.and_eq_true_iff.mp free
    obtain ⟨one, inFirst, two, inSecond, rfl⟩ := Language.mem_mul.mp member
    obtain ⟨before, behind⟩ := moves.append
    exact ⟨_, left leftFree inFirst before, right rightFree inSecond behind⟩
  | either first second left right =>
    obtain ⟨leftFree, rightFree⟩ := Bool.and_eq_true_iff.mp free
    exact member.imp (fun chosen => left leftFree chosen moves) fun chosen => right rightFree chosen moves
  | many greedy least most body reads =>
    obtain ⟨count, enough, within, repeats⟩ := member
    refine ⟨count, enough, within, ?_⟩
    clear enough within
    induction count generalizing cursor word with
    | zero =>
      obtain rfl : word = [] := repeats
      exact moves.eq_of_nil
    | succ count ih =>
      rw [pow_succ'] at repeats
      obtain ⟨one, inBody, others, inRest, rfl⟩ := Language.mem_mul.mp repeats
      obtain ⟨before, behind⟩ := moves.append
      exact ⟨_, reads free inBody before, ih behind inRest⟩
  | group name body reads => exact reads free member moves
  | same name | assert holds => cases free

/-- The expressions are read one after the other. -/
@[grind =] def ReadsAll : List Pattern → Cursor → Cursor → Prop
  | [], cursor, later => later = cursor
  | part :: parts, cursor, later => ∃ middle, part.Reads cursor middle ∧ ReadsAll parts middle later

theorem reads_ofList {parts : List Pattern} {cursor later : Cursor} (all : ReadsAll parts cursor later) :
    (ofList parts).Reads cursor later := by
  have fold : ∀ (rest : List Pattern) (first : Pattern) (middle : Cursor), first.Reads cursor middle →
      ReadsAll rest middle later → (rest.foldl Pattern.seq first).Reads cursor later := by
    intro rest
    induction rest with
    | nil => exact fun first middle reads same => same ▸ reads
    | cons part rest ih =>
      rintro first middle reads ⟨next, step, others⟩
      exact ih (.seq first part) next ⟨middle, reads, step⟩ others
  cases parts with
  | nil => exact all
  | cons first rest =>
    obtain ⟨middle, reads, others⟩ := all
    exact fold rest first middle reads others

/-- Expressions without assertions read what their languages make up. -/
theorem readsAll_of_language {parts : List Pattern} (free : parts.all Pattern.free = true) {cursor later : Cursor}
    {word : List Char} (member : word ∈ (parts.map Pattern.language).prod) (moves : Moves cursor word later) :
    ReadsAll parts cursor later := by
  induction parts generalizing cursor word with
  | nil =>
    obtain rfl : word = [] := member
    exact moves.eq_of_nil
  | cons part parts ih =>
    obtain ⟨partFree, partsFree⟩ := Bool.and_eq_true_iff.mp free
    obtain ⟨one, inPart, others, inParts, rfl⟩ := Language.mem_mul.mp member
    obtain ⟨before, behind⟩ := moves.append
    exact ⟨_, reads_of_language partFree inPart before, ih partsFree inParts behind⟩

theorem mem_char_pow {accepts : Char → Bool} {count : Nat} {word : List Char} :
    word ∈ (Pattern.char accepts).language ^ count ↔ word.length = count ∧ ∀ c ∈ word, accepts c = true := by
  induction count generalizing word with
  | zero =>
    rw [pow_zero, Language.mem_one, List.length_eq_zero_iff]
    exact ⟨fun empty => ⟨empty, empty ▸ nofun⟩, fun both => both.1⟩
  | succ count ih =>
    rw [pow_succ', Language.mem_mul]
    constructor
    · rintro ⟨one, ⟨c, accepted, rfl⟩, others, rest, rfl⟩
      obtain ⟨size, all⟩ := ih.mp rest
      exact ⟨by rw [List.length_append, size, List.length_singleton, Nat.add_comm], List.forall_mem_cons.mpr ⟨accepted, all⟩⟩
    · rintro ⟨size, all⟩
      obtain ⟨c, rest, rfl⟩ := List.exists_cons_of_length_eq_add_one size
      obtain ⟨own, others⟩ := List.forall_mem_cons.mp all
      exact ⟨[c], ⟨c, own, rfl⟩, rest, ih.mpr ⟨Nat.succ_injective size, others⟩, rfl⟩

theorem mem_star {accepts : Char → Bool} {word : List Char} :
    word ∈ (star accepts).language ↔ ∀ c ∈ word, accepts c = true :=
  ⟨fun ⟨_, _, _, repeats⟩ => (mem_char_pow.mp repeats).2,
    fun all => ⟨word.length, Nat.zero_le _, nofun, mem_char_pow.mpr ⟨rfl, all⟩⟩⟩

theorem mem_plus {accepts : Char → Bool} {word : List Char} :
    word ∈ (plus accepts).language ↔ word ≠ [] ∧ ∀ c ∈ word, accepts c = true := by
  constructor
  · rintro ⟨count, enough, -, repeats⟩
    obtain ⟨size, all⟩ := mem_char_pow.mp repeats
    exact ⟨List.ne_nil_of_length_pos (by omega), all⟩
  · rintro ⟨filled, all⟩
    exact ⟨word.length, List.length_pos_iff.mpr filled, nofun, mem_char_pow.mpr ⟨rfl, all⟩⟩

theorem mem_optional {body : Pattern} {word : List Char} :
    word ∈ (optional body).language ↔ word = [] ∨ word ∈ body.language := by
  constructor
  · rintro ⟨count, -, within, repeats⟩
    have most := within 1 rfl
    rcases Nat.le_one_iff_eq_zero_or_eq_one.mp most with rfl | rfl
    · exact Or.inl repeats
    · exact Or.inr (pow_one body.language ▸ repeats)
  · rintro (empty | member)
    · exact ⟨0, le_rfl, fun _ _ => Nat.zero_le _, empty⟩
    · exact ⟨1, Nat.zero_le _, fun bound same => Option.mem_some_iff.mp same ▸ le_rfl, by rwa [pow_one]⟩

theorem language_ofList (parts : List Pattern) : (ofList parts).language = (parts.map Pattern.language).prod := by
  have fold : ∀ (rest : List Pattern) (first : Pattern),
      (rest.foldl Pattern.seq first).language = first.language * (rest.map Pattern.language).prod := by
    intro rest
    induction rest with
    | nil => exact fun first => (mul_one _).symm
    | cons part rest ih =>
      intro first
      rw [List.foldl_cons, ih, List.map_cons, List.prod_cons, ← mul_assoc]
      rfl
  cases parts with
  | nil => rfl
  | cons first rest => exact fold rest first

theorem mem_literal {text : String} {word : List Char} : word ∈ (literal text).language ↔ word = text.toList := by
  rw [literal, language_ofList, List.map_map]
  induction text.toList generalizing word with
  | nil => exact Language.mem_one word
  | cons c text ih =>
    rw [List.map_cons, List.prod_cons, Language.mem_mul]
    constructor
    · rintro ⟨one, ⟨d, same, rfl⟩, others, rest, rfl⟩
      rw [ih.mp rest, beq_iff_eq.mp same]
      rfl
    · rintro rfl
      exact ⟨[c], ⟨c, beq_self_eq_true c, rfl⟩, text, ih.mpr rfl, rfl⟩

theorem language_literalIgnoringCase (text : String) :
    (literalIgnoringCase text).language = (text.toList.map fun c => (Pattern.char (sameIgnoringCase c)).language).prod := by
  rw [literalIgnoringCase, language_ofList, List.map_map]
  rfl

theorem mem_literalIgnoringCase {text : String} {word : List Char} :
    word ∈ (literalIgnoringCase text).language ↔ List.Forall₂ (fun c d => sameIgnoringCase c d = true) text.toList word := by
  rw [language_literalIgnoringCase]
  induction text.toList generalizing word with
  | nil => rw [List.map_nil, List.prod_nil, Language.mem_one, List.forall₂_nil_left_iff]
  | cons c text ih =>
    rw [List.map_cons, List.prod_cons, Language.mem_mul, List.forall₂_cons_left_iff]
    constructor
    · rintro ⟨one, ⟨d, same, rfl⟩, others, rest, rfl⟩
      exact ⟨d, others, same, ih.mp rest, rfl⟩
    · rintro ⟨d, others, same, rest, rfl⟩
      exact ⟨[d], ⟨d, same, rfl⟩, others, ih.mpr rest, rfl⟩

end Texts

section Substitution

/-- The end of a match -/
def conclude : Next := fun later groups => some (later, groups)

@[grind =] def subFrom (regex : Pattern) (text : List Char) (expand : Groups → List Char) : Nat → Cursor → List Char
  | 0, cursor => cursor.rest
  | fuel + 1, cursor =>
    let skip := fun _ : Unit =>
      match cursor.rest with
      | [] => []
      | c :: rest => c :: subFrom regex text expand fuel ⟨some c, rest, cursor.position + 1⟩
    match run text regex cursor [] conclude with
    | none => skip ()
    | some (later, groups) =>
      expand groups ++ if later.position = cursor.position then skip () else subFrom regex text expand fuel later

/-- `re.sub`: each match from left to right becomes what its groups expand to. -/
def sub (regex : Pattern) (expand : Groups → List Char) (text : List Char) : List Char :=
  subFrom regex text expand (text.length + 1) ⟨none, text, 0⟩

variable {regex : Pattern} {text : List Char} {expand : Groups → List Char}

/-- Either nothing is matched and the text stays, or what is before the first match does. -/
theorem subFrom_cases (fuel : Nat) (cursor : Cursor) (fueled : cursor.rest.length < fuel) :
    subFrom regex text expand fuel cursor = cursor.rest ∨ ∃ front middle later groups behind,
      Moves cursor front middle ∧ run text regex middle [] conclude = some (later, groups) ∧
        subFrom regex text expand fuel cursor = front ++ expand groups ++ behind ∧
          (later.position ≠ middle.position → ∃ fuel, behind = subFrom regex text expand fuel later) := by
  induction fuel generalizing cursor with
  | zero => exact absurd fueled (Nat.not_lt_zero _)
  | succ fuel ih =>
    obtain ⟨previous, rest, position⟩ := cursor
    rw [subFrom]
    cases found : run text regex ⟨previous, rest, position⟩ [] conclude with
    | some ending =>
      obtain ⟨later, groups⟩ := ending
      refine Or.inr ⟨[], _, later, groups, _, Moves.refl _, found, rfl, fun moved => ⟨fuel, if_neg moved⟩⟩
    | none =>
      cases rest with
      | nil => exact Or.inl rfl
      | cons c rest =>
        rcases ih ⟨some c, rest, position + 1⟩ (Nat.lt_of_succ_lt_succ fueled) with same | ⟨front, middle, later, groups,
          behind, moves, first, same, next⟩
        · exact Or.inl (congrArg (c :: ·) same)
        · have step : Moves ⟨previous, c :: rest, position⟩ [c] ⟨some c, rest, position + 1⟩ := ⟨rfl, rfl, rfl⟩
          exact Or.inr ⟨c :: front, middle, later, groups, behind, step.trans moves, first, congrArg (c :: ·) same, next⟩

/-- What is matched at the front of a text is replaced there. -/
theorem sub_of_found {later : Cursor} {groups : Groups} (found : run text regex ⟨none, text, 0⟩ [] conclude = some (later, groups))
    (moved : later.position ≠ 0) : ∃ fuel, sub regex expand text = expand groups ++ subFrom regex text expand fuel later := by
  refine ⟨text.length, ?_⟩
  rw [sub, subFrom, found]
  simp only [if_neg moved]

theorem subFrom_end {fuel : Nat} {cursor : Cursor} (ended : cursor.rest = [])
    (none : run text regex cursor [] conclude = none) : subFrom regex text expand fuel cursor = [] := by
  cases fuel with
  | zero => exact ended
  | succ fuel =>
    rw [subFrom, none]
    simp only [ended]

/-- Whatever is matched holds something, and becomes a text that ends with the mark. -/
def Marks (regex : Pattern) (expand : Groups → List Char) (text : List Char) (mark : Char) : Prop :=
  ∀ front cursor later groups, Moves ⟨none, text, 0⟩ front cursor → run text regex cursor [] conclude = some (later, groups) →
    ∃ word, word ≠ [] ∧ Moves cursor word later ∧ [mark] <:+ expand groups

theorem Marks.closed {mark : Char} (marks : Marks regex expand text mark) {front : List Char} {cursor : Cursor}
    (moves : Moves ⟨none, text, 0⟩ front cursor) (ended : cursor.rest = []) (fuel : Nat) :
    subFrom regex text expand fuel cursor = [] := by
  refine subFrom_end ended (Option.eq_none_iff_forall_ne_some.mpr fun found done => ?_)
  obtain ⟨word, filled, onward, -⟩ := marks front cursor found.1 found.2 moves done
  exact filled (List.append_eq_nil_iff.mp (onward.rest.symm.trans ended)).1

/-- A text that ends with the mark still does. -/
theorem Marks.suffix {mark : Char} (marks : Marks regex expand text mark) (fuel : Nat) (front : List Char) (cursor : Cursor)
    (moves : Moves ⟨none, text, 0⟩ front cursor) (fueled : cursor.rest.length < fuel) (ends : [mark] <:+ cursor.rest) :
    [mark] <:+ subFrom regex text expand fuel cursor := by
  induction fuel generalizing front cursor with
  | zero => exact absurd fueled (Nat.not_lt_zero _)
  | succ fuel ih =>
    obtain ⟨previous, rest, position⟩ := cursor
    rw [subFrom]
    cases found : run text regex ⟨previous, rest, position⟩ [] conclude with
    | none =>
      cases rest with
      | nil => cases List.suffix_nil.mp ends
      | cons c rest =>
        have step : Moves ⟨previous, c :: rest, position⟩ [c] ⟨some c, rest, position + 1⟩ := ⟨rfl, rfl, rfl⟩
        rcases List.suffix_cons_iff.mp ends with whole | inside
        · obtain ⟨rfl, rfl⟩ := List.cons.inj whole
          simp only [marks.closed (moves.trans step) rfl fuel]
          exact List.suffix_rfl
        · exact (ih _ _ (moves.trans step) (Nat.lt_of_succ_lt_succ fueled) inside).trans (List.suffix_cons _ _)
    | some ending =>
      obtain ⟨later, groups⟩ := ending
      obtain ⟨word, filled, onward, marked⟩ := marks front _ later groups moves found
      have ahead : later.position ≠ position := by
        have far := onward.position
        have long := List.length_pos_iff.mpr filled
        simp only at far
        omega
      simp only [if_neg ahead]
      by_cases ended : later.rest = []
      · rw [marks.closed (moves.trans onward) ended fuel, List.append_nil]
        exact marked
      · have inside : [mark] <:+ later.rest :=
          List.suffix_of_suffix_length_le ends (onward.rest ▸ List.suffix_append word later.rest) (List.length_pos_iff.mpr ended)
        have shorter : later.rest.length < fuel := by
          have long := List.length_pos_iff.mpr filled
          have whole := congrArg List.length onward.rest
          rw [List.length_append] at whole
          simp only at whole fueled
          omega
        exact (ih _ later (moves.trans onward) shorter inside).trans (List.suffix_append _ _)

/-- A match of an expression whose front is captured -/
theorem run_captured {name : String} {lead secret : Pattern} (leadPlain : lead.plain = true) (secretPlain : secret.plain = true)
    {cursor later : Cursor} {groups : Groups}
    (found : run text (.seq (.group name lead) secret) cursor [] conclude = some (later, groups)) :
    ∃ first middle second, first ∈ lead.language ∧ Moves cursor first middle ∧ second ∈ secret.language ∧
      Moves middle second later ∧ groups = [(name, cursor.position, middle.position)] := by
  have found : run text lead cursor [] (fun middle captured => run text secret middle
      ((name, cursor.position, middle.position) :: captured) conclude) = some (later, groups) := found
  obtain ⟨middle, reads, rest⟩ := run_sound leadPlain _ _ _ _ found
  obtain ⟨ending, onward, ended⟩ := run_sound secretPlain _ _ _ _ rest
  obtain ⟨rfl, rfl⟩ := Prod.mk.inj (Option.some.inj ended)
  obtain ⟨first, inLead, moves⟩ := reads_moves reads
  obtain ⟨second, inSecret, more⟩ := reads_moves onward
  exact ⟨first, middle, second, inLead, moves, inSecret, more, rfl⟩

end Substitution

end OpenTulpa.Library.Regex
