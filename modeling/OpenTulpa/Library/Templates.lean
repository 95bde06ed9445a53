import Mathlib.Data.List.Infix

/-! Replacement templates of regular expressions that have no groups: what `re.sub` makes of a text that it is given as
the replacement. -/

namespace OpenTulpa.Library.Templates

def isOctal (c : Char) : Bool := '0' ≤ c && c ≤ '7'

def octalValue (digits : List Char) : Nat := digits.foldl (fun total c => 8 * total + (c.toNat - 48)) 0

/-- The characters that a letter behind a backslash stands for. -/
def escapeLetter : Char → Option Char
  | 'a' => some (Char.ofNat 7)
  | 'b' => some (Char.ofNat 8)
  | 'f' => some (Char.ofNat 12)
  | 'n' => some '\n'
  | 'r' => some '\r'
  | 't' => some '\t'
  | 'v' => some (Char.ofNat 11)
  | '\\' => some '\\'
  | _ => none

/-- What stands behind a backslash: the text it is replaced by and the number of characters it has; `none` when the
template is refused. The only group is the whole match. -/
def escape (whole : List Char) : List Char → Option (List Char × Nat)
  | [] => none
  | 'g' :: '<' :: rest =>
    let name := rest.takeWhile (· != '>')
    if name ≠ [] ∧ name.all (· == '0') ∧ rest.contains '>' then some (whole, name.length + 3) else none
  | 'g' :: _ => none
  | '0' :: rest =>
    let digits := (rest.take 2).takeWhile isOctal
    some ([Char.ofNat (octalValue digits)], digits.length + 1)
  | c :: rest =>
    if c.isDigit then
      let digits := (c :: rest).take 3
      if digits.length = 3 ∧ digits.all isOctal ∧ octalValue digits ≤ 255 then some ([Char.ofNat (octalValue digits)], 3)
      else none
    else
      match escapeLetter c with
      | some letter => some ([letter], 1)
      | none => if c.isAlpha then none else some (['\\', c], 1)

/-- The text of a template behind characters still to be passed; `none` when the template is refused. -/
def expandFrom (whole : List Char) : Nat → List Char → Option (List Char)
  | _, [] => some []
  | skip + 1, _ :: rest => expandFrom whole skip rest
  | 0, c :: rest =>
    if c = '\\' then
      (escape whole rest).bind fun (piece, used) => (expandFrom whole used rest).map (piece ++ ·)
    else (expandFrom whole 0 rest).map (c :: ·)

def expand (whole template : List Char) : Option (List Char) := expandFrom whole 0 template

/-- A text without a backslash stands for itself. -/
theorem expand_plain (whole : List Char) {text : List Char} (plain : '\\' ∉ text) (rest : List Char) :
    expand whole (text ++ rest) = (expand whole rest).map (text ++ ·) := by
  induction text with
  | nil => simp [expand]
  | cons c text ih =>
    have other : c ≠ '\\' := fun same => plain (by simp [same])
    have later := ih fun member => plain (List.mem_cons_of_mem _ member)
    rw [List.cons_append, expand, expandFrom, if_neg other, ← expand, later, Option.map_map]
    rfl

end OpenTulpa.Library.Templates
