/-! Searching a text for a pattern: the first occurrence, which can be replaced, and all occurrences
from left to right that do not overlap. -/

namespace SoliditySource.Text

/-- What stands before and after the first occurrence of `pattern`. -/
def splitFirst? (pattern : List Char) : List Char → Option (List Char × List Char)
  | [] => if pattern.isEmpty then some ([], []) else none
  | c :: cs =>
    if pattern.isPrefixOf (c :: cs) then some ([], (c :: cs).drop pattern.length)
    else (splitFirst? pattern cs).map fun (before, after) => (c :: before, after)

def replaceFirst (pattern replacement text : List Char) : List Char :=
  match splitFirst? pattern text with
  | some (before, after) => before ++ replacement ++ after
  | none => text

/-- Positions of the occurrences of `pattern` in a text whose first character is number `position`;
the next `skip` characters belong to an occurrence already found. -/
def occurrencesFrom (pattern : List Char) : Nat → Nat → List Char → List Nat
  | _, _, [] => []
  | skip + 1, position, _ :: cs => occurrencesFrom pattern skip (position + 1) cs
  | 0, position, c :: cs =>
    if pattern.isPrefixOf (c :: cs) then
      position :: occurrencesFrom pattern (pattern.length - 1) (position + 1) cs
    else occurrencesFrom pattern 0 (position + 1) cs

/-- Positions, counted in characters, of the occurrences of `pattern` from left to right. An
occurrence that overlaps an earlier one is passed over. -/
def occurrences (pattern text : List Char) : List Nat :=
  occurrencesFrom pattern 0 0 text

/-- The number of bytes of the UTF-8 form. -/
def byteLength (cs : List Char) : Nat :=
  cs.foldr (fun c total => c.utf8Size + total) 0

end SoliditySource.Text
