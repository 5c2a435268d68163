/-! The text of one indentation level. -/

namespace SoliditySource

inductive Indent where
  | spaces (width : Nat)
  | tab
deriving DecidableEq, Repr

namespace Indent

/-- A wider setting acts like this one. -/
def maxSpaces : Nat := 16

/-- The usual indentation of Solidity source. -/
def solidity : Indent := .spaces 4

instance : Inhabited Indent := ⟨solidity⟩

def unit : Indent → List Char
  | spaces width => List.replicate (min width maxSpaces) ' '
  | tab => ['\t']

/-- The text of `level` indentation levels. -/
def levels (indent : Indent) (level : Nat) : List Char :=
  (List.replicate level indent.unit).flatten

end Indent

end SoliditySource
