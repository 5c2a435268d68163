import SoliditySource.Text.Blank

/-! Lines of a text. A line feed ends a line, together with one carriage return just before it, and
the end of the text ends the last line unless that line is empty. -/

namespace SoliditySource.Text

/-- Drops one carriage return at the end. -/
def dropReturn (cs : List Char) : List Char :=
  if cs.getLast? = some '\r' then cs.dropLast else cs

/-- The last piece is what follows the last line feed. -/
def linesOfPieces : List (List Char) → List (List Char)
  | [] => []
  | [last] => if last.isEmpty then [] else [last]
  | piece :: pieces => dropReturn piece :: linesOfPieces pieces

def lines (cs : List Char) : List (List Char) :=
  linesOfPieces (splitWhen (· == '\n') cs)

end SoliditySource.Text
