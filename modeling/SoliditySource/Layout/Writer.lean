import SoliditySource.Layout.Indent

/-! Writing code line by line at an indentation level. -/

namespace SoliditySource

/-- One step of a rendering: a line of code, an empty line, or a line comment. -/
inductive Fragment where
  | line (text : String)
  | blank
  | comment (text : String)
deriving DecidableEq, Repr

/-- The text of a fragment that is not indented. -/
def Fragment.text : Fragment → String
  | line s => s ++ "\n"
  | blank => "\n"
  | comment s => "// " ++ s ++ "\n"

/-- The text of fragments one after the other, none of them indented. -/
def Fragment.concat (fragments : List Fragment) : String :=
  fragments.foldr (fun fragment rest => fragment.text ++ rest) ""

/-- A text under construction. An empty line is never indented. -/
structure Writer where
  indent : Indent := .solidity
  level : Nat := 0
  text : String := ""
deriving DecidableEq, Repr

namespace Writer

def raw (w : Writer) (s : String) : Writer :=
  { w with text := w.text ++ s }

def setLevel (w : Writer) (level : Nat) : Writer :=
  { w with level := level }

/-- An empty line is written bare, every other fragment after the indentation of the level. -/
def push (w : Writer) (fragment : Fragment) : Writer :=
  match fragment with
  | .blank => w.raw fragment.text
  | _ => (w.raw (String.ofList (w.indent.levels w.level))).raw fragment.text

def emit (w : Writer) (fragments : List Fragment) : Writer :=
  fragments.foldl push w

end Writer

end SoliditySource
