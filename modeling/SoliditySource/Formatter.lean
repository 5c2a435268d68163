import SoliditySource.Braces
import SoliditySource.Layout.Indent
import SoliditySource.Text.Lines

/-! Formatting of rendered text. The brace formatter trims every line and indents it by the braces
that are open above it; closing braces at the start of a line already count for that line. Empty
lines are kept, and blanks at the end of the text are dropped. The other formatter leaves the text
as it is. These two are all the formatters a document can have here; one written by a user, which
may be any function on texts, is left out. -/

namespace SoliditySource

namespace Braces

/-- What the lines read so far leave behind. -/
structure State where
  depth : Nat := 0
  inComment : Bool := false
deriving DecidableEq, Repr

/-- The state after a trimmed line, and the number of levels the line is indented by. -/
def State.advance (state : State) (line : List Char) : Nat × State :=
  if line.isEmpty then (0, state)
  else
    let (counts, inComment) := scanLine state.inComment line
    (state.depth - counts.leading, ⟨state.depth + counts.opens - counts.closes, inComment⟩)

/-- The indented form of trimmed lines, each ended by a line feed. -/
def layout (indent : Indent) (state : State) : List (List Char) → List Char
  | [] => []
  | line :: lines =>
    let (level, next) := state.advance line
    indent.levels level ++ line ++ '\n' :: layout indent next lines

def format (indent : Indent) (text : List Char) : List Char :=
  Text.trimEnd (layout indent {} ((Text.lines text).map Text.trim))

end Braces

inductive Formatter where
  | passthrough
  | braces (indent : Indent)
deriving DecidableEq, Repr

namespace Formatter

instance : Inhabited Formatter := ⟨.braces default⟩

def format : Formatter → String → String
  | passthrough, text => text
  | braces indent, text => String.ofList (Braces.format indent text.toList)

end Formatter

end SoliditySource
