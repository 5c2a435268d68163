/-! Initial values of attributes. A text is written as a quoted literal, every other value bare. -/

namespace SoliditySource

inductive Value where
  | boolean (value : Bool)
  | integer (value : Int64)
  | text (content : String)
  | literal (source : String)
deriving DecidableEq, Repr

namespace Value

/-- The characters that stand for `c` between the quotes of a literal. -/
def escapeChar (c : Char) : List Char :=
  match c with
  | '"' => ['\\', '"']
  | '\\' => ['\\', '\\']
  | '\n' => ['\\', 'n']
  | '\r' => ['\\', 'r']
  | '\t' => ['\\', 't']
  | c => [c]

def escape (cs : List Char) : List Char :=
  cs.flatMap escapeChar

def quote (content : String) : String :=
  String.ofList ('"' :: escape content.toList ++ ['"'])

/-- The source text of a value. -/
def source : Value → String
  | boolean b => if b then "true" else "false"
  | integer n => toString n.toInt
  | text s => quote s
  | literal s => s

/-- Empty texts and empty literals count as no value. -/
def isEmpty : Value → Bool
  | text s => s.isEmpty
  | literal s => s.isEmpty
  | boolean _ => false
  | integer _ => false

end Value

end SoliditySource
