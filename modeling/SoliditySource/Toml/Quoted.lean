/-! Quoted texts of TOML: basic strings with escapes and literal strings without, each on one line
or over several. A reader takes what follows the opening quotes and returns the content and the
rest. -/

namespace SoliditySource.Toml.Quoted

/-- Controls other than the tab stand neither in strings nor in comments. -/
def isPlain (c : Char) : Bool :=
  c == '\t' || (0x20 ≤ c.toNat && c.toNat ≠ 0x7F)

def hexValue? (c : Char) : Option Nat :=
  if c.isDigit then some (c.toNat - '0'.toNat)
  else if 'a' ≤ c ∧ c ≤ 'f' then some (c.toNat - 'a'.toNat + 10)
  else if 'A' ≤ c ∧ c ≤ 'F' then some (c.toNat - 'A'.toNat + 10)
  else none

/-- The character with the number written in the next `count` digits. -/
def readScalar (count : Nat) (cs : List Char) : Option (Char × List Char) := do
  let digits := cs.take count
  guard (digits.length = count)
  let n := (← digits.mapM hexValue?).foldl (fun n d => n * 16 + d) 0
  guard (n.isValidChar)
  return (Char.ofNat n, cs.drop count)

/-- What stands after a backslash. -/
def readEscape : List Char → Option (Char × List Char)
  | 'b' :: cs => some ('\x08', cs)
  | 't' :: cs => some ('\t', cs)
  | 'n' :: cs => some ('\n', cs)
  | 'f' :: cs => some ('\x0c', cs)
  | 'r' :: cs => some ('\r', cs)
  | 'e' :: cs => some ('\x1b', cs)
  | '"' :: cs => some ('"', cs)
  | '\\' :: cs => some ('\\', cs)
  | 'x' :: cs => readScalar 2 cs
  | 'u' :: cs => readScalar 4 cs
  | 'U' :: cs => readScalar 8 cs
  | _ => none

/-- The content of a basic string on one line; `fuel` bounds the number of characters read. -/
def basicBody : Nat → List Char → Option (List Char × List Char)
  | 0, _ => none
  | _, [] => none
  | _ + 1, '"' :: cs => some ([], cs)
  | fuel + 1, '\\' :: cs => do
    let (c, cs) ← readEscape cs
    let (content, rest) ← basicBody fuel cs
    return (c :: content, rest)
  | fuel + 1, c :: cs => do
    guard (isPlain c)
    let (content, rest) ← basicBody fuel cs
    return (c :: content, rest)

def basic (cs : List Char) : Option (List Char × List Char) :=
  basicBody (cs.length + 1) cs

/-- The content of a literal string on one line. -/
def literal : List Char → Option (List Char × List Char)
  | [] => none
  | '\'' :: cs => some ([], cs)
  | c :: cs => do
    guard (isPlain c)
    let (content, rest) ← literal cs
    return (c :: content, rest)

/-- A line end just after the opening quotes does not belong to the content. -/
def dropFirstBreak : List Char → List Char
  | '\n' :: cs => cs
  | '\r' :: '\n' :: cs => cs
  | cs => cs

/-- After three closing quotes, up to two quotes more belong to the content, and come first. -/
def closing (mark : Char) : List Char → List Char × List Char
  | c :: d :: cs =>
    if c = mark ∧ d = mark then ([mark, mark], cs)
    else if c = mark then ([mark], d :: cs)
    else ([], c :: d :: cs)
  | [c] => if c = mark then ([mark], []) else ([], [c])
  | [] => ([], [])

/-- Blanks and line ends, all of which a backslash at the end of a line takes away. -/
def skipBreaks : List Char → List Char
  | ' ' :: cs => skipBreaks cs
  | '\t' :: cs => skipBreaks cs
  | '\n' :: cs => skipBreaks cs
  | '\r' :: '\n' :: cs => skipBreaks cs
  | cs => cs

/-- Whether only blanks are left on the line. -/
def atLineEnd (cs : List Char) : Bool :=
  match cs.dropWhile fun c => c == ' ' || c == '\t' with
  | '\n' :: _ => true
  | '\r' :: '\n' :: _ => true
  | _ => false

/-- The content of a basic string over several lines. -/
def longBasicBody : Nat → List Char → Option (List Char × List Char)
  | 0, _ => none
  | _, [] => none
  | _ + 1, '"' :: '"' :: '"' :: cs => some (closing '"' cs)
  | fuel + 1, '\\' :: cs =>
    if atLineEnd cs then longBasicBody fuel (skipBreaks cs)
    else do
      let (c, cs) ← readEscape cs
      let (content, rest) ← longBasicBody fuel cs
      return (c :: content, rest)
  | fuel + 1, '\r' :: '\n' :: cs => do
    let (content, rest) ← longBasicBody fuel cs
    return ('\r' :: '\n' :: content, rest)
  | fuel + 1, c :: cs => do
    guard (isPlain c ∨ c = '\n')
    let (content, rest) ← longBasicBody fuel cs
    return (c :: content, rest)

def longBasic (cs : List Char) : Option (List Char × List Char) :=
  longBasicBody (cs.length + 1) (dropFirstBreak cs)

/-- The content of a literal string over several lines. -/
def longLiteralBody : List Char → Option (List Char × List Char)
  | [] => none
  | '\'' :: '\'' :: '\'' :: cs => some (closing '\'' cs)
  | '\r' :: '\n' :: cs => do
    let (content, rest) ← longLiteralBody cs
    return ('\r' :: '\n' :: content, rest)
  | c :: cs => do
    guard (isPlain c ∨ c = '\n')
    let (content, rest) ← longLiteralBody cs
    return (c :: content, rest)

def longLiteral (cs : List Char) : Option (List Char × List Char) :=
  longLiteralBody (dropFirstBreak cs)

end SoliditySource.Toml.Quoted
