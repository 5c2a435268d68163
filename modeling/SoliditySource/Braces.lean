import SoliditySource.Text.Blank

/-! Counting the braces of a line of code. Braces inside string literals and comments do not count.
A block comment may run over several lines; a string literal ends with its line. -/

namespace SoliditySource.Braces

/-- What the next character of a line belongs to. -/
inductive Mode where
  | code
  | comment
  | quoted (mark : Char)
deriving DecidableEq, Repr

structure Counts where
  opens : Nat := 0
  closes : Nat := 0
  /-- The closing braces that come before any other code of the line. -/
  leading : Nat := 0
deriving DecidableEq, Repr

/-- The counts of the rest of a line, and whether the line ends inside a block comment. The flag
`leading` says that no code but closing braces was met so far. -/
def scan : Mode → Bool → List Char → Counts × Bool
  | mode, _, [] => ({}, mode = .comment)
  | .comment, leading, '*' :: '/' :: cs => scan .code leading cs
  | .comment, leading, _ :: cs => scan .comment leading cs
  | .quoted mark, leading, '\\' :: _ :: cs => scan (.quoted mark) leading cs
  | .quoted mark, leading, c :: cs => scan (if c = mark then .code else .quoted mark) leading cs
  | .code, _, '/' :: '/' :: _ => ({}, false)
  | .code, _, '/' :: '*' :: cs => scan .comment false cs
  | .code, _, '"' :: cs => scan (.quoted '"') false cs
  | .code, _, '\'' :: cs => scan (.quoted '\'') false cs
  | .code, _, '{' :: cs =>
    let (counts, inComment) := scan .code false cs
    ({ counts with opens := counts.opens + 1 }, inComment)
  | .code, leading, '}' :: cs =>
    let (counts, inComment) := scan .code leading cs
    let own := if leading then 1 else 0
    ({ counts with closes := counts.closes + 1, leading := counts.leading + own }, inComment)
  | .code, leading, c :: cs => scan .code (leading && Text.isBlank c) cs

/-- Scans a whole line that starts inside a block comment or not. -/
def scanLine (inComment : Bool) (line : List Char) : Counts × Bool :=
  scan (if inComment then .comment else .code) true line

end SoliditySource.Braces
