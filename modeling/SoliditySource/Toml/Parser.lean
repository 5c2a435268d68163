import SoliditySource.Toml.Node
import SoliditySource.Toml.Number
import SoliditySource.Toml.Quoted

/-! Reading a TOML document. A reader takes the characters that are left and returns what it read
and the rest, or nothing if the document is not well formed. The fuel of a reader bounds the number
of its steps; every step takes at least one character, so the number of characters is enough. -/

namespace SoliditySource.Toml

open Quoted (isPlain)

/-- Arrays and inline tables stand inside each other at most so deep. -/
def maxNesting : Nat := 80

/-- A dotted key or the name in a header has at most so many keys. -/
def maxPath : Nat := 80

def isBlank (c : Char) : Bool :=
  c == ' ' || c == '\t'

def skipBlanks (cs : List Char) : List Char :=
  cs.dropWhile isBlank

/-- Skips blanks, line ends and comments; `inComment` says that a comment has begun. -/
def skipGap (inComment : Bool) : List Char → Option (List Char)
  | [] => some []
  | '\n' :: cs => skipGap false cs
  | '\r' :: '\n' :: cs => skipGap false cs
  | c :: cs =>
    if inComment then if isPlain c then skipGap true cs else none
    else if isBlank c then skipGap false cs
    else if c = '#' then skipGap true cs
    else some (c :: cs)

/-- Skips a comment up to the end of its line. -/
def skipComment : List Char → Option (List Char)
  | [] => some []
  | '\n' :: cs => some ('\n' :: cs)
  | '\r' :: '\n' :: cs => some ('\r' :: '\n' :: cs)
  | c :: cs => if isPlain c then skipComment cs else none

/-- Skips what may follow a statement on its line, and the line end. -/
def skipLine (cs : List Char) : Option (List Char) := do
  let cs ← match skipBlanks cs with
    | '#' :: cs => skipComment cs
    | cs => some cs
  match cs with
  | [] => some []
  | '\n' :: cs => some cs
  | '\r' :: '\n' :: cs => some cs
  | _ => none

def isBareKeyChar (c : Char) : Bool :=
  c.isAlphanum || c == '_' || c == '-'

def readKey : List Char → Option (String × List Char)
  | '"' :: cs => (Quoted.basic cs).map fun (key, cs) => (String.ofList key, cs)
  | '\'' :: cs => (Quoted.literal cs).map fun (key, cs) => (String.ofList key, cs)
  | cs =>
    let key := cs.takeWhile isBareKeyChar
    if key.isEmpty then none else some (String.ofList key, cs.drop key.length)

/-- Up to `limit` keys divided by dots, with blanks around each. -/
def readKeys : Nat → List Char → Option (List String × List Char)
  | 0, _ => none
  | limit + 1, cs => do
    let (key, cs) ← readKey (skipBlanks cs)
    match skipBlanks cs with
    | '.' :: cs =>
      let (path, cs) ← readKeys limit cs
      return (key :: path, cs)
    | cs => return ([key], cs)

def readPath (cs : List Char) : Option (List String × List Char) :=
  readKeys maxPath cs

/-- What can stand in a word: all but blanks and the signs that end a value. -/
def isWordChar (c : Char) : Bool :=
  !(isBlank c || c == '=' || c == ',' || c == '[' || c == ']' || c == '\x7b' || c == '\x7d' ||
    c == '#' || c == '\r' || c == '\n')

def isQuote (c : Char) : Bool :=
  c == '"' || c == '\''

/-- Whether a part of a word comes next. A quote starts none. -/
def startsPart (cs : List Char) : Bool :=
  cs.head?.any fun c => isWordChar c && !isQuote c

/-- The word at the start. Blanks between its parts belong to it. -/
def wordAt : List Char → List Char
  | [] => []
  | c :: cs =>
    if isWordChar c || (isBlank c && startsPart (skipBlanks cs)) then c :: wordAt cs else []

/-- What a word stands for. -/
def ofWord (word : List Char) : Option Node :=
  if word = ['t', 'r', 'u', 'e'] then some (.boolean true)
  else if word = ['f', 'a', 'l', 's', 'e'] then some (.boolean false)
  else
    match Number.readInteger word, Number.readFloat word, Datetime.read word with
    | some (some n), _, _ => some (.integer n)
    | some none, _, _ => some (.overflow .integer)
    | none, some (some d), _ => some (.float d)
    | none, some none, _ => some (.overflow .float)
    | none, none, .ok t => some (.datetime t)
    | none, none, .error _ => none

def readWord (cs : List Char) : Option (Node × List Char) :=
  let word := wordAt cs
  (ofWord word).map (·, cs.drop word.length)

mutual

/-- A value in which arrays and inline tables may nest `depth` deep. -/
def readValue : Nat → Nat → List Char → Option (Node × List Char)
  | 0, _, _ => none
  | fuel + 1, depth, cs =>
    match cs with
    | '"' :: '"' :: '"' :: cs => (Quoted.longBasic cs).map fun (s, cs) => (.string (.ofList s), cs)
    | '"' :: cs => (Quoted.basic cs).map fun (s, cs) => (.string (.ofList s), cs)
    | '\'' :: '\'' :: '\'' :: cs =>
      (Quoted.longLiteral cs).map fun (s, cs) => (.string (.ofList s), cs)
    | '\'' :: cs => (Quoted.literal cs).map fun (s, cs) => (.string (.ofList s), cs)
    | '[' :: cs =>
      match depth with
      | 0 => none
      | depth + 1 => (readItems fuel depth cs).map fun (items, cs) => (.array items, cs)
    | '{' :: cs =>
      match depth with
      | 0 => none
      | depth + 1 =>
        (readEntries fuel depth [] cs).map fun (entries, cs) => (.table .inline entries, cs)
    | cs => readWord cs

/-- The items of an array up to its end. -/
def readItems : Nat → Nat → List Char → Option (List Node × List Char)
  | 0, _, _ => none
  | fuel + 1, depth, cs => do
    match ← skipGap false cs with
    | ']' :: cs => return ([], cs)
    | cs =>
      let (item, cs) ← readValue fuel depth cs
      match ← skipGap false cs with
      | ']' :: cs => return ([item], cs)
      | ',' :: cs =>
        let (items, cs) ← readItems fuel depth cs
        return (item :: items, cs)
      | _ => none

/-- The entries of an inline table up to its end, added to those read so far. Line ends and comments
may stand between any two of its parts, except inside a dotted key. -/
def readEntries : Nat → Nat → Entries → List Char → Option (Entries × List Char)
  | 0, _, _, _ => none
  | fuel + 1, depth, table, cs => do
    match ← skipGap false cs with
    | '}' :: cs => return (table, cs)
    | cs =>
      let (path, cs) ← readPath cs
      match ← skipGap false cs with
      | '=' :: cs =>
        let (value, cs) ← readValue fuel depth (← skipGap false cs)
        let table ← table.assign value path
        match ← skipGap false cs with
        | '}' :: cs => return (table, cs)
        | ',' :: cs => readEntries fuel depth table cs
        | _ => none
      | _ => none

end

/-- What the statements read so far define, and the path of the last header. -/
structure Draft where
  root : Entries := []
  path : List String := []
deriving Repr

namespace Draft

def openTable (draft : Draft) (path : List String) : Option Draft := do
  return ⟨← draft.root.changeLastKey Entries.define path, path⟩

def openTables (draft : Draft) (path : List String) : Option Draft := do
  return ⟨← draft.root.changeLastKey Entries.append path, path⟩

def assign (draft : Draft) (path : List String) (value : Node) : Option Draft := do
  return { draft with root := ← draft.root.changeAt (Entries.assign value path) draft.path }

end Draft

/-- One statement, from the start of a line that is not empty to its end. -/
def readStatement (draft : Draft) (cs : List Char) : Option (Draft × List Char) := do
  match cs with
  | '[' :: '[' :: cs =>
    match ← readPath cs with
    | (path, ']' :: ']' :: cs) => return (← draft.openTables path, ← skipLine cs)
    | _ => none
  | '[' :: cs =>
    match ← readPath cs with
    | (path, ']' :: cs) => return (← draft.openTable path, ← skipLine cs)
    | _ => none
  | cs =>
    match ← readPath cs with
    | (path, '=' :: cs) =>
      let (value, cs) ← readValue (cs.length + 1) maxNesting (skipBlanks cs)
      return (← draft.assign path value, ← skipLine cs)
    | _ => none

def readStatements : Nat → Draft → List Char → Option Entries
  | 0, _, _ => none
  | fuel + 1, draft, cs => do
    match ← skipGap false cs with
    | [] => return draft.root
    | cs =>
      let (draft, cs) ← readStatement draft cs
      readStatements fuel draft cs

/-- A mark for the order of bytes may come first, and is passed over. -/
def dropByteOrderMark : List Char → List Char
  | '\uFEFF' :: cs => cs
  | cs => cs

/-- The table a document describes, if it is well formed. -/
def parse? (text : String) : Option Entries :=
  let cs := dropByteOrderMark text.toList
  readStatements (cs.length + 1) {} cs

end SoliditySource.Toml
