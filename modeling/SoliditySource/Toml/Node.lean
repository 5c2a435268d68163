import SoliditySource.Datum
import SoliditySource.Toml.Datetime

/-! Values of TOML, with what is needed to tell which tables may still grow while a document is
read. Tables hold their entries in ascending order of the keys. -/

namespace SoliditySource.Toml

/-- How a table came into being. -/
inductive Origin where
  /-- By its own header. -/
  | header
  /-- On the path of a header below it. -/
  | implied
  /-- On the path of a dotted key. -/
  | dotted
  /-- Between braces. -/
  | inline
deriving DecidableEq, Repr

/-- A float is kept as its text. An array of tables is made by headers, one for each of its tables.
-/
inductive Node where
  | string (value : String)
  | integer (value : Int)
  | float (decimal : String)
  /-- A number out of range. -/
  | overflow (kind : Datum.Overflow)
  | boolean (value : Bool)
  | datetime (value : Datetime)
  | array (items : List Node)
  | tables (items : List Node)
  | table (origin : Origin) (entries : List (String × Node))
deriving Repr

abbrev Entries := List (String × Node)

namespace Node

def typeName : Node → String
  | string _ => "string"
  | integer _ => "integer"
  | float _ => "float"
  | overflow .integer => "integer"
  | overflow .float => "float"
  | boolean _ => "boolean"
  | datetime _ => "datetime"
  | array _ => "array"
  | tables _ => "array"
  | table _ _ => "table"

end Node

namespace Entries

/-- Puts an entry in its place; an entry with the same key gives way. -/
def put (key : String) (value : Node) : Entries → Entries
  | [] => [(key, value)]
  | entry :: rest =>
    if entry.1 = key then (key, value) :: rest
    else if key < entry.1 then (key, value) :: entry :: rest
    else entry :: put key value rest

/-- Changes the last table of an array of tables. -/
def changeLast (change : Entries → Option Entries) : List Node → Option (List Node)
  | [] => none
  | [.table origin entries] => (change entries).map fun entries => [.table origin entries]
  | [_] => none
  | item :: items => (changeLast change items).map (item :: ·)

/-- Changes the table at the end of the path of a header. Missing tables on the way are implied, and
an array of tables stands for its last table. -/
def changeAt (change : Entries → Option Entries) : List String → Entries → Option Entries
  | [], table => change table
  | key :: path, table =>
    match table.lookup key with
    | none => (changeAt change path []).map fun entries => table.put key (.table .implied entries)
    | some (.table .inline _) => none
    | some (.table origin entries) =>
      (changeAt change path entries).map fun entries => table.put key (.table origin entries)
    | some (.tables items) =>
      (changeLast (changeAt change path) items).map fun items => table.put key (.tables items)
    | some _ => none

/-- Gives a value to a dotted key. The key must be new, and the table that takes it must be the one
the path starts from or come from dotted keys. On the way there, implied tables and arrays of tables
may be passed through, and a table that is defined by a header or between braces may not. -/
def assign (value : Node) : List String → Entries → Option Entries
  | [], _ => none
  | [key], table => if (table.lookup key).isSome then none else some (table.put key value)
  | key :: path, table =>
    match table.lookup key with
    | none => (assign value path []).map fun entries => table.put key (.table .dotted entries)
    | some (.table .dotted entries) =>
      (assign value path entries).map fun entries => table.put key (.table .dotted entries)
    | some (.table .implied entries) =>
      if path.length = 1 then none
      else (assign value path entries).map fun entries => table.put key (.table .implied entries)
    | some (.tables items) =>
      if path.length = 1 then none
      else (changeLast (assign value path) items).map fun items => table.put key (.tables items)
    | some _ => none

/-- Defines the table with the given key by its header, once. -/
def define (key : String) (table : Entries) : Option Entries :=
  match table.lookup key with
  | none => some (table.put key (.table .header []))
  | some (.table .implied entries) => some (table.put key (.table .header entries))
  | some _ => none

/-- Appends an empty table to the array of tables with the given key. -/
def append (key : String) (table : Entries) : Option Entries :=
  match table.lookup key with
  | none => some (table.put key (.tables [.table .header []]))
  | some (.tables items) => some (table.put key (.tables (items ++ [.table .header []])))
  | some _ => none

/-- Applies a change that needs the last key of a path at the table the other keys lead to. -/
def changeLastKey (change : String → Entries → Option Entries) (path : List String)
    (table : Entries) : Option Entries := do
  let key ← path.getLast?
  changeAt (change key) path.dropLast table

end Entries

end SoliditySource.Toml
