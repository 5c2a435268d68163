import SoliditySource.Datum.Decode
import SoliditySource.Toml.Parser

/-! TOML values as data. There is no datum for a datetime: where records are read it counts as its
text, and elsewhere as a map with that text under a key of its own. -/

namespace SoliditySource.Toml

def datetimeKey : String := "$__toml_private_datetime"

def Datetime.toString (d : Datetime) : Datum :=
  .string d.text

def Datetime.toMap (d : Datetime) : Datum :=
  .map [(datetimeKey, .string d.text)]

mutual

def Node.toDatum (datetime : Datetime → Datum) : Node → Datum
  | .string s => .string s
  | .integer n => .integer n
  | .float d => .float d
  | .overflow kind => .overflow kind
  | .boolean b => .boolean b
  | .datetime d => datetime d
  | .array items => .sequence (itemsToData datetime items)
  | .tables items => .sequence (itemsToData datetime items)
  | .table _ entries => .map (entriesToData datetime entries)

def itemsToData (datetime : Datetime → Datum) : List Node → List Datum
  | [] => []
  | item :: items => item.toDatum datetime :: itemsToData datetime items

def entriesToData (datetime : Datetime → Datum) : List (String × Node) → List (String × Datum)
  | [] => []
  | (key, value) :: entries => (key, value.toDatum datetime) :: entriesToData datetime entries

end

/-- The datetime in the text under the key of its own. -/
def readDatetime : Node → Except Mismatch Datetime
  | .string text =>
    match Datetime.read text.toList with
    | .ok d => .ok d
    | .error problem => .error (.malformedDatetime problem)
  | node => Decoder.wrongType .datetime (node.toDatum Datetime.toMap)

/-- The datetime that a table stands for if the key of its own comes first. The other entries do not
count then. -/
def markedDatetime? : List (String × Node) → Option (Except Mismatch Datetime)
  | (key, value) :: _ => if key = datetimeKey then some (readDatetime value) else none
  | [] => none

mutual

/-- The value as it is kept: its integers have 64 bits with a sign, no number is out of range, and
tables that stand for datetimes are replaced by these. -/
def Node.settle : Node → Except Mismatch Node
  | .integer n =>
    if inInt64 n then .ok (.integer n)
    else if inWord n then .error .unsignedWord
    else .error (.wrongType (.integer n) .tomlValue)
  | .overflow kind => .error (.overflow kind)
  | .array items => (settleItems items).map .array
  | .tables items => (settleItems items).map .tables
  | .table origin entries =>
    match markedDatetime? entries with
    | some datetime => datetime.map .datetime
    | none => (settleEntries entries).map (.table origin)
  | node => .ok node

def settleItems : List Node → Except Mismatch (List Node)
  | [] => .ok []
  | item :: items => do
    let item ← item.settle
    return item :: (← settleItems items)

def settleEntries : List (String × Node) → Except Mismatch (List (String × Node))
  | [] => .ok []
  | (key, value) :: entries => do
    let value ← value.settle
    return (key, value) :: (← settleEntries entries)

end

/-- Whether all values of a table can be kept. -/
def settles (table : Entries) : Bool :=
  (settleEntries table).isOk

/-- Whether a text is a TOML document all of whose values can be kept. -/
def isWellFormed (text : String) : Bool :=
  (parse? text).any settles

end SoliditySource.Toml
