import SoliditySource.Datum.Mismatch
import SoliditySource.Declaration

/-! Reading records from data. A record is read from a map or from a list.

From a map the fields are read in ascending order of their keys, so the first mismatch in that order
is the one reported; keys that name no field are passed over, and a missing name is noticed last.
From a list the fields are read in the order of the record, and those at the end may be missing. -/

namespace SoliditySource

/-- A reader of data. -/
abbrev Decoder (α : Type) := Datum → Except Mismatch α

namespace Decoder

def wrongType (expected : Expected) : Decoder α :=
  fun d =>
    match d.shape with
    | .ok found => .error (.wrongType found expected)
    | .error kind => .error (.overflow kind)

def string : Decoder String
  | .string s => .ok s
  | d => wrongType .string d

def boolean : Decoder Bool
  | .boolean b => .ok b
  | d => wrongType .boolean d

mutual

/-- Passes over a datum. All numbers in it are read, so each must be in range and also meet
`accepts`. -/
def skip (accepts : Int → Bool) : Decoder Unit
  | .overflow kind => .error (.overflow kind)
  | .integer n => if accepts n then .ok () else .error (.wrongType (.integer n) .anything)
  | .sequence items => skipItems accepts items
  | .map entries => skipEntries accepts entries
  | _ => .ok ()

def skipItems (accepts : Int → Bool) : List Datum → Except Mismatch Unit
  | [] => .ok ()
  | item :: items => do
    skip accepts item
    skipItems accepts items

def skipEntries (accepts : Int → Bool) : List (String × Datum) → Except Mismatch Unit
  | [] => .ok ()
  | (_, value) :: entries => do
    skip accepts value
    skipEntries accepts entries

end

/-- Null stands for none. -/
def optional (read : Decoder α) : Decoder (Option α)
  | .null => .ok none
  | d => (read d).map some

def list (read : Decoder α) : Decoder (List α)
  | .sequence items => items.mapM read
  | d => wrongType .sequence d

/-- The field under `key`, if there is one. -/
def field? (entries : List (String × Datum)) (key : String) (read : Decoder α) :
    Except Mismatch (Option α) :=
  match entries.lookup key with
  | none => .ok none
  | some d => (read d).map some

/-- The field under `key`, or `default` if there is none. -/
def field (entries : List (String × Datum)) (key : String) (read : Decoder α) (default : α) :
    Except Mismatch α :=
  (field? entries key read).map (·.getD default)

/-- The item number `index`, or `default` if the list ends before. -/
def item (items : List Datum) (index : Nat) (read : Decoder α) (default : α) : Except Mismatch α :=
  match items[index]? with
  | none => .ok default
  | some d => read d

/-- A field that has to be there. -/
def required (key : String) : Option α → Except Mismatch α
  | none => .error (.missingField key)
  | some a => .ok a

/-- Whether a list may be longer than the record it is read as. -/
inductive Surplus where
  | refused
  | ignored
deriving DecidableEq, Repr

/-- A record with the given fields, read from a map or from a list. -/
def record (type : String) (fields : List String) (surplus : Surplus)
    (ofEntries : List (String × Datum) → Except Mismatch α)
    (ofItems : List Datum → Except Mismatch α) : Decoder α
  | .map entries => ofEntries entries
  | .sequence items => do
    let record ← ofItems items
    if surplus = .refused ∧ fields.length < items.length then
      .error (.extraItems items.length)
    else .ok record
  | d => wrongType (.record type) d

/-- The text that is item number `index` of a record read from a list, and has to be there. -/
def requiredItem (type : String) (fields : List String) (items : List Datum) (index : Nat) :
    Except Mismatch String :=
  match items[index]? with
  | none => .error (.missingItems index type fields.length)
  | some d => string d

end Decoder

open Decoder

/-- The integers of 64 bits with a sign. -/
def inInt64 (n : Int) : Bool :=
  -9223372036854775808 ≤ n && n ≤ 9223372036854775807

/-- A boolean, an integer of 64 bits, a text, or a map whose `literal` is a text. -/
def Value.decode : Decoder Value
  | .boolean b => .ok (.boolean b)
  | .integer n => if inInt64 n then .ok (.integer (Int64.ofInt n)) else .error (.noVariant "Value")
  | .string s => .ok (.text s)
  | .map entries =>
    match entries.lookup "literal" with
    | some (.string s) => .ok (.literal s)
    | _ => .error (.noVariant "Value")
  | _ => .error (.noVariant "Value")

namespace ContainerKind

def decodeName (name : String) : Except Mismatch ContainerKind :=
  match ofKeyword? name with
  | some kind => .ok kind
  | none => .error (.unknownVariant name (all.map keyword))

/-- A keyword, or a map with the keyword as its only key and null under it. -/
def decode : Decoder ContainerKind
  | .string name => decodeName name
  | .map [(name, d)] => do
    let kind ← decodeName name
    match d with
    | .null => .ok kind
    | d => wrongType .nothing d
  | .map _ => .error .notSingle
  | d => wrongType .stringOrMap d

end ContainerKind

namespace Container

def fields : List String := ["name", "kind", "parent", "comment"]

/-- The parent may also be given under `is`, but not under both keys. -/
def ofEntries (entries : List (String × Datum)) : Except Mismatch Container := do
  let comment ← field entries "comment" (optional string) none
  let is ← field? entries "is" (optional string)
  let kind ← field entries "kind" ContainerKind.decode .contract
  let name ← field? entries "name" string
  let parent ← field entries "parent"
    (fun d => if is.isSome then .error (.repeatedField "parent") else optional string d)
    (is.getD none)
  let name ← required "name" name
  return { name, kind, parent, comment }

def ofItems (items : List Datum) : Except Mismatch Container := do
  let name ← requiredItem "Container" fields items 0
  let kind ← item items 1 ContainerKind.decode .contract
  let parent ← item items 2 (optional string) none
  let comment ← item items 3 (optional string) none
  return { name, kind, parent, comment }

def decode : Decoder Container :=
  record "Container" fields .refused ofEntries ofItems

end Container

namespace Attribute

def fields : List String := ["name", "type", "modifier", "value", "comment", "line_break"]

def ofEntries (entries : List (String × Datum)) : Except Mismatch Attribute := do
  let comment ← field entries "comment" (optional string) none
  let lineBreak ← field entries "line_break" boolean false
  let modifier ← field entries "modifier" (optional string) none
  let name ← field? entries "name" string
  let type ← field entries "type" string ""
  let value ← field entries "value" (optional Value.decode) none
  let name ← required "name" name
  return { name, type, modifier, value, comment, lineBreak }

def ofItems (items : List Datum) : Except Mismatch Attribute := do
  let name ← requiredItem "Attribute" fields items 0
  let type ← item items 1 string ""
  let modifier ← item items 2 (optional string) none
  let value ← item items 3 (optional Value.decode) none
  let comment ← item items 4 (optional string) none
  let lineBreak ← item items 5 boolean false
  return { name, type, modifier, value, comment, lineBreak }

def decode : Decoder Attribute :=
  record "Attribute" fields .refused ofEntries ofItems

end Attribute

namespace Struct

def fields : List String := ["name", "attributes", "comment", "line_break"]

def ofEntries (entries : List (String × Datum)) : Except Mismatch Struct := do
  let attributes ← field entries "attributes" (list Attribute.decode) []
  let comment ← field entries "comment" (optional string) none
  let lineBreak ← field entries "line_break" boolean false
  let name ← field? entries "name" string
  let name ← required "name" name
  return { name, attributes, comment, lineBreak }

def ofItems (items : List Datum) : Except Mismatch Struct := do
  let name ← requiredItem "Struct" fields items 0
  let attributes ← item items 1 (list Attribute.decode) []
  let comment ← item items 2 (optional string) none
  let lineBreak ← item items 3 boolean false
  return { name, attributes, comment, lineBreak }

def decode : Decoder Struct :=
  record "Struct" fields .refused ofEntries ofItems

end Struct

namespace Mapping

def fields : List String :=
  ["name", "key_type", "value_type", "modifier", "comment", "line_break"]

def ofEntries (entries : List (String × Datum)) : Except Mismatch Mapping := do
  let comment ← field entries "comment" (optional string) none
  let keyType ← field entries "key_type" string ""
  let lineBreak ← field entries "line_break" boolean false
  let modifier ← field entries "modifier" (optional string) none
  let name ← field? entries "name" string
  let valueType ← field entries "value_type" string ""
  let name ← required "name" name
  return { name, keyType, valueType, modifier, comment, lineBreak }

def ofItems (items : List Datum) : Except Mismatch Mapping := do
  let name ← requiredItem "Mapping" fields items 0
  let keyType ← item items 1 string ""
  let valueType ← item items 2 string ""
  let modifier ← item items 3 (optional string) none
  let comment ← item items 4 (optional string) none
  let lineBreak ← item items 5 boolean false
  return { name, keyType, valueType, modifier, comment, lineBreak }

def decode : Decoder Mapping :=
  record "Mapping" fields .refused ofEntries ofItems

end Mapping

namespace Param

def fields : List String := ["name", "type"]

def ofEntries (entries : List (String × Datum)) : Except Mismatch Param := do
  let name ← field? entries "name" string
  let type ← field entries "type" string ""
  let name ← required "name" name
  return { name, type }

def ofItems (items : List Datum) : Except Mismatch Param := do
  let name ← requiredItem "Param" fields items 0
  let type ← item items 1 string ""
  return { name, type }

def decode : Decoder Param :=
  record "Param" fields .refused ofEntries ofItems

end Param

namespace Function

def fields : List String :=
  ["name", "parameters", "return_type", "modifier", "body", "comment", "line_break"]

def ofEntries (entries : List (String × Datum)) : Except Mismatch Function := do
  let body ← field entries "body" string ""
  let comment ← field entries "comment" (optional string) none
  let lineBreak ← field entries "line_break" boolean false
  let modifier ← field entries "modifier" (optional string) none
  let name ← field? entries "name" string
  let parameters ← field entries "parameters" (list Param.decode) []
  let returnType ← field entries "return_type" (optional string) none
  let name ← required "name" name
  return { name, parameters, returnType, modifier, body, comment, lineBreak }

def ofItems (items : List Datum) : Except Mismatch Function := do
  let name ← requiredItem "Function" fields items 0
  let parameters ← item items 1 (list Param.decode) []
  let returnType ← item items 2 (optional string) none
  let modifier ← item items 3 (optional string) none
  let body ← item items 4 string ""
  let comment ← item items 5 (optional string) none
  let lineBreak ← item items 6 boolean false
  return { name, parameters, returnType, modifier, body, comment, lineBreak }

def decode : Decoder Function :=
  record "Function" fields .refused ofEntries ofItems

end Function

/-- Reads a record of the given kind. -/
def Declaration.decode : DeclarationKind → Decoder Declaration
  | .container, d => (Container.decode d).map .container
  | .attribute, d => (Attribute.decode d).map .attribute
  | .struct, d => (Struct.decode d).map .struct
  | .mapping, d => (Mapping.decode d).map .mapping
  | .function, d => (Function.decode d).map .function

end SoliditySource
