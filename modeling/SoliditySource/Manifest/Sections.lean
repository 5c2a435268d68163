import SoliditySource.Datum.Decode
import SoliditySource.Manifest
import SoliditySource.Toml.Data
import SoliditySource.Toml.Parser

/-! The sections of a manifest as written. The tables of the declarations are left undecoded. -/

namespace SoliditySource

open Decoder

/-- A width in spaces up to the greatest one, or the word `tab`. Before it is looked at, all that is
given is read through, and no integer in it may have more than 64 bits. -/
def Indent.decode (d : Datum) : Except Mismatch Indent := do
  skip inWord d
  match d with
  | .integer n =>
    if 0 ≤ n ∧ n ≤ Indent.maxSpaces then .ok (.spaces n.toNat)
    else if inInt64 n then .error (.indentWidth n)
    else .error (.noVariant "RawIndent")
  | .string name => if name = "tab" then .ok .tab else .error (.indentName name)
  | _ => .error (.noVariant "RawIndent")

namespace Replacement

def fields : List String := ["from", "to"]

/-- The texts under the keys of the fields; all other entries are passed over. -/
def readTexts : List (String × Datum) → Except Mismatch (List (String × String))
  | [] => .ok []
  | (key, d) :: entries =>
    if fields.contains key then do
      let text ← string d
      return (key, text) :: (← readTexts entries)
    else do
      skip (fun _ => true) d
      readTexts entries

def ofEntries (entries : List (String × Datum)) : Except Mismatch Replacement := do
  let texts ← readTexts entries
  let pattern ← required "from" (texts.lookup "from")
  let replacement ← required "to" (texts.lookup "to")
  return ⟨pattern, replacement⟩

def ofItems (items : List Datum) : Except Mismatch Replacement := do
  let pattern ← requiredItem "Replacement" fields items 0
  let replacement ← requiredItem "Replacement" fields items 1
  return ⟨pattern, replacement⟩

def decode (surplus : Surplus) : Decoder Replacement :=
  record "Replacement" fields surplus ofEntries ofItems

end Replacement

namespace Manifest

open Toml (Node Entries)

/-- The section on formatting knows nothing but the indentation. -/
def decodeFormat : Decoder Indent
  | .map entries =>
    entries.foldlM
      (fun _ (key, d) =>
        if key = "indent" then Indent.decode d else .error (.unknownField key ["indent"]))
      default
  | .sequence items => item items 0 Indent.decode default
  | d => wrongType (.record "FormatConfig") d

/-- The entries of a table as they are kept. The table itself stands for no datetime. -/
def tableEntries : Node → Except Mismatch Entries
  | .table _ entries => Toml.settleEntries entries
  | .datetime d => .ok [(Toml.datetimeKey, .string d.text)]
  | node => wrongType .map (node.toDatum Toml.Datetime.toMap)

def tableList : Node → Except Mismatch (List Entries)
  | .array items => items.mapM tableEntries
  | .tables items => items.mapM tableEntries
  | node => wrongType .sequence (node.toDatum Toml.Datetime.toMap)

structure Sections where
  indent : Indent := default
  declarations : List Entries := []
  replacements : List Replacement := []
deriving Repr

namespace Sections

def names : List String := ["format", "declarations", "replacements"]

def visit (sections : Sections) (entry : String × Node) : Except Mismatch Sections :=
  let (name, node) := entry
  let datum := node.toDatum Toml.Datetime.toMap
  if name = "declarations" then
    (tableList node).map ({ sections with declarations := · })
  else if name = "format" then
    (decodeFormat datum).map ({ sections with indent := · })
  else if name = "replacements" then
    (list (Replacement.decode .ignored) datum).map ({ sections with replacements := · })
  else .error (.unknownField name names)

/-- The entries are visited in ascending order of their keys. -/
def ofEntries (root : Entries) : Except Mismatch Sections :=
  root.foldlM visit {}

/-- The sections of a source. The failure has a mismatch if the source is well-formed TOML. -/
def parse (source : String) : Except (Option Mismatch) Sections :=
  match Toml.parse? source with
  | none => .error none
  | some root =>
    (ofEntries root).mapError fun m => if Toml.settles root then some m else none

end Sections

end Manifest

end SoliditySource
