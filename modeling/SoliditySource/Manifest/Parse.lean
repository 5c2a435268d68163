import SoliditySource.Manifest.Problem
import SoliditySource.Manifest.Sections

/-! Reading a manifest. The first problem is reported: a source that does not parse, then the first
declaration that cannot be decoded, then the first repeated key, then an empty pattern. -/

namespace SoliditySource.Manifest

open Toml (Node Entries)

/-- What the entry `kind` of a declaration stands for. -/
inductive Tag where
  | container (kind : ContainerKind)
  | member (kind : DeclarationKind)
deriving DecidableEq, Repr

def Tag.ofKeyword? (word : String) : Option Tag :=
  match ContainerKind.ofKeyword? word with
  | some kind => some (.container kind)
  | none =>
    if word = "attribute" then some (.member .attribute)
    else if word = "struct" then some (.member .struct)
    else if word = "mapping" then some (.member .mapping)
    else if word = "function" then some (.member .function)
    else none

/-- The declaration with the given tag and the other entries of its table. -/
def decodeTagged (tag : Tag) (d : Datum) : Except Mismatch Declaration :=
  match tag with
  | .container kind => (Container.decode d).map fun c => .container { c with kind := kind }
  | .member kind => Declaration.decode kind d

/-- Decodes the table of the declaration number `index`. -/
def decodeDeclaration (source : List Char) (index : Nat) (table : Entries) :
    Except Problem Declaration :=
  match table.lookup "kind" with
  | none => .error (.missingKind index (Span.header? source index))
  | some (.string kind) =>
    match Tag.ofKeyword? kind with
    | none =>
      .error (.unknownKind kind
        ((Span.assignment? source "kind".toList kind.toList).or (Span.header? source index)))
    | some tag =>
      let others := table.filter (·.1 ≠ "kind")
      match decodeTagged tag (.map (Toml.entriesToData Toml.Datetime.toString others)) with
      | .ok d => .ok d
      | .error m => .error (.invalid (.badRecord kind m) (Span.header? source index))
  | some node => .error (.invalid (.kindNotText node.typeName) (Span.header? source index))

/-- Decodes tables that start with the declaration number `index`. -/
def decodeDeclarations (source : List Char) : Nat → List Entries → Except Problem (List Declaration)
  | _, [] => .ok []
  | index, table :: tables => do
    let d ← decodeDeclaration source index table
    let ds ← decodeDeclarations source (index + 1) tables
    return d :: ds

/-- The first key that stands among those before it, with its place there and its own place. -/
def firstRepeat? (seen : List Key) : List Key → Option (Key × Nat × Nat)
  | [] => none
  | key :: keys =>
    match seen.findIdx? (· = key) with
    | some first => some (key, first, seen.length)
    | none => firstRepeat? (seen ++ [key]) keys

/-- The first problem of a manifest whose parts are all decoded. -/
def problem? (source : List Char) (m : Manifest) : Option Problem :=
  match firstRepeat? [] (m.declarations.map Declaration.key) with
  | some (key, first, second) =>
    let place (index : Nat) :=
      Span.declarationAssignment? source index "name".toList key.name.toList
    some (.duplicate key (place first) (place second))
  | none =>
    if m.replacements.any (·.pattern.isEmpty) then
      some (.invalid .emptyPattern (Span.assignment? source "from".toList []))
    else none

def parse (source : String) : Except Problem Manifest :=
  match Sections.parse source with
  | .error mismatch => .error (.malformed mismatch)
  | .ok sections =>
    match decodeDeclarations source.toList 0 sections.declarations with
    | .error problem => .error problem
    | .ok declarations =>
      let m : Manifest := ⟨sections.indent, declarations, sections.replacements⟩
      match problem? source.toList m with
      | some problem => .error problem
      | none => .ok m

/-- Reads a manifest from the content of a file, which may be unreadable. -/
def ofFile (path : String) (content : Except ReadFailure String) : Except Problem Manifest :=
  match content with
  | .error failure => .error (.unreadable path failure)
  | .ok source => parse source

end SoliditySource.Manifest
