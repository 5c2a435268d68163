import SoliditySource.Document.Error
import SoliditySource.Formatter
import SoliditySource.OrderedMap
import SoliditySource.Patch
import SoliditySource.Render
import SoliditySource.Rules

/-! Documents: declarations in the order in which they were added, replacement rules, and the
formatter of the rendered text. -/

namespace SoliditySource

structure Document where
  declarations : OrderedMap Key Declaration := {}
  rules : Rules := {}
  formatter : Formatter := default
deriving DecidableEq, Repr

namespace Document

def keys (doc : Document) : List Key :=
  doc.declarations.keys

/-- The declarations in the order of rendering. -/
def toList (doc : Document) : List Declaration :=
  doc.declarations.values

def size (doc : Document) : Nat :=
  doc.declarations.size

def isEmpty (doc : Document) : Bool :=
  doc.declarations.isEmpty

def get? (doc : Document) (key : Key) : Option Declaration :=
  doc.declarations.get? key

def contains (doc : Document) (key : Key) : Bool :=
  (doc.get? key).isSome

/-- Appends a declaration, unless one of the same kind and name is there. -/
def add (doc : Document) (d : Declaration) : Except DocumentError Document :=
  if doc.contains d.key then .error (.duplicate d.key)
  else .ok { doc with declarations := doc.declarations.insert d.key d }

/-- Patches the declaration called `name` of the kind of the patch, and says whether there is one.
-/
def change (doc : Document) (name : String) (patch : Patch) : Document × Bool :=
  let key : Key := ⟨patch.kind, name⟩
  match (doc.get? key).bind patch.applyTo with
  | some d => ({ doc with declarations := doc.declarations.insert key d }, true)
  | none => (doc, false)

/-- Removes a declaration; the others keep their order. -/
def remove (doc : Document) (key : Key) : Document × Option Declaration :=
  ({ doc with declarations := doc.declarations.erase key }, doc.get? key)

def removeContainer (doc : Document) (name : String) : Document × Option Container :=
  let (doc, removed) := doc.remove ⟨.container, name⟩
  (doc, removed.bind Declaration.container?)

def removeAttribute (doc : Document) (name : String) : Document × Option Attribute :=
  let (doc, removed) := doc.remove ⟨.attribute, name⟩
  (doc, removed.bind Declaration.attribute?)

def removeStruct (doc : Document) (name : String) : Document × Option Struct :=
  let (doc, removed) := doc.remove ⟨.struct, name⟩
  (doc, removed.bind Declaration.struct?)

def removeMapping (doc : Document) (name : String) : Document × Option Mapping :=
  let (doc, removed) := doc.remove ⟨.mapping, name⟩
  (doc, removed.bind Declaration.mapping?)

def removeFunction (doc : Document) (name : String) : Document × Option Function :=
  let (doc, removed) := doc.remove ⟨.function, name⟩
  (doc, removed.bind Declaration.function?)

def addRule (doc : Document) (pattern replacement : String) : Document :=
  { doc with rules := doc.rules.insert pattern replacement }

def setFormatter (doc : Document) (formatter : Formatter) : Document :=
  { doc with formatter := formatter }

/-- Drops all declarations and rules, and keeps the formatter. -/
def reset (doc : Document) : Document :=
  { doc with declarations := {}, rules := doc.rules.clear }

/-- The text after the replacement rules, before formatting. -/
def renderRaw (doc : Document) : Except DocumentError String :=
  (renderDeclarations doc.toList).map doc.rules.apply

def render (doc : Document) : Except DocumentError String :=
  doc.renderRaw.map doc.formatter.format

end Document

end SoliditySource
