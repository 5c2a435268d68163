import SoliditySource.Comment
import SoliditySource.Declaration
import SoliditySource.Document.Error

/-! Rendering of declarations to flat text. Each container opens a segment, and the next container
closes it first; the last segment is closed at the end. Optional texts that are empty count as
absent. -/

namespace SoliditySource

/-- An optional text, with the empty one taken for none. -/
def present (text : Option String) : Option String :=
  text.filter (!·.isEmpty)

/-- A comment, the lines of a declaration, and the empty line that may follow it. -/
def declarationFragments (comment : Option String) (body : List Fragment) (lineBreak : Bool) :
    List Fragment :=
  Comment.wrap comment ++ body ++ if lineBreak then [.blank] else []

namespace Container

def header (c : Container) : String :=
  let parent := match present c.parent with
    | some parent => " is " ++ parent
    | none => ""
  c.kind.keyword ++ " " ++ c.name ++ parent ++ " \x7b"

def fragments (c : Container) : List Fragment :=
  declarationFragments c.comment [.line c.header, .blank] false

end Container

namespace Attribute

def line (a : Attribute) : String :=
  let modifier := match present a.modifier with
    | some modifier => modifier ++ " "
    | none => ""
  let value := match a.value.filter (!·.isEmpty) with
    | some value => " = " ++ value.source
    | none => ""
  a.type ++ " " ++ modifier ++ a.name ++ value ++ ";"

def fragments (a : Attribute) : List Fragment :=
  declarationFragments a.comment [.line a.line] a.lineBreak

end Attribute

def Struct.fragments (s : Struct) : List Fragment :=
  declarationFragments s.comment
    (.line ("struct " ++ s.name ++ " \x7b") :: s.attributes.flatMap Attribute.fragments ++
      [.line "\x7d"]) s.lineBreak

namespace Mapping

def line (m : Mapping) : String :=
  let modifier := match present m.modifier with
    | some modifier => modifier ++ " "
    | none => ""
  "mapping (" ++ m.keyType ++ " => " ++ m.valueType ++ ") " ++ modifier ++ m.name ++ ";"

def fragments (m : Mapping) : List Fragment :=
  declarationFragments m.comment [.line m.line] m.lineBreak

end Mapping

def Param.source (p : Param) : String :=
  p.type ++ " " ++ p.name

namespace Function

/-- The header and the body, which may hold line feeds of its own. -/
def line (f : Function) : String :=
  let modifier := match present f.modifier with
    | some modifier => " " ++ modifier
    | none => ""
  let returns := match present f.returnType with
    | some type => " returns (" ++ type ++ ")"
    | none => ""
  "function " ++ f.name ++ "(" ++ ", ".intercalate (f.parameters.map Param.source) ++ ")" ++
    modifier ++ returns ++ " \x7b" ++ f.body ++ "\x7d"

def fragments (f : Function) : List Fragment :=
  declarationFragments f.comment [.line f.line] f.lineBreak

end Function

namespace Declaration

def fragments : Declaration → List Fragment
  | .container c => c.fragments
  | .attribute a => a.fragments
  | .struct s => s.fragments
  | .mapping m => m.fragments
  | .function f => f.fragments

/-- The text a declaration adds to a rendering, whatever stands around it. -/
def text (d : Declaration) : String :=
  Fragment.concat d.fragments

end Declaration

/-- The text of declarations that follow an open segment, up to the brace that closes the last one.
-/
def renderRest : List Declaration → String
  | [] => "\x7d"
  | d :: ds => (if d.isContainer then "\x7d\n\n" else "") ++ d.text ++ renderRest ds

/-- The flat text of declarations, of which the first has to be a container. -/
def renderDeclarations : List Declaration → Except DocumentError String
  | [] => .error (.structural none)
  | d :: ds =>
    if d.isContainer then .ok (d.text ++ renderRest ds) else .error (.structural (some d.key))

end SoliditySource
