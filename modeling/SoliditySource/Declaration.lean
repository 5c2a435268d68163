import SoliditySource.Kind
import SoliditySource.Value

/-! The records a document holds. Every record has a name, and everything but the name has a
default, so `{ name := n }` is the blank record called `n`. -/

namespace SoliditySource

/-- A top-level block. Its header always ends with a blank line, so it has no line break of its own.
-/
structure Container where
  name : String
  kind : ContainerKind := .contract
  parent : Option String := none
  comment : Option String := none
deriving DecidableEq, Repr

/-- A state variable. -/
structure Attribute where
  name : String
  type : String := ""
  modifier : Option String := none
  value : Option Value := none
  comment : Option String := none
  lineBreak : Bool := false
deriving DecidableEq, Repr

/-- A struct type, whose members are written like attributes. -/
structure Struct where
  name : String
  attributes : List Attribute := []
  comment : Option String := none
  lineBreak : Bool := false
deriving DecidableEq, Repr

structure Mapping where
  name : String
  keyType : String := ""
  valueType : String := ""
  modifier : Option String := none
  comment : Option String := none
  lineBreak : Bool := false
deriving DecidableEq, Repr

structure Param where
  name : String
  type : String := ""
deriving DecidableEq, Repr

/-- A function. Its body is copied between the braces and never read. -/
structure Function where
  name : String
  parameters : List Param := []
  returnType : Option String := none
  modifier : Option String := none
  body : String := ""
  comment : Option String := none
  lineBreak : Bool := false
deriving DecidableEq, Repr

def Struct.addAttributes (struct : Struct) (members : List Attribute) : Struct :=
  { struct with attributes := struct.attributes ++ members }

def Function.addParameters (function : Function) (params : List Param) : Function :=
  { function with parameters := function.parameters ++ params }

inductive Declaration where
  | container (record : Container)
  | attribute (record : Attribute)
  | struct (record : Struct)
  | mapping (record : Mapping)
  | function (record : Function)
deriving DecidableEq, Repr

namespace Declaration

def kind : Declaration → DeclarationKind
  | .container _ => .container
  | .attribute _ => .attribute
  | .struct _ => .struct
  | .mapping _ => .mapping
  | .function _ => .function

def name : Declaration → String
  | .container r => r.name
  | .attribute r => r.name
  | .struct r => r.name
  | .mapping r => r.name
  | .function r => r.name

def key (d : Declaration) : Key :=
  ⟨d.kind, d.name⟩

def comment : Declaration → Option String
  | .container r => r.comment
  | .attribute r => r.comment
  | .struct r => r.comment
  | .mapping r => r.comment
  | .function r => r.comment

def lineBreak : Declaration → Bool
  | .container _ => false
  | .attribute r => r.lineBreak
  | .struct r => r.lineBreak
  | .mapping r => r.lineBreak
  | .function r => r.lineBreak

def container? : Declaration → Option Container
  | .container r => some r
  | _ => none

def attribute? : Declaration → Option Attribute
  | .attribute r => some r
  | _ => none

def struct? : Declaration → Option Struct
  | .struct r => some r
  | _ => none

def mapping? : Declaration → Option Mapping
  | .mapping r => some r
  | _ => none

def function? : Declaration → Option Function
  | .function r => some r
  | _ => none

def isContainer (d : Declaration) : Bool :=
  d.kind = .container

end Declaration

end SoliditySource
