import SoliditySource.Document
import SoliditySource.Text.Quoted

/-! The text that shows what a document holds, for people who look for a mistake. The formatter is
left out. -/

namespace SoliditySource

namespace Inspect

def record (type : String) (fields : List (String × String)) : String :=
  type ++ " \x7b " ++ ", ".intercalate (fields.map fun (name, value) => name ++ ": " ++ value) ++
    " \x7d"

def wrapped (constructor content : String) : String :=
  constructor ++ "(" ++ content ++ ")"

def optional (text : α → String) : Option α → String
  | none => "None"
  | some a => wrapped "Some" (text a)

def list (text : α → String) (items : List α) : String :=
  "[" ++ ", ".intercalate (items.map text) ++ "]"

def map (key : κ → String) (value : α → String) (entries : List (κ × α)) : String :=
  "\x7b" ++ ", ".intercalate (entries.map fun (k, a) => key k ++ ": " ++ value a) ++ "\x7d"

def string (s : String) : String :=
  Text.quoted s

def boolean (b : Bool) : String :=
  if b then "true" else "false"

end Inspect

open Inspect

def DeclarationKind.inspect : DeclarationKind → String
  | .container => "Container"
  | .attribute => "Attribute"
  | .struct => "Struct"
  | .mapping => "Mapping"
  | .function => "Function"

def ContainerKind.inspect : ContainerKind → String
  | .contract => "Contract"
  | .interface => "Interface"
  | .library => "Library"

def Key.inspect (key : Key) : String :=
  record "DeclarationKey" [("kind", key.kind.inspect), ("name", string key.name)]

def Value.inspect : Value → String
  | .boolean b => wrapped "Bool" (Inspect.boolean b)
  | .integer n => wrapped "Integer" (toString n.toInt)
  | .text s => wrapped "Text" (string s)
  | .literal s => record "Literal" [("literal", string s)]

def Container.inspect (c : Container) : String :=
  record "Container"
    [("name", string c.name), ("kind", c.kind.inspect), ("parent", optional string c.parent),
      ("comment", optional string c.comment)]

def Attribute.inspect (a : Attribute) : String :=
  record "Attribute"
    [("name", string a.name), ("ty", string a.type), ("modifier", optional string a.modifier),
      ("value", optional Value.inspect a.value), ("comment", optional string a.comment),
      ("line_break", Inspect.boolean a.lineBreak)]

def Struct.inspect (s : Struct) : String :=
  record "Struct"
    [("name", string s.name), ("attributes", list Attribute.inspect s.attributes),
      ("comment", optional string s.comment), ("line_break", Inspect.boolean s.lineBreak)]

def Mapping.inspect (m : Mapping) : String :=
  record "Mapping"
    [("name", string m.name), ("key_type", string m.keyType), ("value_type", string m.valueType),
      ("modifier", optional string m.modifier), ("comment", optional string m.comment),
      ("line_break", Inspect.boolean m.lineBreak)]

def Param.inspect (p : Param) : String :=
  record "Param" [("name", string p.name), ("ty", string p.type)]

def Function.inspect (f : Function) : String :=
  record "Function"
    [("name", string f.name), ("parameters", list Param.inspect f.parameters),
      ("return_type", optional string f.returnType), ("modifier", optional string f.modifier),
      ("body", string f.body), ("comment", optional string f.comment),
      ("line_break", Inspect.boolean f.lineBreak)]

def Declaration.inspect (d : Declaration) : String :=
  wrapped d.kind.inspect <|
    match d with
    | .container c => c.inspect
    | .attribute a => a.inspect
    | .struct s => s.inspect
    | .mapping m => m.inspect
    | .function f => f.inspect

def Rules.inspect (rules : Rules) : String :=
  record "Replacements" [("rules", map string string rules.toList)]

def Document.inspect (doc : Document) : String :=
  "Document \x7b declarations: " ++ map Key.inspect Declaration.inspect doc.declarations.entries ++
    ", replacements: " ++ doc.rules.inspect ++ ", .. \x7d"

end SoliditySource
