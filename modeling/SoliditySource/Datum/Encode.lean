import SoliditySource.Datum
import SoliditySource.Declaration

/-! Writing records as data: a map with every field of the record, where null stands for none. -/

namespace SoliditySource

open Datum

def Value.encode : Value → Datum
  | .boolean b => .boolean b
  | .integer n => .integer n.toInt
  | .text s => .string s
  | .literal s => .map [("literal", .string s)]

def ContainerKind.encode (kind : ContainerKind) : Datum :=
  .string kind.keyword

def Container.encode (c : Container) : Datum :=
  .map
    [("name", .string c.name), ("kind", c.kind.encode), ("parent", ofOption string c.parent),
      ("comment", ofOption string c.comment)]

def Attribute.encode (a : Attribute) : Datum :=
  .map
    [("name", .string a.name), ("type", .string a.type), ("modifier", ofOption string a.modifier),
      ("value", ofOption Value.encode a.value), ("comment", ofOption string a.comment),
      ("line_break", .boolean a.lineBreak)]

def Struct.encode (s : Struct) : Datum :=
  .map
    [("name", .string s.name), ("attributes", .sequence (s.attributes.map Attribute.encode)),
      ("comment", ofOption string s.comment), ("line_break", .boolean s.lineBreak)]

def Mapping.encode (m : Mapping) : Datum :=
  .map
    [("name", .string m.name), ("key_type", .string m.keyType),
      ("value_type", .string m.valueType), ("modifier", ofOption string m.modifier),
      ("comment", ofOption string m.comment), ("line_break", .boolean m.lineBreak)]

def Param.encode (p : Param) : Datum :=
  .map [("name", .string p.name), ("type", .string p.type)]

def Function.encode (f : Function) : Datum :=
  .map
    [("name", .string f.name), ("parameters", .sequence (f.parameters.map Param.encode)),
      ("return_type", ofOption string f.returnType), ("modifier", ofOption string f.modifier),
      ("body", .string f.body), ("comment", ofOption string f.comment),
      ("line_break", .boolean f.lineBreak)]

def Declaration.encode : Declaration → Datum
  | .container c => c.encode
  | .attribute a => a.encode
  | .struct s => s.encode
  | .mapping m => m.encode
  | .function f => f.encode

end SoliditySource
