import SoliditySource.Declaration

/-! Partial updates of declarations. A setting gives one field a new value, and a patch holds at
most one setting for each field. For an optional field the new value may be none, which clears it
and differs from not mentioning the field. No patch changes a name. -/

namespace SoliditySource

inductive ContainerSetting where
  | kind (kind : ContainerKind)
  | parent (parent : Option String)
  | comment (comment : Option String)
deriving DecidableEq, Repr

structure ContainerPatch where
  kind : Option ContainerKind := none
  parent : Option (Option String) := none
  comment : Option (Option String) := none
deriving DecidableEq, Repr

def ContainerSetting.apply : ContainerSetting → Container → Container
  | kind k, c => { c with kind := k }
  | parent p, c => { c with parent := p }
  | comment s, c => { c with comment := s }

namespace ContainerPatch

/-- A later setting of a field takes the place of an earlier one. -/
def set (patch : ContainerPatch) : ContainerSetting → ContainerPatch
  | .kind k => { patch with kind := some k }
  | .parent p => { patch with parent := some p }
  | .comment s => { patch with comment := some s }

def ofSettings (settings : List ContainerSetting) : ContainerPatch :=
  settings.foldl set {}

def apply (patch : ContainerPatch) (c : Container) : Container :=
  { c with
    kind := patch.kind.getD c.kind
    parent := patch.parent.getD c.parent
    comment := patch.comment.getD c.comment }

end ContainerPatch

inductive AttributeSetting where
  | type (type : String)
  | modifier (modifier : Option String)
  | value (value : Option Value)
  | comment (comment : Option String)
  | lineBreak (lineBreak : Bool)
deriving DecidableEq, Repr

structure AttributePatch where
  type : Option String := none
  modifier : Option (Option String) := none
  value : Option (Option Value) := none
  comment : Option (Option String) := none
  lineBreak : Option Bool := none
deriving DecidableEq, Repr

def AttributeSetting.apply : AttributeSetting → Attribute → Attribute
  | type t, a => { a with type := t }
  | modifier m, a => { a with modifier := m }
  | value v, a => { a with value := v }
  | comment s, a => { a with comment := s }
  | lineBreak b, a => { a with lineBreak := b }

namespace AttributePatch

def set (patch : AttributePatch) : AttributeSetting → AttributePatch
  | .type t => { patch with type := some t }
  | .modifier m => { patch with modifier := some m }
  | .value v => { patch with value := some v }
  | .comment s => { patch with comment := some s }
  | .lineBreak b => { patch with lineBreak := some b }

def ofSettings (settings : List AttributeSetting) : AttributePatch :=
  settings.foldl set {}

def apply (patch : AttributePatch) (a : Attribute) : Attribute :=
  { a with
    type := patch.type.getD a.type
    modifier := patch.modifier.getD a.modifier
    value := patch.value.getD a.value
    comment := patch.comment.getD a.comment
    lineBreak := patch.lineBreak.getD a.lineBreak }

end AttributePatch

/-- The members of a struct are set as a whole. -/
inductive StructSetting where
  | attributes (attributes : List Attribute)
  | comment (comment : Option String)
  | lineBreak (lineBreak : Bool)
deriving DecidableEq, Repr

structure StructPatch where
  attributes : Option (List Attribute) := none
  comment : Option (Option String) := none
  lineBreak : Option Bool := none
deriving DecidableEq, Repr

def StructSetting.apply : StructSetting → Struct → Struct
  | attributes as, s => { s with attributes := as }
  | comment t, s => { s with comment := t }
  | lineBreak b, s => { s with lineBreak := b }

namespace StructPatch

def set (patch : StructPatch) : StructSetting → StructPatch
  | .attributes as => { patch with attributes := some as }
  | .comment t => { patch with comment := some t }
  | .lineBreak b => { patch with lineBreak := some b }

def ofSettings (settings : List StructSetting) : StructPatch :=
  settings.foldl set {}

def apply (patch : StructPatch) (s : Struct) : Struct :=
  { s with
    attributes := patch.attributes.getD s.attributes
    comment := patch.comment.getD s.comment
    lineBreak := patch.lineBreak.getD s.lineBreak }

end StructPatch

inductive MappingSetting where
  | keyType (type : String)
  | valueType (type : String)
  | modifier (modifier : Option String)
  | comment (comment : Option String)
  | lineBreak (lineBreak : Bool)
deriving DecidableEq, Repr

structure MappingPatch where
  keyType : Option String := none
  valueType : Option String := none
  modifier : Option (Option String) := none
  comment : Option (Option String) := none
  lineBreak : Option Bool := none
deriving DecidableEq, Repr

def MappingSetting.apply : MappingSetting → Mapping → Mapping
  | keyType t, m => { m with keyType := t }
  | valueType t, m => { m with valueType := t }
  | modifier s, m => { m with modifier := s }
  | comment s, m => { m with comment := s }
  | lineBreak b, m => { m with lineBreak := b }

namespace MappingPatch

def set (patch : MappingPatch) : MappingSetting → MappingPatch
  | .keyType t => { patch with keyType := some t }
  | .valueType t => { patch with valueType := some t }
  | .modifier s => { patch with modifier := some s }
  | .comment s => { patch with comment := some s }
  | .lineBreak b => { patch with lineBreak := some b }

def ofSettings (settings : List MappingSetting) : MappingPatch :=
  settings.foldl set {}

def apply (patch : MappingPatch) (m : Mapping) : Mapping :=
  { m with
    keyType := patch.keyType.getD m.keyType
    valueType := patch.valueType.getD m.valueType
    modifier := patch.modifier.getD m.modifier
    comment := patch.comment.getD m.comment
    lineBreak := patch.lineBreak.getD m.lineBreak }

end MappingPatch

/-- The parameters of a function are set as a whole. -/
inductive FunctionSetting where
  | parameters (parameters : List Param)
  | returnType (type : Option String)
  | modifier (modifier : Option String)
  | body (body : String)
  | comment (comment : Option String)
  | lineBreak (lineBreak : Bool)
deriving DecidableEq, Repr

structure FunctionPatch where
  parameters : Option (List Param) := none
  returnType : Option (Option String) := none
  modifier : Option (Option String) := none
  body : Option String := none
  comment : Option (Option String) := none
  lineBreak : Option Bool := none
deriving DecidableEq, Repr

def FunctionSetting.apply : FunctionSetting → Function → Function
  | parameters ps, f => { f with parameters := ps }
  | returnType t, f => { f with returnType := t }
  | modifier s, f => { f with modifier := s }
  | body s, f => { f with body := s }
  | comment s, f => { f with comment := s }
  | lineBreak b, f => { f with lineBreak := b }

namespace FunctionPatch

def set (patch : FunctionPatch) : FunctionSetting → FunctionPatch
  | .parameters ps => { patch with parameters := some ps }
  | .returnType t => { patch with returnType := some t }
  | .modifier s => { patch with modifier := some s }
  | .body s => { patch with body := some s }
  | .comment s => { patch with comment := some s }
  | .lineBreak b => { patch with lineBreak := some b }

def ofSettings (settings : List FunctionSetting) : FunctionPatch :=
  settings.foldl set {}

def apply (patch : FunctionPatch) (f : Function) : Function :=
  { f with
    parameters := patch.parameters.getD f.parameters
    returnType := patch.returnType.getD f.returnType
    modifier := patch.modifier.getD f.modifier
    body := patch.body.getD f.body
    comment := patch.comment.getD f.comment
    lineBreak := patch.lineBreak.getD f.lineBreak }

end FunctionPatch

/-- A patch for a declaration of some kind. -/
inductive Patch where
  | container (patch : ContainerPatch)
  | attribute (patch : AttributePatch)
  | struct (patch : StructPatch)
  | mapping (patch : MappingPatch)
  | function (patch : FunctionPatch)
deriving DecidableEq, Repr

namespace Patch

def kind : Patch → DeclarationKind
  | .container _ => .container
  | .attribute _ => .attribute
  | .struct _ => .struct
  | .mapping _ => .mapping
  | .function _ => .function

/-- There is no result when the patch is for another kind. -/
def applyTo : Patch → Declaration → Option Declaration
  | .container p, .container r => some (.container (p.apply r))
  | .attribute p, .attribute r => some (.attribute (p.apply r))
  | .struct p, .struct r => some (.struct (p.apply r))
  | .mapping p, .mapping r => some (.mapping (p.apply r))
  | .function p, .function r => some (.function (p.apply r))
  | _, _ => none

end Patch

end SoliditySource
