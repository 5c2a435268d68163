import SoliditySource.Proofs.DatumForms

/-! What can be read as a record. A record is described by what is given under the keys of its fields.
A map is read exactly when it gives a name and every field takes what it gives, and nothing else in
it matters, not even to the reason why it cannot be read. -/
namespace SoliditySource

open Decoder Form
open Datum (SameItems SameUnder)

/-- The keys of the fields of a record, and what each field takes. -/
abbrev Grammar := List (String × (Datum → Prop))

namespace Grammar

def keys (grammar : Grammar) : List String :=
  grammar.map Prod.fst

/-- There is a name, and every field takes what is given. -/
structure Admits (grammar : Grammar) (given : Given) : Prop where
  named : (given "name").isSome = true
  fields : ∀ field ∈ grammar, ∀ d, given field.1 = some d → field.2 d

end Grammar

/-- The reader takes a map exactly when what the map gives is admitted, the record that it reads is
the one that is described by what the map gives, and it makes no difference between data that are
the same, also when it cannot read them. -/
structure Decoder.Follows (read : Decoder α) (admits : Given → Prop) (describes : Given → α → Prop)
    (same : Datum → Datum → Prop) : Prop where
  accepts : ∀ es, (∃ r, read (.map es) = .ok r) ↔ admits (.ofEntries es)
  gives : ∀ es r, read (.map es) = .ok r ↔ describes (.ofEntries es) r
  ignores : ∀ d e, same d e → read d = read e

theorem Decoder.follows_record {type : String} {fields keys : List String} {surplus : Surplus}
    {ofEntries : List (String × Datum) → Except Mismatch α}
    {ofItems : List Datum → Except Mismatch α} {admits : Given → Prop}
    {describes : Given → α → Prop} {same : Datum → Datum → Prop}
    (hgives : ∀ es r, ofEntries es = .ok r ↔ describes (.ofEntries es) r)
    (hadmits : ∀ given, (∃ r, describes given r) ↔ admits given)
    (hcongr : ∀ ds es, (∀ key ∈ keys, Option.Rel same (ds.lookup key) (es.lookup key)) →
      ofEntries ds = ofEntries es) :
    Follows (record type fields surplus ofEntries ofItems) admits describes
      (SameUnder keys same) where
  accepts es := (exists_congr (hgives es)).trans (hadmits _)
  gives := hgives
  ignores := by
    rintro d e (_ | known)
    · rfl
    · exact hcongr _ _ known

/-! Records. -/

namespace Container

/-- The parent has two keys. -/
def grammar : Grammar :=
  [("name", Admits Text), ("kind", Admits Keyword), ("parent", Admits (Optional Text)),
    ("is", Admits (Optional Text)), ("comment", Admits (Optional Text))]

/-- The parent is given under one key at most. -/
structure Admissible (given : Given) : Prop extends grammar.Admits given where
  single : given "is" = none ∨ given "parent" = none

@[mk_iff]
structure Describes (given : Given) (c : Container) : Prop where
  name : given "name" = some (.string c.name)
  kind : Holds Keyword .contract (given "kind") c.kind
  single : given "is" = none ∨ given "parent" = none
  parent : Holds (Optional Text) none ((given "is").or (given "parent")) c.parent
  comment : Holds (Optional Text) none (given "comment") c.comment

/-- The parent is read under `is`, or else under `parent`. -/
theorem parent_eq_ok_iff (es : List (String × Datum)) (parent : Option String) :
    (∃ is, field? es "is" (optional string) = .ok is ∧
      field es "parent"
        (fun d => if is.isSome then .error (.repeatedField "parent") else optional string d)
        (is.getD none) = .ok parent) ↔
      (es.lookup "is" = none ∨ es.lookup "parent" = none) ∧
        Holds (Optional Text) none ((es.lookup "is").or (es.lookup "parent")) parent := by
  cases his : es.lookup "is" with
  | none =>
    have hnone : field? es "is" (optional string) = .ok none := by rw [field?, his]
    simp only [hnone, Except.ok.injEq, exists_eq_left', Option.isSome_none, Bool.false_eq_true,
      if_false, Option.getD_none, field_eq_ok_iff takes_optionalString, Option.none_or, true_or,
      true_and]
  | some d =>
    have hsome : field? es "is" (optional string) = (optional string d).map some := by
      rw [field?, his]
    simp only [hsome, map_eq_ok_iff, reduceCtorEq, false_or, Option.some_or]
    constructor
    · rintro ⟨-, ⟨given, hgiven, rfl⟩, hparent⟩
      -- Once `is` has been read, whatever stands under `parent` is refused.
      cases hp : es.lookup "parent" with
      | none =>
        obtain rfl : given = parent := by simpa [field, field?, hp, Except.map] using hparent
        exact ⟨rfl, .present ((takes_optionalString d given).mp hgiven)⟩
      | some e => simp [field, field?, hp, Except.map] at hparent
    · rintro ⟨hp, _ | stands⟩
      refine ⟨_, ⟨parent, (takes_optionalString d parent).mpr stands, rfl⟩, ?_⟩
      simp [field, field?, hp, Except.map]

theorem ofEntries_eq_ok_iff (es : List (String × Datum)) (c : Container) :
    ofEntries es = .ok c ↔ Describes (.ofEntries es) c := by
  simp only [ofEntries, bind_eq_ok_iff, required_eq_ok_iff,
    field_eq_ok_iff ContainerKind.takes_decode]
  constructor
  · rintro ⟨comment, hcomment, is, his, kind, hkind, name, hname, parent, hparent, _, rfl, ⟨⟩⟩
    obtain ⟨hsingle, hparent⟩ := (parent_eq_ok_iff es parent).mp ⟨is, his, hparent⟩
    exact ⟨field?_eq_ok_some_iff.mp hname, hkind, hsingle, hparent,
      (field_eq_ok_iff takes_optionalString ..).mp hcomment⟩
  · rintro ⟨hname, hkind, hsingle, hparent, hcomment⟩
    obtain ⟨is, his, hparent⟩ := (parent_eq_ok_iff es c.parent).mpr ⟨hsingle, hparent⟩
    exact ⟨_, (field_eq_ok_iff takes_optionalString ..).mpr hcomment, is, his, _, hkind, _,
      field?_eq_ok_some_iff.mpr hname, _, hparent, _, rfl, rfl⟩

theorem exists_describes_iff (given : Given) : (∃ c, Describes given c) ↔ Admissible given := by
  constructor
  · rintro ⟨c, h⟩
    refine ⟨⟨by rw [h.name]; rfl, ?_⟩, h.single⟩
    have hparent := h.parent.admits
    simp only [grammar, List.forall_mem_cons]
    refine ⟨admits_text h.name, h.kind.admits, fun d hd => ?_, fun d hd => ?_, h.comment.admits,
      List.forall_mem_nil _⟩
    · rcases h.single with his | hnone
      · exact hparent d (by rw [his, Option.none_or, hd])
      · rw [hnone] at hd
        cases hd
    · exact hparent d (by rw [hd, Option.some_or])
  · rintro ⟨⟨hnamed, hfields⟩, hsingle⟩
    simp only [grammar, List.forall_mem_cons] at hfields
    obtain ⟨hname, hkind, hparent, his, hcomment, -⟩ := hfields
    have heither : ∀ d, (given "is").or (given "parent") = some d → Admits (Optional Text) d := by
      intro d hd
      rcases Option.or_eq_some_iff.mp hd with hd | ⟨-, hd⟩
      · exact his d hd
      · exact hparent d hd
    obtain ⟨name, hname⟩ := exists_text hnamed hname
    obtain ⟨kind, hkind⟩ := exists_holds .contract hkind
    obtain ⟨parent, hparent⟩ := exists_holds none heither
    obtain ⟨comment, hcomment⟩ := exists_holds none hcomment
    exact ⟨⟨name, kind, parent, comment⟩, hname, hkind, hsingle, hparent, hcomment⟩

theorem ofEntries_congr (ds es : List (String × Datum))
    (h : ∀ key ∈ grammar.keys, Option.Rel Eq (ds.lookup key) (es.lookup key)) :
    ofEntries ds = ofEntries es := by
  have hcomment := field_congr (respects_eq (optional string)) (h "comment" (by decide)) none
  have his := field?_congr (respects_eq (optional string)) (h "is" (by decide))
  have hkind := field_congr (respects_eq ContainerKind.decode) (h "kind" (by decide)) .contract
  have hname := field?_congr (respects_eq string) (h "name" (by decide))
  simp only [ofEntries, hcomment, his, hkind, hname,
    field_congr (respects_eq _) (h "parent" (by decide))]

theorem follows : Follows decode Admissible Describes (SameUnder grammar.keys Eq) :=
  follows_record ofEntries_eq_ok_iff exists_describes_iff ofEntries_congr

end Container

namespace Attribute

def grammar : Grammar :=
  [("name", Admits Text), ("type", Admits Text), ("modifier", Admits (Optional Text)),
    ("value", Admits (Optional Initial)), ("comment", Admits (Optional Text)),
    ("line_break", Admits Flag)]

@[mk_iff]
structure Describes (given : Given) (a : Attribute) : Prop where
  name : given "name" = some (.string a.name)
  type : Holds Text "" (given "type") a.type
  modifier : Holds (Optional Text) none (given "modifier") a.modifier
  value : Holds (Optional Initial) none (given "value") a.value
  comment : Holds (Optional Text) none (given "comment") a.comment
  lineBreak : Holds Flag false (given "line_break") a.lineBreak

theorem ofEntries_eq_ok_iff (es : List (String × Datum)) (a : Attribute) :
    ofEntries es = .ok a ↔ Describes (.ofEntries es) a := by
  rcases a with ⟨name, type, modifier, value, comment, lineBreak⟩
  -- Reading succeeds if all reads do. They come in the order of the keys, and the description in
  -- the order of the fields.
  simp only [ofEntries, bind_eq_ok_iff, required_eq_ok_iff, field_eq_ok_iff takes_string,
    field_eq_ok_iff takes_optionalString, field_eq_ok_iff takes_boolean,
    field_eq_ok_iff Value.takes_optional, describes_iff, pure, Except.pure, Except.ok.injEq,
    Attribute.mk.injEq, ← field?_eq_ok_some_iff]
  grind

theorem exists_describes_iff (given : Given) :
    (∃ a, Describes given a) ↔ grammar.Admits given := by
  constructor
  · rintro ⟨a, h⟩
    refine ⟨by rw [h.name]; rfl, ?_⟩
    simp only [grammar, List.forall_mem_cons]
    exact ⟨admits_text h.name, h.type.admits, h.modifier.admits, h.value.admits, h.comment.admits,
      h.lineBreak.admits, List.forall_mem_nil _⟩
  · rintro ⟨hnamed, hfields⟩
    simp only [grammar, List.forall_mem_cons] at hfields
    obtain ⟨hname, htype, hmodifier, hvalue, hcomment, hlineBreak, -⟩ := hfields
    obtain ⟨name, hname⟩ := exists_text hnamed hname
    obtain ⟨type, htype⟩ := exists_holds "" htype
    obtain ⟨modifier, hmodifier⟩ := exists_holds none hmodifier
    obtain ⟨value, hvalue⟩ := exists_holds none hvalue
    obtain ⟨comment, hcomment⟩ := exists_holds none hcomment
    obtain ⟨lineBreak, hlineBreak⟩ := exists_holds false hlineBreak
    exact ⟨⟨name, type, modifier, value, comment, lineBreak⟩, hname, htype, hmodifier, hvalue,
      hcomment, hlineBreak⟩

theorem ofEntries_congr (ds es : List (String × Datum))
    (h : ∀ key ∈ grammar.keys, Option.Rel Eq (ds.lookup key) (es.lookup key)) :
    ofEntries ds = ofEntries es := by
  have hcomment := field_congr (respects_eq (optional string)) (h "comment" (by decide)) none
  have hlineBreak := field_congr (respects_eq boolean) (h "line_break" (by decide)) false
  have hmodifier := field_congr (respects_eq (optional string)) (h "modifier" (by decide)) none
  have hname := field?_congr (respects_eq string) (h "name" (by decide))
  have htype := field_congr (respects_eq string) (h "type" (by decide)) ""
  have hvalue := field_congr (respects_eq (optional Value.decode)) (h "value" (by decide)) none
  simp only [ofEntries, hcomment, hlineBreak, hmodifier, hname, htype, hvalue]

theorem follows : Follows decode grammar.Admits Describes (SameUnder grammar.keys Eq) :=
  follows_record ofEntries_eq_ok_iff exists_describes_iff ofEntries_congr

end Attribute

namespace Struct

def grammar : Grammar :=
  [("name", Admits Text), ("attributes", Admits (Each (ReadBy Attribute.decode))),
    ("comment", Admits (Optional Text)), ("line_break", Admits Flag)]

@[mk_iff]
structure Describes (given : Given) (s : Struct) : Prop where
  name : given "name" = some (.string s.name)
  attributes : Holds (Each (ReadBy Attribute.decode)) [] (given "attributes") s.attributes
  comment : Holds (Optional Text) none (given "comment") s.comment
  lineBreak : Holds Flag false (given "line_break") s.lineBreak

theorem ofEntries_eq_ok_iff (es : List (String × Datum)) (s : Struct) :
    ofEntries es = .ok s ↔ Describes (.ofEntries es) s := by
  rcases s with ⟨name, attributes, comment, lineBreak⟩
  simp only [ofEntries, bind_eq_ok_iff, required_eq_ok_iff,
    field_eq_ok_iff (takes_list (takes_readBy Attribute.decode)),
    field_eq_ok_iff takes_optionalString, field_eq_ok_iff takes_boolean, describes_iff, pure,
    Except.pure, Except.ok.injEq, Struct.mk.injEq, ← field?_eq_ok_some_iff]
  grind

theorem exists_describes_iff (given : Given) :
    (∃ s, Describes given s) ↔ grammar.Admits given := by
  constructor
  · rintro ⟨s, h⟩
    refine ⟨by rw [h.name]; rfl, ?_⟩
    simp only [grammar, List.forall_mem_cons]
    exact ⟨admits_text h.name, h.attributes.admits, h.comment.admits, h.lineBreak.admits,
      List.forall_mem_nil _⟩
  · rintro ⟨hnamed, hfields⟩
    simp only [grammar, List.forall_mem_cons] at hfields
    obtain ⟨hname, hattributes, hcomment, hlineBreak, -⟩ := hfields
    obtain ⟨name, hname⟩ := exists_text hnamed hname
    obtain ⟨attributes, hattributes⟩ := exists_holds [] hattributes
    obtain ⟨comment, hcomment⟩ := exists_holds none hcomment
    obtain ⟨lineBreak, hlineBreak⟩ := exists_holds false hlineBreak
    exact ⟨⟨name, attributes, comment, lineBreak⟩, hname, hattributes, hcomment, hlineBreak⟩

/-- The members may differ where they have no field. -/
abbrev SameFields : Datum → Datum → Prop :=
  SameItems (SameUnder Attribute.grammar.keys Eq)

theorem ofEntries_congr (ds es : List (String × Datum))
    (h : ∀ key ∈ grammar.keys, Option.Rel SameFields (ds.lookup key) (es.lookup key)) :
    ofEntries ds = ofEntries es := by
  have hattributes := field_congr (respects_list Attribute.follows.ignores)
    (h "attributes" (by decide)) []
  have hcomment := field_congr respects_optionalString (h "comment" (by decide)) none
  have hlineBreak := field_congr respects_boolean (h "line_break" (by decide)) false
  have hname := field?_congr respects_string (h "name" (by decide))
  simp only [ofEntries, hattributes, hcomment, hlineBreak, hname]

theorem follows : Follows decode grammar.Admits Describes (SameUnder grammar.keys SameFields) :=
  follows_record ofEntries_eq_ok_iff exists_describes_iff ofEntries_congr

end Struct

namespace Mapping

def grammar : Grammar :=
  [("name", Admits Text), ("key_type", Admits Text), ("value_type", Admits Text),
    ("modifier", Admits (Optional Text)), ("comment", Admits (Optional Text)),
    ("line_break", Admits Flag)]

@[mk_iff]
structure Describes (given : Given) (m : Mapping) : Prop where
  name : given "name" = some (.string m.name)
  keyType : Holds Text "" (given "key_type") m.keyType
  valueType : Holds Text "" (given "value_type") m.valueType
  modifier : Holds (Optional Text) none (given "modifier") m.modifier
  comment : Holds (Optional Text) none (given "comment") m.comment
  lineBreak : Holds Flag false (given "line_break") m.lineBreak

theorem ofEntries_eq_ok_iff (es : List (String × Datum)) (m : Mapping) :
    ofEntries es = .ok m ↔ Describes (.ofEntries es) m := by
  rcases m with ⟨name, keyType, valueType, modifier, comment, lineBreak⟩
  simp only [ofEntries, bind_eq_ok_iff, required_eq_ok_iff, field_eq_ok_iff takes_string,
    field_eq_ok_iff takes_optionalString, field_eq_ok_iff takes_boolean, describes_iff, pure,
    Except.pure, Except.ok.injEq, Mapping.mk.injEq, ← field?_eq_ok_some_iff]
  grind

theorem exists_describes_iff (given : Given) :
    (∃ m, Describes given m) ↔ grammar.Admits given := by
  constructor
  · rintro ⟨m, h⟩
    refine ⟨by rw [h.name]; rfl, ?_⟩
    simp only [grammar, List.forall_mem_cons]
    exact ⟨admits_text h.name, h.keyType.admits, h.valueType.admits, h.modifier.admits,
      h.comment.admits, h.lineBreak.admits, List.forall_mem_nil _⟩
  · rintro ⟨hnamed, hfields⟩
    simp only [grammar, List.forall_mem_cons] at hfields
    obtain ⟨hname, hkeyType, hvalueType, hmodifier, hcomment, hlineBreak, -⟩ := hfields
    obtain ⟨name, hname⟩ := exists_text hnamed hname
    obtain ⟨keyType, hkeyType⟩ := exists_holds "" hkeyType
    obtain ⟨valueType, hvalueType⟩ := exists_holds "" hvalueType
    obtain ⟨modifier, hmodifier⟩ := exists_holds none hmodifier
    obtain ⟨comment, hcomment⟩ := exists_holds none hcomment
    obtain ⟨lineBreak, hlineBreak⟩ := exists_holds false hlineBreak
    exact ⟨⟨name, keyType, valueType, modifier, comment, lineBreak⟩, hname, hkeyType, hvalueType,
      hmodifier, hcomment, hlineBreak⟩

theorem ofEntries_congr (ds es : List (String × Datum))
    (h : ∀ key ∈ grammar.keys, Option.Rel Eq (ds.lookup key) (es.lookup key)) :
    ofEntries ds = ofEntries es := by
  have hcomment := field_congr (respects_eq (optional string)) (h "comment" (by decide)) none
  have hkeyType := field_congr (respects_eq string) (h "key_type" (by decide)) ""
  have hlineBreak := field_congr (respects_eq boolean) (h "line_break" (by decide)) false
  have hmodifier := field_congr (respects_eq (optional string)) (h "modifier" (by decide)) none
  have hname := field?_congr (respects_eq string) (h "name" (by decide))
  have hvalueType := field_congr (respects_eq string) (h "value_type" (by decide)) ""
  simp only [ofEntries, hcomment, hkeyType, hlineBreak, hmodifier, hname, hvalueType]

theorem follows : Follows decode grammar.Admits Describes (SameUnder grammar.keys Eq) :=
  follows_record ofEntries_eq_ok_iff exists_describes_iff ofEntries_congr

end Mapping

namespace Param

def grammar : Grammar :=
  [("name", Admits Text), ("type", Admits Text)]

@[mk_iff]
structure Describes (given : Given) (p : Param) : Prop where
  name : given "name" = some (.string p.name)
  type : Holds Text "" (given "type") p.type

theorem ofEntries_eq_ok_iff (es : List (String × Datum)) (p : Param) :
    ofEntries es = .ok p ↔ Describes (.ofEntries es) p := by
  rcases p with ⟨name, type⟩
  simp only [ofEntries, bind_eq_ok_iff, required_eq_ok_iff, field_eq_ok_iff takes_string,
    describes_iff, pure, Except.pure, Except.ok.injEq, Param.mk.injEq, ← field?_eq_ok_some_iff]
  grind

theorem exists_describes_iff (given : Given) :
    (∃ p, Describes given p) ↔ grammar.Admits given := by
  constructor
  · rintro ⟨p, h⟩
    refine ⟨by rw [h.name]; rfl, ?_⟩
    simp only [grammar, List.forall_mem_cons]
    exact ⟨admits_text h.name, h.type.admits, List.forall_mem_nil _⟩
  · rintro ⟨hnamed, hfields⟩
    simp only [grammar, List.forall_mem_cons] at hfields
    obtain ⟨hname, htype, -⟩ := hfields
    obtain ⟨name, hname⟩ := exists_text hnamed hname
    obtain ⟨type, htype⟩ := exists_holds "" htype
    exact ⟨⟨name, type⟩, hname, htype⟩

theorem ofEntries_congr (ds es : List (String × Datum))
    (h : ∀ key ∈ grammar.keys, Option.Rel Eq (ds.lookup key) (es.lookup key)) :
    ofEntries ds = ofEntries es := by
  have hname := field?_congr (respects_eq string) (h "name" (by decide))
  have htype := field_congr (respects_eq string) (h "type" (by decide)) ""
  simp only [ofEntries, hname, htype]

theorem follows : Follows decode grammar.Admits Describes (SameUnder grammar.keys Eq) :=
  follows_record ofEntries_eq_ok_iff exists_describes_iff ofEntries_congr

end Param

namespace Function

def grammar : Grammar :=
  [("name", Admits Text), ("parameters", Admits (Each (ReadBy Param.decode))),
    ("return_type", Admits (Optional Text)), ("modifier", Admits (Optional Text)),
    ("body", Admits Text), ("comment", Admits (Optional Text)), ("line_break", Admits Flag)]

@[mk_iff]
structure Describes (given : Given) (f : Function) : Prop where
  name : given "name" = some (.string f.name)
  parameters : Holds (Each (ReadBy Param.decode)) [] (given "parameters") f.parameters
  returnType : Holds (Optional Text) none (given "return_type") f.returnType
  modifier : Holds (Optional Text) none (given "modifier") f.modifier
  body : Holds Text "" (given "body") f.body
  comment : Holds (Optional Text) none (given "comment") f.comment
  lineBreak : Holds Flag false (given "line_break") f.lineBreak

theorem ofEntries_eq_ok_iff (es : List (String × Datum)) (f : Function) :
    ofEntries es = .ok f ↔ Describes (.ofEntries es) f := by
  rcases f with ⟨name, parameters, returnType, modifier, body, comment, lineBreak⟩
  simp only [ofEntries, bind_eq_ok_iff, required_eq_ok_iff,
    field_eq_ok_iff (takes_list (takes_readBy Param.decode)), field_eq_ok_iff takes_string,
    field_eq_ok_iff takes_optionalString, field_eq_ok_iff takes_boolean, describes_iff, pure,
    Except.pure, Except.ok.injEq, Function.mk.injEq, ← field?_eq_ok_some_iff]
  grind

theorem exists_describes_iff (given : Given) :
    (∃ f, Describes given f) ↔ grammar.Admits given := by
  constructor
  · rintro ⟨f, h⟩
    refine ⟨by rw [h.name]; rfl, ?_⟩
    simp only [grammar, List.forall_mem_cons]
    exact ⟨admits_text h.name, h.parameters.admits, h.returnType.admits, h.modifier.admits,
      h.body.admits, h.comment.admits, h.lineBreak.admits, List.forall_mem_nil _⟩
  · rintro ⟨hnamed, hfields⟩
    simp only [grammar, List.forall_mem_cons] at hfields
    obtain ⟨hname, hparameters, hreturnType, hmodifier, hbody, hcomment, hlineBreak, -⟩ := hfields
    obtain ⟨name, hname⟩ := exists_text hnamed hname
    obtain ⟨parameters, hparameters⟩ := exists_holds [] hparameters
    obtain ⟨returnType, hreturnType⟩ := exists_holds none hreturnType
    obtain ⟨modifier, hmodifier⟩ := exists_holds none hmodifier
    obtain ⟨body, hbody⟩ := exists_holds "" hbody
    obtain ⟨comment, hcomment⟩ := exists_holds none hcomment
    obtain ⟨lineBreak, hlineBreak⟩ := exists_holds false hlineBreak
    exact ⟨⟨name, parameters, returnType, modifier, body, comment, lineBreak⟩, hname, hparameters,
      hreturnType, hmodifier, hbody, hcomment, hlineBreak⟩

/-- The parameters may differ where they have no field. -/
abbrev SameFields : Datum → Datum → Prop :=
  SameItems (SameUnder Param.grammar.keys Eq)

theorem ofEntries_congr (ds es : List (String × Datum))
    (h : ∀ key ∈ grammar.keys, Option.Rel SameFields (ds.lookup key) (es.lookup key)) :
    ofEntries ds = ofEntries es := by
  have hbody := field_congr respects_string (h "body" (by decide)) ""
  have hcomment := field_congr respects_optionalString (h "comment" (by decide)) none
  have hlineBreak := field_congr respects_boolean (h "line_break" (by decide)) false
  have hmodifier := field_congr respects_optionalString (h "modifier" (by decide)) none
  have hname := field?_congr respects_string (h "name" (by decide))
  have hparameters := field_congr (respects_list Param.follows.ignores)
    (h "parameters" (by decide)) []
  have hreturnType := field_congr respects_optionalString (h "return_type" (by decide)) none
  simp only [ofEntries, hbody, hcomment, hlineBreak, hmodifier, hname, hparameters, hreturnType]

theorem follows : Follows decode grammar.Admits Describes (SameUnder grammar.keys SameFields) :=
  follows_record ofEntries_eq_ok_iff exists_describes_iff ofEntries_congr

end Function

/-- Every record is read from a map exactly when a name is given and each field takes what is given
for it, the parent of a container under one of its two keys only; the record then has in each field
what was given or the default. Entries under other keys make no difference, in the map as well as in
its members and parameters, neither to the record nor to the reason why there is none. -/
theorem decode_follows_grammar :
    Follows Container.decode Container.Admissible Container.Describes
        (SameUnder Container.grammar.keys Eq) ∧
      Follows Attribute.decode Attribute.grammar.Admits Attribute.Describes
        (SameUnder Attribute.grammar.keys Eq) ∧
      Follows Struct.decode Struct.grammar.Admits Struct.Describes
        (SameUnder Struct.grammar.keys (SameItems (SameUnder Attribute.grammar.keys Eq))) ∧
      Follows Mapping.decode Mapping.grammar.Admits Mapping.Describes
        (SameUnder Mapping.grammar.keys Eq) ∧
      Follows Function.decode Function.grammar.Admits Function.Describes
        (SameUnder Function.grammar.keys (SameItems (SameUnder Param.grammar.keys Eq))) ∧
      Follows Param.decode Param.grammar.Admits Param.Describes
        (SameUnder Param.grammar.keys Eq) :=
  ⟨Container.follows, Attribute.follows, Struct.follows, Mapping.follows, Function.follows,
    Param.follows⟩

/-- The kind of a container need not be a word. -/
theorem decode_taggedKind :
    (∃ c, Container.decode
      (.map [("kind", .map [("library", .null)]), ("name", .string "A")]) = .ok c) ∧
      ∀ kind : ContainerKind, Datum.map [("library", .null)] ≠ .string kind.keyword :=
  ⟨⟨⟨"A", .library, none, none⟩, rfl⟩, by rintro _ ⟨⟩⟩

end SoliditySource
