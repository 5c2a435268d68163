import Mathlib.Data.List.Forall2
import SoliditySource.Proofs.CodeLine

/-! What is empty is rendered as what is absent. Declarations that differ only in optional fields
that are empty on one side and absent on the other, and in the blanks of their comments, have the
same content, and rendering sees nothing but the content. -/
namespace SoliditySource

/-- An optional text, where none takes the place of the empty one. -/
def withoutEmpty (text : Option String) : Option String :=
  if text = some "" then none else text

/-- An optional value, where none takes the place of the empty text and the empty literal. -/
def Value.withoutEmpty (value : Option Value) : Option Value :=
  if value = some (.text "") ∨ value = some (.literal "") then none else value

/-- The words of a comment. A blank comment has no more of them than an absent one. -/
def Comment.words (comment : Option String) : List (List Char) :=
  comment.elim [] fun s => Text.words s.toList

/-! Declarations with the same content. -/

structure Container.SameContent (c e : Container) : Prop where
  name : c.name = e.name
  kind : c.kind = e.kind
  parent : withoutEmpty c.parent = withoutEmpty e.parent
  comment : Comment.words c.comment = Comment.words e.comment

structure Attribute.SameContent (a b : Attribute) : Prop where
  name : a.name = b.name
  type : a.type = b.type
  modifier : withoutEmpty a.modifier = withoutEmpty b.modifier
  value : Value.withoutEmpty a.value = Value.withoutEmpty b.value
  comment : Comment.words a.comment = Comment.words b.comment
  lineBreak : a.lineBreak = b.lineBreak

structure Struct.SameContent (s t : Struct) : Prop where
  name : s.name = t.name
  attributes : List.Forall₂ Attribute.SameContent s.attributes t.attributes
  comment : Comment.words s.comment = Comment.words t.comment
  lineBreak : s.lineBreak = t.lineBreak

structure Mapping.SameContent (m n : Mapping) : Prop where
  name : m.name = n.name
  keyType : m.keyType = n.keyType
  valueType : m.valueType = n.valueType
  modifier : withoutEmpty m.modifier = withoutEmpty n.modifier
  comment : Comment.words m.comment = Comment.words n.comment
  lineBreak : m.lineBreak = n.lineBreak

structure Function.SameContent (f g : Function) : Prop where
  name : f.name = g.name
  parameters : f.parameters = g.parameters
  returnType : withoutEmpty f.returnType = withoutEmpty g.returnType
  modifier : withoutEmpty f.modifier = withoutEmpty g.modifier
  body : f.body = g.body
  comment : Comment.words f.comment = Comment.words g.comment
  lineBreak : f.lineBreak = g.lineBreak

inductive Declaration.SameContent : Declaration → Declaration → Prop
  | container {c e : Container} (h : c.SameContent e) : SameContent (.container c) (.container e)
  | attribute {a b : Attribute} (h : a.SameContent b) : SameContent (.attribute a) (.attribute b)
  | struct {s t : Struct} (h : s.SameContent t) : SameContent (.struct s) (.struct t)
  | mapping {m n : Mapping} (h : m.SameContent n) : SameContent (.mapping m) (.mapping n)
  | function {f g : Function} (h : f.SameContent g) : SameContent (.function f) (.function g)

/-! What the renderer reads of an optional field. -/

theorem present_eq_withoutEmpty (text : Option String) : present text = withoutEmpty text := by
  cases text with
  | none => rfl
  | some s => by_cases h : s = "" <;> simp [present, withoutEmpty, h]

theorem Value.filter_eq_withoutEmpty (value : Option Value) :
    value.filter (!·.isEmpty) = withoutEmpty value := by
  cases value with
  | none => rfl
  | some v => cases v <;> simp [withoutEmpty, isEmpty, Option.filter]

theorem Comment.wrap_eq (comment : Option String) :
    wrap comment = (chunksFrom wordsPerLine [] (words comment)).map fun chunk =>
      .comment (String.ofList ([' '].intercalate chunk)) := by
  cases comment with
  | none => rfl
  | some s => rw [wrap, lines, List.map_map]; rfl

/-! Each record is rendered by its content. -/

theorem declarationFragments_congr {comment comment' : Option String} {body body' : List Fragment}
    {lineBreak lineBreak' : Bool} (hcomment : Comment.words comment = Comment.words comment')
    (hbody : body = body') (hbreak : lineBreak = lineBreak') :
    declarationFragments comment body lineBreak =
      declarationFragments comment' body' lineBreak' := by
  rw [declarationFragments, Comment.wrap_eq, hcomment, ← Comment.wrap_eq, hbody, hbreak]
  rfl

theorem Container.SameContent.fragments_eq {c e : Container} (h : c.SameContent e) :
    c.fragments = e.fragments := by
  have hheader : c.header = e.header := by
    rw [← String.toList_inj, toList_header, toList_header, present_eq_withoutEmpty,
      present_eq_withoutEmpty, h.kind, h.name, h.parent]
  exact declarationFragments_congr h.comment (by rw [hheader]) rfl

theorem Attribute.SameContent.fragments_eq {a b : Attribute} (h : a.SameContent b) :
    a.fragments = b.fragments := by
  have hline : a.line = b.line := by
    rw [← String.toList_inj, toList_line, toList_line, present_eq_withoutEmpty,
      present_eq_withoutEmpty, Value.filter_eq_withoutEmpty, Value.filter_eq_withoutEmpty, h.type,
      h.modifier, h.name, h.value]
  exact declarationFragments_congr h.comment (by rw [hline]) h.lineBreak

theorem flatMap_fragments_eq {as bs : List Attribute}
    (h : List.Forall₂ Attribute.SameContent as bs) :
    as.flatMap Attribute.fragments = bs.flatMap Attribute.fragments := by
  induction h with
  | nil => rfl
  | cons hmember _ ih => rw [List.flatMap_cons, List.flatMap_cons, hmember.fragments_eq, ih]

theorem Struct.SameContent.fragments_eq {s t : Struct} (h : s.SameContent t) :
    s.fragments = t.fragments := by
  have hheader : s.header = t.header := by
    rw [← String.toList_inj, toList_header, toList_header, h.name]
  rw [s.fragments_eq, t.fragments_eq]
  exact declarationFragments_congr h.comment
    (by rw [hheader, flatMap_fragments_eq h.attributes]) h.lineBreak

theorem Mapping.SameContent.fragments_eq {m n : Mapping} (h : m.SameContent n) :
    m.fragments = n.fragments := by
  have hline : m.line = n.line := by
    rw [← String.toList_inj, toList_line, toList_line, present_eq_withoutEmpty,
      present_eq_withoutEmpty, h.keyType, h.valueType, h.modifier, h.name]
  exact declarationFragments_congr h.comment (by rw [hline]) h.lineBreak

theorem Function.SameContent.fragments_eq {f g : Function} (h : f.SameContent g) :
    f.fragments = g.fragments := by
  have hline : f.line = g.line := by
    rw [← String.toList_inj, toList_line, toList_line, present_eq_withoutEmpty,
      present_eq_withoutEmpty, present_eq_withoutEmpty, present_eq_withoutEmpty, h.name,
      h.parameters, h.modifier, h.returnType, h.body]
  exact declarationFragments_congr h.comment (by rw [hline]) h.lineBreak

namespace Declaration

variable {d e : Declaration}

theorem SameContent.text_eq (h : d.SameContent e) : d.text = e.text := by
  refine congrArg Fragment.concat ?_
  rcases h with h | h | h | h | h <;> exact h.fragments_eq

theorem SameContent.key_eq (h : d.SameContent e) : d.key = e.key := by
  rcases h with h | h | h | h | h <;> exact congrArg (Key.mk _) h.name

theorem SameContent.isContainer_eq (h : d.SameContent e) : d.isContainer = e.isContainer := by
  have hkind : d.kind = e.kind := congrArg Key.kind h.key_eq
  rw [isContainer, hkind, isContainer]

end Declaration

theorem renderRest_congr {ds es : List Declaration}
    (h : List.Forall₂ Declaration.SameContent ds es) : renderRest ds = renderRest es := by
  induction h with
  | nil => rfl
  | cons hd _ ih => rw [renderRest, renderRest, hd.isContainer_eq, hd.text_eq, ih]

/-- Declarations with the same content have the same rendering: the same text, or the same error
about the first one. -/
theorem renderDeclarations_of_sameContent {ds es : List Declaration}
    (h : List.Forall₂ Declaration.SameContent ds es) :
    renderDeclarations ds = renderDeclarations es := by
  cases h with
  | nil => rfl
  | cons hd hrest =>
    rw [renderDeclarations, renderDeclarations, hd.isContainer_eq, hd.text_eq, hd.key_eq,
      renderRest_congr hrest]

/-- A struct with a member and a function, with everything absent that can be, or with empty fields
and spread comments. -/
def sparseVault (padded : Bool) : List Declaration :=
  let field := if padded then some "" else none
  [.container {
      name := "Vault", parent := field
      comment := some (if padded then "\n keeps\u2003all \t coins " else "keeps all coins") },
    .struct {
      name := "Entry", comment := if padded then some " \r\n" else none
      attributes := [{
        name := "note", type := "string", modifier := field
        value := if padded then some (.text "") else none }] },
    .attribute {
      name := "fee", type := "uint", value := if padded then some (.literal "") else none },
    .function { name := "pay", modifier := field, returnType := field, comment := field }]

theorem renderDeclarations_sparseVault :
    List.Forall₂ Declaration.SameContent (sparseVault true) (sparseVault false) ∧
      renderDeclarations (sparseVault true) = renderDeclarations (sparseVault false) := by
  have hsame : List.Forall₂ Declaration.SameContent (sparseVault true) (sparseVault false) :=
    .cons (.container ⟨rfl, rfl, rfl, by decide⟩) <|
    .cons (.struct ⟨rfl, .cons ⟨rfl, rfl, rfl, rfl, rfl, rfl⟩ .nil, by decide, rfl⟩) <|
    .cons (.attribute ⟨rfl, rfl, rfl, rfl, rfl, rfl⟩) <|
    .cons (.function ⟨rfl, rfl, rfl, rfl, rfl, rfl, rfl⟩) .nil
  exact ⟨hsame, renderDeclarations_of_sameContent hsame⟩

end SoliditySource
