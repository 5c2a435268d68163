import SoliditySource.Proofs.DocumentKeys

/-! Patches field by field. A patch gives some of the fields of a declaration a new value and says
nothing of the others. What a run of calls builds, what a patch does to a declaration, and what two
patches do one after the other are all settled for each field on its own. -/
namespace SoliditySource

/-- The fields that a patch can set. -/
inductive PatchField where
  | kind
  | parent
  | type
  | modifier
  | value
  | attributes
  | keyType
  | valueType
  | parameters
  | returnType
  | body
  | comment
  | lineBreak
deriving DecidableEq, Repr

/-- What a field holds. An optional field that is cleared holds none. -/
abbrev PatchField.Content : PatchField → Type
  | kind => ContainerKind
  | parent => Option String
  | type => String
  | modifier => Option String
  | value => Option Value
  | attributes => List Attribute
  | keyType => String
  | valueType => String
  | parameters => List Param
  | returnType => Option String
  | body => String
  | comment => Option String
  | lineBreak => Bool

namespace Patch

/-- The new content of a field, if the patch mentions it. -/
def content? : Patch → (field : PatchField) → Option field.Content
  | .container p, .kind => p.kind
  | .container p, .parent => p.parent
  | .container p, .comment => p.comment
  | .attribute p, .type => p.type
  | .attribute p, .modifier => p.modifier
  | .attribute p, .value => p.value
  | .attribute p, .comment => p.comment
  | .attribute p, .lineBreak => p.lineBreak
  | .struct p, .attributes => p.attributes
  | .struct p, .comment => p.comment
  | .struct p, .lineBreak => p.lineBreak
  | .mapping p, .keyType => p.keyType
  | .mapping p, .valueType => p.valueType
  | .mapping p, .modifier => p.modifier
  | .mapping p, .comment => p.comment
  | .mapping p, .lineBreak => p.lineBreak
  | .function p, .parameters => p.parameters
  | .function p, .returnType => p.returnType
  | .function p, .modifier => p.modifier
  | .function p, .body => p.body
  | .function p, .comment => p.comment
  | .function p, .lineBreak => p.lineBreak
  | _, _ => none

/-- The patch of a kind that mentions what is given for the fields of that kind. -/
def ofFields (given : (field : PatchField) → Option field.Content) : DeclarationKind → Patch
  | .container => .container ⟨given .kind, given .parent, given .comment⟩
  | .attribute =>
    .attribute
      ⟨given .type, given .modifier, given .value, given .comment, given .lineBreak⟩
  | .struct => .struct ⟨given .attributes, given .comment, given .lineBreak⟩
  | .mapping =>
    .mapping
      ⟨given .keyType, given .valueType, given .modifier, given .comment, given .lineBreak⟩
  | .function =>
    .function
      ⟨given .parameters, given .returnType, given .modifier, given .body, given .comment,
        given .lineBreak⟩

/-- The patch that takes every field from the second patch if it is mentioned there, and else from
the first one. -/
def combine (p q : Patch) : Patch :=
  ofFields (fun field => (q.content? field).or (p.content? field)) p.kind

end Patch

/-- The patch that mentions every field of a declaration with the content it has. -/
def Declaration.wholePatch : Declaration → Patch
  | .container c => .container ⟨some c.kind, some c.parent, some c.comment⟩
  | .attribute a =>
    .attribute
      ⟨some a.type, some a.modifier, some a.value, some a.comment, some a.lineBreak⟩
  | .struct s => .struct ⟨some s.attributes, some s.comment, some s.lineBreak⟩
  | .mapping m =>
    .mapping
      ⟨some m.keyType, some m.valueType, some m.modifier, some m.comment, some m.lineBreak⟩
  | .function f =>
    .function
      ⟨some f.parameters, some f.returnType, some f.modifier, some f.body, some f.comment,
        some f.lineBreak⟩

/-- The content of a field, if declarations of the kind have that field. -/
def Declaration.content? (d : Declaration) (field : PatchField) : Option field.Content :=
  d.wholePatch.content? field

/-! Patches as they are built. -/

/-- The calls by which patches of a kind are built. -/
abbrev DeclarationKind.Setting : DeclarationKind → Type
  | .container => ContainerSetting
  | .attribute => AttributeSetting
  | .struct => StructSetting
  | .mapping => MappingSetting
  | .function => FunctionSetting

/-- What a call sets a field to, if it is about that field. -/
def DeclarationKind.setting? :
    (kind : DeclarationKind) → kind.Setting → (field : PatchField) → Option field.Content
  | .container, .kind k, .kind => some k
  | .container, .parent p, .parent => some p
  | .container, .comment s, .comment => some s
  | .attribute, .type t, .type => some t
  | .attribute, .modifier m, .modifier => some m
  | .attribute, .value v, .value => some v
  | .attribute, .comment s, .comment => some s
  | .attribute, .lineBreak b, .lineBreak => some b
  | .struct, .attributes as, .attributes => some as
  | .struct, .comment s, .comment => some s
  | .struct, .lineBreak b, .lineBreak => some b
  | .mapping, .keyType t, .keyType => some t
  | .mapping, .valueType t, .valueType => some t
  | .mapping, .modifier m, .modifier => some m
  | .mapping, .comment s, .comment => some s
  | .mapping, .lineBreak b, .lineBreak => some b
  | .function, .parameters ps, .parameters => some ps
  | .function, .returnType t, .returnType => some t
  | .function, .modifier m, .modifier => some m
  | .function, .body s, .body => some s
  | .function, .comment s, .comment => some s
  | .function, .lineBreak b, .lineBreak => some b
  | _, _, _ => none

/-- The patch that a run of calls builds. -/
def Patch.build : (kind : DeclarationKind) → List kind.Setting → Patch
  | .container, calls => .container (.ofSettings calls)
  | .attribute, calls => .attribute (.ofSettings calls)
  | .struct, calls => .struct (.ofSettings calls)
  | .mapping, calls => .mapping (.ofSettings calls)
  | .function, calls => .function (.ofSettings calls)

/-- Where each call overwrites what it gives, the last one that gives something is what is left. -/
theorem getLast?_of_foldl {σ π α : Type} (set : π → σ → π) (get : π → Option α)
    (gives : σ → Option α) (hset : ∀ p s, get (set p s) = (gives s).or (get p)) {new : π}
    (hnew : get new = none) (calls : List σ) :
    get (calls.foldl set new) = (calls.filterMap gives).getLast? := by
  induction calls using List.reverseRecOn with
  | nil => simpa using hnew
  | append_singleton calls s ih =>
    rw [List.foldl_append, List.foldl_cons, List.foldl_nil, hset, ih]
    cases hs : gives s <;> simp [hs, List.filterMap_append]

namespace Patch

variable {p q : Patch} {d : Declaration}

/-- Of the calls about a field, the last one stays. -/
theorem content?_build (kind : DeclarationKind) (calls : List kind.Setting) (field : PatchField) :
    (build kind calls).content? field = (calls.filterMap (kind.setting? · field)).getLast? := by
  rcases kind
  · exact getLast?_of_foldl ContainerPatch.set (fun p => (container p).content? field)
      (DeclarationKind.container.setting? · field) (fun p s => by cases s <;> cases field <;> rfl)
      (by cases field <;> rfl) calls
  · exact getLast?_of_foldl AttributePatch.set (fun p => (Patch.attribute p).content? field)
      (DeclarationKind.attribute.setting? · field) (fun p s => by cases s <;> cases field <;> rfl)
      (by cases field <;> rfl) calls
  · exact getLast?_of_foldl StructPatch.set (fun p => (struct p).content? field)
      (DeclarationKind.struct.setting? · field) (fun p s => by cases s <;> cases field <;> rfl)
      (by cases field <;> rfl) calls
  · exact getLast?_of_foldl MappingPatch.set (fun p => (mapping p).content? field)
      (DeclarationKind.mapping.setting? · field) (fun p s => by cases s <;> cases field <;> rfl)
      (by cases field <;> rfl) calls
  · exact getLast?_of_foldl FunctionPatch.set (fun p => (function p).content? field)
      (DeclarationKind.function.setting? · field) (fun p s => by cases s <;> cases field <;> rfl)
      (by cases field <;> rfl) calls

theorem kind_build (kind : DeclarationKind) (calls : List kind.Setting) :
    (build kind calls).kind = kind := by
  cases kind <;> rfl

theorem kind_combine (p q : Patch) : (p.combine q).kind = p.kind := by
  cases p <;> rfl

theorem content?_combine (h : q.kind = p.kind) (field : PatchField) :
    (p.combine q).content? field = (q.content? field).or (p.content? field) := by
  cases p <;> cases q <;> simp only [kind, reduceCtorEq] at h <;> cases field <;> rfl

/-- A patch is its kind and what it mentions. -/
theorem eq_of_content? (hkind : p.kind = q.kind)
    (h : ∀ field, p.content? field = q.content? field) : p = q := by
  have hfields : p.content? = q.content? := funext h
  have hself : ∀ r : Patch, ofFields r.content? r.kind = r := fun r => by cases r <;> rfl
  rw [← hself p, hfields, hkind, hself]

/-- The patched declaration has what the patch mentions, and else what it had. -/
theorem content?_of_applyTo {e : Declaration} (h : p.applyTo d = some e) (field : PatchField) :
    e.content? field = (p.content? field).or (d.content? field) := by
  cases p <;> cases d <;> simp only [applyTo, Option.some.injEq, reduceCtorEq] at h <;> subst h <;>
    cases field <;> simp [Declaration.content?, Declaration.wholePatch, content?,
      ContainerPatch.apply, AttributePatch.apply, StructPatch.apply, MappingPatch.apply,
      FunctionPatch.apply]

end Patch

theorem Declaration.kind_wholePatch (d : Declaration) : d.wholePatch.kind = d.kind := by
  cases d <;> rfl

/-- A declaration is its kind, its name and its fields. -/
theorem Declaration.eq_of_content? {d e : Declaration} (hkey : d.key = e.key)
    (h : ∀ field, d.content? field = e.content? field) : d = e := by
  have hkind : d.wholePatch.kind = e.wholePatch.kind := by
    rw [d.kind_wholePatch, e.kind_wholePatch]
    exact congrArg Key.kind hkey
  have hwhole : d.wholePatch = e.wholePatch := Patch.eq_of_content? hkind h
  have hname : d.name = e.name := congrArg Key.name hkey
  rcases d with ⟨⟨⟩⟩ | ⟨⟨⟩⟩ | ⟨⟨⟩⟩ | ⟨⟨⟩⟩ | ⟨⟨⟩⟩ <;>
    rcases e with ⟨⟨⟩⟩ | ⟨⟨⟩⟩ | ⟨⟨⟩⟩ | ⟨⟨⟩⟩ | ⟨⟨⟩⟩ <;> simp_all [wholePatch, name]

namespace Patch

variable {p q : Patch} {d : Declaration}

theorem exists_applyTo (h : d.kind = p.kind) : ∃ e, p.applyTo d = some e ∧ e.key = d.key := by
  obtain ⟨e, he⟩ := Option.isSome_iff_exists.mp ((p.applyTo_isSome_iff d).mpr h)
  exact ⟨e, he, key_of_applyTo he⟩

theorem applyTo_eq_none (h : d.kind ≠ p.kind) : p.applyTo d = none := by
  rw [← Option.not_isSome_iff_eq_none, p.applyTo_isSome_iff d]
  exact h

/-- Two patches of a kind applied one after the other give a declaration of the kind each field from
the second patch, the first one, or the declaration. -/
theorem exists_applyTo_applyTo (hq : q.kind = p.kind) (hd : d.kind = p.kind) :
    ∃ e, (p.applyTo d).bind q.applyTo = some e ∧ e.key = d.key ∧
      ∀ field, e.content? field =
        (q.content? field).or ((p.content? field).or (d.content? field)) := by
  obtain ⟨first, hfirst, hkey⟩ := exists_applyTo hd
  have hkind : first.kind = q.kind := (congrArg Key.kind hkey).trans (hd.trans hq.symm)
  obtain ⟨second, hsecond, hkey'⟩ := exists_applyTo hkind
  refine ⟨second, by rw [hfirst, Option.bind_some, hsecond], hkey'.trans hkey, fun field => ?_⟩
  rw [content?_of_applyTo hsecond, content?_of_applyTo hfirst]

/-- Applying two patches is applying the combined one. -/
theorem applyTo_bind_applyTo (h : q.kind = p.kind) (d : Declaration) :
    (p.applyTo d).bind q.applyTo = (p.combine q).applyTo d := by
  by_cases hd : d.kind = p.kind
  · obtain ⟨e, he, hkey, hfields⟩ := exists_applyTo_applyTo h hd
    obtain ⟨e', he', hkey'⟩ := exists_applyTo (hd.trans (kind_combine p q).symm)
    rw [he, he', Option.some.injEq]
    refine Declaration.eq_of_content? (hkey.trans hkey'.symm) fun field => ?_
    rw [hfields, content?_of_applyTo he', content?_combine h, Option.or_assoc]
  · rw [applyTo_eq_none hd, applyTo_eq_none (by rwa [kind_combine]), Option.bind_none]

theorem combine_self (p : Patch) : p.combine p = p :=
  eq_of_content? (kind_combine p p) fun field => by rw [content?_combine rfl, Option.or_self]

theorem build_append (kind : DeclarationKind) (calls more : List kind.Setting) :
    build kind (calls ++ more) = (build kind calls).combine (build kind more) := by
  refine eq_of_content? (by rw [kind_combine, kind_build, kind_build]) fun field => ?_
  rw [content?_combine (by rw [kind_build, kind_build]), content?_build, content?_build,
    content?_build, List.filterMap_append, List.getLast?_append]

/-- The patches mention no field in common. -/
def Disjoint (p q : Patch) : Prop :=
  ∀ field, p.content? field = none ∨ q.content? field = none

/-- Patches that mention no field in common may be applied in either order. -/
theorem Disjoint.applyTo_comm (h : p.Disjoint q) (hkind : q.kind = p.kind) (d : Declaration) :
    (p.applyTo d).bind q.applyTo = (q.applyTo d).bind p.applyTo := by
  by_cases hd : d.kind = p.kind
  · obtain ⟨e, he, hkey, hfields⟩ := exists_applyTo_applyTo hkind hd
    obtain ⟨e', he', hkey', hfields'⟩ := exists_applyTo_applyTo hkind.symm (hd.trans hkind.symm)
    rw [he, he', Option.some.injEq]
    refine Declaration.eq_of_content? (hkey.trans hkey'.symm) fun field => ?_
    rw [hfields, hfields']
    rcases h field with hnone | hnone <;> rw [hnone] <;> simp
  · rw [applyTo_eq_none hd, applyTo_eq_none (hkind ▸ hd), Option.bind_none, Option.bind_none]

end Patch

namespace Document

variable {doc : Document} {name : String} {p q : Patch}

theorem change_of_bind_eq_some {e : Declaration}
    (h : (doc.get? ⟨p.kind, name⟩).bind p.applyTo = some e) :
    doc.change name p =
      ({ doc with declarations := doc.declarations.insert ⟨p.kind, name⟩ e }, true) := by
  simp [change, h]

theorem change_of_bind_eq_none (h : (doc.get? ⟨p.kind, name⟩).bind p.applyTo = none) :
    doc.change name p = (doc, false) := by
  simp [change, h]

/-- Two changes of a declaration one after the other are one change by the combined patch. -/
theorem change_change (h : q.kind = p.kind) (doc : Document) (name : String) :
    (doc.change name p).1.change name q = doc.change name (p.combine q) := by
  have hkind := Patch.kind_combine p q
  have hcombined : (doc.get? ⟨p.kind, name⟩).bind (p.combine q).applyTo =
      ((doc.get? ⟨p.kind, name⟩).bind p.applyTo).bind q.applyTo := by
    rw [Option.bind_assoc]
    exact congrArg _ (funext fun d => (Patch.applyTo_bind_applyTo h d).symm)
  cases hp : (doc.get? ⟨p.kind, name⟩).bind p.applyTo with
  | none =>
    -- What one of the patches cannot be applied to, the other cannot either.
    have hq : (doc.get? ⟨q.kind, name⟩).bind q.applyTo = none := by
      rw [h, Option.bind_eq_none_iff]
      intro d hd
      refine Patch.applyTo_eq_none fun hdq => ?_
      obtain ⟨e, he, -⟩ := Patch.exists_applyTo (hdq.trans h)
      simp [hd, he] at hp
    rw [hp, Option.bind_none, ← hkind] at hcombined
    rw [change_of_bind_eq_none hp, change_of_bind_eq_none hq, change_of_bind_eq_none hcombined]
  | some first =>
    obtain ⟨d, -, hd⟩ := Option.bind_eq_some_iff.mp hp
    have hfirst : first.kind = q.kind := by
      rw [h, ← (p.applyTo_isSome_iff d).mp (by rw [hd]; rfl)]
      exact congrArg Key.kind (Patch.key_of_applyTo hd)
    obtain ⟨second, hsecond, -⟩ := Patch.exists_applyTo hfirst
    let next : Document := { doc with declarations := doc.declarations.insert ⟨p.kind, name⟩ first }
    have hq : (next.get? ⟨q.kind, name⟩).bind q.applyTo = some second := by
      rw [h, get?, OrderedMap.get?_insert, if_pos rfl, Option.bind_some, hsecond]
    rw [hp, Option.bind_some, hsecond, ← hkind] at hcombined
    rw [change_of_bind_eq_some hp, change_of_bind_eq_some hq, change_of_bind_eq_some hcombined, h,
      hkind, OrderedMap.insert_insert]

end Document

namespace Patch

/-- Patches act field by field, for every kind. Of the calls that build a patch, the last one about
a field stays, whether it sets or clears the field. A patch gives a declaration of its kind what it
mentions and keeps all the rest, the name included. Two patches one after the other, in a document
or not, are the one that takes each field from the second if it is mentioned there and else from the
first; so a patch may be applied again, and patches without a field in common in either order. -/
theorem act_fieldwise :
    (∀ (kind : DeclarationKind) (calls more : List kind.Setting),
      (build kind calls).kind = kind ∧
        (∀ field, (build kind calls).content? field =
          (calls.filterMap (kind.setting? · field)).getLast?) ∧
        build kind (calls ++ more) = (build kind calls).combine (build kind more)) ∧
      (∀ d e : Declaration, d.key = e.key →
        (∀ field, d.content? field = e.content? field) → d = e) ∧
      (∀ (p : Patch) (d : Declaration), d.kind = p.kind →
        ∃ e, p.applyTo d = some e ∧ e.key = d.key ∧
          (∀ field, e.content? field = (p.content? field).or (d.content? field)) ∧
          p.applyTo e = some e) ∧
      ∀ p q : Patch, q.kind = p.kind →
        (p.combine q).kind = p.kind ∧
          (∀ field, (p.combine q).content? field = (q.content? field).or (p.content? field)) ∧
          (∀ d, (p.applyTo d).bind q.applyTo = (p.combine q).applyTo d) ∧
          (p.Disjoint q → ∀ d, (p.applyTo d).bind q.applyTo = (q.applyTo d).bind p.applyTo) ∧
          ∀ (doc : Document) (name : String),
            (doc.change name p).1.change name q = doc.change name (p.combine q) := by
  refine ⟨fun kind calls more => ⟨kind_build kind calls, content?_build kind calls,
    build_append kind calls more⟩, fun d e => Declaration.eq_of_content?, fun p d hd => ?_,
    fun p q h => ⟨kind_combine p q, content?_combine h, applyTo_bind_applyTo h,
      fun hdisjoint => hdisjoint.applyTo_comm h, Document.change_change h⟩⟩
  obtain ⟨e, he, hkey⟩ := exists_applyTo hd
  have htwice := applyTo_bind_applyTo (rfl : p.kind = p.kind) d
  rw [combine_self, he, Option.bind_some] at htwice
  exact ⟨e, he, hkey, content?_of_applyTo he, htwice⟩

/-- Calls that clear the modifier before they set it, and calls that set the comment before they
clear it. -/
def modifierCalls : List AttributeSetting :=
  [.modifier none, .lineBreak true, .modifier (some "public")]

def commentCalls : List AttributeSetting :=
  [.comment (some "of the vault"), .comment none]

def modifierPatch : Patch :=
  build .attribute modifierCalls

def commentPatch : Patch :=
  build .attribute commentCalls

theorem modifierPatch_disjoint : modifierPatch.Disjoint commentPatch := by
  intro field
  cases field <;> decide

theorem modifierPatch_commentPatch_act :
    commentPatch.kind = modifierPatch.kind ∧ modifierPatch.Disjoint commentPatch ∧
      modifierPatch.content? .modifier = some (some "public") ∧
      commentPatch.content? .comment = some none ∧
      ∃ e, (modifierPatch.combine commentPatch).applyTo
          (.attribute { name := "owner", type := "address", comment := some "old" }) = some e ∧
        e = .attribute
          { name := "owner", type := "address", modifier := some "public", lineBreak := true } ∧
        (commentPatch.applyTo
            (.attribute { name := "owner", type := "address", comment := some "old" })).bind
          modifierPatch.applyTo = some e := by
  obtain ⟨hbuilt, -, -, hboth⟩ := act_fieldwise
  obtain ⟨-, -, hcombined, hcomm, -⟩ := hboth modifierPatch commentPatch rfl
  refine ⟨rfl, modifierPatch_disjoint, (hbuilt .attribute modifierCalls []).2.1 .modifier,
    (hbuilt .attribute commentCalls []).2.1 .comment, _, ?_, rfl, ?_⟩
  · rw [← hcombined]
    rfl
  · rw [← hcomm modifierPatch_disjoint]
    rfl

end Patch

end SoliditySource
