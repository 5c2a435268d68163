import SoliditySource.Proofs.EditHistory
import SoliditySource.Proofs.RenderCompose

/-! What an edit does to the rendered text. A declaration stands in the text between a part that is
settled by the declarations before it and a part that is settled by those after it. Changing the
declaration replaces its own text, removing a member takes that text out, and adding a member puts
its text before the last brace. What stands before the declaration also depends on its kind, since a
container closes the segment before it. -/
namespace SoliditySource

/-! The fields that a patch overwrites. -/

/-- A field that is set has the new value, and any other the value it had. -/
structure Overwritten {α : Type} (setting : Option α) (old new : α) : Prop where
  set : ∀ value, setting = some value → new = value
  kept : setting = none → new = old

theorem overwritten_getD {α : Type} (setting : Option α) (old : α) :
    Overwritten setting old (setting.getD old) := by
  cases setting with
  | none => exact ⟨nofun, fun _ => rfl⟩
  | some value => exact ⟨fun _ h => Option.some.inj h, nofun⟩

/-- The second declaration is the first one with the fields that the patch sets overwritten. -/
def Patch.Overwrites : Patch → Declaration → Declaration → Prop
  | .container p, .container r, .container s =>
    s.name = r.name ∧ Overwritten p.kind r.kind s.kind ∧ Overwritten p.parent r.parent s.parent ∧
      Overwritten p.comment r.comment s.comment
  | .attribute p, .attribute r, .attribute s =>
    s.name = r.name ∧ Overwritten p.type r.type s.type ∧
      Overwritten p.modifier r.modifier s.modifier ∧ Overwritten p.value r.value s.value ∧
      Overwritten p.comment r.comment s.comment ∧ Overwritten p.lineBreak r.lineBreak s.lineBreak
  | .struct p, .struct r, .struct s =>
    s.name = r.name ∧ Overwritten p.attributes r.attributes s.attributes ∧
      Overwritten p.comment r.comment s.comment ∧ Overwritten p.lineBreak r.lineBreak s.lineBreak
  | .mapping p, .mapping r, .mapping s =>
    s.name = r.name ∧ Overwritten p.keyType r.keyType s.keyType ∧
      Overwritten p.valueType r.valueType s.valueType ∧
      Overwritten p.modifier r.modifier s.modifier ∧
      Overwritten p.comment r.comment s.comment ∧ Overwritten p.lineBreak r.lineBreak s.lineBreak
  | .function p, .function r, .function s =>
    s.name = r.name ∧ Overwritten p.parameters r.parameters s.parameters ∧
      Overwritten p.returnType r.returnType s.returnType ∧
      Overwritten p.modifier r.modifier s.modifier ∧ Overwritten p.body r.body s.body ∧
      Overwritten p.comment r.comment s.comment ∧ Overwritten p.lineBreak r.lineBreak s.lineBreak
  | _, _, _ => False

theorem Patch.overwrites_of_applyTo {patch : Patch} {d changed : Declaration}
    (h : patch.applyTo d = some changed) : patch.Overwrites d changed := by
  cases patch <;> cases d <;> simp only [applyTo, Option.some.injEq, reduceCtorEq] at h <;>
    subst h <;> simp [Overwrites, ContainerPatch.apply, AttributePatch.apply, StructPatch.apply,
      MappingPatch.apply, FunctionPatch.apply, overwritten_getD]

/-! Where a declaration stands in the text. -/

/-- The text before a declaration of the given kind. A container closes the segment before it. -/
def textBefore (before : List Declaration) (kind : DeclarationKind) : String :=
  match before with
  | [] => ""
  | first :: rest =>
    first.text ++ restBody rest ++ if kind = .container then "\x7d\n\n" else ""

theorem StartsWithContainer.of_kind_eq {before after : List Declaration} {d e : Declaration}
    (h : StartsWithContainer (before ++ d :: after)) (hk : e.kind = d.kind) :
    StartsWithContainer (before ++ e :: after) := by
  obtain ⟨c, rest, hds⟩ := h
  cases before with
  | cons first others =>
    obtain ⟨rfl, -⟩ := List.cons.inj hds
    exact ⟨c, others ++ e :: after, rfl⟩
  | nil =>
    obtain ⟨rfl, -⟩ := List.cons.inj hds
    cases e with
    | container r => exact ⟨r, after, rfl⟩
    | _ => cases hk

/-- A member is never the first declaration. -/
theorem StartsWithContainer.of_member {before after : List Declaration} {d : Declaration}
    (h : StartsWithContainer (before ++ d :: after)) (hd : d.isContainer = false) :
    StartsWithContainer before := by
  obtain ⟨c, rest, hds⟩ := h
  cases before with
  | cons first others =>
    obtain ⟨rfl, -⟩ := List.cons.inj hds
    exact ⟨c, others, rfl⟩
  | nil =>
    obtain ⟨rfl, -⟩ := List.cons.inj hds
    cases hd

/-- A declaration is written between what those before it and those after it give. -/
theorem renderDeclarations_split {before after : List Declaration} {d : Declaration}
    (h : StartsWithContainer (before ++ d :: after)) :
    renderDeclarations (before ++ d :: after) =
      .ok (textBefore before d.kind ++ d.text ++ renderRest after) := by
  obtain ⟨c, rest, hds⟩ := h
  cases before with
  | nil =>
    obtain ⟨rfl, rfl⟩ : d = .container c ∧ after = rest := by simpa using hds
    simp [textBefore, renderDeclarations, Declaration.isContainer, Declaration.kind]
  | cons first others =>
    obtain rfl : first = .container c := by
      rw [List.cons_append] at hds
      exact (List.cons.inj hds).1
    rw [List.cons_append, renderDeclarations, if_pos (by rfl), renderRest_append]
    simp [textBefore, renderRest, Declaration.isContainer, String.append_assoc]

/-- Without the declaration, the texts around a member meet. -/
theorem renderDeclarations_gap {before after : List Declaration} {kind : DeclarationKind}
    (hk : kind ≠ .container) (h : StartsWithContainer before) :
    renderDeclarations (before ++ after) = .ok (textBefore before kind ++ renderRest after) := by
  obtain ⟨c, rest, rfl⟩ := h
  rw [List.cons_append, renderDeclarations, if_pos (by rfl), renderRest_append]
  simp [textBefore, hk, String.append_assoc]

namespace Document

variable {doc : Document} {before after : List Declaration}

theorem renderRaw_split (hr : doc.rules.isEmpty = true) (hfirst : StartsWithContainer doc.toList)
    {d : Declaration} (hd : doc.toList = before ++ d :: after) :
    doc.renderRaw = .ok (textBefore before d.kind ++ d.text ++ renderRest after) := by
  rw [hd] at hfirst
  rw [renderRaw_of_isEmpty hr, hd, renderDeclarations_split hfirst]

theorem renderRaw_gap (hr : doc.rules.isEmpty = true) (hbefore : StartsWithContainer before)
    {kind : DeclarationKind} (hk : kind ≠ .container) (hd : doc.toList = before ++ after) :
    doc.renderRaw = .ok (textBefore before kind ++ renderRest after) := by
  rw [renderRaw_of_isEmpty hr, hd, renderDeclarations_gap hk hbefore]

/-- A change that finds its target patches it where it stands. -/
theorem WellKeyed.toList_change (h : doc.WellKeyed) {name : String} {patch : Patch}
    (hfound : (doc.change name patch).2 = true) :
    ∃ before d after changed, doc.toList = before ++ d :: after ∧
      d.key = ⟨patch.kind, name⟩ ∧ patch.applyTo d = some changed ∧
      (doc.change name patch).1.toList = before ++ changed :: after ∧
      (doc.change name patch).1.rules = doc.rules := by
  cases hg : doc.get? ⟨patch.kind, name⟩ with
  | none => simp [Document.change, hg] at hfound
  | some d =>
    cases hp : patch.applyTo d with
    | none => simp [Document.change, hg, hp] at hfound
    | some changed =>
      obtain ⟨before, after, hentries, hbefore⟩ := OrderedMap.exists_split_of_get? hg
      have hinsert := OrderedMap.insertEntry_append_cons hbefore d changed after
      refine ⟨before.map Prod.snd, d, after.map Prod.snd, changed, ?_,
        OrderedMap.WellKeyed.key_of_get? h hg, hp, ?_, ?_⟩
      · simp [toList, OrderedMap.values, hentries]
      · simp [Document.change, hg, hp, toList, OrderedMap.values, OrderedMap.insert, hentries,
          hinsert]
      · simp [Document.change, hg, hp]

theorem WellKeyed.toList_remove_split (h : doc.WellKeyed) {d : Declaration}
    (hd : doc.toList = before ++ d :: after) :
    (doc.remove d.key).1.toList = before ++ after := by
  have hkeys : (doc.toList.map Declaration.key).Nodup := by
    rw [h.map_key_toList]
    exact h.nodup
  rw [hd, List.map_append, List.map_cons, List.nodup_middle, ← List.map_append] at hkeys
  have hothers : ∀ e ∈ before ++ after, e.key ≠ d.key := fun e he hsame =>
    (List.nodup_cons.mp hkeys).1 (List.mem_map.mpr ⟨e, he, hsame⟩)
  have hkept : (before ++ after).filter (·.key ≠ d.key) = before ++ after :=
    List.filter_eq_self.mpr fun e he => by simpa using hothers e he
  rw [h.toList_remove, hd, List.filter_append, List.filter_cons_of_neg (by simp),
    ← List.filter_append, hkept]

/-- A declaration with a new key goes to the end. -/
theorem exists_add {d : Declaration} (h : doc.contains d.key = false) :
    ∃ next, doc.add d = .ok next ∧ next.toList = doc.toList ++ [d] ∧
      next.rules = doc.rules := by
  refine ⟨_, add_of_notMem ((doc.contains_eq_false_iff d.key).mp h), ?_, rfl⟩
  simp [toList, OrderedMap.values]

/-- Edits of a reachable document without rules are local in its text. A change that finds its
target replaces the text of one declaration by that of the patched one; what stands before and after
it is settled by the other declarations and the kind, which no patch changes. A member that is
removed leaves what stood before and after it, and one that is added is written before the last
brace. -/
theorem Reachable.renderRaw_local {doc : Document} (h : Reachable doc)
    (hr : doc.rules.isEmpty = true) {text : String} (ht : doc.renderRaw = .ok text) :
    (∀ name patch, (doc.change name patch).2 = true →
      ∃ before d after changed, doc.toList = before ++ d :: after ∧
        d.key = ⟨patch.kind, name⟩ ∧ patch.Overwrites d changed ∧
        (doc.change name patch).1.toList = before ++ changed :: after ∧
        text = textBefore before patch.kind ++ d.text ++ renderRest after ∧
        (doc.change name patch).1.renderRaw =
          .ok (textBefore before patch.kind ++ changed.text ++ renderRest after)) ∧
    (∀ before d after, doc.toList = before ++ d :: after → d.isContainer = false →
      text = textBefore before d.kind ++ d.text ++ renderRest after ∧
        (doc.remove d.key).1.renderRaw = .ok (textBefore before d.kind ++ renderRest after)) ∧
    ∀ d, doc.contains d.key = false → d.isContainer = false →
      ∃ next body, doc.add d = .ok next ∧ text = body ++ "\x7d" ∧
        next.renderRaw = .ok (body ++ d.text ++ "\x7d") := by
  have hfirst : StartsWithContainer doc.toList := by
    rw [renderRaw_of_isEmpty hr] at ht
    exact (exists_renderDeclarations_iff _).mp ⟨text, ht⟩
  have htext : ∀ {before d after}, doc.toList = before ++ d :: after →
      text = textBefore before d.kind ++ d.text ++ renderRest after := fun hd =>
    Except.ok.inj (ht.symm.trans (renderRaw_split hr hfirst hd))
  refine ⟨fun name patch hfound => ?_, fun before d after hd hm => ?_, fun d hnew hm => ?_⟩
  · obtain ⟨before, d, after, changed, hd, hkey, hp, hchanged, hrules⟩ :=
      h.wellKeyed.toList_change hfound
    have hold : d.kind = patch.kind := congrArg Key.kind hkey
    have hsame : changed.kind = d.kind := congrArg Key.kind (Patch.key_of_applyTo hp)
    have hnext : StartsWithContainer (doc.change name patch).1.toList := by
      rw [hd] at hfirst
      rw [hchanged]
      exact hfirst.of_kind_eq hsame
    have hraw := renderRaw_split (hrules ▸ hr) hnext hchanged
    rw [hsame, hold] at hraw
    exact ⟨before, d, after, changed, hd, hkey, Patch.overwrites_of_applyTo hp, hchanged,
      hold ▸ htext hd, hraw⟩
  · have hbefore : StartsWithContainer before := (hd ▸ hfirst).of_member hm
    have hk : d.kind ≠ .container := by simpa [Declaration.isContainer] using hm
    have hrules : (doc.remove d.key).1.rules.isEmpty = true := hr
    exact ⟨htext hd, renderRaw_gap hrules hbefore hk (h.wellKeyed.toList_remove_split hd)⟩
  · have hk : d.kind ≠ .container := by simpa [Declaration.isContainer] using hm
    obtain ⟨next, hadd, hlist, hrules⟩ := exists_add hnew
    have hbody : doc.renderRaw = .ok (textBefore doc.toList d.kind ++ "\x7d") :=
      renderRaw_gap hr hfirst hk (List.append_nil _).symm
    have hadded := renderRaw_gap (hrules ▸ hr) hfirst hk hlist
    refine ⟨next, textBefore doc.toList d.kind, hadd, Except.ok.inj (ht.symm.trans hbody), ?_⟩
    simpa [renderRest, hm, String.append_assoc] using hadded

/-- Two segments, the first with a member. -/
def tokenAndMath : Document :=
  let doc : Document := {}
  let doc := (doc.edit (.add (.container { name := "Token", parent := some "Base" }))).1
  let doc := (doc.edit (.add (.attribute { name := "supply", type := "uint" }))).1
  (doc.edit (.add (.container { name := "Math" }))).1

theorem tokenAndMath_reachable : Reachable tokenAndMath :=
  ((Reachable.new.step (.edit _ _)).step (.edit _ _)).step (.edit _ _)

/-- The second container becomes a library, the member is removed, or a function is added. -/
theorem tokenAndMath_renderRaw_local :
    Reachable tokenAndMath ∧ tokenAndMath.rules.isEmpty = true ∧
      ∃ text, tokenAndMath.renderRaw = .ok text ∧
        (∃ before d after changed, tokenAndMath.toList = before ++ d :: after ∧
          d.key = ⟨.container, "Math"⟩ ∧
          Patch.Overwrites (.container { kind := some .library }) d changed ∧
          (tokenAndMath.change "Math" (.container { kind := some .library })).1.renderRaw =
            .ok (textBefore before .container ++ changed.text ++ renderRest after)) ∧
        (tokenAndMath.remove ⟨.attribute, "supply"⟩).1.renderRaw =
          .ok (textBefore [.container { name := "Token", parent := some "Base" }] .attribute ++
            renderRest [.container { name := "Math" }]) ∧
        ∃ next body, tokenAndMath.add (.function { name := "add" }) = .ok next ∧
          text = body ++ "\x7d" ∧
          next.renderRaw =
            .ok (body ++ (Declaration.function { name := "add" }).text ++ "\x7d") := by
  obtain ⟨text, ht⟩ : ∃ text, tokenAndMath.renderRaw = .ok text := ⟨_, rfl⟩
  obtain ⟨hchange, hremove, hadd⟩ := Reachable.renderRaw_local tokenAndMath_reachable rfl ht
  obtain ⟨before, d, after, changed, hlist, hkey, hfields, -, -, hraw⟩ :=
    hchange "Math" (.container { kind := some .library }) (by decide)
  have hremoved := hremove [.container { name := "Token", parent := some "Base" }]
    (.attribute { name := "supply", type := "uint" }) [.container { name := "Math" }] rfl rfl
  exact ⟨tokenAndMath_reachable, rfl, text, ht, ⟨before, d, after, changed, hlist, hkey, hfields,
    hraw⟩, hremoved.2, hadd (.function { name := "add" }) (by decide) rfl⟩

/-! The kind of the declaration matters. -/

/-- `pre` and `post` give the texts before and after a declaration that is changed, from the
declarations before and after it alone. -/
def SettledByOthers (pre post : List Declaration → List Declaration → String) : Prop :=
  ∀ doc text, Reachable doc → doc.rules.isEmpty = true → doc.renderRaw = .ok text →
    ∀ name patch, (doc.change name patch).2 = true →
      ∃ before d after changed, doc.toList = before ++ d :: after ∧
        d.key = ⟨patch.kind, name⟩ ∧ patch.Overwrites d changed ∧
        (doc.change name patch).1.toList = before ++ changed :: after ∧
        text = pre before after ++ d.text ++ post before after ∧
        (doc.change name patch).1.renderRaw =
          .ok (pre before after ++ changed.text ++ post before after)

def contractA : Declaration :=
  .container { name := "A" }

/-- A contract and a declaration after it. -/
def afterContract (d : Declaration) : Document :=
  (callAll {} [.edit (.add contractA), .edit (.add d)]).1

theorem eq_of_append_cons_eq_pair {first second d : Declaration}
    (h : [first, second] = before ++ d :: after) (hd : d.key ≠ first.key) :
    before = [first] ∧ d = second ∧ after = [] := by
  rcases before with _ | ⟨a, _ | ⟨b, rest⟩⟩
  · obtain ⟨rfl, -⟩ := List.cons.inj h
    exact absurd rfl hd
  · obtain ⟨rfl, hrest⟩ := List.cons.inj h
    obtain ⟨rfl, rfl⟩ := List.cons.inj hrest
    exact ⟨rfl, rfl, rfl⟩
  · simp at h

/-- The texts around a declaration behind the contract are those that are written there. -/
theorem SettledByOthers.eq_around {pre post : List Declaration → List Declaration → String}
    (h : SettledByOthers pre post) (d : Declaration) (patch : Patch)
    (hlist : (afterContract d).toList = [contractA, d])
    (hrules : (afterContract d).rules.isEmpty = true)
    (hfound : ((afterContract d).change d.name patch).2 = true) (hkind : patch.kind = d.kind)
    (hne : d.key ≠ contractA.key) :
    textBefore [contractA] d.kind ++ d.text ++ renderRest [] =
      pre [contractA] [] ++ d.text ++ post [contractA] [] := by
  have hreachable : Reachable (afterContract d) := Reachable.new.callAll _
  have hsplit : (afterContract d).toList = [contractA] ++ d :: [] := hlist
  have hraw := renderRaw_split hrules ⟨_, [d], hlist⟩ hsplit
  obtain ⟨before, target, after, -, htarget, hkey, -, -, htext, -⟩ :=
    h _ _ hreachable hrules hraw d.name patch hfound
  have hother : target.key ≠ contractA.key := by
    rw [hkey, hkind]
    exact hne
  obtain ⟨rfl, rfl, rfl⟩ := eq_of_append_cons_eq_pair (hlist.symm.trans htarget) hother
  exact htext

/-- The other declarations and their places alone do not settle what stands around a declaration:
behind the same contract, a second contract has a closing brace before it that a member has not. -/
theorem not_exists_settledByOthers : ¬∃ pre post, SettledByOthers pre post := by
  rintro ⟨pre, post, h⟩
  have hmember := h.eq_around (.attribute { name := "x", type := "uint" }) (.attribute {}) rfl rfl
    (by decide) rfl (by decide)
  have hcontract := h.eq_around (.container { name := "B" }) (.container {}) rfl rfl (by decide) rfl
    (by decide)
  have hbrace : textBefore [contractA] .container =
      textBefore [contractA] .attribute ++ "\x7d\n\n" := by
    simp [textBefore]
  -- The texts around would be equally long in both documents.
  have hlength := congrArg String.length hmember
  have hlength' := congrArg String.length hcontract
  simp only [Declaration.kind, hbrace, String.length_append] at hlength hlength'
  have hthree : "\x7d\n\n".length = 3 := by decide
  omega

end Document

end SoliditySource
