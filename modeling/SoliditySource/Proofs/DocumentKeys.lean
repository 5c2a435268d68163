import SoliditySource.Document.Edit
import SoliditySource.Proofs.OrderedMap

/-! The keys of a document and the names inside its declarations are two copies of the same data.
They agree in every document that operations can lead to, so a declaration found under a key is of
the kind of that key, and no operation on one kind meets a record of another. -/
namespace SoliditySource

/-- A patch works exactly on the declarations of its own kind. -/
theorem Patch.applyTo_isSome_iff (patch : Patch) (d : Declaration) :
    (patch.applyTo d).isSome ↔ d.kind = patch.kind := by
  cases patch <;> cases d <;> simp [Patch.applyTo, Patch.kind, Declaration.kind]

/-- No patch changes the kind or the name of a declaration. -/
theorem Patch.key_of_applyTo {patch : Patch} {d changed : Declaration}
    (h : patch.applyTo d = some changed) : changed.key = d.key := by
  cases patch <;> cases d <;> simp only [Patch.applyTo, Option.some.injEq, reduceCtorEq] at h <;>
    subst h <;> rfl

namespace Document

theorem contains_iff (doc : Document) (key : Key) : doc.contains key = true ↔ key ∈ doc.keys :=
  OrderedMap.get?_isSome_iff doc.declarations key

theorem contains_eq_false_iff (doc : Document) (key : Key) :
    doc.contains key = false ↔ key ∉ doc.keys := by
  rw [← contains_iff, Bool.not_eq_true]

theorem get?_eq_none_iff (doc : Document) (key : Key) : doc.get? key = none ↔ key ∉ doc.keys :=
  OrderedMap.get?_eq_none_iff doc.declarations key

/-- A declaration with a new key goes to the end. -/
theorem add_of_notMem {doc : Document} {d : Declaration} (h : d.key ∉ doc.keys) :
    doc.add d = .ok { doc with declarations := ⟨doc.declarations.entries ++ [(d.key, d)]⟩ } := by
  rw [add, (doc.contains_eq_false_iff d.key).mpr h, OrderedMap.insert,
    OrderedMap.insertEntry_of_notMem h]
  rfl

theorem add_of_mem {doc : Document} {d : Declaration} (h : d.key ∈ doc.keys) :
    doc.add d = .error (.duplicate d.key) := by
  rw [add, if_pos ((doc.contains_iff d.key).mpr h)]

theorem keys_of_add {doc next : Document} {d : Declaration} (h : doc.add d = .ok next) :
    d.key ∉ doc.keys ∧ next.keys = doc.keys ++ [d.key] := by
  by_cases hd : d.key ∈ doc.keys
  · rw [add_of_mem hd] at h
    cases h
  · rw [add_of_notMem hd] at h
    cases h
    exact ⟨hd, by simp [keys, OrderedMap.keys]⟩

/-- A change without a target changes nothing. -/
theorem change_of_notMem {doc : Document} {name : String} {patch : Patch}
    (h : ⟨patch.kind, name⟩ ∉ doc.keys) : doc.change name patch = (doc, false) := by
  simp [change, (doc.get?_eq_none_iff ⟨patch.kind, name⟩).mpr h]

/-- A change keeps all keys where they are. -/
theorem keys_change (doc : Document) (name : String) (patch : Patch) :
    (doc.change name patch).1.keys = doc.keys := by
  by_cases h : ⟨patch.kind, name⟩ ∈ doc.keys
  · unfold change
    dsimp only
    split
    · exact (OrderedMap.keys_insert _ _ _).trans (if_pos h)
    · rfl
  · rw [change_of_notMem h]

/-- A removal without a target removes nothing. -/
theorem remove_of_notMem {doc : Document} {key : Key} (h : key ∉ doc.keys) :
    doc.remove key = (doc, none) := by
  have hnone := (doc.get?_eq_none_iff key).mpr h
  rw [remove, hnone, OrderedMap.erase_of_get?_eq_none hnone]

/-- Every declaration is stored under its own key, and no key is stored twice. -/
def WellKeyed (doc : Document) : Prop :=
  doc.declarations.WellKeyed Declaration.key

namespace WellKeyed

variable {doc : Document}

theorem add (h : doc.WellKeyed) {d : Declaration} {next : Document} (ha : doc.add d = .ok next) :
    next.WellKeyed := by
  unfold Document.add at ha
  split_ifs at ha
  cases ha
  exact OrderedMap.WellKeyed.insert h rfl

theorem kind_of_get? (h : doc.WellKeyed) {key : Key} {d : Declaration}
    (hg : doc.get? key = some d) : d.kind = key.kind :=
  congrArg Key.kind (OrderedMap.WellKeyed.key_of_get? h hg)

theorem change (h : doc.WellKeyed) (name : String) (patch : Patch) :
    (doc.change name patch).1.WellKeyed := by
  unfold Document.change
  dsimp only
  split
  · rename_i changed hc
    obtain ⟨d, hd, hp⟩ := Option.bind_eq_some_iff.mp hc
    have hkey : d.key = ⟨patch.kind, name⟩ := OrderedMap.WellKeyed.key_of_get? h hd
    exact OrderedMap.WellKeyed.insert h ((Patch.key_of_applyTo hp).trans hkey).symm
  · exact h

theorem remove (h : doc.WellKeyed) (key : Key) : (doc.remove key).1.WellKeyed :=
  OrderedMap.WellKeyed.erase h key

theorem edit (h : doc.WellKeyed) (e : Edit) : (doc.edit e).1.WellKeyed := by
  cases e with
  | add d =>
    cases ha : doc.add d with
    | ok next => simpa only [Document.edit, ha] using h.add ha
    | error _ => simpa only [Document.edit, ha] using h
  | change name patch => exact h.change name patch
  | remove key => exact h.remove key
  | addRule pattern replacement => exact h
  | setFormatter formatter => exact h
  | reset => exact OrderedMap.WellKeyed.empty

/-- A change finds its target exactly when the document has one. -/
theorem change_found_iff (h : doc.WellKeyed) (name : String) (patch : Patch) :
    (doc.change name patch).2 = true ↔ doc.contains ⟨patch.kind, name⟩ = true := by
  cases hg : doc.get? ⟨patch.kind, name⟩ with
  | none => simp [Document.change, Document.contains, hg]
  | some d =>
    have hp : (patch.applyTo d).isSome :=
      (patch.applyTo_isSome_iff d).mpr (h.kind_of_get? hg)
    obtain ⟨changed, hc⟩ := Option.isSome_iff_exists.mp hp
    simp [Document.change, Document.contains, hg, hc]

end WellKeyed

/-- A removal for one kind of record answers with the record the document has under the key, and
changes nothing when it has none. -/
structure RemovesExactly {α : Type} (doc : Document) (key : Key) (wrap : α → Declaration)
    (result : Document × Option α) : Prop where
  found : result.2.isSome ↔ doc.contains key = true
  record : result.2.map wrap = doc.get? key
  missed : result.2 = none → result.1 = doc

/-- The records of a removed declaration are never dropped, whatever kind they are looked for. -/
theorem WellKeyed.removesExactly {doc : Document} (h : doc.WellKeyed) {α : Type} (key : Key)
    (wrap : α → Declaration) (project : Declaration → Option α)
    (hp : ∀ d : Declaration, d.kind = key.kind → (project d).map wrap = some d) :
    RemovesExactly doc key wrap ((doc.remove key).1, (doc.remove key).2.bind project) := by
  have hrecord : ((doc.get? key).bind project).map wrap = doc.get? key := by
    cases hg : doc.get? key with
    | none => rfl
    | some d => exact hp d (h.kind_of_get? hg)
  have hfound : ((doc.get? key).bind project).isSome ↔ doc.contains key = true := by
    have hsome := congrArg Option.isSome hrecord
    rw [Option.isSome_map] at hsome
    rw [Document.contains, hsome]
  refine ⟨hfound, hrecord, fun hnone => ?_⟩
  have hg : doc.get? key = none := by
    change (doc.get? key).bind project = none at hnone
    rw [← hrecord, hnone, Option.map_none]
  simp only [Document.remove, OrderedMap.erase_of_get?_eq_none hg]

/-- One operation, as the users of a document call it. -/
inductive Step : Document → Document → Prop
  | edit (doc : Document) (e : Edit) : Step doc (doc.edit e).1
  | removeContainer (doc : Document) (name : String) : Step doc (doc.removeContainer name).1
  | removeAttribute (doc : Document) (name : String) : Step doc (doc.removeAttribute name).1
  | removeStruct (doc : Document) (name : String) : Step doc (doc.removeStruct name).1
  | removeMapping (doc : Document) (name : String) : Step doc (doc.removeMapping name).1
  | removeFunction (doc : Document) (name : String) : Step doc (doc.removeFunction name).1

/-- The documents that operations lead to from the new one. -/
inductive Reachable : Document → Prop
  | new : Reachable {}
  | step {doc next : Document} (prior : Reachable doc) (step : Step doc next) : Reachable next

/-- The document after any operation is the document after an edit: a removal for one kind differs
from the removal by key in its answer only. -/
theorem Step.exists_edit {doc next : Document} (h : Step doc next) :
    ∃ e, next = (doc.edit e).1 := by
  cases h with
  | edit e => exact ⟨e, rfl⟩
  | removeContainer name => exact ⟨.remove ⟨.container, name⟩, rfl⟩
  | removeAttribute name => exact ⟨.remove ⟨.attribute, name⟩, rfl⟩
  | removeStruct name => exact ⟨.remove ⟨.struct, name⟩, rfl⟩
  | removeMapping name => exact ⟨.remove ⟨.mapping, name⟩, rfl⟩
  | removeFunction name => exact ⟨.remove ⟨.function, name⟩, rfl⟩

theorem Reachable.wellKeyed {doc : Document} (h : Reachable doc) : doc.WellKeyed := by
  induction h with
  | new => exact OrderedMap.WellKeyed.empty
  | step _ hs ih =>
    obtain ⟨e, rfl⟩ := hs.exists_edit
    exact ih.edit e

/-- In every reachable document the map of declarations agrees with the declarations in it. So a
change finds its target, and a removal for one kind hands out a record of that kind, exactly when
the document has the key; a removal that hands out nothing has removed nothing. -/
theorem Reachable.keys_agree {doc : Document} (h : Reachable doc) :
    (∀ entry ∈ doc.declarations.entries, entry.1 = entry.2.key) ∧ doc.keys.Nodup ∧
    (∀ (name : String) (patch : Patch),
      (doc.change name patch).2 = true ↔ doc.contains ⟨patch.kind, name⟩ = true) ∧
    ∀ name : String,
      RemovesExactly doc ⟨.container, name⟩ .container (doc.removeContainer name) ∧
      RemovesExactly doc ⟨.attribute, name⟩ .attribute (doc.removeAttribute name) ∧
      RemovesExactly doc ⟨.struct, name⟩ .struct (doc.removeStruct name) ∧
      RemovesExactly doc ⟨.mapping, name⟩ .mapping (doc.removeMapping name) ∧
      RemovesExactly doc ⟨.function, name⟩ .function (doc.removeFunction name) := by
  have hw := h.wellKeyed
  refine ⟨hw.stored, hw.nodup, hw.change_found_iff, fun name => ⟨?_, ?_, ?_, ?_, ?_⟩⟩
  · refine hw.removesExactly ⟨.container, name⟩ .container Declaration.container? fun d hd => ?_
    cases d <;> simp_all [Declaration.kind, Declaration.container?]
  · refine hw.removesExactly ⟨.attribute, name⟩ .attribute Declaration.attribute? fun d hd => ?_
    cases d <;> simp_all [Declaration.kind, Declaration.attribute?]
  · refine hw.removesExactly ⟨.struct, name⟩ .struct Declaration.struct? fun d hd => ?_
    cases d <;> simp_all [Declaration.kind, Declaration.struct?]
  · refine hw.removesExactly ⟨.mapping, name⟩ .mapping Declaration.mapping? fun d hd => ?_
    cases d <;> simp_all [Declaration.kind, Declaration.mapping?]
  · refine hw.removesExactly ⟨.function, name⟩ .function Declaration.function? fun d hd => ?_
    cases d <;> simp_all [Declaration.kind, Declaration.function?]

/-- Two declarations of one name and different kinds, one of them patched, then removed. -/
def ownerStruct : Document :=
  let doc : Document := {}
  let doc := (doc.edit (.add (.attribute { name := "owner", type := "address" }))).1
  let doc := (doc.edit (.add (.struct { name := "owner" }))).1
  let doc := (doc.edit (.change "owner" (.struct { lineBreak := some true }))).1
  (doc.removeAttribute "owner").1

theorem ownerStruct_reachable : Reachable ownerStruct :=
  (((Reachable.new.step (.edit _ _)).step (.edit _ _)).step (.edit _ _)).step
    (.removeAttribute _ "owner")

/-- After the attribute is gone, only the struct of the same name can be removed. -/
theorem ownerStruct_keys_agree :
    Reachable ownerStruct ∧ ownerStruct.keys = [⟨.struct, "owner"⟩] ∧
      (ownerStruct.removeStruct "owner").2 = some { name := "owner", lineBreak := true } ∧
      RemovesExactly ownerStruct ⟨.attribute, "owner"⟩ .attribute
        (ownerStruct.removeAttribute "owner") ∧
      RemovesExactly ownerStruct ⟨.struct, "owner"⟩ .struct (ownerStruct.removeStruct "owner") :=
  have h := (Reachable.keys_agree ownerStruct_reachable).2.2.2 "owner"
  ⟨ownerStruct_reachable, by decide, by decide, h.2.1, h.2.2.1⟩

end Document

end SoliditySource
