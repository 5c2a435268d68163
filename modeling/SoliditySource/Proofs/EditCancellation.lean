import SoliditySource.Proofs.EditHistory

/-! Adding a declaration and removing it again. Calls in between that are about other keys do and
answer the same whether the declaration is there or not, so the two runs differ by that declaration
alone, and not at all once it is removed. -/
namespace SoliditySource

/-- The key that an edit is about. -/
def Edit.key? : Edit → Option Key
  | add d => some d.key
  | change name patch => some ⟨patch.kind, name⟩
  | remove key => some key
  | _ => none

namespace Document

theorem get?_remove_of_ne (doc : Document) {key other : Key} (h : other ≠ key) :
    (doc.remove key).1.get? other = doc.get? other :=
  OrderedMap.get?_erase_of_ne doc.declarations h

/-- The document without a key, in which another key is stored anew. -/
theorem insert_remove_comm (doc : Document) {key other : Key} (h : other ≠ key)
    (d : Declaration) :
    ({ (doc.remove key).1 with
      declarations := (doc.remove key).1.declarations.insert other d } : Document) =
      (Document.remove { doc with declarations := doc.declarations.insert other d } key).1 := by
  simp [remove, OrderedMap.insert_erase_comm doc.declarations h]

theorem remove_comm (doc : Document) (key other : Key) :
    ((doc.remove key).1.remove other).1 = ((doc.remove other).1.remove key).1 := by
  simp [remove, OrderedMap.erase_comm doc.declarations key other]

/-- Edits that are about another key do not notice that a key has been removed. -/
theorem edit_remove_comm (doc : Document) {key : Key} {e : Edit} (h : e.key? ≠ some key) :
    (doc.remove key).1.edit e = (((doc.edit e).1.remove key).1, (doc.edit e).2) := by
  cases e with
  | add d =>
    have hd : d.key ≠ key := fun he => h (congrArg some he)
    have hcontains : (doc.remove key).1.contains d.key = doc.contains d.key := by
      rw [contains, get?_remove_of_ne doc hd, contains]
    by_cases hc : doc.contains d.key = true
    · simp [edit, add, hcontains, hc]
    · simp [edit, add, hcontains, hc, insert_remove_comm doc hd]
  | change name patch =>
    have hn : (⟨patch.kind, name⟩ : Key) ≠ key := fun he => h (congrArg some he)
    cases hp : (doc.get? ⟨patch.kind, name⟩).bind patch.applyTo with
    | none => simp [edit, change, get?_remove_of_ne doc hn, hp]
    | some d => simp [edit, change, get?_remove_of_ne doc hn, hp, insert_remove_comm doc hn]
  | remove other =>
    have ho : other ≠ key := fun he => h (congrArg some he)
    refine Prod.ext (remove_comm doc key other) ?_
    exact congrArg EditResult.removed (get?_remove_of_ne doc ho)
  | addRule pattern replacement => rfl
  | setFormatter formatter => rfl
  | reset => rfl

/-- Neither do whole runs. -/
theorem WellKeyed.callAll_remove_comm {doc : Document} (h : doc.WellKeyed) {key : Key}
    {calls : List Call} (hc : ∀ c ∈ calls, c.toEdit.key? ≠ some key) :
    (doc.remove key).1.callAll calls =
      (((doc.callAll calls).1.remove key).1, (doc.callAll calls).2) := by
  induction calls generalizing doc with
  | nil => rfl
  | cons c cs ih =>
    have hstep : (doc.remove key).1.call c = (((doc.call c).1.remove key).1, (doc.call c).2) := by
      rw [(h.remove key).call_eq_edit, h.call_eq_edit, edit_remove_comm doc (hc c (by simp))]
    have hrest := ih (h.call c) fun x hx => hc x (by simp [hx])
    rw [callAll_cons, hstep, callAll_cons, hrest]

/-- A declaration that is added and removed again leaves no trace. -/
theorem remove_of_add {doc next : Document} {d : Declaration} (h : doc.add d = .ok next) :
    (next.remove d.key).1 = doc := by
  unfold add at h
  split_ifs at h with hc
  cases h
  have hnew : d.key ∉ doc.declarations.keys := fun hm => hc ((doc.contains_iff d.key).mpr hm)
  simp [remove, OrderedMap.erase_insert_of_notMem hnew]

/-- In every reachable document, a declaration with a new key can be added. Calls that are about
other keys then give the same answers as without it, and once it is removed the document is the one
that these calls lead to alone. -/
theorem Reachable.add_callAll_remove {doc : Document} (h : Reachable doc) {d : Declaration}
    (hd : doc.contains d.key = false) {calls : List Call}
    (hc : ∀ c ∈ calls, c.toEdit.key? ≠ some d.key) :
    ∃ next, doc.add d = .ok next ∧ (next.callAll calls).2 = (doc.callAll calls).2 ∧
      ((next.callAll calls).1.remove d.key).1 = (doc.callAll calls).1 := by
  have hadd := add_of_notMem ((doc.contains_eq_false_iff d.key).mp hd)
  have hcomm := (h.wellKeyed.add hadd).callAll_remove_comm hc
  rw [remove_of_add hadd] at hcomm
  exact ⟨_, hadd, (congrArg Prod.snd hcomm).symm, (congrArg Prod.fst hcomm).symm⟩

/-- A container with an attribute. -/
def ownerAttribute : Document :=
  let doc : Document := {}
  let doc := (doc.edit (.add (.container { name := "Ledger" }))).1
  (doc.edit (.add (.attribute { name := "owner", type := "address" }))).1

theorem ownerAttribute_reachable : Reachable ownerAttribute :=
  (Reachable.new.step (.edit _ _)).step (.edit _ _)

/-- Calls about the same name under other kinds, two of which miss. -/
def ownerCalls : List Call :=
  [.edit (.add (.attribute { name := "owner" })), .removeRecord .mapping "owner",
    .edit (.change "owner" (.attribute { lineBreak := some true })),
    .edit (.addRule "address" "account"), .edit (.add (.function { name := "owner" })),
    .removeRecord .attribute "owner"]

/-- A struct called `owner` comes and goes, and the function of that name stays. -/
theorem ownerAttribute_add_callAll_remove :
    Reachable ownerAttribute ∧ ownerAttribute.contains ⟨.struct, "owner"⟩ = false ∧
      (∀ c ∈ ownerCalls, c.toEdit.key? ≠ some ⟨.struct, "owner"⟩) ∧
      ∃ next, ownerAttribute.add (.struct { name := "owner" }) = .ok next ∧
        (next.callAll ownerCalls).2 = (ownerAttribute.callAll ownerCalls).2 ∧
        ((next.callAll ownerCalls).1.remove ⟨.struct, "owner"⟩).1 =
          (ownerAttribute.callAll ownerCalls).1 ∧
        (ownerAttribute.callAll ownerCalls).1.keys =
          [⟨.container, "Ledger"⟩, ⟨.function, "owner"⟩] := by
  have hd : ownerAttribute.contains ⟨.struct, "owner"⟩ = false := by decide
  have hc : ∀ c ∈ ownerCalls, c.toEdit.key? ≠ some ⟨.struct, "owner"⟩ := by decide
  obtain ⟨next, hadd, hanswers, hlast⟩ := Reachable.add_callAll_remove ownerAttribute_reachable
    (d := .struct { name := "owner" }) hd hc
  exact ⟨ownerAttribute_reachable, hd, hc, next, hadd, hanswers, hlast, by decide⟩

end Document

end SoliditySource
