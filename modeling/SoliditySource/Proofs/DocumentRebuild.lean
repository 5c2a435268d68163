import SoliditySource.Proofs.ManifestDocument

/-! A document is its contents. However a document was reached, its declarations, rules and
indentation, written down as a manifest, give the same document again; so two documents with the
same contents are the same, whatever was done to get there. -/
namespace SoliditySource

namespace Rules

/-- Every rule looks for some text, and no two rules for the same. -/
structure WellFormed (rules : Rules) : Prop where
  nodup : rules.byPattern.keys.Nodup
  nonempty : ∀ pattern ∈ rules.byPattern.keys, pattern ≠ ""

theorem WellFormed.empty : WellFormed {} :=
  ⟨List.nodup_nil, fun _ h => absurd h List.not_mem_nil⟩

theorem WellFormed.insert {rules : Rules} (h : rules.WellFormed) (pattern replacement : String) :
    (rules.insert pattern replacement).WellFormed := by
  unfold Rules.insert
  split_ifs with hp
  · exact h
  · refine ⟨OrderedMap.nodup_keys_insert h.nodup pattern replacement, fun other ho => ?_⟩
    rw [OrderedMap.keys_insert] at ho
    have hcases : other ∈ rules.byPattern.keys ∨ other = pattern := by
      split_ifs at ho
      · exact .inl ho
      · simpa using ho
    rcases hcases with hold | rfl
    · exact h.nonempty other hold
    · simpa using hp

end Rules

namespace Document

/-- The rules after an edit. Only a new rule and a reset have to do with them. -/
theorem rules_edit (doc : Document) (e : Edit) :
    (doc.edit e).1.rules =
      match e with
      | .addRule pattern replacement => doc.rules.insert pattern replacement
      | .reset => {}
      | _ => doc.rules := by
  cases e with
  | add d =>
    by_cases hd : d.key ∈ doc.keys
    · simp [edit, add_of_mem hd]
    · simp [edit, add_of_notMem hd]
  | change name patch =>
    cases hp : (doc.get? ⟨patch.kind, name⟩).bind patch.applyTo <;> simp [edit, change, hp]
  | remove key => rfl
  | addRule pattern replacement => rfl
  | setFormatter formatter => rfl
  | reset => rfl

theorem wellFormed_rules_edit {doc : Document} (h : doc.rules.WellFormed) (e : Edit) :
    (doc.edit e).1.rules.WellFormed := by
  rw [rules_edit]
  cases e with
  | addRule pattern replacement => exact h.insert pattern replacement
  | reset => exact .empty
  | _ => exact h

theorem Reachable.wellFormed_rules {doc : Document} (h : Reachable doc) :
    doc.rules.WellFormed := by
  induction h with
  | new => exact .empty
  | step _ hs ih =>
    obtain ⟨e, rfl⟩ := hs.exists_edit
    exact wellFormed_rules_edit ih e

/-- The contents of a document written down with an indentation. -/
def manifest (doc : Document) (indent : Indent) : Manifest where
  indent := indent
  declarations := doc.toList
  replacements := doc.rules.toList.map fun rule => ⟨rule.1, rule.2⟩

/-- The entries of the map of declarations are the declarations, each with its own key. -/
theorem WellKeyed.entries_eq {doc : Document} (h : doc.WellKeyed) :
    doc.toList.map (fun d => (d.key, d)) = doc.declarations.entries := by
  rw [toList, OrderedMap.values, List.map_map]
  calc doc.declarations.entries.map ((fun d => (d.key, d)) ∘ Prod.snd)
      = doc.declarations.entries.map id :=
        List.map_congr_left fun entry he => Prod.ext (h.stored entry he).symm rfl
    _ = doc.declarations.entries := List.map_id _

/-- Filling a document with the contents of another one gives that document again. -/
theorem toDocument_manifest {doc : Document} (hk : doc.WellKeyed) (hr : doc.rules.WellFormed)
    {indent : Indent} (hf : doc.formatter = .braces indent) :
    (doc.manifest indent).toDocument = .ok doc := by
  have hkeys : ((doc.manifest indent).declarations.map Declaration.key).Nodup := by
    have hnodup := hk.nodup
    rwa [OrderedMap.keys, ← hk.entries_eq, List.map_map] at hnodup
  have hpatterns : ∀ r ∈ (doc.manifest indent).replacements, r.pattern ≠ "" := by
    intro r hm
    obtain ⟨rule, hrule, rfl⟩ := List.mem_map.mp hm
    exact hr.nonempty rule.1 (List.mem_map_of_mem hrule)
  have hrules : (⟨OrderedMap.insertAll {} doc.rules.toList⟩ : Rules) = doc.rules :=
    congrArg Rules.mk (OrderedMap.insertAll_of_nodup {} doc.rules.toList hr.nodup)
  rw [Manifest.toDocument_eq _ hkeys hpatterns]
  simp [manifest, Function.comp_def, hk.entries_eq, hrules, ← hf]

/-- Every reachable document that formats by braces is rebuilt from its contents: the manifest of
its declarations, rules and indentation is accepted, and gives the document itself. So documents
with the same contents are equal, and render the same, whatever the operations that led to them. -/
theorem Reachable.toDocument_manifest_eq {doc : Document} (h : Reachable doc) {indent : Indent}
    (hf : doc.formatter = .braces indent) :
    (doc.manifest indent).toDocument = .ok doc ∧
      ∀ other, Reachable other → other.formatter = .braces indent →
        other.toList = doc.toList → other.rules.toList = doc.rules.toList → other = doc := by
  have hdoc := toDocument_manifest h.wellKeyed h.wellFormed_rules hf
  refine ⟨hdoc, fun other ho hformatter hlist hrules => ?_⟩
  have hother := toDocument_manifest ho.wellKeyed ho.wellFormed_rules hformatter
  have hsame : other.manifest indent = doc.manifest indent := by
    rw [manifest, manifest, hlist, hrules]
  rw [hsame, hdoc] at hother
  exact (Except.ok.inj hother).symm

/-- A document with an attribute that was added again after a removal, a rule that was given twice,
and one that was not taken. -/
def readdedOwner : Document :=
  let doc : Document := {}
  let doc := (doc.edit (.setFormatter (.braces .tab))).1
  let doc := (doc.edit (.add (.attribute { name := "owner", type := "address" }))).1
  let doc := (doc.edit (.add (.container { name := "Ledger" }))).1
  let doc := (doc.removeAttribute "owner").1
  let doc := (doc.edit (.addRule "uint" "int")).1
  let doc := (doc.edit (.addRule "" "boom")).1
  let doc := (doc.edit (.addRule "int owner" "uint16 owner")).1
  let doc := (doc.edit (.add (.attribute { name := "owner" }))).1
  let doc := (doc.edit (.change "owner" (.attribute { type := some "uint" }))).1
  (doc.edit (.addRule "uint" "uint8")).1

theorem readdedOwner_reachable : Reachable readdedOwner :=
  ((((((((((Reachable.new.step (.edit _ _)).step (.edit _ _)).step (.edit _ _)).step
    (.removeAttribute _ "owner")).step (.edit _ _)).step (.edit _ _)).step (.edit _ _)).step
    (.edit _ _)).step (.edit _ _)).step (.edit _ _))

theorem readdedOwner_toDocument :
    Reachable readdedOwner ∧ readdedOwner.formatter = .braces .tab ∧
      readdedOwner.manifest .tab =
        { indent := .tab
          declarations :=
            [.container { name := "Ledger" }, .attribute { name := "owner", type := "uint" }]
          replacements := [⟨"uint", "uint8"⟩, ⟨"int owner", "uint16 owner"⟩] } ∧
      (readdedOwner.manifest .tab).toDocument = .ok readdedOwner :=
  have h := Reachable.toDocument_manifest_eq readdedOwner_reachable rfl
  ⟨readdedOwner_reachable, rfl, by decide, h.1⟩

end Document

end SoliditySource
