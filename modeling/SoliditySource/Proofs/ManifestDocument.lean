import SoliditySource.Manifest.Parse
import SoliditySource.Proofs.DocumentKeys

/-! From a manifest to its document. Reading a manifest and filling a document both look for
repeated keys and for empty patterns; what passes the first check passes the second, so a manifest
that was read always gives a document, and that document holds all of it. -/
namespace SoliditySource

theorem Replacement.toList_rules (rules : Rules) (replacements : List Replacement)
    (hp : ∀ r ∈ replacements, r.pattern ≠ "") :
    replacements.foldl (fun rules r => rules.insert r.pattern r.replacement) rules =
      ⟨rules.byPattern.insertAll (replacements.map fun r => (r.pattern, r.replacement))⟩ := by
  induction replacements generalizing rules with
  | nil => rfl
  | cons r rest ih =>
    have hr : r.pattern.isEmpty = false := by simp [hp r (by simp)]
    rw [List.foldl_cons, ih _ fun s hs => hp s (by simp [hs])]
    simp [Rules.insert, hr, OrderedMap.insertAll]

namespace Document

/-- Declarations with new and distinct keys are appended in order. -/
theorem foldlM_add (doc : Document) (ds : List Declaration)
    (hn : (ds.map Declaration.key).Nodup) (hd : ∀ d ∈ ds, d.key ∉ doc.keys) :
    ds.foldlM Document.add doc =
      .ok { doc with
        declarations := ⟨doc.declarations.entries ++ ds.map fun d => (d.key, d)⟩ } := by
  induction ds generalizing doc with
  | nil => simp [pure, Except.pure]
  | cons d rest ih =>
    simp only [List.map_cons, List.nodup_cons, List.mem_map, not_exists, not_and] at hn
    rw [List.foldlM_cons, add_of_notMem (hd d (by simp))]
    refine (ih _ hn.2 fun e he => ?_).trans ?_
    · have hold : ∀ x, (e.key, x) ∉ doc.declarations.entries := by
        simpa [keys, OrderedMap.keys] using hd e (by simp [he])
      have hne := hn.1 e he
      simpa [keys, OrderedMap.keys] using And.intro hold hne
    · simp

theorem foldl_addRule (doc : Document) (replacements : List Replacement) :
    replacements.foldl (fun doc r => doc.addRule r.pattern r.replacement) doc =
      { doc with
        rules := replacements.foldl (fun rules r => rules.insert r.pattern r.replacement)
          doc.rules } := by
  induction replacements generalizing doc with
  | nil => rfl
  | cons r rest ih => exact ih _

end Document

namespace Manifest

/-- The document of a manifest whose keys are distinct and whose patterns are not empty. -/
theorem toDocument_eq (m : Manifest) (hn : (m.declarations.map Declaration.key).Nodup)
    (hp : ∀ r ∈ m.replacements, r.pattern ≠ "") :
    m.toDocument = .ok
      { declarations := ⟨m.declarations.map fun d => (d.key, d)⟩
        rules := ⟨OrderedMap.insertAll {} (m.replacements.map fun r => (r.pattern, r.replacement))⟩
        formatter := .braces m.indent } := by
  have hadd := Document.foldlM_add { formatter := .braces m.indent } m.declarations hn
    (by simp [Document.keys, OrderedMap.keys])
  unfold toDocument
  rw [hadd]
  change Except.ok _ = _
  rw [Document.foldl_addRule, Replacement.toList_rules _ _ hp]
  rfl

theorem findIdx?_eq_none_iff_notMem (seen : List Key) (key : Key) :
    seen.findIdx? (· = key) = none ↔ key ∉ seen := by
  rw [List.findIdx?_eq_none_iff]
  constructor
  · intro h hm
    simpa using h key hm
  · intro h k hk
    simpa using fun he : k = key => h (he ▸ hk)

/-- The search for a repeated key fails exactly when every key is new and occurs once. -/
theorem firstRepeat?_eq_none_iff (seen keys : List Key) :
    firstRepeat? seen keys = none ↔ keys.Nodup ∧ ∀ key ∈ keys, key ∉ seen := by
  induction keys generalizing seen with
  | nil => simp [firstRepeat?]
  | cons key rest ih =>
    unfold firstRepeat?
    cases hf : seen.findIdx? (· = key) with
    | some first =>
      have hm : key ∈ seen := by
        by_contra hm
        rw [(findIdx?_eq_none_iff_notMem seen key).mpr hm] at hf
        cases hf
      simp [hm]
    | none =>
      have hm := (findIdx?_eq_none_iff_notMem seen key).mp hf
      have hsplit : ∀ k, k ∉ seen ++ [key] ↔ k ∉ seen ∧ k ≠ key := by simp
      simp only [ih, hsplit, List.nodup_cons, List.mem_cons, forall_eq_or_imp, hm,
        not_false_eq_true, true_and]
      constructor
      · rintro ⟨hn, hs⟩
        exact ⟨⟨fun hk => (hs key hk).2 rfl, hn⟩, fun k hk => (hs k hk).1⟩
      · rintro ⟨⟨hk, hn⟩, hs⟩
        exact ⟨hn, fun k hr => ⟨hs k hr, fun he => hk (he ▸ hr)⟩⟩

theorem problem?_eq_none_iff (source : List Char) (m : Manifest) :
    problem? source m = none ↔
      (m.declarations.map Declaration.key).Nodup ∧ ∀ r ∈ m.replacements, r.pattern ≠ "" := by
  have hfirst := firstRepeat?_eq_none_iff [] (m.declarations.map Declaration.key)
  simp only [List.not_mem_nil, not_false_eq_true, implies_true, and_true] at hfirst
  rw [← hfirst]
  unfold problem?
  cases firstRepeat? [] (m.declarations.map Declaration.key) <;> simp

/-- A manifest that was read has no problem left. -/
theorem problem?_of_parse {source : String} {m : Manifest} (h : parse source = .ok m) :
    problem? source.toList m = none := by
  unfold parse at h
  split at h
  · cases h
  · split at h
    · cases h
    · dsimp only at h
      split at h
      · cases h
      · rename_i hp
        cases h
        exact hp

/-- A manifest that was read gives a document with its declarations and its indentation, and with
its replacements as rules. -/
theorem exists_document_of_parse {source : String} {m : Manifest} (h : parse source = .ok m) :
    ∃ doc, m.toDocument = .ok doc ∧ doc.toList = m.declarations ∧
      doc.formatter = .braces m.indent ∧
      doc.rules =
        ⟨OrderedMap.insertAll {} (m.replacements.map fun r => (r.pattern, r.replacement))⟩ := by
  obtain ⟨hn, hp⟩ := (problem?_eq_none_iff source.toList m).mp (problem?_of_parse h)
  refine ⟨_, toDocument_eq m hn hp, ?_, rfl, rfl⟩
  simp [Document.toList, OrderedMap.values, Function.comp_def]

/-- A manifest that was read gives a document with the same declarations in the same order, the
indentation of the manifest, and one rule for each pattern, in the order in which the patterns first
occur and with the replacement each was last given. -/
theorem toDocument_of_parse {source : String} {m : Manifest} (h : parse source = .ok m) :
    ∃ doc, m.toDocument = .ok doc ∧ doc.toList = m.declarations ∧
      doc.formatter = .braces m.indent ∧
      doc.rules.toList.map Prod.fst = (m.replacements.map Replacement.pattern).eraseDups ∧
      ∀ rule ∈ doc.rules.toList,
        ((m.replacements.filter (·.pattern = rule.1)).getLast?).map Replacement.replacement =
          some rule.2 := by
  obtain ⟨doc, hdoc, hlist, hformatter, hrules⟩ := exists_document_of_parse h
  refine ⟨doc, hdoc, hlist, hformatter, ?_, fun rule hr => ?_⟩
  · rw [hrules]
    have hk := OrderedMap.keys_insertAll (m.replacements.map fun r => (r.pattern, r.replacement))
    simpa [OrderedMap.keys, Rules.toList, Function.comp_def] using hk
  · rw [hrules] at hr
    have hl := OrderedMap.lastValue?_of_mem_insertAll hr
    simpa [OrderedMap.lastValue?, List.filter_map, List.getLast?_map, Function.comp_def] using hl

/-- A source with one name for two kinds, and a pattern that is given twice. -/
def patternTwice : String :=
  "declarations=[\x7bkind='library',name='L'\x7d,\x7bkind='struct',name='L'\x7d]\n" ++
    "format.indent='tab'\nreplacements=[['a','b'],['c','d'],['a','e']]"

def patternTwiceManifest : Manifest where
  indent := .tab
  declarations := [.container { name := "L", kind := .library }, .struct { name := "L" }]
  replacements := [⟨"a", "b"⟩, ⟨"c", "d"⟩, ⟨"a", "e"⟩]

theorem parse_patternTwice : parse patternTwice = .ok patternTwiceManifest := by
  have h : (parse patternTwice).toOption = some patternTwiceManifest := by decide +kernel
  cases hp : parse patternTwice with
  | error problem => simp [hp, Except.toOption] at h
  | ok m => simpa [hp, Except.toOption] using h

/-- The second replacement of `a` takes the place of the first, before the rule for `c`. -/
theorem patternTwice_toDocument :
    parse patternTwice = .ok patternTwiceManifest ∧
      ∃ doc, patternTwiceManifest.toDocument = .ok doc ∧
        doc.toList = patternTwiceManifest.declarations ∧ doc.formatter = .braces .tab ∧
        doc.rules.toList.map Prod.fst = ["a", "c"] := by
  obtain ⟨doc, hd, hl, hf, hr, -⟩ := toDocument_of_parse parse_patternTwice
  exact ⟨parse_patternTwice, doc, hd, hl, hf, hr.trans (by decide)⟩

end Manifest

end SoliditySource
