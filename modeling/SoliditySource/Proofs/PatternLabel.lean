import SoliditySource.Proofs.KindLabel

/-! Where the label of an empty pattern points. The pattern is looked for in the whole source and not
in the replacement it belongs to, so the label lies in the replacement exactly when nothing before it
reads like an empty text being given, and something in it does. The two quotes that open a long text
are enough to lead the label astray. -/
namespace SoliditySource.Manifest

def Span.replacementHeader : List Char := "[[replacements]]".toList

/-- A statement that begins with the text of the header opens the next table of the replacements. -/
example (draft : Toml.Draft) (rest : List Char) :
    Toml.readStatement draft (Span.replacementHeader ++ rest) =
      (do return (← draft.openTables ["replacements"], ← Toml.skipLine rest)) :=
  rfl

/-- The replacement number `index` is the first whose pattern is empty. -/
structure FirstEmpty (replacements : List Replacement) (index : Nat) : Prop where
  found : ∃ r, replacements[index]? = some r ∧ r.pattern = ""
  earlier : ∀ r ∈ replacements.take index, r.pattern ≠ ""

theorem exists_firstEmpty {replacements : List Replacement}
    (h : ∃ r ∈ replacements, r.pattern = "") : ∃ index, FirstEmpty replacements index := by
  obtain ⟨r, hr, hempty⟩ := h
  have hlt : replacements.findIdx (·.pattern = "") < replacements.length :=
    List.findIdx_lt_length_of_exists ⟨r, hr, by simpa using hempty⟩
  refine ⟨_, ⟨_, List.getElem?_eq_getElem hlt, ?_⟩, fun r hr => ?_⟩
  · exact of_decide_eq_true (List.findIdx_getElem (w := hlt))
  · simpa using List.false_of_mem_take_findIdx hr

section

variable {source : String} {sections : Sections} {label : Option Span}

/-- An empty pattern is that of a replacement, and the label is looked for in the whole source. -/
theorem firstEmpty_of_parse (hs : Sections.parse source = .ok sections)
    (hfail : parse source = .error (.invalid .emptyPattern label)) :
    ∃ index, FirstEmpty sections.replacements index ∧
      label = Span.assignment? source.toList "from".toList [] := by
  cases answers_of_parse hs hfail with
  | table first =>
    obtain ⟨index, table, -, hproblem, -⟩ := first
    cases hproblem
  | emptyPattern reads distinct empty =>
    obtain ⟨index, hindex⟩ := exists_firstEmpty empty
    exact ⟨index, hindex, rfl⟩

theorem FirstEmpty.lt_length {replacements : List Replacement} {index : Nat}
    (h : FirstEmpty replacements index) : index < replacements.length := by
  obtain ⟨r, hat, -⟩ := h.found
  exact (List.getElem?_eq_some_iff.mp hat).1

/-- If an empty pattern has a label, the label lies in the first replacement with an empty pattern
exactly when the source reads as if an empty text was given to `from` there and nowhere before. -/
theorem emptyPattern_label_within_iff {span : Span} (hs : Sections.parse source = .ok sections)
    (hmarked : MarkedBy Span.replacementHeader source sections.replacements.length)
    (hfail : parse source = .error (.invalid .emptyPattern (some span))) :
    ∃ index region, FirstEmpty sections.replacements index ∧
      Span.region? Span.replacementHeader source.toList index = some region ∧
      (span.Within region ↔
        region.ComesFirst (Span.assignments source.toList "from".toList [])) := by
  obtain ⟨index, hindex, hlabel⟩ := firstEmpty_of_parse hs hfail
  obtain ⟨region, hregion⟩ := hmarked.exists_region hindex.lt_length
  exact ⟨index, region, hindex, hregion, Span.within_iff_comesFirst hlabel.symm region⟩

end

/-- The sections of a source without declarations, and the problem with its patterns, can be
computed. -/
theorem exists_sections_of_replacements (source : String) (replacements : List Replacement)
    (h : (Sections.parse source).toOption.map
      (fun sections => (sections.declarations.length, sections.replacements)) =
        some (0, replacements))
    (hempty : ∃ r ∈ replacements, r.pattern = "") :
    ∃ sections, Sections.parse source = .ok sections ∧ sections.replacements = replacements ∧
      parse source =
        .error (.invalid .emptyPattern (Span.assignment? source.toList "from".toList [])) := by
  cases hs : Sections.parse source with
  | error mismatch => simp [hs, Except.toOption] at h
  | ok sections =>
    obtain ⟨hdeclarations, rfl⟩ :
        sections.declarations = [] ∧ sections.replacements = replacements := by
      simpa [hs, Except.toOption] using h
    have reads : List.Forall₂ Reads sections.declarations [] := by
      rw [hdeclarations]
      exact .nil
    exact ⟨sections, rfl, rfl, Answers.parse_eq hs (.emptyPattern reads List.nodup_nil hempty)⟩

/-- The second pattern is empty. -/
def secondEmpty : String :=
  "[[replacements]]\nfrom='a'\nto=''\n[[replacements]]\nfrom=''\nto='x'\n"

theorem emptyPattern_secondEmpty_label :
    ∃ sections, Sections.parse secondEmpty = .ok sections ∧
      MarkedBy Span.replacementHeader secondEmpty sections.replacements.length ∧
      parse secondEmpty = .error (.invalid .emptyPattern (some ⟨55, 0⟩)) ∧
      ∃ index region, FirstEmpty sections.replacements index ∧
        Span.region? Span.replacementHeader secondEmpty.toList index = some region ∧
        (Span.Within ⟨55, 0⟩ region ↔
          region.ComesFirst (Span.assignments secondEmpty.toList "from".toList [])) := by
  obtain ⟨sections, hs, hreplacements, hfail⟩ := exists_sections_of_replacements secondEmpty
    [⟨"a", ""⟩, ⟨"", "x"⟩] (by decide +kernel) (by simp)
  have hlabel : Span.assignment? secondEmpty.toList "from".toList [] = some ⟨55, 0⟩ := by
    decide +kernel
  have hmarked : MarkedBy Span.replacementHeader secondEmpty sections.replacements.length := by
    rw [hreplacements]
    decide +kernel
  rw [hlabel] at hfail
  exact ⟨sections, hs, hmarked, hfail, emptyPattern_label_within_iff hs hmarked hfail⟩

/-- The pattern of the first replacement is a long text and not empty. -/
def longPattern : String :=
  "[[replacements]]\nfrom=\"\"\"a\"\"\"\nto='b'\n[[replacements]]\nfrom=''\nto='c'\n"

theorem assignment?_longPattern :
    Span.assignment? longPattern.toList "from".toList [] = some ⟨23, 0⟩ :=
  Span.assignment?_of_ascending [⟨23, 0⟩, ⟨60, 0⟩] (by decide +kernel) (by decide)

/-- The label of the second replacement points at the pattern of the first, which is not empty. -/
theorem longPattern_label_astray :
    ∃ sections region, Sections.parse longPattern = .ok sections ∧
      MarkedBy Span.replacementHeader longPattern sections.replacements.length ∧
      FirstEmpty sections.replacements 1 ∧
      Span.region? Span.replacementHeader longPattern.toList 1 = some region ∧
      parse longPattern = .error (.invalid .emptyPattern (some ⟨23, 0⟩)) ∧
      ¬Span.Within ⟨23, 0⟩ region := by
  obtain ⟨sections, hs, hreplacements, hfail⟩ := exists_sections_of_replacements longPattern
    [⟨"a", "b"⟩, ⟨"", "c"⟩] (by decide +kernel) (by simp)
  rw [assignment?_longPattern] at hfail
  refine ⟨sections, ⟨37, 32⟩, hs, ?_, ?_, by decide +kernel, hfail, by decide⟩
  · rw [hreplacements]
    decide +kernel
  · rw [hreplacements]
    exact ⟨⟨_, rfl, rfl⟩, by simp⟩

end SoliditySource.Manifest
