import SoliditySource.Proofs.FirstProblem
import SoliditySource.Proofs.SpanSearch

/-! Where the label of an unknown kind points. The kind is looked for in the whole source and not in
the declaration it belongs to, so the label lies in the declaration exactly when nothing before the
declaration reads like the kind being given, and something in it does; a comment is enough to lead
the label astray. -/
namespace SoliditySource

namespace Toml

/-- What is left of a text where each of its statements begins. -/
def statementTails : Nat → Draft → List Char → List (List Char)
  | 0, _, _ => []
  | fuel + 1, draft, cs =>
    match skipGap false cs with
    | none => []
    | some [] => []
    | some cs =>
      cs :: match readStatement draft cs with
        | none => []
        | some (next, rest) => statementTails fuel next rest

/-- The positions, counted in characters, where the statements of a text begin. -/
def statementStarts (text : String) : List Nat :=
  let cs := dropByteOrderMark text.toList
  (statementTails (cs.length + 1) {} cs).map (text.toList.length - ·.length)

end Toml

namespace Manifest

open Toml (Entries)

/-- The text of the header stands in the source `count` times, and only where it is the header of a
table. -/
structure MarkedBy (header : List Char) (source : String) (count : Nat) : Prop where
  count_eq : (Text.occurrences header source.toList).length = count
  begins : ∀ position ∈ Text.occurrences header source.toList,
    position ∈ Toml.statementStarts source

instance (header : List Char) (source : String) (count : Nat) :
    Decidable (MarkedBy header source count) :=
  decidable_of_iff
    ((Text.occurrences header source.toList).length = count ∧
      ∀ position ∈ Text.occurrences header source.toList, position ∈ Toml.statementStarts source)
    ⟨fun h => ⟨h.1, h.2⟩, fun h => ⟨h.count_eq, h.begins⟩⟩

/-- Every table of a source that is marked by its headers has a region. -/
theorem MarkedBy.exists_region {header : List Char} {source : String} {count index : Nat}
    (h : MarkedBy header source count) (hlt : index < count) :
    ∃ region, Span.region? header source.toList index = some region := by
  rw [← h.count_eq] at hlt
  exact Option.isSome_iff_exists.mp ((Span.region?_isSome_iff header _ index).mpr hlt)

/-- A statement that begins with the text of the header opens the next table of the declarations. -/
example (draft : Toml.Draft) (rest : List Char) :
    Toml.readStatement draft (Span.declarationHeader ++ rest) =
      (do return (← draft.openTables ["declarations"], ← Toml.skipLine rest)) :=
  rfl

/-- The table number `index` is the first that cannot be read, and its kind is the reason. -/
structure UnknownKindAt (tables : List Entries) (index : Nat) (kind : String) : Prop where
  found : ∃ table, tables[index]? = some table ∧ table.lookup "kind" = some (.string kind)
  unknown : Tag.ofKeyword? kind = none
  earlier : ∀ table ∈ tables.take index, ∃ d, Reads table d

section

variable {source : String} {sections : Sections} {kind : String} {label : Option Span}

/-- An unknown kind is that of a table, and the label is looked for in the whole source first. -/
theorem unknownKindAt_of_parse (hs : Sections.parse source = .ok sections)
    (hfail : parse source = .error (.unknownKind kind label)) :
    ∃ index, UnknownKindAt sections.declarations index kind ∧
      label = (Span.assignment? source.toList "kind".toList kind.toList).or
        (Span.header? source.toList index) := by
  cases answers_of_parse hs hfail with
  | table first =>
    obtain ⟨index, table, hat, hproblem, earlier⟩ := first
    rw [Nat.zero_add] at hproblem
    cases hproblem with
    | unknownKind found unknown => exact ⟨index, ⟨⟨table, hat, found⟩, unknown, earlier⟩, rfl⟩

theorem UnknownKindAt.lt_length {tables : List Entries} {index : Nat}
    (h : UnknownKindAt tables index kind) : index < tables.length := by
  obtain ⟨table, hat, -⟩ := h.found
  exact (List.getElem?_eq_some_iff.mp hat).1

/-- The label of an unknown kind is there, and it lies in the declaration with that kind exactly
when the source reads as if the kind was given in the declaration and nowhere before it, or nowhere
at all. -/
theorem unknownKind_label_within_iff (hs : Sections.parse source = .ok sections)
    (hmarked : MarkedBy Span.declarationHeader source sections.declarations.length)
    (hfail : parse source = .error (.unknownKind kind label)) :
    ∃ index region span, UnknownKindAt sections.declarations index kind ∧
      Span.region? Span.declarationHeader source.toList index = some region ∧ label = some span ∧
      (span.Within region ↔
        region.ComesFirst (Span.assignments source.toList "kind".toList kind.toList)) := by
  obtain ⟨index, hat, rfl⟩ := unknownKindAt_of_parse hs hfail
  obtain ⟨region, hregion⟩ := hmarked.exists_region hat.lt_length
  obtain ⟨span, hspan, hwithin⟩ := Span.first_within_iff hregion "kind".toList kind.toList
  exact ⟨index, region, span, hat, hregion, hspan, hwithin⟩

end

/-- The kind of a table, if it is a text. -/
def kindText? (table : Entries) : Option String :=
  match table.lookup "kind" with
  | some (.string kind) => some kind
  | _ => none

/-- Of two tables, the first of another kind, it is the second. -/
theorem UnknownKindAt.eq_one {tables : List Entries} {index : Nat} {first kind : String}
    (h : UnknownKindAt tables index kind) (hkinds : tables.map kindText? = [some first, some kind])
    (hne : first ≠ kind) : index = 1 := by
  obtain ⟨table, htable, hkind⟩ := h.found
  have hget := congrArg (·[index]?) hkinds
  simp only [List.getElem?_map, htable, Option.map_some, kindText?, hkind] at hget
  rcases index with _ | _ | n
  · exact absurd (by simpa using hget.symm) hne
  · rfl
  · simp at hget

/-- The kinds of the declarations can be computed, and say how many headers there are to be. -/
theorem exists_declarations_marked (source : String) (kinds : List (Option String))
    (hkinds : (Sections.parse source).toOption.map (·.declarations.map kindText?) = some kinds)
    (hmarked : MarkedBy Span.declarationHeader source kinds.length) :
    ∃ sections, Sections.parse source = .ok sections ∧
      sections.declarations.map kindText? = kinds ∧
      MarkedBy Span.declarationHeader source sections.declarations.length := by
  cases hs : Sections.parse source with
  | error mismatch => simp [hs, Except.toOption] at hkinds
  | ok sections =>
    have hmap : sections.declarations.map kindText? = kinds := by
      simpa [hs, Except.toOption] using hkinds
    rw [← hmap, List.length_map] at hmarked
    exact ⟨sections, rfl, hmap, hmarked⟩

/-- The first declaration can be read, and the second has an unknown kind. -/
def secondUnknown : String :=
  "[[declarations]]\nkind='struct'\nname='S'\n[[declarations]]\nkind='event'\nname='E'\n"

theorem parse_secondUnknown :
    parse secondUnknown = .error (.unknownKind "event" (some ⟨63, 5⟩)) :=
  parse_of_problemOf? (by decide +kernel)

/-- The label lies in the second declaration, so nothing in the first reads like the kind. -/
theorem unknownKind_secondUnknown_label :
    ∃ sections, Sections.parse secondUnknown = .ok sections ∧
      MarkedBy Span.declarationHeader secondUnknown sections.declarations.length ∧
      parse secondUnknown = .error (.unknownKind "event" (some ⟨63, 5⟩)) ∧
      UnknownKindAt sections.declarations 1 "event" ∧
      Span.region? Span.declarationHeader secondUnknown.toList 1 = some ⟨40, 39⟩ ∧
      Span.Within ⟨63, 5⟩ ⟨40, 39⟩ ∧
      Span.ComesFirst ⟨40, 39⟩
        (Span.assignments secondUnknown.toList "kind".toList "event".toList) := by
  obtain ⟨sections, hs, hkinds, hmarked⟩ := exists_declarations_marked secondUnknown
    [some "struct", some "event"] (by decide +kernel) (by decide +kernel)
  obtain ⟨index, region, span, hat, hregion, hspan, hwithin⟩ :=
    unknownKind_label_within_iff hs hmarked parse_secondUnknown
  obtain rfl := hat.eq_one hkinds (by decide)
  have hsecond : Span.region? Span.declarationHeader secondUnknown.toList 1 = some ⟨40, 39⟩ := by
    decide +kernel
  obtain rfl := Option.some.inj (hregion.symm.trans hsecond)
  obtain rfl := Option.some.inj hspan
  exact ⟨sections, hs, hmarked, parse_secondUnknown, hat, hsecond, by decide,
    hwithin.mp (by decide)⟩

/-- The first declaration can be read, and a comment in it mentions the kind of the second. -/
def mentionedKind : String :=
  "[[declarations]]\nkind='struct'\nname='S' # not kind='event'\n" ++
    "[[declarations]]\nkind='event'\nname='E'\n"

theorem assignment?_mentionedKind :
    Span.assignment? mentionedKind.toList "kind".toList "event".toList = some ⟨52, 5⟩ :=
  Span.assignment?_of_ascending [⟨52, 5⟩, ⟨82, 5⟩] (by decide +kernel) (by decide)

theorem exists_parse_mentionedKind :
    ∃ label, parse mentionedKind = .error (.unknownKind "event" label) := by
  -- The label is not computed here: the kernel cannot sort the places.
  have hkind : (match parse mentionedKind with
      | .error (.unknownKind kind _) => some kind
      | _ => none) = some "event" := by
    decide +kernel
  split at hkind
  · next kind label hfail =>
    obtain rfl := Option.some.inj hkind
    exact ⟨label, hfail⟩
  · cases hkind

/-- The label of the second declaration points into the comment of the first. -/
theorem mentionedKind_label_astray :
    ∃ sections region, Sections.parse mentionedKind = .ok sections ∧
      MarkedBy Span.declarationHeader mentionedKind sections.declarations.length ∧
      UnknownKindAt sections.declarations 1 "event" ∧
      Span.region? Span.declarationHeader mentionedKind.toList 1 = some region ∧
      parse mentionedKind = .error (.unknownKind "event" (some ⟨52, 5⟩)) ∧
      ¬Span.Within ⟨52, 5⟩ region := by
  obtain ⟨sections, hs, hkinds, hmarked⟩ := exists_declarations_marked mentionedKind
    [some "struct", some "event"] (by decide +kernel) (by decide +kernel)
  obtain ⟨label, hfail⟩ := exists_parse_mentionedKind
  obtain ⟨index, hat, hlabel⟩ := unknownKindAt_of_parse hs hfail
  obtain rfl := hat.eq_one hkinds (by decide)
  rw [assignment?_mentionedKind, Option.some_or] at hlabel
  subst hlabel
  exact ⟨sections, ⟨59, 39⟩, hs, hmarked, hat, by decide +kernel, hfail, by decide⟩

end Manifest

end SoliditySource
