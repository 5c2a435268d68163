import SoliditySource.Proofs.FirstProblem
import SoliditySource.Proofs.SpanSearch

/-! Where the labels of a repeated declaration point. The name is looked for in the region of each of
the two declarations, so both labels lie in their own region, and since regions follow each other,
the labels do so too. -/
namespace SoliditySource.Manifest

namespace Span

/-- The place lies in the region and begins before its end. -/
def Inside (place region : Span) : Prop :=
  place.Within region ∧ place.offset < region.offset + region.length

/-- The first place begins and ends before the second begins. -/
def Precedes (first second : Span) : Prop :=
  first.offset < second.offset ∧ first.offset + first.length ≤ second.offset

section

variable {source key value : List Char} {index : Nat}

theorem inside_of_within {place region : Span} (h : place.Within region) (hpos : 0 < place.length) :
    place.Inside region := by
  have hend := h.2
  exact ⟨h, by omega⟩

/-- What lies in a region precedes what lies in a region that begins where the first one has ended. -/
theorem Inside.precedes {a b first second : Span} (hfirst : first.Inside a)
    (hsecond : second.Inside b) (hle : a.offset + a.length ≤ b.offset) : first.Precedes second := by
  have hend := hfirst.1.2
  have hlt := hfirst.2
  have hbegin := hsecond.1.1
  exact ⟨by omega, by omega⟩

/-- A place found in a part of the source, counted from the beginning of the source. -/
theorem shift_of_mem_assignments {start size : Nat} {place : Span}
    (h : place ∈ assignments ((source.drop start).take size) key value) :
    Covers ⟨Text.byteLength (source.take start) + place.offset, place.length⟩ source value ∧
      Inside ⟨Text.byteLength (source.take start) + place.offset, place.length⟩
        (ofChars source start size) := by
  obtain ⟨before, mark, after, hpart, rfl⟩ := exists_of_mem_assignments h
  refine ⟨⟨source.take start ++ before, mark :: after ++ (source.drop start).drop size, ?_, ?_⟩, ?_⟩
  · calc source = source.take start ++ ((source.drop start).take size ++
          (source.drop start).drop size) := by rw [List.take_append_drop, List.take_append_drop]
      _ = _ := by rw [hpart]; simp only [List.append_assoc]
  · rw [Text.byteLength_append]
  · -- The quote behind the text belongs to the part, so the place begins before the part ends.
    have hmark : 0 < Text.byteLength (mark :: after) :=
      Nat.lt_of_lt_of_le mark.utf8Size_pos (Nat.le_add_right _ _)
    have hsize := congrArg Text.byteLength hpart
    rw [Text.byteLength_append, Text.byteLength_append] at hsize
    simp only [Inside, Within, ofChars]
    omega

theorem header_inside_region {header region : Span} (hheader : header? source index = some header)
    (hregion : region? declarationHeader source index = some region) :
    header.Covers source declarationHeader ∧ header.Inside region := by
  obtain ⟨start, hstart, rfl⟩ := Option.map_eq_some_iff.mp hheader
  have hcovers := covers_header hstart
  refine ⟨hcovers, inside_of_within (header_within_region hheader hregion) ?_⟩
  obtain ⟨before, after, -, hplace⟩ := hcovers
  rw [hplace]
  exact (by decide : 0 < Text.byteLength declarationHeader)

/-- What is found for a declaration lies in its region, and is the text or else the header. -/
theorem inside_of_declarationAssignment? {place : Span}
    (h : declarationAssignment? source index key value = some place) :
    ∃ region, region? declarationHeader source index = some region ∧ place.Inside region ∧
      (place.Covers source value ∨
        header? source index = some place ∧ place.Covers source declarationHeader) := by
  unfold declarationAssignment? at h
  cases hstart : (Text.occurrences declarationHeader source)[index]? with
  | none => simp [hstart] at h
  | some start =>
    simp only [hstart, List.drop_take] at h
    have hregion : region? declarationHeader source index = some (ofChars source start
        ((Text.occurrences declarationHeader source)[index + 1]?.getD source.length - start)) := by
      rw [region?, hstart, Option.map_some]
    refine ⟨_, hregion, ?_⟩
    split at h
    · next span hfound =>
      obtain rfl := Option.some.inj h
      obtain ⟨hcovers, hinside⟩ := shift_of_mem_assignments (offset_le_of_assignment? hfound).1
      exact ⟨hinside, .inl hcovers⟩
    · obtain ⟨hcovers, hinside⟩ := header_inside_region h hregion
      exact ⟨hinside, .inr ⟨h, hcovers⟩⟩

/-- Something is found for every declaration that has a header. -/
theorem declarationAssignment?_isSome_iff (source : List Char) (index : Nat)
    (key value : List Char) :
    (declarationAssignment? source index key value).isSome = true ↔
      index < (Text.occurrences declarationHeader source).length := by
  unfold declarationAssignment?
  cases hstart : (Text.occurrences declarationHeader source)[index]? with
  | none =>
    simp only [hstart, Option.isSome_none, Bool.false_eq_true, false_iff]
    simpa using hstart
  | some start =>
    obtain ⟨hlt, -⟩ := List.getElem?_eq_some_iff.mp hstart
    refine iff_of_true ?_ hlt
    simp only [hstart]
    split
    · rfl
    · simp [header?, hstart]

/-- What is found for a declaration comes with, and after, what is found for an earlier one. -/
theorem exists_precedes_of_declarationAssignment? {i j : Nat} (hlt : i < j) {second : Span}
    (h : declarationAssignment? source j key value = some second) :
    ∃ first, declarationAssignment? source i key value = some first ∧ first.Precedes second := by
  have hj := (declarationAssignment?_isSome_iff source j key value).mp (by rw [h]; rfl)
  obtain ⟨first, hfirst⟩ := Option.isSome_iff_exists.mp
    ((declarationAssignment?_isSome_iff source i key value).mpr (Nat.lt_trans hlt hj))
  obtain ⟨a, ha, hinside, -⟩ := inside_of_declarationAssignment? hfirst
  obtain ⟨b, hb, hinside', -⟩ := inside_of_declarationAssignment? h
  exact ⟨first, hfirst, hinside.precedes hinside' (region_end_le ha hb hlt)⟩

end

end Span

/-- The labels of a repeated key are looked for in the two declarations that have the key. -/
theorem exists_labels_of_duplicate {source : String} {key : Key} {first second : Option Span}
    (h : parse source = .error (.duplicate key first second)) :
    ∃ i j, i < j ∧
      first = Span.declarationAssignment? source.toList i "name".toList key.name.toList ∧
      second = Span.declarationAssignment? source.toList j "name".toList key.name.toList := by
  cases hs : Sections.parse source with
  | error mismatch => cases (parse_of_malformed hs).symm.trans h
  | ok sections =>
    cases answers_of_parse hs h with
    | table found =>
      obtain ⟨index, table, -, hproblem, -⟩ := found
      cases hproblem
    | duplicate reads repeats => exact ⟨_, _, repeats.first_lt, rfl, rfl⟩

/-- Where a text is looked for in a declaration, something is found for all earlier declarations as
well; what is found lies in the region of its declaration, between characters, and is the text or
the header. So if a repeated key has its second label, it also has the first, and the first one ends
before the second begins. -/
theorem duplicate_labels_in_order (source : String) :
    (∀ (key value : List Char) (i j : Nat), i < j →
      (Span.declarationAssignment? source.toList j key value).isSome = true →
      (Span.declarationAssignment? source.toList i key value).isSome = true) ∧
    (∀ (key value : List Char) (index : Nat) (place : Span),
      Span.declarationAssignment? source.toList index key value = some place →
      ∃ region, Span.region? Span.declarationHeader source.toList index = some region ∧
        place.Inside region ∧
        (place.Covers source.toList value ∨
          Span.header? source.toList index = some place ∧
            place.Covers source.toList Span.declarationHeader)) ∧
    ∀ (key : Key) (first : Option Span) (second : Span),
      parse source = .error (.duplicate key first (some second)) →
      ∃ place, first = some place ∧ place.Precedes second := by
  refine ⟨fun key value i j hlt h => ?_, fun key value index place h => ?_,
    fun key first second h => ?_⟩
  · obtain ⟨second, hsecond⟩ := Option.isSome_iff_exists.mp h
    obtain ⟨first, hfirst, -⟩ := Span.exists_precedes_of_declarationAssignment? hlt hsecond
    rw [hfirst]
    rfl
  · exact Span.inside_of_declarationAssignment? h
  · obtain ⟨i, j, hlt, rfl, hsecond⟩ := exists_labels_of_duplicate h
    exact Span.exists_precedes_of_declarationAssignment? hlt hsecond.symm

/-- The name of the first declaration is written in a way that is not looked for. -/
def accentedTwice : String :=
  "[[declarations]]\nkind='struct'\nname  = 'é'\n[[declarations]]\nkind='struct'\nname='é'\n"

theorem parse_accentedTwice :
    parse accentedTwice = .error (.duplicate ⟨.struct, "é"⟩ (some ⟨0, 16⟩) (some ⟨81, 2⟩)) :=
  parse_of_problemOf? (by decide +kernel)

/-- The first label is the header, and the second one covers the two bytes of the name. -/
theorem accentedTwice_labels_in_order :
    parse accentedTwice = .error (.duplicate ⟨.struct, "é"⟩ (some ⟨0, 16⟩) (some ⟨81, 2⟩)) ∧
      Span.Precedes ⟨0, 16⟩ ⟨81, 2⟩ := by
  obtain ⟨place, hplace, hprecedes⟩ :=
    (duplicate_labels_in_order accentedTwice).2.2 _ _ _ parse_accentedTwice
  obtain rfl := Option.some.inj hplace
  exact ⟨parse_accentedTwice, hprecedes⟩

end SoliditySource.Manifest
