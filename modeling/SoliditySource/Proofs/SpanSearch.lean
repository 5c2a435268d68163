import SoliditySource.Manifest.Span
import SoliditySource.Proofs.TextSearch

/-! The places that are found in the source of a manifest. Every place where a text is given to a
key covers that text, the first one has the least offset, and a header lies in the region of its
declaration, which ends where the next header begins. Regions follow each other in the order of
their headers. -/
namespace SoliditySource.Manifest.Span

/-- The place lies in the region. -/
def Within (place region : Span) : Prop :=
  region.offset ≤ place.offset ∧ place.offset + place.length ≤ region.offset + region.length

instance (place region : Span) : Decidable (place.Within region) :=
  inferInstanceAs (Decidable (_ ∧ _))

theorem ofChars_end (source : List Char) (first count : Nat) :
    (ofChars source first count).offset + (ofChars source first count).length =
      Text.byteLength (source.take (first + count)) :=
  (Text.byteLength_take_add source first count).symm

/-- Ranges of characters lie in each other as their ends do. -/
theorem ofChars_within (source : List Char) {first count start size : Nat} (hstart : start ≤ first)
    (hend : first + count ≤ start + size) :
    (ofChars source first count).Within (ofChars source start size) := by
  refine ⟨Text.byteLength_take_mono source hstart, ?_⟩
  rw [ofChars_end, ofChars_end]
  exact Text.byteLength_take_mono source hend

/-- The place begins and ends between characters of the source, and `text` stands there. -/
def Covers (place : Span) (source text : List Char) : Prop :=
  ∃ before after, source = before ++ text ++ after ∧
    place = ⟨Text.byteLength before, Text.byteLength text⟩

/-! Regions. -/

/-- The part of the source from the occurrence number `index` of the header to the next one, or to
the end of the source. -/
def region? (header source : List Char) (index : Nat) : Option Span :=
  let headers := Text.occurrences header source
  headers[index]?.map fun start =>
    ofChars source start (headers[index + 1]?.getD source.length - start)

theorem region?_isSome_iff (header source : List Char) (index : Nat) :
    (region? header source index).isSome = true ↔
      index < (Text.occurrences header source).length := by
  simp [region?]

section

variable {header source : List Char} {index start : Nat}

/-- A header ends before the next one begins, and before the source ends. -/
theorem header_end_le (hstart : (Text.occurrences header source)[index]? = some start) :
    start + header.length ≤
      (Text.occurrences header source)[index + 1]?.getD source.length := by
  cases hnext : (Text.occurrences header source)[index + 1]? with
  | none => exact Text.add_length_le_length (List.mem_of_getElem? hstart)
  | some next => exact Text.add_length_le_of_occurrences hstart hnext (Nat.lt_succ_self index)

theorem covers_header (hstart : (Text.occurrences header source)[index]? = some start) :
    (ofChars source start header.length).Covers source header := by
  obtain ⟨rest, hrest⟩ := (Text.of_mem_occurrences (List.mem_of_getElem? hstart)).2
  refine ⟨source.take start, rest, ?_, by rw [ofChars, ← hrest, List.take_left]⟩
  rw [List.append_assoc, hrest, List.take_append_drop]

theorem region_end_le {i j : Nat} {a b : Span} (hi : region? header source i = some a)
    (hj : region? header source j = some b) (hlt : i < j) : a.offset + a.length ≤ b.offset := by
  obtain ⟨start, hstart, rfl⟩ := Option.map_eq_some_iff.mp hi
  obtain ⟨later, hlater, rfl⟩ := Option.map_eq_some_iff.mp hj
  obtain ⟨hj', -⟩ := List.getElem?_eq_some_iff.mp hlater
  -- The region ends with the next header, which is the later one or stands before it.
  have hnext := List.getElem?_eq_getElem (Nat.lt_of_le_of_lt (Nat.succ_le_of_lt hlt) hj')
  have hle := Text.le_of_occurrences hstart hnext (Nat.le_succ i)
  rw [hnext, Option.getD_some, ofChars_end, Nat.add_sub_cancel' (by omega)]
  exact Text.byteLength_take_mono source (Text.le_of_occurrences hnext hlater (by omega))

end

/-! Declarations. -/

theorem header?_isSome_iff (source : List Char) (index : Nat) :
    (header? source index).isSome = true ↔
      index < (Text.occurrences declarationHeader source).length := by
  simp [header?]

theorem header_within_region {source : List Char} {index : Nat} {header region : Span}
    (hheader : header? source index = some header)
    (hregion : region? declarationHeader source index = some region) : header.Within region := by
  obtain ⟨start, hstart, rfl⟩ := Option.map_eq_some_iff.mp hheader
  rw [region?, hstart, Option.map_some] at hregion
  obtain rfl := Option.some.inj hregion
  have hend := header_end_le hstart
  exact ofChars_within source (Nat.le_refl start) (by omega)

/-! Texts given to keys. -/

/-- How it is written that a key has a text: with a blank on each side of the sign or with none, and
in double or in single quotes. -/
structure Style where
  spaced : Bool
  double : Bool
deriving DecidableEq

namespace Style

def gap (style : Style) : List Char :=
  if style.spaced then [' '] else []

def quote (style : Style) : Char :=
  if style.double then '"' else '\''

/-- What stands between the key and the text. -/
def opening (style : Style) : List Char :=
  style.gap ++ ['='] ++ style.gap ++ [style.quote]

def spelling (style : Style) (key value : List Char) : List Char :=
  key ++ style.opening ++ value ++ [style.quote]

theorem spelling_ne_nil (style : Style) (key value : List Char) :
    style.spelling key value ≠ [] := by
  simp [spelling]

def all : List Style :=
  [⟨true, true⟩, ⟨false, true⟩, ⟨true, false⟩, ⟨false, false⟩]

theorem mem_all (style : Style) : style ∈ all := by
  rcases style with ⟨_ | _, _ | _⟩ <;> decide

theorem spellings_eq (key value : List Char) :
    spellings key value = all.map fun style => style.spelling key value := by
  simp [spellings, all, spelling, opening, gap, quote]

/-- A text ends in the opening of one style at most. -/
theorem opening_inj {style style' : Style} {a b : List Char}
    (h : a ++ style.opening = b ++ style'.opening) : style = style' := by
  have hreverse := congrArg List.reverse h
  rcases style with ⟨_ | _, _ | _⟩ <;> rcases style' with ⟨_ | _, _ | _⟩ <;>
    simp [opening, gap, quote] at hreverse ⊢

end Style

/-- Between `before` and `after` it is written that `key` has the text `value`, and the key does not
go on from the last character before it. -/
structure WrittenAt (source key value : List Char) (style : Style) (before after : List Char) :
    Prop where
  eq : source = before ++ key ++ style.opening ++ value ++ [style.quote] ++ after
  start : ∀ c ∈ before.getLast?, Text.isAlphanumeric c = false ∧ c ≠ '_' ∧ c ≠ '-'

/-- The text is given to the key somewhere in the source, and the place is that of the text. -/
def AssignedAt (source key value : List Char) (place : Span) : Prop :=
  ∃ style before after, WrittenAt source key value style before after ∧
    place = ⟨Text.byteLength (before ++ key ++ style.opening), Text.byteLength value⟩

section

variable {source key value : List Char} {style : Style} {place : Span}

theorem atKeyStart_iff {position : Nat} : atKeyStart source position = true ↔
    ∀ c ∈ (source.take position).getLast?,
      Text.isAlphanumeric c = false ∧ c ≠ '_' ∧ c ≠ '-' := by
  unfold atKeyStart
  cases (source.take position).getLast? with
  | none => simp
  | some c => simp [and_assoc]

/-- What the search looks for at a position is there exactly when an assignment is written there. -/
theorem exists_writtenAt_iff {position : Nat} :
    (∃ after, WrittenAt source key value style (source.take position) after) ↔
      style.spelling key value <+: source.drop position ∧ atKeyStart source position = true := by
  rw [atKeyStart_iff]
  constructor
  · rintro ⟨after, heq, hstart⟩
    refine ⟨⟨after, ?_⟩, hstart⟩
    have hdrop := heq.symm.trans (List.take_append_drop position source).symm
    simp only [List.append_assoc] at hdrop
    simpa only [Style.spelling, List.append_assoc] using List.append_cancel_left hdrop
  · rintro ⟨⟨after, hafter⟩, hstart⟩
    refine ⟨after, ?_, hstart⟩
    have heq := List.take_append_drop position source
    rw [← hafter] at heq
    simpa only [Style.spelling, List.append_assoc] using heq.symm

theorem WrittenAt.take_eq {before after : List Char}
    (h : WrittenAt source key value style before after) : source.take before.length = before := by
  rw [h.eq]
  simp only [List.append_assoc, List.take_left]

/-- The position that is counted back from the end of the spelling is that of the text. -/
theorem WrittenAt.ofChars_eq {before after : List Char}
    (h : WrittenAt source key value style before after) :
    ofChars source (before.length + (style.spelling key value).length - value.length - 1)
        value.length =
      ⟨Text.byteLength (before ++ key ++ style.opening), Text.byteLength value⟩ := by
  have hfirst : before.length + (style.spelling key value).length - value.length - 1 =
      (before ++ key ++ style.opening).length := by
    simp only [Style.spelling, List.length_append, List.length_singleton]
    omega
  have hsource : source =
      (before ++ key ++ style.opening) ++ (value ++ ([style.quote] ++ after)) := by
    rw [h.eq]
    simp only [List.append_assoc]
  rw [hfirst, ofChars, hsource, List.take_left, List.drop_left, List.take_left]

/-- The places that are found for one style. -/
def found (source key value : List Char) (style : Style) : List Span :=
  ((Text.occurrences (style.spelling key value) source).filter (atKeyStart source)).map
    fun position =>
      ofChars source (position + (style.spelling key value).length - value.length - 1) value.length

theorem assignments_perm (source key value : List Char) :
    (assignments source key value).Perm (Style.all.flatMap (found source key value)) := by
  rw [assignments, Style.spellings_eq, List.flatMap_map]
  exact List.mergeSort_perm _ _

theorem mem_assignments_iff :
    place ∈ assignments source key value ↔ ∃ style, place ∈ found source key value style := by
  rw [(assignments_perm source key value).mem_iff, List.mem_flatMap]
  simp only [Style.mem_all, true_and]

/-- Each position that is kept is the beginning of an assignment. -/
theorem exists_of_mem_positions {position : Nat}
    (h : position ∈ (Text.occurrences (style.spelling key value) source).filter
      (atKeyStart source)) :
    (source.take position).length = position ∧
      ∃ after, WrittenAt source key value style (source.take position) after := by
  obtain ⟨hoccurs, hstart⟩ := List.mem_filter.mp h
  obtain ⟨hlt, hspelling⟩ := Text.of_mem_occurrences hoccurs
  exact ⟨List.length_take_of_le (Nat.le_of_lt hlt), exists_writtenAt_iff.mpr ⟨hspelling, hstart⟩⟩

theorem exists_of_mem_found (h : place ∈ found source key value style) :
    ∃ before after, WrittenAt source key value style before after ∧
      place = ⟨Text.byteLength (before ++ key ++ style.opening), Text.byteLength value⟩ := by
  obtain ⟨position, hposition, rfl⟩ := List.mem_map.mp h
  obtain ⟨hlength, after, hwritten⟩ := exists_of_mem_positions hposition
  refine ⟨_, after, hwritten, ?_⟩
  rw [← hwritten.ofChars_eq, hlength]

/-- A text is given to the key at every place that is found. -/
theorem assignedAt_of_mem_assignments (h : place ∈ assignments source key value) :
    AssignedAt source key value place := by
  obtain ⟨style, hstyle⟩ := mem_assignments_iff.mp h
  exact ⟨style, exists_of_mem_found hstyle⟩

/-- A place where a text is given to a key covers the text, and a quote follows it. -/
theorem AssignedAt.exists_quote (h : AssignedAt source key value place) :
    ∃ before mark after, source = before ++ value ++ mark :: after ∧
      place = ⟨Text.byteLength before, Text.byteLength value⟩ := by
  obtain ⟨style, before, after, hwritten, rfl⟩ := h
  refine ⟨before ++ key ++ style.opening, style.quote, after, ?_, rfl⟩
  rw [hwritten.eq, List.append_assoc _ [style.quote], List.singleton_append]

/-- A place that is found covers the text, and a quote follows it. -/
theorem exists_of_mem_assignments (h : place ∈ assignments source key value) :
    ∃ before mark after, source = before ++ value ++ mark :: after ∧
      place = ⟨Text.byteLength before, Text.byteLength value⟩ :=
  (assignedAt_of_mem_assignments h).exists_quote

end

theorem length_of_mem_assignments {source key value : List Char} {place : Span}
    (h : place ∈ assignments source key value) : place.length = Text.byteLength value := by
  obtain ⟨before, mark, after, -, rfl⟩ := exists_of_mem_assignments h
  rfl

theorem assignment?_eq_none_iff {source key value : List Char} :
    assignment? source key value = none ↔ assignments source key value = [] :=
  List.head?_eq_none_iff

/-- Places that are found in order need not be sorted. -/
theorem assignment?_of_ascending {source key value : List Char} (places : List Span)
    (h : ((spellings key value).flatMap fun spelling =>
      ((Text.occurrences spelling source).filter (atKeyStart source)).map fun position =>
        ofChars source (position + spelling.length - value.length - 1) value.length) = places)
    (hsorted : places.Pairwise fun a b => decide (a.offset ≤ b.offset) = true) :
    assignment? source key value = places.head? := by
  rw [assignment?, assignments, h, List.mergeSort_of_pairwise hsorted]

theorem assignments_sorted (source key value : List Char) :
    (assignments source key value).Pairwise fun a b => a.offset ≤ b.offset := by
  have hsorted : (assignments source key value).Pairwise
      fun a b => decide (a.offset ≤ b.offset) = true := by
    refine List.pairwise_mergeSort (fun a b c hab hbc => ?_) (fun a b => ?_) _
    · simp only [decide_eq_true_eq] at hab hbc ⊢
      exact Nat.le_trans hab hbc
    · simpa using Nat.le_total a.offset b.offset
  simpa only [decide_eq_true_eq] using hsorted

/-- The place that is taken is the first. -/
theorem offset_le_of_assignment? {source key value : List Char} {first : Span}
    (h : assignment? source key value = some first) :
    first ∈ assignments source key value ∧
      ∀ place ∈ assignments source key value, first.offset ≤ place.offset := by
  obtain ⟨rest, hrest⟩ := List.head?_eq_some_iff.mp h
  have hsorted := assignments_sorted source key value
  rw [hrest] at hsorted ⊢
  refine ⟨List.mem_cons_self, fun place hplace => ?_⟩
  rcases List.mem_cons.mp hplace with rfl | hplace
  · exact Nat.le_refl _
  · exact List.rel_of_pairwise_cons hsorted hplace

/-- If there are places at all, none begins before the region and one lies in it. -/
def ComesFirst (region : Span) (places : List Span) : Prop :=
  places = [] ∨ (∀ place ∈ places, region.offset ≤ place.offset) ∧
    ∃ place ∈ places, place.Within region

/-- The first place lies in a region exactly when the region comes first among the places. -/
theorem within_iff_comesFirst {source key value : List Char} {first : Span}
    (h : assignment? source key value = some first) (region : Span) :
    first.Within region ↔ region.ComesFirst (assignments source key value) := by
  obtain ⟨hmem, hleast⟩ := offset_le_of_assignment? h
  constructor
  · refine fun hwithin => .inr ⟨fun place hplace => ?_, first, hmem, hwithin⟩
    exact Nat.le_trans hwithin.1 (hleast place hplace)
  · rintro (hnone | ⟨hbefore, place, hplace, hwithin⟩)
    · rw [hnone] at hmem
      cases hmem
    · -- The first place is as long as any other, so it ends no later than the one in the region.
      have hlength := (length_of_mem_assignments hmem).trans
        (length_of_mem_assignments hplace).symm
      have hoffset := hleast place hplace
      have hend := hwithin.2
      exact ⟨hbefore first hmem, by omega⟩

/-- What is found in the whole source, or else the header of a declaration, lies in the declaration
exactly when the declaration comes first among the places. -/
theorem first_within_iff {source : List Char} {index : Nat} {region : Span}
    (hregion : region? declarationHeader source index = some region) (key value : List Char) :
    ∃ span, (assignment? source key value).or (header? source index) = some span ∧
      (span.Within region ↔ region.ComesFirst (assignments source key value)) := by
  cases hfirst : assignment? source key value with
  | none =>
    have hlt := (region?_isSome_iff declarationHeader source index).mp (by rw [hregion]; rfl)
    obtain ⟨header, hheader⟩ :=
      Option.isSome_iff_exists.mp ((header?_isSome_iff source index).mpr hlt)
    refine ⟨header, by rw [Option.none_or, hheader], ?_⟩
    exact iff_of_true (header_within_region hheader hregion)
      (.inl (assignment?_eq_none_iff.mp hfirst))
  | some first => exact ⟨first, rfl, within_iff_comesFirst hfirst region⟩

end SoliditySource.Manifest.Span
