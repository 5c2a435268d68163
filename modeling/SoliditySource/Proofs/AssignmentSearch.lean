import SoliditySource.Proofs.SpanSearch
import SoliditySource.Toml.Parser

/-! The search for the places where a text is given to a key. No place is found twice, so the places
that are found ascend. A spelling of a bare key and a text without the sign cannot overlap itself,
so no assignment is hidden by another one or by a rejected one, and all of them are found. -/
namespace SoliditySource.Manifest.Span

/-- The place begins and ends between characters of the source, and its bytes are those of the
text. -/
structure Selects (place : Span) (source text : List Char) : Prop where
  inBounds : place.offset + place.length ≤ (String.ofList source).utf8ByteSize
  begins : String.Pos.Raw.IsValid (String.ofList source) ⟨place.offset⟩
  ends : String.Pos.Raw.IsValid (String.ofList source) ⟨place.offset + place.length⟩
  bytes : source.utf8Encode.extract place.offset (place.offset + place.length) = text.utf8Encode

theorem isValid_byteLength (before after : List Char) :
    String.Pos.Raw.IsValid (String.ofList (before ++ after)) ⟨Text.byteLength before⟩ := by
  refine String.Pos.Raw.isValid_iff_exists_append.mpr
    ⟨String.ofList before, String.ofList after, String.ofList_append, ?_⟩
  rw [Text.byteLength_eq_utf8ByteSize]
  rfl

theorem extract_utf8Encode (before text after : List Char) :
    (before ++ text ++ after).utf8Encode.extract (Text.byteLength before)
      (Text.byteLength before + Text.byteLength text) = text.utf8Encode := by
  have hbytes : (before ++ text ++ after).utf8Encode =
      before.utf8Encode ++ (text.utf8Encode ++ after.utf8Encode) := by
    rw [List.append_assoc, List.utf8Encode_append, List.utf8Encode_append]
  calc (before ++ text ++ after).utf8Encode.extract (Text.byteLength before)
        (Text.byteLength before + Text.byteLength text)
      = (before.utf8Encode ++ (text.utf8Encode ++ after.utf8Encode)).extract
          (Text.byteLength before + 0) (Text.byteLength before + Text.byteLength text) := by
        rw [hbytes, Nat.add_zero]
    _ = (text.utf8Encode ++ after.utf8Encode).extract 0 (Text.byteLength text) :=
        ByteArray.extract_append_size_add' (Text.size_utf8Encode before).symm
    _ = text.utf8Encode := ByteArray.extract_append_eq_left (Text.size_utf8Encode text).symm

section

variable {source key value : List Char} {style : Style} {place : Span}

theorem Covers.selects {text : List Char} (h : place.Covers source text) :
    place.Selects source text := by
  obtain ⟨before, after, rfl, rfl⟩ := h
  have hends := isValid_byteLength (before ++ text) after
  rw [Text.byteLength_append] at hends
  refine ⟨hends.le_utf8ByteSize, ?_, hends, extract_utf8Encode before text after⟩
  rw [List.append_assoc]
  exact isValid_byteLength before (text ++ after)

theorem AssignedAt.covers (h : AssignedAt source key value place) :
    place.Covers source value := by
  obtain ⟨before, mark, after, hsource, hplace⟩ := h.exists_quote
  exact ⟨before, mark :: after, hsource, hplace⟩

/-! The order of the places. -/

/-- An assignment is determined by where its text begins. -/
theorem WrittenAt.eq_of_byteLength_eq {style' : Style} {before after before' after' : List Char}
    (h : WrittenAt source key value style before after)
    (h' : WrittenAt source key value style' before' after')
    (hoffset : Text.byteLength (before ++ key ++ style.opening) =
      Text.byteLength (before' ++ key ++ style'.opening)) : style = style' ∧ before = before' := by
  have hbegins : before ++ key ++ style.opening <+: source := by
    rw [h.eq]
    simp
  have hbegins' : before' ++ key ++ style'.opening <+: source := by
    rw [h'.eq]
    simp
  have hlead := Text.eq_of_byteLength_eq hbegins hbegins' hoffset
  obtain rfl := Style.opening_inj hlead
  exact ⟨rfl, List.append_cancel_right (List.append_cancel_right hlead)⟩

theorem offset_ne_of_found (source key value : List Char) (style : Style) :
    (found source key value style).Pairwise fun a b => a.offset ≠ b.offset := by
  have hpositions := (Text.pairwise_occurrencesFrom (style.spelling key value) 0 0 source).filter
    (atKeyStart source)
  refine List.pairwise_map.mpr (hpositions.imp_of_mem fun {p q} hp hq hle hoffset => ?_)
  obtain ⟨hlength, after, hwritten⟩ := exists_of_mem_positions hp
  obtain ⟨hlength', after', hwritten'⟩ := exists_of_mem_positions hq
  have hplace := hwritten.ofChars_eq
  have hplace' := hwritten'.ofChars_eq
  rw [hlength] at hplace
  rw [hlength'] at hplace'
  rw [hplace, hplace'] at hoffset
  have hbefore := congrArg List.length (hwritten.eq_of_byteLength_eq hwritten' hoffset).2
  have hpos := List.length_pos_of_ne_nil (style.spelling_ne_nil key value)
  omega

/-- Places of one style differ because occurrences do not overlap, places of different styles
because what stands before the text ends in one opening only. -/
theorem offset_ne_of_styles (source key value : List Char) :
    (Style.all.flatMap (found source key value)).Pairwise fun a b => a.offset ≠ b.offset := by
  refine List.pairwise_flatMap.mpr ⟨fun style _ => offset_ne_of_found source key value style, ?_⟩
  have hall : Style.all.Pairwise (· ≠ ·) := by decide
  refine hall.imp fun hstyle a ha b hb hoffset => hstyle ?_
  obtain ⟨before, after, hwritten, rfl⟩ := exists_of_mem_found ha
  obtain ⟨before', after', hwritten', rfl⟩ := exists_of_mem_found hb
  exact (hwritten.eq_of_byteLength_eq hwritten' hoffset).1

theorem assignments_ascending (source key value : List Char) :
    (assignments source key value).Pairwise fun a b => a.offset < b.offset := by
  have hne : (assignments source key value).Pairwise fun a b => a.offset ≠ b.offset :=
    ((assignments_perm source key value).pairwise_iff fun h => h.symm).mpr
      (offset_ne_of_styles source key value)
  exact ((assignments_sorted source key value).and hne).imp fun h => Nat.lt_of_le_of_ne h.1 h.2

/-! All places are found. -/

section

variable (hkey : ∀ c ∈ key, Toml.isBareKeyChar c = true) (hvalue : '=' ∉ value)

include hkey hvalue

theorem Style.unbordered_spelling (style : Style) :
    Text.Unbordered (style.spelling key value) := by
  have hnotMem : ∀ c, Toml.isBareKeyChar c = false → c ∉ key := fun c hc hmem =>
    Bool.false_ne_true (hc.symm.trans (hkey c hmem))
  have hsign : '=' ∉ style.gap ∧ '=' ≠ style.quote := by
    rcases style with ⟨_ | _, _ | _⟩ <;> decide
  have hquote : Toml.isBareKeyChar style.quote = false ∧ style.quote ∉ style.gap := by
    rcases style with ⟨_ | _, _ | _⟩ <;> decide
  have hspelling : style.spelling key value =
      (key ++ style.gap) ++ '=' :: ((style.gap ++ [style.quote] ++ value) ++ [style.quote]) := by
    simp [Style.spelling, Style.opening]
  rw [hspelling]
  apply Text.unbordered_of_sign
  · simp [hnotMem '=' (by decide), hsign.1]
  · simp [hsign, hvalue]
  · simp [hnotMem _ hquote.1, hquote.2]

theorem mem_assignments_iff_assignedAt :
    place ∈ assignments source key value ↔ AssignedAt source key value place := by
  refine ⟨assignedAt_of_mem_assignments, ?_⟩
  rintro ⟨style, before, after, hwritten, rfl⟩
  have htaken := hwritten
  rw [← hwritten.take_eq] at htaken
  obtain ⟨hspelling, hstart⟩ := exists_writtenAt_iff.mp ⟨after, htaken⟩
  have hoccurs := ((style.unbordered_spelling hkey hvalue).mem_occurrences_iff
    (style.spelling_ne_nil key value)).mpr hspelling
  refine mem_assignments_iff.mpr ⟨style, List.mem_map.mpr ⟨before.length, ?_, hwritten.ofChars_eq⟩⟩
  exact List.mem_filter.mpr ⟨hoccurs, hstart⟩

theorem assignment?_eq_none_iff_assignedAt :
    assignment? source key value = none ↔ ∀ place, ¬AssignedAt source key value place := by
  rw [assignment?_eq_none_iff, List.eq_nil_iff_forall_not_mem]
  simp only [mem_assignments_iff_assignedAt hkey hvalue]

theorem assignment?_eq_some_iff_assignedAt {first : Span} :
    assignment? source key value = some first ↔ AssignedAt source key value first ∧
      ∀ place, AssignedAt source key value place → first.offset ≤ place.offset := by
  simp only [← mem_assignments_iff_assignedAt hkey hvalue]
  refine ⟨offset_le_of_assignment?, fun ⟨hmem, hleast⟩ => ?_⟩
  cases hfound : assignment? source key value with
  | none =>
    rw [assignment?_eq_none_iff.mp hfound] at hmem
    cases hmem
  | some least =>
    -- Both have the least offset, and all places are equally long.
    obtain ⟨hmem', hleast'⟩ := offset_le_of_assignment? hfound
    have hoffset := Nat.le_antisymm (hleast' first hmem) (hleast least hmem')
    have hlength := (length_of_mem_assignments hmem').trans (length_of_mem_assignments hmem).symm
    have heq : least = first := by
      cases least
      cases first
      rw [Span.mk.injEq]
      exact ⟨hoffset, hlength⟩
    rw [heq]

end

end

/-- Every place that is found begins and ends between characters and has the bytes of the text,
which is given to the key there, and the places ascend. If the key can be written bare and the text
does not hold the sign, all places where the text is given to the key are found, and the leftmost is
taken. -/
theorem assignments_ascending_assignedAt (source key value : List Char) :
    (∀ place ∈ assignments source key value,
      place.Selects source value ∧ AssignedAt source key value place) ∧
    (assignments source key value).Pairwise (fun a b => a.offset < b.offset) ∧
    ((∀ c ∈ key, Toml.isBareKeyChar c = true) → '=' ∉ value →
      (∀ place, AssignedAt source key value place → place ∈ assignments source key value) ∧
      (∀ first, assignment? source key value = some first ↔
        AssignedAt source key value first ∧
          ∀ place, AssignedAt source key value place → first.offset ≤ place.offset) ∧
      (assignment? source key value = none ↔
        ∀ place, ¬AssignedAt source key value place)) := by
  refine ⟨fun place hplace => ?_, assignments_ascending source key value, fun hkey hvalue => ?_⟩
  · have hassigned := assignedAt_of_mem_assignments hplace
    exact ⟨hassigned.covers.selects, hassigned⟩
  · exact ⟨fun place => (mem_assignments_iff_assignedAt hkey hvalue).mpr,
      fun first => assignment?_eq_some_iff_assignedAt hkey hvalue,
      assignment?_eq_none_iff_assignedAt hkey hvalue⟩

/-- A longer key that ends in the name, and two empty names in different styles. -/
def emptyNames : List Char :=
  "éname='' name = \"\"\nname=''".toList

theorem assignment?_emptyNames : assignment? emptyNames "name".toList [] = some ⟨18, 0⟩ :=
  assignment?_of_ascending [⟨18, 0⟩, ⟨26, 0⟩] (by decide +kernel) (by decide)

theorem emptyNames_writtenAt :
    WrittenAt emptyNames "name".toList [] ⟨false, false⟩ "éname='' name = \"\"\n".toList [] :=
  ⟨by decide, by simp [Text.isAlphanumeric]⟩

/-- The empty name of the last line is found between its quotes, and the one before it is taken. The
longer key at the beginning gives no place. -/
theorem emptyNames_ascending_assignedAt :
    (∀ c ∈ "name".toList, Toml.isBareKeyChar c = true) ∧ '=' ∉ ([] : List Char) ∧
      (⟨26, 0⟩ ∈ assignments emptyNames "name".toList [] ∧ Selects ⟨26, 0⟩ emptyNames []) ∧
      assignment? emptyNames "name".toList [] = some ⟨18, 0⟩ ∧
      ∀ place, AssignedAt emptyNames "name".toList [] place → 18 ≤ place.offset := by
  have hkey : ∀ c ∈ "name".toList, Toml.isBareKeyChar c = true := by simp [Toml.isBareKeyChar]
  have hvalue : '=' ∉ ([] : List Char) := List.not_mem_nil
  obtain ⟨hsound, -, hcomplete⟩ := assignments_ascending_assignedAt emptyNames "name".toList []
  obtain ⟨hall, hfirst, -⟩ := hcomplete hkey hvalue
  have hmem := hall ⟨26, 0⟩ ⟨_, _, _, emptyNames_writtenAt, by decide⟩
  exact ⟨hkey, hvalue, ⟨hmem, (hsound _ hmem).1⟩, assignment?_emptyNames,
    ((hfirst _).mp assignment?_emptyNames).2⟩

end SoliditySource.Manifest.Span
