import SoliditySource.Proofs.RecordGrammar

/-! Records written as lists. A list gives its items to the fields in their order, so it is read as
the map that gives each item under the key of its field: a record that can be read from the one can
be read from the other, and is the same. Members and parameters may be written either way as well.
-/
namespace SoliditySource

open Decoder Form
open Datum (SameItems)

/-! Items. -/

/-- The map gives under a key the item at the place of the key. -/
theorem lookup_zip (fields : List String) (items : List Datum) (key : String) :
    (fields.zip items).lookup key = (fields.idxOf? key).bind (items[·]?) := by
  induction fields generalizing items with
  | nil => simp
  | cons field fields ih =>
    cases items with
    | nil => simp
    | cons item items =>
      rw [List.zip_cons_cons, Toml.lookup_cons_if, List.idxOf?_cons]
      by_cases hkey : field = key
      · simp [hkey]
      · rw [if_neg (Ne.symm hkey), ih, if_neg (by simpa using hkey), Option.bind_map]
        rfl

theorem lookup_zip_of_idxOf? {fields : List String} {key : String} {index : Nat}
    (h : fields.idxOf? key = some index) (items : List Datum) :
    (fields.zip items).lookup key = items[index]? := by
  rw [lookup_zip, h, Option.bind_some]

theorem rel_lookup_zip {same : Datum → Datum → Prop} {items items' : List Datum}
    (h : List.Forall₂ same items items') (fields : List String) (key : String) :
    Option.Rel same ((fields.zip items).lookup key) ((fields.zip items').lookup key) := by
  induction h generalizing fields with
  | nil => simp
  | cons hitem _ ih =>
    cases fields with
    | nil => simp
    | cons field fields =>
      rw [List.zip_cons_cons, List.zip_cons_cons, Toml.lookup_cons_if, Toml.lookup_cons_if]
      split_ifs
      · exact .some hitem
      · exact ih fields

namespace Decoder

theorem requiredItem_eq_ok_iff {type : String} {fields : List String} {items : List Datum}
    {index : Nat} {s : String} :
    requiredItem type fields items index = .ok s ↔ items[index]? = some (.string s) := by
  unfold requiredItem
  cases items[index]? with
  | none => simp
  | some d =>
    constructor
    · intro h
      obtain ⟨⟩ := (takes_string d s).mp h
      rfl
    · rintro ⟨⟩
      rfl

theorem item_eq_ok_iff {read : Decoder α} {form : Form α} (h : Takes read form)
    (items : List Datum) (index : Nat) (default a : α) :
    item items index read default = .ok a ↔ Holds form default items[index]? a := by
  unfold item
  cases items[index]? with
  | none =>
    constructor
    · rintro ⟨⟩
      exact .absent
    · rintro ⟨⟩
      rfl
  | some d =>
    constructor
    · intro ha
      exact .present ((h d a).mp ha)
    · rintro (_ | stands)
      exact (h d a).mpr stands

end Decoder

/-! Forms. -/

namespace Form

/-- The form makes no difference between data that are the same. -/
def Invariant (same : Datum → Datum → Prop) (form : Form α) : Prop :=
  ∀ d e a, same d e → (form d a ↔ form e a)

theorem Invariant.holds_iff {same : Datum → Datum → Prop} {form : Form α}
    (h : Invariant same form) {found found' : Option Datum} (hsame : Option.Rel same found found')
    (default a : α) : Holds form default found a ↔ Holds form default found' a := by
  cases hsame with
  | none => exact Iff.rfl
  | some hsame =>
    constructor
    · rintro (_ | stands)
      exact .present ((h _ _ a hsame).mp stands)
    · rintro (_ | stands)
      exact .present ((h _ _ a hsame).mpr stands)

theorem Invariant.forall₂_iff {same : Datum → Datum → Prop} {form : Form α}
    (h : Invariant same form) {ds es : List Datum} (hsame : List.Forall₂ same ds es)
    (as : List α) : List.Forall₂ form ds as ↔ List.Forall₂ form es as := by
  induction hsame generalizing as with
  | nil => exact Iff.rfl
  | cons hitem _ ih =>
    cases as with
    | nil => constructor <;> rintro ⟨⟩
    | cons a as => rw [List.forall₂_cons, List.forall₂_cons, h _ _ a hitem, ih as]

section

variable {same : Datum → Datum → Prop}

theorem Invariant.each {form : Form α} (h : Invariant same form) :
    Invariant (SameItems same) (Each form) := by
  rintro d e as (_ | hitems)
  · exact Iff.rfl
  · constructor
    · rintro ⟨stand⟩
      exact .sequence ((h.forall₂_iff hitems as).mp stand)
    · rintro ⟨stand⟩
      exact .sequence ((h.forall₂_iff hitems as).mpr stand)

/-- What a reader does not tell apart, the form that it takes does not either. -/
theorem invariant_of_respects {read : Decoder α} {form : Form α} (htakes : Takes read form)
    (h : Respects same read) : Invariant same form := by
  intro d e a hsame
  rw [← htakes d a, ← htakes e a, h d e hsame]

theorem invariant_text : Invariant (SameItems same) Text :=
  invariant_of_respects takes_string respects_string

theorem invariant_flag : Invariant (SameItems same) Flag :=
  invariant_of_respects takes_boolean respects_boolean

theorem invariant_optionalText : Invariant (SameItems same) (Optional Text) :=
  invariant_of_respects takes_optionalString respects_optionalString

theorem eq_string_iff {found found' : Option Datum} (h : Option.Rel (SameItems same) found found')
    (s : String) : found = some (.string s) ↔ found' = some (.string s) := by
  cases h with
  | none => exact Iff.rfl
  | some hsame =>
    rcases hsame with _ | hitems
    · exact Iff.rfl
    · constructor <;> rintro ⟨⟩

end

end Form

/-! Records. -/

namespace Datum

/-- The same data, or a record with the given fields as a list and as a map. -/
inductive EitherWay (fields : List String) : Datum → Datum → Prop
  | refl (d : Datum) : EitherWay fields d d
  | keyed {items : List Datum} (nonempty : items ≠ []) (fits : items.length ≤ fields.length) :
      EitherWay fields (.sequence items) (.map (fields.zip items))
  | listed {items : List Datum} (nonempty : items ≠ []) (fits : items.length ≤ fields.length) :
      EitherWay fields (.map (fields.zip items)) (.sequence items)

end Datum

open Datum (EitherWay)

/-- The reader takes a list of items for the first fields exactly when it takes the map that gives
the same items under the keys of these fields, and then reads the same record. It takes no other
list. -/
structure Decoder.Positional (read : Decoder α) (fields : List String)
    (same : Datum → Datum → Prop) : Prop where
  agrees : ∀ items items', List.Forall₂ same items items' → items ≠ [] →
    items.length ≤ fields.length →
    ∀ r, read (.sequence items) = .ok r ↔ read (.map (fields.zip items')) = .ok r
  refuses : ∀ items, items = [] ∨ fields.length < items.length → ∀ r, read (.sequence items) ≠ .ok r

namespace Decoder

theorem record_sequence_eq_ok_iff {type : String} {fields : List String}
    {ofEntries : List (String × Datum) → Except Mismatch α}
    {ofItems : List Datum → Except Mismatch α} {items : List Datum} {r : α} :
    record type fields .refused ofEntries ofItems (.sequence items) = .ok r ↔
      ofItems items = .ok r ∧ items.length ≤ fields.length := by
  rw [record, bind_eq_ok_iff]
  by_cases hlength : fields.length < items.length
  · simp [hlength]
  · simp [hlength, Nat.not_lt.mp hlength]

theorem positional_record {type : String} {fields : List String}
    {ofEntries : List (String × Datum) → Except Mismatch α}
    {ofItems : List Datum → Except Mismatch α} {describes : Given → α → Prop}
    {same : Datum → Datum → Prop}
    (hentries : ∀ es r, ofEntries es = .ok r ↔ describes (.ofEntries es) r)
    (hitems : ∀ items r, ofItems items = .ok r ↔ describes (.ofEntries (fields.zip items)) r)
    (hnamed : ∀ given r, describes given r → given "name" ≠ none)
    (hsame : ∀ given given', (∀ key, Option.Rel same (given key) (given' key)) →
      ∀ r, describes given r ↔ describes given' r) :
    Positional (record type fields .refused ofEntries ofItems) fields same where
  agrees items items' hrel hne hle r := by
    -- Both sides say that the record is described by what is given under the keys.
    rw [record_sequence_eq_ok_iff, hitems, and_iff_left hle,
      hsame _ _ (rel_lookup_zip hrel fields)]
    exact (hentries _ r).symm
  refuses items hbad r := by
    rw [ne_eq, record_sequence_eq_ok_iff, hitems]
    rintro ⟨hdescribes, hle⟩
    rcases hbad with rfl | hlong
    · exact hnamed _ r hdescribes (by simp)
    · omega

/-- A member is read alike either way. -/
theorem Positional.invariant {read : Decoder α} {fields : List String}
    (h : Positional read fields Eq) : Invariant (EitherWay fields) (ReadBy read) := by
  have hagrees (items : List Datum) (hne : items ≠ []) (hle : items.length ≤ fields.length) (r : α) :
      read (.sequence items) = .ok r ↔ read (.map (fields.zip items)) = .ok r :=
    h.agrees items items (List.forall₂_same.mpr fun _ _ => rfl) hne hle r
  rintro d e a (_ | ⟨hne, hle⟩ | ⟨hne, hle⟩)
  · exact Iff.rfl
  · exact hagrees _ hne hle a
  · exact (hagrees _ hne hle a).symm

theorem describes_congr (describes : Given → α → Prop) (given given' : Given)
    (h : ∀ key, Option.Rel Eq (given key) (given' key)) (r : α) :
    describes given r ↔ describes given' r := by
  have hkey {found found' : Option Datum} (h : Option.Rel Eq found found') : found = found' := by
    cases h with
    | none => rfl
    | some h => rw [h]
  rw [funext fun key => hkey (h key)]

end Decoder

namespace Container

theorem ofItems_eq_ok_iff (items : List Datum) (c : Container) :
    ofItems items = .ok c ↔ Describes (.ofEntries (fields.zip items)) c := by
  have hgiven (index : Nat) (key : String) (h : fields.idxOf? key = some index) :=
    lookup_zip_of_idxOf? h items
  -- A list has no place for the other key of the parent.
  have his : (fields.zip items).lookup "is" = none := lookup_zip fields items "is"
  rcases c with ⟨name, kind, parent, comment⟩
  simp only [ofItems, bind_eq_ok_iff, requiredItem_eq_ok_iff,
    item_eq_ok_iff ContainerKind.takes_decode, item_eq_ok_iff takes_optionalString, describes_iff,
    his, Option.none_or, hgiven 0 "name" rfl, hgiven 1 "kind" rfl, hgiven 2 "parent" rfl,
    hgiven 3 "comment" rfl, pure, Except.pure, Except.ok.injEq, Container.mk.injEq]
  grind

theorem positional : Positional decode fields Eq :=
  positional_record ofEntries_eq_ok_iff ofItems_eq_ok_iff (fun _ _ h => by simp [h.name])
    (describes_congr Describes)

end Container

namespace Attribute

theorem ofItems_eq_ok_iff (items : List Datum) (a : Attribute) :
    ofItems items = .ok a ↔ Describes (.ofEntries (fields.zip items)) a := by
  have hgiven (index : Nat) (key : String) (h : fields.idxOf? key = some index) :=
    lookup_zip_of_idxOf? h items
  rcases a with ⟨name, type, modifier, value, comment, lineBreak⟩
  simp only [ofItems, bind_eq_ok_iff, requiredItem_eq_ok_iff, item_eq_ok_iff takes_string,
    item_eq_ok_iff takes_optionalString, item_eq_ok_iff takes_boolean,
    item_eq_ok_iff Value.takes_optional, describes_iff, hgiven 0 "name" rfl, hgiven 1 "type" rfl,
    hgiven 2 "modifier" rfl, hgiven 3 "value" rfl, hgiven 4 "comment" rfl,
    hgiven 5 "line_break" rfl, pure, Except.pure, Except.ok.injEq, Attribute.mk.injEq]
  grind

theorem positional : Positional decode fields Eq :=
  positional_record ofEntries_eq_ok_iff ofItems_eq_ok_iff (fun _ _ h => by simp [h.name])
    (describes_congr Describes)

end Attribute

namespace Struct

theorem ofItems_eq_ok_iff (items : List Datum) (s : Struct) :
    ofItems items = .ok s ↔ Describes (.ofEntries (fields.zip items)) s := by
  have hgiven (index : Nat) (key : String) (h : fields.idxOf? key = some index) :=
    lookup_zip_of_idxOf? h items
  rcases s with ⟨name, attributes, comment, lineBreak⟩
  simp only [ofItems, bind_eq_ok_iff, requiredItem_eq_ok_iff,
    item_eq_ok_iff (takes_list (takes_readBy Attribute.decode)),
    item_eq_ok_iff takes_optionalString, item_eq_ok_iff takes_boolean, describes_iff,
    hgiven 0 "name" rfl, hgiven 1 "attributes" rfl, hgiven 2 "comment" rfl,
    hgiven 3 "line_break" rfl, pure, Except.pure, Except.ok.injEq, Struct.mk.injEq]
  grind

/-- Each of the members may be written either way. -/
theorem describes_eitherWay (given given' : Given)
    (h : ∀ key, Option.Rel (SameItems (EitherWay Attribute.fields)) (given key) (given' key))
    (s : Struct) : Describes given s ↔ Describes given' s := by
  have hattributes := Attribute.positional.invariant.each.holds_iff (h "attributes")
  have hcomment := invariant_optionalText.holds_iff (h "comment")
  have hlineBreak := invariant_flag.holds_iff (h "line_break")
  simp only [describes_iff, eq_string_iff (h "name"), hattributes, hcomment, hlineBreak]

theorem positional : Positional decode fields (SameItems (EitherWay Attribute.fields)) :=
  positional_record ofEntries_eq_ok_iff ofItems_eq_ok_iff (fun _ _ h => by simp [h.name])
    describes_eitherWay

end Struct

namespace Mapping

theorem ofItems_eq_ok_iff (items : List Datum) (m : Mapping) :
    ofItems items = .ok m ↔ Describes (.ofEntries (fields.zip items)) m := by
  have hgiven (index : Nat) (key : String) (h : fields.idxOf? key = some index) :=
    lookup_zip_of_idxOf? h items
  rcases m with ⟨name, keyType, valueType, modifier, comment, lineBreak⟩
  simp only [ofItems, bind_eq_ok_iff, requiredItem_eq_ok_iff, item_eq_ok_iff takes_string,
    item_eq_ok_iff takes_optionalString, item_eq_ok_iff takes_boolean, describes_iff,
    hgiven 0 "name" rfl, hgiven 1 "key_type" rfl, hgiven 2 "value_type" rfl,
    hgiven 3 "modifier" rfl, hgiven 4 "comment" rfl, hgiven 5 "line_break" rfl, pure, Except.pure,
    Except.ok.injEq, Mapping.mk.injEq]
  grind

theorem positional : Positional decode fields Eq :=
  positional_record ofEntries_eq_ok_iff ofItems_eq_ok_iff (fun _ _ h => by simp [h.name])
    (describes_congr Describes)

end Mapping

namespace Param

theorem ofItems_eq_ok_iff (items : List Datum) (p : Param) :
    ofItems items = .ok p ↔ Describes (.ofEntries (fields.zip items)) p := by
  have hgiven (index : Nat) (key : String) (h : fields.idxOf? key = some index) :=
    lookup_zip_of_idxOf? h items
  rcases p with ⟨name, type⟩
  simp only [ofItems, bind_eq_ok_iff, requiredItem_eq_ok_iff, item_eq_ok_iff takes_string,
    describes_iff, hgiven 0 "name" rfl, hgiven 1 "type" rfl, pure, Except.pure, Except.ok.injEq,
    Param.mk.injEq]
  grind

theorem positional : Positional decode fields Eq :=
  positional_record ofEntries_eq_ok_iff ofItems_eq_ok_iff (fun _ _ h => by simp [h.name])
    (describes_congr Describes)

end Param

namespace Function

theorem ofItems_eq_ok_iff (items : List Datum) (f : Function) :
    ofItems items = .ok f ↔ Describes (.ofEntries (fields.zip items)) f := by
  have hgiven (index : Nat) (key : String) (h : fields.idxOf? key = some index) :=
    lookup_zip_of_idxOf? h items
  rcases f with ⟨name, parameters, returnType, modifier, body, comment, lineBreak⟩
  simp only [ofItems, bind_eq_ok_iff, requiredItem_eq_ok_iff,
    item_eq_ok_iff (takes_list (takes_readBy Param.decode)), item_eq_ok_iff takes_string,
    item_eq_ok_iff takes_optionalString, item_eq_ok_iff takes_boolean, describes_iff,
    hgiven 0 "name" rfl, hgiven 1 "parameters" rfl, hgiven 2 "return_type" rfl,
    hgiven 3 "modifier" rfl, hgiven 4 "body" rfl, hgiven 5 "comment" rfl,
    hgiven 6 "line_break" rfl, pure, Except.pure, Except.ok.injEq, Function.mk.injEq]
  grind

/-- Each of the parameters may be written either way. -/
theorem describes_eitherWay (given given' : Given)
    (h : ∀ key, Option.Rel (SameItems (EitherWay Param.fields)) (given key) (given' key))
    (f : Function) : Describes given f ↔ Describes given' f := by
  have hparameters := Param.positional.invariant.each.holds_iff (h "parameters")
  have hreturnType := invariant_optionalText.holds_iff (h "return_type")
  have hmodifier := invariant_optionalText.holds_iff (h "modifier")
  have hbody := invariant_text.holds_iff (h "body")
  have hcomment := invariant_optionalText.holds_iff (h "comment")
  have hlineBreak := invariant_flag.holds_iff (h "line_break")
  simp only [describes_iff, eq_string_iff (h "name"), hparameters, hreturnType, hmodifier, hbody,
    hcomment, hlineBreak]

theorem positional : Positional decode fields (SameItems (EitherWay Param.fields)) :=
  positional_record ofEntries_eq_ok_iff ofItems_eq_ok_iff (fun _ _ h => by simp [h.name])
    describes_eitherWay

end Function

/-- Every record is read from a list of one or more items, and no more than it has fields, exactly
when it is read from the map with these items under the keys of its first fields, and is then the
same; members and parameters may be lists in the one and maps in the other. No record is read from an
empty list or from a longer one. -/
theorem decode_positional :
    Positional Container.decode Container.fields Eq ∧
      Positional Attribute.decode Attribute.fields Eq ∧
      Positional Struct.decode Struct.fields (SameItems (EitherWay Attribute.fields)) ∧
      Positional Mapping.decode Mapping.fields Eq ∧
      Positional Function.decode Function.fields (SameItems (EitherWay Param.fields)) ∧
      Positional Param.decode Param.fields Eq :=
  ⟨Container.positional, Attribute.positional, Struct.positional, Mapping.positional,
    Function.positional, Param.positional⟩

end SoliditySource
