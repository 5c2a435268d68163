import SoliditySource.Proofs.RecordRoundTrip

/-! What the fields of records take. A form says which data a field takes and what they stand for, and
every reader of a field takes exactly the data of a form. A field that is missing has its default.
Readers make no difference between data that differ only in entries that nobody looks at. -/
namespace SoliditySource

/-- Which data a field takes, and what they stand for. -/
abbrev Form (α : Type) := Datum → α → Prop

namespace Form

inductive Text : Form String
  | string (s : String) : Text (.string s) s

inductive Flag : Form Bool
  | boolean (b : Bool) : Flag (.boolean b) b

/-- Null stands for none. -/
inductive Optional (form : Form α) : Form (Option α)
  | null : Optional form .null none
  | given {d : Datum} {a : α} (stands : form d a) : Optional form d (some a)

inductive Each (form : Form α) : Form (List α)
  | sequence {items : List Datum} {as : List α} (stand : List.Forall₂ form items as) :
      Each form (.sequence items) as

/-- An integer has to be one of 64 bits. -/
inductive Initial : Form Value
  | boolean (b : Bool) : Initial (.boolean b) (.boolean b)
  | integer (n : Int64) : Initial (.integer n.toInt) (.integer n)
  | text (s : String) : Initial (.string s) (.text s)
  | literal {entries : List (String × Datum)} {s : String}
      (found : entries.lookup "literal" = some (.string s)) : Initial (.map entries) (.literal s)

/-- The word may also be the only key of a map, with null under it. -/
inductive Keyword : Form ContainerKind
  | word (kind : ContainerKind) : Keyword (.string kind.keyword) kind
  | tag (kind : ContainerKind) : Keyword (.map [(kind.keyword, .null)]) kind

/-- What the reader takes. -/
def ReadBy (read : Decoder α) : Form α :=
  fun d a => read d = .ok a

/-- The datum stands for something. -/
def Admits (form : Form α) (d : Datum) : Prop :=
  ∃ a, form d a

end Form

namespace Decoder

/-- The reader takes exactly the data of the form, as what they stand for. -/
def Takes (read : Decoder α) (form : Form α) : Prop :=
  ∀ d a, read d = .ok a ↔ form d a

theorem takes_string : Takes string .Text := by
  intro d s
  cases d with
  | string text =>
    constructor
    · rintro ⟨⟩
      exact .string s
    · rintro ⟨⟩
      rfl
  | _ => constructor <;> rintro ⟨⟩

theorem takes_boolean : Takes boolean .Flag := by
  intro d b
  cases d with
  | boolean flag =>
    constructor
    · rintro ⟨⟩
      exact .boolean b
    · rintro ⟨⟩
      rfl
  | _ => constructor <;> rintro ⟨⟩

theorem map_eq_ok_iff {x : Except Mismatch α} {f : α → β} {b : β} :
    x.map f = .ok b ↔ ∃ a, x = .ok a ∧ f a = b := by
  cases x <;> simp [Except.map]

theorem bind_eq_ok_iff {x : Except Mismatch α} {f : α → Except Mismatch β} {b : β} :
    (x >>= f) = .ok b ↔ ∃ a, x = .ok a ∧ f a = .ok b := by
  cases x <;> simp [bind, Except.bind]

theorem takes_readBy (read : Decoder α) : Takes read (.ReadBy read) :=
  fun _ _ => Iff.rfl

theorem takes_optional {read : Decoder α} {form : Form α} (h : Takes read form)
    (hnull : ∀ a, ¬form .null a) : Takes (optional read) (.Optional form) := by
  intro d a
  by_cases hd : d = .null
  · subst hd
    constructor
    · rintro ⟨⟩
      exact .null
    · rintro (_ | hgiven)
      · rfl
      · exact absurd hgiven (hnull _)
  · rw [optional_of_ne_null read hd, map_eq_ok_iff]
    constructor
    · rintro ⟨a, ha, rfl⟩
      exact .given ((h d a).mp ha)
    · rintro (_ | hgiven)
      · exact absurd rfl hd
      · exact ⟨_, (h d _).mpr hgiven, rfl⟩

theorem mapM_eq_ok_iff {read : Decoder α} {form : Form α} (h : Takes read form)
    (items : List Datum) (as : List α) :
    items.mapM read = .ok as ↔ List.Forall₂ form items as := by
  induction items generalizing as with
  | nil => simp [pure, Except.pure, eq_comm]
  | cons item items ih =>
    rw [List.mapM_cons, bind_eq_ok_iff]
    constructor
    · rintro ⟨a, ha, hrest⟩
      obtain ⟨as, has, ⟨⟩⟩ := bind_eq_ok_iff.mp hrest
      exact .cons ((h item a).mp ha) ((ih as).mp has)
    · rintro (_ | ⟨ha, has⟩)
      exact ⟨_, (h item _).mpr ha, bind_eq_ok_iff.mpr ⟨_, (ih _).mpr has, rfl⟩⟩

theorem takes_optionalString : Takes (optional string) (.Optional .Text) :=
  takes_optional takes_string (by rintro _ ⟨⟩)

theorem takes_list {read : Decoder α} {form : Form α} (h : Takes read form) :
    Takes (list read) (.Each form) := by
  intro d as
  cases d with
  | sequence items =>
    rw [list, mapM_eq_ok_iff h]
    exact ⟨.sequence, fun ⟨stand⟩ => stand⟩
  | _ => constructor <;> rintro ⟨⟩

end Decoder

open Decoder

theorem Value.decode_integer_eq_ok_iff {n : Int} {v : Value} :
    decode (.integer n) = .ok v ↔ ∃ m : Int64, m.toInt = n ∧ v = .integer m := by
  rw [decode]
  constructor
  · intro h
    split_ifs at h with hn
    simp only [inInt64, Bool.and_eq_true, decide_eq_true_eq] at hn
    exact ⟨Int64.ofInt n, Int64.toInt_ofInt_of_le hn.1 (by omega), (Except.ok.inj h).symm⟩
  · rintro ⟨m, rfl, rfl⟩
    rw [if_pos (inInt64_toInt m), Int64.ofInt_toInt]

theorem Value.takes_decode : Takes decode .Initial := by
  intro d v
  cases d with
  | boolean b =>
    constructor
    · rintro ⟨⟩
      exact .boolean b
    · rintro ⟨⟩
      rfl
  | integer n =>
    rw [decode_integer_eq_ok_iff]
    constructor
    · rintro ⟨m, rfl, rfl⟩
      exact .integer m
    · rintro (_ | m)
      exact ⟨m, rfl, rfl⟩
  | string s =>
    constructor
    · rintro ⟨⟩
      exact .text s
    · rintro ⟨⟩
      rfl
  | map entries =>
    constructor
    · intro h
      simp only [decode] at h
      split at h
      · next s hfound =>
        obtain rfl := Except.ok.inj h
        exact .literal hfound
      · cases h
    · rintro (_ | _ | _ | hfound)
      simp [decode, hfound]
  | _ => constructor <;> rintro ⟨⟩

theorem Value.takes_optional : Takes (optional decode) (.Optional .Initial) :=
  Decoder.takes_optional takes_decode (by rintro _ ⟨⟩)

theorem ContainerKind.ofKeyword?_eq_some_iff {word : String} {kind : ContainerKind} :
    ofKeyword? word = some kind ↔ word = kind.keyword := by
  constructor
  · intro h
    have hword := List.find?_some (p := fun k : ContainerKind => k.keyword == word) h
    exact (beq_iff_eq.mp hword).symm
  · rintro rfl
    cases kind <;> rfl

theorem ContainerKind.decodeName_eq_ok_iff {name : String} {kind : ContainerKind} :
    decodeName name = .ok kind ↔ name = kind.keyword := by
  rw [← ofKeyword?_eq_some_iff, decodeName]
  cases ofKeyword? name <;> simp

/-- A map with one key is read by the key, and must have null there. -/
theorem ContainerKind.decode_single_eq_ok_iff {name : String} {d : Datum} {kind : ContainerKind} :
    decode (.map [(name, d)]) = .ok kind ↔ name = kind.keyword ∧ d = .null := by
  rw [decode, bind_eq_ok_iff]
  simp only [decodeName_eq_ok_iff]
  cases d <;> simp [wrongType, Datum.shape]

theorem ContainerKind.takes_decode : Takes decode .Keyword := by
  intro d kind
  cases d with
  | string name =>
    rw [decode, decodeName_eq_ok_iff]
    constructor
    · rintro rfl
      exact .word kind
    · rintro ⟨⟩
      rfl
  | map entries =>
    rcases entries with _ | ⟨⟨name, d⟩, _ | ⟨second, entries⟩⟩
    · constructor <;> rintro ⟨⟩
    · rw [decode_single_eq_ok_iff]
      constructor
      · rintro ⟨rfl, rfl⟩
        exact .tag kind
      · rintro ⟨⟩
        exact ⟨rfl, rfl⟩
    · constructor <;> rintro ⟨⟩
  | _ => constructor <;> rintro ⟨⟩

/-! Fields. -/

/-- What is given under each key. -/
abbrev Given := String → Option Datum

abbrev Given.ofEntries (es : List (String × Datum)) : Given :=
  fun key => es.lookup key

/-- Nothing is given and `a` is the default, or what is given stands for `a`. -/
inductive Holds (form : Form α) (default : α) : Option Datum → α → Prop
  | absent : Holds form default none default
  | present {d : Datum} {a : α} (stands : form d a) : Holds form default (some d) a

theorem Holds.admits {form : Form α} {default a : α} {found : Option Datum}
    (h : Holds form default found a) : ∀ d, found = some d → form.Admits d := by
  rintro d rfl
  obtain _ | stands := h
  exact ⟨a, stands⟩

theorem exists_holds {form : Form α} (default : α) {found : Option Datum}
    (h : ∀ d, found = some d → form.Admits d) : ∃ a, Holds form default found a := by
  cases found with
  | none => exact ⟨default, .absent⟩
  | some d =>
    obtain ⟨a, stands⟩ := h d rfl
    exact ⟨a, .present stands⟩

theorem admits_text {found : Option Datum} {s : String} (h : found = some (.string s)) :
    ∀ d, found = some d → Form.Text.Admits d := by
  rintro d hd
  obtain rfl := Option.some.inj (h.symm.trans hd)
  exact ⟨s, .string s⟩

theorem exists_text {found : Option Datum} (hsome : found.isSome = true)
    (h : ∀ d, found = some d → Form.Text.Admits d) : ∃ s, found = some (.string s) := by
  obtain ⟨d, hd⟩ := Option.isSome_iff_exists.mp hsome
  obtain ⟨s, ⟨⟩⟩ := h d hd
  exact ⟨s, hd⟩

namespace Decoder

theorem required_eq_ok_iff {key : String} {found : Option α} {a : α} :
    required key found = .ok a ↔ found = some a := by
  cases found <;> simp [required]

theorem field?_eq_ok_some_iff {es : List (String × Datum)} {key s : String} :
    field? es key string = .ok (some s) ↔ es.lookup key = some (.string s) := by
  unfold field?
  cases es.lookup key with
  | none => simp
  | some d =>
    rw [map_eq_ok_iff]
    constructor
    · rintro ⟨s, hs, ⟨⟩⟩
      obtain ⟨⟩ := (takes_string d s).mp hs
      rfl
    · rintro ⟨⟩
      exact ⟨s, rfl, rfl⟩

theorem field_eq_ok_iff {read : Decoder α} {form : Form α} (h : Takes read form)
    (es : List (String × Datum)) (key : String) (default a : α) :
    field es key read default = .ok a ↔ Holds form default (es.lookup key) a := by
  unfold field field?
  cases es.lookup key with
  | none =>
    constructor
    · rintro ⟨⟩
      exact .absent
    · rintro ⟨⟩
      rfl
  | some d =>
    simp only [map_eq_ok_iff]
    constructor
    · rintro ⟨-, ⟨a, ha, rfl⟩, rfl⟩
      exact .present ((h d _).mp ha)
    · rintro (_ | stands)
      exact ⟨some a, ⟨a, (h d a).mpr stands, rfl⟩, rfl⟩

/-- The reader makes no difference between data that are the same. -/
def Respects (same : Datum → Datum → Prop) (read : Decoder α) : Prop :=
  ∀ d e, same d e → read d = read e

theorem respects_eq (read : Decoder α) : Respects Eq read := by
  rintro d e rfl
  rfl

section

variable {α : Type} {same : Datum → Datum → Prop} {read : Decoder α}
  {es es' : List (String × Datum)} {key : String}

theorem field?_congr (hread : Respects same read)
    (h : Option.Rel same (es.lookup key) (es'.lookup key)) :
    field? es key read = field? es' key read := by
  unfold field?
  generalize es.lookup key = found at h ⊢
  generalize es'.lookup key = found' at h ⊢
  cases h with
  | none => rfl
  | some hsame => simp only [hread _ _ hsame]

theorem field_congr (hread : Respects same read)
    (h : Option.Rel same (es.lookup key) (es'.lookup key)) (default : α) :
    field es key read default = field es' key read default := by
  rw [field, field, field?_congr hread h]

end

end Decoder

/-! Data that differ where no field is. -/

namespace Datum

/-- The same data, or lists with the same items. -/
inductive SameItems (same : Datum → Datum → Prop) : Datum → Datum → Prop
  | refl (d : Datum) : SameItems same d d
  | sequence {ds es : List Datum} (items : List.Forall₂ same ds es) :
      SameItems same (.sequence ds) (.sequence es)

/-- The same data, or maps that give the same under each of the keys. Under all other keys entries
may be added, removed and changed. -/
inductive SameUnder (keys : List String) (same : Datum → Datum → Prop) : Datum → Datum → Prop
  | refl (d : Datum) : SameUnder keys same d d
  | map {ds es : List (String × Datum)}
      (known : ∀ key ∈ keys, Option.Rel same (ds.lookup key) (es.lookup key)) :
      SameUnder keys same (.map ds) (.map es)

end Datum

open Datum (SameItems SameUnder)

namespace Decoder

variable {α : Type} {same : Datum → Datum → Prop}

theorem mapM_congr {read : Decoder α} (h : Respects same read) {ds es : List Datum}
    (hitems : List.Forall₂ same ds es) : ds.mapM read = es.mapM read := by
  induction hitems with
  | nil => rfl
  | cons hitem _ ih => rw [List.mapM_cons, List.mapM_cons, h _ _ hitem, ih]

theorem respects_list {read : Decoder α} (h : Respects same read) :
    Respects (SameItems same) (list read) := by
  rintro d e (_ | hitems)
  · rfl
  · exact mapM_congr h hitems

theorem respects_string : Respects (SameItems same) string := by
  rintro d e (_ | _) <;> rfl

theorem respects_optionalString : Respects (SameItems same) (optional string) := by
  rintro d e (_ | _) <;> rfl

theorem respects_boolean : Respects (SameItems same) boolean := by
  rintro d e (_ | _) <;> rfl

end Decoder

end SoliditySource
