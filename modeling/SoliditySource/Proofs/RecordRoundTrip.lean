import Mathlib.Data.List.Forall2
import SoliditySource.Datum.Encode
import SoliditySource.Proofs.FirstProblem

/-! Writing a record and reading it back. A written record may lose the entries that are null, and
its entries may change places, at every level; it is still read as the same record. So a record is
read back from its data, and a declaration from the table that a manifest would hold. -/
namespace SoliditySource

namespace Datum

mutual

/-- The second datum is the first one up to the order of the entries of its maps, among which those
that are null may be missing. -/
inductive Sparse : Datum → Datum → Prop
  | refl (d : Datum) : Sparse d d
  | sequence {ds es : List Datum} (items : List.Forall₂ Sparse ds es) :
      Sparse (.sequence ds) (.sequence es)
  | map {ds es : List (String × Datum)}
      (fields : ∀ key, SparseField (ds.lookup key) (es.lookup key)) : Sparse (.map ds) (.map es)

inductive SparseField : Option Datum → Option Datum → Prop
  | absent : SparseField none none
  | omitted : SparseField (some .null) none
  | present {d e : Datum} (value : Sparse d e) : SparseField (some d) (some e)

end

theorem SparseField.refl (d : Option Datum) : SparseField d d := by
  cases d with
  | none => exact .absent
  | some d => exact .present (.refl d)

theorem SparseField.eq_none_or_exists {d : Datum} {found : Option Datum}
    (h : SparseField (some d) found) :
    (d = .null ∧ found = none) ∨ ∃ e, found = some e ∧ Sparse d e := by
  cases h with
  | omitted => exact .inl ⟨rfl, rfl⟩
  | present value => exact .inr ⟨_, rfl, value⟩

theorem Sparse.exists_map {ds : List (String × Datum)} {e : Datum} (h : Sparse (.map ds) e) :
    ∃ es, e = .map es ∧ ∀ key, SparseField (ds.lookup key) (es.lookup key) := by
  cases h with
  | refl => exact ⟨ds, rfl, fun key => .refl _⟩
  | map fields => exact ⟨_, rfl, fields⟩

theorem Sparse.exists_sequence {ds : List Datum} {e : Datum} (h : Sparse (.sequence ds) e) :
    ∃ es, e = .sequence es ∧ List.Forall₂ Sparse ds es := by
  cases h with
  | refl => exact ⟨ds, rfl, List.forall₂_same.mpr fun d _ => .refl d⟩
  | sequence items => exact ⟨_, rfl, items⟩

theorem Sparse.ne_null {d e : Datum} (h : Sparse d e) (hd : d ≠ .null) : e ≠ .null := by
  rintro rfl
  cases h
  exact hd rfl

end Datum

open Datum

namespace Decoder

/-- From all that is left of the datum, the reader gets the same value. -/
def Gives (read : Decoder α) (d : Datum) (a : α) : Prop :=
  ∀ e, Sparse d e → read e = .ok a

theorem gives_string (s : String) : Gives string (.string s) s := by
  rintro e ⟨⟩
  rfl

theorem gives_boolean (b : Bool) : Gives boolean (.boolean b) b := by
  rintro e ⟨⟩
  rfl

theorem optional_of_ne_null (read : Decoder α) {d : Datum} (h : d ≠ .null) :
    optional read d = (read d).map some := by
  cases d with
  | null => exact absurd rfl h
  | _ => rfl

theorem gives_optional {read : Decoder α} {write : α → Datum} (h : ∀ a, Gives read (write a) a)
    (hnull : ∀ a, write a ≠ .null) (v : Option α) :
    Gives (optional read) (ofOption write v) v := by
  intro e he
  cases v with
  | none =>
    cases he
    rfl
  | some a =>
    rw [optional_of_ne_null read (he.ne_null (hnull a)), h a e he]
    rfl

theorem gives_list {read : Decoder α} {write : α → Datum} (h : ∀ a, Gives read (write a) a)
    (as : List α) : Gives (list read) (.sequence (as.map write)) as := by
  intro e he
  obtain ⟨es, rfl, hes⟩ := he.exists_sequence
  clear he
  rw [List.forall₂_map_left_iff] at hes
  change es.mapM read = .ok as
  induction hes with
  | nil => rfl
  | cons hitem _ ih =>
    rw [List.mapM_cons, h _ _ hitem, ih]
    rfl

section

variable {α : Type} {es : List (String × Datum)} {key : String} {read : Decoder α} {d : Datum}
  {a : α}

theorem field?_of_sparse (h : SparseField (some d) (es.lookup key)) (hread : Gives read d a)
    (hnull : d ≠ .null) : field? es key read = .ok (some a) := by
  rcases h.eq_none_or_exists with ⟨hd, -⟩ | ⟨e, hfound, he⟩
  · exact absurd hd hnull
  · simp [field?, hfound, hread e he, Except.map]

/-- A field that is written as null has to be the default. -/
theorem field_of_sparse (h : SparseField (some d) (es.lookup key)) (hread : Gives read d a)
    {default : α} (hnull : d = .null → default = a) : field es key read default = .ok a := by
  rcases h.eq_none_or_exists with ⟨hd, hfound⟩ | ⟨e, hfound, he⟩
  · simp [field, field?, hfound, Except.map, hnull hd]
  · simp [field, field?, hfound, hread e he, Except.map]

theorem field?_of_absent (h : SparseField none (es.lookup key)) (read : Decoder α) :
    field? es key read = .ok none := by
  cases hfound : es.lookup key with
  | none => simp [field?, hfound]
  | some e =>
    rw [hfound] at h
    cases h

theorem optional_of_sparse {write : α → Datum} {v : Option α}
    (h : SparseField (some (ofOption write v)) (es.lookup key))
    (hread : ∀ a, Gives read (write a) a) (hnull : ∀ a, write a ≠ .null) :
    field es key (optional read) none = .ok v :=
  field_of_sparse h (gives_optional hread hnull v) fun hv => by
    cases v with
    | none => rfl
    | some a => exact absurd hv (hnull a)

theorem list_of_sparse {write : α → Datum} {as : List α}
    (h : SparseField (some (.sequence (as.map write))) (es.lookup key))
    (hread : ∀ a, Gives read (write a) a) : field es key (list read) [] = .ok as :=
  field_of_sparse h (gives_list hread as) (by simp)

theorem text_of_sparse {s : String} (h : SparseField (some (.string s)) (es.lookup key))
    (default : String) : field es key string default = .ok s :=
  field_of_sparse h (gives_string s) (by simp)

theorem optionalText_of_sparse {s : Option String}
    (h : SparseField (some (ofOption .string s)) (es.lookup key)) :
    field es key (optional string) none = .ok s :=
  optional_of_sparse h gives_string (by simp)

theorem flag_of_sparse {b : Bool} (h : SparseField (some (.boolean b)) (es.lookup key))
    (default : Bool) : field es key boolean default = .ok b :=
  field_of_sparse h (gives_boolean b) (by simp)

theorem name_of_sparse {s : String} (h : SparseField (some (.string s)) (es.lookup key)) :
    field? es key string = .ok (some s) :=
  field?_of_sparse h (gives_string s) (by simp)

end

end Decoder

open Decoder

theorem inInt64_toInt (n : Int64) : inInt64 n.toInt = true := by
  have hlow := n.le_toInt
  have hhigh := n.toInt_lt
  simp only [inInt64, Bool.and_eq_true, decide_eq_true_eq]
  omega

theorem Value.gives_decode (v : Value) : Gives decode v.encode v := by
  intro e he
  cases v with
  | boolean b =>
    cases he
    rfl
  | integer n =>
    cases he
    simp [decode, encode, inInt64_toInt]
  | text s =>
    cases he
    rfl
  | literal s =>
    obtain ⟨es, rfl, hes⟩ := Sparse.exists_map he
    rcases (hes "literal").eq_none_or_exists with ⟨hnull, -⟩ | ⟨e, hfound, htext⟩
    · cases hnull
    · cases htext
      simp [decode, hfound]

theorem ContainerKind.gives_decode (kind : ContainerKind) : Gives decode kind.encode kind := by
  rintro e ⟨⟩
  cases kind <;> rfl

theorem Value.encode_ne_null (v : Value) : v.encode ≠ .null := by
  cases v <;> simp [encode]

/-! Records. -/

/-- The kind is read from the entries or was given apart from them. -/
theorem Container.ofEntries_of_sparse {c : Container} {ds es : List (String × Datum)}
    (hc : c.encode = .map ds)
    (hes : ∀ key, key ≠ "kind" → SparseField (ds.lookup key) (es.lookup key)) {kind : ContainerKind}
    (hkind : field es "kind" ContainerKind.decode .contract = .ok kind) :
    ofEntries es = .ok { c with kind := kind } := by
  cases hc
  have hcomment := optionalText_of_sparse (hes "comment" (by decide))
  have his := field?_of_absent (hes "is" (by decide)) (optional string)
  have hname := name_of_sparse (hes "name" (by decide))
  have hparent := optionalText_of_sparse (hes "parent" (by decide))
  simp only [ofEntries, hcomment, his, hkind, hname]
  change (field es "parent" (optional string) none >>= _) = _
  rw [hparent]
  rfl

theorem Container.gives_decode (c : Container) : Gives decode c.encode c := by
  intro e he
  obtain ⟨es, rfl, hes⟩ := Sparse.exists_map he
  have hkind : field es "kind" ContainerKind.decode .contract = .ok c.kind :=
    field_of_sparse (hes "kind") c.kind.gives_decode (by simp [ContainerKind.encode])
  exact Container.ofEntries_of_sparse rfl (fun key _ => hes key) hkind

theorem Attribute.gives_decode (a : Attribute) : Gives decode a.encode a := by
  intro e he
  obtain ⟨es, rfl, hes⟩ := Sparse.exists_map he
  have hcomment := optionalText_of_sparse (hes "comment")
  have hlineBreak := flag_of_sparse (hes "line_break") false
  have hmodifier := optionalText_of_sparse (hes "modifier")
  have hname := name_of_sparse (hes "name")
  have htype := text_of_sparse (hes "type") ""
  have hvalue := optional_of_sparse (hes "value") Value.gives_decode Value.encode_ne_null
  simp only [decode, record, ofEntries, hcomment, hlineBreak, hmodifier, hname, htype, hvalue]
  rfl

theorem Struct.gives_decode (s : Struct) : Gives decode s.encode s := by
  intro e he
  obtain ⟨es, rfl, hes⟩ := Sparse.exists_map he
  have hattributes := list_of_sparse (hes "attributes") Attribute.gives_decode
  have hcomment := optionalText_of_sparse (hes "comment")
  have hlineBreak := flag_of_sparse (hes "line_break") false
  have hname := name_of_sparse (hes "name")
  simp only [decode, record, ofEntries, hattributes, hcomment, hlineBreak, hname]
  rfl

theorem Mapping.gives_decode (m : Mapping) : Gives decode m.encode m := by
  intro e he
  obtain ⟨es, rfl, hes⟩ := Sparse.exists_map he
  have hcomment := optionalText_of_sparse (hes "comment")
  have hkeyType := text_of_sparse (hes "key_type") ""
  have hlineBreak := flag_of_sparse (hes "line_break") false
  have hmodifier := optionalText_of_sparse (hes "modifier")
  have hname := name_of_sparse (hes "name")
  have hvalueType := text_of_sparse (hes "value_type") ""
  simp only [decode, record, ofEntries, hcomment, hkeyType, hlineBreak, hmodifier, hname,
    hvalueType]
  rfl

theorem Param.gives_decode (p : Param) : Gives decode p.encode p := by
  intro e he
  obtain ⟨es, rfl, hes⟩ := Sparse.exists_map he
  have hname := name_of_sparse (hes "name")
  have htype := text_of_sparse (hes "type") ""
  simp only [decode, record, ofEntries, hname, htype]
  rfl

theorem Function.gives_decode (f : Function) : Gives decode f.encode f := by
  intro e he
  obtain ⟨es, rfl, hes⟩ := Sparse.exists_map he
  have hbody := text_of_sparse (hes "body") ""
  have hcomment := optionalText_of_sparse (hes "comment")
  have hlineBreak := flag_of_sparse (hes "line_break") false
  have hmodifier := optionalText_of_sparse (hes "modifier")
  have hname := name_of_sparse (hes "name")
  have hparameters := list_of_sparse (hes "parameters") Param.gives_decode
  have hreturnType := optionalText_of_sparse (hes "return_type")
  simp only [decode, record, ofEntries, hbody, hcomment, hlineBreak, hmodifier, hname, hparameters,
    hreturnType]
  rfl

/-! Tables. -/

namespace Toml

mutual

/-- A datum as a value of TOML, which has no null: entries that are null are left out at every
level. -/
def ofDatum? : Datum → Option Node
  | .null => none
  | .boolean b => some (.boolean b)
  | .integer n => some (.integer n)
  | .float d => some (.float d)
  | .overflow kind => some (.overflow kind)
  | .string s => some (.string s)
  | .sequence items => some (.array (ofItems items))
  | .map entries => some (.table .inline (ofEntries entries))

def ofItems : List Datum → List Node
  | [] => []
  | item :: items => (ofDatum? item).toList ++ ofItems items

def ofEntries : List (String × Datum) → Entries
  | [] => []
  | (key, value) :: entries =>
    match ofDatum? value with
    | none => ofEntries entries
    | some node => (ofEntries entries).put key node

end

theorem ofDatum?_eq_none {d : Datum} (h : ofDatum? d = none) : d = .null := by
  cases d with
  | null => rfl
  | _ => simp [ofDatum?] at h

theorem lookup_cons_if {α : Type} (entry : String × α) (entries : List (String × α))
    (key : String) :
    (entry :: entries).lookup key = if key = entry.1 then some entry.2 else entries.lookup key := by
  rw [List.lookup_cons]
  by_cases h : key = entry.1
  · simp [h]
  · simp [beq_false_of_ne h, h]

theorem Entries.lookup_put (key : String) (value : Node) (table : Entries) (k : String) :
    (table.put key value).lookup k = if k = key then some value else table.lookup k := by
  induction table with
  | nil => exact lookup_cons_if (key, value) [] k
  | cons entry table ih =>
    rw [put]
    split_ifs with hkey hlt
    all_goals simp only [lookup_cons_if, ih]
    all_goals grind

theorem lookup_ofEntries {entries : List (String × Datum)} (hn : (entries.map Prod.fst).Nodup)
    (key : String) : (ofEntries entries).lookup key = (entries.lookup key).bind ofDatum? := by
  induction entries with
  | nil => rfl
  | cons entry entries ih =>
    obtain ⟨name, value⟩ := entry
    rw [List.map_cons, List.nodup_cons] at hn
    rw [ofEntries, lookup_cons_if]
    by_cases hkey : key = name
    · subst hkey
      have habsent : entries.lookup key = none := by
        refine List.lookup_eq_none_iff.mpr fun entry he => bne_iff_ne.mpr ?_
        rintro rfl
        exact hn.1 (List.mem_map.mpr ⟨entry, he, rfl⟩)
      cases hnode : ofDatum? value <;> simp [Entries.lookup_put, ih hn.2, habsent, hnode]
    · cases ofDatum? value <;> simp [Entries.lookup_put, hkey, ih hn.2]

theorem lookup_entriesToData (datetime : Datetime → Datum) (table : Entries) (key : String) :
    (entriesToData datetime table).lookup key = (table.lookup key).map (Node.toDatum datetime) := by
  induction table with
  | nil => rfl
  | cons entry table ih =>
    rw [entriesToData, List.lookup_cons, List.lookup_cons, ih]
    cases key == entry.1 <;> rfl

theorem lookup_filter_ne (table : Entries) (name key : String) :
    (table.filter (·.1 ≠ name)).lookup key = if key = name then none else table.lookup key := by
  induction table with
  | nil => simp
  | cons entry table ih =>
    by_cases h : entry.1 = name
    · rw [List.filter_cons_of_neg (by simpa using h), ih, lookup_cons_if]
      split_ifs <;> simp_all
    · rw [List.filter_cons_of_pos (by simpa using h), lookup_cons_if, lookup_cons_if, ih]
      split_ifs <;> simp_all

/-- The value of TOML that is made of the datum, if there is one, has all that the datum has. -/
def Keeps (d : Datum) : Prop :=
  ∀ node, ofDatum? d = some node → Sparse d (node.toDatum Datetime.toString)

theorem sparseField_ofEntries {entries : List (String × Datum)}
    (hn : (entries.map Prod.fst).Nodup) (h : ∀ entry ∈ entries, Keeps entry.2) (key : String) :
    SparseField (entries.lookup key)
      (((ofEntries entries).lookup key).map (Node.toDatum Datetime.toString)) := by
  rw [lookup_ofEntries hn]
  cases hkey : entries.lookup key with
  | none => exact .absent
  | some d =>
    obtain ⟨before, after, hentries, -⟩ := List.lookup_eq_some_iff.mp hkey
    have hd : Keeps d := h (key, d) (by simp [hentries])
    cases hnode : ofDatum? d with
    | none =>
      rw [ofDatum?_eq_none hnode, Option.bind_some, ofDatum?]
      exact .omitted
    | some node =>
      rw [Option.bind_some, hnode]
      exact .present (hd node hnode)

theorem keeps_map {entries : List (String × Datum)} (hn : (entries.map Prod.fst).Nodup)
    (h : ∀ entry ∈ entries, Keeps entry.2) : Keeps (.map entries) := by
  rintro node ⟨⟩
  refine .map fun key => ?_
  rw [lookup_entriesToData]
  exact sparseField_ofEntries hn h key

theorem keeps_list {write : α → Datum} (h : ∀ a, Keeps (write a)) (hnull : ∀ a, write a ≠ .null)
    (as : List α) : Keeps (.sequence (as.map write)) := by
  rintro node ⟨⟩
  refine .sequence ?_
  induction as with
  | nil => exact .nil
  | cons a as ih =>
    cases hnode : ofDatum? (write a) with
    | none => exact absurd (ofDatum?_eq_none hnode) (hnull a)
    | some node => simpa [ofItems, hnode, itemsToData] using And.intro (h a node hnode) ih

theorem keeps_string (s : String) : Keeps (.string s) := by
  rintro node ⟨⟩
  exact .refl _

theorem keeps_boolean (b : Bool) : Keeps (.boolean b) := by
  rintro node ⟨⟩
  exact .refl _

theorem keeps_ofOption {write : α → Datum} (h : ∀ a, Keeps (write a)) (v : Option α) :
    Keeps (ofOption write v) := by
  cases v with
  | none => rintro node ⟨⟩
  | some a => exact h a

end Toml

open Toml

theorem Value.keeps_encode (v : Value) : Keeps v.encode := by
  cases v with
  | boolean b => exact keeps_boolean b
  | integer n =>
    rintro node ⟨⟩
    exact .refl _
  | text s => exact keeps_string s
  | literal s => exact keeps_map (by simp) (by simpa using keeps_string s)

theorem Attribute.keeps_encode (a : Attribute) : Keeps a.encode := by
  refine keeps_map (by simp) ?_
  simp only [List.forall_mem_cons]
  exact ⟨keeps_string _, keeps_string _, keeps_ofOption keeps_string _,
    keeps_ofOption Value.keeps_encode _, keeps_ofOption keeps_string _, keeps_boolean _, by simp⟩

theorem Param.keeps_encode (p : Param) : Keeps p.encode := by
  refine keeps_map (by simp) ?_
  simp only [List.forall_mem_cons]
  exact ⟨keeps_string _, keeps_string _, by simp⟩

namespace Declaration

/-- The fields of the record as they are written. -/
def entries (d : Declaration) : List (String × Datum) :=
  match d.encode with
  | .map entries => entries
  | _ => []

/-- The word for the kind of the declaration in a manifest. -/
def keyword : Declaration → String
  | .container c => c.kind.keyword
  | d => d.kind.name

/-- The table of the declaration in a manifest. -/
def table (d : Declaration) : Entries :=
  (ofEntries d.entries).put "kind" (.string d.keyword)

/-- What the word stands for. -/
def tag : Declaration → Manifest.Tag
  | .container c => .container c.kind
  | d => .member d.kind

theorem encode_eq (d : Declaration) : d.encode = .map d.entries := by
  rcases d with c | a | s | m | f <;> rfl

theorem nodup_entries (d : Declaration) : (d.entries.map Prod.fst).Nodup := by
  rcases d with c | a | s | m | f
  · simp [entries, encode, Container.encode]
  · simp [entries, encode, Attribute.encode]
  · simp [entries, encode, Struct.encode]
  · simp [entries, encode, Mapping.encode]
  · simp [entries, encode, Function.encode]

theorem keeps_entries (d : Declaration) : ∀ entry ∈ d.entries, Keeps entry.2 := by
  have hoption := keeps_ofOption keeps_string
  rcases d with c | a | s | m | f
  all_goals simp only [entries, encode, Container.encode, Attribute.encode, Struct.encode,
    Mapping.encode, Function.encode, List.forall_mem_cons]
  · exact ⟨keeps_string _, keeps_string _, hoption _, hoption _, by simp⟩
  · exact ⟨keeps_string _, keeps_string _, hoption _, keeps_ofOption Value.keeps_encode _,
      hoption _, keeps_boolean _, by simp⟩
  · exact ⟨keeps_string _, keeps_list Attribute.keeps_encode (by simp [Attribute.encode]) _,
      hoption _, keeps_boolean _, by simp⟩
  · exact ⟨keeps_string _, keeps_string _, keeps_string _, hoption _, hoption _, keeps_boolean _,
      by simp⟩
  · exact ⟨keeps_string _, keeps_list Param.keeps_encode (by simp [Param.encode]) _, hoption _,
      hoption _, keeps_string _, hoption _, keeps_boolean _, by simp⟩

theorem ofKeyword?_keyword (d : Declaration) : Manifest.Tag.ofKeyword? d.keyword = some d.tag := by
  rcases d with c | a | s | m | f
  · rcases c with ⟨name, _ | _ | _, parent, comment⟩ <;> rfl
  all_goals rfl

/-- Apart from the kind, the table has the fields of the record. -/
theorem lookup_recordData_table (d : Declaration) :
    ∃ es, Manifest.recordData d.table = .map es ∧ es.lookup "kind" = none ∧
      ∀ key, key ≠ "kind" → SparseField (d.entries.lookup key) (es.lookup key) := by
  refine ⟨_, rfl, ?_, fun key hkey => ?_⟩
  · rw [lookup_entriesToData, lookup_filter_ne, if_pos rfl]
    rfl
  · rw [lookup_entriesToData, lookup_filter_ne, if_neg hkey, table, Entries.lookup_put,
      if_neg hkey]
    exact sparseField_ofEntries d.nodup_entries d.keeps_entries key

/-- A declaration is read from its table. -/
theorem reads_table (d : Declaration) : Manifest.Reads d.table d := by
  have hkind : d.table.lookup "kind" = some (.string d.keyword) := by
    rw [table, Entries.lookup_put, if_pos rfl]
  refine ⟨d.keyword, d.tag, hkind, d.ofKeyword?_keyword, ?_⟩
  obtain ⟨es, hdata, hnone, hes⟩ := d.lookup_recordData_table
  rw [hdata]
  -- Only the record of a container has a field of that name, and reads it as the default here.
  have hsparse : d.entries.lookup "kind" = none → Sparse d.encode (.map es) := by
    intro hd
    rw [encode_eq]
    refine .map fun key => ?_
    by_cases hkey : key = "kind"
    · rw [hkey, hd, hnone]
      exact .absent
    · exact hes key hkey
  rcases d with c | a | s | m | f
  · have hdefault : field es "kind" ContainerKind.decode .contract = .ok .contract := by
      simp [field, field?, hnone, Except.map]
    change (Container.ofEntries es).map _ = _
    rw [Container.ofEntries_of_sparse rfl hes hdefault]
    rfl
  · change (Attribute.decode (.map es)).map Declaration.attribute = _
    rw [a.gives_decode _ (hsparse rfl)]
    rfl
  · change (Struct.decode (.map es)).map Declaration.struct = _
    rw [s.gives_decode _ (hsparse rfl)]
    rfl
  · change (Mapping.decode (.map es)).map Declaration.mapping = _
    rw [m.gives_decode _ (hsparse rfl)]
    rfl
  · change (Function.decode (.map es)).map Declaration.function = _
    rw [f.gives_decode _ (hsparse rfl)]
    rfl

end Declaration

/-- Every record is read back from the data it is written as, and every declaration from its table
in a manifest, where the fields that are null are left out at every level and the kind of the
declaration stands among the others. -/
theorem decode_encode :
    (∀ v : Value, Value.decode v.encode = .ok v) ∧
      (∀ c : Container, Container.decode c.encode = .ok c) ∧
      (∀ a : Attribute, Attribute.decode a.encode = .ok a) ∧
      (∀ s : Struct, Struct.decode s.encode = .ok s) ∧
      (∀ m : Mapping, Mapping.decode m.encode = .ok m) ∧
      (∀ p : Param, Param.decode p.encode = .ok p) ∧
      (∀ f : Function, Function.decode f.encode = .ok f) ∧
      ∀ (source : List Char) (index : Nat) (d : Declaration),
        Manifest.decodeDeclaration source index d.table = .ok d :=
  ⟨fun v => v.gives_decode _ (.refl _), fun c => c.gives_decode _ (.refl _),
    fun a => a.gives_decode _ (.refl _), fun s => s.gives_decode _ (.refl _),
    fun m => m.gives_decode _ (.refl _), fun p => p.gives_decode _ (.refl _),
    fun f => f.gives_decode _ (.refl _),
    fun source index d => Manifest.decodeDeclaration_of_reads source index d.reads_table⟩

/-- A table is in ascending order of its keys, and the fields that are null are gone. -/
example :
    (Declaration.attribute { name := "owner", value := some (.literal "0") }).table.map Prod.fst =
      ["kind", "line_break", "name", "type", "value"] := by
  decide

end SoliditySource
