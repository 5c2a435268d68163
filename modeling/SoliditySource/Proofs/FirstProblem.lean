import Mathlib.Data.List.Nodup
import SoliditySource.Proofs.ManifestDocument

/-! Which problem of a manifest is reported. Three passes look at the tables of the declarations, at
the keys of the decoded declarations and at the patterns, and each stops at the first fault; a
relation says which fault of the whole source that is, and reading a manifest is exactly that
relation. -/
namespace SoliditySource.Manifest

open Toml (Entries)

/-! Tables. -/

/-- The entries of a table that make up the record. -/
def recordData (table : Entries) : Datum :=
  .map (Toml.entriesToData Toml.Datetime.toString (table.filter (·.1 ≠ "kind")))

/-- The table stands for the declaration. -/
def Reads (table : Entries) (d : Declaration) : Prop :=
  ∃ kind tag, table.lookup "kind" = some (.string kind) ∧ Tag.ofKeyword? kind = some tag ∧
    decodeTagged tag (recordData table) = .ok d

/-- What is wrong with the table number `index`. -/
inductive TableProblem (source : List Char) (index : Nat) (table : Entries) : Problem → Prop
  | missingKind (absent : table.lookup "kind" = none) :
      TableProblem source index table (.missingKind index (Span.header? source index))
  | kindNotText {node : Toml.Node} (found : table.lookup "kind" = some node)
      (notText : ∀ kind, node ≠ .string kind) :
      TableProblem source index table
        (.invalid (.kindNotText node.typeName) (Span.header? source index))
  | unknownKind {kind : String} (found : table.lookup "kind" = some (.string kind))
      (unknown : Tag.ofKeyword? kind = none) :
      TableProblem source index table
        (.unknownKind kind
          ((Span.assignment? source "kind".toList kind.toList).or (Span.header? source index)))
  | badRecord {kind : String} {tag : Tag} {mismatch : Mismatch}
      (found : table.lookup "kind" = some (.string kind)) (known : Tag.ofKeyword? kind = some tag)
      (bad : decodeTagged tag (recordData table) = .error mismatch) :
      TableProblem source index table
        (.invalid (.badRecord kind mismatch) (Span.header? source index))

theorem decodeDeclaration_of_reads (source : List Char) (index : Nat) {table : Entries}
    {d : Declaration} (h : Reads table d) : decodeDeclaration source index table = .ok d := by
  obtain ⟨kind, tag, hkind, htag, hd⟩ := h
  rw [recordData] at hd
  simp only [decodeDeclaration, hkind, htag]
  rw [hd]

theorem decodeDeclaration_of_tableProblem {source : List Char} {index : Nat} {table : Entries}
    {problem : Problem} (h : TableProblem source index table problem) :
    decodeDeclaration source index table = .error problem := by
  unfold decodeDeclaration
  cases h with
  | missingKind absent => simp [absent]
  | @kindNotText node found notText =>
    cases node with
    | string kind => exact absurd rfl (notText kind)
    | _ => simp only [found]
  | unknownKind found unknown => simp only [found, unknown]
  | badRecord found known bad =>
    rw [recordData] at bad
    simp only [found, known]
    rw [bad]

/-- A table that does not stand for a declaration has a problem. -/
theorem reads_or_tableProblem (source : List Char) (index : Nat) (table : Entries) :
    (∃ d, Reads table d) ∨ ∃ problem, TableProblem source index table problem := by
  cases hkind : table.lookup "kind" with
  | none => exact .inr ⟨_, .missingKind hkind⟩
  | some node =>
    by_cases htext : ∃ kind, node = .string kind
    · obtain ⟨kind, rfl⟩ := htext
      cases htag : Tag.ofKeyword? kind with
      | none => exact .inr ⟨_, .unknownKind hkind htag⟩
      | some tag =>
        cases hd : decodeTagged tag (recordData table) with
        | error mismatch => exact .inr ⟨_, .badRecord hkind htag hd⟩
        | ok d => exact .inl ⟨d, kind, tag, hkind, htag, hd⟩
    · exact .inr ⟨_, .kindNotText hkind fun kind he => htext ⟨kind, he⟩⟩

/-- The problem of a table that comes first after tables that can be read. -/
def FirstTableProblem (source : List Char) (index : Nat) (tables : List Entries)
    (problem : Problem) : Prop :=
  ∃ i table, tables[i]? = some table ∧ TableProblem source (index + i) table problem ∧
    ∀ earlier ∈ tables.take i, ∃ d, Reads earlier d

/-- Either all tables can be read, or there is a first one that cannot. -/
theorem reads_or_firstTableProblem (source : List Char) (index : Nat) (tables : List Entries) :
    (∃ ds, List.Forall₂ Reads tables ds) ∨
      ∃ problem, FirstTableProblem source index tables problem := by
  induction tables generalizing index with
  | nil => exact .inl ⟨[], .nil⟩
  | cons table tables ih =>
    rcases reads_or_tableProblem source index table with ⟨d, hd⟩ | ⟨problem, hproblem⟩
    · rcases ih (index + 1) with ⟨ds, hds⟩ | ⟨problem, i, later, hat, hproblem, hbefore⟩
      · exact .inl ⟨d :: ds, .cons hd hds⟩
      · refine .inr ⟨problem, i + 1, later, hat, ?_, ?_⟩
        · rwa [Nat.add_right_comm, Nat.add_assoc] at hproblem
        · simpa using And.intro ⟨d, hd⟩ hbefore
    · exact .inr ⟨problem, 0, table, rfl, hproblem, by simp⟩

theorem decodeDeclarations_of_reads (source : List Char) (index : Nat) {tables : List Entries}
    {ds : List Declaration} (h : List.Forall₂ Reads tables ds) :
    decodeDeclarations source index tables = .ok ds := by
  induction h generalizing index with
  | nil => rfl
  | cons hd _ ih =>
    rw [decodeDeclarations, decodeDeclaration_of_reads source index hd, ih]
    rfl

theorem decodeDeclarations_of_firstTableProblem {source : List Char} {index : Nat}
    {tables : List Entries} {problem : Problem}
    (h : FirstTableProblem source index tables problem) :
    decodeDeclarations source index tables = .error problem := by
  obtain ⟨i, table, hat, hproblem, hbefore⟩ := h
  induction i generalizing index tables with
  | zero =>
    obtain ⟨rest, rfl⟩ := List.head?_eq_some_iff.mp (List.head?_eq_getElem? ▸ hat)
    rw [Nat.add_zero] at hproblem
    rw [decodeDeclarations, decodeDeclaration_of_tableProblem hproblem]
    rfl
  | succ i ih =>
    cases tables with
    | nil => simp at hat
    | cons first tables =>
      obtain ⟨d, hd⟩ := hbefore first (by simp)
      have hrest : decodeDeclarations source (index + 1) tables = .error problem :=
        ih hat (by rwa [Nat.add_right_comm]) fun earlier he => hbefore earlier (by simp [he])
      rw [decodeDeclarations, decodeDeclaration_of_reads source index hd, hrest]
      rfl

/-! Keys. -/

/-- The key at `second` is the first that stands at an earlier place, and `first` is that place. -/
structure FirstRepeat (keys : List Key) (key : Key) (first second : Nat) : Prop where
  first_lt : first < second
  at_second : keys[second]? = some key
  at_first : ∀ i < second, keys[i]? = some key ↔ i = first
  least : ∀ j < second, ∀ i < j, keys[i]? ≠ keys[j]?

namespace FirstRepeat

variable {keys : List Key} {key key' : Key} {first second first' second' : Nat}

theorem getElem?_eq (h : FirstRepeat keys key first second) : keys[first]? = keys[second]? :=
  ((h.at_first first h.first_lt).mpr rfl).trans h.at_second.symm

theorem second_le (h : FirstRepeat keys key first second)
    (h' : FirstRepeat keys key' first' second') : second' ≤ second :=
  Nat.not_lt.mp fun hlt => h'.least second hlt first h.first_lt h.getElem?_eq

theorem unique (h : FirstRepeat keys key first second)
    (h' : FirstRepeat keys key' first' second') :
    key = key' ∧ first = first' ∧ second = second' := by
  obtain rfl : second = second' := Nat.le_antisymm (h'.second_le h) (h.second_le h')
  obtain rfl : key = key' := Option.some.inj (h.at_second.symm.trans h'.at_second)
  have hfirst : keys[first]? = some key := h.getElem?_eq.trans h.at_second
  exact ⟨rfl, (h'.at_first first h.first_lt).mp hfirst, rfl⟩

end FirstRepeat

/-- The search keeps the keys it has seen, which are distinct, in front of those to come. -/
theorem firstRepeat_of_firstRepeat? {seen keys : List Key} (hn : seen.Nodup) {key : Key}
    {first second : Nat} (h : firstRepeat? seen keys = some (key, first, second)) :
    FirstRepeat (seen ++ keys) key first second := by
  induction keys generalizing seen with
  | nil => simp [firstRepeat?] at h
  | cons k keys ih =>
    unfold firstRepeat? at h
    cases hf : seen.findIdx? (· = k) with
    | some i =>
      obtain ⟨rfl, rfl, rfl⟩ : k = key ∧ i = first ∧ seen.length = second := by
        simpa [hf] using h
      obtain ⟨hlt, hi, -⟩ := List.findIdx?_eq_some_iff_getElem.mp hf
      have hseen : ∀ j < seen.length, (seen ++ k :: keys)[j]? = seen[j]? := fun j hj =>
        List.getElem?_append_left hj
      refine ⟨hlt, by simp, fun j hj => ?_, fun j hj l hl => ?_⟩
      · have hat : seen[i]? = some k := by
          rw [List.getElem?_eq_getElem hlt, of_decide_eq_true hi]
        rw [hseen j hj, ← hat]
        exact List.getElem?_inj hj hn
      · rw [hseen j hj, hseen l (Nat.lt_trans hl hj)]
        exact List.nodup_iff_getElem?_ne_getElem?.mp hn l j hl hj
    | none =>
      have hk := (findIdx?_eq_none_iff_notMem seen k).mp hf
      have hnext := ih (hn.append (List.nodup_singleton k) (by simpa using hk))
        (by simpa [hf] using h)
      rwa [List.append_assoc, List.singleton_append] at hnext

/-- Keys that are not distinct have a first repeat, and the search finds it. -/
theorem nodup_or_firstRepeat (keys : List Key) :
    keys.Nodup ∨ ∃ key first second, FirstRepeat keys key first second := by
  cases h : firstRepeat? [] keys with
  | none => exact .inl ((firstRepeat?_eq_none_iff [] keys).mp h).1
  | some found =>
    obtain ⟨key, first, second⟩ := found
    exact .inr ⟨key, first, second, firstRepeat_of_firstRepeat? List.nodup_nil h⟩

theorem firstRepeat?_of_firstRepeat {keys : List Key} {key : Key} {first second : Nat}
    (h : FirstRepeat keys key first second) :
    firstRepeat? [] keys = some (key, first, second) := by
  cases hsearch : firstRepeat? [] keys with
  | none =>
    have hn := ((firstRepeat?_eq_none_iff [] keys).mp hsearch).1
    obtain ⟨hlt, -⟩ := List.getElem?_eq_some_iff.mp h.at_second
    exact absurd h.getElem?_eq
      (List.nodup_iff_getElem?_ne_getElem?.mp hn first second h.first_lt hlt)
  | some found =>
    obtain ⟨key', first', second'⟩ := found
    obtain ⟨rfl, rfl, rfl⟩ := h.unique (firstRepeat_of_firstRepeat? List.nodup_nil hsearch)
    rfl

/-! Manifests. -/

/-- What a source with the given sections is answered with. A table that cannot be read comes before
a repeated key, and that before an empty pattern. -/
inductive Answers (source : List Char) (sections : Sections) : Except Problem Manifest → Prop
  | table {problem : Problem}
      (first : FirstTableProblem source 0 sections.declarations problem) :
      Answers source sections (.error problem)
  | duplicate {ds : List Declaration} {key : Key} {first second : Nat}
      (reads : List.Forall₂ Reads sections.declarations ds)
      (repeats : FirstRepeat (ds.map Declaration.key) key first second) :
      Answers source sections
        (.error (.duplicate key
          (Span.declarationAssignment? source first "name".toList key.name.toList)
          (Span.declarationAssignment? source second "name".toList key.name.toList)))
  | emptyPattern {ds : List Declaration} (reads : List.Forall₂ Reads sections.declarations ds)
      (distinct : (ds.map Declaration.key).Nodup)
      (empty : ∃ r ∈ sections.replacements, r.pattern = "") :
      Answers source sections
        (.error (.invalid .emptyPattern (Span.assignment? source "from".toList [])))
  | accepted {ds : List Declaration} (reads : List.Forall₂ Reads sections.declarations ds)
      (distinct : (ds.map Declaration.key).Nodup)
      (patterns : ∀ r ∈ sections.replacements, r.pattern ≠ "") :
      Answers source sections (.ok ⟨sections.indent, ds, sections.replacements⟩)

section

variable {source : String} {sections : Sections}

theorem parse_of_malformed {mismatch : Option Mismatch}
    (h : Sections.parse source = .error mismatch) :
    parse source = .error (.malformed mismatch) := by
  simp only [parse, h]

theorem parse_of_firstTableProblem (h : Sections.parse source = .ok sections) {problem : Problem}
    (first : FirstTableProblem source.toList 0 sections.declarations problem) :
    parse source = .error problem := by
  simp only [parse, h, decodeDeclarations_of_firstTableProblem first]

theorem parse_of_reads (h : Sections.parse source = .ok sections) {ds : List Declaration}
    (reads : List.Forall₂ Reads sections.declarations ds) :
    parse source =
      (problem? source.toList ⟨sections.indent, ds, sections.replacements⟩).elim
        (.ok ⟨sections.indent, ds, sections.replacements⟩) .error := by
  simp only [parse, h, decodeDeclarations_of_reads source.toList 0 reads]
  cases problem? source.toList ⟨sections.indent, ds, sections.replacements⟩ <;> rfl

/-- There is an answer for every source with sections. -/
theorem exists_answer (source : List Char) (sections : Sections) :
    ∃ result, Answers source sections result := by
  rcases reads_or_firstTableProblem source 0 sections.declarations with
    ⟨ds, reads⟩ | ⟨problem, first⟩
  · rcases nodup_or_firstRepeat (ds.map Declaration.key) with
      distinct | ⟨key, first, second, repeats⟩
    · by_cases empty : ∃ r ∈ sections.replacements, r.pattern = ""
      · exact ⟨_, .emptyPattern reads distinct empty⟩
      · exact ⟨_, .accepted reads distinct fun r hr he => empty ⟨r, hr, he⟩⟩
    · exact ⟨_, .duplicate reads repeats⟩
  · exact ⟨_, .table first⟩

/-- The answer is the one that reading gives. -/
theorem Answers.parse_eq (h : Sections.parse source = .ok sections)
    {result : Except Problem Manifest} (answer : Answers source.toList sections result) :
    parse source = result := by
  cases answer with
  | table first => exact parse_of_firstTableProblem h first
  | duplicate reads repeats =>
    rw [parse_of_reads h reads, problem?, firstRepeat?_of_firstRepeat repeats]
    rfl
  | emptyPattern reads distinct empty =>
    have hnone := (firstRepeat?_eq_none_iff [] _).mpr ⟨distinct, by simp⟩
    have hany : sections.replacements.any (·.pattern.isEmpty) = true := by simpa using empty
    rw [parse_of_reads h reads, problem?, hnone]
    simp only [hany, if_true, Option.elim_some]
  | accepted reads distinct patterns =>
    rw [parse_of_reads h reads, (problem?_eq_none_iff _ _).mpr ⟨distinct, patterns⟩]
    rfl

/-- What reading gives is the answer. -/
theorem answers_of_parse (h : Sections.parse source = .ok sections)
    {result : Except Problem Manifest} (hparse : parse source = result) :
    Answers source.toList sections result := by
  obtain ⟨found, answer⟩ := exists_answer source.toList sections
  obtain rfl : found = result := (answer.parse_eq h).symm.trans hparse
  exact answer

/-- Reading a source that has the sections of a manifest reports exactly the first problem, in the
order of the passes and within each pass in the order of the file, and without a problem gives the
declarations and replacements as they stand there. -/
theorem parse_eq_iff_answers (h : Sections.parse source = .ok sections)
    (result : Except Problem Manifest) :
    parse source = result ↔ Answers source.toList sections result :=
  ⟨answers_of_parse h, fun answer => answer.parse_eq h⟩

end

/-- The problem that a source is refused with. Unlike the result of reading it can be compared. -/
def problemOf? (source : String) : Option Problem :=
  match parse source with
  | .error problem => some problem
  | .ok _ => none

theorem parse_of_problemOf? {source : String} {problem : Problem}
    (h : problemOf? source = some problem) : parse source = .error problem := by
  unfold problemOf? at h
  cases hp : parse source with
  | error found => simpa [hp] using h
  | ok m => simp [hp] at h

/-- Two keys stand twice here, and a pattern is empty. -/
def twoRepeats : String :=
  "[[declarations]]\nkind='struct'\nname='A'\n[[declarations]]\nkind='mapping'\nname='B'\n" ++
    "[[declarations]]\nkind='mapping'\nname='B'\n[[declarations]]\nkind='struct'\nname='A'\n" ++
    "[[replacements]]\nfrom=''\nto='x'\n"

theorem parse_twoRepeats :
    parse twoRepeats =
      .error (.duplicate ⟨.mapping, "B"⟩ (some ⟨78, 1⟩) (some ⟨119, 1⟩)) :=
  parse_of_problemOf? (by decide +kernel)

/-- The repeat that ends first is reported, with the places of both names, although the other one
begins before it. -/
theorem twoRepeats_answers :
    ∃ sections, Sections.parse twoRepeats = .ok sections ∧
      Answers twoRepeats.toList sections
        (.error (.duplicate ⟨.mapping, "B"⟩ (some ⟨78, 1⟩) (some ⟨119, 1⟩))) := by
  cases hs : Sections.parse twoRepeats with
  | error mismatch => cases (parse_of_malformed hs).symm.trans parse_twoRepeats
  | ok sections => exact ⟨sections, rfl, (parse_eq_iff_answers hs _).mp parse_twoRepeats⟩

end SoliditySource.Manifest
