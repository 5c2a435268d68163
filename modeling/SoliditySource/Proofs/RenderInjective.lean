import SoliditySource.Proofs.WellFormed

/-! Rendering loses nothing of well-formed declarations. The lines of a rendering are read from the
front: comment lines start with a slash, the last character and the first word of a line of code
tell what it declares, an empty line after it is its line break, and a lone brace closes what is
open. -/
namespace SoliditySource

def commentLines (comment : Option String) : List (List Char) :=
  (Comment.wrap comment).map Fragment.content

def blankIf (lineBreak : Bool) : List (List Char) :=
  if lineBreak then [[]] else []

theorem map_content_declarationFragments (comment : Option String) (body : List Fragment)
    (lineBreak : Bool) :
    (declarationFragments comment body lineBreak).map Fragment.content =
      commentLines comment ++ (body.map Fragment.content ++ blankIf lineBreak) := by
  cases lineBreak <;> simp [declarationFragments, commentLines, blankIf, Fragment.content]

namespace Declaration

/-- The line that says what is declared. -/
def codeLine : Declaration → List Char
  | .container c => c.header.toList
  | .attribute a => a.line.toList
  | .struct s => s.header.toList
  | .mapping m => m.line.toList
  | .function f => f.line.toList

/-- The lines of a declaration after its line of code. -/
def tailLines : Declaration → List (List Char)
  | .container _ => [[]]
  | .struct s =>
    (s.attributes.flatMap fun a => a.fragments.map Fragment.content) ++ ['}'] :: blankIf s.lineBreak
  | d => blankIf d.lineBreak

theorem map_content_fragments (d : Declaration) :
    d.fragments.map Fragment.content = commentLines d.comment ++ d.codeLine :: d.tailLines := by
  rcases d with c | a | s | m | f
  · exact map_content_declarationFragments c.comment _ _
  · exact map_content_declarationFragments a.comment _ _
  · rw [fragments, s.fragments_eq, map_content_declarationFragments]
    simp [Fragment.content, comment, codeLine, tailLines, List.map_flatMap]
  · exact map_content_declarationFragments m.comment _ _
  · exact map_content_declarationFragments f.comment _ _

end Declaration

/-! Comments. -/

theorem commentLines_some (comment : String) :
    commentLines (some comment) =
      (Comment.lines comment.toList).map fun l => '/' :: '/' :: ' ' :: l := by
  simp [commentLines, Comment.wrap, Fragment.content, Function.comp_def]

theorem exists_of_mem_commentLines {comment : Option String} {l : List Char}
    (h : l ∈ commentLines comment) :
    ∃ text ∈ comment, ∃ x ∈ Comment.lines text.toList, l = '/' :: '/' :: ' ' :: x := by
  obtain ⟨f, hf, rfl⟩ := List.mem_map.mp h
  obtain ⟨text, htext, x, hx, rfl⟩ := Comment.exists_of_mem_wrap hf
  exact ⟨text, htext, x, hx, by simp [Fragment.content]⟩

theorem head?_of_mem_commentLines {comment : Option String} {l : List Char}
    (h : l ∈ commentLines comment) : l.head? = some '/' := by
  obtain ⟨-, -, x, -, rfl⟩ := exists_of_mem_commentLines h
  rfl

theorem IsPlainComment.intercalate_lines {s : String} (h : IsPlainComment s) :
    [' '].intercalate (Comment.lines s.toList) = s.toList := by
  obtain ⟨words, -, hw, rfl⟩ := h
  have hlist : (" ".intercalate words).toList = [' '].intercalate (words.map String.toList) := by
    simp
  rw [Comment.intercalate_lines, hlist, Text.words_intercalate]
  simpa using hw

theorem IsPlainComment.lines_ne_nil {s : String} (h : IsPlainComment s) :
    Comment.lines s.toList ≠ [] := by
  intro hnil
  have hempty := h.intercalate_lines
  rw [hnil] at hempty
  obtain ⟨words, hne, hw, rfl⟩ := h
  obtain ⟨w, rest, rfl⟩ := List.exists_cons_of_ne_nil hne
  have hword := (hw w (by simp)).1
  cases rest <;> simp_all

theorem commentLines_inj {c e : Option String} (hc : ∀ s ∈ c, IsPlainComment s)
    (he : ∀ s ∈ e, IsPlainComment s) (h : commentLines c = commentLines e) : c = e := by
  cases c with
  | none =>
    cases e with
    | none => rfl
    | some t =>
      rw [commentLines_some] at h
      exact absurd (List.map_eq_nil_iff.mp h.symm) (he t rfl).lines_ne_nil
  | some s =>
    cases e with
    | none =>
      rw [commentLines_some] at h
      exact absurd (List.map_eq_nil_iff.mp h) (hc s rfl).lines_ne_nil
    | some t =>
      rw [commentLines_some, commentLines_some] at h
      have hlines := List.map_injective_iff.mpr (fun x y hxy => by simpa using hxy) h
      have hlist : s.toList = t.toList := by
        rw [← (hc s rfl).intercalate_lines, hlines, (he t rfl).intercalate_lines]
      rw [String.toList_inj.mp hlist]

/-- A comment ends at the first line of code. -/
theorem commentLines_append_inj {c e : Option String} {l m : List Char} {r s : List (List Char)}
    (hc : ∀ t ∈ c, IsPlainComment t) (he : ∀ t ∈ e, IsPlainComment t)
    (hl : l.head? ≠ some '/') (hm : m.head? ≠ some '/')
    (h : commentLines c ++ l :: r = commentLines e ++ m :: s) : c = e ∧ l = m ∧ r = s := by
  obtain ⟨hlines, hlm, hrs⟩ := Text.run_append_inj (p := fun l : List Char => l.head? = some '/')
    (fun _ => head?_of_mem_commentLines) (fun _ => head?_of_mem_commentLines) hl hm h
  exact ⟨commentLines_inj hc he hlines, hlm, hrs⟩

/-- A line break is told by the empty line, as no declaration starts with one. -/
theorem blankIf_append_inj {b c : Bool} {r s : List (List Char)} (hr : r.head? ≠ some [])
    (hs : s.head? ≠ some []) (h : blankIf b ++ r = blankIf c ++ s) : b = c ∧ r = s := by
  cases b <;> cases c <;> simp [blankIf] at h
  · exact ⟨rfl, h⟩
  · simp [h] at hr
  · simp [← h] at hs
  · exact ⟨rfl, h⟩

/-! Lines of code. -/

/-- What a line of code declares. -/
def lineKind (l : List Char) : DeclarationKind :=
  if l.getLast? = some '}' then .function
  else if l.getLast? = some '{' then if l.head? = some 's' then .struct else .container
  else if ['m', 'a', 'p', 'p', 'i', 'n', 'g', ' ', '('] <+: l then .mapping
  else .attribute

theorem getLast?_toList_append (s t : String) {c : Char} (h : t.toList.getLast? = some c) :
    (s ++ t).toList.getLast? = some c := by
  simp [List.getLast?_append, h]

theorem Container.lineKind_header {c : Container} (h : c.WellFormed) :
    lineKind c.header.toList = .container := by
  have hlast : c.header.toList.getLast? = some '{' := by
    delta header
    exact getLast?_toList_append _ _ (by simp)
  have hhead : c.header.toList.head? ≠ some 's' := by
    rw [h.toList_header]
    cases c.kind <;> simp [ContainerKind.keyword]
  simp [lineKind, hlast, hhead]

theorem Struct.lineKind_header (s : Struct) : lineKind s.header.toList = .struct := by
  have hlast : s.header.toList.getLast? = some '{' := by
    delta header
    exact getLast?_toList_append _ _ (by simp)
  have hhead : s.header.toList.head? = some 's' := by
    rw [s.toList_header]
    simp
  simp [lineKind, hlast, hhead]

theorem Mapping.lineKind_line {m : Mapping} (h : m.WellFormed) :
    lineKind m.line.toList = .mapping := by
  have hlast : m.line.toList.getLast? = some ';' := by
    delta line
    exact getLast?_toList_append _ _ (by simp)
  have hmapping : ['m', 'a', 'p', 'p', 'i', 'n', 'g', ' ', '('] <+: m.line.toList := by
    rw [h.toList_line]
    simp
  simp [lineKind, hlast, hmapping]

theorem Attribute.lineKind_line {a : Attribute} (h : a.WellFormed) :
    lineKind a.line.toList = .attribute := by
  have hlast : a.line.toList.getLast? = some ';' := by
    delta line
    exact getLast?_toList_append _ _ (by simp)
  have hmapping : ¬['m', 'a', 'p', 'p', 'i', 'n', 'g', ' ', '('] <+: a.line.toList := by
    rintro ⟨r, hr⟩
    rw [h.toList_line] at hr
    have hword : IsWord "mapping" := ⟨by decide, List.all_eq_true.mp (by rfl)⟩
    have hstart : "mapping".toList ++ ' ' :: ('(' :: r) = a.type.toList ++
        ' ' :: (optionalWord a.modifier ++ (a.name.toList ++ valueTail a.value)) := by
      simpa using hr
    have hrest := (hword.append_inj h.type (by decide) (by decide) hstart).2.2
    cases hm : a.modifier with
    | none =>
      rw [hm] at hrest
      exact h.name.append_ne (by decide) hrest.symm
    | some m =>
      rw [hm, optionalWord, List.append_assoc] at hrest
      exact (h.modifier m hm).append_ne (by decide) hrest.symm
  simp [lineKind, hlast, hmapping]

theorem Function.lineKind_line (f : Function) : lineKind f.line.toList = .function := by
  have hlast : f.line.toList.getLast? = some '}' := by
    delta line
    exact getLast?_toList_append _ _ (by simp)
  simp [lineKind, hlast]

theorem IsWord.newline_notMem {s : String} (h : IsWord s) : '\n' ∉ s.toList :=
  h.notMem (by rfl)

theorem newline_notMem_optionalWord {o : Option String} (h : ∀ s ∈ o, IsWord s) :
    '\n' ∉ optionalWord o := by
  cases o with
  | none => simp [optionalWord]
  | some s => simp [optionalWord, (h s rfl).newline_notMem]

theorem Container.newline_notMem_header {c : Container} (h : c.WellFormed) :
    '\n' ∉ c.header.toList := by
  have hkeyword := c.kind.isWord_keyword.newline_notMem
  rw [h.toList_header]
  cases hp : c.parent with
  | none => simp [hkeyword, h.name.newline_notMem]
  | some p => simp [hkeyword, h.name.newline_notMem, (h.parent p hp).newline_notMem]

theorem Attribute.newline_notMem_line {a : Attribute} (h : a.WellFormed) :
    '\n' ∉ a.line.toList := by
  have htail : '\n' ∉ valueTail a.value := by
    cases hv : a.value with
    | none => simp [valueTail]
    | some v => simp [valueTail, Value.newline_notMem_source (h.value v hv).ne_literal]
  rw [h.toList_line]
  simp [h.type.newline_notMem, h.name.newline_notMem, newline_notMem_optionalWord h.modifier, htail]

theorem Struct.newline_notMem_header {s : Struct} (h : s.WellFormed) : '\n' ∉ s.header.toList := by
  rw [s.toList_header]
  simp [h.name.newline_notMem]

theorem Mapping.newline_notMem_line {m : Mapping} (h : m.WellFormed) : '\n' ∉ m.line.toList := by
  rw [h.toList_line]
  simp [h.keyType.newline_notMem, h.valueType.newline_notMem, h.name.newline_notMem,
    newline_notMem_optionalWord h.modifier]

theorem Function.newline_notMem_line {f : Function} (h : f.WellFormed) :
    '\n' ∉ f.line.toList := by
  have hword : ∀ {s : String}, IsWord s → ∀ c ∈ s.toList, c ≠ '\n' := fun hs c hc he =>
    hs.newline_notMem (he ▸ hc)
  have hparams := forall_mem_parameterList (P := (· ≠ '\n')) (by decide) (by decide) fun p hp =>
    ⟨hword (h.parameters p hp).type, hword (h.parameters p hp).name⟩
  have hbody : '\n' ∉ f.body.toList := fun hb => (h.body _ hb).1 rfl
  obtain ⟨code, hcode, htail⟩ := signatureTail_eq_append (P := (· ≠ '\n')) f.body.toList (by simp)
    (fun s hs => hword (h.modifier s hs)) (fun s hs => hword (h.returnType s hs))
  have hmem : '\n' ∉ parameterList f.parameters := fun hc => hparams _ hc rfl
  have hmem' : '\n' ∉ code := fun hc => hcode _ hc rfl
  rw [h.toList_line, htail]
  simp [h.name.newline_notMem, hmem, hmem', hbody]

namespace Declaration

variable {d e : Declaration}

theorem lineKind_codeLine (h : d.WellFormed) : lineKind d.codeLine = d.kind := by
  rcases d with c | a | s | m | f
  · exact Container.lineKind_header h
  · exact Attribute.lineKind_line h
  · exact s.lineKind_header
  · exact Mapping.lineKind_line h
  · exact f.lineKind_line

/-- Every line of code starts with a word. -/
theorem head?_codeLine (h : d.WellFormed) :
    ∃ c, d.codeLine.head? = some c ∧ isWordChar c = true := by
  rcases d with c | a | s | m | f
  · rw [codeLine, Container.WellFormed.toList_header h]
    exact c.kind.isWord_keyword.head? _
  · rw [codeLine, Attribute.WellFormed.toList_line h]
    exact h.type.head? _
  · rw [codeLine, Struct.toList_header]
    exact ⟨'s', by simp, by rfl⟩
  · rw [codeLine, Mapping.WellFormed.toList_line h]
    exact ⟨'m', by simp, by rfl⟩
  · rw [codeLine, Function.WellFormed.toList_line h]
    exact ⟨'f', by simp, by rfl⟩

/-- The line of code of a well-formed declaration is one line. -/
theorem newline_notMem_codeLine (h : d.WellFormed) : '\n' ∉ d.codeLine := by
  rcases d with c | a | s | m | f
  · exact Container.newline_notMem_header h
  · exact Attribute.newline_notMem_line h
  · exact Struct.newline_notMem_header h
  · exact Mapping.newline_notMem_line h
  · exact Function.newline_notMem_line h

theorem head?_codeLine_ne (h : d.WellFormed) {c : Char} (hc : isWordChar c = false) :
    d.codeLine.head? ≠ some c := by
  obtain ⟨x, hx, hw⟩ := head?_codeLine h
  rw [hx]
  rintro ⟨rfl⟩
  simp [hw] at hc

theorem comment_wellFormed (h : d.WellFormed) : ∀ s ∈ d.comment, IsPlainComment s := by
  rcases d with c | a | s | m | f <;> exact h.comment

end Declaration

/-! Sequences of declarations. -/

/-- The first line is neither empty nor a closing brace. -/
def StartsOpen (ls : List (List Char)) : Prop :=
  ∃ c cs rest, ls = (c :: cs) :: rest ∧ c ≠ '}'

theorem StartsOpen.head?_ne {ls : List (List Char)} (h : StartsOpen ls) : ls.head? ≠ some [] := by
  obtain ⟨c, cs, rest, rfl, -⟩ := h
  simp

theorem StartsOpen.ne_close {ls rest : List (List Char)} (h : StartsOpen ls) :
    ls ≠ ['}'] :: rest := by
  obtain ⟨c, cs, tail, rfl, hc⟩ := h
  simp [hc]

theorem Declaration.startsOpen {d : Declaration} (h : d.WellFormed) (r : List (List Char)) :
    StartsOpen (d.fragments.map Fragment.content ++ r) := by
  rw [d.map_content_fragments]
  cases hl : commentLines d.comment with
  | nil =>
    obtain ⟨c, hc, hw⟩ := Declaration.head?_codeLine h
    obtain ⟨cs, hcs⟩ := List.head?_eq_some_iff.mp hc
    refine ⟨c, cs, d.tailLines ++ r, by simp [hcs], ?_⟩
    rintro rfl
    exact absurd hw (by decide)
  | cons l ls =>
    have hhead := head?_of_mem_commentLines (hl ▸ List.mem_cons_self : l ∈ commentLines d.comment)
    obtain ⟨cs, hcs⟩ := List.head?_eq_some_iff.mp hhead
    exact ⟨'/', cs, ls ++ d.codeLine :: d.tailLines ++ r, by simp [hcs], by decide⟩

theorem Attribute.lines_append_inj {a b : Attribute} (ha : a.WellFormed) (hb : b.WellFormed)
    {r s : List (List Char)} (hr : r.head? ≠ some []) (hs : s.head? ≠ some [])
    (h : a.fragments.map Fragment.content ++ r = b.fragments.map Fragment.content ++ s) :
    a = b ∧ r = s := by
  have hslash : isWordChar '/' = false := by rfl
  have hlines : ∀ c : Attribute, c.fragments.map Fragment.content =
      commentLines c.comment ++ c.line.toList :: blankIf c.lineBreak :=
    fun c => (Declaration.attribute c).map_content_fragments
  simp only [hlines, List.append_assoc, List.cons_append] at h
  obtain ⟨hcomment, hline, htail⟩ := commentLines_append_inj ha.comment hb.comment
    (Declaration.head?_codeLine_ne (d := .attribute a) ha hslash)
    (Declaration.head?_codeLine_ne (d := .attribute b) hb hslash) h
  obtain ⟨htype, hmodifier, hname, hvalue⟩ := Attribute.line_inj ha hb hline
  obtain ⟨hbreak, hrest⟩ := blankIf_append_inj hr hs htail
  refine ⟨?_, hrest⟩
  cases a
  cases b
  simp_all

/-- The members of a struct are read up to the brace that closes it. -/
theorem members_append_inj {as bs : List Attribute} (ha : ∀ a ∈ as, a.WellFormed)
    (hb : ∀ b ∈ bs, b.WellFormed) {r s : List (List Char)}
    (h : (as.flatMap fun a => a.fragments.map Fragment.content) ++ ['}'] :: r =
      (bs.flatMap fun b => b.fragments.map Fragment.content) ++ ['}'] :: s) : as = bs ∧ r = s := by
  have hopen : ∀ {c : Attribute} {cs : List Attribute} {t : List (List Char)}, c.WellFormed →
      StartsOpen (((c :: cs).flatMap fun a => a.fragments.map Fragment.content) ++ t) := by
    intro c cs t hc
    rw [List.flatMap_cons, List.append_assoc]
    exact Declaration.startsOpen (d := .attribute c) hc _
  -- What follows a member is another member or the brace, and neither is an empty line.
  have hnext : ∀ {cs : List Attribute} {t : List (List Char)}, (∀ c ∈ cs, c.WellFormed) →
      ((cs.flatMap fun a => a.fragments.map Fragment.content) ++ ['}'] :: t).head? ≠ some [] := by
    intro cs t hc
    cases cs with
    | nil => simp
    | cons c cs => exact (hopen (hc c (by simp))).head?_ne
  induction as generalizing bs with
  | nil =>
    cases bs with
    | nil => simpa using h
    | cons b bs => exact absurd h.symm (hopen (hb b (by simp))).ne_close
  | cons a as ih =>
    cases bs with
    | nil => exact absurd h (hopen (ha a (by simp))).ne_close
    | cons b bs =>
      have has : ∀ c ∈ as, c.WellFormed := fun c hc => ha c (by simp [hc])
      have hbs : ∀ c ∈ bs, c.WellFormed := fun c hc => hb c (by simp [hc])
      rw [List.flatMap_cons, List.flatMap_cons, List.append_assoc, List.append_assoc] at h
      obtain ⟨rfl, hrest⟩ := Attribute.lines_append_inj (ha a (by simp)) (hb b (by simp))
        (hnext has) (hnext hbs) h
      obtain ⟨rfl, hrs⟩ := ih has hbs hrest
      exact ⟨rfl, hrs⟩

theorem Declaration.lines_append_inj {d e : Declaration} (hd : d.WellFormed) (he : e.WellFormed)
    {r s : List (List Char)} (hr : r.head? ≠ some []) (hs : s.head? ≠ some [])
    (h : d.fragments.map Fragment.content ++ r = e.fragments.map Fragment.content ++ s) :
    d = e ∧ r = s := by
  have hslash : isWordChar '/' = false := by rfl
  have hsplit := h
  simp only [map_content_fragments, List.append_assoc, List.cons_append] at hsplit
  obtain ⟨hcomment, hcode, htail⟩ := commentLines_append_inj (comment_wellFormed hd)
    (comment_wellFormed he) (head?_codeLine_ne hd hslash) (head?_codeLine_ne he hslash) hsplit
  have hkind : d.kind = e.kind := by
    rw [← lineKind_codeLine hd, ← lineKind_codeLine he, hcode]
  rcases d with c | a | t | m | f <;> rcases e with c' | a' | t' | m' | f' <;>
    simp only [kind, reduceCtorEq] at hkind
  · obtain ⟨hckind, hname, hparent⟩ := Container.header_inj hd he hcode
    refine ⟨?_, by simpa [tailLines] using htail⟩
    cases c
    cases c'
    simp_all [comment]
  · obtain ⟨rfl, hrest⟩ := Attribute.lines_append_inj hd he hr hs h
    exact ⟨rfl, hrest⟩
  · have hname := Struct.header_inj hd he hcode
    simp only [tailLines, List.append_assoc, List.cons_append] at htail
    obtain ⟨hmembers, htail⟩ := members_append_inj hd.attributes he.attributes htail
    obtain ⟨hbreak, hrest⟩ := blankIf_append_inj hr hs htail
    refine ⟨?_, hrest⟩
    cases t
    cases t'
    simp_all [comment]
  · obtain ⟨hkey, hvalue, hmodifier, hname⟩ := Mapping.line_inj hd he hcode
    obtain ⟨hbreak, hrest⟩ := blankIf_append_inj hr hs htail
    refine ⟨?_, hrest⟩
    cases m
    cases m'
    simp_all [comment, lineBreak]
  · obtain ⟨hname, hparams, hmodifier, hreturns, hbody⟩ := Function.line_inj hd he hcode
    obtain ⟨hbreak, hrest⟩ := blankIf_append_inj hr hs htail
    refine ⟨?_, hrest⟩
    cases f
    cases f'
    simp_all [comment, lineBreak]

/-- What follows a declaration starts with a closing brace or with the next declaration. -/
theorem head?_restFragments_ne {ds : List Declaration} (h : ∀ d ∈ ds, d.WellFormed) :
    ((restFragments ds).map Fragment.content).head? ≠ some [] := by
  cases ds with
  | nil => simp [restFragments, Fragment.content]
  | cons d ds =>
    rw [restFragments]
    split_ifs
    · simp [Fragment.content]
    · rw [List.nil_append, List.map_append]
      exact (Declaration.startsOpen (h d (by simp)) _).head?_ne

theorem restFragments_inj {ds es : List Declaration} (hd : ∀ d ∈ ds, d.WellFormed)
    (he : ∀ e ∈ es, e.WellFormed)
    (h : (restFragments ds).map Fragment.content = (restFragments es).map Fragment.content) :
    ds = es := by
  have hclosed : ∀ {d : Declaration} {rest : List Declaration}, d.isContainer = true →
      (restFragments (d :: rest)).map Fragment.content = ['}'] :: [] ::
        (d.fragments.map Fragment.content ++ (restFragments rest).map Fragment.content) := by
    intro d rest hc
    simp [restFragments, hc, Fragment.content]
  have hopen : ∀ {d : Declaration} {rest : List Declaration}, d.isContainer = false →
      (restFragments (d :: rest)).map Fragment.content =
        d.fragments.map Fragment.content ++ (restFragments rest).map Fragment.content := by
    intro d rest hc
    simp [restFragments, hc]
  have hend : (restFragments []).map Fragment.content = [['}']] := by
    simp [restFragments, Fragment.content]
  induction ds generalizing es with
  | nil =>
    cases es with
    | nil => rfl
    | cons e es =>
      rw [hend] at h
      cases hc : e.isContainer with
      | true => simp [hclosed hc] at h
      | false =>
        rw [hopen hc] at h
        exact absurd h.symm (Declaration.startsOpen (he e (by simp)) _).ne_close
  | cons d ds ih =>
    have hds : ∀ x ∈ ds, x.WellFormed := fun x hx => hd x (by simp [hx])
    cases es with
    | nil =>
      rw [hend] at h
      cases hc : d.isContainer with
      | true => simp [hclosed hc] at h
      | false =>
        rw [hopen hc] at h
        exact absurd h (Declaration.startsOpen (hd d (by simp)) _).ne_close
    | cons e es =>
      have hes : ∀ x ∈ es, x.WellFormed := fun x hx => he x (by simp [hx])
      have hmatch : d.fragments.map Fragment.content ++ (restFragments ds).map Fragment.content =
          e.fragments.map Fragment.content ++ (restFragments es).map Fragment.content := by
        cases hc : d.isContainer <;> cases hc' : e.isContainer
        · rwa [hopen hc, hopen hc'] at h
        · rw [hopen hc, hclosed hc'] at h
          exact absurd h (Declaration.startsOpen (hd d (by simp)) _).ne_close
        · rw [hclosed hc, hopen hc'] at h
          exact absurd h.symm (Declaration.startsOpen (he e (by simp)) _).ne_close
        · rw [hclosed hc, hclosed hc'] at h
          simpa using h
      obtain ⟨rfl, hrest⟩ := Declaration.lines_append_inj (hd d (by simp)) (he e (by simp))
        (head?_restFragments_ne hds) (head?_restFragments_ne hes) hmatch
      rw [ih hds hes hrest]

theorem newline_notMem_blankIf (lineBreak : Bool) : ∀ l ∈ blankIf lineBreak, '\n' ∉ l := by
  cases lineBreak <;> simp [blankIf]

theorem newline_notMem_of_mem_lines {comment : Option String} {line : List Char}
    {tail : List (List Char)} (hline : '\n' ∉ line) (htail : ∀ l ∈ tail, '\n' ∉ l) :
    ∀ l ∈ commentLines comment ++ line :: tail, '\n' ∉ l := by
  intro l hl
  rw [List.mem_append, List.mem_cons] at hl
  rcases hl with hl | rfl | hl
  · obtain ⟨text, -, x, hx, rfl⟩ := exists_of_mem_commentLines hl
    simpa using Comment.newline_notMem_of_mem_lines hx
  · exact hline
  · exact htail l hl

theorem Attribute.newline_notMem {a : Attribute} (h : a.WellFormed) :
    ∀ l ∈ a.fragments.map Fragment.content, '\n' ∉ l := by
  have hlines := (Declaration.attribute a).map_content_fragments
  rw [Declaration.fragments] at hlines
  rw [hlines]
  exact newline_notMem_of_mem_lines (newline_notMem_line h) (newline_notMem_blankIf a.lineBreak)

/-- Every fragment of a well-formed declaration is one line. -/
theorem Declaration.newline_notMem {d : Declaration} (h : d.WellFormed) :
    ∀ l ∈ d.fragments.map Fragment.content, '\n' ∉ l := by
  have htail : ∀ l ∈ d.tailLines, '\n' ∉ l := by
    rcases d with c | a | s | m | f
    · simp [tailLines]
    · exact newline_notMem_blankIf a.lineBreak
    · intro l hl
      simp only [tailLines, List.mem_append, List.mem_flatMap, List.mem_cons] at hl
      rcases hl with ⟨a, ha, hl⟩ | rfl | hl
      · exact Attribute.newline_notMem (h.attributes a ha) l hl
      · simp
      · exact newline_notMem_blankIf s.lineBreak l hl
    · exact newline_notMem_blankIf m.lineBreak
    · exact newline_notMem_blankIf f.lineBreak
  rw [d.map_content_fragments]
  exact newline_notMem_of_mem_lines (newline_notMem_codeLine h) htail

theorem restFragments_newline_notMem {ds : List Declaration} (h : ∀ d ∈ ds, d.WellFormed) :
    ∀ l ∈ (restFragments ds).map Fragment.content, '\n' ∉ l := by
  induction ds with
  | nil => simp [restFragments, Fragment.content]
  | cons d ds ih =>
    intro l hl
    simp only [restFragments, List.map_append, List.mem_append] at hl
    rcases hl with (hl | hl) | hl
    · split_ifs at hl
      · simp only [List.map_cons, List.map_nil, Fragment.content, List.mem_cons,
          List.not_mem_nil, or_false] at hl
        rcases hl with rfl | rfl <;> simp
      · simp at hl
    · exact Declaration.newline_notMem (h d (by simp)) l hl
    · exact ih (fun x hx => h x (by simp [hx])) l hl

/-- Declarations that start with a container and are all well-formed. -/
structure WellFormedDeclarations (ds : List Declaration) : Prop where
  first : StartsWithContainer ds
  each : ∀ d ∈ ds, d.WellFormed

theorem WellFormedDeclarations.newline_notMem {ds : List Declaration}
    (h : WellFormedDeclarations ds) :
    ∀ l ∈ (renderFragments ds).map Fragment.content, '\n' ∉ l := by
  obtain ⟨c, rest, rfl⟩ := h.first
  intro l hl
  rw [renderFragments, List.map_append, List.mem_append] at hl
  rcases hl with hl | hl
  · exact Declaration.newline_notMem (h.each _ (by simp)) l hl
  · exact restFragments_newline_notMem (fun x hx => h.each x (by simp [hx])) l hl

/-- Two lists of well-formed declarations are rendered alike only if they are the same list. -/
theorem renderDeclarations_eq_iff {ds es : List Declaration} (hd : WellFormedDeclarations ds)
    (he : WellFormedDeclarations es) : renderDeclarations ds = renderDeclarations es ↔ ds = es := by
  refine ⟨fun h => ?_, fun h => by rw [h]⟩
  obtain ⟨text, htext, hlist⟩ := renderDeclarations_eq hd.first
  obtain ⟨text', htext', hlist'⟩ := renderDeclarations_eq he.first
  have hsame : text = text' := Except.ok.inj (htext.symm.trans (h.trans htext'))
  rw [hsame, hlist'] at hlist
  have hcontents := Text.unlines_inj he.newline_notMem hd.newline_notMem hlist
  obtain ⟨c, rest, rfl⟩ := hd.first
  obtain ⟨c', rest', rfl⟩ := he.first
  have hrest : ∀ x ∈ rest, x.WellFormed := fun x hx => hd.each x (by simp [hx])
  have hrest' : ∀ x ∈ rest', x.WellFormed := fun x hx => he.each x (by simp [hx])
  rw [renderFragments, renderFragments, List.map_append, List.map_append] at hcontents
  obtain ⟨hfirst, hcontents⟩ := Declaration.lines_append_inj (he.each _ (by simp))
    (hd.each _ (by simp)) (head?_restFragments_ne hrest') (head?_restFragments_ne hrest) hcontents
  rw [hfirst, restFragments_inj hrest hrest' hcontents.symm]

/-- A struct whose only member holds the delimiters of its own closing line. The empty line after
the member either belongs to it or to the struct. -/
def delimiterStruct (inside : Bool) : List Declaration :=
  [.container { name := "Vault", comment := some "what every user of the vault may see" },
    .struct {
      name := "Entry", lineBreak := !inside
      attributes := [{
        name := "note", type := "string", value := some (.text "\";\n\x7d // '")
        lineBreak := inside }] }]

theorem delimiterStruct_wellFormed (inside : Bool) :
    WellFormedDeclarations (delimiterStruct inside) := by
  have hword : ∀ s ∈ ["Vault", "Entry", "note", "string"], IsWord s := by
    have h : ∀ s ∈ ["Vault", "Entry", "note", "string"],
        s ≠ "" ∧ s.toList.all isWordChar = true := by decide +kernel
    exact fun s hs => ⟨(h s hs).1, List.all_eq_true.mp (h s hs).2⟩
  have hcomment : IsPlainComment "what every user of the vault may see" := by
    have h : ∀ w ∈ ["what", "every", "user", "of", "the", "vault", "may", "see"],
        w ≠ "" ∧ w.toList.all (!Text.isBlank ·) = true := by decide +kernel
    refine ⟨_, by simp, fun w hw => ⟨(h w hw).1, fun c hc => ?_⟩, by decide +kernel⟩
    simpa using List.all_eq_true.mp (h w hw).2 c hc
  have hvault : Container.WellFormed
      { name := "Vault", comment := some "what every user of the vault may see" } :=
    { name := hword _ (by simp)
      parent := by simp
      comment := by simpa using hcomment }
  refine ⟨⟨_, _, rfl⟩, fun d hd => ?_⟩
  simp only [delimiterStruct, List.mem_cons, List.not_mem_nil, or_false] at hd
  rcases hd with rfl | rfl
  · exact hvault
  · refine ⟨hword _ (by simp), fun a ha => ?_, by simp⟩
    obtain rfl := List.mem_singleton.mp ha
    exact
      { name := hword _ (by simp)
        type := hword _ (by simp)
        modifier := by simp
        value := by simp [Value.WellFormed]
        comment := by simp }

/-- The two lists differ in one line break only, and so do not have the same rendering. -/
theorem renderDeclarations_delimiterStruct_ne :
    WellFormedDeclarations (delimiterStruct true) ∧ WellFormedDeclarations (delimiterStruct false) ∧
      renderDeclarations (delimiterStruct true) ≠ renderDeclarations (delimiterStruct false) :=
  ⟨delimiterStruct_wellFormed true, delimiterStruct_wellFormed false, fun h =>
    absurd ((renderDeclarations_eq_iff (delimiterStruct_wellFormed true)
      (delimiterStruct_wellFormed false)).mp h) (by simp [delimiterStruct])⟩

end SoliditySource
