import SoliditySource.Proofs.CodeLine
import SoliditySource.Proofs.LevelledLines
import SoliditySource.Proofs.RenderCompose
import SoliditySource.Proofs.ValueSource

/-! Where the lines of a rendered document are indented to. The level of a line follows from the
declaration it comes from, whatever the comments and quoted texts hold, as long as the code fields
hold no character that the scanner minds. -/
namespace SoliditySource

open Braces

/-! The levels of the lines. -/

def fragmentsAt (level : Nat) (fs : List Fragment) : List Line :=
  linesAt level (fs.flatMap Fragment.lines)

/-- The first line of a function stands with the other members, and the braces of the function
indent the lines after it. -/
def Function.codeLines (f : Function) : List Line :=
  match (Fragment.line f.line).lines with
  | [] => []
  | first :: rest => ⟨1, first⟩ :: nestedLines 1 first rest

def Declaration.outline : Declaration → List Line
  | .container c =>
    fragmentsAt 0 (Comment.wrap c.comment ++ [.line c.header]) ++ fragmentsAt 1 [.blank]
  | .attribute a => fragmentsAt 1 a.fragments
  | .struct s =>
    fragmentsAt 1 (Comment.wrap s.comment ++ [.line s.header]) ++
      fragmentsAt 2 (s.attributes.flatMap Attribute.fragments) ++
      fragmentsAt 1 (.line "\x7d" :: if s.lineBreak then [.blank] else [])
  | .mapping m => fragmentsAt 1 m.fragments
  | .function f =>
    fragmentsAt 1 (Comment.wrap f.comment) ++ f.codeLines ++
      fragmentsAt 1 (if f.lineBreak then [.blank] else [])

/-- The lines of declarations that follow an open segment, and the brace that closes the last one.
-/
def restOutline : List Declaration → List Line
  | [] => fragmentsAt 0 [.line "\x7d"]
  | d :: ds =>
    (if d.isContainer then fragmentsAt 0 [.line "\x7d", .blank] else []) ++ d.outline ++
      restOutline ds

def outline : List Declaration → List Line
  | [] => []
  | d :: ds => d.outline ++ restOutline ds

/-! The lines themselves are those of the flat text. -/

theorem map_source_fragmentsAt (level : Nat) (fs : List Fragment) :
    (fragmentsAt level fs).map Line.source = fs.flatMap Fragment.lines := by
  simp [fragmentsAt, linesAt, Function.comp_def]

theorem map_source_nestedLines (level : Nat) (before : List Char) (ls : List (List Char)) :
    (nestedLines level before ls).map Line.source = ls := by
  induction ls generalizing before with
  | nil => rfl
  | cons l ls ih => rw [nestedLines, List.map_cons, ih]

theorem Function.map_source_codeLines (f : Function) :
    f.codeLines.map Line.source = (Fragment.line f.line).lines := by
  rw [codeLines]
  split <;> simp_all [map_source_nestedLines]

theorem Declaration.map_source_outline (d : Declaration) :
    d.outline.map Line.source = d.fragments.flatMap Fragment.lines := by
  rcases d with c | a | s | m | f
  · simp [outline, fragments, Container.fragments, declarationFragments, map_source_fragmentsAt]
  · exact map_source_fragmentsAt 1 a.fragments
  · simp only [outline, fragments, s.fragments_eq, declarationFragments, List.map_append,
      map_source_fragmentsAt, List.flatMap_append, List.flatMap_cons, List.append_assoc,
      List.cons_append, List.flatMap_nil, List.nil_append]
  · exact map_source_fragmentsAt 1 m.fragments
  · simp [outline, fragments, Function.fragments, declarationFragments, map_source_fragmentsAt,
      Function.map_source_codeLines]

theorem map_source_restOutline (ds : List Declaration) :
    (restOutline ds).map Line.source = (restFragments ds).flatMap Fragment.lines := by
  induction ds with
  | nil => exact map_source_fragmentsAt 0 _
  | cons d ds ih =>
    rw [restOutline, restFragments, List.map_append, List.map_append, ih, d.map_source_outline,
      List.flatMap_append, List.flatMap_append]
    cases d.isContainer
    · rfl
    · rw [if_pos rfl, if_pos rfl, map_source_fragmentsAt]

theorem map_source_outline (ds : List Declaration) :
    (outline ds).map Line.source = (renderFragments ds).flatMap Fragment.lines := by
  cases ds with
  | nil => rfl
  | cons d ds =>
    rw [outline, renderFragments, List.map_append, List.flatMap_append, d.map_source_outline,
      map_source_restOutline]

/-! Neutral declarations. -/

def IsNeutralText (s : String) : Prop :=
  ∀ c ∈ s.toList, IsNeutral c

instance (s : String) : Decidable (IsNeutralText s) :=
  List.decidableBAll _ s.toList

/-- A body may hold braces, as long as they nest. -/
def IsNeutralBody (s : String) : Prop :=
  (∀ c ∈ s.toList, IsPlain c) ∧ Balanced s.toList

instance (s : String) : Decidable (IsNeutralBody s) :=
  have := List.decidableBAll IsPlain s.toList
  instDecidableAnd

def Value.codeFields : Value → List String
  | literal s => [s]
  | _ => []

def Attribute.codeFields (a : Attribute) : List String :=
  a.type :: a.name :: (a.modifier.toList ++ a.value.toList.flatMap Value.codeFields)

/-- The fields that are written into the text as they are, bodies apart. -/
def Declaration.codeFields : Declaration → List String
  | .container c => c.name :: c.parent.toList
  | .attribute a => a.codeFields
  | .struct s => s.name :: s.attributes.flatMap Attribute.codeFields
  | .mapping m => m.keyType :: m.valueType :: m.name :: m.modifier.toList
  | .function f =>
    f.name :: (f.modifier.toList ++ f.returnType.toList ++
      f.parameters.flatMap fun p => [p.type, p.name])

structure Declaration.Neutral (d : Declaration) : Prop where
  fields : ∀ s ∈ d.codeFields, IsNeutralText s
  body : ∀ f ∈ d.function?, IsNeutralBody f.body

theorem mem_of_mem_present {o : Option String} {s : String} (h : s ∈ present o) : s ∈ o := by
  rw [present, Option.mem_def, Option.filter_eq_some_iff] at h
  exact h.1

theorem Value.isNeutral_source {v : Value} (hv : ∀ s, v ≠ text s)
    (h : ∀ s ∈ v.codeFields, IsNeutralText s) : ∀ c ∈ v.source.toList, IsNeutral c := by
  cases v with
  | boolean b => cases b <;> simp [source, IsNeutral]
  | integer n =>
    intro c hc hspecial
    have hdigit := mem_integer_source hc
    simp only [List.mem_cons, List.not_mem_nil, or_false] at hspecial
    rcases hspecial with rfl | rfl | rfl | rfl | rfl <;> exact absurd hdigit (by decide)
  | text s => exact absurd rfl (hv s)
  | literal s => exact h s (by simp [codeFields])

/-! The levels of the lines are those the formatter arrives at. -/

theorem fragmentsAt_append (level : Nat) (fs gs : List Fragment) :
    fragmentsAt level (fs ++ gs) = fragmentsAt level fs ++ fragmentsAt level gs := by
  simp [fragmentsAt, linesAt]

theorem fragmentsAt_line (level : Nat) (line : String) :
    fragmentsAt level [.line line] = linesAt level (Text.endedLines line.toList) := by
  simp [fragmentsAt, Fragment.lines_eq, Fragment.content]

theorem levelled_comment (comment : Option String) (depth : Nat) :
    Levelled depth (fragmentsAt depth (Comment.wrap comment)) depth := by
  refine .of_silent (fun line hline => ?_) depth
  obtain ⟨f, hf, hline⟩ := List.mem_flatMap.mp hline
  obtain ⟨text, -, l, hl, rfl⟩ := Comment.exists_of_mem_wrap hf
  have hnewline := Comment.newline_notMem_of_mem_lines hl
  rw [Fragment.lines_eq, Text.endedLines_of_notMem (by simpa [Fragment.content] using hnewline),
    List.mem_singleton] at hline
  rw [hline, scanLine_dropReturn]
  simp [Fragment.content, scanLine, scan]

theorem levelled_blankIf (lineBreak : Bool) (depth : Nat) :
    Levelled depth (fragmentsAt depth (if lineBreak then [.blank] else [])) depth := by
  refine .of_silent (fun line hline => ?_) depth
  have hempty : line = [] := by
    cases lineBreak
    · simp at hline
    · simpa [Fragment.lines_eq, Fragment.content, Text.endedLines, Text.splitWhen,
        Text.dropReturn] using hline
  rw [hempty]
  simp [scanLine, scan]

/-- A value is neutral code, or a literal that hides what it holds. -/
theorem valueTail_eq_append (value : Option Value)
    (h : ∀ v ∈ value, ∀ s ∈ v.codeFields, IsNeutralText s) :
    ∃ code tail, valueTail value = code ++ tail ∧ (∀ c ∈ code, IsNeutral c) ∧ '\n' ∉ tail ∧
      ∀ leading, scan .code leading tail = ({}, false) := by
  have hbare : ∀ v ∈ value, (∀ s, v ≠ .text s) → ∀ c ∈ valueTail (some v), IsNeutral c := by
    intro v hv htext
    have hsource := Value.isNeutral_source htext (h v hv)
    simp only [valueTail, List.cons_append, List.forall_mem_cons, List.forall_mem_append]
    exact ⟨by decide, by decide, by decide, hsource, by simp [IsNeutral]⟩
  cases value with
  | none => exact ⟨[';'], [], rfl, by simp [IsNeutral], by simp, by simp [scan]⟩
  | some v =>
    by_cases htext : ∃ s, v = .text s
    · obtain ⟨s, rfl⟩ := htext
      refine ⟨[' ', '=', ' '], '"' :: Value.escape s.toList ++ ['"', ';'],
        by simp [valueTail, Value.source, Value.quote], by simp [IsNeutral], ?_, fun leading => ?_⟩
      · have hescape := Value.newline_notMem_source (v := .text s) (by simp)
        simpa [Value.source, Value.quote] using hescape
      · rw [List.cons_append, scan, scan_quoted_escape]
        simp [scan]
    · have hne : ∀ s, v ≠ .text s := fun s hs => htext ⟨s, hs⟩
      exact ⟨valueTail (some v), [], by simp, hbare v rfl hne, by simp, by simp [scan]⟩

theorem Attribute.levelled_line {a : Attribute} (h : ∀ s ∈ a.codeFields, IsNeutralText s)
    (depth : Nat) : Levelled depth (fragmentsAt depth [.line a.line]) depth := by
  have htype : ∀ c ∈ a.type.toList, IsNeutral c := h _ (by simp [codeFields])
  have hname : ∀ c ∈ a.name.toList, IsNeutral c := h _ (by simp [codeFields])
  have hmodifier := forall_mem_optionalWord (o := present a.modifier) (by decide) fun s hs =>
    h s (by simp [codeFields, Option.mem_def.mp (mem_of_mem_present hs)])
  obtain ⟨code, tail, hvalue, hcode, hnewline, hscan⟩ :=
    valueTail_eq_append (a.value.filter (!·.isEmpty)) fun v hv s hs => by
      have hsome := (Option.filter_eq_some_iff.mp hv).1
      exact h s (by simp [codeFields, hsome, hs])
  have hline : a.line.toList =
      a.type.toList ++ ' ' :: (optionalWord (present a.modifier) ++ (a.name.toList ++ code)) ++
        tail := by
    simp [a.toList_line, hvalue]
  rw [fragmentsAt_line, hline]
  refine Levelled.code ?_ hnewline hscan depth
  simp only [List.forall_mem_append, List.forall_mem_cons]
  exact ⟨htype, by decide, hmodifier, hname, hcode⟩

theorem Mapping.levelled_line {m : Mapping}
    (h : ∀ s ∈ (Declaration.mapping m).codeFields, IsNeutralText s) (depth : Nat) :
    Levelled depth (fragmentsAt depth [.line m.line]) depth := by
  have hkey : ∀ c ∈ m.keyType.toList, IsNeutral c := h _ (by simp [Declaration.codeFields])
  have hvalue : ∀ c ∈ m.valueType.toList, IsNeutral c := h _ (by simp [Declaration.codeFields])
  have hname : ∀ c ∈ m.name.toList, IsNeutral c := h _ (by simp [Declaration.codeFields])
  have hmodifier := forall_mem_optionalWord (o := present m.modifier) (by decide) fun s hs =>
    h s (by simp [Declaration.codeFields, Option.mem_def.mp (mem_of_mem_present hs)])
  have hscan : ∀ leading, scan .code leading [] = ({}, false) := by simp [scan]
  rw [fragmentsAt_line, ← List.append_nil m.line.toList]
  refine Levelled.code ?_ (by simp) hscan depth
  rw [m.toList_line]
  simp only [List.forall_mem_append, List.forall_mem_cons]
  exact ⟨by simp [IsNeutral], hkey, by decide, by decide, by decide, by decide, hvalue, by decide,
    by decide, hmodifier, hname, by simp [IsNeutral]⟩

/-- A header leaves one more brace open. -/
theorem levelled_opening (comment : Option String) {code : List Char} {header : String}
    (hc : ∀ c ∈ code, IsNeutral c) (hh : header.toList = code ++ ['{']) (depth : Nat) :
    Levelled depth (fragmentsAt depth (Comment.wrap comment ++ [.line header])) (depth + 1) := by
  have hheader : Levelled depth (fragmentsAt depth [.line header]) (depth + 1) := by
    rw [fragmentsAt_line, hh]
    exact Levelled.code hc (by simp) (by simp [scan]) depth
  rw [fragmentsAt_append]
  exact (levelled_comment comment depth).append hheader

/-- A lone closing brace stands one level up. -/
theorem levelled_close (depth : Nat) :
    Levelled (depth + 1) (fragmentsAt depth [.line "\x7d"]) depth := by
  have hlines : Text.endedLines "\x7d".toList = [['}']] := by rfl
  rw [fragmentsAt_line, hlines]
  exact .cons (by rfl) (by simp) (by simp) (.nil depth)

theorem Container.header_eq_append {c : Container}
    (h : ∀ s ∈ (Declaration.container c).codeFields, IsNeutralText s) :
    ∃ code, (∀ x ∈ code, IsNeutral x) ∧ c.header.toList = code ++ ['{'] := by
  have hname : ∀ x ∈ c.name.toList, IsNeutral x := h _ (by simp [Declaration.codeFields])
  have hkeyword : ∀ x ∈ c.kind.keyword.toList, IsNeutral x := by
    cases c.kind <;> simp [ContainerKind.keyword, IsNeutral]
  have hparent : ∀ p ∈ present c.parent, ∀ x ∈ p.toList, IsNeutral x := fun p hp =>
    h p (by simp [Declaration.codeFields, Option.mem_def.mp (mem_of_mem_present hp)])
  refine ⟨c.kind.keyword.toList ++ ' ' :: (c.name.toList ++ ' ' ::
    ((present c.parent).elim [] fun p => 'i' :: 's' :: ' ' :: p.toList ++ [' '])), ?_,
    by simp [c.toList_header]⟩
  simp only [List.forall_mem_append, List.forall_mem_cons]
  refine ⟨hkeyword, by decide, hname, by decide, ?_⟩
  cases hp : present c.parent with
  | none => simp
  | some p =>
    simp only [Option.elim_some, List.cons_append, List.forall_mem_append, List.forall_mem_cons]
    exact ⟨by decide, by decide, by decide, hparent p hp, by simp [IsNeutral]⟩

theorem Struct.header_eq_append {s : Struct} (h : IsNeutralText s.name) :
    ∃ code, (∀ x ∈ code, IsNeutral x) ∧ s.header.toList = code ++ ['{'] := by
  refine ⟨"struct ".toList ++ (s.name.toList ++ [' ']), ?_, by simp [s.toList_header]⟩
  simp only [List.forall_mem_append]
  exact ⟨by simp [IsNeutral], h, by simp [IsNeutral]⟩

theorem Function.line_eq_append {f : Function}
    (h : ∀ s ∈ (Declaration.function f).codeFields, IsNeutralText s) :
    ∃ code, (∀ x ∈ code, IsNeutral x) ∧
      f.line.toList = code ++ '{' :: (f.body.toList ++ ['}']) := by
  have hname : ∀ x ∈ f.name.toList, IsNeutral x := h _ (by simp [Declaration.codeFields])
  have hparam : ∀ p ∈ f.parameters, ∀ s ∈ [p.type, p.name], IsNeutralText s := fun p hp s hs =>
    h s (List.mem_cons_of_mem _ (List.mem_append_right _ (List.mem_flatMap.mpr ⟨p, hp, hs⟩)))
  have hparams := forall_mem_parameterList (by decide) (by decide) fun p hp =>
    ⟨hparam p hp p.type (by simp), hparam p hp p.name (by simp)⟩
  have hmodifier : ∀ m ∈ present f.modifier, IsNeutralText m := fun m hm =>
    h m (by simp [Declaration.codeFields, Option.mem_def.mp (mem_of_mem_present hm)])
  have hreturns : ∀ t ∈ present f.returnType, IsNeutralText t := fun t ht =>
    h t (by simp [Declaration.codeFields, Option.mem_def.mp (mem_of_mem_present ht)])
  obtain ⟨tail, hcode, htail⟩ := signatureTail_eq_append f.body.toList
    (by simp [IsNeutral]) hmodifier hreturns
  refine ⟨"function ".toList ++
    (f.name.toList ++ '(' :: (parameterList f.parameters ++ ')' :: tail)), ?_, by simp [f.toList_line, htail]⟩
  simp only [List.forall_mem_append, List.forall_mem_cons]
  exact ⟨by simp [IsNeutral], hname, by decide, hparams, by decide, hcode⟩

theorem Function.codeLines_eq (f : Function) :
    f.codeLines = nestedLines 1 [] (Text.endedLines f.line.toList) := by
  have hfirst : ∀ l, openBraces (leadingRun l) = 0 := by
    intro l
    simp [openBraces, count_leadingRun]
  rw [codeLines, Fragment.lines_eq, Fragment.content]
  split <;> rename_i hlines <;> rw [hlines]
  · rfl
  · simp [nestedLines, hfirst]

theorem Function.levelled_codeLines {f : Function} (h : (Declaration.function f).Neutral) :
    Levelled 1 f.codeLines 1 := by
  obtain ⟨code, hcode, hline⟩ := Function.line_eq_append h.fields
  obtain ⟨hplain, hbalanced⟩ := h.body f rfl
  have hneutral : ∀ c ∈ code, IsPlain c := fun c hc hspecial =>
    hcode c hc (List.mem_cons_of_mem _ (List.mem_cons_of_mem _ hspecial))
  rw [codeLines_eq, hline]
  refine Levelled.balanced ?_ (hbalanced.braced hcode) 1
  simp only [List.forall_mem_append, List.forall_mem_cons]
  exact ⟨hneutral, by decide, hplain, by simp [IsPlain]⟩

theorem levelled_declaration (comment : Option String) {line : String} {depth : Nat}
    (hline : Levelled depth (fragmentsAt depth [.line line]) depth) (lineBreak : Bool) :
    Levelled depth (fragmentsAt depth (declarationFragments comment [.line line] lineBreak))
      depth := by
  rw [declarationFragments, fragmentsAt_append, fragmentsAt_append]
  exact ((levelled_comment comment depth).append hline).append (levelled_blankIf lineBreak depth)

theorem levelled_members {attributes : List Attribute}
    (h : ∀ a ∈ attributes, ∀ s ∈ a.codeFields, IsNeutralText s) (depth : Nat) :
    Levelled depth (fragmentsAt depth (attributes.flatMap Attribute.fragments)) depth := by
  induction attributes with
  | nil => exact .nil depth
  | cons a attributes ih =>
    rw [List.flatMap_cons, fragmentsAt_append]
    have hfirst := levelled_declaration a.comment (a.levelled_line (h a (by simp)) depth) a.lineBreak
    exact hfirst.append (ih fun x hx => h x (by simp [hx]))

theorem Container.levelled_outline {c : Container} (h : (Declaration.container c).Neutral) :
    Levelled 0 (Declaration.container c).outline 1 := by
  obtain ⟨code, hcode, hheader⟩ := c.header_eq_append h.fields
  exact (levelled_opening c.comment hcode hheader 0).append (levelled_blankIf true 1)

/-- A member leaves its container at level one. -/
theorem Declaration.levelled_outline {d : Declaration} (h : d.Neutral)
    (hd : d.isContainer = false) : Levelled 1 d.outline 1 := by
  rcases d with c | a | s | m | f
  · simp [isContainer, kind] at hd
  · exact levelled_declaration a.comment (a.levelled_line h.fields 1) a.lineBreak
  · obtain ⟨code, hcode, hheader⟩ := s.header_eq_append (h.fields s.name (by simp [codeFields]))
    have hmembers := levelled_members (fun a ha t ht => h.fields t
      (List.mem_cons_of_mem _ (List.mem_flatMap.mpr ⟨a, ha, ht⟩))) 2
    have hclosing := (levelled_close 1).append (levelled_blankIf s.lineBreak 1)
    rw [← fragmentsAt_append] at hclosing
    exact ((levelled_opening s.comment hcode hheader 1).append hmembers).append hclosing
  · exact levelled_declaration m.comment (m.levelled_line h.fields 1) m.lineBreak
  · exact ((levelled_comment f.comment 1).append (Function.levelled_codeLines h)).append
      (levelled_blankIf f.lineBreak 1)

theorem levelled_restOutline {ds : List Declaration} (h : ∀ d ∈ ds, d.Neutral) :
    Levelled 1 (restOutline ds) 0 := by
  induction ds with
  | nil => exact levelled_close 0
  | cons d ds ih =>
    have hrest := ih fun x hx => h x (by simp [hx])
    have hd := h d (by simp)
    rw [restOutline]
    cases hc : d.isContainer with
    | false => exact ((Levelled.nil 1).append (d.levelled_outline hd hc)).append hrest
    | true =>
      rcases d with c | a | s | m | f <;> simp only [Declaration.isContainer, Declaration.kind,
        reduceCtorEq, decide_false, Bool.false_eq_true] at hc
      have hclose := (levelled_close 0).append (levelled_blankIf true 0)
      rw [← fragmentsAt_append] at hclose
      exact (hclose.append (Container.levelled_outline hd)).append hrest

theorem levelled_outline {ds : List Declaration} (hs : StartsWithContainer ds)
    (h : ∀ d ∈ ds, d.Neutral) : Levelled 0 (outline ds) 0 := by
  obtain ⟨c, rest, rfl⟩ := hs
  exact (Container.levelled_outline (h _ (by simp))).append
    (levelled_restOutline fun x hx => h x (by simp [hx]))

theorem exists_restOutline_eq (ds : List Declaration) :
    ∃ init, restOutline ds = init ++ [⟨0, ['}']⟩] := by
  induction ds with
  | nil => exact ⟨[], by rfl⟩
  | cons d ds ih =>
    obtain ⟨init, hinit⟩ := ih
    exact ⟨_, by rw [restOutline, hinit, ← List.append_assoc]⟩

/-- A neutral document is rendered, and every line of it that is not blank is indented by the level
that its declaration gives it, with any comments and any quoted texts. -/
theorem Document.render_indented {doc : Document} {indent : Indent}
    (hformatter : doc.formatter = .braces indent) (hrules : doc.rules.isEmpty = true)
    (hfirst : StartsWithContainer doc.toList) (hneutral : ∀ d ∈ doc.toList, d.Neutral) :
    ∃ raw out, doc.renderRaw = .ok raw ∧ doc.render = .ok out ∧
      Text.lines raw.toList = (outline doc.toList).map Line.source ∧
      Text.lines out.toList = (outline doc.toList).map (Line.indented indent) := by
  obtain ⟨raw, hraw, hlines⟩ := lines_renderDeclarations hfirst
  have hrendered : doc.renderRaw = .ok raw := (renderRaw_of_isEmpty hrules).trans hraw
  rw [← map_source_outline] at hlines
  refine ⟨raw, Formatter.format (.braces indent) raw, hrendered, ?_, hlines, ?_⟩
  · rw [render, hrendered, hformatter]
    rfl
  · have hlevelled := levelled_outline hfirst hneutral
    obtain ⟨init, hinit⟩ : ∃ init, outline doc.toList = init ++ [⟨0, ['}']⟩] := by
      obtain ⟨c, rest, hds⟩ := hfirst
      obtain ⟨init, hinit⟩ := exists_restOutline_eq rest
      exact ⟨_, by rw [hds, outline, hinit, ← List.append_assoc]⟩
    rw [hinit] at hlevelled hlines ⊢
    rw [Formatter.format, String.toList_ofList]
    exact hlevelled.lines_format (by decide) hlines indent

/-- A document with braces, quotes and comment marks in its comments and in its only value. -/
def hostileDocument : Document where
  declarations := ⟨[
    Declaration.container { name := "Vault", comment := some "\x7d /* a \" \x7b" },
    .attribute { name := "note", type := "string", value := some (.text "\x7d\" // /* \x7b'") },
    .struct { name := "Entry", attributes := [{
      name := "owner", type := "address", comment := some "\x7b\x7b" }] },
    .function {
      name := "pay", body := "\nif (paid) \x7b\nreturn;\n\x7d else \x7b\n\n  revert();\n\x7d" }
    ].map fun d => (d.key, d)⟩
  formatter := .braces (.spaces 2)

theorem hostileDocument_neutral : ∀ d ∈ hostileDocument.toList, d.Neutral := by
  have h : ∀ d ∈ hostileDocument.toList, (∀ s ∈ d.codeFields, IsNeutralText s) ∧
      ∀ f ∈ d.function?.toList, IsNeutralBody f.body := by decide +kernel
  exact fun d hd => ⟨(h d hd).1, fun f hf => (h d hd).2 f (Option.mem_toList.mpr hf)⟩

theorem hostileDocument_render_indented :
    StartsWithContainer hostileDocument.toList ∧ (∀ d ∈ hostileDocument.toList, d.Neutral) ∧
      ∃ out, hostileDocument.render = .ok out ∧ (Text.lines out.toList).map String.ofList =
        ["// \x7d /* a \" \x7b", "contract Vault \x7b", "",
          "  string note = \"\x7d\\\" // /* \x7b'\";", "  struct Entry \x7b", "    // \x7b\x7b", "    address owner;", "  \x7d",
          "  function pay() \x7b", "    if (paid) \x7b", "      return;", "    \x7d else \x7b", "",
          "      revert();", "  \x7d\x7d", "\x7d"] := by
  have hfirst : StartsWithContainer hostileDocument.toList := ⟨_, _, rfl⟩
  obtain ⟨raw, out, -, hout, -, hlines⟩ :=
    @Document.render_indented hostileDocument (.spaces 2) rfl rfl hfirst hostileDocument_neutral
  exact ⟨hfirst, hostileDocument_neutral, out, hout, by rw [hlines]; decide +kernel⟩

end SoliditySource
