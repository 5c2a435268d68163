import Mathlib.Data.List.Infix
import SoliditySource.Proofs.BraceScan

/-! Lines with the level they stand at. The formatter keeps a running depth; here the levels are
given beforehand, and a list of lines is levelled when they are the ones the running depth leads to.
-/
namespace SoliditySource.Braces

structure Line where
  level : Nat
  source : List Char
deriving DecidableEq, Repr

/-- The line behind as many units as it has levels, without the blanks at its ends. A line of blanks
has nothing to indent. -/
def Line.indented (indent : Indent) (line : Line) : List Char :=
  if Text.trim line.source = [] then [] else indent.levels line.level ++ Text.trim line.source

def linesAt (level : Nat) (ls : List (List Char)) : List Line :=
  ls.map (⟨level, ·⟩)

/-- With `depth` open braces before the first line, every line is at its level, and `last` braces
are open after the last one. No line ends inside a comment. -/
inductive Levelled : Nat → List Line → Nat → Prop
  | nil (depth : Nat) : Levelled depth [] depth
  | cons {depth level next last : Nat} {source : List Char} {counts : Counts} {lines : List Line}
      (scanned : scanLine false source = (counts, false)) (here : level = depth - counts.leading)
      (after : next = depth + counts.opens - counts.closes) (rest : Levelled next lines last) :
      Levelled depth (⟨level, source⟩ :: lines) last

namespace Levelled

theorem append {depth next last : Nat} {ls ms : List Line} (hl : Levelled depth ls next)
    (hm : Levelled next ms last) : Levelled depth (ls ++ ms) last := by
  induction hl with
  | nil depth => exact hm
  | cons scanned here after _ ih => exact .cons scanned here after (ih hm)

/-- The formatter indents every line by its level. -/
theorem layout_eq {depth last : Nat} {ls : List Line} (h : Levelled depth ls last)
    (indent : Indent) :
    layout indent ⟨depth, false⟩ (ls.map fun l => Text.trim l.source) =
      Text.unlines (ls.map (Line.indented indent)) := by
  induction h with
  | nil depth => rfl
  | @cons depth level next last source counts lines scanned here after rest ih =>
    rw [List.map_cons, List.map_cons, layout, State.advance_trim, Text.unlines_cons, ← ih]
    subst here after
    simp only [scanned, Line.indented]
    split_ifs with hblank
    · simp [hblank, Indent.levels]
    · rfl

theorem of_silent {ls : List (List Char)} (h : ∀ l ∈ ls, scanLine false l = ({}, false))
    (depth : Nat) : Levelled depth (linesAt depth ls) depth := by
  induction ls with
  | nil => exact .nil depth
  | cons l ls ih =>
    exact .cons (h l (by simp)) (by simp) (by simp) (ih fun x hx => h x (by simp [hx]))

end Levelled

/-! The lines of the formatted text. -/

theorem mem_levels {indent : Indent} {level : Nat} {c : Char} (h : c ∈ indent.levels level) :
    c = ' ' ∨ c = '\t' := by
  obtain ⟨unit, hunit, hc⟩ := List.mem_flatten.mp h
  rw [List.eq_of_mem_replicate hunit] at hc
  cases indent with
  | spaces width => exact .inl (List.eq_of_mem_replicate hc)
  | tab => exact .inr (List.mem_singleton.mp hc)

theorem Line.newline_notMem_indented (indent : Indent) {line : Line} (h : '\n' ∉ line.source) :
    '\n' ∉ line.indented indent := by
  rw [indented]
  split_ifs
  · simp
  · intro hc
    rcases List.mem_append.mp hc with hc | hc
    · exact absurd (mem_levels hc) (by decide)
    · exact h (Text.subset_of_trim line.source hc)

/-- An indented line ends visibly, or is empty. -/
theorem Line.trimEnd_indented (indent : Indent) (line : Line) :
    Text.trimEnd (line.indented indent) = line.indented indent := by
  rw [indented]
  split_ifs with h
  · rfl
  · exact Text.trimEnd_append _ (Text.trimEnd_trim line.source) h

/-- The lines of a formatted text are the indented lines, if the last one is not blank. -/
theorem Levelled.lines_format {last : Nat} {init : List Line} {line : Line} {text : List Char}
    (h : Levelled 0 (init ++ [line]) last) (hline : Text.trim line.source ≠ [])
    (htext : Text.lines text = (init ++ [line]).map Line.source) (indent : Indent) :
    Text.lines (format indent text) = (init ++ [line]).map (Line.indented indent) := by
  have hnewline : ∀ l ∈ (init ++ [line]).map (Line.indented indent), '\n' ∉ l := by
    intro l hl
    obtain ⟨x, hx, rfl⟩ := List.mem_map.mp hl
    have hsource : x.source ∈ Text.lines text := htext ▸ List.mem_map_of_mem hx
    exact x.newline_notMem_indented indent (Text.newline_notMem_of_mem_lines hsource)
  have hvisible : ∀ l ∈ (init ++ [line]).map (Line.indented indent), Text.trimEnd l = l := by
    intro l hl
    obtain ⟨x, -, rfl⟩ := List.mem_map.mp hl
    exact x.trimEnd_indented indent
  have hlast : ¬(line.indented indent).isEmpty := by simp [Line.indented, hline]
  calc Text.lines (format indent text)
      = Text.lines (Text.trimEnd (Text.unlines ((init ++ [line]).map (Line.indented indent)))) := by
        rw [format, htext, List.map_map, ← h.layout_eq indent]
        rfl
    _ = ((init ++ [line]).map (Line.indented indent)).rdropWhile List.isEmpty :=
        Text.lines_trimEnd_unlines hnewline hvisible
    _ = (init ++ [line]).map (Line.indented indent) := by
        rw [List.map_append, List.map_singleton, List.rdropWhile_concat_neg _ _ _ hlast]

/-! Lines of code. -/

/-- A text of neutral characters with a tail on its last line: no line leaves the level, and the
braces that the tail opens are open afterwards. -/
theorem Levelled.code {p tail : List Char} {opens : Nat} (hp : ∀ c ∈ p, IsNeutral c)
    (hn : '\n' ∉ tail) (ht : ∀ leading, scan .code leading tail = ({ opens := opens }, false))
    (depth : Nat) :
    Levelled depth (linesAt depth (Text.endedLines (p ++ tail))) (depth + opens) := by
  have htail : ∀ c ∈ tail, (c == '\n') = false := fun c hc => by
    simpa using fun he : c = '\n' => hn (he ▸ hc)
  obtain ⟨pieces, last, hpieces, hsplit⟩ := Text.splitWhen_append p htail
  have hneutral : ∀ piece ∈ pieces ++ [last], ∀ c ∈ piece, IsNeutral c := fun piece hm c hc =>
    hp c (Text.subset_of_mem_splitWhen (hpieces ▸ hm) hc)
  have hsilent : ∀ l ∈ pieces.map Text.dropReturn, scanLine false l = ({}, false) := by
    intro l hl
    obtain ⟨piece, hmem, rfl⟩ := List.mem_map.mp hl
    have hscan := scan_code_append (hneutral piece (by simp [hmem])) true []
    rw [scanLine_dropReturn]
    simpa [scan, scanLine] using hscan
  have hlast : scanLine false (Text.dropReturn (last ++ tail)) = ({ opens := opens }, false) := by
    rw [scanLine_dropReturn]
    exact (scan_code_append (hneutral last (by simp)) true tail).trans (ht _)
  rw [Text.endedLines, hsplit, List.map_append, linesAt, List.map_append]
  exact (Levelled.of_silent hsilent depth).append
    (.cons hlast (by simp) (by simp) (.nil _))

/-! Texts whose braces nest. -/

/-- No beginning of the text closes more braces than it opens, and the whole text closes all it
opens. -/
def Balanced (cs : List Char) : Prop :=
  (∀ p ∈ cs.inits, p.count '}' ≤ p.count '{') ∧ cs.count '}' = cs.count '{'

instance (cs : List Char) : Decidable (Balanced cs) := inferInstanceAs (Decidable (_ ∧ _))

theorem count_eq_zero_of_neutral {cs : List Char} (h : ∀ c ∈ cs, IsNeutral c) :
    cs.count '{' = 0 ∧ cs.count '}' = 0 :=
  ⟨List.count_eq_zero.mpr fun hc => absurd (h _ hc) (by decide),
    List.count_eq_zero.mpr fun hc => absurd (h _ hc) (by decide)⟩

/-- Braces around a balanced text, with neutral code before them. -/
theorem Balanced.braced {head body : List Char} (hh : ∀ c ∈ head, IsNeutral c)
    (hb : Balanced body) : Balanced (head ++ '{' :: (body ++ ['}'])) := by
  obtain ⟨hinits, htotal⟩ := hb
  obtain ⟨hleft, hright⟩ := count_eq_zero_of_neutral hh
  refine ⟨fun p hp => ?_, ?_⟩
  · obtain ⟨rest, hrest⟩ := (List.mem_inits p _).mp hp
    rcases List.append_eq_append_iff.mp hrest with ⟨more, hmore, -⟩ | ⟨inner, rfl, hinner⟩
    · rw [hmore, List.count_append] at hright
      omega
    cases inner with
    | nil => simp [hright]
    | cons c inner =>
      obtain ⟨rfl, hbody⟩ := List.cons.inj hinner
      simp only [List.count_append, List.count_cons_self, hleft, hright,
        List.count_cons_of_ne (show ('{' : Char) ≠ '}' by decide)]
      rcases List.append_eq_append_iff.mp hbody with ⟨last, rfl, hlast⟩ | ⟨more, hmore, -⟩
      · have hle : last.count '}' ≤ ['}'].count '}' := by
          rw [hlast, List.count_append]
          omega
        simp only [List.count_append, List.count_cons_self, List.count_nil] at hle ⊢
        omega
      · have hle := hinits inner ((List.mem_inits inner _).mpr ⟨more, hmore.symm⟩)
        omega
  · simp [hleft, hright, htotal]

def openBraces (cs : List Char) : Nat :=
  cs.count '{' - cs.count '}'

/-- Lines that follow `before`, each one level deeper for every brace that is open where its code
starts. Closing braces at the start of a line have closed already. -/
def nestedLines (level : Nat) (before : List Char) : List (List Char) → List Line
  | [] => []
  | l :: ls =>
    ⟨level + openBraces (before ++ leadingRun l), l⟩ :: nestedLines level (before ++ l) ls

theorem count_leadingRun (l : List Char) : (leadingRun l).count '{' = 0 := by
  refine List.count_eq_zero.mpr fun h => ?_
  have hrun := List.all_eq_true.mp (List.all_takeWhile (l := l)) '{' h
  exact absurd hrun (by decide)

theorem Levelled.nested (level : Nat) (before : List Char) (ls : List (List Char))
    (hplain : ∀ l ∈ ls, ∀ c ∈ l, IsPlain c)
    (hopen : ∀ p, p <+: ls.flatten → (before ++ p).count '}' ≤ (before ++ p).count '{') :
    Levelled (level + openBraces before) (nestedLines level before ls)
      (level + openBraces (before ++ ls.flatten)) := by
  induction ls generalizing before with
  | nil =>
    rw [List.flatten_nil, List.append_nil]
    exact .nil _
  | cons l ls ih =>
    have hbefore := hopen [] (List.nil_prefix)
    have hrun := hopen (leadingRun l)
      ((List.takeWhile_prefix _).trans (List.prefix_append l ls.flatten))
    have hline := hopen l (List.prefix_append l ls.flatten)
    have hcount := count_leadingRun l
    have hrest := ih (before ++ l) (fun x hx => hplain x (by simp [hx])) fun p hp => by
      rw [List.append_assoc]
      exact hopen (l ++ p) (List.prefix_append_right_inj l |>.mpr hp)
    simp only [List.append_nil, List.count_append] at hbefore hrun hline
    rw [List.flatten_cons, ← List.append_assoc]
    refine .cons (scan_code_plain (hplain l (by simp)) true) ?_ ?_ hrest
    · simp only [openBraces, List.count_append, if_true]
      omega
    · simp only [openBraces, List.count_append]
      omega

def isBrace (c : Char) : Bool :=
  c == '{' || c == '}'

theorem count_congr_of_braces {p q : List Char} (h : p.filter isBrace = q.filter isBrace) :
    p.count '{' = q.count '{' ∧ p.count '}' = q.count '}' := by
  have hcount : ∀ c, isBrace c = true → p.count c = q.count c := by
    intro c hc
    rw [← List.count_filter (l := p) hc, h, List.count_filter hc]
  exact ⟨hcount '{' rfl, hcount '}' rfl⟩

/-- A balanced text ends at the level it starts at. -/
theorem Levelled.balanced {cs : List Char} (hplain : ∀ c ∈ cs, IsPlain c) (hb : Balanced cs)
    (level : Nat) : Levelled level (nestedLines level [] (Text.endedLines cs)) level := by
  have hlines := Text.filter_flatten_endedLines (f := isBrace) rfl rfl cs
  have hopen : ∀ p, p <+: (Text.endedLines cs).flatten → p.count '}' ≤ p.count '{' := by
    intro p hp
    have hfilter := hp.filter isBrace
    rw [hlines, List.prefix_filter_iff] at hfilter
    obtain ⟨q, hq, hpq⟩ := hfilter
    obtain ⟨hleft, hright⟩ := count_congr_of_braces hpq
    rw [hleft, hright]
    exact hb.1 q ((List.mem_inits q cs).mpr hq)
  have hend : openBraces (Text.endedLines cs).flatten = 0 := by
    obtain ⟨hleft, hright⟩ := count_congr_of_braces hlines
    rw [openBraces, hleft, hright, hb.2]
    omega
  have hall := Levelled.nested level [] (Text.endedLines cs)
    (fun l hl c hc => hplain c (Text.mem_of_mem_endedLines hl hc).1) (by simpa using hopen)
  rw [List.nil_append, hend] at hall
  exact hall

end SoliditySource.Braces
