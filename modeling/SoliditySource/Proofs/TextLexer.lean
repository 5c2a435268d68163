import SoliditySource.Proofs.BraceScan

/-! A lexer that reads a whole text character by character, blanks and line feeds included, and
remembers nothing but the phase it is in. The formatter works on trimmed lines, looks one character
ahead and starts every line anew; both count the same braces on every line, and agree at the start
of every line on the depth and on whether a block comment is open. -/
namespace SoliditySource.Braces

/-- What the lexer of texts is reading. -/
inductive Phase where
  | code
  /-- Code, just after a slash that may open a comment. -/
  | slash
  | lineComment
  | blockComment
  /-- A block comment, just after a star that may close it. -/
  | star
  | quoted (mark : Char)
  /-- A literal, just after a backslash. -/
  | escaped (mark : Char)
deriving DecidableEq, Repr

namespace Phase

/-- Braces count only here. -/
def isCode : Phase → Bool
  | code => true
  | slash => true
  | _ => false

/-- A line feed ends everything but a block comment. -/
def nextLine : Phase → Phase
  | blockComment => blockComment
  | star => blockComment
  | _ => code

/-- The phase after a character of code that completes no pair. -/
def afterCode (c : Char) : Phase :=
  if c = '/' then slash else if c = '"' ∨ c = '\'' then quoted c else code

/-- The phase after a character that does not end the line. -/
def next (phase : Phase) (c : Char) : Phase :=
  match phase with
  | code => afterCode c
  | slash => if c = '/' then lineComment else if c = '*' then blockComment else afterCode c
  | lineComment => lineComment
  | blockComment => if c = '*' then star else blockComment
  | star => if c = '/' then code else if c = '*' then star else blockComment
  | quoted mark => if c = '\\' then escaped mark else if c = mark then code else quoted mark
  | escaped mark => quoted mark

end Phase

/-- What is known of a line: the state before it and the braces on it that count. -/
structure LineCount where
  start : State := {}
  opens : Nat := 0
  closes : Nat := 0
deriving DecidableEq, Repr

structure Lexer where
  phase : Phase := .code
  line : LineCount := {}
deriving DecidableEq, Repr

namespace Lexer

/-- Reads one character. A line feed settles the depth of the next line, which is never below
zero. -/
def read (lexer : Lexer) (c : Char) : Lexer :=
  let ⟨phase, line⟩ := lexer
  if c = '\n' then
    ⟨phase.nextLine,
      { start := ⟨line.start.depth + line.opens - line.closes, phase.nextLine = .blockComment⟩ }⟩
  else
    ⟨phase.next c,
      { line with
        opens := line.opens + if phase.isCode ∧ c = '{' then 1 else 0
        closes := line.closes + if phase.isCode ∧ c = '}' then 1 else 0 }⟩

/-- The counts of the lines of a text. The end of the text ends the last line, unless nothing of
that line has been read. -/
def lineCounts (lexer : Lexer) (fresh : Bool) : List Char → List LineCount
  | [] => if fresh then [] else [lexer.line]
  | c :: cs =>
    if c = '\n' then lexer.line :: lineCounts (lexer.read c) true cs
    else lineCounts (lexer.read c) false cs

/-! The lexer on one line. -/

/-- All that the next lines depend on. -/
def lineEnd (lexer : Lexer) : LineCount × Phase :=
  (lexer.line, lexer.phase.nextLine)

theorem lineCounts_of_notMem (lexer : Lexer) (fresh : Bool) {cs : List Char} (h : '\n' ∉ cs) :
    lexer.lineCounts fresh cs =
      if fresh = true ∧ cs = [] then [] else [(cs.foldl read lexer).line] := by
  induction cs generalizing lexer fresh with
  | nil => simp [lineCounts]
  | cons c cs ih =>
    have hc : c ≠ '\n' := fun he => h (by simp [he])
    rw [lineCounts, if_neg hc, ih _ _ fun hm => h (by simp [hm])]
    simp

theorem lineCounts_append_newline (lexer : Lexer) (fresh : Bool) {cs : List Char} (h : '\n' ∉ cs)
    (rest : List Char) :
    lexer.lineCounts fresh (cs ++ '\n' :: rest) =
      (cs.foldl read lexer).line :: ((cs.foldl read lexer).read '\n').lineCounts true rest := by
  induction cs generalizing lexer fresh with
  | nil => simp [lineCounts]
  | cons c cs ih =>
    have hc : c ≠ '\n' := fun he => h (by simp [he])
    rw [List.cons_append, lineCounts, if_neg hc, ih _ _ fun hm => h (by simp [hm])]
    rfl

/-- Outside code nothing is counted. -/
theorem read_of_isCode_eq_false {phase : Phase} (hphase : phase.isCode = false) (line : LineCount)
    {c : Char} (hc : c ≠ '\n') : read ⟨phase, line⟩ c = ⟨phase.next c, line⟩ := by
  simp [read, hc, hphase]

/-- In code nothing but braces is counted. -/
theorem read_of_ne_brace (phase : Phase) (line : LineCount) {c : Char} (hc : c ≠ '\n')
    (hopen : c ≠ '{') (hclose : c ≠ '}') : read ⟨phase, line⟩ c = ⟨phase.next c, line⟩ := by
  simp [read, hc, hopen, hclose]

theorem foldl_read_lineComment (line : LineCount) {cs : List Char} (h : '\n' ∉ cs) :
    cs.foldl read ⟨.lineComment, line⟩ = ⟨.lineComment, line⟩ := by
  induction cs with
  | nil => rfl
  | cons c cs ih =>
    rw [List.foldl_cons, read_of_isCode_eq_false rfl line fun he => h (by simp [he])]
    exact ih fun hm => h (by simp [hm])

/-- A star matters only to the slash right after it. -/
theorem lineEnd_star (line : LineCount) {cs : List Char} (h : cs.head? ≠ some '/') :
    (cs.foldl read ⟨.star, line⟩).lineEnd = (cs.foldl read ⟨.blockComment, line⟩).lineEnd := by
  cases cs with
  | nil => rfl
  | cons c cs =>
    have hc : c ≠ '/' := by simpa using h
    have hread : read ⟨.star, line⟩ c = read ⟨.blockComment, line⟩ c := by
      simp [read, Phase.next, Phase.nextLine, Phase.isCode, hc]
    rw [List.foldl_cons, List.foldl_cons, hread]

/-- A slash matters only to the slash or star right after it. -/
theorem lineEnd_slash (line : LineCount) {cs : List Char} (hslash : cs.head? ≠ some '/')
    (hstar : cs.head? ≠ some '*') :
    (cs.foldl read ⟨.slash, line⟩).lineEnd = (cs.foldl read ⟨.code, line⟩).lineEnd := by
  cases cs with
  | nil => rfl
  | cons c cs =>
    have hc : c ≠ '/' := by simpa using hslash
    have hc' : c ≠ '*' := by simpa using hstar
    have hread : read ⟨.slash, line⟩ c = read ⟨.code, line⟩ c := by
      simp [read, Phase.next, Phase.nextLine, Phase.isCode, hc, hc']
    rw [List.foldl_cons, List.foldl_cons, hread]

end Lexer

/-- The phase in which the lexer is when the scanner is in a mode. -/
def Mode.phase : Mode → Phase
  | code => .code
  | comment => .blockComment
  | quoted mark => .quoted mark

def LineCount.add (line : LineCount) (counts : Counts) : LineCount :=
  { line with opens := line.opens + counts.opens, closes := line.closes + counts.closes }

@[simp] theorem LineCount.add_zero (line : LineCount) : line.add {} = line := rfl

/-- On a line the lexer counts what the scanner counts, and is left in a comment when the scanner
is. A pair of characters takes the scanner one step and the lexer two. -/
theorem lineEnd_foldl_read (mode : Mode) (leading : Bool) {cs : List Char} (h : '\n' ∉ cs)
    (line : LineCount) :
    (cs.foldl Lexer.read ⟨mode.phase, line⟩).lineEnd =
      (line.add (scan mode leading cs).1,
        if (scan mode leading cs).2 then .blockComment else .code) := by
  fun_induction scan mode leading cs generalizing line with
  | case1 mode leading => cases mode <;> simp [Lexer.lineEnd, Mode.phase, Phase.nextLine]
  | case2 leading cs ih => exact ih (fun hm => h (by simp [hm])) line
  | case3 leading c cs hc ih =>
    have hnext := ih (fun hm => h (by simp [hm])) line
    rw [List.foldl_cons, Lexer.read_of_isCode_eq_false rfl line fun he => h (by simp [he])]
    by_cases hstar : c = '*'
    · subst hstar
      refine (Lexer.lineEnd_star line fun hhead => ?_).trans hnext
      obtain ⟨rest, hrest⟩ := List.head?_eq_some_iff.mp hhead
      exact hc rest rfl hrest
    · simpa [Mode.phase, Phase.next, hstar] using hnext
  | case4 mark leading c cs ih =>
    have hnext := ih (fun hm => h (by simp [hm])) line
    rw [List.foldl_cons, Lexer.read_of_isCode_eq_false rfl line (by decide), List.foldl_cons,
      Lexer.read_of_isCode_eq_false (by simp [Mode.phase, Phase.next, Phase.isCode]) line
        fun he => h (by simp [he])]
    simpa [Mode.phase, Phase.next] using hnext
  | case5 mark leading c cs hc ih =>
    have hnext := ih (fun hm => h (by simp [hm])) line
    rw [List.foldl_cons, Lexer.read_of_isCode_eq_false rfl line fun he => h (by simp [he])]
    by_cases hslash : c = '\\'
    · -- The backslash is the last character, so nothing is left for it to hide.
      obtain rfl : cs = [] := by
        cases cs with
        | nil => rfl
        | cons y ys => exact (hc y ys hslash rfl).elim
      subst hslash
      have hmode : (if '\\' = mark then Mode.code else Mode.quoted mark) ≠ .comment := by
        split_ifs <;> simp
      simp [scan, hmode, Lexer.lineEnd, Mode.phase, Phase.next, Phase.nextLine]
    · have hphase : (Mode.quoted mark).phase.next c =
          (if c = mark then Mode.code else Mode.quoted mark).phase := by
        by_cases hmark : c = mark <;> simp_all [Mode.phase, Phase.next]
      rw [hphase]
      exact hnext
  | case6 leading cs =>
    have hcs : '\n' ∉ cs := fun hm => h (by simp [hm])
    exact congrArg Lexer.lineEnd (Lexer.foldl_read_lineComment line hcs)
  | case7 leading cs ih => exact ih (fun hm => h (by simp [hm])) line
  | case8 leading cs ih => exact ih (fun hm => h (by simp [hm])) line
  | case9 leading cs ih => exact ih (fun hm => h (by simp [hm])) line
  | case10 leading cs counts inComment hcounts ih =>
    have hnext := ih (fun hm => h (by simp [hm])) { line with opens := line.opens + 1 }
    rw [hcounts] at hnext
    refine hnext.trans ?_
    simp [LineCount.add, Nat.add_right_comm, Nat.add_assoc]
  | case11 leading cs counts inComment hcounts own ih =>
    have hnext := ih (fun hm => h (by simp [hm])) { line with closes := line.closes + 1 }
    rw [hcounts] at hnext
    refine hnext.trans ?_
    simp [LineCount.add, Nat.add_right_comm, Nat.add_assoc]
  | case12 leading c cs hline hblock hq hq' hopen hclose ih =>
    have hnext := ih (fun hm => h (by simp [hm])) line
    rw [List.foldl_cons,
      Lexer.read_of_ne_brace _ line (fun he => h (by simp [he])) (by simpa using hopen)
        (by simpa using hclose)]
    by_cases hslash : c = '/'
    · subst hslash
      refine (Lexer.lineEnd_slash line (fun hhead => ?_) fun hhead => ?_).trans hnext
      · obtain ⟨rest, hrest⟩ := List.head?_eq_some_iff.mp hhead
        exact hline rest rfl hrest
      · obtain ⟨rest, hrest⟩ := List.head?_eq_some_iff.mp hhead
        exact hblock rest rfl hrest
    · have hcode : Phase.afterCode c = .code := by simp_all [Phase.afterCode]
      rw [Mode.phase, Phase.next, hcode]
      exact hnext

/-! The formatter on a text. -/

/-- The trimmed lines that the formatter writes, each with the state it holds before that line. -/
def held (state : State) : List (List Char) → List (State × List Char)
  | [] => []
  | line :: lines => (state, line) :: held (state.advance line).2 lines

/-- The braces that the formatter counts on a line. -/
def State.lineCount (state : State) (line : List Char) : LineCount :=
  LineCount.add { start := state } (scanLine state.inComment line).1

/-- The lexer at the start of a line. -/
def State.lexer (state : State) : Lexer :=
  ⟨if state.inComment then .blockComment else .code, { start := state }⟩

theorem layout_eq_held (indent : Indent) (state : State) (lines : List (List Char)) :
    layout indent state lines =
      (held state lines).flatMap fun entry =>
        indent.levels (entry.1.advance entry.2).1 ++ entry.2 ++ ['\n'] := by
  induction lines generalizing state with
  | nil => rfl
  | cons line lines ih =>
    rw [held, List.flatMap_cons, ← ih]
    simp [layout]

theorem lineEnd_lexer (state : State) {cs : List Char} (h : '\n' ∉ cs) :
    (cs.foldl Lexer.read state.lexer).lineEnd =
      (state.lineCount cs, if (scanLine state.inComment cs).2 then .blockComment else .code) := by
  have hmode : state.lexer =
      ⟨(if state.inComment then Mode.comment else Mode.code).phase, { start := state }⟩ := by
    cases hc : state.inComment <;> simp [State.lexer, hc, Mode.phase]
  rw [hmode]
  exact lineEnd_foldl_read _ true h _

/-- Over a line and its line feed the lexer comes to the state that the formatter holds after the
line, which it reads trimmed. -/
theorem read_newline_lexer (state : State) {cs : List Char} (h : '\n' ∉ cs) :
    (cs.foldl Lexer.read state.lexer).read '\n' =
      (state.advance (Text.trim (Text.dropReturn cs))).2.lexer := by
  obtain ⟨hline, hphase⟩ := Prod.mk.inj (lineEnd_lexer state h)
  rw [State.advance_trim, scanLine_dropReturn, Lexer.read, if_pos rfl]
  simp only [hline, hphase, State.lineCount, LineCount.add, Nat.zero_add]
  cases hc : (scanLine state.inComment cs).2 <;> simp [State.lexer]

@[simp] theorem State.lineCount_trim (state : State) (cs : List Char) :
    state.lineCount (Text.trim cs) = state.lineCount cs := by
  rw [lineCount, scanLine_trim, lineCount]

@[simp] theorem State.lineCount_dropReturn (state : State) (cs : List Char) :
    state.lineCount (Text.dropReturn cs) = state.lineCount cs := by
  rw [lineCount, scanLine_dropReturn, lineCount]

/-- From the start of any line on, the lexer counts on every line what the formatter counts. -/
theorem lineCounts_eq_held (state : State) (text : List Char) :
    state.lexer.lineCounts true text =
      (held state ((Text.lines text).map Text.trim)).map fun entry =>
        entry.1.lineCount entry.2 := by
  induction text using Text.lineInduction generalizing state with
  | last cs h =>
    obtain ⟨hline, -⟩ := Prod.mk.inj (lineEnd_lexer state h)
    rw [Lexer.lineCounts_of_notMem _ _ h, Text.lines_of_notMem h]
    by_cases hcs : cs = []
    · simp [hcs, held]
    · simpa [hcs, held] using hline
  | line cs rest h ih =>
    obtain ⟨hline, -⟩ := Prod.mk.inj (lineEnd_lexer state h)
    rw [Lexer.lineCounts_append_newline _ _ h, Text.lines_append_newline,
      Text.endedLines_of_notMem h, read_newline_lexer state h, ih]
    simpa [held] using hline

/-- The lines of a text as the formatter meets them. -/
def heldLines (text : List Char) : List (State × List Char) :=
  held {} ((Text.lines text).map Text.trim)

/-- The formatter refines the lexer. Each trimmed line is written behind the indentation that
follows from the state held before it, and on every line that state and the braces counted are the
ones the lexer has. -/
theorem format_refines_lexer (indent : Indent) (text : List Char) :
    format indent text =
        Text.trimEnd ((heldLines text).flatMap fun entry =>
          indent.levels (entry.1.advance entry.2).1 ++ entry.2 ++ ['\n']) ∧
      (heldLines text).map (fun entry => entry.1.lineCount entry.2) =
        Lexer.lineCounts {} true text := by
  constructor
  · rw [format, layout_eq_held, heldLines]
  · exact (lineCounts_eq_held {} text).symm

/-- Openers that overlap, a closer after two stars, and a backslash before blanks. -/
example :
    Lexer.lineCounts {} true "a \x7b/*/ \x7d\n**/\x7b '\x7d\\ \n\x7d // \x7b".toList =
      [⟨⟨0, false⟩, 1, 0⟩, ⟨⟨1, true⟩, 1, 0⟩, ⟨⟨2, false⟩, 0, 1⟩] := by
  decide

end SoliditySource.Braces
