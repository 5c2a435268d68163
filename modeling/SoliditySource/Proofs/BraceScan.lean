import SoliditySource.Formatter
import SoliditySource.Proofs.Text
import SoliditySource.Value

/-! What the scanner sees of a line. Outside literals and comments only five characters matter to
it, a quoted text hides everything between its quotes, and blanks at the ends of a line change
nothing. -/
namespace SoliditySource.Braces

/-- A character that starts no literal and no comment. -/
def IsPlain (c : Char) : Prop :=
  c ∉ ['"', '\'', '/']

instance (c : Char) : Decidable (IsPlain c) := inferInstanceAs (Decidable (_ ∉ _))

/-- A plain character that is not a brace. -/
def IsNeutral (c : Char) : Prop :=
  c ∉ ['{', '}', '"', '\'', '/']

instance (c : Char) : Decidable (IsNeutral c) := inferInstanceAs (Decidable (_ ∉ _))

theorem isNeutral_of_isBlank {c : Char} (h : Text.isBlank c = true) : IsNeutral c := by
  intro hc
  simp only [List.mem_cons, List.not_mem_nil, or_false] at hc
  rcases hc with rfl | rfl | rfl | rfl | rfl <;> exact absurd h (by decide)

theorem scan_code_cons {c : Char} (hc : IsNeutral c) (leading : Bool) (cs : List Char) :
    scan .code leading (c :: cs) = scan .code (leading && Text.isBlank c) cs := by
  simp only [IsNeutral, List.mem_cons, List.not_mem_nil, or_false, not_or] at hc
  rw [scan] <;> simp_all

theorem scan_code_append {p : List Char} (hp : ∀ c ∈ p, IsNeutral c) (leading : Bool)
    (cs : List Char) :
    scan .code leading (p ++ cs) = scan .code (leading && p.all Text.isBlank) cs := by
  induction p generalizing leading with
  | nil => simp
  | cons c p ih =>
    rw [List.cons_append, scan_code_cons (hp c (by simp)), ih fun x hx => hp x (by simp [hx])]
    simp [Bool.and_assoc]

/-- The blanks and closing braces at the start of a line. -/
def leadingRun (l : List Char) : List Char :=
  l.takeWhile fun c => Text.isBlank c || c == '}'

/-- Without literals and comments every brace counts. -/
theorem scan_code_plain {l : List Char} (hl : ∀ c ∈ l, IsPlain c) (leading : Bool) :
    scan .code leading l =
      (⟨l.count '{', l.count '}', if leading then (leadingRun l).count '}' else 0⟩, false) := by
  induction l generalizing leading with
  | nil => simp [scan, leadingRun]
  | cons c l ih =>
    have ht := ih fun x hx => hl x (by simp [hx])
    by_cases hopen : c = '{'
    · subst hopen
      simp [scan, ht, leadingRun, show Text.isBlank '{' = false by decide]
    by_cases hclose : c = '}'
    · subst hclose
      cases leading <;> simp [scan, ht, leadingRun]
    have hc : IsNeutral c := by
      have := hl c (by simp)
      simp_all [IsNeutral, IsPlain]
    rw [scan_code_cons hc, ht]
    cases leading <;> cases hb : Text.isBlank c <;> simp [leadingRun, hopen, hclose, hb]

/-- Once some code was met, the line counts as before, but no brace of it comes first. -/
theorem scan_false (mode : Mode) (leading : Bool) (cs : List Char) :
    scan mode false cs =
      ({ (scan mode leading cs).1 with leading := 0 }, (scan mode leading cs).2) := by
  fun_induction scan mode leading cs with
  | case1 mode leading => simp [scan]
  | case2 leading cs ih => simpa [scan] using ih
  | case3 leading c cs hc ih => rw [scan, ih]; exact hc
  | case4 mark leading c cs ih => simpa [scan] using ih
  | case5 mark leading c cs hc ih => rw [scan, ih]; exact hc
  | case6 => simp [scan]
  | case7 leading cs ih => simpa [scan] using ih
  | case8 leading cs ih => simpa [scan] using ih
  | case9 leading cs ih => simpa [scan] using ih
  | case10 leading cs counts inComment hcounts ih =>
    rw [hcounts] at ih
    have hzero : counts.leading = 0 := congrArg (·.1.leading) ih
    simp [scan, hcounts, hzero]
  | case11 leading cs counts inComment hcounts own ih => simp [scan, ih, hcounts]
  | case12 leading c cs hline hblock hq hq' hopen hclose ih =>
    rw [scan, Bool.false_and, ih]
    all_goals assumption

/-- A quoted text ends at the quote that was put after it, whatever it holds. -/
theorem scan_quoted_escape (leading : Bool) (cs t : List Char) :
    scan (.quoted '"') leading (Value.escape cs ++ '"' :: t) = scan .code leading t := by
  induction cs with
  | nil => simp [Value.escape, scan]
  | cons c cs ih =>
    rw [Value.escape, List.flatMap_cons, ← Value.escape, List.append_assoc]
    unfold Value.escapeChar
    split
    · simpa [scan] using ih
    · simpa [scan] using ih
    · simpa [scan] using ih
    · simpa [scan] using ih
    · simpa [scan] using ih
    · rw [List.singleton_append, scan] <;> simp_all

/-! Blanks at the ends of a line. -/

/-- No blank ends a literal. -/
def Mode.Visible : Mode → Prop
  | code => True
  | comment => True
  | quoted mark => Text.isBlank mark = false

theorem scan_blanks {mode : Mode} (hm : mode.Visible) (leading : Bool) {blanks : List Char}
    (hb : ∀ c ∈ blanks, Text.isBlank c = true) :
    scan mode leading blanks = ({}, decide (mode = .comment)) := by
  induction blanks generalizing leading with
  | nil => simp [scan]
  | cons c blanks ih =>
    have hc := hb c (by simp)
    have ht := fun leading => ih leading fun x hx => hb x (by simp [hx])
    cases mode with
    | code => rw [scan_code_cons (isNeutral_of_isBlank hc), ht]
    | comment =>
      have hstar : c ≠ '*' := by
        rintro rfl
        exact absurd hc (by decide)
      rw [scan, ht]
      simp [hstar]
    | quoted mark =>
      have hslash : c ≠ '\\' := by
        rintro rfl
        exact absurd hc (by decide)
      have hmark : c ≠ mark := by
        rintro rfl
        exact absurd hc (by simp [show Text.isBlank c = false from hm])
      rw [scan, if_neg hmark, ht]
      simp [hslash]

theorem exists_eq_cons_of_append_blanks {cs blanks rest : List Char} {c : Char}
    (hb : ∀ x ∈ blanks, Text.isBlank x = true) (hc : Text.isBlank c = false)
    (h : cs ++ blanks = c :: rest) : ∃ tail, cs = c :: tail := by
  cases cs with
  | nil =>
    have hblank := hb c (by rw [List.nil_append] at h; simp [h])
    simp [hc] at hblank
  | cons x cs =>
    obtain ⟨rfl, -⟩ := List.cons.inj h
    exact ⟨cs, rfl⟩

/-- Blanks at the end of a line change nothing. A pair of characters that is read as one is never
made of the last character of the line and a blank, except after a backslash, where nothing of the
line is left to count. -/
theorem scan_append_blanks {mode : Mode} (hm : mode.Visible) (leading : Bool)
    {cs blanks : List Char} (hb : ∀ c ∈ blanks, Text.isBlank c = true) :
    scan mode leading (cs ++ blanks) = scan mode leading cs := by
  fun_induction scan mode leading cs with
  | case1 mode leading => exact scan_blanks hm leading hb
  | case2 leading cs ih => simpa [scan] using ih trivial
  | case3 leading c cs hc ih =>
    rw [List.cons_append, scan, ih trivial]
    intro rest hstar hrest
    obtain ⟨tail, htail⟩ := exists_eq_cons_of_append_blanks hb (by decide) hrest
    exact hc tail hstar htail
  | case4 mark leading c cs ih => simpa [scan] using ih hm
  | case5 mark leading c cs hc ih =>
    by_cases hslash : c = '\\'
    · have hcs : cs = [] := List.eq_nil_iff_forall_not_mem.mpr fun x hx => by
        obtain ⟨y, ys, hy⟩ := List.exists_cons_of_ne_nil (List.ne_nil_of_mem hx)
        exact hc y ys hslash hy
      subst hcs hslash
      cases blanks with
      | nil => simp [scan]
      | cons b blanks =>
        have hrest : ∀ x ∈ blanks, Text.isBlank x = true := fun x hx => hb x (by simp [hx])
        have hmode : (if '\\' = mark then Mode.code else Mode.quoted mark) ≠ .comment := by
          split_ifs <;> simp
        simp [scan, scan_blanks hm leading hrest, hmode]
    · have hmode : (if c = mark then Mode.code else Mode.quoted mark).Visible := by
        split_ifs
        · trivial
        · exact hm
      rw [List.cons_append, scan, ih hmode]
      simp [hslash]
  | case6 => simp [scan]
  | case7 leading cs ih => simpa [scan] using ih trivial
  | case8 leading cs ih => simpa [scan] using ih rfl
  | case9 leading cs ih => simpa [scan] using ih rfl
  | case10 leading cs counts inComment hcounts ih => simp [scan, ih trivial, hcounts]
  | case11 leading cs counts inComment hcounts own ih => simp [scan, ih trivial, hcounts, own]
  | case12 leading c cs hline hblock hq hq' hopen hclose ih =>
    rw [List.cons_append, scan, ih trivial]
    · intro rest hslash hrest
      obtain ⟨tail, htail⟩ := exists_eq_cons_of_append_blanks hb (by decide) hrest
      exact hline tail hslash htail
    · intro rest hslash hrest
      obtain ⟨tail, htail⟩ := exists_eq_cons_of_append_blanks hb (by decide) hrest
      exact hblock tail hslash htail
    all_goals assumption

/-- Blanks at the start of a line change nothing either. -/
theorem scanLine_blanks_append (inComment : Bool) {cs blanks : List Char}
    (hb : ∀ c ∈ blanks, Text.isBlank c = true) :
    scanLine inComment (blanks ++ cs) = scanLine inComment cs := by
  cases inComment with
  | false =>
    have hall : blanks.all Text.isBlank = true := List.all_eq_true.mpr hb
    simp [scanLine, scan_code_append (fun c hc => isNeutral_of_isBlank (hb c hc)), hall]
  | true =>
    induction blanks with
    | nil => rfl
    | cons c blanks ih =>
      have hstar : c ≠ '*' := by
        rintro rfl
        exact absurd (hb '*' (by simp)) (by decide)
      have ht := ih fun x hx => hb x (by simp [hx])
      rw [← ht, List.cons_append]
      simp only [scanLine, if_true]
      rw [scan]
      simp [hstar]

theorem scanLine_trim (inComment : Bool) (line : List Char) :
    scanLine inComment (Text.trim line) = scanLine inComment line := by
  obtain ⟨before, after, hbefore, hafter, hline⟩ := Text.exists_trim line
  have hmode : (if inComment then Mode.comment else Mode.code).Visible := by
    cases inComment <;> trivial
  calc scanLine inComment (Text.trim line)
      = scanLine inComment (Text.trim line ++ after) := (scan_append_blanks hmode true hafter).symm
    _ = scanLine inComment (before ++ (Text.trim line ++ after)) :=
        (scanLine_blanks_append inComment hbefore).symm
    _ = scanLine inComment line := by rw [← List.append_assoc, ← hline]

theorem scanLine_dropReturn (inComment : Bool) (l : List Char) :
    scanLine inComment (Text.dropReturn l) = scanLine inComment l := by
  have hmode : (if inComment then Mode.comment else Mode.code).Visible := by
    cases inComment <;> trivial
  rcases Text.dropReturn_eq l with h | h
  · rw [← h]
  · conv_rhs => rw [h]
    have hreturn : ∀ c ∈ ['\r'], Text.isBlank c = true := List.forall_mem_singleton.mpr (by decide)
    exact (scan_append_blanks hmode true hreturn).symm

/-- The step over a trimmed line, by what the scanner sees of the line before it is trimmed. -/
theorem State.advance_trim (state : State) (line : List Char) :
    state.advance (Text.trim line) =
      (if Text.trim line = [] then 0 else state.depth - (scanLine state.inComment line).1.leading,
        ⟨state.depth + (scanLine state.inComment line).1.opens -
          (scanLine state.inComment line).1.closes, (scanLine state.inComment line).2⟩) := by
  rw [← scanLine_trim, State.advance]
  by_cases h : Text.trim line = []
  · cases hc : state.inComment <;> simp [h, scanLine, scan, ← hc]
  · simp [h]

end SoliditySource.Braces
