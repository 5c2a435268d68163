import SoliditySource.Proofs.BraceScan
import SoliditySource.Proofs.TextSearch
import SoliditySource.Proofs.ValueSource

/-! What the scan of one line reports. The literal of a text is passed over like a piece of code
without braces, whatever the text holds, so the writer and the scanner of literals agree. The
closing braces that count as first are those before any other code of the line, even behind a block
comment that began on an earlier line. -/
namespace SoliditySource

/-! Literals. -/

namespace Value

theorem toList_text_source (s : String) :
    (text s).source.toList = '"' :: escape s.toList ++ ['"'] := by
  simp [source, quote]

theorem scanLine_text_source (s : String) (rest : List Char) :
    Braces.scanLine false ((text s).source.toList ++ rest) =
      ({ (Braces.scanLine false rest).1 with leading := 0 }, (Braces.scanLine false rest).2) := by
  calc Braces.scanLine false ((text s).source.toList ++ rest)
      = Braces.scan (.quoted '"') false (escape s.toList ++ '"' :: rest) := by
        simp [Braces.scanLine, toList_text_source, Braces.scan]
    _ = Braces.scan .code false rest := Braces.scan_quoted_escape false s.toList rest
    _ = _ := Braces.scan_false .code true rest

/-- The source of a text is a sealed literal. It stays on its line and can be read back between its
quotes, so different texts have different sources. In front of the rest of a line it changes neither
the braces that the scanner finds there nor whether a comment is left open; only, no brace comes
first any more. -/
theorem text_source_sealed :
    (∀ s : String, (∀ c ∈ (text s).source.toList, c ≠ '\n' ∧ c ≠ '\r' ∧ c ≠ '\t') ∧
      ∃ body, (text s).source.toList = '"' :: body ++ ['"'] ∧ unescape body = some s.toList) ∧
      (Function.Injective fun s : String => (text s).source) ∧
      ∀ (s : String) (rest : List Char),
        Braces.scanLine false ((text s).source.toList ++ rest) =
          ({ (Braces.scanLine false rest).1 with leading := 0 },
            (Braces.scanLine false rest).2) := by
  refine ⟨fun s => ⟨fun c hc => ?_, escape s.toList, toList_text_source s, unescape_escape _⟩,
    fun s t h => quote_injective h, scanLine_text_source⟩
  have hcases : c = '"' ∨ c ∈ escape s.toList := by
    simpa [toList_text_source, or_comm, or_left_comm] using hc
  rcases hcases with rfl | hc
  · decide
  · exact control_notMem_escape s.toList c hc

end Value

/-! Leading braces. -/

namespace Braces

theorem leadingRun_cons_of_blank {c : Char} (hc : Text.isBlank c = true) (cs : List Char) :
    leadingRun (c :: cs) = c :: leadingRun cs := by
  simp [leadingRun, hc]

theorem leadingRun_cons_of_not {c : Char} (hc : Text.isBlank c = false) (hclose : c ≠ '}')
    (cs : List Char) : leadingRun (c :: cs) = [] := by
  simp [leadingRun, hc, hclose]

/-- A character that is neither blank nor a closing brace ends what comes first. -/
theorem scan_code_visible {c : Char} (hc : Text.isBlank c = false) (hclose : c ≠ '}')
    (leading : Bool) (cs : List Char) :
    scan .code leading (c :: cs) = scan .code false (c :: cs) := by
  by_cases hneutral : IsNeutral c
  · rw [scan_code_cons hneutral, scan_code_cons hneutral, hc, Bool.and_false, Bool.and_false]
  · simp only [IsNeutral, not_not, List.mem_cons, List.not_mem_nil, or_false] at hneutral
    rcases hneutral with rfl | rfl | rfl | rfl | rfl
    · simp [scan]
    · exact absurd rfl hclose
    · simp [scan]
    · simp [scan]
    · cases cs with
      | nil => simp [scan]
      | cons d cs =>
        by_cases hline : d = '/'
        · simp [scan, hline]
        by_cases hblock : d = '*'
        · simp [scan, hblock]
        have hslash : ∀ leading, scan .code leading ('/' :: d :: cs) =
            scan .code (leading && Text.isBlank '/') (d :: cs) := fun leading => by
          rw [scan] <;> simp [hline, hblock]
        rw [hslash, hslash, hc, Bool.and_false, Bool.and_false]

/-- In code, the closing braces before the first other visible character come first. -/
theorem leading_scan_code (cs : List Char) :
    (scan .code true cs).1.leading = (leadingRun cs).count '}' := by
  induction cs with
  | nil => rfl
  | cons c cs ih =>
    by_cases hclose : c = '}'
    · subst hclose
      simp [scan, ih, leadingRun]
    cases hb : Text.isBlank c with
    | true =>
      rw [scan_code_cons (isNeutral_of_isBlank hb), hb, Bool.and_self, ih,
        leadingRun_cons_of_blank hb, List.count_cons_of_ne hclose]
    | false =>
      rw [scan_code_visible hb hclose, scan_false .code true, leadingRun_cons_of_not hb hclose]
      rfl

/-- A block comment ends at the first star that a slash follows. -/
theorem scan_comment (leading : Bool) (cs : List Char) :
    scan .comment leading cs =
      ((Text.splitFirst? ['*', '/'] cs).map fun split => scan .code leading split.2).getD
        ({}, true) := by
  induction cs with
  | nil => simp [scan, Text.splitFirst?]
  | cons c cs ih =>
    unfold Text.splitFirst?
    split_ifs with hend
    · obtain ⟨after, hafter⟩ := List.isPrefixOf_iff_prefix.mp hend
      obtain ⟨rfl, rfl⟩ : '*' = c ∧ '/' :: after = cs := List.cons.inj hafter
      simp [scan]
    · have hopen : ∀ after, c = '*' → cs = '/' :: after → False := by
        rintro after rfl rfl
        simp at hend
      rw [scan, ih, Option.map_map]
      · rfl
      · exact hopen

/-- The part of a line that is code: what follows the comment that the line begins in. -/
def codeStart (inComment : Bool) (line : List Char) : List Char :=
  if inComment then ((Text.splitFirst? ['*', '/'] line).map Prod.snd).getD [] else line

/-- What comes first is looked for where the code of the line begins. -/
theorem leading_scanLine (inComment : Bool) (line : List Char) :
    (scanLine inComment line).1.leading = (leadingRun (codeStart inComment line)).count '}' := by
  cases inComment with
  | false => exact leading_scan_code line
  | true =>
    simp only [scanLine, if_true, scan_comment, codeStart]
    cases Text.splitFirst? ['*', '/'] line with
    | none => rfl
    | some split => exact leading_scan_code split.2

/-- The closing braces that come first on a trimmed line. On a line that begins inside a block
comment the comment comes first. -/
def firstCloses (inComment : Bool) (line : List Char) : Nat :=
  if inComment = false ∧ line.head? = some '}' then (leadingRun line).count '}' else 0

theorem count_leadingRun_trimmed {line : List Char} (hline : Text.trim line = line) :
    (leadingRun line).count '}' = firstCloses false line := by
  cases line with
  | nil => rfl
  | cons c cs =>
    by_cases hclose : c = '}'
    · simp [firstCloses, hclose]
    · -- Any other first character is visible, so nothing leads.
      have hblank : Text.isBlank c = false := Text.isBlank_head_of_trim hline rfl
      simp [firstCloses, hclose, leadingRun_cons_of_not hblank hclose]

/-- The braces that the scanner takes for the first on a trimmed line are the ones that come first,
except where a block comment from an earlier line ends on it and closing braces follow with nothing
but blanks between. -/
theorem leading_eq_firstCloses_iff {line : List Char} (hline : Text.trim line = line)
    (inComment : Bool) :
    (scanLine inComment line).1.leading = firstCloses inComment line ↔
      ¬(inComment = true ∧ ∃ before after, Text.FirstAt ['*', '/'] line before after ∧
        '}' ∈ leadingRun after) := by
  rw [leading_scanLine]
  cases inComment with
  | false => simpa [codeStart] using count_leadingRun_trimmed hline
  | true =>
    simp only [← Text.splitFirst?_eq_some_iff]
    cases hsplit : Text.splitFirst? ['*', '/'] line with
    | none => simp [codeStart, firstCloses, hsplit, leadingRun]
    | some split =>
      obtain ⟨before, after⟩ := split
      simp [codeStart, firstCloses, hsplit, List.count_eq_zero]

theorem leading_commentThenCode :
    let line := ['*', '/', ' ', 'x', '}']
    Text.trim line = line ∧
      ((scanLine true line).1.leading = firstCloses true line ↔
        ¬(true = true ∧ ∃ before after, Text.FirstAt ['*', '/'] line before after ∧
          '}' ∈ leadingRun after)) :=
  ⟨by decide, leading_eq_firstCloses_iff (by decide) true⟩

/-- A brace behind the end of a comment counts as the first on its line, and is not. -/
theorem leading_commentThenClose :
    let line := "text */ \x7d".toList
    Text.trim line = line ∧ (scanLine true line).1.leading = 1 ∧ firstCloses true line = 0 := by
  decide

/-- So the line is written one level further to the left than the comment it belongs to. -/
example :
    format default "\x7b\n/*\ntext */ \x7d".toList = "\x7b\n    /*\ntext */ \x7d".toList := by
  decide

end Braces

end SoliditySource
