import Mathlib.Data.List.Basic
import Mathlib.Data.List.DropRight
import SoliditySource.Text.Lines

/-! Laws of splitting and trimming. A text is read back from its parts: where a run of characters of
one class ends, where a line ends, and which blanks trimming takes away. -/
namespace SoliditySource.Text

/-- Two texts that are equal agree on their first run of characters of a class, on the character
that ends the run, and on the rest. -/
theorem run_append_inj {α : Type} {p : α → Prop} {xs ys r s : List α} {c d : α}
    (hx : ∀ x ∈ xs, p x) (hy : ∀ y ∈ ys, p y) (hc : ¬p c) (hd : ¬p d)
    (h : xs ++ c :: r = ys ++ d :: s) : xs = ys ∧ c = d ∧ r = s := by
  induction xs generalizing ys with
  | nil =>
    cases ys with
    | nil => simpa using h
    | cons y ys =>
      obtain ⟨rfl, -⟩ := List.cons.inj h
      exact absurd (hy c (by simp)) hc
  | cons x xs ih =>
    cases ys with
    | nil =>
      obtain ⟨rfl, -⟩ := List.cons.inj h
      exact absurd (hx x (by simp)) hd
    | cons y ys =>
      obtain ⟨rfl, ht⟩ := List.cons.inj h
      obtain ⟨rfl, hcd, hrs⟩ :=
        ih (fun z hz => hx z (by simp [hz])) (fun z hz => hy z (by simp [hz])) ht
      exact ⟨rfl, hcd, hrs⟩

theorem mem_of_mem_intercalate {α : Type} {sep : List α} {xs : List (List α)} {c : α}
    (h : c ∈ sep.intercalate xs) : c ∈ sep ∨ ∃ x ∈ xs, c ∈ x := by
  induction xs with
  | nil => simp at h
  | cons x xs ih =>
    by_cases hx : xs = []
    · exact .inr ⟨x, by simp, by simpa [hx] using h⟩
    · rw [List.intercalate_cons_of_ne_nil hx, List.mem_append, List.mem_append] at h
      rcases h with (h | h) | h
      · exact .inr ⟨x, by simp, h⟩
      · exact .inl h
      · rcases ih h with h | ⟨y, hy, hc⟩
        · exact .inl h
        · exact .inr ⟨y, by simp [hy], hc⟩

section Split

variable {p : Char → Bool}

theorem splitWhen_ne_nil (p : Char → Bool) (cs : List Char) : splitWhen p cs ≠ [] := by
  cases cs with
  | nil => simp [splitWhen]
  | cons c cs =>
    unfold splitWhen
    split_ifs
    · simp
    · split <;> simp

theorem splitWhen_cons_of_not (cs : List Char) {c : Char} (hc : p c = false) :
    ∃ piece pieces, splitWhen p cs = piece :: pieces ∧
      splitWhen p (c :: cs) = (c :: piece) :: pieces := by
  cases h : splitWhen p cs with
  | nil => exact absurd h (splitWhen_ne_nil p cs)
  | cons piece pieces => exact ⟨piece, pieces, rfl, by simp [splitWhen, hc, h]⟩

theorem splitWhen_of_not {cs : List Char} (h : ∀ c ∈ cs, p c = false) :
    splitWhen p cs = [cs] := by
  induction cs with
  | nil => rfl
  | cons c cs ih =>
    have ht := ih fun x hx => h x (by simp [hx])
    simp [splitWhen, h c (by simp), ht]

theorem splitWhen_append_cons {a b : List Char} {c : Char} (hc : p c = true) :
    splitWhen p (a ++ c :: b) = splitWhen p a ++ splitWhen p b := by
  induction a with
  | nil => simp [splitWhen, hc]
  | cons x a ih =>
    cases hx : p x with
    | true => simp [splitWhen, hx, ih]
    | false =>
      obtain ⟨piece, pieces, ha, hxa⟩ := splitWhen_cons_of_not a hx
      simp [splitWhen, hx, ih, ha]

/-- The pieces hold no separator. -/
theorem not_of_mem_splitWhen {cs piece : List Char} (h : piece ∈ splitWhen p cs) :
    ∀ c ∈ piece, p c = false := by
  induction cs generalizing piece with
  | nil => simp_all [splitWhen]
  | cons x cs ih =>
    cases hx : p x with
    | true =>
      simp only [splitWhen, hx, if_true, List.mem_cons] at h
      rcases h with rfl | h
      · simp
      · exact ih h
    | false =>
      obtain ⟨first, pieces, hs, hxs⟩ := splitWhen_cons_of_not cs hx
      rw [hxs, List.mem_cons] at h
      rcases h with rfl | h
      · intro c hc
        rcases List.mem_cons.mp hc with rfl | hc
        · exact hx
        · exact ih (by simp [hs]) c hc
      · exact ih (by simp [hs, h])

theorem subset_of_mem_splitWhen {cs piece : List Char} (h : piece ∈ splitWhen p cs) :
    piece ⊆ cs := by
  induction cs generalizing piece with
  | nil => simp_all [splitWhen]
  | cons x cs ih =>
    cases hx : p x with
    | true =>
      simp only [splitWhen, hx, if_true, List.mem_cons] at h
      rcases h with rfl | h
      · simp
      · exact List.subset_cons_of_subset x (ih h)
    | false =>
      obtain ⟨first, pieces, hs, hxs⟩ := splitWhen_cons_of_not cs hx
      rw [hxs, List.mem_cons] at h
      rcases h with rfl | h
      · exact List.cons_subset_cons x (ih (by simp [hs]))
      · exact List.subset_cons_of_subset x (ih (by simp [hs, h]))

/-- Characters at the end that do not separate belong to the last piece. -/
theorem splitWhen_append (cs : List Char) {b : List Char} (hb : ∀ c ∈ b, p c = false) :
    ∃ pieces last, splitWhen p cs = pieces ++ [last] ∧
      splitWhen p (cs ++ b) = pieces ++ [last ++ b] := by
  induction cs with
  | nil => exact ⟨[], [], rfl, by simpa using splitWhen_of_not hb⟩
  | cons x cs ih =>
    obtain ⟨pieces, last, hs, hcs⟩ := ih
    cases hx : p x with
    | true => exact ⟨[] :: pieces, last, by simp [splitWhen, hx, hs], by simp [splitWhen, hx, hcs]⟩
    | false =>
      cases pieces with
      | nil => exact ⟨[], x :: last, by simp_all [splitWhen], by simp_all [splitWhen]⟩
      | cons first pieces =>
        exact ⟨(x :: first) :: pieces, last, by simp [splitWhen, hx, hs],
          by simp [splitWhen, hx, hcs]⟩

theorem flatten_splitWhen (cs : List Char) : (splitWhen p cs).flatten = cs.filter (!p ·) := by
  induction cs with
  | nil => rfl
  | cons c cs ih =>
    cases hc : p c with
    | true => simp [splitWhen, hc, ih]
    | false =>
      obtain ⟨piece, pieces, hs, hcs⟩ := splitWhen_cons_of_not cs hc
      rw [hcs, List.flatten_cons, List.cons_append, ← List.flatten_cons, ← hs, ih]
      simp [hc]

end Split

/-! Lines. -/

/-- The lines of a text that is followed by a line feed. -/
def endedLines (cs : List Char) : List (List Char) :=
  (splitWhen (· == '\n') cs).map dropReturn

theorem linesOfPieces_append {pieces rest : List (List Char)} (h : rest ≠ []) :
    linesOfPieces (pieces ++ rest) = pieces.map dropReturn ++ linesOfPieces rest := by
  induction pieces with
  | nil => rfl
  | cons piece pieces ih =>
    have hne : pieces ++ rest ≠ [] := by simp [h]
    obtain ⟨next, others, hc⟩ := List.exists_cons_of_ne_nil hne
    rw [List.cons_append, hc, linesOfPieces, ← hc, ih]
    · rfl
    · simp

theorem lines_append_newline (a b : List Char) :
    lines (a ++ '\n' :: b) = endedLines a ++ lines b := by
  rw [lines, splitWhen_append_cons (by rfl), linesOfPieces_append (splitWhen_ne_nil _ b)]
  rfl

theorem dropReturn_concat {cs : List Char} {c : Char} (hc : c ≠ '\r') :
    dropReturn (cs ++ [c]) = cs ++ [c] := by
  simp [dropReturn, hc]

/-- A last line that ends visibly is the same line when a line feed follows it. -/
theorem endedLines_concat {cs : List Char} {c : Char} (hn : c ≠ '\n') (hr : c ≠ '\r') :
    endedLines (cs ++ [c]) = lines (cs ++ [c]) := by
  obtain ⟨pieces, last, -, h⟩ := splitWhen_append (p := (· == '\n')) cs (b := [c]) (by simpa)
  rw [endedLines, lines, h, linesOfPieces_append (by simp)]
  simp [linesOfPieces, dropReturn_concat hr]

theorem endedLines_of_notMem {cs : List Char} (h : '\n' ∉ cs) :
    endedLines cs = [dropReturn cs] := by
  rw [endedLines, splitWhen_of_not]
  · rfl
  · intro c hc
    simpa using fun he : c = '\n' => h (he ▸ hc)

theorem dropReturn_eq (cs : List Char) : cs = dropReturn cs ∨ cs = dropReturn cs ++ ['\r'] := by
  rw [dropReturn]
  split_ifs with h
  · exact .inr (List.dropLast_append_getLast? '\r' h).symm
  · exact .inl rfl

theorem dropReturn_subset (cs : List Char) : dropReturn cs ⊆ cs := by
  intro c hc
  rcases dropReturn_eq cs with h | h
  · rwa [h]
  · rw [h]
    exact List.mem_append_left _ hc

theorem mem_of_mem_endedLines {cs l : List Char} {c : Char} (hl : l ∈ endedLines cs) (hc : c ∈ l) :
    c ∈ cs ∧ c ≠ '\n' := by
  obtain ⟨piece, hpiece, rfl⟩ := List.mem_map.mp hl
  have hmem := dropReturn_subset piece hc
  exact ⟨subset_of_mem_splitWhen hpiece hmem, by simpa using not_of_mem_splitWhen hpiece c hmem⟩

theorem newline_notMem_of_mem_lines {cs l : List Char} (h : l ∈ lines cs) : '\n' ∉ l := by
  have hpieces : ∀ {pieces : List (List Char)}, l ∈ linesOfPieces pieces →
      ∃ piece ∈ pieces, l ⊆ piece := by
    intro pieces hl
    fun_induction linesOfPieces pieces with
    | case1 => simp at hl
    | case2 last hlast => simp at hl
    | case3 last hlast => exact ⟨last, by simp, by simp [List.mem_singleton.mp hl]⟩
    | case4 piece pieces hne ih =>
      rcases List.mem_cons.mp hl with rfl | hl
      · exact ⟨piece, by simp, dropReturn_subset piece⟩
      · obtain ⟨other, hother, hsub⟩ := ih hl
        exact ⟨other, by simp [hother], hsub⟩
  obtain ⟨piece, hpiece, hsub⟩ := hpieces h
  intro hc
  simpa using not_of_mem_splitWhen hpiece '\n' (hsub hc)

/-- Line ends are all that is lost when a text is split into lines. -/
theorem filter_flatten_endedLines {f : Char → Bool} (hn : f '\n' = false) (hr : f '\r' = false)
    (cs : List Char) : (endedLines cs).flatten.filter f = cs.filter f := by
  have hdrop : ∀ l, (dropReturn l).filter f = l.filter f := by
    intro l
    rcases dropReturn_eq l with h | h
    · rw [← h]
    · conv_rhs => rw [h]
      simp [hr]
  have hpieces : ∀ pieces : List (List Char),
      (pieces.map dropReturn).flatten.filter f = pieces.flatten.filter f := by
    intro pieces
    induction pieces with
    | nil => rfl
    | cons piece pieces ih => simp [hdrop, ih]
  rw [endedLines, hpieces, flatten_splitWhen, List.filter_filter]
  refine List.filter_congr fun c _ => ?_
  by_cases hc : c = '\n' <;> simp [hc, hn]

/-- A text is one last line, or a line with its line feed and the text after it. -/
@[elab_as_elim]
theorem lineInduction {motive : List Char → Prop} (last : ∀ cs, '\n' ∉ cs → motive cs)
    (line : ∀ cs rest, '\n' ∉ cs → motive rest → motive (cs ++ '\n' :: rest)) (cs : List Char) :
    motive cs := by
  by_cases h : '\n' ∈ cs
  · obtain ⟨first, rest, hcs, hfirst⟩ := List.eq_append_cons_of_mem h
    have hlength : rest.length < cs.length := by
      simp only [hcs, List.length_append, List.length_cons]
      omega
    rw [hcs]
    exact line first rest hfirst (lineInduction last line rest)
  · exact last cs h
termination_by cs.length

theorem lines_of_notMem {cs : List Char} (h : '\n' ∉ cs) :
    lines cs = if cs = [] then [] else [cs] := by
  have hpiece : splitWhen (· == '\n') cs = [cs] := splitWhen_of_not fun c hc => by
    simpa using fun he : c = '\n' => h (he ▸ hc)
  simp [lines, hpiece, linesOfPieces]

/-- Every line ended by a line feed. -/
def unlines (ls : List (List Char)) : List Char :=
  ls.flatMap (· ++ ['\n'])

@[simp] theorem unlines_nil : unlines [] = [] := rfl

@[simp] theorem unlines_cons (l : List Char) (ls : List (List Char)) :
    unlines (l :: ls) = l ++ '\n' :: unlines ls := by
  simp [unlines]

@[simp] theorem unlines_append (ls ms : List (List Char)) :
    unlines (ls ++ ms) = unlines ls ++ unlines ms := by
  simp [unlines]

theorem unlines_inj {ls ms : List (List Char)} (hl : ∀ l ∈ ls, '\n' ∉ l)
    (hm : ∀ m ∈ ms, '\n' ∉ m) (h : unlines ls = unlines ms) : ls = ms := by
  induction ls generalizing ms with
  | nil =>
    cases ms with
    | nil => rfl
    | cons m ms => simp at h
  | cons l ls ih =>
    cases ms with
    | nil => simp at h
    | cons m ms =>
      simp only [unlines_cons] at h
      have hrun : ∀ k : List Char, '\n' ∉ k → ∀ c ∈ k, c ≠ '\n' := fun k hk c hc he => hk (he ▸ hc)
      obtain ⟨rfl, -, ht⟩ := run_append_inj (p := (· ≠ '\n')) (hrun l (hl l (by simp)))
        (hrun m (hm m (by simp))) (by simp) (by simp) h
      rw [ih (fun k hk => hl k (by simp [hk])) (fun k hk => hm k (by simp [hk])) ht]

/-- Lines that hold no line feed and end with no carriage return are the lines of their text. -/
theorem lines_unlines_append {ls : List (List Char)} (b : List Char) (hn : ∀ l ∈ ls, '\n' ∉ l)
    (hr : ∀ l ∈ ls, l.getLast? ≠ some '\r') : lines (unlines ls ++ b) = ls ++ lines b := by
  induction ls with
  | nil => rfl
  | cons l ls ih =>
    have ht := ih (fun k hk => hn k (by simp [hk])) (fun k hk => hr k (by simp [hk]))
    rw [unlines_cons, List.append_assoc, List.cons_append, lines_append_newline, ht,
      endedLines_of_notMem (hn l (by simp)), dropReturn, if_neg (hr l (by simp))]
    rfl

theorem lines_unlines (ls : List (List Char)) : lines (unlines ls) = ls.flatMap endedLines := by
  induction ls with
  | nil => rfl
  | cons l ls ih => rw [unlines_cons, lines_append_newline, ih, List.flatMap_cons]

/-- A line feed at the very end changes no line that ends visibly. -/
theorem lines_concat_newline {cs : List Char} {c : Char} (hn : c ≠ '\n') (hr : c ≠ '\r') :
    lines (cs ++ [c] ++ ['\n']) = lines (cs ++ [c]) := by
  rw [lines_append_newline, endedLines_concat hn hr]
  exact List.append_nil _

/-! Trimming. -/

theorem trimEnd_cons (c : Char) (cs : List Char) :
    trimEnd (c :: cs) = if (trimEnd cs).isEmpty && isBlank c then [] else c :: trimEnd cs := rfl

theorem trimEnd_of_blanks {cs : List Char} (h : ∀ c ∈ cs, isBlank c = true) : trimEnd cs = [] := by
  induction cs with
  | nil => rfl
  | cons c cs ih => simp [trimEnd_cons, ih fun x hx => h x (by simp [hx]), h c (by simp)]

theorem trimEnd_append_blanks {a b : List Char} (h : ∀ c ∈ b, isBlank c = true) :
    trimEnd (a ++ b) = trimEnd a := by
  induction a with
  | nil => exact trimEnd_of_blanks h
  | cons c a ih => rw [List.cons_append, trimEnd_cons, ih, trimEnd_cons]

theorem trimEnd_concat {cs : List Char} {c : Char} (hc : isBlank c = false) :
    trimEnd (cs ++ [c]) = cs ++ [c] := by
  induction cs with
  | nil => simp [trimEnd, hc]
  | cons x cs ih => simp [trimEnd_cons, ih]

/-- A text is its trimmed form followed by blanks. -/
theorem exists_trimEnd_append (cs : List Char) :
    ∃ blanks, (∀ c ∈ blanks, isBlank c = true) ∧ cs = trimEnd cs ++ blanks := by
  induction cs with
  | nil => exact ⟨[], by simp, rfl⟩
  | cons c cs ih =>
    obtain ⟨blanks, hb, hcs⟩ := ih
    rw [trimEnd_cons]
    by_cases h : (trimEnd cs).isEmpty && isBlank c
    · rw [if_pos h]
      simp only [Bool.and_eq_true, List.isEmpty_iff] at h
      rw [h.1, List.nil_append] at hcs
      exact ⟨c :: cs, by simpa [h.2, hcs] using hb, rfl⟩
    · rw [if_neg h]
      exact ⟨blanks, hb, by rw [List.cons_append, ← hcs]⟩

/-- A text is its trimmed form between blanks. -/
theorem exists_trim (cs : List Char) :
    ∃ before after, (∀ c ∈ before, isBlank c = true) ∧ (∀ c ∈ after, isBlank c = true) ∧
      cs = before ++ trim cs ++ after := by
  obtain ⟨after, ha, hs⟩ := exists_trimEnd_append (trimStart cs)
  refine ⟨cs.takeWhile isBlank, after, ?_, ha, ?_⟩
  · exact List.all_eq_true.mp List.all_takeWhile
  · rw [List.append_assoc, trim, ← hs]
    exact List.takeWhile_append_dropWhile.symm

theorem subset_of_trim (cs : List Char) : trim cs ⊆ cs := by
  obtain ⟨before, after, -, -, h⟩ := exists_trim cs
  intro c hc
  rw [h]
  simp [hc]

theorem getLast?_trimEnd {cs : List Char} {c : Char} (h : (trimEnd cs).getLast? = some c) :
    isBlank c = false := by
  induction cs with
  | nil => simp [trimEnd] at h
  | cons x cs ih =>
    rw [trimEnd_cons] at h
    split_ifs at h with hx
    · simp at h
    · cases hcs : trimEnd cs with
      | nil => simp_all
      | cons y ys => exact ih (by simpa [hcs, List.getLast?_cons_cons] using h)

theorem trimEnd_trimEnd (cs : List Char) : trimEnd (trimEnd cs) = trimEnd cs := by
  obtain ⟨blanks, hb, hcs⟩ := exists_trimEnd_append cs
  calc trimEnd (trimEnd cs) = trimEnd (trimEnd cs ++ blanks) := (trimEnd_append_blanks hb).symm
    _ = trimEnd cs := by rw [← hcs]

theorem trimEnd_trim (cs : List Char) : trimEnd (trim cs) = trim cs :=
  trimEnd_trimEnd _

/-- A text ends visibly when its last part does. -/
theorem trimEnd_append {b : List Char} (a : List Char) (hb : trimEnd b = b) (hne : b ≠ []) :
    trimEnd (a ++ b) = a ++ b := by
  obtain ⟨cs, c, rfl⟩ := (List.eq_nil_or_concat' b).resolve_left hne
  have hc : isBlank c = false := getLast?_trimEnd (by rw [hb]; simp)
  rw [← List.append_assoc]
  exact trimEnd_concat hc

/-- Blanks on either side of a text are trimmed away. -/
theorem trim_between_blanks {before after : List Char} (hb : ∀ c ∈ before, isBlank c = true)
    (ha : ∀ c ∈ after, isBlank c = true) (cs : List Char) :
    trim (before ++ cs ++ after) = trim cs := by
  have hbefore : before.dropWhile isBlank = [] := List.dropWhile_eq_nil_iff.mpr hb
  have hafter : after.dropWhile isBlank = [] := List.dropWhile_eq_nil_iff.mpr ha
  have hstart : trimStart (before ++ cs ++ after) = trimStart (cs ++ after) := by
    rw [List.append_assoc, trimStart, List.dropWhile_append, hbefore]
    rfl
  rw [trim, hstart, trimStart, List.dropWhile_append, hafter]
  split_ifs with hcs
  · rw [List.isEmpty_iff] at hcs
    rw [trim, trimStart, hcs]
  · exact trimEnd_append_blanks ha

theorem trim_trim (cs : List Char) : trim (trim cs) = trim cs := by
  obtain ⟨before, after, hb, ha, hcs⟩ := exists_trim cs
  calc trim (trim cs) = trim (before ++ trim cs ++ after) := (trim_between_blanks hb ha _).symm
    _ = trim cs := by rw [← hcs]

theorem isBlank_head_of_trim {cs : List Char} {c : Char} (h : trim cs = cs)
    (hc : cs.head? = some c) : isBlank c = false := by
  obtain ⟨blanks, -, hstart⟩ := exists_trimEnd_append (trimStart cs)
  rw [← trim, h] at hstart
  have hhead : (cs.dropWhile isBlank).head? = some c := by
    rw [← trimStart, hstart, List.head?_append, hc, Option.some_or]
  simpa [hhead] using List.head?_dropWhile_not isBlank cs

/-- Not all of the text is blank. -/
def IsVisible (cs : List Char) : Prop :=
  ∃ c ∈ cs, isBlank c = false

instance (cs : List Char) : Decidable (IsVisible cs) :=
  List.decidableBEx (isBlank · = false) cs

theorem not_isVisible_of_blanks {cs : List Char} (h : ∀ c ∈ cs, isBlank c = true) :
    ¬IsVisible cs := by
  rintro ⟨c, hc, hvisible⟩
  simp [h c hc] at hvisible

theorem IsVisible.trimEnd_ne_nil {cs : List Char} (h : IsVisible cs) : trimEnd cs ≠ [] := by
  obtain ⟨blanks, hb, hcs⟩ := exists_trimEnd_append cs
  intro hnil
  rw [hnil, List.nil_append] at hcs
  exact not_isVisible_of_blanks hb (hcs ▸ h)

theorem IsVisible.trim {cs : List Char} (h : IsVisible cs) : IsVisible (trim cs) := by
  obtain ⟨before, after, hb, ha, hcs⟩ := exists_trim cs
  obtain ⟨c, hc, hvisible⟩ := h
  rw [hcs] at hc
  rcases List.mem_append.mp hc with hc | hc
  · rcases List.mem_append.mp hc with hc | hc
    · exact absurd ⟨c, hc, hvisible⟩ (not_isVisible_of_blanks hb)
    · exact ⟨c, hc, hvisible⟩
  · exact absurd ⟨c, hc, hvisible⟩ (not_isVisible_of_blanks ha)

theorem IsVisible.ne_nil {cs : List Char} (h : IsVisible cs) : cs ≠ [] := by
  obtain ⟨c, hc, -⟩ := h
  exact List.ne_nil_of_mem hc

/-- Trimming does not reach past something visible. -/
theorem IsVisible.trimEnd_append {b : List Char} (h : IsVisible b) (a : List Char) :
    trimEnd (a ++ b) = a ++ trimEnd b := by
  obtain ⟨blanks, hb, hblanks⟩ := exists_trimEnd_append b
  calc trimEnd (a ++ b) = trimEnd (a ++ trimEnd b ++ blanks) := by
        rw [List.append_assoc, ← hblanks]
    _ = trimEnd (a ++ trimEnd b) := trimEnd_append_blanks hb
    _ = a ++ trimEnd b := Text.trimEnd_append a (trimEnd_trimEnd b) h.trimEnd_ne_nil

/-- Of a text made of lines that end visibly, trimming takes away the empty lines at the end. -/
theorem lines_trimEnd_unlines {ls : List (List Char)} (hn : ∀ l ∈ ls, '\n' ∉ l)
    (hv : ∀ l ∈ ls, trimEnd l = l) :
    lines (trimEnd (unlines ls)) = ls.rdropWhile List.isEmpty := by
  induction ls using List.reverseRecOn with
  | nil => rfl
  | append_singleton ls l ih =>
    have hnewline : ∀ c ∈ ['\n'], isBlank c = true := List.forall_mem_singleton.mpr (by decide)
    -- From the end on, an empty line adds a blank to trim, and the first other line ends the trimming.
    rcases List.eq_nil_or_concat' l with rfl | ⟨cs, c, rfl⟩
    · have hinit := ih (fun l hl => hn l (by simp [hl])) fun l hl => hv l (by simp [hl])
      rw [List.rdropWhile_concat_pos _ _ _ rfl, ← hinit]
      simp [trimEnd_append_blanks hnewline]
    · have hlast : ∀ l ∈ ls ++ [cs ++ [c]], ∀ x, l.getLast? = some x → isBlank x = false :=
        fun l hl x hx => getLast?_trimEnd (by rwa [hv l hl])
      have hreturn : ∀ l ∈ ls ++ [cs ++ [c]], l.getLast? ≠ some '\r' := fun l hl hr =>
        absurd (hlast l hl '\r' hr) (by decide)
      have hc : isBlank c = false := hlast (cs ++ [c]) (by simp) c (by simp)
      have hne : ∀ x, isBlank x = true → c ≠ x := by
        rintro x hx rfl
        simp [hc] at hx
      have htext : unlines (ls ++ [cs ++ [c]]) = unlines ls ++ cs ++ [c] ++ ['\n'] := by simp
      have hlines := lines_unlines_append [] hn hreturn
      rw [List.append_nil, htext, lines_concat_newline (hne _ (by decide)) (hne _ (by decide))]
        at hlines
      rw [htext, trimEnd_append_blanks hnewline, trimEnd_concat hc, hlines,
        List.rdropWhile_concat_neg _ _ _ (by simp)]
      exact List.append_nil _

end SoliditySource.Text
