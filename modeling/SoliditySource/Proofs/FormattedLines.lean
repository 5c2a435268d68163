import SoliditySource.Proofs.LevelledLines
import SoliditySource.Proofs.TextLexer

/-! What formatting keeps of a text. Only the blanks at the edges of lines and the blank lines at
the end of the text change; every other line comes back behind whole units of indentation. So the
formatted text says no more and no less than the trimmed lines, and formatting it anew, with any
indentation, gives what the text itself would have given. -/
namespace SoliditySource

/-- The trimmed lines of a text, up to the last one that is not blank. -/
def Text.visibleLines (cs : List Char) : List (List Char) :=
  ((lines cs).map trim).rdropWhile List.isEmpty

theorem Text.map_trim_visibleLines (cs : List Char) :
    (visibleLines cs).map trim = visibleLines cs := by
  conv_rhs => rw [← List.map_id (visibleLines cs)]
  refine List.map_congr_left fun l hl => ?_
  obtain ⟨source, -, rfl⟩ := List.mem_map.mp ((List.rdropWhile_prefix _ _).mem hl)
  exact trim_trim source

theorem rdropWhile_map {α β : Type} (f : α → β) (p : β → Bool) (xs : List α) :
    (xs.map f).rdropWhile p = (xs.rdropWhile (p ∘ f)).map f := by
  rw [List.rdropWhile, ← List.map_reverse, List.dropWhile_map, ← List.map_reverse, List.rdropWhile]

namespace Braces

/-- A trimmed line behind the indentation that it gets in the state held before it. -/
def writtenLine (indent : Indent) (entry : State × List Char) : List Char :=
  indent.levels (entry.1.advance entry.2).1 ++ entry.2

theorem layout_eq_unlines (indent : Indent) (state : State) (lines : List (List Char)) :
    layout indent state lines = Text.unlines ((held state lines).map (writtenLine indent)) := by
  rw [layout_eq_held, Text.unlines, List.flatMap_map]
  rfl

theorem map_snd_held (state : State) (lines : List (List Char)) :
    (held state lines).map Prod.snd = lines := by
  induction lines generalizing state with
  | nil => rfl
  | cons line lines ih => rw [held, List.map_cons, ih]

theorem trim_writtenLine (indent : Indent) (entry : State × List Char) :
    Text.trim (writtenLine indent entry) = Text.trim entry.2 := by
  have hblank : ∀ c ∈ indent.levels (entry.1.advance entry.2).1, Text.isBlank c = true := by
    intro c hc
    rcases mem_levels hc with rfl | rfl <;> decide
  have hnone : ∀ c ∈ ([] : List Char), Text.isBlank c = true := by simp
  have h := Text.trim_between_blanks hblank hnone entry.2
  rwa [List.append_nil] at h

/-- An empty line is not indented. -/
theorem writtenLine_eq_nil_iff (indent : Indent) (entry : State × List Char) :
    writtenLine indent entry = [] ↔ entry.2 = [] := by
  obtain ⟨state, line⟩ := entry
  cases line with
  | nil => simp [writtenLine, State.advance, Indent.levels]
  | cons c cs => simp [writtenLine]

/-- The lines that the formatter holds are trimmed lines of the text. -/
theorem exists_of_mem_heldLines {text : List Char} {entry : State × List Char}
    (h : entry ∈ heldLines text) : ∃ source ∈ Text.lines text, Text.trim source = entry.2 := by
  have hmem : entry.2 ∈ (heldLines text).map Prod.snd := List.mem_map_of_mem h
  rw [heldLines, map_snd_held] at hmem
  exact List.mem_map.mp hmem

/-- The lines of a formatted text are the written lines without the empty ones at the end. -/
theorem lines_format (indent : Indent) (text : List Char) :
    Text.lines (format indent text) =
      ((heldLines text).map (writtenLine indent)).rdropWhile List.isEmpty := by
  rw [format, layout_eq_unlines]
  refine Text.lines_trimEnd_unlines (fun l hl => ?_) fun l hl => ?_
  · obtain ⟨entry, he, rfl⟩ := List.mem_map.mp hl
    obtain ⟨source, hsource, htrim⟩ := exists_of_mem_heldLines he
    intro hc
    rcases List.mem_append.mp hc with hc | hc
    · exact absurd (mem_levels hc) (by decide)
    · rw [← htrim] at hc
      exact Text.newline_notMem_of_mem_lines hsource (Text.subset_of_trim source hc)
  · obtain ⟨entry, he, rfl⟩ := List.mem_map.mp hl
    obtain ⟨source, -, htrim⟩ := exists_of_mem_heldLines he
    by_cases hempty : entry.2 = []
    · rw [(writtenLine_eq_nil_iff indent entry).mpr hempty]
      rfl
    · refine Text.trimEnd_append _ ?_ hempty
      rw [← htrim, Text.trimEnd_trim]

/-- Formatting keeps the trimmed lines, but for the blank ones at the end. -/
theorem map_trim_lines_format (indent : Indent) (text : List Char) :
    (Text.lines (format indent text)).map Text.trim = Text.visibleLines text := by
  have hempty : List.isEmpty ∘ writtenLine indent = List.isEmpty ∘ Prod.snd :=
    funext fun entry => Bool.eq_iff_iff.mpr (by simp [List.isEmpty_iff, writtenLine_eq_nil_iff])
  have htrim : Text.trim ∘ writtenLine indent = Text.trim ∘ Prod.snd :=
    funext (trim_writtenLine indent)
  have hlines : (heldLines text).map Prod.snd = (Text.lines text).map Text.trim :=
    map_snd_held {} _
  calc (Text.lines (format indent text)).map Text.trim
      = ((heldLines text).rdropWhile (List.isEmpty ∘ writtenLine indent)).map
          (Text.trim ∘ writtenLine indent) := by
        rw [lines_format, rdropWhile_map, List.map_map]
    _ = (((heldLines text).map Prod.snd).rdropWhile List.isEmpty).map Text.trim := by
        rw [hempty, htrim, rdropWhile_map, List.map_map]
    _ = (Text.visibleLines text).map Text.trim := by rw [hlines, Text.visibleLines]
    _ = Text.visibleLines text := Text.map_trim_visibleLines text

/-- A line of the formatted text is empty, or has whole units of indentation and nothing else before
a trimmed line. -/
theorem mem_lines_format {indent : Indent} {text line : List Char}
    (h : line ∈ Text.lines (format indent text)) :
    line = [] ∨ ∃ level content, content ≠ [] ∧ Text.trim content = content ∧
      line = indent.levels level ++ content := by
  rw [lines_format] at h
  obtain ⟨entry, he, rfl⟩ := List.mem_map.mp ((List.rdropWhile_prefix _ _).mem h)
  obtain ⟨source, -, htrim⟩ := exists_of_mem_heldLines he
  by_cases hempty : entry.2 = []
  · exact .inl ((writtenLine_eq_nil_iff indent entry).mpr hempty)
  · refine .inr ⟨_, entry.2, hempty, ?_, rfl⟩
    rw [← htrim, Text.trim_trim]

theorem visibleLines_format (indent : Indent) (text : List Char) :
    Text.visibleLines (format indent text) = Text.visibleLines text := by
  rw [Text.visibleLines, map_trim_lines_format]
  exact List.rdropWhile_idempotent _ _

/-- Blank lines at the end are written as line feeds. -/
theorem layout_append_replicate (indent : Indent) (state : State) (lines : List (List Char))
    (count : Nat) :
    layout indent state (lines ++ List.replicate count []) =
      layout indent state lines ++ List.replicate count '\n' := by
  induction lines generalizing state with
  | nil =>
    induction count with
    | zero => rfl
    | succ count ih => simpa [List.replicate_succ, layout, State.advance, Indent.levels] using ih
  | cons line lines ih => simp [layout, ih]

/-- The formatted text depends on nothing but the visible lines. -/
theorem format_eq_layout_visibleLines (indent : Indent) (text : List Char) :
    format indent text = Text.trimEnd (layout indent {} (Text.visibleLines text)) := by
  let last := ((Text.lines text).map Text.trim).rtakeWhile List.isEmpty
  have hlast : last = List.replicate last.length [] := List.eq_replicate_of_mem fun l hl =>
    List.isEmpty_iff.mp (List.mem_rtakeWhile_imp hl)
  have hsplit : (Text.lines text).map Text.trim = Text.visibleLines text ++ last :=
    List.rdropWhile_append_rtakeWhile.symm
  have hfeeds : ∀ c ∈ List.replicate last.length '\n', Text.isBlank c = true := by
    intro c hc
    rw [List.eq_of_mem_replicate hc]
    decide
  rw [format, hsplit, hlast, layout_append_replicate, Text.trimEnd_append_blanks hfeeds]

/-- Two texts have the same formatted text exactly when they have the same visible lines. -/
theorem format_eq_format_iff (indent : Indent) (a b : List Char) :
    format indent a = format indent b ↔ Text.visibleLines a = Text.visibleLines b := by
  constructor
  · intro h
    rw [← map_trim_lines_format indent a, h, map_trim_lines_format]
  · intro h
    rw [format_eq_layout_visibleLines, h, ← format_eq_layout_visibleLines]

end Braces

namespace Formatter

@[simp] theorem toList_format_braces (indent : Indent) (text : String) :
    ((braces indent).format text).toList = Braces.format indent text.toList := by
  rw [format, String.toList_ofList]

/-- The brace formatter changes nothing but blanks at the edges of lines. The trimmed lines stay the
same, without the blank ones at the end of the text; every line that is left is empty or stands
behind whole units of indentation; neither a line nor the text ends with a blank. -/
theorem lines_format_braces (indent : Indent) (text : String) :
    let lines := Text.lines ((braces indent).format text).toList
    lines.map Text.trim = Text.visibleLines text.toList ∧
      (∀ line ∈ lines, line = [] ∨ ∃ level content, content ≠ [] ∧ Text.trim content = content ∧
        line = indent.levels level ++ content) ∧
      (∀ line ∈ lines, Text.trimEnd line = line) ∧
      Text.trimEnd ((braces indent).format text).toList = ((braces indent).format text).toList := by
  intro lines
  have hlines : lines = Text.lines (Braces.format indent text.toList) := by
    rw [← toList_format_braces]
  have hshape := fun line (h : line ∈ lines) => Braces.mem_lines_format (hlines ▸ h)
  refine ⟨?_, hshape, fun line h => ?_, ?_⟩
  · rw [hlines, Braces.map_trim_lines_format]
  · rcases hshape line h with rfl | ⟨level, content, hne, htrim, rfl⟩
    · rfl
    · exact Text.trimEnd_append _ (by rw [← htrim, Text.trimEnd_trim]) hne
  · rw [toList_format_braces]
    exact Text.trimEnd_trimEnd _

/-- A carriage return inside a line and blanks that are not ASCII. -/
example : Braces.format .tab " \n\x7b a\rb\u00a0\r\n \u2003c \n\x7d\x7d;\n \r\n\u0085".toList =
    "\n\x7b a\rb\n\tc\n\x7d\x7d;".toList := by
  decide

/-- Formatting absorbs an earlier formatting with any indentation, and two texts are formatted to
the same text exactly when they have the same visible lines. -/
theorem format_braces_absorbs (indent earlier : Indent) (text : String) :
    (braces indent).format ((braces earlier).format text) = (braces indent).format text ∧
      ∀ other : String, (braces indent).format text = (braces indent).format other ↔
        Text.visibleLines text.toList = Text.visibleLines other.toList := by
  have hiff : ∀ a b : String, (braces indent).format a = (braces indent).format b ↔
      Text.visibleLines a.toList = Text.visibleLines b.toList := fun a b => by
    rw [← String.toList_inj, toList_format_braces, toList_format_braces,
      Braces.format_eq_format_iff]
  refine ⟨(hiff _ _).mpr ?_, hiff text⟩
  rw [toList_format_braces, Braces.visibleLines_format]

end Formatter

end SoliditySource
