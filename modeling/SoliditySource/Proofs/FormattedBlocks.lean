import SoliditySource.Proofs.FormattedLines

/-! Formatting block by block. From one line to the next the formatter carries its state and nothing
else, so a block of lines is written as it would be on its own, from the state that the lines before
it lead to. -/
namespace SoliditySource

namespace Text

theorem trim_dropReturn (cs : List Char) : trim (dropReturn cs) = trim cs := by
  have hnone : ∀ c ∈ ([] : List Char), isBlank c = true := by simp
  have hreturn : ∀ c ∈ ['\r'], isBlank c = true := List.forall_mem_singleton.mpr (by decide)
  rcases dropReturn_eq cs with h | h
  · rw [← h]
  · conv_rhs => rw [h]
    exact (trim_between_blanks hnone hreturn (dropReturn cs)).symm

/-- What follows the last line feed, or all of a text without one. -/
def lastLine (cs : List Char) : List Char :=
  cs.rtakeWhile (· ≠ '\n')

theorem newline_notMem_lastLine (cs : List Char) : '\n' ∉ lastLine cs := fun h => by
  simpa using List.mem_rtakeWhile_imp h

theorem eq_lastLine_or (cs : List Char) :
    cs = lastLine cs ∨ ∃ init, cs = init ++ '\n' :: lastLine cs := by
  have hsplit : cs.rdropWhile (· ≠ '\n') ++ lastLine cs = cs := List.rdropWhile_append_rtakeWhile
  rcases List.eq_nil_or_concat' (cs.rdropWhile (· ≠ '\n')) with hinit | ⟨init, c, hinit⟩
  · exact .inl (by rw [hinit] at hsplit; exact hsplit.symm)
  · have hlast := List.rdropWhile_last_not (· ≠ '\n') cs (by rw [hinit]; simp)
    simp only [hinit, List.getLast_append_singleton] at hlast
    obtain rfl : c = '\n' := by simpa using hlast
    rw [hinit, List.append_assoc, List.singleton_append] at hsplit
    exact .inr ⟨init, hsplit.symm⟩

/-- A last line that is not empty stays a line of its own when another text follows on the next. -/
theorem exists_map_trim_lines {a : List Char} (h : lastLine a ≠ []) :
    ∃ before, (lines a).map trim = before ++ [trim (lastLine a)] ∧
      ∀ b, (lines (a ++ '\n' :: b)).map trim = (lines a).map trim ++ (lines b).map trim := by
  have hlast : (lines (lastLine a)).map trim = [trim (lastLine a)] := by
    rw [lines_of_notMem (newline_notMem_lastLine a), if_neg h]
    rfl
  have hended : (endedLines (lastLine a)).map trim = [trim (lastLine a)] := by
    rw [endedLines_of_notMem (newline_notMem_lastLine a), List.map_singleton, trim_dropReturn]
  rcases eq_lastLine_or a with ha | ⟨init, ha⟩
  · refine ⟨[], by rwa [← ha] at hlast ⊢, fun b => ?_⟩
    rw [← ha] at hlast hended
    rw [lines_append_newline, List.map_append, hended, hlast]
  · have hlines : (lines a).map trim = (endedLines init).map trim ++ [trim (lastLine a)] := by
      conv_lhs => rw [ha]
      rw [lines_append_newline, List.map_append, hlast]
    refine ⟨(endedLines init).map trim, hlines, fun b => ?_⟩
    have hjoin : a ++ '\n' :: b = init ++ '\n' :: (lastLine a ++ '\n' :: b) := by
      conv_lhs => rw [ha]
      simp
    rw [hjoin, lines_append_newline, lines_append_newline, hlines, List.map_append,
      List.map_append, hended, List.append_assoc]

end Text

namespace Braces

/-- The state after some trimmed lines. -/
def State.after (state : State) (lines : List (List Char)) : State :=
  lines.foldl (fun state line => (state.advance line).2) state

/-- The state in which the formatter is left by the lines of a text. -/
def stateAfter (text : List Char) : State :=
  State.after {} ((Text.lines text).map Text.trim)

theorem layout_append (indent : Indent) (state : State) (ls ms : List (List Char)) :
    layout indent state (ls ++ ms) =
      layout indent state ls ++ layout indent (state.after ls) ms := by
  induction ls generalizing state with
  | nil => rfl
  | cons l ls ih => simp [layout, State.after, ih]

theorem isVisible_layout (indent : Indent) (state : State) {lines : List (List Char)}
    {line : List Char} (hmem : line ∈ lines) (h : Text.IsVisible line) :
    Text.IsVisible (layout indent state lines) := by
  obtain ⟨c, hc, hvisible⟩ := h
  refine ⟨c, ?_, hvisible⟩
  rw [← map_snd_held state lines] at hmem
  obtain ⟨entry, hentry, rfl⟩ := List.mem_map.mp hmem
  rw [layout_eq_held]
  exact List.mem_flatMap.mpr ⟨entry, hentry, by simp [hc]⟩

/-- With a visible last line, the formatted text is all that the formatter writes, up to the last
line feed. -/
theorem format_concat_newline (indent : Indent) {text : List Char}
    (h : Text.IsVisible (Text.lastLine text)) :
    format indent text ++ ['\n'] = layout indent {} ((Text.lines text).map Text.trim) := by
  obtain ⟨before, hlines, -⟩ := Text.exists_map_trim_lines h.ne_nil
  have hnewline : ∀ c ∈ ['\n'], Text.isBlank c = true := List.forall_mem_singleton.mpr (by decide)
  let last := Text.trim (Text.lastLine text)
  let level := ((State.after {} before).advance last).1
  have hlayout : layout indent {} (before ++ [last]) =
      layout indent {} before ++ indent.levels level ++ last ++ ['\n'] := by
    rw [layout_append]
    simp [layout, level]
  have htrim : Text.trimEnd (layout indent {} (before ++ [last])) =
      layout indent {} before ++ indent.levels level ++ last := by
    rw [hlayout, Text.trimEnd_append_blanks hnewline,
      Text.trimEnd_append _ (Text.trimEnd_trim _) h.trim.ne_nil]
  rw [format, hlines, htrim, hlayout]

/-- A text on lines of its own after another one is written from the state that the other leaves.
-/
theorem format_append (indent : Indent) {a b : List Char} (ha : Text.IsVisible (Text.lastLine a))
    (hb : ∃ line ∈ Text.lines b, Text.IsVisible line) :
    format indent (a ++ '\n' :: b) = format indent a ++ '\n' ::
      Text.trimEnd (layout indent (stateAfter a) ((Text.lines b).map Text.trim)) := by
  obtain ⟨-, -, hjoin⟩ := Text.exists_map_trim_lines ha.ne_nil
  obtain ⟨line, hline, hvisible⟩ := hb
  have hrest : Text.IsVisible (layout indent (stateAfter a) ((Text.lines b).map Text.trim)) :=
    isVisible_layout indent _ (List.mem_map_of_mem hline) hvisible.trim
  calc format indent (a ++ '\n' :: b)
      = layout indent {} ((Text.lines a).map Text.trim) ++
          Text.trimEnd (layout indent (stateAfter a) ((Text.lines b).map Text.trim)) := by
        rw [format, hjoin b, layout_append]
        exact hrest.trimEnd_append _
    _ = _ := by rw [← format_concat_newline indent ha, List.append_assoc, List.singleton_append]

end Braces

namespace Formatter

/-- Blocks of lines are formatted independently. What follows a text on lines of its own changes
nothing of its formatted form; and when the text leaves no brace and no comment open, what follows
is formatted as on its own. -/
theorem format_braces_blocks (indent : Indent) {a b : String}
    (ha : Text.IsVisible (Text.lastLine a.toList))
    (hb : ∃ line ∈ Text.lines b.toList, Text.IsVisible line) :
    ((braces indent).format a ++ "\n").toList <+:
        ((braces indent).format (a ++ "\n" ++ b)).toList ∧
      ((Braces.stateAfter a.toList).depth = 0 →
        (Braces.stateAfter a.toList).inComment = false →
        (braces indent).format (a ++ "\n" ++ b) =
          (braces indent).format a ++ "\n" ++ (braces indent).format b) := by
  have hjoin : ((braces indent).format (a ++ "\n" ++ b)).toList =
      ((braces indent).format a ++ "\n").toList ++ Text.trimEnd
        (Braces.layout indent (Braces.stateAfter a.toList)
          ((Text.lines b.toList).map Text.trim)) := by
    simp [Braces.format_append indent ha hb]
  refine ⟨by rw [hjoin]; exact List.prefix_append _ _, fun hdepth hcomment => ?_⟩
  have hstate : Braces.stateAfter a.toList = {} := by
    cases hs : Braces.stateAfter a.toList
    simp_all
  rw [hstate, ← Braces.format, ← toList_format_braces, ← String.toList_append] at hjoin
  exact String.toList_inj.mp hjoin

/-- A block with a comment over two of its lines, which hides a brace, and one that starts with a
blank line and leaves a brace open. -/
def commentedBlock : String :=
  "contract A \x7b /* \x7b\n \x7b */ uint x;\n \x7d\r"

def openBlock : String :=
  " \n\tlibrary B \x7b\nuint y;\n"

theorem format_commentedBlock_openBlock :
    Text.IsVisible (Text.lastLine commentedBlock.toList) ∧
      (∃ line ∈ Text.lines openBlock.toList, Text.IsVisible line) ∧
      Braces.stateAfter commentedBlock.toList = ⟨0, false⟩ ∧
      (braces .tab).format (commentedBlock ++ "\n" ++ openBlock) =
        "contract A \x7b /* \x7b\n\t\x7b */ uint x;\n\x7d" ++ "\n" ++
          "\nlibrary B \x7b\n\tuint y;" := by
  have ha : Text.IsVisible (Text.lastLine commentedBlock.toList) := by decide
  have hb : ∃ line ∈ Text.lines openBlock.toList, Text.IsVisible line := by decide
  have hstate : Braces.stateAfter commentedBlock.toList = ⟨0, false⟩ := by decide
  have hblocks := (format_braces_blocks .tab ha hb).2 (congrArg Braces.State.depth hstate)
    (congrArg Braces.State.inComment hstate)
  refine ⟨ha, hb, hstate, ?_⟩
  rw [hblocks]
  decide +kernel

end Formatter

end SoliditySource
