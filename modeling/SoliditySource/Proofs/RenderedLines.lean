import SoliditySource.Proofs.Comment
import SoliditySource.Render

/-! The flat text of declarations as a list of fragments, each of which ends with a line feed. -/
namespace SoliditySource

namespace Fragment

/-- The characters of a fragment, up to the line feed that ends it. -/
def content : Fragment → List Char
  | line s => s.toList
  | blank => []
  | comment s => '/' :: '/' :: ' ' :: s.toList

theorem toList_text (f : Fragment) : f.text.toList = f.content ++ ['\n'] := by
  cases f <;> simp [text, content]

/-- The lines a fragment adds to a text. A line of code may run over several of them. -/
def lines (f : Fragment) : List (List Char) :=
  Text.lines f.text.toList

theorem lines_eq (f : Fragment) : f.lines = Text.endedLines f.content := by
  rw [lines, toList_text, Text.lines_append_newline]
  exact List.append_nil _

theorem toList_concat (fs : List Fragment) :
    (concat fs).toList = Text.unlines (fs.map content) := by
  induction fs with
  | nil => rfl
  | cons f fs ih =>
    change (f.text ++ concat fs).toList = _
    rw [String.toList_append, toList_text, ih]
    simp

end Fragment

/-- The fragments of declarations that follow an open segment, and the brace that closes the last
one. -/
def restFragments : List Declaration → List Fragment
  | [] => [.line "\x7d"]
  | d :: ds =>
    (if d.isContainer then [.line "\x7d", .blank] else []) ++ d.fragments ++ restFragments ds

def renderFragments : List Declaration → List Fragment
  | [] => []
  | d :: ds => d.fragments ++ restFragments ds

theorem toList_renderRest (ds : List Declaration) :
    (renderRest ds).toList ++ ['\n'] = Text.unlines ((restFragments ds).map Fragment.content) := by
  induction ds with
  | nil => rfl
  | cons d ds ih =>
    simp only [renderRest, restFragments, String.toList_append, List.append_assoc, ih,
      Declaration.text, Fragment.toList_concat, List.map_append, Text.unlines_append]
    congr 1
    cases d.isContainer <;> rfl

/-- The first declaration is a container. -/
def StartsWithContainer (ds : List Declaration) : Prop :=
  ∃ c rest, ds = Declaration.container c :: rest

/-- Only declarations that start with a container are rendered. -/
theorem exists_renderDeclarations_iff (ds : List Declaration) :
    (∃ text, renderDeclarations ds = .ok text) ↔ StartsWithContainer ds := by
  cases ds with
  | nil => simp [renderDeclarations, StartsWithContainer]
  | cons d rest =>
    cases d <;>
      simp [renderDeclarations, StartsWithContainer, Declaration.isContainer, Declaration.kind]

/-- Declarations that start with a container are rendered, as the text of their fragments without
the last line feed. -/
theorem renderDeclarations_eq {ds : List Declaration} (h : StartsWithContainer ds) :
    ∃ text, renderDeclarations ds = .ok text ∧
      text.toList ++ ['\n'] = Text.unlines ((renderFragments ds).map Fragment.content) := by
  obtain ⟨c, rest, rfl⟩ := h
  refine ⟨(Declaration.container c).text ++ renderRest rest, rfl, ?_⟩
  rw [String.toList_append, List.append_assoc, toList_renderRest, renderFragments,
    List.map_append, Text.unlines_append, Declaration.text, Fragment.toList_concat]

theorem exists_restFragments_eq (ds : List Declaration) :
    ∃ init, restFragments ds = init ++ [.line "\x7d"] := by
  induction ds with
  | nil => exact ⟨[], rfl⟩
  | cons d ds ih =>
    obtain ⟨init, hinit⟩ := ih
    exact ⟨_, by rw [restFragments, hinit, ← List.append_assoc]⟩

/-- The lines of a rendering are those of its fragments. -/
theorem lines_renderDeclarations {ds : List Declaration} (h : StartsWithContainer ds) :
    ∃ text, renderDeclarations ds = .ok text ∧
      Text.lines text.toList = (renderFragments ds).flatMap Fragment.lines := by
  obtain ⟨text, htext, hlist⟩ := renderDeclarations_eq h
  refine ⟨text, htext, ?_⟩
  have hlines : Text.lines (text.toList ++ ['\n']) =
      (renderFragments ds).flatMap Fragment.lines := by
    rw [hlist, Text.lines_unlines, List.flatMap_map, ← funext Fragment.lines_eq]
  obtain ⟨c, rest, rfl⟩ := h
  obtain ⟨init, hinit⟩ := exists_restFragments_eq rest
  -- The text ends with a brace, so the line feed after it starts no line.
  have hbrace : ∃ cs, text.toList = cs ++ ['}'] := by
    have hend : text.toList ++ ['\n'] =
        Text.unlines (((Declaration.container c).fragments ++ init).map Fragment.content) ++
          ['}'] ++ ['\n'] := by
      simpa [renderFragments, hinit, Fragment.content] using hlist
    exact ⟨_, List.append_cancel_right hend⟩
  obtain ⟨cs, hcs⟩ := hbrace
  rw [← hlines, hcs, Text.lines_concat_newline (by decide) (by decide)]

end SoliditySource
