import SoliditySource.Proofs.BraceScan
import SoliditySource.Proofs.CodeLine

/-! The lines of comments. Wrapping keeps the words of a comment and nothing else of it, so a line
of a wrapped comment cannot end early, whatever the comment holds. In a rendering every such line
stands behind a comment mark of its own, and all other lines are the same without the comments. -/
namespace SoliditySource

namespace Text

/-- Pieces joined by a separator that they do not hold are read back by splitting. -/
theorem splitWhen_intercalate {p : Char → Bool} {c : Char} (hc : p c = true)
    {pieces : List (List Char)} (hne : pieces ≠ []) (h : ∀ w ∈ pieces, ∀ x ∈ w, p x = false) :
    splitWhen p ([c].intercalate pieces) = pieces := by
  induction pieces with
  | nil => exact absurd rfl hne
  | cons w pieces ih =>
    have hw := splitWhen_of_not (h w (by simp))
    cases pieces with
    | nil => simpa using hw
    | cons next pieces =>
      have ht := ih (by simp) fun x hx => h x (by simp [hx])
      rw [List.intercalate_cons_cons, List.append_assoc, List.singleton_append,
        splitWhen_append_cons hc, hw, ht]
      rfl

theorem words_blanks_append {blanks : List Char} (hb : ∀ c ∈ blanks, isBlank c = true)
    (cs : List Char) : words (blanks ++ cs) = words cs := by
  induction blanks with
  | nil => rfl
  | cons c blanks ih =>
    have ht := ih fun x hx => hb x (by simp [hx])
    rw [List.cons_append, ← List.nil_append (c :: (blanks ++ cs)),
      words_append_blank (hb c (by simp)), ht]
    rfl

/-- Any blanks between texts separate the words of the texts. -/
theorem words_intercalate_blanks {sep : List Char} (hne : sep ≠ [])
    (hsep : ∀ c ∈ sep, isBlank c = true) (texts : List (List Char)) :
    words (sep.intercalate texts) = texts.flatMap words := by
  obtain ⟨c, blanks, rfl⟩ := List.exists_cons_of_ne_nil hne
  induction texts with
  | nil => rfl
  | cons text texts ih =>
    cases texts with
    | nil => simp
    | cons next texts =>
      rw [List.intercalate_cons_cons, List.append_assoc, List.cons_append,
        words_append_blank (hsep c (by simp)),
        words_blanks_append fun x hx => hsep x (by simp [hx]), ih]
      rfl

theorem words_eq_nil_iff (cs : List Char) : words cs = [] ↔ ∀ c ∈ cs, isBlank c = true := by
  constructor
  · intro h c hc
    by_contra hvisible
    have hflat : c ∈ (splitWhen isBlank cs).flatten := by
      rw [flatten_splitWhen]
      exact List.mem_filter.mpr ⟨hc, by simpa using hvisible⟩
    obtain ⟨piece, hpiece, hmem⟩ := List.mem_flatten.mp hflat
    have hword : piece ∈ words cs :=
      List.mem_filter.mpr ⟨hpiece, by simpa using List.ne_nil_of_mem hmem⟩
    simp [h] at hword
  · intro h
    simpa [words, splitWhen] using words_blanks_append h []

end Text

namespace Comment

/-! Chunks. -/

theorem length_le_of_mem_chunksFrom {α : Type} {size : Nat} {chunk xs piece : List α}
    (hchunk : chunk.length < size) (h : piece ∈ chunksFrom size chunk xs) :
    piece.length ≤ size := by
  induction xs generalizing chunk with
  | nil =>
    cases chunk with
    | nil => simp [chunksFrom] at h
    | cons c chunk =>
      obtain rfl : piece = c :: chunk := by simpa [chunksFrom] using h
      omega
  | cons x xs ih =>
    unfold chunksFrom at h
    split_ifs at h with hsize
    · exact ih (by simpa using hsize) h
    · rcases List.mem_cons.mp h with rfl | h
      · rw [List.length_append, List.length_singleton]
        omega
      · exact ih (by simp; omega) h

/-- All chunks but the last one are full. -/
theorem length_of_mem_dropLast_chunksFrom {α : Type} {size : Nat} {chunk xs piece : List α}
    (hchunk : chunk.length < size) (h : piece ∈ (chunksFrom size chunk xs).dropLast) :
    piece.length = size := by
  induction xs generalizing chunk with
  | nil => cases chunk <;> simp [chunksFrom] at h
  | cons x xs ih =>
    unfold chunksFrom at h
    split_ifs at h with hsize
    · exact ih (by simpa using hsize) h
    · have hfull : (chunk ++ [x]).length = size := by
        rw [List.length_append, List.length_singleton]
        omega
      cases hrest : chunksFrom size [] xs with
      | nil => simp [hrest] at h
      | cons next rest =>
        rw [hrest, List.dropLast_cons_cons, ← hrest] at h
        rcases List.mem_cons.mp h with rfl | h
        · exact hfull
        · exact ih (by simp; omega) h

/-! Lines. -/

/-- Split at the spaces, the lines of a comment are the chunks of its words. -/
theorem map_splitWhen_lines (comment : List Char) :
    (lines comment).map (Text.splitWhen (· == ' ')) =
      chunksFrom wordsPerLine [] (Text.words comment) := by
  rw [lines, List.map_map]
  refine (List.map_congr_left fun chunk hchunk => ?_).trans (List.map_id _)
  refine Text.splitWhen_intercalate rfl (ne_nil_of_mem_chunksFrom hchunk) fun word hword c hc => ?_
  have hblank := (Text.mem_words (mem_of_mem_chunksFrom hchunk hword)).2 c hc
  have hne : c ≠ ' ' := by
    rintro rfl
    exact absurd hblank (by decide)
  simpa using hne

theorem flatMap_splitWhen_lines (comment : List Char) :
    (lines comment).flatMap (Text.splitWhen (· == ' ')) = Text.words comment := by
  rw [List.flatMap_def, map_splitWhen_lines, flatten_chunksFrom]
  rfl

theorem mem_words_of_mem_lines {comment line word : List Char} (hline : line ∈ lines comment)
    (hword : word ∈ Text.splitWhen (· == ' ') line) : word ∈ Text.words comment := by
  rw [← flatMap_splitWhen_lines]
  exact List.mem_flatMap.mpr ⟨line, hline, hword⟩

theorem eq_space_of_mem_lines {comment line : List Char} {c : Char} (hline : line ∈ lines comment)
    (hc : c ∈ line) (hblank : Text.isBlank c = true) : c = ' ' := by
  rcases eq_space_or_of_mem_lines hline hc with h | h
  · exact h
  · simp [hblank] at h

theorem lines_eq_nil_iff (comment : List Char) :
    lines comment = [] ↔ ∀ c ∈ comment, Text.isBlank c = true := by
  rw [← Text.words_eq_nil_iff]
  constructor
  · intro h
    rw [← flatMap_splitWhen_lines, h]
    rfl
  · intro h
    rw [lines, h]
    rfl

/-- Wrapping the lines once more, with any blanks in between, gives the same lines. -/
theorem lines_intercalate_lines {sep : List Char} (hne : sep ≠ [])
    (hsep : ∀ c ∈ sep, Text.isBlank c = true) (comment : List Char) :
    lines (sep.intercalate (lines comment)) = lines comment := by
  have hspace : ∀ c ∈ [' '], Text.isBlank c = true := List.forall_mem_singleton.mpr (by decide)
  have hwords : Text.words (sep.intercalate (lines comment)) = Text.words comment := by
    calc Text.words (sep.intercalate (lines comment))
        = Text.words ([' '].intercalate (lines comment)) := by
          rw [Text.words_intercalate_blanks hne hsep,
            Text.words_intercalate_blanks (by simp) hspace]
      _ = Text.words comment := by
          rw [intercalate_lines, Text.words_intercalate fun _ => Text.mem_words]
  rw [lines, hwords, ← lines]

end Comment

/-! Comments in a rendering. -/

def Fragment.isComment : Fragment → Bool
  | comment _ => true
  | _ => false

def Attribute.uncommented (a : Attribute) : Attribute :=
  { a with comment := none }

namespace Declaration

/-- The declaration without its comment and those of its members. -/
def uncommented : Declaration → Declaration
  | .container c => .container { c with comment := none }
  | .attribute a => .attribute a.uncommented
  | .struct s =>
    .struct { s with attributes := s.attributes.map Attribute.uncommented, comment := none }
  | .mapping m => .mapping { m with comment := none }
  | .function f => .function { f with comment := none }

/-- The comments of a declaration and of its members, in the order in which they are written. -/
def comments : Declaration → List (Option String)
  | .struct s => s.comment :: s.attributes.map Attribute.comment
  | d => [d.comment]

theorem isContainer_uncommented (d : Declaration) : d.uncommented.isContainer = d.isContainer := by
  cases d <;> rfl

end Declaration

theorem Comment.isComment_of_mem_wrap {comment : Option String} {f : Fragment}
    (h : f ∈ wrap comment) : f.isComment = true := by
  obtain ⟨-, -, line, -, rfl⟩ := exists_of_mem_wrap h
  rfl

theorem filter_isComment_declarationFragments (comment : Option String) (body : List Fragment)
    (lineBreak : Bool) :
    (declarationFragments comment body lineBreak).filter Fragment.isComment =
      Comment.wrap comment ++ body.filter Fragment.isComment := by
  have hwrap : (Comment.wrap comment).filter Fragment.isComment = Comment.wrap comment :=
    List.filter_eq_self.mpr fun _ => Comment.isComment_of_mem_wrap
  cases lineBreak <;> simp [declarationFragments, hwrap, Fragment.isComment]

theorem filter_not_isComment_declarationFragments (comment : Option String) (body : List Fragment)
    (lineBreak : Bool) :
    (declarationFragments comment body lineBreak).filter (!·.isComment) =
      declarationFragments none (body.filter (!·.isComment)) lineBreak := by
  have hwrap : (Comment.wrap comment).filter (!·.isComment) = [] :=
    List.filter_eq_nil_iff.mpr fun f hf => by simp [Comment.isComment_of_mem_wrap hf]
  rw [declarationFragments, List.filter_append, List.filter_append, hwrap, declarationFragments]
  cases lineBreak <;> rfl

theorem Attribute.filter_isComment_fragments (a : Attribute) :
    a.fragments.filter Fragment.isComment = Comment.wrap a.comment :=
  (filter_isComment_declarationFragments _ _ _).trans (List.append_nil _)

theorem Attribute.filter_not_isComment_fragments (a : Attribute) :
    a.fragments.filter (!·.isComment) = a.uncommented.fragments :=
  filter_not_isComment_declarationFragments _ _ _

namespace Declaration

theorem filter_isComment_fragments (d : Declaration) :
    d.fragments.filter Fragment.isComment = d.comments.flatMap Comment.wrap := by
  have hline : ∀ (comment : Option String) (body : List Fragment) (lineBreak : Bool),
      body.filter Fragment.isComment = [] →
      (declarationFragments comment body lineBreak).filter Fragment.isComment =
        [comment].flatMap Comment.wrap := by
    intro comment body lineBreak hbody
    rw [filter_isComment_declarationFragments, hbody]
    rfl
  rcases d with c | a | s | m | f
  · exact hline _ _ _ rfl
  · exact hline _ _ _ rfl
  · have hmembers : (s.attributes.flatMap Attribute.fragments).filter Fragment.isComment =
        (s.attributes.map Attribute.comment).flatMap Comment.wrap := by
      rw [List.filter_flatMap, List.flatMap_map]
      exact List.flatMap_congr fun a _ => a.filter_isComment_fragments
    rw [fragments, s.fragments_eq, filter_isComment_declarationFragments, List.filter_append,
      List.filter_cons_of_neg Bool.false_ne_true, hmembers]
    exact congrArg _ (List.append_nil _)
  · exact hline _ _ _ rfl
  · exact hline _ _ _ rfl

theorem filter_not_isComment_fragments (d : Declaration) :
    d.fragments.filter (!·.isComment) = d.uncommented.fragments := by
  rcases d with c | a | s | m | f
  · exact filter_not_isComment_declarationFragments _ _ _
  · exact a.filter_not_isComment_fragments
  · have hmembers : (s.attributes.flatMap Attribute.fragments).filter (!·.isComment) =
        (s.attributes.map Attribute.uncommented).flatMap Attribute.fragments := by
      rw [List.filter_flatMap, List.flatMap_map]
      exact List.flatMap_congr fun a _ => a.filter_not_isComment_fragments
    rw [fragments, s.fragments_eq, filter_not_isComment_declarationFragments, List.filter_append,
      List.filter_cons_of_pos rfl, hmembers, uncommented, fragments, Struct.fragments_eq]
    rfl
  · exact filter_not_isComment_declarationFragments _ _ _
  · exact filter_not_isComment_declarationFragments _ _ _

end Declaration

theorem filter_isComment_restFragments (ds : List Declaration) :
    (restFragments ds).filter Fragment.isComment =
      (ds.flatMap Declaration.comments).flatMap Comment.wrap := by
  induction ds with
  | nil => rfl
  | cons d ds ih =>
    rw [restFragments, List.filter_append, List.filter_append, d.filter_isComment_fragments, ih,
      List.flatMap_cons, List.flatMap_append]
    cases d.isContainer <;> rfl

theorem filter_not_isComment_restFragments (ds : List Declaration) :
    (restFragments ds).filter (!·.isComment) = restFragments (ds.map Declaration.uncommented) := by
  induction ds with
  | nil => rfl
  | cons d ds ih =>
    rw [restFragments, List.filter_append, List.filter_append, d.filter_not_isComment_fragments,
      ih, List.map_cons, restFragments, d.isContainer_uncommented]
    cases d.isContainer <;> rfl

/-- A rendering has the wrapped lines of all comments for its comments. -/
theorem filter_isComment_renderFragments (ds : List Declaration) :
    (renderFragments ds).filter Fragment.isComment =
      (ds.flatMap Declaration.comments).flatMap Comment.wrap := by
  cases ds with
  | nil => rfl
  | cons d ds =>
    rw [renderFragments, List.filter_append, d.filter_isComment_fragments,
      filter_isComment_restFragments, List.flatMap_cons, List.flatMap_append]

/-- Without its comments, a rendering is that of the declarations without comments. -/
theorem filter_not_isComment_renderFragments (ds : List Declaration) :
    (renderFragments ds).filter (!·.isComment) =
      renderFragments (ds.map Declaration.uncommented) := by
  cases ds with
  | nil => rfl
  | cons d ds =>
    rw [renderFragments, List.filter_append, d.filter_not_isComment_fragments,
      filter_not_isComment_restFragments]
    rfl

theorem StartsWithContainer.uncommented {ds : List Declaration} (h : StartsWithContainer ds) :
    StartsWithContainer (ds.map Declaration.uncommented) := by
  obtain ⟨c, rest, rfl⟩ := h
  exact ⟨_, _, rfl⟩

namespace Comment

/-- A line of a comment behind the comment mark. -/
def marked (line : List Char) : List Char :=
  '/' :: '/' :: ' ' :: line

theorem eq_space_of_mem_marked {comment line : List Char} {c : Char} (hline : line ∈ lines comment)
    (hc : c ∈ marked line) (hblank : Text.isBlank c = true) : c = ' ' := by
  simp only [marked, List.mem_cons] at hc
  rcases hc with rfl | rfl | rfl | hc
  · exact absurd hblank (by decide)
  · exact absurd hblank (by decide)
  · rfl
  · exact eq_space_of_mem_lines hline hc hblank

/-- A fragment from a comment is one marked line. -/
theorem lines_of_mem_wrap {comment : Option String} {f : Fragment} (h : f ∈ wrap comment) :
    ∃ text ∈ comment, ∃ line ∈ lines text.toList, f.lines = [marked line] := by
  obtain ⟨text, htext, line, hline, rfl⟩ := exists_of_mem_wrap h
  have hnewline : '\n' ∉ marked line := fun hmem =>
    absurd (eq_space_of_mem_marked hline hmem (by decide)) (by decide)
  have hreturn : (marked line).getLast? ≠ some '\r' := fun hlast =>
    absurd (eq_space_of_mem_marked hline (List.mem_of_getLast? hlast) (by decide)) (by decide)
  refine ⟨text, htext, line, hline, ?_⟩
  rw [Fragment.lines_eq, Fragment.content, String.toList_ofList, ← marked,
    Text.endedLines_of_notMem hnewline, Text.dropReturn, if_neg hreturn]

/-- Where code may stand, the formatter sees nothing of a marked line. -/
theorem advance_marked (depth : Nat) (line : List Char) :
    Braces.State.advance ⟨depth, false⟩ (Text.trim (marked line)) = (depth, ⟨depth, false⟩) := by
  have hscan : Braces.scanLine false (marked line) = ({}, false) := by
    simp [marked, Braces.scanLine, Braces.scan]
  have hvisible : Text.IsVisible (marked line) := ⟨'/', by simp [marked], by decide⟩
  rw [Braces.State.advance_trim, hscan, if_neg hvisible.trim.ne_nil]
  rfl

/-- How a comment is wrapped. Split at its spaces, every line gives words of the comment, and all
lines together give all of them in order. -/
structure WrapsTo (comment : List Char) (lines : List (List Char)) : Prop where
  words : lines.flatMap (Text.splitWhen (· == ' ')) = Text.words comment
  full : ∀ line ∈ lines.dropLast, (Text.splitWhen (· == ' ') line).length = 7
  last : ∀ line ∈ lines.getLast?, 1 ≤ (Text.splitWhen (· == ' ') line).length ∧
    (Text.splitWhen (· == ' ') line).length ≤ 7
  absent : lines = [] ↔ ∀ c ∈ comment, Text.isBlank c = true
  spaces : ∀ line ∈ lines, ∀ c ∈ line, Text.isBlank c = true → c = ' '
  separated : ∀ line ∈ lines, ∀ word ∈ Text.splitWhen (· == ' ') line,
    word ≠ [] ∧ ∀ c ∈ word, Text.isBlank c = false

theorem wrapsTo_lines (comment : List Char) : WrapsTo comment (lines comment) where
  words := flatMap_splitWhen_lines comment
  full line h := by
    have hchunk := List.mem_map_of_mem (f := Text.splitWhen (· == ' ')) h
    rw [List.map_dropLast, map_splitWhen_lines] at hchunk
    exact length_of_mem_dropLast_chunksFrom (by decide) hchunk
  last line h := by
    have hchunk := List.mem_map_of_mem (f := Text.splitWhen (· == ' ')) (List.mem_of_getLast? h)
    rw [map_splitWhen_lines] at hchunk
    exact ⟨List.length_pos_iff.mpr (ne_nil_of_mem_chunksFrom hchunk),
      length_le_of_mem_chunksFrom (by decide) hchunk⟩
  absent := lines_eq_nil_iff comment
  spaces line h c hc hblank := eq_space_of_mem_lines h hc hblank
  separated line h word hword := Text.mem_words (mem_words_of_mem_lines h hword)

/-- Wrapping keeps every word of a comment, and the lines of a comment hold it. Wrapped once more,
they stay the same. In a rendering a comment is its marked lines, of which the formatter sees
nothing where code may stand, and all other lines are those without any comments. -/
theorem wrap_keeps_words :
    (∀ comment : String,
      wrap (some comment) =
          (lines comment.toList).map (fun line => .comment (String.ofList line)) ∧
        WrapsTo comment.toList (lines comment.toList) ∧
        ∀ sep : String, sep ≠ "" → (∀ c ∈ sep.toList, Text.isBlank c = true) →
          wrap (some (sep.intercalate ((lines comment.toList).map String.ofList))) =
            wrap (some comment)) ∧
      ∀ ds, StartsWithContainer ds → ∃ (text plain : String) (fragments : List Fragment),
        renderDeclarations ds = .ok text ∧
          Text.lines text.toList = fragments.flatMap Fragment.lines ∧
          fragments.filter Fragment.isComment = (ds.flatMap Declaration.comments).flatMap wrap ∧
          renderDeclarations (ds.map Declaration.uncommented) = .ok plain ∧
          Text.lines plain.toList = (fragments.filter (!·.isComment)).flatMap Fragment.lines ∧
          ∀ f ∈ fragments, f.isComment = true → ∃ line, f.lines = [marked line] ∧
            ∀ depth, Braces.State.advance ⟨depth, false⟩ (Text.trim (marked line)) =
              (depth, ⟨depth, false⟩) := by
  refine ⟨fun comment => ⟨rfl, wrapsTo_lines comment.toList, fun sep hne hsep => ?_⟩,
    fun ds hds => ?_⟩
  · have hjoined : (sep.intercalate ((lines comment.toList).map String.ofList)).toList =
        sep.toList.intercalate (lines comment.toList) := by
      simp [Function.comp_def]
    rw [wrap, hjoined, lines_intercalate_lines (by simpa using hne) hsep, wrap]
  · obtain ⟨text, htext, hlines⟩ := lines_renderDeclarations hds
    obtain ⟨plain, hplain, hrest⟩ := lines_renderDeclarations hds.uncommented
    rw [← filter_not_isComment_renderFragments] at hrest
    refine ⟨text, plain, renderFragments ds, htext, hlines, filter_isComment_renderFragments ds,
      hplain, hrest, fun f hf hcomment => ?_⟩
    have hwrapped := List.mem_filter.mpr ⟨hf, hcomment⟩
    rw [filter_isComment_renderFragments] at hwrapped
    obtain ⟨comment, -, hmem⟩ := List.mem_flatMap.mp hwrapped
    obtain ⟨-, -, line, -, hline⟩ := lines_of_mem_wrap hmem
    exact ⟨line, hline, fun depth => advance_marked depth line⟩

/-- Eight words that look like code, with blanks of five kinds between them. -/
def hostileComment : String :=
  "*/\u2028\x7d\x7b \" one\ttwo\r\nthree;  four\n five "

theorem hostileComment_keeps_words :
    WrapsTo hostileComment.toList (lines hostileComment.toList) ∧
      wrap (some ("\n\t".intercalate ((lines hostileComment.toList).map String.ofList))) =
        wrap (some hostileComment) ∧
      ∃ (text : String) (fragments : List Fragment),
        renderDeclarations [.container { name := "A", comment := some hostileComment }] =
            .ok text ∧
          Text.lines text.toList = fragments.flatMap Fragment.lines ∧
          fragments.filter Fragment.isComment =
            [.comment "*/ \x7d\x7b \" one two three; four", .comment "five"] := by
  obtain ⟨-, hwraps, hagain⟩ := wrap_keeps_words.1 hostileComment
  obtain ⟨text, -, fragments, htext, hlines, hcomments, -⟩ :=
    wrap_keeps_words.2 [.container { name := "A", comment := some hostileComment }] ⟨_, _, rfl⟩
  refine ⟨hwraps, hagain "\n\t" (by decide) (List.all_eq_true.mp (by decide)), text, fragments,
    htext, hlines, hcomments.trans ?_⟩
  decide +kernel

end Comment

end SoliditySource
