import SoliditySource.Comment
import SoliditySource.Proofs.Text

/-! Wrapping a comment rearranges its blanks and nothing else: the words of the comment are cut into
lines that are not empty, and the lines joined by spaces are the words joined by spaces. -/
namespace SoliditySource

namespace Text

theorem mem_words {cs word : List Char} (h : word ∈ words cs) :
    word ≠ [] ∧ ∀ c ∈ word, isBlank c = false := by
  obtain ⟨hs, hne⟩ := List.mem_filter.mp h
  exact ⟨by simpa using hne, not_of_mem_splitWhen hs⟩

/-- Words do not cross a blank. -/
theorem words_append_blank {a b : List Char} {c : Char} (hc : isBlank c = true) :
    words (a ++ c :: b) = words a ++ words b := by
  rw [words, splitWhen_append_cons hc, List.filter_append]
  rfl

theorem words_of_word {word : List Char} (hne : word ≠ []) (h : ∀ c ∈ word, isBlank c = false) :
    words word = [word] := by
  simp [words, splitWhen_of_not h, hne]

/-- The words of words joined by single spaces. -/
theorem words_intercalate {ws : List (List Char)}
    (h : ∀ w ∈ ws, w ≠ [] ∧ ∀ c ∈ w, isBlank c = false) : words ([' '].intercalate ws) = ws := by
  induction ws with
  | nil => rfl
  | cons w ws ih =>
    have hw := h w (by simp)
    cases ws with
    | nil => simpa using words_of_word hw.1 hw.2
    | cons v ws =>
      have ht := ih fun x hx => h x (by simp [hx])
      rw [List.intercalate_cons_cons, List.append_assoc, List.singleton_append,
        words_append_blank (by decide), ht, words_of_word hw.1 hw.2]
      rfl

end Text

namespace Comment

theorem flatten_chunksFrom {α : Type} (size : Nat) (chunk xs : List α) :
    (chunksFrom size chunk xs).flatten = chunk ++ xs := by
  induction xs generalizing chunk with
  | nil =>
    cases chunk <;> simp [chunksFrom]
  | cons x xs ih =>
    unfold chunksFrom
    split_ifs <;> simp [ih]

theorem mem_of_mem_chunksFrom {α : Type} {size : Nat} {xs piece : List α} {x : α}
    (hpiece : piece ∈ chunksFrom size [] xs) (hx : x ∈ piece) : x ∈ xs := by
  rw [← List.nil_append xs, ← flatten_chunksFrom size [] xs]
  exact List.mem_flatten_of_mem hpiece hx

theorem ne_nil_of_mem_chunksFrom {α : Type} {size : Nat} {chunk xs piece : List α}
    (h : piece ∈ chunksFrom size chunk xs) : piece ≠ [] := by
  induction xs generalizing chunk with
  | nil =>
    cases chunk with
    | nil => simp [chunksFrom] at h
    | cons c chunk => simp_all [chunksFrom]
  | cons x xs ih =>
    unfold chunksFrom at h
    split_ifs at h
    · exact ih h
    · rcases List.mem_cons.mp h with rfl | h
      · simp
      · exact ih h

theorem intercalate_append {α : Type} {sep : List α} {xs ys : List (List α)} (hx : xs ≠ [])
    (hy : ys ≠ []) :
    sep.intercalate (xs ++ ys) = sep.intercalate xs ++ sep ++ sep.intercalate ys := by
  induction xs with
  | nil => exact absurd rfl hx
  | cons x xs ih =>
    cases xs with
    | nil => simp [List.intercalate_cons_of_ne_nil hy]
    | cons next xs =>
      have ht := ih (by simp)
      simp only [List.cons_append, List.intercalate_cons_cons, List.append_assoc] at ht ⊢
      rw [ht]

/-- Joining chunks that were joined themselves is joining all their items. -/
theorem intercalate_map_intercalate {α : Type} {sep : List α} {chunks : List (List (List α))}
    (h : ∀ chunk ∈ chunks, chunk ≠ []) :
    sep.intercalate (chunks.map sep.intercalate) = sep.intercalate chunks.flatten := by
  induction chunks with
  | nil => rfl
  | cons chunk chunks ih =>
    have ht := ih fun x hx => h x (by simp [hx])
    have hc := h chunk (by simp)
    cases chunks with
    | nil => simp
    | cons next chunks =>
      have hn : (next :: chunks).flatten ≠ [] := by simp [h next (by simp)]
      rw [List.map_cons, List.map_cons, List.intercalate_cons_cons, ← List.map_cons, ht,
        ← intercalate_append hc hn]
      rfl

theorem intercalate_lines (comment : List Char) :
    [' '].intercalate (lines comment) = [' '].intercalate (Text.words comment) := by
  rw [lines, intercalate_map_intercalate fun _ => ne_nil_of_mem_chunksFrom, flatten_chunksFrom]
  rfl

/-- The lines of a comment hold no blanks but spaces. -/
theorem eq_space_or_of_mem_lines {comment l : List Char} {c : Char} (hl : l ∈ lines comment)
    (hc : c ∈ l) : c = ' ' ∨ Text.isBlank c = false := by
  obtain ⟨chunk, hchunk, rfl⟩ := List.mem_map.mp hl
  rcases Text.mem_of_mem_intercalate hc with hsep | ⟨word, hword, hc⟩
  · exact .inl (by simpa using hsep)
  · exact .inr ((Text.mem_words (mem_of_mem_chunksFrom hchunk hword)).2 c hc)

theorem newline_notMem_of_mem_lines {comment l : List Char} (hl : l ∈ lines comment) :
    '\n' ∉ l := by
  intro hc
  rcases eq_space_or_of_mem_lines hl hc with h | h
  · simp at h
  · exact absurd h (by decide)

theorem exists_of_mem_wrap {comment : Option String} {f : Fragment} (h : f ∈ wrap comment) :
    ∃ text ∈ comment, ∃ line ∈ lines text.toList, f = .comment (String.ofList line) := by
  cases comment with
  | none => simp [wrap] at h
  | some text =>
    obtain ⟨line, hline, rfl⟩ := List.mem_map.mp h
    exact ⟨text, rfl, line, hline, rfl⟩

end Comment

end SoliditySource
