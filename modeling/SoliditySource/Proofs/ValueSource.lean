import Mathlib
import SoliditySource.Value

/-! The source text of a value. A quoted text holds no control of its own and can be read back; the
texts of booleans, integers and quoted texts never coincide. -/
namespace SoliditySource.Value

/-- Reads the characters between the quotes of a literal back. A backslash stands before one of five
characters, and a quote stands after a backslash. -/
def unescape : List Char → Option (List Char)
  | [] => some []
  | '\\' :: '"' :: cs => (unescape cs).map ('"' :: ·)
  | '\\' :: '\\' :: cs => (unescape cs).map ('\\' :: ·)
  | '\\' :: 'n' :: cs => (unescape cs).map ('\n' :: ·)
  | '\\' :: 'r' :: cs => (unescape cs).map ('\r' :: ·)
  | '\\' :: 't' :: cs => (unescape cs).map ('\t' :: ·)
  | '\\' :: _ => none
  | '"' :: _ => none
  | c :: cs => (unescape cs).map (c :: ·)

theorem unescape_escapeChar (c : Char) (cs : List Char) :
    unescape (escapeChar c ++ cs) = (unescape cs).map (c :: ·) := by
  unfold escapeChar
  split
  · rfl
  · rfl
  · rfl
  · rfl
  · rfl
  · rw [List.singleton_append, unescape]
    all_goals simp_all

theorem unescape_escape (cs : List Char) : unescape (escape cs) = some cs := by
  induction cs with
  | nil => rfl
  | cons c cs ih =>
    rw [escape, List.flatMap_cons, unescape_escapeChar, ← escape, ih, Option.map_some]

theorem quote_injective : Function.Injective quote := by
  intro s t h
  have hlist := congrArg String.toList h
  simp only [quote, String.toList_ofList, List.cons_append, List.cons.injEq, true_and] at hlist
  have hescape := List.append_cancel_right hlist
  have hread := congrArg unescape hescape
  rw [unescape_escape, unescape_escape] at hread
  exact String.toList_inj.mp (Option.some.inj hread)

/-- Line feeds, carriage returns and tabulators are always escaped. -/
theorem control_notMem_escape (cs : List Char) :
    ∀ c ∈ escape cs, c ≠ '\n' ∧ c ≠ '\r' ∧ c ≠ '\t' := by
  intro c hc
  obtain ⟨x, -, hx⟩ := List.mem_flatMap.mp hc
  unfold escapeChar at hx
  split at hx <;> simp_all <;> rcases hx with rfl | rfl <;> decide

/-- The characters of a decimal number. -/
theorem mem_integer_source {n : Int64} {c : Char} (h : c ∈ (integer n).source.toList) :
    c.isDigit = true ∨ c = '-' := by
  change c ∈ (toString n.toInt).toList at h
  rw [Int.toString_eq_repr, Int.repr_eq_if] at h
  split_ifs at h
  · simp only [Nat.toList_repr] at h
    exact .inl (Nat.isDigit_of_mem_toDigits (by omega) (by omega) h)
  · simp only [String.toList_append, Nat.toList_repr, List.mem_append] at h
    rcases h with h | h
    · exact .inr (by simpa using h)
    · exact .inl (Nat.isDigit_of_mem_toDigits (by omega) (by omega) h)

/-- Only a bare expression can run over several lines. -/
theorem newline_notMem_source {v : Value} (hv : ∀ s, v ≠ literal s) : '\n' ∉ v.source.toList := by
  cases v with
  | boolean b => cases b <;> simp [source]
  | integer n =>
    intro h
    exact absurd (mem_integer_source h) (by decide)
  | text s =>
    have hescape : '\n' ∉ escape s.toList := fun h => (control_notMem_escape s.toList _ h).1 rfl
    simp [source, quote, hescape]
  | literal s => exact absurd rfl (hv s)

theorem head?_boolean_source (b : Bool) :
    (boolean b).source.toList.head? = some 't' ∨ (boolean b).source.toList.head? = some 'f' := by
  cases b <;> simp [source]

theorem boolean_source_ne_integer (b : Bool) (n : Int64) :
    (boolean b).source ≠ (integer n).source := by
  intro h
  have hmem : ∀ c, (boolean b).source.toList.head? = some c → c.isDigit = true ∨ c = '-' := by
    intro c hc
    exact mem_integer_source (h ▸ List.mem_of_mem_head? hc)
  rcases head?_boolean_source b with hc | hc
  · exact absurd (hmem _ hc) (by decide)
  · exact absurd (hmem _ hc) (by decide)

/-- Every value but a bare expression is determined by its source text. -/
theorem source_inj {v w : Value} (hv : ∀ s, v ≠ literal s) (hw : ∀ s, w ≠ literal s)
    (h : v.source = w.source) : v = w := by
  have hquote : ∀ s : String, (text s).source.toList.head? = some '"' := by
    intro s
    simp [source, quote]
  have hinteger : ∀ (n : Int64) (s : String), (integer n).source ≠ (text s).source := by
    intro n s he
    have hmem := List.mem_of_mem_head? (hquote s)
    rw [← he] at hmem
    exact absurd (mem_integer_source hmem) (by decide)
  have hboolean : ∀ (b : Bool) (s : String), (boolean b).source ≠ (text s).source := by
    intro b s he
    have hhead := hquote s
    rw [← he] at hhead
    rcases head?_boolean_source b with hc | hc <;> simp [hhead] at hc
  cases v with
  | literal s => exact absurd rfl (hv s)
  | boolean b =>
    cases w with
    | literal s => exact absurd rfl (hw s)
    | boolean c => cases b <;> cases c <;> simp_all [source]
    | integer n => exact absurd h (boolean_source_ne_integer b n)
    | text s => exact absurd h (hboolean b s)
  | integer n =>
    cases w with
    | literal s => exact absurd rfl (hw s)
    | boolean b => exact absurd h.symm (boolean_source_ne_integer b n)
    | integer m =>
      rw [Int64.toInt_inj.mp (Int.repr_inj.mp h)]
    | text s => exact absurd h (hinteger n s)
  | text s =>
    cases w with
    | literal t => exact absurd rfl (hw t)
    | boolean b => exact absurd h.symm (hboolean b s)
    | integer n => exact absurd h.symm (hinteger n s)
    | text t => rw [quote_injective h]

end SoliditySource.Value
