import Mathlib.Data.List.Basic
import SoliditySource.Text.Search

/-! What the searches in a text find. The first occurrence of a pattern is the one with the shortest
text before it; the search for all of them finds places where the pattern stands, from left to right
and without overlaps, and misses none if the pattern cannot overlap itself. Lengths in bytes add
up. -/
namespace SoliditySource.Text

variable {pattern text before after : List Char}

/-- `pattern` stands between `before` and `after`, and nowhere further to the left. -/
structure FirstAt (pattern text before after : List Char) : Prop where
  eq : text = before ++ pattern ++ after
  least : ∀ b a, text = b ++ pattern ++ a → before.length ≤ b.length

theorem FirstAt.unique {before' after' : List Char} (h : FirstAt pattern text before after)
    (h' : FirstAt pattern text before' after') : before = before' ∧ after = after' := by
  have hlength : before.length = before'.length :=
    Nat.le_antisymm (h.least before' after' h'.eq) (h'.least before after h.eq)
  have heq := h.eq.symm.trans h'.eq
  rw [List.append_assoc, List.append_assoc] at heq
  obtain ⟨hbefore, hrest⟩ := List.append_inj heq hlength
  exact ⟨hbefore, List.append_cancel_left hrest⟩

theorem firstAt_nil (h : pattern <+: text) : FirstAt pattern text [] (text.drop pattern.length) :=
  ⟨by simpa using (List.prefix_iff_eq_append.mp h).symm, fun _ _ _ => Nat.zero_le _⟩

/-- Where a pattern does not start, the search goes on behind the next character. -/
theorem FirstAt.cons {c : Char} (hc : ¬pattern <+: c :: text)
    (h : FirstAt pattern text before after) : FirstAt pattern (c :: text) (c :: before) after := by
  refine ⟨by rw [h.eq]; simp, fun b a hb => ?_⟩
  cases b with
  | nil => exact absurd ⟨a, by simpa using hb.symm⟩ hc
  | cons d b =>
    obtain ⟨-, hb⟩ := List.cons.inj hb
    exact Nat.succ_le_succ (h.least b a hb)

theorem firstAt_of_splitFirst? (h : splitFirst? pattern text = some (before, after)) :
    FirstAt pattern text before after := by
  induction text generalizing before with
  | nil =>
    obtain ⟨rfl, rfl, rfl⟩ : pattern = [] ∧ [] = before ∧ [] = after := by
      simpa [splitFirst?] using h
    exact firstAt_nil List.prefix_rfl
  | cons c cs ih =>
    unfold splitFirst? at h
    split_ifs at h with hc
    · obtain ⟨rfl, rfl⟩ : [] = before ∧ (c :: cs).drop pattern.length = after := by
        simpa using h
      exact firstAt_nil (List.isPrefixOf_iff_prefix.mp hc)
    · obtain ⟨⟨b, a⟩, hs, hsplit⟩ := Option.map_eq_some_iff.mp h
      obtain ⟨rfl, rfl⟩ := Prod.mk.inj hsplit
      exact (ih hs).cons fun hp => hc (List.isPrefixOf_iff_prefix.mpr hp)

theorem not_infix_of_splitFirst? (h : splitFirst? pattern text = none) : ¬pattern <:+: text := by
  induction text with
  | nil =>
    have hne : pattern ≠ [] := by simpa [splitFirst?] using h
    simpa using hne
  | cons c cs ih =>
    unfold splitFirst? at h
    split_ifs at h with hc
    rw [List.infix_cons_iff]
    rintro (hp | hi)
    · exact hc (List.isPrefixOf_iff_prefix.mpr hp)
    · exact ih (Option.map_eq_none_iff.mp h) hi

/-- The search finds the first occurrence, and fails only if there is none. -/
theorem splitFirst?_eq_some_iff :
    splitFirst? pattern text = some (before, after) ↔ FirstAt pattern text before after := by
  refine ⟨firstAt_of_splitFirst?, fun h => ?_⟩
  cases hs : splitFirst? pattern text with
  | none => exact absurd ⟨before, after, h.eq.symm⟩ (not_infix_of_splitFirst? hs)
  | some found =>
    obtain ⟨rfl, rfl⟩ := (firstAt_of_splitFirst? hs).unique h
    rfl

theorem splitFirst?_eq_none_iff : splitFirst? pattern text = none ↔ ¬pattern <:+: text := by
  refine ⟨not_infix_of_splitFirst?, fun h => ?_⟩
  cases hs : splitFirst? pattern text with
  | none => rfl
  | some found => exact absurd ⟨found.1, found.2, (firstAt_of_splitFirst? hs).eq.symm⟩ h

theorem replaceFirst_of_firstAt (h : FirstAt pattern text before after) (replacement : List Char) :
    replaceFirst pattern replacement text = before ++ replacement ++ after := by
  rw [replaceFirst, splitFirst?_eq_some_iff.mpr h]

theorem replaceFirst_of_not_infix (h : ¬pattern <:+: text) (replacement : List Char) :
    replaceFirst pattern replacement text = text := by
  rw [replaceFirst, splitFirst?_eq_none_iff.mpr h]

/-! All occurrences. -/

theorem of_mem_occurrencesFrom {skip position p : Nat}
    (h : p ∈ occurrencesFrom pattern skip position text) :
    ∃ k, p = position + k ∧ skip ≤ k ∧ k < text.length ∧ pattern <+: text.drop k := by
  fun_induction occurrencesFrom pattern skip position text with
  | case1 => cases h
  | case2 skip position c cs ih =>
    obtain ⟨k, rfl, hskip, hk, hp⟩ := ih h
    exact ⟨k + 1, by omega, by omega, by simpa using hk, hp⟩
  | case3 position c cs hc ih =>
    rcases List.mem_cons.mp h with rfl | h
    · exact ⟨0, rfl, Nat.le_refl 0, by simp, List.isPrefixOf_iff_prefix.mp hc⟩
    · obtain ⟨k, rfl, -, hk, hp⟩ := ih h
      exact ⟨k + 1, by omega, Nat.zero_le _, by simpa using hk, hp⟩
  | case4 position c cs hc ih =>
    obtain ⟨k, rfl, -, hk, hp⟩ := ih h
    exact ⟨k + 1, by omega, Nat.zero_le _, by simpa using hk, hp⟩

/-- The pattern stands at every place that is found. -/
theorem of_mem_occurrences {p : Nat} (h : p ∈ occurrences pattern text) :
    p < text.length ∧ pattern <+: text.drop p := by
  obtain ⟨k, rfl, -, hk, hp⟩ := of_mem_occurrencesFrom h
  rw [Nat.zero_add]
  exact ⟨hk, hp⟩

theorem pairwise_occurrencesFrom (pattern : List Char) (skip position : Nat) (text : List Char) :
    (occurrencesFrom pattern skip position text).Pairwise fun p q => p + pattern.length ≤ q := by
  -- What is skipped after an occurrence is the rest of it, so the next one begins behind it.
  fun_induction occurrencesFrom pattern skip position text with
  | case1 => exact .nil
  | case2 skip position c cs ih => exact ih
  | case3 position c cs hc ih =>
    refine .cons (fun q hq => ?_) ih
    obtain ⟨k, rfl, hskip, -, -⟩ := of_mem_occurrencesFrom hq
    omega
  | case4 position c cs hc ih => exact ih

theorem add_length_le_of_occurrences {i j p q : Nat}
    (hp : (occurrences pattern text)[i]? = some p)
    (hq : (occurrences pattern text)[j]? = some q) (hij : i < j) : p + pattern.length ≤ q := by
  obtain ⟨hi, rfl⟩ := List.getElem?_eq_some_iff.mp hp
  obtain ⟨hj, rfl⟩ := List.getElem?_eq_some_iff.mp hq
  exact List.pairwise_iff_getElem.mp (pairwise_occurrencesFrom pattern 0 0 text) i j hi hj hij

theorem le_of_occurrences {i j p q : Nat} (hp : (occurrences pattern text)[i]? = some p)
    (hq : (occurrences pattern text)[j]? = some q) (hij : i ≤ j) : p ≤ q := by
  rcases Nat.eq_or_lt_of_le hij with rfl | hlt
  · exact Nat.le_of_eq (Option.some.inj (hp.symm.trans hq))
  · exact Nat.le_of_add_right_le (add_length_le_of_occurrences hp hq hlt)

theorem add_length_le_length {p : Nat} (h : p ∈ occurrences pattern text) :
    p + pattern.length ≤ text.length := by
  obtain ⟨hlt, hp⟩ := of_mem_occurrences h
  have hle := hp.length_le
  rw [List.length_drop] at hle
  omega

/-! Patterns all of whose occurrences are found. -/

/-- Only the empty text and the whole pattern both begin and end the pattern. -/
def Unbordered (pattern : List Char) : Prop :=
  ∀ border, border <+: pattern → border <:+ pattern → border = [] ∨ border = pattern

/-- Occurrences of an unbordered pattern do not overlap. -/
theorem Unbordered.length_le (h : Unbordered pattern) {k : Nat} (hk : 0 < k)
    (hfirst : pattern <+: text) (hsecond : pattern <+: text.drop k) : pattern.length ≤ k := by
  by_contra hlt
  obtain ⟨rest, rfl⟩ := hfirst
  rw [List.drop_append_of_le_length (by omega)] at hsecond
  have hborder : pattern.drop k <+: pattern :=
    List.prefix_of_prefix_length_le (List.prefix_append _ rest) hsecond (by simp)
  have hlength : (pattern.drop k).length = pattern.length - k := List.length_drop
  rcases h _ hborder (List.drop_suffix k pattern) with hnil | hall
  · rw [hnil, List.length_nil] at hlength
    omega
  · rw [hall] at hlength
    omega

theorem Unbordered.mem_occurrencesFrom (h : Unbordered pattern) (hne : pattern ≠ [])
    (skip position : Nat) {k : Nat} (hskip : skip ≤ k) (hp : pattern <+: text.drop k) :
    position + k ∈ occurrencesFrom pattern skip position text := by
  fun_induction occurrencesFrom pattern skip position text generalizing k with
  | case1 => simp [hne] at hp
  | case2 skip position c cs ih =>
    obtain ⟨k, rfl⟩ := Nat.exists_eq_succ_of_ne_zero (by omega : k ≠ 0)
    have hfound := ih (by omega) hp
    rwa [Nat.add_right_comm] at hfound
  | case3 position c cs hc ih =>
    cases k with
    | zero => exact List.mem_cons_self
    | succ k =>
      -- The next occurrence begins behind this one, so it is not skipped.
      have hlength := h.length_le (Nat.succ_pos k) (List.isPrefixOf_iff_prefix.mp hc) hp
      have hfound := ih (by omega) hp
      rw [Nat.add_right_comm] at hfound
      exact List.mem_cons_of_mem _ hfound
  | case4 position c cs hc ih =>
    cases k with
    | zero => exact absurd (List.isPrefixOf_iff_prefix.mpr hp) hc
    | succ k =>
      have hfound := ih (Nat.zero_le k) hp
      rwa [Nat.add_right_comm] at hfound

/-- Every occurrence of an unbordered pattern is found. -/
theorem Unbordered.mem_occurrences_iff (h : Unbordered pattern) (hne : pattern ≠ []) {p : Nat} :
    p ∈ occurrences pattern text ↔ pattern <+: text.drop p := by
  refine ⟨fun hp => (of_mem_occurrences hp).2, fun hp => ?_⟩
  have hfound := h.mem_occurrencesFrom hne 0 0 (Nat.zero_le p) hp
  rwa [Nat.zero_add] at hfound

/-- A pattern has no border if it holds a sign once, and ends in a character that does not stand
before the sign. -/
theorem unbordered_of_sign {lead rest : List Char} {sign last : Char} (hlead : sign ∉ lead)
    (hrest : sign ∉ rest ++ [last]) (hlast : last ∉ lead) :
    Unbordered (lead ++ sign :: (rest ++ [last])) := by
  intro border hbegins hends
  by_cases hne : border = []
  · exact .inl hne
  have hmem : last ∈ border := by
    have hgetLast := List.getLast_mem hne
    rw [hends.getLast] at hgetLast
    simpa using hgetLast
  obtain ⟨before, hbefore⟩ := hends
  obtain ⟨after, hafter⟩ := hbegins
  -- The border goes beyond what stands before the sign, so it holds the sign.
  rcases List.append_eq_append_iff.mp hafter with ⟨more, rfl, -⟩ | ⟨more, rfl, hmore⟩
  · exact absurd (List.mem_append_left more hmem) hlast
  cases more with
  | nil => exact absurd (by simpa using hmem) hlast
  | cons d more =>
    obtain ⟨rfl, -⟩ := List.cons.inj hmore
    rw [← List.append_assoc] at hbefore
    obtain ⟨-, -, rfl⟩ := (List.append_cons_inj_of_notMem hlead hrest).mp hbefore.symm
    exact .inr rfl

/-! Lengths in bytes. -/

theorem byteLength_append (a b : List Char) :
    byteLength (a ++ b) = byteLength a + byteLength b := by
  induction a with
  | nil => simp [byteLength]
  | cons c a ih =>
    simp only [byteLength, List.cons_append, List.foldr_cons] at ih ⊢
    omega

theorem byteLength_take_add (cs : List Char) (m n : Nat) :
    byteLength (cs.take (m + n)) = byteLength (cs.take m) + byteLength ((cs.drop m).take n) := by
  rw [List.take_add, byteLength_append]

theorem byteLength_take_mono (cs : List Char) {m n : Nat} (h : m ≤ n) :
    byteLength (cs.take m) ≤ byteLength (cs.take n) := by
  obtain ⟨k, rfl⟩ := Nat.exists_eq_add_of_le h
  rw [byteLength_take_add]
  exact Nat.le_add_right _ _

theorem byteLength_eq_utf8ByteSize (cs : List Char) :
    byteLength cs = (String.ofList cs).utf8ByteSize := by
  induction cs with
  | nil => simp [byteLength]
  | cons c cs ih =>
    have hsplit : String.ofList (c :: cs) = String.singleton c ++ String.ofList cs := by
      rw [String.singleton_eq_ofList, ← String.ofList_append, List.singleton_append]
    rw [hsplit, String.utf8ByteSize_append, String.utf8ByteSize_singleton, ← ih]
    rfl

theorem size_utf8Encode (cs : List Char) : cs.utf8Encode.size = byteLength cs := by
  rw [byteLength_eq_utf8ByteSize, ← String.size_toByteArray, String.toByteArray_ofList]

/-- Beginnings of one text that are equally long in bytes are equal. -/
theorem eq_of_byteLength_eq {a b cs : List Char} (ha : a <+: cs) (hb : b <+: cs)
    (h : byteLength a = byteLength b) : a = b := by
  have hnil : ∀ rest, byteLength rest = 0 → rest = [] := by
    rintro (_ | ⟨c, rest⟩) hrest
    · rfl
    · have hpos := c.utf8Size_pos
      simp only [byteLength, List.foldr_cons] at hrest
      omega
  rcases List.prefix_or_prefix_of_prefix ha hb with ⟨rest, rfl⟩ | ⟨rest, rfl⟩
  · rw [byteLength_append] at h
    rw [hnil rest (by omega), List.append_nil]
  · rw [byteLength_append] at h
    rw [hnil rest (by omega), List.append_nil]

end SoliditySource.Text
