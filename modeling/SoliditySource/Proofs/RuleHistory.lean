import Mathlib.Data.Finset.Card
import Mathlib.Data.List.DropRight
import SoliditySource.Proofs.OrderedMap
import SoliditySource.Proofs.TextSearch
import SoliditySource.Rules

/-! Replacement rules after any calls. The rules in force follow from the history: every pattern
that was given since the last clear stands where it was first given, with the replacement it was
last given. Each rule rewrites the first occurrence of its pattern, once, in the text that the rules
before it leave. -/
namespace SoliditySource.Rules

inductive Call where
  | insert (pattern replacement : String)
  | clear
deriving DecidableEq, Repr

def call (rules : Rules) : Call → Rules
  | .insert pattern replacement => rules.insert pattern replacement
  | .clear => rules.clear

def callAll (rules : Rules) (calls : List Call) : Rules :=
  calls.foldl call rules

/-! The history. -/

/-- The rule that a call gives, unless it looks for the empty text. -/
def Call.rule? : Call → Option (String × String)
  | insert pattern replacement => if pattern = "" then none else some (pattern, replacement)
  | clear => none

/-- The rules given since the last clear, in the order of the calls. -/
def given (calls : List Call) : List (String × String) :=
  (calls.rtakeWhile (· ≠ .clear)).filterMap Call.rule?

/-- Every pattern once, in the order in which the patterns were first given, with the replacement it
was last given. -/
def inForce (calls : List Call) : List (String × String) :=
  ((given calls).map Prod.fst).eraseDups.filterMap fun pattern =>
    (OrderedMap.lastValue? pattern (given calls)).map (pattern, ·)

theorem given_concat_clear (calls : List Call) : given (calls ++ [.clear]) = [] := by
  rw [given, List.rtakeWhile_concat_neg _ _ _ (by simp), List.filterMap_nil]

theorem given_concat_insert (calls : List Call) (pattern replacement : String) :
    given (calls ++ [.insert pattern replacement]) =
      given calls ++ (Call.rule? (.insert pattern replacement)).toList := by
  rw [given, List.rtakeWhile_concat_pos _ _ _ (by simp), List.filterMap_append]
  rfl

/-- The rules are those that filling a map with the given ones leaves. -/
theorem callAll_eq (calls : List Call) :
    callAll {} calls = ⟨OrderedMap.insertAll {} (given calls)⟩ := by
  -- By the last call: what was given before it matters unless it is a clear.
  induction calls using List.reverseRecOn with
  | nil => rfl
  | append_singleton calls c ih =>
    rw [callAll, List.foldl_concat, ← callAll, ih]
    cases c with
    | clear =>
      rw [given_concat_clear]
      rfl
    | insert pattern replacement =>
      rw [given_concat_insert]
      by_cases hp : pattern = ""
      · simp [call, Rules.insert, Call.rule?, hp]
      · simp [call, Rules.insert, Call.rule?, hp, OrderedMap.insertAll_concat]

theorem toList_callAll (calls : List Call) : (callAll {} calls).toList = inForce calls := by
  have hn := OrderedMap.nodup_keys_insertAll (given calls)
  rw [callAll_eq, toList, OrderedMap.entries_eq_filterMap_keys hn, OrderedMap.keys_insertAll,
    inForce]
  simp only [OrderedMap.get?_insertAll]

theorem size_callAll (calls : List Call) :
    (callAll {} calls).size = ((given calls).map Prod.fst).toFinset.card := by
  have hn := OrderedMap.nodup_keys_insertAll (given calls)
  have hsame : ((given calls).map Prod.fst).toFinset =
      (OrderedMap.insertAll {} (given calls)).keys.toFinset := by
    ext pattern
    rw [OrderedMap.keys_insertAll, List.mem_toFinset, List.mem_toFinset, List.mem_eraseDups]
  rw [hsame, List.toFinset_card_of_nodup hn, callAll_eq]
  exact (List.length_map _).symm

/-! The text. -/

/-- A rule rewrites one occurrence of its pattern, the one with the shortest text before it. -/
inductive Rewrites (pattern replacement : String) : String → String → Prop
  | found {before after : String}
      (first : ∀ b a, before ++ pattern ++ after = b ++ pattern ++ a → before.length ≤ b.length) :
      Rewrites pattern replacement (before ++ pattern ++ after) (before ++ replacement ++ after)
  | absent {text : String} (absent : ∀ b a, text ≠ b ++ pattern ++ a) :
      Rewrites pattern replacement text text

/-- Every rule works on the text that the rules before it leave. -/
inductive RewritesAll : List (String × String) → String → String → Prop
  | nil (text : String) : RewritesAll [] text text
  | cons {rule : String × String} {rules : List (String × String)} {text middle result : String}
      (first : Rewrites rule.1 rule.2 text middle) (rest : RewritesAll rules middle result) :
      RewritesAll (rule :: rules) text result

theorem firstAt_toList_iff (pattern before after : String) :
    Text.FirstAt pattern.toList (before ++ pattern ++ after).toList before.toList after.toList ↔
      ∀ b a, before ++ pattern ++ after = b ++ pattern ++ a → before.length ≤ b.length := by
  constructor
  · intro h b a hb
    simpa only [String.length_toList] using h.least b.toList a.toList (by simp [hb])
  · refine fun first => ⟨by simp, fun b a hb => ?_⟩
    have hleast := first (.ofList b) (.ofList a) (String.toList_inj.mp (by simpa using hb))
    simpa only [String.length_toList, String.length_ofList] using hleast

theorem Rewrites.eq_applyOne {rule : String × String} {text result : String}
    (h : Rewrites rule.1 rule.2 text result) : applyOne text rule = result := by
  apply String.toList_inj.mp
  rw [applyOne, String.toList_ofList]
  cases h with
  | found first =>
    rw [Text.replaceFirst_of_firstAt ((firstAt_toList_iff rule.1 _ _).mpr first)]
    simp
  | absent absent =>
    refine Text.replaceFirst_of_not_infix ?_ rule.2.toList
    rintro ⟨b, a, hb⟩
    exact absent (.ofList b) (.ofList a) (String.toList_inj.mp (by simpa using hb.symm))

theorem rewrites_applyOne (text : String) (rule : String × String) :
    Rewrites rule.1 rule.2 text (applyOne text rule) := by
  have hrewrites : ∃ result, Rewrites rule.1 rule.2 text result := by
    cases hs : Text.splitFirst? rule.1.toList text.toList with
    | none =>
      refine ⟨text, .absent fun b a htext => ?_⟩
      exact Text.splitFirst?_eq_none_iff.mp hs ⟨b.toList, a.toList, by simp [htext]⟩
    | some found =>
      have hfirst := Text.splitFirst?_eq_some_iff.mp hs
      have htext : text = .ofList found.1 ++ rule.1 ++ .ofList found.2 :=
        String.toList_inj.mp (by simpa using hfirst.eq)
      rw [htext] at hfirst ⊢
      exact ⟨_, .found ((firstAt_toList_iff rule.1 _ _).mp (by simpa using hfirst))⟩
  obtain ⟨result, h⟩ := hrewrites
  rwa [h.eq_applyOne]

theorem foldl_applyOne_eq_iff (rules : List (String × String)) (text result : String) :
    rules.foldl applyOne text = result ↔ RewritesAll rules text result := by
  induction rules generalizing text with
  | nil =>
    constructor
    · rintro rfl
      exact .nil text
    · rintro ⟨⟩
      rfl
  | cons rule rules ih =>
    rw [List.foldl_cons, ih]
    constructor
    · exact fun h => .cons (rewrites_applyOne text rule) h
    · intro h
      cases h with
      | cons first rest => rwa [first.eq_applyOne]

/-- After any calls on new rules, a text is rewritten as by the rules in force, one after the other
and none of them twice, and there are as many rules as different patterns were given since the last
clear. -/
theorem apply_callAll_eq_iff (calls : List Call) :
    (∀ text result : String,
      (callAll {} calls).apply text = result ↔ RewritesAll (inForce calls) text result) ∧
      ((inForce calls).map Prod.fst).Nodup ∧
      (callAll {} calls).size = ((given calls).map Prod.fst).toFinset.card := by
  refine ⟨fun text result => ?_, ?_, size_callAll calls⟩
  · rw [apply, toList_callAll]
    exact foldl_applyOne_eq_iff (inForce calls) text result
  · rw [← toList_callAll, callAll_eq]
    exact OrderedMap.nodup_keys_insertAll (given calls)

/-- A pattern that is given anew keeps its place, and a rule does not look again at what it put in.
-/
example :
    let calls := [.insert "a" "x", .clear, .insert "aa" "baa", .insert "" "y", .insert "b" "c",
      .insert "aa" "aab"]
    inForce calls = [("aa", "aab"), ("b", "c")] ∧
      (callAll {} calls).apply "aaa" = "aaca" := by
  decide

end SoliditySource.Rules
