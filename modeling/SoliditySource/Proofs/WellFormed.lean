import SoliditySource.Proofs.CodeLine
import SoliditySource.Proofs.ValueSource

/-! Well-formed records and the lines of code they are written as. Every field of such a record is a
word that ends at the next delimiter, so the fields can be read off the line one after the other. -/
namespace SoliditySource

/-- Letters and digits of ASCII, and the underscore. -/
def isWordChar (c : Char) : Bool :=
  c.isAlphanum || c == '_'

/-- A text of word characters that is not empty. -/
def IsWord (s : String) : Prop :=
  s ≠ "" ∧ ∀ c ∈ s.toList, isWordChar c = true

/-- At least one word, all of them without blanks, joined by single spaces. -/
def IsPlainComment (s : String) : Prop :=
  ∃ words : List String, words ≠ [] ∧
    (∀ w ∈ words, w ≠ "" ∧ ∀ c ∈ w.toList, Text.isBlank c = false) ∧ s = " ".intercalate words

/-- A boolean, an integer, or a text that is not empty. -/
def Value.WellFormed : Value → Prop
  | boolean _ => True
  | integer _ => True
  | text s => s ≠ ""
  | literal _ => False

structure Container.WellFormed (c : Container) : Prop where
  name : IsWord c.name
  parent : ∀ p ∈ c.parent, IsWord p
  comment : ∀ s ∈ c.comment, IsPlainComment s

structure Attribute.WellFormed (a : Attribute) : Prop where
  name : IsWord a.name
  type : IsWord a.type
  modifier : ∀ m ∈ a.modifier, IsWord m
  value : ∀ v ∈ a.value, v.WellFormed
  comment : ∀ s ∈ a.comment, IsPlainComment s

structure Struct.WellFormed (s : Struct) : Prop where
  name : IsWord s.name
  attributes : ∀ a ∈ s.attributes, a.WellFormed
  comment : ∀ t ∈ s.comment, IsPlainComment t

structure Mapping.WellFormed (m : Mapping) : Prop where
  name : IsWord m.name
  keyType : IsWord m.keyType
  valueType : IsWord m.valueType
  modifier : ∀ s ∈ m.modifier, IsWord s
  comment : ∀ s ∈ m.comment, IsPlainComment s

structure Param.WellFormed (p : Param) : Prop where
  name : IsWord p.name
  type : IsWord p.type

structure Function.WellFormed (f : Function) : Prop where
  name : IsWord f.name
  parameters : ∀ p ∈ f.parameters, p.WellFormed
  returnType : ∀ t ∈ f.returnType, IsWord t
  modifier : ∀ m ∈ f.modifier, IsWord m
  body : ∀ c ∈ f.body.toList, c ≠ '\n' ∧ c ≠ '{' ∧ c ≠ '}'
  comment : ∀ s ∈ f.comment, IsPlainComment s

def Declaration.WellFormed : Declaration → Prop
  | .container c => c.WellFormed
  | .attribute a => a.WellFormed
  | .struct s => s.WellFormed
  | .mapping m => m.WellFormed
  | .function f => f.WellFormed

namespace IsWord

variable {s t : String}

/-- A word is read up to the character that ends it. -/
theorem append_inj (hs : IsWord s) (ht : IsWord t) {c d : Char} {r r' : List Char}
    (hc : isWordChar c = false) (hd : isWordChar d = false)
    (h : s.toList ++ c :: r = t.toList ++ d :: r') : s = t ∧ c = d ∧ r = r' := by
  obtain ⟨he, hcd, hr⟩ := Text.run_append_inj (p := fun c => isWordChar c = true) hs.2 ht.2
    (by simp [hc]) (by simp [hd]) h
  exact ⟨String.toList_inj.mp he, hcd, hr⟩

/-- No delimiter stands where a word starts. -/
theorem append_ne (hs : IsWord s) {c : Char} {r r' : List Char} (hc : isWordChar c = false) :
    s.toList ++ r ≠ c :: r' := by
  intro h
  cases hl : s.toList with
  | nil => exact hs.1 (by simpa using hl)
  | cons x xs =>
    rw [hl] at h
    obtain ⟨rfl, -⟩ := List.cons.inj h
    have := hs.2 x (by simp [hl])
    simp [hc] at this

theorem notMem (hs : IsWord s) {c : Char} (hc : isWordChar c = false) : c ∉ s.toList := by
  intro h
  simp [hs.2 c h] at hc

theorem head? (hs : IsWord s) (r : List Char) :
    ∃ c, (s.toList ++ r).head? = some c ∧ isWordChar c = true := by
  cases hl : s.toList with
  | nil => exact absurd (by simpa using hl) hs.1
  | cons x xs => exact ⟨x, rfl, hs.2 x (by simp [hl])⟩

end IsWord

theorem present_of_words {o : Option String} (h : ∀ s ∈ o, IsWord s) : present o = o := by
  cases o with
  | none => rfl
  | some s => simp [present, (h s rfl).1]

theorem valueTail_eq (value : Option Value) :
    valueTail value = [';'] ∨ ∃ r, valueTail value = ' ' :: '=' :: r := by
  cases value with
  | none => exact .inl rfl
  | some v => exact .inr ⟨_, rfl⟩

theorem Value.WellFormed.ne_literal {v : Value} (h : v.WellFormed) (s : String) :
    v ≠ .literal s := by
  rintro rfl
  exact h

theorem valueTail_inj {v w : Option Value} (hv : ∀ x ∈ v, x.WellFormed)
    (hw : ∀ x ∈ w, x.WellFormed) (h : valueTail v = valueTail w) : v = w := by
  cases v with
  | none => cases w <;> simp_all [valueTail]
  | some v =>
    cases w with
    | none => simp [valueTail] at h
    | some w =>
      simp only [valueTail, List.cons_append, List.cons.injEq, true_and] at h
      have hsource := String.toList_inj.mp (List.append_cancel_right h)
      rw [Value.source_inj (hv v rfl).ne_literal (hw w rfl).ne_literal hsource]

/-- An optional word, a name, and a tail that starts with a semicolon or an equals sign. -/
theorem optionalWord_append_inj {m m' : Option String} {n n' : String} {t t' : List Char}
    (hm : ∀ s ∈ m, IsWord s) (hm' : ∀ s ∈ m', IsWord s) (hn : IsWord n) (hn' : IsWord n')
    (ht : t = [';'] ∨ ∃ r, t = ' ' :: '=' :: r) (ht' : t' = [';'] ∨ ∃ r, t' = ' ' :: '=' :: r)
    (h : optionalWord m ++ (n.toList ++ t) = optionalWord m' ++ (n'.toList ++ t')) :
    m = m' ∧ n = n' ∧ t = t' := by
  have hname : n.toList ++ t = n'.toList ++ t' → n = n' ∧ t = t' := by
    intro h
    rcases ht with rfl | ⟨r, rfl⟩ <;> rcases ht' with rfl | ⟨r', rfl⟩ <;>
      obtain ⟨rfl, hc, hr⟩ := hn.append_inj hn' (by decide) (by decide) h <;> simp_all
  -- A word that is followed by another one cannot be the name: the name ends with its tail.
  have hcross : ∀ {w k k' : String} {u u' : List Char}, IsWord w → IsWord k → IsWord k' →
      (u' = [';'] ∨ ∃ r, u' = ' ' :: '=' :: r) →
      w.toList ++ ' ' :: (k.toList ++ u) ≠ k'.toList ++ u' := by
    intro w k k' u u' hw hk hk' hu h
    rcases hu with rfl | ⟨r, rfl⟩
    · have := (hw.append_inj hk' (by decide) (by decide) h).2.1
      simp at this
    · exact hk.append_ne (by decide) (hw.append_inj hk' (by decide) (by decide) h).2.2
  cases m with
  | none =>
    cases m' with
    | none => simpa using hname h
    | some w => exact absurd (by simpa [optionalWord] using h.symm) (hcross (hm' w rfl) hn' hn ht)
  | some w =>
    cases m' with
    | none => exact absurd (by simpa [optionalWord] using h) (hcross (hm w rfl) hn hn' ht')
    | some w' =>
      simp only [optionalWord, List.append_assoc, List.singleton_append] at h
      obtain ⟨rfl, -, hr⟩ := (hm w rfl).append_inj (hm' w' rfl) (by decide) (by decide) h
      simpa using hname hr

theorem Container.WellFormed.toList_header {c : Container} (h : c.WellFormed) :
    c.header.toList = c.kind.keyword.toList ++ ' ' :: (c.name.toList ++ ' ' ::
      ((c.parent.elim [] fun p => 'i' :: 's' :: ' ' :: p.toList ++ [' ']) ++ ['{'])) := by
  rw [c.toList_header, present_of_words h.parent]

theorem ContainerKind.isWord_keyword (kind : ContainerKind) : IsWord kind.keyword := by
  cases kind <;> exact ⟨by decide, List.all_eq_true.mp (by rfl)⟩

theorem Container.header_inj {c e : Container} (hc : c.WellFormed) (he : e.WellFormed)
    (h : c.header.toList = e.header.toList) :
    c.kind = e.kind ∧ c.name = e.name ∧ c.parent = e.parent := by
  rw [hc.toList_header, he.toList_header] at h
  obtain ⟨hkeyword, -, h⟩ := c.kind.isWord_keyword.append_inj e.kind.isWord_keyword (by decide)
    (by decide) h
  obtain ⟨hname, -, h⟩ := hc.name.append_inj he.name (by decide) (by decide) h
  have hkind : c.kind = e.kind := by
    revert hkeyword
    cases c.kind <;> cases e.kind <;> decide
  refine ⟨hkind, hname, ?_⟩
  have hpc := hc.parent
  have hpe := he.parent
  cases hp : c.parent with
  | none => cases hq : e.parent <;> simp_all
  | some p =>
    cases hq : e.parent with
    | none => simp_all
    | some q =>
      simp only [hp, hq, Option.elim_some, List.cons_append, List.append_assoc, List.cons.injEq,
        true_and] at h
      have hpq := (hpc p hp).append_inj (hpe q hq) (by decide) (by decide) h
      rw [hpq.1]

theorem Attribute.WellFormed.toList_line {a : Attribute} (h : a.WellFormed) :
    a.line.toList = a.type.toList ++
      ' ' :: (optionalWord a.modifier ++ (a.name.toList ++ valueTail a.value)) := by
  have hvalue : a.value.filter (!·.isEmpty) = a.value := by
    cases hv : a.value with
    | none => rfl
    | some v =>
      have hw := h.value v hv
      cases v <;> simp_all [Value.WellFormed, Value.isEmpty]
  rw [a.toList_line, present_of_words h.modifier, hvalue]

theorem Attribute.line_inj {a b : Attribute} (ha : a.WellFormed) (hb : b.WellFormed)
    (h : a.line.toList = b.line.toList) :
    a.type = b.type ∧ a.modifier = b.modifier ∧ a.name = b.name ∧ a.value = b.value := by
  rw [ha.toList_line, hb.toList_line] at h
  obtain ⟨htype, -, h⟩ := ha.type.append_inj hb.type (by decide) (by decide) h
  obtain ⟨hmodifier, hname, htail⟩ := optionalWord_append_inj ha.modifier hb.modifier ha.name
    hb.name (valueTail_eq _) (valueTail_eq _) h
  exact ⟨htype, hmodifier, hname, valueTail_inj ha.value hb.value htail⟩

theorem Struct.header_inj {s t : Struct} (hs : s.WellFormed) (ht : t.WellFormed)
    (h : s.header.toList = t.header.toList) : s.name = t.name := by
  rw [s.toList_header, t.toList_header] at h
  exact (hs.name.append_inj ht.name (by decide) (by decide) (List.append_cancel_left h)).1

theorem Mapping.WellFormed.toList_line {m : Mapping} (h : m.WellFormed) :
    m.line.toList = "mapping (".toList ++ (m.keyType.toList ++ ' ' :: '=' :: '>' :: ' ' ::
      (m.valueType.toList ++ ')' :: ' ' ::
        (optionalWord m.modifier ++ (m.name.toList ++ [';'])))) := by
  rw [m.toList_line, present_of_words h.modifier]

theorem Mapping.line_inj {m n : Mapping} (hm : m.WellFormed) (hn : n.WellFormed)
    (h : m.line.toList = n.line.toList) :
    m.keyType = n.keyType ∧ m.valueType = n.valueType ∧ m.modifier = n.modifier ∧
      m.name = n.name := by
  rw [hm.toList_line, hn.toList_line] at h
  obtain ⟨hkey, -, h⟩ := hm.keyType.append_inj hn.keyType (by decide) (by decide)
    (List.append_cancel_left h)
  simp only [List.cons.injEq, true_and] at h
  obtain ⟨hvalue, -, h⟩ := hm.valueType.append_inj hn.valueType (by decide) (by decide) h
  simp only [List.cons.injEq, true_and] at h
  obtain ⟨hmodifier, hname, -⟩ := optionalWord_append_inj hm.modifier hn.modifier hm.name hn.name
    (.inl rfl) (.inl rfl) h
  exact ⟨hkey, hvalue, hmodifier, hname⟩

/-- What follows a parameter: the end of the list, or the other parameters. -/
def afterParameter (params : List Param) (r : List Char) : List Char :=
  if params = [] then ')' :: r else ',' :: ' ' :: (parameterList params ++ ')' :: r)

theorem parameterList_cons (p : Param) (params : List Param) (r : List Char) :
    parameterList (p :: params) ++ ')' :: r =
      p.type.toList ++ ' ' :: (p.name.toList ++ afterParameter params r) := by
  cases params <;> simp [parameterList, afterParameter]

theorem parameterList_append_inj {params others : List Param} {r r' : List Char}
    (hp : ∀ p ∈ params, p.WellFormed) (ho : ∀ p ∈ others, p.WellFormed)
    (h : parameterList params ++ ')' :: r = parameterList others ++ ')' :: r') :
    params = others ∧ r = r' := by
  induction params generalizing others with
  | nil =>
    cases others with
    | nil => exact ⟨rfl, (List.cons.inj h).2⟩
    | cons q others =>
      rw [parameterList_cons] at h
      exact absurd h.symm ((ho q (by simp)).type.append_ne (by decide))
  | cons p params ih =>
    cases others with
    | nil =>
      rw [parameterList_cons] at h
      exact absurd h ((hp p (by simp)).type.append_ne (by decide))
    | cons q others =>
      rw [parameterList_cons, parameterList_cons] at h
      have hpw := hp p (by simp)
      have hqw := ho q (by simp)
      obtain ⟨htype, -, h⟩ := hpw.type.append_inj hqw.type (by decide) (by decide) h
      have hpq : p.name = q.name → p = q := by
        intro hname
        cases p
        cases q
        simp_all
      unfold afterParameter at h
      split_ifs at h with hn hm hm
      · obtain ⟨hname, -, hr⟩ := hpw.name.append_inj hqw.name (by decide) (by decide) h
        exact ⟨by rw [hpq hname, hn, hm], hr⟩
      · have := (hpw.name.append_inj hqw.name (by decide) (by decide) h).2.1
        simp at this
      · have := (hpw.name.append_inj hqw.name (by decide) (by decide) h).2.1
        simp at this
      · obtain ⟨hname, -, hr⟩ := hpw.name.append_inj hqw.name (by decide) (by decide) h
        obtain ⟨rfl, hrest⟩ := ih (fun x hx => hp x (by simp [hx]))
          (fun x hx => ho x (by simp [hx])) (List.cons.inj hr).2
        exact ⟨by rw [hpq hname], hrest⟩

theorem Function.WellFormed.toList_line {f : Function} (h : f.WellFormed) :
    f.line.toList = "function ".toList ++ (f.name.toList ++ '(' :: (parameterList f.parameters ++
      ')' :: signatureTail f.modifier f.returnType f.body.toList)) := by
  rw [f.toList_line, present_of_words h.modifier, present_of_words h.returnType]

theorem signatureTail_inj {m m' t t' : Option String} {b b' : List Char}
    (hm : ∀ s ∈ m, IsWord s) (hm' : ∀ s ∈ m', IsWord s) (ht : ∀ s ∈ t, IsWord s)
    (ht' : ∀ s ∈ t', IsWord s) (h : signatureTail m t b = signatureTail m' t' b') :
    m = m' ∧ t = t' ∧ b = b' := by
  have hreturns : signatureTail none t b = signatureTail none t' b' → t = t' ∧ b = b' := by
    intro h
    cases t with
    | none => cases t' <;> simp_all [signatureTail]
    | some u =>
      cases t' with
      | none => simp [signatureTail] at h
      | some u' =>
        simp only [signatureTail, Option.elim_none, Option.elim_some, List.nil_append,
          List.append_assoc, List.append_cancel_left_eq, List.singleton_append] at h
        obtain ⟨rfl, -, hr⟩ := (ht u rfl).append_inj (ht' u' rfl) (by decide) (by decide) h
        exact ⟨rfl, by simpa using hr⟩
  -- After a modifier comes a space and then no parenthesis, after `returns` alone there is one.
  have hcross : ∀ {w : String} {u u' : Option String} {d d' : List Char}, IsWord w →
      signatureTail (some w) u d ≠ signatureTail none u' d' := by
    intro w u u' d d' hw h
    have hspace : ∃ c r, signatureTail none u d = ' ' :: c :: r ∧ c ≠ '(' := by
      cases u <;> simp [signatureTail]
    obtain ⟨c, r, hs, hc⟩ := hspace
    change ' ' :: w.toList ++ signatureTail none u d = _ at h
    rw [hs] at h
    cases u' with
    | none => exact hw.append_ne (c := '{') (by decide) (by simpa [signatureTail] using h)
    | some v =>
      have hreturns : IsWord "returns" := ⟨by decide, List.all_eq_true.mp (by rfl)⟩
      have hword : w.toList ++ ' ' :: (c :: r) =
          "returns".toList ++ ' ' :: ('(' :: (v.toList ++ ')' :: ' ' :: '{' :: (d' ++ ['}']))) := by
        simpa [signatureTail] using h
      have hrest := (hw.append_inj hreturns (by decide) (by decide) hword).2.2
      exact hc (List.cons.inj hrest).1
  cases m with
  | none =>
    cases m' with
    | none => exact ⟨rfl, hreturns h⟩
    | some w => exact absurd h.symm (hcross (hm' w rfl))
  | some w =>
    cases m' with
    | none => exact absurd h (hcross (hm w rfl))
    | some w' =>
      have hspace : ∀ (u : Option String) (d : List Char),
          ∃ r, signatureTail none u d = ' ' :: r := by
        intro u d
        cases u <;> simp [signatureTail]
      obtain ⟨r, hr⟩ := hspace t b
      obtain ⟨r', hr'⟩ := hspace t' b'
      change ' ' :: w.toList ++ signatureTail none t b =
        ' ' :: w'.toList ++ signatureTail none t' b' at h
      rw [hr, hr'] at h
      obtain ⟨rfl, -, hrest⟩ := (hm w rfl).append_inj (hm' w' rfl) (by decide) (by decide)
        (List.cons.inj h).2
      exact ⟨rfl, hreturns (by rw [hr, hr', hrest])⟩

theorem Function.line_inj {f g : Function} (hf : f.WellFormed) (hg : g.WellFormed)
    (h : f.line.toList = g.line.toList) :
    f.name = g.name ∧ f.parameters = g.parameters ∧ f.modifier = g.modifier ∧
      f.returnType = g.returnType ∧ f.body = g.body := by
  rw [hf.toList_line, hg.toList_line] at h
  obtain ⟨hname, -, h⟩ := hf.name.append_inj hg.name (by decide) (by decide)
    (List.append_cancel_left h)
  obtain ⟨hparams, h⟩ := parameterList_append_inj hf.parameters hg.parameters h
  obtain ⟨hmodifier, hreturns, hbody⟩ := signatureTail_inj hf.modifier hg.modifier hf.returnType
    hg.returnType h
  exact ⟨hname, hparams, hmodifier, hreturns, String.toList_inj.mp hbody⟩

end SoliditySource
