import SoliditySource.Proofs.RenderedLines

/-! The lines of code of the records, as one text after the other. -/
namespace SoliditySource

theorem Container.toList_header (c : Container) :
    c.header.toList = c.kind.keyword.toList ++ ' ' :: (c.name.toList ++ ' ' ::
      (((present c.parent).elim [] fun p => 'i' :: 's' :: ' ' :: p.toList ++ [' ']) ++ ['{'])) := by
  delta header
  cases present c.parent <;> simp

/-- An optional word in front of a name, with the space after it. -/
def optionalWord : Option String → List Char
  | none => []
  | some s => s.toList ++ [' ']

/-- What follows the name of an attribute: the initial value, if there is one, and the semicolon. -/
def valueTail : Option Value → List Char
  | none => [';']
  | some v => ' ' :: '=' :: ' ' :: v.source.toList ++ [';']

theorem Attribute.toList_line (a : Attribute) :
    a.line.toList = a.type.toList ++ ' ' :: (optionalWord (present a.modifier) ++
      (a.name.toList ++ valueTail (a.value.filter (!·.isEmpty)))) := by
  delta line
  cases present a.modifier <;> cases a.value.filter (!·.isEmpty) <;> simp [optionalWord, valueTail]

def Struct.header (s : Struct) : String :=
  "struct " ++ s.name ++ " \x7b"

theorem Struct.toList_header (s : Struct) :
    s.header.toList = "struct ".toList ++ (s.name.toList ++ [' ', '{']) := by
  delta header
  simp

theorem Struct.fragments_eq (s : Struct) :
    s.fragments = declarationFragments s.comment
      (.line s.header :: s.attributes.flatMap Attribute.fragments ++ [.line "\x7d"])
      s.lineBreak := by
  delta header
  rfl

theorem Mapping.toList_line (m : Mapping) :
    m.line.toList = "mapping (".toList ++ (m.keyType.toList ++ ' ' :: '=' :: '>' :: ' ' ::
      (m.valueType.toList ++ ')' :: ' ' ::
        (optionalWord (present m.modifier) ++ (m.name.toList ++ [';'])))) := by
  delta line
  cases present m.modifier <;> simp [optionalWord]

/-- The text between the parentheses of a function. -/
def parameterList (params : List Param) : List Char :=
  [',', ' '].intercalate (params.map fun p => p.type.toList ++ ' ' :: p.name.toList)

/-- What follows the parameters: the modifier and the return type, where there are any, and the
body. -/
def signatureTail (modifier returnType : Option String) (body : List Char) : List Char :=
  (modifier.elim [] fun m => ' ' :: m.toList) ++
    ((returnType.elim [] fun t => " returns (".toList ++ (t.toList ++ [')'])) ++
      ' ' :: '{' :: (body ++ ['}']))

theorem Function.toList_line (f : Function) :
    f.line.toList = "function ".toList ++ (f.name.toList ++ '(' :: (parameterList f.parameters ++
      ')' :: signatureTail (present f.modifier) (present f.returnType) f.body.toList)) := by
  delta line
  cases present f.modifier <;> cases present f.returnType <;>
    simp [signatureTail, parameterList, Param.source, Function.comp_def]

/-! What holds of the characters of every field holds of the whole line, if it holds of the
delimiters. -/

section Characters

variable {P : Char → Prop}

theorem forall_mem_optionalWord {o : Option String} (hspace : P ' ')
    (h : ∀ s ∈ o, ∀ c ∈ s.toList, P c) : ∀ c ∈ optionalWord o, P c := by
  cases o with
  | none => simp [optionalWord]
  | some s =>
    simp only [optionalWord, List.forall_mem_append, List.forall_mem_singleton]
    exact ⟨h s rfl, hspace⟩

theorem forall_mem_parameterList {params : List Param} (hcomma : P ',') (hspace : P ' ')
    (h : ∀ p ∈ params, (∀ c ∈ p.type.toList, P c) ∧ ∀ c ∈ p.name.toList, P c) :
    ∀ c ∈ parameterList params, P c := by
  intro c hc
  rcases Text.mem_of_mem_intercalate hc with hsep | ⟨x, hx, hc⟩
  · simp only [List.mem_cons, List.not_mem_nil, or_false] at hsep
    rcases hsep with rfl | rfl
    · exact hcomma
    · exact hspace
  · obtain ⟨p, hp, rfl⟩ := List.mem_map.mp hx
    rcases List.mem_append.mp hc with hc | hc
    · exact (h p hp).1 c hc
    · rcases List.mem_cons.mp hc with rfl | hc
      · exact hspace
      · exact (h p hp).2 c hc

theorem signatureTail_eq_append {modifier returnType : Option String} (body : List Char)
    (hreturns : ∀ c ∈ " returns ()".toList, P c) (hm : ∀ s ∈ modifier, ∀ c ∈ s.toList, P c)
    (ht : ∀ s ∈ returnType, ∀ c ∈ s.toList, P c) :
    ∃ code, (∀ c ∈ code, P c) ∧
      signatureTail modifier returnType body = code ++ '{' :: (body ++ ['}']) := by
  have hfixed : ∀ c ∈ " returns (".toList, P c := fun c hc => hreturns c (by simp at hc ⊢; tauto)
  refine ⟨(modifier.elim [] fun m => ' ' :: m.toList) ++
    ((returnType.elim [] fun t => " returns (".toList ++ (t.toList ++ [')'])) ++ [' ']), ?_,
    by simp [signatureTail]⟩
  simp only [List.forall_mem_append, List.forall_mem_singleton]
  refine ⟨?_, ?_, hreturns ' ' (by simp)⟩
  · cases modifier with
    | none => simp
    | some m =>
      simp only [Option.elim_some, List.forall_mem_cons]
      exact ⟨hreturns ' ' (by simp), hm m rfl⟩
  · cases returnType with
    | none => simp
    | some t =>
      simp only [Option.elim_some, List.forall_mem_append, List.forall_mem_singleton]
      exact ⟨hfixed, ht t rfl, hreturns ')' (by simp)⟩

end Characters

end SoliditySource
