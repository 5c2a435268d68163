import SoliditySource.Proofs.DocumentKeys

/-! Runs of calls on a document. Which declarations a document holds, and in which order, follows
from the history of the calls and their answers: a key is there when its last addition was not
undone, and the keys stand in the order of these additions. A call that misses leaves no trace, and
the oldest key decides whether the document can be rendered. -/
namespace SoliditySource

/-- One call on a document. -/
inductive Call where
  | edit (e : Edit)
  /-- The removal for one kind, which hands out a record of that kind. -/
  | removeRecord (kind : DeclarationKind) (name : String)
deriving DecidableEq, Repr

/-- The edit that a call stands for. -/
def Call.toEdit : Call → Edit
  | edit e => e
  | removeRecord kind name => .remove ⟨kind, name⟩

namespace Document

/-- The removals for one kind as one function. The record that is handed out is made a declaration
again. -/
def removeRecord (doc : Document) (name : String) : DeclarationKind → Document × Option Declaration
  | .container => (doc.removeContainer name).map id (Option.map .container)
  | .attribute => (doc.removeAttribute name).map id (Option.map .attribute)
  | .struct => (doc.removeStruct name).map id (Option.map .struct)
  | .mapping => (doc.removeMapping name).map id (Option.map .mapping)
  | .function => (doc.removeFunction name).map id (Option.map .function)

def call (doc : Document) : Call → Document × EditResult
  | .edit e => doc.edit e
  | .removeRecord kind name => (doc.removeRecord name kind).map id .removed

/-- The document after some calls, and the answer of each. -/
def callAll (doc : Document) : List Call → Document × List EditResult
  | [] => (doc, [])
  | c :: cs =>
    let (next, result) := doc.call c
    let (last, results) := next.callAll cs
    (last, result :: results)

theorem callAll_cons (doc : Document) (c : Call) (cs : List Call) :
    doc.callAll (c :: cs) =
      (((doc.call c).1.callAll cs).1, (doc.call c).2 :: ((doc.call c).1.callAll cs).2) := rfl

theorem callAll_concat (doc : Document) (cs : List Call) (c : Call) :
    (doc.callAll (cs ++ [c])).1 = ((doc.callAll cs).1.call c).1 := by
  induction cs generalizing doc with
  | nil => rfl
  | cons first rest ih => exact ih (doc.call first).1

theorem step_call (doc : Document) (c : Call) : Step doc (doc.call c).1 := by
  cases c with
  | edit e => exact .edit doc e
  | removeRecord kind name =>
    cases kind
    · exact .removeContainer doc name
    · exact .removeAttribute doc name
    · exact .removeStruct doc name
    · exact .removeMapping doc name
    · exact .removeFunction doc name

theorem Reachable.callAll {doc : Document} (h : Reachable doc) (calls : List Call) :
    Reachable (doc.callAll calls).1 := by
  induction calls generalizing doc with
  | nil => exact h
  | cons c cs ih => exact ih (h.step (doc.step_call c))

theorem Reachable.exists_callAll {doc : Document} (h : Reachable doc) :
    ∃ calls, (Document.callAll {} calls).1 = doc := by
  induction h with
  | new => exact ⟨[], rfl⟩
  | step _ hs ih =>
    obtain ⟨calls, rfl⟩ := ih
    obtain ⟨e, rfl⟩ := hs.exists_edit
    exact ⟨calls ++ [.edit e], callAll_concat {} calls (.edit e)⟩

/-- The reachable documents are those that runs of calls on the new document end in. -/
theorem reachable_iff_exists_callAll (doc : Document) :
    Reachable doc ↔ ∃ calls, (callAll {} calls).1 = doc := by
  refine ⟨Reachable.exists_callAll, ?_⟩
  rintro ⟨calls, rfl⟩
  exact Reachable.new.callAll calls

namespace WellKeyed

variable {doc : Document}

theorem removeRecord_eq (h : doc.WellKeyed) (kind : DeclarationKind) (name : String) :
    doc.removeRecord name kind = doc.remove ⟨kind, name⟩ := by
  refine Prod.ext (by cases kind <;> rfl) ?_
  cases hg : doc.get? ⟨kind, name⟩ with
  | none =>
    cases kind <;> simp [removeRecord, removeContainer, removeAttribute, removeStruct,
      removeMapping, removeFunction, Document.remove, hg]
  | some d =>
    obtain rfl : d.kind = kind := h.kind_of_get? hg
    rcases d with c | a | s | m | f <;>
      simp_all [removeRecord, removeContainer, removeAttribute, removeStruct, removeMapping,
        removeFunction, Document.remove, Declaration.kind, Declaration.container?,
        Declaration.attribute?, Declaration.struct?, Declaration.mapping?, Declaration.function?]

/-- A removal for one kind does and answers what the removal by key does. -/
theorem call_eq_edit (h : doc.WellKeyed) (c : Call) : doc.call c = doc.edit c.toEdit := by
  cases c with
  | edit e => rfl
  | removeRecord kind name =>
    rw [call, h.removeRecord_eq]
    rfl

theorem call (h : doc.WellKeyed) (c : Call) : (doc.call c).1.WellKeyed := by
  rw [h.call_eq_edit]
  exact h.edit c.toEdit

theorem callAll (h : doc.WellKeyed) (calls : List Call) : (doc.callAll calls).1.WellKeyed := by
  induction calls generalizing doc with
  | nil => exact h
  | cons c cs ih => exact ih (h.call c)

end WellKeyed

end Document

/-- An edit and its answer. -/
structure Event where
  edit : Edit
  result : EditResult
deriving DecidableEq, Repr

namespace Event

/-- The key that was added. -/
def added? : Event → Option Key
  | ⟨.add d, .done⟩ => some d.key
  | _ => none

/-- The key was there and was taken away, or everything was. -/
def drops (key : Key) : Event → Bool
  | ⟨.remove removed, .removed (some _)⟩ => removed = key
  | ⟨.reset, _⟩ => true
  | _ => false

/-- Whatever happened to the key before does not matter any more. -/
def decides (key : Key) (event : Event) : Bool :=
  event.added? = some key || event.drops key

end Event

/-- The keys that were added and, after their last addition, not dropped; in the order of these
additions. -/
def survivors : List Event → List Key
  | [] => []
  | event :: later =>
    let rest := survivors later
    match event.added? with
    | some key => if later.any (·.decides key) then rest else key :: rest
    | none => rest

/-- The answers of calls that fail or find nothing. -/
def EditResult.isMiss : EditResult → Bool
  | duplicate _ => true
  | changed found => !found
  | removed record => record.isNone
  | done => false

namespace Document

def history (doc : Document) (calls : List Call) : List Event :=
  calls.zipWith (fun c result => ⟨c.toEdit, result⟩) (doc.callAll calls).2

theorem history_cons (doc : Document) (c : Call) (cs : List Call) :
    doc.history (c :: cs) = ⟨c.toEdit, (doc.call c).2⟩ :: (doc.call c).1.history cs := rfl

/-- What one edit does to the keys: a key that it decides leaves its place, and a key that it adds
goes to the end. -/
theorem WellKeyed.keys_edit {doc : Document} (h : doc.WellKeyed) (e : Edit) :
    (doc.edit e).1.keys =
      doc.keys.filter (fun key => !(Event.mk e (doc.edit e).2).decides key) ++
        (Event.mk e (doc.edit e).2).added?.toList := by
  cases e with
  | add d =>
    cases ha : doc.add d with
    | error problem => simp [Document.edit, ha, Event.decides, Event.added?, Event.drops]
    | ok next =>
      obtain ⟨hnew, hkeys⟩ := keys_of_add ha
      have hkeep : doc.keys.filter (fun key => !decide (d.key = key)) = doc.keys :=
        List.filter_eq_self.mpr fun key hk => by simpa using fun he : d.key = key => hnew (he ▸ hk)
      simp [Document.edit, ha, hkeys, Event.decides, Event.added?, Event.drops, hkeep]
  | change name patch =>
    simp [Document.edit, keys_change, Event.decides, Event.added?, Event.drops]
  | remove key =>
    by_cases hk : key ∈ doc.keys
    · obtain ⟨d, hd⟩ := Option.isSome_iff_exists.mp ((doc.contains_iff key).mpr hk)
      have hkeys : (doc.remove key).1.keys = doc.keys.filter (· ≠ key) :=
        OrderedMap.keys_erase h.nodup key
      have hanswer : (doc.remove key).2 = some d := hd
      simp [Document.edit, hanswer, hkeys, Event.decides, Event.added?, Event.drops, eq_comm]
    · simp [Document.edit, remove_of_notMem hk, Event.decides, Event.added?, Event.drops]
  | addRule pattern replacement =>
    simp [Document.edit, addRule, keys, Event.decides, Event.added?, Event.drops]
  | setFormatter formatter =>
    simp [Document.edit, setFormatter, keys, Event.decides, Event.added?, Event.drops]
  | reset =>
    simp [Document.edit, reset, keys, OrderedMap.keys, Event.decides, Event.added?, Event.drops]

/-- What a run does to the keys: those the history decides leave their places, and those that
survive stand behind the others. -/
theorem WellKeyed.keys_callAll {doc : Document} (h : doc.WellKeyed) (calls : List Call) :
    (doc.callAll calls).1.keys =
      doc.keys.filter (fun key => !(doc.history calls).any (·.decides key)) ++
        survivors (doc.history calls) := by
  induction calls generalizing doc with
  | nil => simp [Document.callAll, history, survivors]
  | cons c cs ih =>
    -- The calls after `c` sift the keys that `c` leaves; the one it adds is judged like the others.
    have hrest := ih (h.call c)
    rw [h.call_eq_edit, h.keys_edit, List.filter_append, List.filter_filter] at hrest
    rw [callAll_cons, history_cons, h.call_eq_edit]
    refine hrest.trans ?_
    simp only [List.any_cons, survivors]
    cases (Event.mk c.toEdit (doc.edit c.toEdit).2).added? with
    | none => simp [Bool.and_comm]
    | some key =>
      cases hd : ((doc.edit c.toEdit).1.history cs).any (·.decides key) with
      | true => simp [hd, Bool.and_comm]
      | false => simp [hd, Bool.and_comm]

/-! Calls that miss. -/

/-- There is something to do: the key of an addition is new, and the key of a change or a removal is
there. -/
def Applies (doc : Document) : Edit → Prop
  | .add d => d.key ∉ doc.keys
  | .change name patch => ⟨patch.kind, name⟩ ∈ doc.keys
  | .remove key => key ∈ doc.keys
  | _ => True

/-- An edit that has nothing to do does nothing and says so. -/
theorem edit_of_not_applies {doc : Document} {e : Edit} (h : ¬doc.Applies e) :
    (doc.edit e).1 = doc ∧ (doc.edit e).2.isMiss = true := by
  cases e with
  | add d => simp [edit, add_of_mem (not_not.mp h), EditResult.isMiss]
  | change name patch => simp [edit, change_of_notMem h, EditResult.isMiss]
  | remove key => simp [edit, remove_of_notMem h, EditResult.isMiss]
  | addRule pattern replacement => exact absurd trivial h
  | setFormatter formatter => exact absurd trivial h
  | reset => exact absurd trivial h

theorem WellKeyed.isMiss_edit_iff {doc : Document} (h : doc.WellKeyed) (e : Edit) :
    (doc.edit e).2.isMiss = true ↔ ¬doc.Applies e := by
  refine ⟨fun hmiss happlies => ?_, fun hn => (edit_of_not_applies hn).2⟩
  cases e with
  | add d => simp [Document.edit, add_of_notMem happlies, EditResult.isMiss] at hmiss
  | change name patch =>
    have hfound := (h.change_found_iff name patch).mpr ((doc.contains_iff _).mpr happlies)
    simp [Document.edit, hfound, EditResult.isMiss] at hmiss
  | remove key =>
    obtain ⟨d, hd⟩ := Option.isSome_iff_exists.mp ((doc.contains_iff key).mpr happlies)
    simp [Document.edit, Document.remove, hd, EditResult.isMiss] at hmiss
  | addRule pattern replacement => cases hmiss
  | setFormatter formatter => cases hmiss
  | reset => cases hmiss

/-! Rendering. -/

/-- The document is rendered exactly when `first` is the key of a container, and both renderings
name `first` otherwise. -/
structure RendersFrom (doc : Document) (first : Option Key) : Prop where
  raw_iff : (∃ text, doc.renderRaw = .ok text) ↔ ∃ name, first = some ⟨.container, name⟩
  iff : (∃ text, doc.render = .ok text) ↔ ∃ name, first = some ⟨.container, name⟩
  refused : (¬∃ name, first = some ⟨.container, name⟩) →
    doc.renderRaw = .error (.structural first) ∧ doc.render = .error (.structural first)

theorem RendersFrom.of_ok {doc : Document} {text name : String} (h : doc.renderRaw = .ok text) :
    doc.RendersFrom (some ⟨.container, name⟩) := by
  have hrender : doc.render = .ok (doc.formatter.format text) := by rw [render, h, Except.map]
  exact ⟨iff_of_true ⟨_, h⟩ ⟨name, rfl⟩, iff_of_true ⟨_, hrender⟩ ⟨name, rfl⟩,
    fun hn => absurd ⟨name, rfl⟩ hn⟩

theorem RendersFrom.of_structural {doc : Document} {first : Option Key}
    (hfirst : ¬∃ name, first = some ⟨.container, name⟩)
    (h : doc.renderRaw = .error (.structural first)) : doc.RendersFrom first := by
  have hrender : doc.render = .error (.structural first) := by rw [render, h, Except.map]
  exact ⟨iff_of_false (by simp [h]) hfirst, iff_of_false (by simp [hrender]) hfirst,
    fun _ => ⟨h, hrender⟩⟩

theorem rendersFrom_head? (doc : Document) :
    doc.RendersFrom (doc.toList.map Declaration.key).head? := by
  cases hl : doc.toList with
  | nil =>
    refine .of_structural (by simp) ?_
    simp [renderRaw, hl, renderDeclarations, Except.map]
  | cons d ds =>
    by_cases hc : d.kind = .container
    · have hkey : d.key = ⟨.container, d.name⟩ := by rw [Declaration.key, hc]
      have hraw : doc.renderRaw = .ok (doc.rules.apply (d.text ++ renderRest ds)) := by
        simp [renderRaw, hl, renderDeclarations, Declaration.isContainer, hc, Except.map]
      rw [List.map_cons, List.head?_cons, hkey]
      exact .of_ok hraw
    · refine .of_structural ?_ ?_
      · rintro ⟨name, hname⟩
        exact hc (congrArg Key.kind (Option.some.inj hname))
      · simp [renderRaw, hl, renderDeclarations, Declaration.isContainer, hc, Except.map]

/-! The whole run. -/

theorem WellKeyed.map_key_toList {doc : Document} (h : doc.WellKeyed) :
    doc.toList.map Declaration.key = doc.keys := by
  rw [toList, OrderedMap.values, List.map_map, keys, OrderedMap.keys]
  exact List.map_congr_left fun entry he => (h.stored entry he).symm

/-- A removal keeps the other declarations as they are, in their order. -/
theorem WellKeyed.toList_remove {doc : Document} (h : doc.WellKeyed) (key : Key) :
    (doc.remove key).1.toList = doc.toList.filter (·.key ≠ key) := by
  have hkeys : ∀ entry ∈ doc.declarations.entries,
      decide (entry.1 ≠ key) = decide (entry.2.key ≠ key) := fun entry he => by
    rw [h.stored entry he]
  calc (doc.remove key).1.toList
      = (doc.declarations.entries.filter (·.1 ≠ key)).map Prod.snd :=
        congrArg (List.map Prod.snd) (OrderedMap.entries_erase h.nodup key)
    _ = (doc.declarations.entries.filter (·.2.key ≠ key)).map Prod.snd := by
        rw [List.filter_congr hkeys]
    _ = doc.toList.filter (·.key ≠ key) := by
        rw [toList, OrderedMap.values, List.filter_map]
        rfl

/-- After any calls on a new document, its declarations are those that the history leaves, in the
order in which they were last added: a change moves nothing, and a removal keeps the order of the
others. A call misses exactly when there is nothing for it to do, and then the document stays as it
was. The oldest declaration decides whether the document is rendered. -/
theorem toList_eq_survivors (calls : List Call) :
    let doc := (callAll {} calls).1
    let keys := survivors (history {} calls)
    doc.toList.map Declaration.key = keys ∧
      (∀ name patch, (doc.change name patch).1.toList.map Declaration.key = keys) ∧
      (∀ key, (doc.remove key).1.toList = doc.toList.filter (·.key ≠ key)) ∧
      (∀ c, (doc.call c).2.isMiss = true ↔ ¬doc.Applies c.toEdit) ∧
      (∀ c, (doc.call c).2.isMiss = true → (doc.call c).1 = doc) ∧
      doc.RendersFrom keys.head? := by
  intro doc keys
  have hnew : ({} : Document).WellKeyed := OrderedMap.WellKeyed.empty
  have h : doc.WellKeyed := hnew.callAll calls
  have hmiss : ∀ c, (doc.call c).2.isMiss = true ↔ ¬doc.Applies c.toEdit := fun c => by
    rw [h.call_eq_edit]
    exact h.isMiss_edit_iff c.toEdit
  have hkeys : doc.keys = keys := hnew.keys_callAll calls
  have hlist : doc.toList.map Declaration.key = keys := h.map_key_toList.trans hkeys
  refine ⟨hlist, fun name patch => ?_, h.toList_remove, hmiss, fun c hc => ?_, ?_⟩
  · rw [(h.change name patch).map_key_toList, keys_change, hkeys]
  · rw [h.call_eq_edit]
    exact (edit_of_not_applies ((hmiss c).mp hc)).1
  · rw [← hlist]
    exact doc.rendersFrom_head?

/-- A name for two kinds, an addition that fails, and one that is made again after a removal. -/
example :
    survivors (history {} [.edit (.add (.attribute { name := "x" })),
      .edit (.add (.struct { name := "x" })),
      .edit (.add (.attribute { name := "x", type := "uint" })), .removeRecord .attribute "x",
      .edit (.add (.attribute { name := "x" })), .removeRecord .mapping "x"]) =
      [⟨.struct, "x"⟩, ⟨.attribute, "x"⟩] := by
  decide

end Document

end SoliditySource
