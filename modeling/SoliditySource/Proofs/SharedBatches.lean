import SoliditySource.Document.Edit
import SoliditySource.Proofs.DocumentKeys
import SoliditySource.SharedDocument

/-! Clients that add declarations to one shared document. Each client hands in its batches in order,
the batches of different clients come in any order, and a batch may break off. As long as no key is
added twice, every addition that is carried out succeeds and stays, whatever the order: the document
gets the declarations of each batch in one piece, and those of each client in the order of its
batches. -/
namespace SoliditySource

/-- The steps of a batch that are carried out, which are those before it breaks off. -/
def executed {α : Type} (batch : List (Option α)) : List α :=
  (batch.takeWhile Option.isSome).filterMap id

theorem executed_cons_some {α : Type} (a : α) (batch : List (Option α)) :
    executed (some a :: batch) = a :: executed batch := rfl

/-! Orders in which batches can come. -/

/-- The items of several queues in an order in which they can come: again and again the first item
of some queue, until all queues are empty. -/
inductive Interleaves {β : Type} : List (List β) → List β → Prop
  | done {queues : List (List β)} (h : ∀ queue ∈ queues, queue = []) : Interleaves queues []
  | next (before after : List (List β)) (item : β) (queue : List β) {order : List β}
      (h : Interleaves (before ++ queue :: after) order) :
      Interleaves (before ++ (item :: queue) :: after) (item :: order)

namespace Interleaves

variable {β : Type} {queues : List (List β)} {order : List β}

/-- Every item comes once. -/
theorem perm_flatten (h : Interleaves queues order) : order.Perm queues.flatten := by
  induction h with
  | done h => rw [List.flatten_eq_nil_iff.mpr h]
  | next before after item queue _ ih =>
    have hmiddle : (item :: (before.flatten ++ (queue ++ after.flatten))).Perm
        (before.flatten ++ item :: (queue ++ after.flatten)) := List.perm_middle.symm
    refine (ih.cons item).trans ?_
    simpa using hmiddle

/-- The items of one queue come in the order of the queue. -/
theorem sublist (h : Interleaves queues order) : ∀ queue ∈ queues, queue.Sublist order := by
  induction h with
  | done h =>
    intro queue hq
    rw [h queue hq]
  | next before after item queue _ ih =>
    intro other ho
    rcases List.mem_append.mp ho with hb | ha
    · exact (ih other (by simp [hb])).cons item
    · rcases List.mem_cons.mp ha with rfl | ha
      · exact (ih queue (by simp)).cons_cons item
      · exact (ih other (by simp [ha])).cons item

end Interleaves

/-- The blocks stand in the list one after the other, each in one piece. -/
def HoldsBlocks {α : Type} : List (List α) → List α → Prop
  | [], _ => True
  | block :: blocks, items => ∃ gap rest, items = gap ++ block ++ rest ∧ HoldsBlocks blocks rest

theorem HoldsBlocks.append_left {α : Type} {blocks : List (List α)} {items : List α}
    (h : HoldsBlocks blocks items) (front : List α) : HoldsBlocks blocks (front ++ items) := by
  cases blocks with
  | nil => trivial
  | cons block blocks =>
    obtain ⟨gap, rest, rfl, hrest⟩ := h
    exact ⟨front ++ gap, rest, by simp, hrest⟩

theorem HoldsBlocks.of_sublist {α : Type} {blocks others : List (List α)}
    (h : blocks.Sublist others) : HoldsBlocks blocks others.flatten := by
  induction h with
  | slnil => trivial
  | cons other _ ih => exact ih.append_left other
  | cons_cons block _ ih => exact ⟨[], _, rfl, ih⟩

/-! Additions to a document. -/

namespace Document

/-- The document with declarations put behind those it has, each under its own key. -/
def extend (doc : Document) (ds : List Declaration) : Document :=
  { doc with declarations := ⟨doc.declarations.entries ++ ds.map fun d => (d.key, d)⟩ }

theorem extend_nil (doc : Document) : doc.extend [] = doc := by
  simp [extend]

theorem extend_append (doc : Document) (ds es : List Declaration) :
    doc.extend (ds ++ es) = (doc.extend ds).extend es := by
  simp [extend]

theorem toList_extend (doc : Document) (ds : List Declaration) :
    (doc.extend ds).toList = doc.toList ++ ds := by
  simp [extend, toList, OrderedMap.values, Function.comp_def]

theorem keys_extend (doc : Document) (ds : List Declaration) :
    (doc.extend ds).keys = doc.keys ++ ds.map Declaration.key := by
  simp [extend, keys, OrderedMap.keys, Function.comp_def]

/-- Declarations with keys that are distinct and absent from the document. -/
structure Fresh (doc : Document) (ds : List Declaration) : Prop where
  distinct : (ds.map Declaration.key).Nodup
  absent : ∀ d ∈ ds, doc.contains d.key = false

namespace Fresh

variable {doc : Document} {ds es : List Declaration}

theorem perm (h : doc.Fresh ds) (hp : ds.Perm es) : doc.Fresh es :=
  ⟨(hp.map Declaration.key).nodup_iff.mp h.distinct, fun d hd => h.absent d (hp.mem_iff.mpr hd)⟩

theorem left (h : doc.Fresh (ds ++ es)) : doc.Fresh ds := by
  have hdistinct := h.distinct
  rw [List.map_append] at hdistinct
  exact ⟨hdistinct.of_append_left, fun d hd => h.absent d (by simp [hd])⟩

/-- What is left to add stays fresh while the declarations before it are added. -/
theorem right (h : doc.Fresh (ds ++ es)) : (doc.extend ds).Fresh es := by
  have hdistinct := h.distinct
  rw [List.map_append, List.nodup_append] at hdistinct
  obtain ⟨-, hes, hdisjoint⟩ := hdistinct
  refine ⟨hes, fun e he => ?_⟩
  have hold : e.key ∉ doc.keys := (doc.contains_eq_false_iff e.key).mp (h.absent e (by simp [he]))
  have hnew : e.key ∉ ds.map Declaration.key := fun hm =>
    hdisjoint e.key hm e.key (List.mem_map_of_mem he) rfl
  rw [contains_eq_false_iff, keys_extend, List.mem_append]
  exact not_or.mpr ⟨hold, hnew⟩

theorem nodup (h : doc.Fresh ds) : ds.Nodup :=
  h.distinct.of_map Declaration.key

/-- The first of the declarations can be added. -/
theorem edit_add {d : Declaration} (h : doc.Fresh (d :: ds)) :
    doc.edit (.add d) = (doc.extend [d], .done) := by
  have hd : d.key ∉ doc.keys := (doc.contains_eq_false_iff d.key).mp (h.absent d (by simp))
  rw [edit, add_of_notMem hd]
  rfl

end Fresh

end Document

namespace SharedDocument

/-- A batch of additions. -/
def addBatch (shared : SharedDocument) (batch : List (Option Declaration)) :
    SharedDocument × BatchResult EditResult :=
  shared.batch (fun doc d => doc.edit (.add d)) batch

/-- Batches of additions one after the other, with the result of each. -/
def addBatches (shared : SharedDocument) :
    List (List (Option Declaration)) → SharedDocument × List (BatchResult EditResult)
  | [] => (shared, [])
  | batch :: batches =>
    let (next, result) := shared.addBatch batch
    let (last, results) := next.addBatches batches
    (last, result :: results)

/-- The result of a batch in which every addition that is carried out succeeds. -/
def addedAll (batch : List (Option Declaration)) : BatchResult EditResult :=
  ⟨(executed batch).map fun _ => .done, none ∈ batch⟩

/-- A batch of fresh declarations adds what it carries out, in order. -/
theorem addBatch_eq {doc : Document} {batch : List (Option Declaration)}
    (h : doc.Fresh (executed batch)) :
    addBatch ⟨doc⟩ batch = (⟨doc.extend (executed batch)⟩, addedAll batch) := by
  induction batch generalizing doc with
  | nil => simp [addBatch, SharedDocument.batch, addedAll, executed, doc.extend_nil]
  | cons step batch ih =>
    cases step with
    | none => simp [addBatch, SharedDocument.batch, addedAll, executed, doc.extend_nil]
    | some d =>
      -- Once `d` is added, the rest of the batch is fresh for the longer document.
      rw [executed_cons_some] at h
      have hsplit : doc.Fresh ([d] ++ executed batch) := h
      have hrest := ih hsplit.right
      rw [addBatch] at hrest
      have hextend : doc.extend (d :: executed batch) =
          (doc.extend [d]).extend (executed batch) :=
        doc.extend_append [d] (executed batch)
      simp [addBatch, SharedDocument.batch, h.edit_add, hrest, addedAll, executed_cons_some,
        hextend]

/-- So do batches one after the other. -/
theorem addBatches_eq {doc : Document} {batches : List (List (Option Declaration))}
    (h : doc.Fresh (batches.flatMap executed)) :
    addBatches ⟨doc⟩ batches =
      (⟨doc.extend (batches.flatMap executed)⟩, batches.map addedAll) := by
  induction batches generalizing doc with
  | nil => simp [addBatches, doc.extend_nil]
  | cons batch batches ih =>
    rw [List.flatMap_cons] at h
    simp [addBatches, addBatch_eq h.left, ih h.right, doc.extend_append]

/-- Clients add declarations with keys that are distinct and new, in batches that may break off. In
whatever order the batches come, every addition that is carried out succeeds, and the document gets
each of these declarations once, behind those it had: the declarations of a batch in one piece, and
those of a client in the order of its batches. Every other order leads to the same declarations. -/
theorem addBatches_of_interleaves {shared : SharedDocument}
    {clients : List (List (List (Option Declaration)))}
    (hfresh : shared.document.Fresh (clients.flatten.flatMap executed))
    {order : List (List (Option Declaration))} (ho : Interleaves clients order) :
    (shared.addBatches order).2 = order.map addedAll ∧
      (∃ added, (shared.addBatches order).1.document.toList = shared.document.toList ++ added ∧
        added.Perm (clients.flatten.flatMap executed) ∧ added.Nodup ∧
        ∀ client ∈ clients, HoldsBlocks (client.map executed) added) ∧
      ∀ other, Interleaves clients other →
        (shared.addBatches other).1.document.toList.Perm
          (shared.addBatches order).1.document.toList := by
  obtain ⟨doc⟩ := shared
  have hperm : ∀ {batches}, Interleaves clients batches →
      (batches.flatMap executed).Perm (clients.flatten.flatMap executed) := fun hb =>
    hb.perm_flatten.flatMap_right executed
  have hadded : ∀ {batches}, Interleaves clients batches → addBatches ⟨doc⟩ batches =
      (⟨doc.extend (batches.flatMap executed)⟩, batches.map addedAll) := fun hb =>
    addBatches_eq (hfresh.perm (hperm hb).symm)
  refine ⟨by rw [hadded ho], ⟨order.flatMap executed, ?_, hperm ho, ?_, fun client hc => ?_⟩, ?_⟩
  · rw [hadded ho, Document.toList_extend]
  · exact (hfresh.perm (hperm ho).symm).nodup
  · exact .of_sublist ((ho.sublist client hc).map executed)
  · intro other hother
    rw [hadded hother, hadded ho, Document.toList_extend, Document.toList_extend]
    exact ((hperm hother).trans (hperm ho).symm).append_left doc.toList

/-- A document with one container. -/
def vault : SharedDocument :=
  ⟨Document.extend {} [.container { name := "Vault" }]⟩

/-- One client whose second batch breaks off, and one with a single batch. -/
def vaultClients : List (List (List (Option Declaration))) :=
  [[[some (.attribute { name := "owner", type := "address" }), some (.struct { name := "owner" })],
      [some (.function { name := "open" }), none, some (.function { name := "close" })]],
    [[some (.mapping { name := "shares", keyType := "address", valueType := "uint" }),
      some (.function { name := "count" })]]]

/-- The batch of the second client comes between those of the first. -/
def vaultOrder : List (List (Option Declaration)) :=
  [[some (.attribute { name := "owner", type := "address" }), some (.struct { name := "owner" })],
    [some (.mapping { name := "shares", keyType := "address", valueType := "uint" }),
      some (.function { name := "count" })],
    [some (.function { name := "open" }), none, some (.function { name := "close" })]]

theorem vaultClients_interleaves : Interleaves vaultClients vaultOrder :=
  .next [] [_] _ _ (.next [_] [] _ _ (.next [] [_] _ _ (.done (by simp))))

/-- The batch that breaks off adds the function before the break and not the one after it. -/
theorem vaultClients_addBatches :
    vault.document.Fresh (vaultClients.flatten.flatMap executed) ∧
      Interleaves vaultClients vaultOrder ∧
      (vault.addBatches vaultOrder).2 =
        [⟨[.done, .done], false⟩, ⟨[.done, .done], false⟩, ⟨[.done], true⟩] ∧
      (∃ added, (vault.addBatches vaultOrder).1.document.toList = vault.document.toList ++ added ∧
        added.Perm (vaultClients.flatten.flatMap executed) ∧ added.Nodup ∧
        ∀ client ∈ vaultClients, HoldsBlocks (client.map executed) added) ∧
      (vault.addBatches vaultClients.flatten).1.document.toList.Perm
        (vault.addBatches vaultOrder).1.document.toList := by
  have hfresh : vault.document.Fresh (vaultClients.flatten.flatMap executed) :=
    ⟨by decide, by decide⟩
  have hqueued : Interleaves vaultClients vaultClients.flatten :=
    .next [] [_] _ _ (.next [] [_] _ _ (.next [[]] [] _ _ (.done (by simp))))
  obtain ⟨hresults, hadded, hother⟩ := addBatches_of_interleaves hfresh vaultClients_interleaves
  exact ⟨hfresh, vaultClients_interleaves, hresults.trans (by decide), hadded, hother _ hqueued⟩

end SharedDocument

end SoliditySource
