import SoliditySource.Document
import SoliditySource.Proofs.RenderedLines

/-! Rendering piece by piece. Every declaration adds a text of its own, whatever was written before
it; a container that comes later closes the segment before it, and a member goes before the brace
that closes the last segment. -/
namespace SoliditySource

namespace Writer

/-- At level zero a fragment is written as its text. -/
theorem text_push {w : Writer} (h : w.level = 0) (fragment : Fragment) :
    (w.push fragment).text = w.text ++ fragment.text := by
  cases fragment <;> simp [push, raw, h, Indent.levels]

theorem level_push (w : Writer) (fragment : Fragment) : (w.push fragment).level = w.level := by
  cases fragment <;> rfl

/-- What a writer at level zero adds does not depend on what it has written. -/
theorem text_emit {w : Writer} (h : w.level = 0) (fragments : List Fragment) :
    (w.emit fragments).text = w.text ++ Fragment.concat fragments := by
  induction fragments generalizing w with
  | nil => simp [emit, Fragment.concat]
  | cons fragment fragments ih =>
    have hlevel : (w.push fragment).level = 0 := (w.level_push fragment).trans h
    calc (w.emit (fragment :: fragments)).text
        = (w.push fragment).text ++ Fragment.concat fragments := ih hlevel
      _ = w.text ++ Fragment.concat (fragment :: fragments) := by
        rw [text_push h, String.append_assoc]
        rfl

end Writer

/-- The text of declarations that follow an open segment, without the brace that closes the last
one. -/
def restBody (ds : List Declaration) : String :=
  String.join (ds.map fun d => (if d.isContainer then "\x7d\n\n" else "") ++ d.text)

theorem renderRest_append (ds es : List Declaration) :
    renderRest (ds ++ es) = restBody ds ++ renderRest es := by
  induction ds with
  | nil => simp [restBody]
  | cons d ds ih =>
    rw [List.cons_append, renderRest, ih]
    simp [restBody, String.append_assoc]

theorem renderRest_eq_restBody (ds : List Declaration) : renderRest ds = restBody ds ++ "\x7d" := by
  simpa [renderRest] using renderRest_append ds []

/-- Members close nothing. -/
theorem restBody_of_members {ms : List Declaration} (h : ∀ m ∈ ms, m.isContainer = false) :
    restBody ms = String.join (ms.map Declaration.text) := by
  have htexts : ms.map (fun m => (if m.isContainer then "\x7d\n\n" else "") ++ m.text) =
      ms.map Declaration.text := List.map_congr_left fun m hm => by simp [h m hm]
  rw [restBody, htexts]

/-- Without rules, a document is rendered as its declarations are. -/
theorem Document.renderRaw_of_isEmpty {doc : Document} (h : doc.rules.isEmpty = true) :
    doc.renderRaw = renderDeclarations doc.toList := by
  have hrules : doc.rules.toList = [] := List.isEmpty_iff.mp h
  have hid : doc.rules.apply = id := by
    funext text
    simp [Rules.apply, hrules]
  rw [renderRaw, hid]
  cases renderDeclarations doc.toList <;> rfl

/-- Rendering composes. The text of declarations that start with a container ends with a brace. More
such declarations are rendered on their own and put after an empty line, members go before that
brace with the texts they have by themselves, and those texts are what a writer adds for them
wherever it stands. -/
theorem renderDeclarations_append {ds : List Declaration} (hds : StartsWithContainer ds) :
    ∃ body, renderDeclarations ds = .ok (body ++ "\x7d") ∧
      (∀ es, StartsWithContainer es → ∃ text, renderDeclarations es = .ok text ∧
        renderDeclarations (ds ++ es) = .ok (body ++ "\x7d" ++ "\n\n" ++ text)) ∧
      (∀ ms : List Declaration, (∀ m ∈ ms, m.isContainer = false) →
        renderDeclarations (ds ++ ms) =
          .ok (body ++ String.join (ms.map Declaration.text) ++ "\x7d")) ∧
      ∀ (d : Declaration) (w : Writer), w.level = 0 →
        (w.emit d.fragments).text = w.text ++ d.text := by
  obtain ⟨c, rest, rfl⟩ := hds
  have hrender : ∀ tail, renderDeclarations (.container c :: rest ++ tail) =
      .ok ((Declaration.container c).text ++ restBody rest ++ renderRest tail) := by
    intro tail
    rw [List.cons_append, renderDeclarations, if_pos (by rfl), renderRest_append,
      String.append_assoc]
  refine ⟨(Declaration.container c).text ++ restBody rest, ?_, ?_, ?_, ?_⟩
  · simpa [renderRest] using hrender []
  · rintro es ⟨e, later, rfl⟩
    refine ⟨_, rfl, ?_⟩
    rw [hrender]
    simp [renderRest, Declaration.isContainer, Declaration.kind, String.append_assoc]
  · intro ms hms
    rw [hrender, renderRest_eq_restBody, restBody_of_members hms]
    simp [String.append_assoc]
  · intro d w hw
    exact w.text_emit hw d.fragments

/-- A contract with a member, then a library without any. -/
def ledgerSegment : List Declaration :=
  [.container { name := "Ledger", comment := some "Books." },
    .mapping { name := "balances", keyType := "address", valueType := "uint", lineBreak := true }]

def mathSegment : List Declaration :=
  [.container { name := "SafeMath", kind := .library }]

def ownerMember : Declaration :=
  .attribute { name := "owner", type := "address", value := some (.text "\x7d") }

theorem ledgerSegment_append :
    StartsWithContainer ledgerSegment ∧ StartsWithContainer mathSegment ∧
      ownerMember.isContainer = false ∧
      ∃ body text, renderDeclarations ledgerSegment = .ok (body ++ "\x7d") ∧
        renderDeclarations mathSegment = .ok text ∧
        renderDeclarations (ledgerSegment ++ mathSegment) =
          .ok (body ++ "\x7d" ++ "\n\n" ++ text) ∧
        renderDeclarations (ledgerSegment ++ [ownerMember]) =
          .ok (body ++ ownerMember.text ++ "\x7d") := by
  have hledger : StartsWithContainer ledgerSegment := ⟨_, _, rfl⟩
  have hmath : StartsWithContainer mathSegment := ⟨_, _, rfl⟩
  have hmember : ownerMember.isContainer = false := rfl
  obtain ⟨body, hbody, hsegments, hmembers, -⟩ := renderDeclarations_append hledger
  obtain ⟨text, htext, hboth⟩ := hsegments mathSegment hmath
  have hadded := hmembers [ownerMember] (by simpa using hmember)
  refine ⟨hledger, hmath, hmember, body, text, hbody, htext, hboth, ?_⟩
  simpa using hadded

end SoliditySource
