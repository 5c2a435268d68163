import SoliditySource.Document

/-! A document that several clients work on. The clients hand in batches of steps, and one batch
runs at a time. A batch may break off; what it did before stays. -/

namespace SoliditySource

structure SharedDocument where
  document : Document := {}
deriving DecidableEq, Repr

/-- What a batch leaves behind: the answers of the steps that ran, and whether it broke off. -/
structure BatchResult (β : Type) where
  answers : List β
  aborted : Bool
deriving DecidableEq, Repr

namespace SharedDocument

/-- Runs the steps of a batch in order, up to the first `none`, at which the batch breaks off. -/
def batch {α β : Type} (step : Document → α → Document × β) (shared : SharedDocument) :
    List (Option α) → SharedDocument × BatchResult β
  | [] => (shared, ⟨[], false⟩)
  | none :: _ => (shared, ⟨[], true⟩)
  | some a :: rest =>
    let (next, answer) := step shared.document a
    let (last, result) := batch step ⟨next⟩ rest
    (last, { result with answers := answer :: result.answers })

def render (shared : SharedDocument) : Except DocumentError String :=
  shared.document.render

/-- A copy, which later batches do not touch. -/
def snapshot (shared : SharedDocument) : Document :=
  shared.document

end SharedDocument

end SoliditySource
