import SoliditySource.Document

/-! Edits of a document as data. -/

namespace SoliditySource

inductive Edit where
  | add (declaration : Declaration)
  | change (name : String) (patch : Patch)
  | remove (key : Key)
  | addRule (pattern replacement : String)
  | setFormatter (formatter : Formatter)
  | reset
deriving DecidableEq, Repr

/-- What an edit answers. -/
inductive EditResult where
  | done
  | duplicate (key : Key)
  | changed (found : Bool)
  | removed (declaration : Option Declaration)
deriving DecidableEq, Repr

namespace Document

/-- An edit that fails leaves the document as it is. -/
def edit (doc : Document) : Edit → Document × EditResult
  | .add d =>
    match doc.add d with
    | .ok next => (next, .done)
    | .error _ => (doc, .duplicate d.key)
  | .change name patch =>
    let (next, found) := doc.change name patch
    (next, .changed found)
  | .remove key =>
    let (next, removed) := doc.remove key
    (next, .removed removed)
  | .addRule pattern replacement => (doc.addRule pattern replacement, .done)
  | .setFormatter formatter => (doc.setFormatter formatter, .done)
  | .reset => (doc.reset, .done)

end Document

end SoliditySource
