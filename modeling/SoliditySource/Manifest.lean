import SoliditySource.Document

/-! Manifests: a document written down as its indentation, its declarations and its replacements. -/

namespace SoliditySource

structure Replacement where
  pattern : String
  replacement : String
deriving DecidableEq, Repr

structure Manifest where
  indent : Indent := default
  declarations : List Declaration := []
  replacements : List Replacement := []
deriving DecidableEq, Repr

namespace Manifest

/-- The document with the declarations and replacements of the manifest, in the same order. -/
def toDocument (m : Manifest) : Except DocumentError Document := do
  let doc ← m.declarations.foldlM Document.add { formatter := .braces m.indent }
  return m.replacements.foldl (fun doc r => doc.addRule r.pattern r.replacement) doc

end Manifest

end SoliditySource
