import SoliditySource.Kind

/-! What can go wrong with a document: a declaration that is there already, or a rendering that
starts outside any container. -/

namespace SoliditySource

inductive DocumentError where
  /-- The first declaration is not a container; there is none in an empty document. -/
  | structural (first : Option Key)
  | duplicate (key : Key)
deriving DecidableEq, Repr

def DocumentError.message : DocumentError → String
  | structural (some key) => "first declaration must be a container, found " ++ key.text
  | structural none => "first declaration must be a container, document is empty"
  | duplicate key => key.text ++ " is already declared"

end SoliditySource
