/-! Kinds and keys of declarations. Names are unique within a kind, so a declaration is addressed by
its kind and name together. -/

namespace SoliditySource

/-- The order of the constructors is the order of the kinds. -/
inductive DeclarationKind where
  | container
  | attribute
  | struct
  | mapping
  | function
deriving DecidableEq, Repr, Ord

def DeclarationKind.name : DeclarationKind → String
  | .container => "container"
  | .attribute => "attribute"
  | .struct => "struct"
  | .mapping => "mapping"
  | .function => "function"

/-- The kinds in ascending order; equal kinds keep their places. -/
def DeclarationKind.sort (kinds : List DeclarationKind) : List DeclarationKind :=
  kinds.mergeSort fun a b => (compare a b).isLE

structure Key where
  kind : DeclarationKind
  name : String
deriving DecidableEq, Repr

def Key.text (key : Key) : String :=
  key.kind.name ++ " '" ++ key.name ++ "'"

/-- The word that opens the block of a container. -/
inductive ContainerKind where
  | contract
  | interface
  | library
deriving DecidableEq, Repr

namespace ContainerKind

def all : List ContainerKind := [.contract, .interface, .library]

def keyword : ContainerKind → String
  | .contract => "contract"
  | .interface => "interface"
  | .library => "library"

def ofKeyword? (word : String) : Option ContainerKind :=
  all.find? (·.keyword == word)

instance : Inhabited ContainerKind := ⟨.contract⟩

end ContainerKind

end SoliditySource
