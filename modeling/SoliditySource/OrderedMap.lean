/-! Finite maps that remember the order in which keys were first added. -/

namespace SoliditySource

structure OrderedMap (κ α : Type) where
  entries : List (κ × α) := []
deriving DecidableEq, Repr

namespace OrderedMap

variable {κ α : Type} [DecidableEq κ]

def keys (m : OrderedMap κ α) : List κ :=
  m.entries.map Prod.fst

def values (m : OrderedMap κ α) : List α :=
  m.entries.map Prod.snd

def size (m : OrderedMap κ α) : Nat :=
  m.entries.length

def isEmpty (m : OrderedMap κ α) : Bool :=
  m.entries.isEmpty

def get? (m : OrderedMap κ α) (key : κ) : Option α :=
  (m.entries.find? (·.1 = key)).map Prod.snd

def contains (m : OrderedMap κ α) (key : κ) : Bool :=
  (m.get? key).isSome

def insertEntry (key : κ) (value : α) : List (κ × α) → List (κ × α)
  | [] => [(key, value)]
  | entry :: rest =>
    if entry.1 = key then (key, value) :: rest else entry :: insertEntry key value rest

/-- A new key goes to the end, a present one keeps its place. -/
def insert (m : OrderedMap κ α) (key : κ) (value : α) : OrderedMap κ α :=
  ⟨insertEntry key value m.entries⟩

def eraseEntry (key : κ) : List (κ × α) → List (κ × α)
  | [] => []
  | entry :: rest => if entry.1 = key then rest else entry :: eraseEntry key rest

/-- The other entries keep their order. -/
def erase (m : OrderedMap κ α) (key : κ) : OrderedMap κ α :=
  ⟨eraseEntry key m.entries⟩

end OrderedMap

end SoliditySource
