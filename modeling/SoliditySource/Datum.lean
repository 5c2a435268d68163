/-! Untyped data: the trees from which records are read and into which they are written. -/

namespace SoliditySource

/-- The kinds of numbers that can be out of range. -/
inductive Datum.Overflow where
  | integer
  | float
deriving DecidableEq, Repr

def Datum.Overflow.message : Datum.Overflow → String
  | integer => "integer number overflowed"
  | float => "floating-point number overflowed"

/-- A floating point number is kept as its shortest decimal text, since nothing computes with it. -/
inductive Datum where
  | null
  | boolean (value : Bool)
  | integer (value : Int)
  | float (decimal : String)
  /-- A number out of range, which nobody can read. -/
  | overflow (kind : Datum.Overflow)
  | string (value : String)
  | sequence (items : List Datum)
  | map (entries : List (String × Datum))
deriving Repr

namespace Datum

def ofOption (write : α → Datum) : Option α → Datum
  | none => null
  | some a => write a

end Datum

end SoliditySource
