import SoliditySource.Datum
import SoliditySource.Text.Quoted
import SoliditySource.Toml.Datetime

/-! Why a datum cannot be read as what was asked for, and how that is said. -/

namespace SoliditySource

/-- What a datum is, as far as a message tells. -/
inductive Datum.Shape where
  | null
  | boolean (value : Bool)
  | integer (value : Int)
  | float (decimal : String)
  | string (value : String)
  | sequence
  | map
deriving DecidableEq, Repr

/-- A number out of range has none. -/
def Datum.shape : Datum → Except Datum.Overflow Datum.Shape
  | null => .ok .null
  | boolean b => .ok (.boolean b)
  | integer n => .ok (.integer n)
  | float d => .ok (.float d)
  | overflow kind => .error kind
  | string s => .ok (.string s)
  | sequence _ => .ok .sequence
  | map _ => .ok .map

/-- The integers that have 64 bits, be they signed or not. -/
def inWord (n : Int) : Bool :=
  -9223372036854775808 ≤ n && n ≤ 18446744073709551615

/-- An integer, with the type it needs when it has more than 64 bits. -/
def integerText (n : Int) : String :=
  "integer `" ++ toString n ++ "`" ++
    if inWord n then "" else if n < 170141183460469231731687303715884105728 then " as i128"
    else " as u128"

def Datum.Shape.text : Datum.Shape → String
  | null => "null"
  | boolean b => "boolean `" ++ (if b then "true" else "false") ++ "`"
  | integer n => integerText n
  | float d => "floating point `" ++ d ++ "`"
  | string s => "string " ++ Text.quoted s
  | sequence => "sequence"
  | map => "map"

inductive Expected where
  | string
  | boolean
  | sequence
  | map
  | stringOrMap
  | nothing
  | anything
  | tomlValue
  | datetime
  | record (type : String)
deriving DecidableEq, Repr

def Expected.text : Expected → String
  | string => "a string"
  | boolean => "a boolean"
  | sequence => "a sequence"
  | map => "a map"
  | stringOrMap => "string or map"
  | nothing => "unit"
  | anything => "any value"
  | tomlValue => "any valid TOML value"
  | datetime => "string containing a datetime"
  | record type => "struct " ++ type

inductive Mismatch where
  | wrongType (found : Datum.Shape) (expected : Expected)
  | overflow (kind : Datum.Overflow)
  /-- An integer that has 64 bits only without a sign. -/
  | unsignedWord
  | malformedDatetime (problem : Toml.Datetime.Problem)
  /-- A map that should hold exactly one entry. -/
  | notSingle
  | missingField (name : String)
  | repeatedField (name : String)
  | unknownField (name : String) (known : List String)
  | unknownVariant (name : String) (known : List String)
  /-- A list that ends before the fields a record cannot do without. -/
  | missingItems (length : Nat) (type : String) (fields : Nat)
  | extraItems (length : Nat)
  /-- None of the forms of a type fits. -/
  | noVariant (type : String)
  | indentWidth (width : Int)
  | indentName (name : String)
deriving DecidableEq, Repr

namespace Mismatch

/-- Names in the words of a choice. -/
def choice (names : List String) : String :=
  match names.map fun name => "`" ++ name ++ "`" with
  | [one] => one
  | [one, two] => one ++ " or " ++ two
  | many => "one of " ++ ", ".intercalate many

def message : Mismatch → String
  | wrongType found expected => "invalid type: " ++ found.text ++ ", expected " ++ expected.text
  | overflow kind => kind.message
  | unsignedWord => "u64 value was too large"
  | malformedDatetime problem => problem.message
  | notSingle => "invalid value: map, expected map with a single key"
  | missingField name => "missing field `" ++ name ++ "`"
  | repeatedField name => "duplicate field `" ++ name ++ "`"
  | unknownField name known => "unknown field `" ++ name ++ "`, expected " ++ choice known
  | unknownVariant name known => "unknown variant `" ++ name ++ "`, expected " ++ choice known
  | missingItems length type fields =>
    "invalid length " ++ toString length ++ ", expected struct " ++ type ++ " with " ++
      toString fields ++ " elements"
  | extraItems length =>
    "invalid length " ++ toString length ++ ", expected fewer elements in array"
  | noVariant type => "data did not match any variant of untagged enum " ++ type
  | indentWidth width =>
    "indent width must be between 0 and 16, got " ++ toString width
  | indentName name => "indent must be a width or \"tab\", got \"" ++ name ++ "\""

end Mismatch

end SoliditySource
