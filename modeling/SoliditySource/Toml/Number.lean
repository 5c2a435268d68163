import SoliditySource.Decimal.Shortest

/-! Numbers of TOML. Digits may be grouped by single underscores between them. Some words count as
numbers although they have no value: a number out of range is one, and so are some integers whose
digits are wrong or missing. -/

namespace SoliditySource.Toml.Number

/-- The digits of a whole text without the underscores that group them. -/
def digitRun (isDigit : Char → Bool) : List Char → Option (List Char)
  | [] => none
  | [c] => if isDigit c then some [c] else none
  | c :: '_' :: cs => if isDigit c then (digitRun isDigit cs).map (c :: ·) else none
  | c :: cs => if isDigit c then (digitRun isDigit cs).map (c :: ·) else none

def digitValue (c : Char) : Nat :=
  if c.isDigit then c.toNat - '0'.toNat else c.toLower.toNat - 'a'.toNat + 10

def isDigitOf (base : Nat) (c : Char) : Bool :=
  (c.isDigit || (base = 16 && 'a' ≤ c.toLower && c.toLower ≤ 'f')) && digitValue c < base

def valueOf (base : Nat) (digits : List Char) : Nat :=
  digits.foldl (fun n c => n * base + digitValue c) 0

def readNatural (base : Nat) (cs : List Char) : Option Nat :=
  (digitRun (isDigitOf base) cs).map (valueOf base)

/-- The digits of a decimal number, which has no leading zeros. -/
def readDecimal (cs : List Char) : Option (List Char) := do
  let digits ← digitRun (isDigitOf 10) cs
  guard (digits.length = 1 ∨ digits.head? ≠ some '0')
  return digits

/-- Whether a minus sign comes first, and what follows the sign. -/
def splitSign : List Char → Bool × List Char
  | '-' :: cs => (true, cs)
  | '+' :: cs => (false, cs)
  | cs => (false, cs)

def signed (negative : Bool) (n : Nat) : Int :=
  if negative then -n else n

/-- The integers of 128 bits, be they signed or not. -/
def inRange (n : Int) : Bool :=
  -170141183460469231731687303715884105728 ≤ n && n < 340282366920938463463374607431768211456

def splitAtUnderscores : List Char → List (List Char)
  | [] => [[]]
  | '_' :: cs => [] :: splitAtUnderscores cs
  | c :: cs =>
    match splitAtUnderscores cs with
    | [] => [[c]]
    | group :: groups => (c :: group) :: groups

/-- Whether the underscore between any two groups has a hexadecimal digit on either side. -/
def areJoined : List (List Char) → Bool
  | first :: second :: groups =>
    first.getLast?.any (isDigitOf 16) && second.head?.any (isDigitOf 16) &&
      areJoined (second :: groups)
  | _ => true

/-- Whether a word without its sign counts as a decimal integer by its underscores alone. The first of
them must come after decimal digits that do not start with zero. -/
def isGrouped (cs : List Char) : Bool :=
  match splitAtUnderscores cs with
  | first :: second :: groups =>
    first.all (isDigitOf 10) && first.head? != some '0' && areJoined (first :: second :: groups) &&
      cs.all fun c => !(c == ' ' || c == '.' || c == 'e' || c == 'E')
  | _ => false

/-- An integer with a mark of its base. It may lack its digits, and then has no value. -/
def readMarked (base : Nat) (digits : List Char) : Option (Option Int) :=
  if digits.isEmpty then some none
  else (readNatural base digits).map fun n => some n

/-- A decimal integer, which may have a sign. -/
def readPlain (cs : List Char) : Option (Option Int) :=
  let (negative, cs) := splitSign cs
  match readDecimal cs with
  | some digits => some (some (signed negative (valueOf 10 digits)))
  | none => if isGrouped cs then some none else none

/-- An integer, with its value if it has one in range. -/
def readInteger (cs : List Char) : Option (Option Int) :=
  let value? := match cs with
    | '0' :: 'x' :: digits => readMarked 16 digits
    | '0' :: 'o' :: digits => readMarked 8 digits
    | '0' :: 'b' :: digits => readMarked 2 digits
    | cs => readPlain cs
  value?.map fun value => value.filter inRange

def isExponentMark (c : Char) : Bool :=
  c == 'e' || c == 'E'

/-- The exponent at the end of a number; without the mark it is zero. -/
def readExponent : List Char → Option Int
  | [] => some 0
  | _ :: cs =>
    let (negative, cs) := splitSign cs
    (readNatural 10 cs).map (signed negative)

/-- The digits after a decimal point, if there is one, and the rest. -/
def readFraction : List Char → Option (List Char × List Char)
  | '.' :: cs =>
    let fraction := cs.takeWhile (!isExponentMark ·)
    (digitRun (isDigitOf 10) fraction).map (·, cs.drop fraction.length)
  | cs => some ([], cs)

/-- The sign, the digits and the power of ten of a finite floating point number, which has a
fraction or an exponent. -/
def readFinite (cs : List Char) : Option (Bool × Nat × Int) := do
  let (negative, cs) := splitSign cs
  let whole := cs.takeWhile fun c => !(c == '.' || isExponentMark c)
  let rest := cs.drop whole.length
  guard (!rest.isEmpty)
  let digits ← readDecimal whole
  let (fraction, rest) ← readFraction rest
  let exponent ← readExponent rest
  return (negative, valueOf 10 (digits ++ fraction), exponent - fraction.length)

/-- A floating point number, as its text if there is a double for it. -/
def readFloat (cs : List Char) : Option (Option String) :=
  match splitSign cs with
  | (true, ['i', 'n', 'f']) => some (some "-inf")
  | (false, ['i', 'n', 'f']) => some (some "inf")
  | (_, ['n', 'a', 'n']) => some (some "NaN")
  | _ =>
    (readFinite cs).map fun (negative, digits, exponent) =>
      (Decimal.Double.ofDecimal? digits exponent).map (Decimal.Style.plain.text negative)

end SoliditySource.Toml.Number
