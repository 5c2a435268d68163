/-! Decimal texts of binary floating point numbers. A decimal is rounded to the nearest double, and
a double is written with the fewest digits that read back as it. A style settles the rest: which of
two equally near decimals is taken, and when an exponent is written. All arithmetic is on natural
numbers; a power with a negative exponent is put on the other side of the fraction. -/

namespace SoliditySource.Decimal

/-- The number `mantissa * 2 ^ exponent`, where the mantissa has at most 53 bits and the exponent is
between -1074 and 971. -/
structure Double where
  mantissa : Nat
  exponent : Int
deriving DecidableEq, Repr

/-- The natural number nearest to `num / den`; of two equally near ones the even one. -/
def roundQuotient (num den : Nat) : Nat :=
  let q := num / den
  let r := num % den
  if 2 * r < den ∨ (2 * r = den ∧ q % 2 = 0) then q else q + 1

/-- The double nearest to a fraction, unless it is too large for any. -/
def Double.ofFraction? (num den : Nat) : Option Double :=
  if num = 0 then some ⟨0, -1074⟩
  else
    let guess : Int := (num.log2 : Int) - den.log2 - 53
    let fits := num * Nat.pow 2 (-guess).toNat < den * Nat.pow 2 guess.toNat * Nat.pow 2 53
    let exponent := max (-1074) (if fits then guess else guess + 1)
    let mantissa :=
      roundQuotient (num * Nat.pow 2 (-exponent).toNat) (den * Nat.pow 2 exponent.toNat)
    let double : Double :=
      if mantissa = Nat.pow 2 53 then ⟨Nat.pow 2 52, exponent + 1⟩ else ⟨mantissa, exponent⟩
    if double.exponent ≤ 971 then some double else none

def digitCount (n : Nat) : Nat :=
  (Nat.toDigits 10 n).length

/-- The double nearest to `digits * 10 ^ exponent`, unless it is too large for any. Exponents out of
reach of all doubles are settled without computing the power. -/
def Double.ofDecimal? (digits : Nat) (exponent : Int) : Option Double :=
  let places := digitCount digits + exponent
  if digits = 0 ∨ places < -400 then some ⟨0, -1074⟩
  else if 400 < places then none
  else ofFraction? (digits * Nat.pow 10 exponent.toNat) (Nat.pow 10 (-exponent).toNat)

/-- The power of ten just above a positive fraction. -/
def magnitude (num den : Nat) : Int :=
  if den ≤ num then digitCount (num / den)
  else 1 - (((List.range 400).find? fun k => den ≤ num * Nat.pow 10 k).getD 0 : Nat)

structure Style where
  /-- Of two equally near decimals the one with an even last digit is taken, not the greater one. -/
  tiesToEven : Bool
  /-- The first digits, by their powers of ten, of the numbers that are written without an exponent.
  All numbers are if there are no bounds. -/
  withoutExponent : Option (Int × Int)
deriving DecidableEq, Repr

/-- There is never an exponent. -/
def Style.plain : Style := ⟨false, none⟩

/-- There is an exponent when more than four zeros would stand between the point and the first
digit, or more than sixteen digits before the point. -/
def Style.scientific : Style := ⟨true, some (-5, 15)⟩

/-- The decimals with `places` digits next to a positive double that read back as it, the one to be
taken first. A decimal reads back when it is between the middles of the gaps around the double,
which belong to the double if its mantissa is even. -/
def candidates (style : Style) (x : Double) (places : Nat) : List (Nat × Int) :=
  let value := 4 * x.mantissa
  let least := if x.mantissa = Nat.pow 2 52 ∧ -1074 < x.exponent then value - 1 else value - 2
  let greatest := value + 2
  let exponent :=
    magnitude (value * Nat.pow 2 (x.exponent - 2).toNat) (Nat.pow 2 (2 - x.exponent).toNat) - places
  let binaryUnit := Nat.pow 2 (x.exponent - 2).toNat * Nat.pow 10 (-exponent).toNat
  let decimalUnit := Nat.pow 10 exponent.toNat * Nat.pow 2 (2 - x.exponent).toNat
  let readsBack (digits : Nat) : Bool :=
    let point := digits * decimalUnit
    if x.mantissa % 2 = 0 then least * binaryUnit ≤ point && point ≤ greatest * binaryUnit
    else least * binaryUnit < point && point < greatest * binaryUnit
  let below := value * binaryUnit / decimalUnit
  let remainder := 2 * (value * binaryUnit % decimalUnit)
  let isBelow : Bool :=
    remainder < decimalUnit || (style.tiesToEven && remainder == decimalUnit && below % 2 == 0)
  let ordered := if isBelow then [below, below + 1] else [below + 1, below]
  (ordered.filter readsBack).map (·, exponent)

/-- The shortest decimal `(digits, exponent)` that reads back; seventeen digits always do. -/
def Double.shortest (style : Style) (x : Double) : Nat × Int :=
  if x.mantissa = 0 then (0, 0)
  else ((List.range 17).flatMap fun k => candidates style x (k + 1)).head?.getD (0, 0)

def dropFinalZeros (digits : List Char) : List Char :=
  (digits.reverse.dropWhile (· == '0')).reverse

/-- The digits after a point, of which there is at least one. -/
def fractionDigits (digits : List Char) : List Char :=
  match dropFinalZeros digits with
  | [] => ['0']
  | kept => kept

/-- The text of `digits * 10 ^ exponent` with a decimal point and at least one digit on each side.
-/
def positional (digits : Nat) (exponent : Int) : List Char :=
  let shown := Nat.toDigits 10 digits
  if 0 ≤ exponent then shown ++ List.replicate exponent.toNat '0' ++ ['.', '0']
  else
    let after := (-exponent).toNat
    let padded := List.replicate (after + 1 - shown.length) '0' ++ shown
    let before := padded.length - after
    padded.take before ++ '.' :: fractionDigits (padded.drop before)

/-- The power of ten of the first digit of `digits * 10 ^ exponent`. -/
def leadingPower (digits : Nat) (exponent : Int) : Int :=
  digitCount digits - 1 + exponent

/-- The text of `digits * 10 ^ exponent` with one digit before the point, which is left out if no
digit follows it, and a signed exponent. -/
def withExponent (digits : Nat) (exponent : Int) : List Char :=
  let shown := Nat.toDigits 10 digits
  let fraction := dropFinalZeros (shown.drop 1)
  let power := leadingPower digits exponent
  shown.take 1 ++ (if fraction.isEmpty then [] else '.' :: fraction) ++
    ['e', if power < 0 then '-' else '+'] ++ Nat.toDigits 10 power.natAbs

/-- Whether `digits * 10 ^ exponent` is written without an exponent. -/
def Style.isPositional (style : Style) (digits : Nat) (exponent : Int) : Bool :=
  match style.withoutExponent with
  | none => true
  | some (least, greatest) =>
    let power := leadingPower digits exponent
    digits == 0 || (least ≤ power && power ≤ greatest)

def Style.text (style : Style) (negative : Bool) (x : Double) : String :=
  let (digits, exponent) := x.shortest style
  let shown :=
    if style.isPositional digits exponent then positional digits exponent
    else withExponent digits exponent
  String.ofList ((if negative then ['-'] else []) ++ shown)

end SoliditySource.Decimal
