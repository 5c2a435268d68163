import SoliditySource.Text.Printable

/-! Quoted text as it is shown to people: in double quotes, with a backslash before quotes and
backslashes, short names for common controls, and the number of every other character that does not
show by itself. -/

namespace SoliditySource.Text

def hexDigit (n : Nat) : Char :=
  if n < 10 then Char.ofNat (0x30 + n) else Char.ofNat (0x61 + n - 10)

/-- The hexadecimal digits of a number below `16 ^ places`, without leading zeros. -/
def hexDigits : Nat → Nat → List Char
  | 0, _ => []
  | places + 1, n =>
    if n < 16 then [hexDigit n] else hexDigits places (n / 16) ++ [hexDigit (n % 16)]

def quotedChar (c : Char) : List Char :=
  if c = '"' then ['\\', '"']
  else if c = '\\' then ['\\', '\\']
  else if c = '\n' then ['\\', 'n']
  else if c = '\r' then ['\\', 'r']
  else if c = '\t' then ['\\', 't']
  else if c.toNat = 0 then ['\\', '0']
  else if isPrintable c then [c]
  else ['\\', 'u', '{'] ++ hexDigits 6 c.toNat ++ ['}']

def quoted (s : String) : String :=
  String.ofList ('"' :: s.toList.flatMap quotedChar ++ ['"'])

end SoliditySource.Text
