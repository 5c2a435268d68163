import SoliditySource.Text.Alphanumeric
import SoliditySource.Text.Search

/-! Places in the source of a manifest. Decoded tables carry no positions, so places are found by
searching the source for the text that was most likely written there. -/

namespace SoliditySource.Manifest

/-- A range of bytes of the UTF-8 form of the source. -/
structure Span where
  offset : Nat
  length : Nat
deriving DecidableEq, Repr

namespace Span

/-- The range of characters from position `first` on, `count` of them. -/
def ofChars (source : List Char) (first count : Nat) : Span :=
  ⟨Text.byteLength (source.take first), Text.byteLength ((source.drop first).take count)⟩

def declarationHeader : List Char := "[[declarations]]".toList

/-- The header of the declaration number `index`. -/
def header? (source : List Char) (index : Nat) : Option Span :=
  (Text.occurrences declarationHeader source)[index]?.map fun position =>
    ofChars source position declarationHeader.length

/-- The ways to write that `key` has the text `value`. -/
def spellings (key value : List Char) : List (List Char) :=
  [key ++ [' ', '=', ' ', '"'] ++ value ++ ['"'], key ++ ['=', '"'] ++ value ++ ['"'],
    key ++ [' ', '=', ' ', '\''] ++ value ++ ['\''], key ++ ['=', '\''] ++ value ++ ['\'']]

/-- A key does not start in the middle of a longer one. -/
def atKeyStart (source : List Char) (position : Nat) : Bool :=
  match (source.take position).getLast? with
  | none => true
  | some c => !(Text.isAlphanumeric c || c == '_' || c == '-')

/-- All places where the text `value` is given to `key`, without the quotes, in source order. -/
def assignments (source key value : List Char) : List Span :=
  let spans := (spellings key value).flatMap fun spelling =>
    ((Text.occurrences spelling source).filter (atKeyStart source)).map fun position =>
      ofChars source (position + spelling.length - value.length - 1) value.length
  spans.mergeSort fun a b => a.offset ≤ b.offset

def assignment? (source key value : List Char) : Option Span :=
  (assignments source key value).head?

/-- The first place inside the declaration number `index` where the text `value` is given to `key`,
or else the header of that declaration. -/
def declarationAssignment? (source : List Char) (index : Nat) (key value : List Char) :
    Option Span :=
  let headers := Text.occurrences declarationHeader source
  match headers[index]? with
  | none => none
  | some start =>
    let stop := headers[index + 1]?.getD source.length
    match assignment? ((source.take stop).drop start) key value with
    | some span => some { span with offset := Text.byteLength (source.take start) + span.offset }
    | none => header? source index

end Span

end SoliditySource.Manifest
