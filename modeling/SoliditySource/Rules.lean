import SoliditySource.OrderedMap
import SoliditySource.Text.Search

/-! Literal replacement rules for rendered text. Rules are keyed by the text they look for and run
in the order in which those texts were first given; each replaces the first occurrence only, and
works on the output of the rule before it. -/

namespace SoliditySource

structure Rules where
  byPattern : OrderedMap String String := {}
deriving DecidableEq, Repr

namespace Rules

/-- A rule that looks for the empty text is not taken. -/
def insert (rules : Rules) (pattern replacement : String) : Rules :=
  if pattern.isEmpty then rules else ⟨rules.byPattern.insert pattern replacement⟩

def clear (_ : Rules) : Rules :=
  {}

def size (rules : Rules) : Nat :=
  rules.byPattern.size

def isEmpty (rules : Rules) : Bool :=
  rules.byPattern.isEmpty

def toList (rules : Rules) : List (String × String) :=
  rules.byPattern.entries

/-- The effect of one rule. -/
def applyOne (text : String) (rule : String × String) : String :=
  String.ofList (Text.replaceFirst rule.1.toList rule.2.toList text.toList)

def apply (rules : Rules) (text : String) : String :=
  rules.toList.foldl applyOne text

end Rules

end SoliditySource
