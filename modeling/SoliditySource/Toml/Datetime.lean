/-! Dates and times of TOML: a date, a time of day, or both, and then perhaps an offset from UTC. -/

namespace SoliditySource.Toml

structure Date where
  year : Nat
  month : Nat
  day : Nat
deriving DecidableEq, Repr

structure Time where
  hour : Nat
  minute : Nat
  second : Nat
  nanosecond : Nat
deriving DecidableEq, Repr

/-- The offset `Z`, or a number of minutes. -/
inductive Offset where
  | utc
  | minutes (count : Int)
deriving DecidableEq, Repr

inductive Datetime where
  | date (date : Date)
  | time (time : Time)
  | both (date : Date) (time : Time) (offset : Option Offset)
deriving DecidableEq, Repr

namespace Datetime

def isLeapYear (year : Nat) : Bool :=
  year % 4 = 0 && (year % 100 ≠ 0 || year % 400 = 0)

def daysInMonth (year month : Nat) : Nat :=
  match month with
  | 2 => if isLeapYear year then 29 else 28
  | 4 => 30
  | 6 => 30
  | 9 => 30
  | 11 => 30
  | _ => 31

def numberOf (digits : List Char) : Nat :=
  digits.foldl (fun n c => n * 10 + (c.toNat - '0'.toNat)) 0

/-- What the text of a datetime is made of. A run of digits is one token, and so is all that follows
from a character on that has no place in such a text. -/
inductive Token where
  | digits (run : List Char)
  | dash
  | colon
  | point
  | plus
  | space
  | letterT
  | letterZ
  | other
deriving DecidableEq, Repr

def tokens : List Char → List Token
  | [] => []
  | c :: cs =>
    if c.isDigit then
      match tokens cs with
      | .digits run :: rest => .digits (c :: run) :: rest
      | rest => .digits [c] :: rest
    else
      match c with
      | '-' => .dash :: tokens cs
      | ':' => .colon :: tokens cs
      | '.' => .point :: tokens cs
      | '+' => .plus :: tokens cs
      | ' ' => .space :: tokens cs
      | 'T' => .letterT :: tokens cs
      | 't' => .letterT :: tokens cs
      | 'Z' => .letterZ :: tokens cs
      | 'z' => .letterZ :: tokens cs
      | _ => [.other]

/-- The part of a datetime in which a text goes wrong. -/
inductive Part where
  | whole
  | date
  | separator
  | time
  | offset
deriving DecidableEq, Repr

def Part.text : Part → String
  | whole => "datetime"
  | date => "date"
  | separator => "date-time"
  | time => "time"
  | offset => "offset"

/-- Why a text is not a datetime. -/
structure Problem where
  part : Part
  expected : Option String := none
deriving DecidableEq, Repr

def Problem.message (problem : Problem) : String :=
  "invalid " ++ problem.part.text ++
    match problem.expected with
    | none => ""
    | some expected => ", expected " ++ expected

def readRun (part : Part) (expected : String) : List Token → Except Problem (List Char × List Token)
  | .digits run :: ts => .ok (run, ts)
  | _ => .error ⟨part, some expected⟩

def readMark (mark : Token) (part : Part) (expected : String) :
    List Token → Except Problem (List Token)
  | [] => .error ⟨part, some expected⟩
  | t :: ts => if t = mark then .ok ts else .error ⟨part, some expected⟩

def ensure (condition : Bool) (part : Part) (expected : String) : Except Problem Unit :=
  if condition then .ok () else .error ⟨part, some expected⟩

/-- The rest of a date whose year is read. -/
def readDate (year : List Char) (ts : List Token) : Except Problem (Date × List Token) := do
  let (month, ts) ← readRun .date "month" ts
  let ts ← readMark .dash .date "`-` (MM-DD)" ts
  let (day, ts) ← readRun .date "day" ts
  ensure (year.length = 4) .date "a four-digit year (YYYY)"
  ensure (month.length = 2) .date "a two-digit month (MM)"
  ensure (day.length = 2) .date "a two-digit day (DD)"
  let date : Date := ⟨numberOf year, numberOf month, numberOf day⟩
  ensure (1 ≤ date.month && date.month ≤ 12) .date "month between 01 and 12"
  let last := daysInMonth date.year date.month
  ensure (1 ≤ date.day && date.day ≤ last) .date ("day between 01 and " ++ toString last)
  return (date, ts)

/-- The seconds and the digits of their fraction. The seconds may be missing, and then count as
zero. -/
def readSeconds : List Token → Except Problem (List Char × List Char × List Token)
  | .colon :: ts => do
    let (second, ts) ← readRun .time "second" ts
    match ts with
    | .point :: ts =>
      let (fraction, ts) ← readRun .time "nanosecond" ts
      return (second, fraction, ts)
    | ts => return (second, [], ts)
  | ts => .ok (['0', '0'], [], ts)

/-- The digits of a fraction of a second after the ninth are dropped. -/
def nanoseconds (fraction : List Char) : Nat :=
  numberOf (fraction.take 9 ++ List.replicate (9 - fraction.length) '0')

def readTime (ts : List Token) : Except Problem (Time × List Token) := do
  let (hour, ts) ← readRun .time "hour" ts
  let ts ← readMark .colon .time "`:` (HH:MM)" ts
  let (minute, ts) ← readRun .time "minute" ts
  let (second, fraction, ts) ← readSeconds ts
  ensure (hour.length = 2) .time "a two-digit hour (HH)"
  ensure (minute.length = 2) .time "a two-digit minute (MM)"
  ensure (second.length = 2) .time "a two-digit second (SS)"
  let time : Time := ⟨numberOf hour, numberOf minute, numberOf second, nanoseconds fraction⟩
  ensure (time.hour ≤ 23) .time "hour between 00 and 23"
  ensure (time.minute ≤ 59) .time "minute between 00 and 59"
  ensure (time.second ≤ 60) .time "second between 00 and 60"
  return (time, ts)

def readOffsetMinutes (ts : List Token) : Except Problem (Nat × List Token) := do
  let (hours, ts) ← readRun .offset "hour" ts
  let ts ← readMark .colon .offset "`:` (HH:MM)" ts
  let (minutes, ts) ← readRun .offset "minute" ts
  ensure (hours.length = 2) .offset "a two-digit hour (HH)"
  ensure (minutes.length = 2) .offset "a two-digit minute (MM)"
  ensure (numberOf hours ≤ 23) .offset "hours between 00 and 23"
  ensure (numberOf minutes ≤ 59) .offset "minutes between 00 and 59"
  return (numberOf hours * 60 + numberOf minutes, ts)

/-- The offset after a date and a time; there may be none. -/
def readOffset : List Token → Except Problem (Option Offset × List Token)
  | [] => .ok (none, [])
  | .letterZ :: ts => .ok (some .utc, ts)
  | .plus :: ts => do
    let (count, ts) ← readOffsetMinutes ts
    return (some (.minutes count), ts)
  | .dash :: ts => do
    let (count, ts) ← readOffsetMinutes ts
    return (some (.minutes (-count)), ts)
  | _ => .error ⟨.offset, some "`Z`, +OFFSET, -OFFSET"⟩

/-- Nothing may follow a datetime. -/
def atEnd (d : Datetime) (ts : List Token) : Except Problem Datetime :=
  if ts.isEmpty then .ok d else .error ⟨.whole, none⟩

/-- What follows a date: a time, after the letter T or a space, and perhaps an offset. -/
def readAfterDate (d : Date) (ts : List Token) : Except Problem Datetime := do
  match ts with
  | [] => return .date d
  | mark :: ts =>
    ensure (mark = .letterT || mark = .space) .separator "`T` between date and time"
    let (t, ts) ← readTime ts
    let (offset, ts) ← readOffset ts
    atEnd (.both d t offset) ts

/-- Reads a whole text. -/
def read (cs : List Char) : Except Problem Datetime := do
  match tokens cs with
  | .digits year :: .dash :: ts =>
    let (d, ts) ← readDate year ts
    readAfterDate d ts
  | .digits hour :: .colon :: ts =>
    let (t, ts) ← readTime (.digits hour :: .colon :: ts)
    atEnd (.time t) ts
  | .digits _ :: _ => .error ⟨.whole, some "`-` (YYYY-MM) or `:` (HH:MM)"⟩
  | _ => .error ⟨.whole, some "year or hour"⟩

/-- A number with at least `width` digits. -/
def padded (width n : Nat) : List Char :=
  let digits := Nat.toDigits 10 n
  List.replicate (width - digits.length) '0' ++ digits

def dateText (d : Date) : List Char :=
  padded 4 d.year ++ '-' :: padded 2 d.month ++ '-' :: padded 2 d.day

def fractionText (nanosecond : Nat) : List Char :=
  if nanosecond = 0 then []
  else '.' :: ((padded 9 nanosecond).reverse.dropWhile (· == '0')).reverse

def timeText (t : Time) : List Char :=
  padded 2 t.hour ++ ':' :: padded 2 t.minute ++ ':' :: padded 2 t.second ++
    fractionText t.nanosecond

def offsetText : Offset → List Char
  | .utc => ['Z']
  | .minutes m =>
    (if m < 0 then '-' else '+') :: padded 2 (m.natAbs / 60) ++ ':' :: padded 2 (m.natAbs % 60)

def chars : Datetime → List Char
  | date d => dateText d
  | time t => timeText t
  | both d t offset => dateText d ++ 'T' :: timeText t ++ (offset.map offsetText).getD []

def text (d : Datetime) : String :=
  String.ofList d.chars

end Datetime

end SoliditySource.Toml
