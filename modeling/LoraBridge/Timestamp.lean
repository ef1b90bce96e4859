import LoraBridge.Text.Blank

/-! Points in time in UTC. They are written as in RFC 3339 and read from a
relaxed form of it: blanks may stand before every number, numbers may be short,
and the date and the time may be separated by a blank. -/
namespace LoraBridge

/-- A point in time: the day, counted from 1970-01-01, the second of the day and
the nanosecond, which passes `10 ^ 9` inside a leap second. -/
structure Timestamp where
  day : Int
  second : Nat
  nano : Nat
deriving DecidableEq

namespace Timestamp

structure Date where
  year : Int
  month : Nat
  day : Nat
deriving DecidableEq

def isLeap (year : Int) : Bool :=
  year % 4 == 0 && (year % 100 != 0 || year % 400 == 0)

def daysInMonth (year : Int) (month : Nat) : Nat :=
  match month with
  | 2 => if isLeap year then 29 else 28
  | 4 | 6 | 9 | 11 => 30
  | _ => 31

def firstYear : Int := -262143
def lastYear : Int := 262142

def Date.valid (d : Date) : Bool :=
  firstYear ≤ d.year && d.year ≤ lastYear && 1 ≤ d.month && d.month ≤ 12 &&
  1 ≤ d.day && d.day ≤ daysInMonth d.year d.month

/-- The day number of a date: years are taken to begin in March, so that the
leap day ends them. -/
def Date.number (d : Date) : Int :=
  let y := if d.month ≤ 2 then d.year - 1 else d.year
  let m : Int := (d.month + 9) % 12
  365 * y + y / 4 - y / 100 + y / 400 + (153 * m + 2) / 5 + (d.day : Int) - 1 - 719468

def Date.ofNumber (n : Int) : Date :=
  let z := n + 719468
  let era := z / 146097
  let doe := z % 146097
  let yoe := (doe - doe / 1460 + doe / 36524 - doe / 146096) / 365
  let doy := doe - (365 * yoe + yoe / 4 - yoe / 100)
  let mp := (5 * doy + 2) / 153
  let day := doy - (153 * mp + 2) / 5 + 1
  let month := if mp < 10 then mp + 3 else mp - 9
  let year := yoe + era * 400 + (if month ≤ 2 then 1 else 0)
  ⟨year, month.toNat, day.toNat⟩

def padded (width n : Nat) : List Char :=
  let ds := Nat.toDigits 10 n
  List.replicate (width - ds.length) '0' ++ ds

/-- Years outside `0` to `9999` have a sign. -/
def yearText (y : Int) : List Char :=
  if 0 ≤ y ∧ y ≤ 9999 then padded 4 y.toNat
  else (if y < 0 then '-' else '+') :: padded 4 y.natAbs

def fractionText (nano : Nat) : List Char :=
  if nano = 0 then []
  else if nano % 1000000 = 0 then '.' :: padded 3 (nano / 1000000)
  else if nano % 1000 = 0 then '.' :: padded 6 (nano / 1000)
  else '.' :: padded 9 nano

def chars (t : Timestamp) : List Char :=
  let d := Date.ofNumber t.day
  let leap := t.nano / 1000000000
  yearText d.year ++ '-' :: padded 2 d.month ++ '-' :: padded 2 d.day ++
    'T' :: padded 2 (t.second / 3600) ++ ':' :: padded 2 (t.second / 60 % 60) ++
    ':' :: padded 2 (t.second % 60 + leap) ++ fractionText (t.nano % 1000000000) ++ ['Z']

def text (t : Timestamp) : String :=
  String.ofList t.chars

def skipBlank (cs : List Char) : List Char :=
  cs.dropWhile Text.isBlank

def digitsValue (ds : List Char) : Nat :=
  ds.foldl (fun n c => 10 * n + (c.toNat - 48)) 0

def number? (width : Nat) (cs : List Char) : Option (Nat × List Char) :=
  let ds := (cs.take width).takeWhile Char.isDigit
  if ds.isEmpty then none else some (digitsValue ds, cs.drop ds.length)

def longNumber? (cs : List Char) : Option (Nat × List Char) :=
  let ds := cs.takeWhile Char.isDigit
  if ds.isEmpty || 0x8000000000000000 ≤ digitsValue ds then none else some (digitsValue ds, cs.drop ds.length)

/-- A year of up to four digits, or with a sign of any number of digits. -/
def year? (cs : List Char) : Option (Int × List Char) :=
  match skipBlank cs with
  | '-' :: cs => (longNumber? cs).map fun (n, r) => (-(n : Int), r)
  | '+' :: cs => (longNumber? cs).map fun (n, r) => ((n : Int), r)
  | cs => (number? 4 cs).map fun (n, r) => ((n : Int), r)

def field? (cs : List Char) : Option (Nat × List Char) :=
  number? 2 (skipBlank cs)

def mark? (c : Char) (cs : List Char) : Option (List Char) :=
  match skipBlank cs with
  | d :: r => if d = c then some r else none
  | [] => none

/-- A point and the digits of a fraction, of which nine count. -/
def fraction? (cs : List Char) : Option (Nat × List Char) :=
  match cs with
  | '.' :: cs =>
    let ds := cs.takeWhile Char.isDigit
    if ds.isEmpty then none
    else
      let used := ds.take 9
      some (digitsValue used * Nat.pow 10 (9 - used.length), cs.drop ds.length)
  | cs => some (0, cs)

def pair? (cs : List Char) : Option (Nat × List Char) :=
  match cs with
  | a :: b :: r => if a.isDigit && b.isDigit then some (digitsValue [a, b], r) else none
  | _ => none

def offset? (cs : List Char) : Option (Int × List Char) :=
  let signed (sign : Int) (cs : List Char) : Option (Int × List Char) := do
    let (h, cs) ← pair? cs
    let (m, cs) ← pair? (cs.dropWhile fun c => c == ':' || Text.isBlank c)
    if m < 60 then some (sign * (h * 3600 + m * 60), cs) else none
  match cs with
  | 'Z' :: r | 'z' :: r => some (0, r)
  | '+' :: r => signed 1 r
  | '-' :: r => signed (-1) r
  | '\u2212' :: r => signed (-1) r
  | a :: b :: c :: r =>
    if [a, b, c].map Char.toLower = ['u', 't', 'c'] then some (0, r) else none
  | _ => none

/-- The point in time of a local date and time and its distance from UTC. A
sixtieth second is a leap second. -/
def assemble? (date : Date) (h m s nano : Nat) (offset : Int) : Option Timestamp :=
  if date.valid && h < 24 && m < 60 && s ≤ 60 && offset.natAbs < 86400 then
    let (s, nano) := if s = 60 then (59, nano + 1000000000) else (s, nano)
    let total : Int := date.number * 86400 + h * 3600 + m * 60 + s - offset
    let day := total / 86400
    let year := (Date.ofNumber day).year
    if firstYear ≤ year ∧ year ≤ lastYear then some ⟨day, (total % 86400).toNat, nano⟩ else none
  else none

def parse? (text : List Char) : Option Timestamp := do
  let (year, cs) ← year? text
  let cs ← mark? '-' cs
  let (month, cs) ← field? cs
  let cs ← mark? '-' cs
  let (day, cs) ← field? cs
  let cs ← match cs with
    | 'T' :: r | 't' :: r | ' ' :: r => some r
    | _ => none
  let (h, cs) ← field? cs
  let cs ← mark? ':' cs
  let (m, cs) ← field? cs
  let cs ← mark? ':' cs
  let (s, cs) ← field? cs
  let (nano, cs) ← fraction? cs
  let (offset, cs) ← offset? (skipBlank cs)
  if (skipBlank cs).isEmpty then assemble? ⟨year, month, day⟩ h m s nano offset else none

end Timestamp

end LoraBridge
