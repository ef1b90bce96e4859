import LoraBridge.Double.Basic
import LoraBridge.Toml.Value

/-! Numbers, dates and truth values of TOML. A word is read as a whole: it runs up
to the next blank, line end, comma, bracket or comment. -/
namespace LoraBridge.Toml

def digits? (isDigit : Char → Bool) : List Char → Option (List Char)
  | [] => none
  | [c] => if isDigit c then some [c] else none
  | c :: '_' :: r => if isDigit c then (digits? isDigit r).map (c :: ·) else none
  | c :: r => if isDigit c then (digits? isDigit r).map (c :: ·) else none

def isBase (base : Nat) (c : Char) : Bool :=
  (c.isDigit && c.toNat - 48 < base) ||
  (base == 16 && (('a' ≤ c && c ≤ 'f') || ('A' ≤ c && c ≤ 'F')))

def digitValue (c : Char) : Nat :=
  if c.isDigit then c.toNat - 48 else c.toLower.toNat - 87

def valueOf (base : Nat) (ds : List Char) : Nat :=
  ds.foldl (fun n c => base * n + digitValue c) 0

def sign : List Char → Bool × List Char
  | '-' :: r => (true, r)
  | '+' :: r => (false, r)
  | cs => (false, cs)

def decimal? (cs : List Char) : Option (List Char) :=
  match cs with
  | '0' :: _ :: _ => none
  | cs => digits? Char.isDigit cs

/-- An integer of 64 bits; only a decimal one has a sign. -/
def integer? (word : List Char) : Option Int :=
  let unsigned (base : Nat) (cs : List Char) : Option Int := do
    let n := valueOf base (← digits? (isBase base) cs)
    if n < 0x8000000000000000 then some n else none
  match word with
  | '0' :: 'x' :: r => unsigned 16 r
  | '0' :: 'o' :: r => unsigned 8 r
  | '0' :: 'b' :: r => unsigned 2 r
  | word => do
    let (negative, r) := sign word
    let n : Int := valueOf 10 (← decimal? r)
    let n := if negative then -n else n
    if -0x8000000000000000 ≤ n ∧ n < 0x8000000000000000 then some n else none

def tooLarge (significand : Nat) (exponent : Int) : Bool :=
  if significand = 0 then false
  else if exponent + (Nat.toDigits 10 significand).length < 300 then false
  else if 400 < exponent + (Nat.toDigits 10 significand).length then true
  else if 0 ≤ exponent then (Double.ofQuotient? false (significand * Nat.pow 10 exponent.toNat) 1).isNone
  else (Double.ofQuotient? false significand (Nat.pow 10 exponent.natAbs)).isNone

/-- Whether a word is a floating point number: with a fraction or an exponent, or
one of the names. A positive number must not be too large. -/
def isFloat (word : List Char) : Bool :=
  let (negative, r) := sign word
  if r = ['i', 'n', 'f'] || r = ['n', 'a', 'n'] then true else
  let mantissa := r.takeWhile fun c => c != 'e' && c != 'E'
  let whole := mantissa.takeWhile (· != '.')
  let fraction : Option (Option (List Char)) := match mantissa.drop whole.length with
    | [] => some none
    | _ :: ds => (digits? Char.isDigit ds).map some
  let exponent : Option (Option (Bool × List Char)) := match r.drop mantissa.length with
    | [] => some none
    | _ :: e => (digits? Char.isDigit (sign e).2).map fun ds => some ((sign e).1, ds)
  match decimal? whole, fraction, exponent with
  | some _, some none, some none => false
  | some w, some f, some e =>
    let f := f.getD []
    let e : Int := match e with
      | none => 0
      | some (true, ds) => -(valueOf 10 ds : Int)
      | some (false, ds) => valueOf 10 ds
    negative || !tooLarge (valueOf 10 (w ++ f)) (e - f.length)
  | _, _, _ => false

def two? (low high : Nat) (cs : List Char) : Option (Nat × List Char) :=
  match cs with
  | a :: b :: r =>
    let n := valueOf 10 [a, b]
    if a.isDigit && b.isDigit && low ≤ n && n ≤ high then some (n, r) else none
  | _ => none

def char? (c : Char) (cs : List Char) : Option (List Char) :=
  match cs with
  | d :: r => if d = c then some r else none
  | [] => none

def date? (cs : List Char) : Option (List Char) := do
  let year := cs.take 4
  if year.length < 4 || !year.all Char.isDigit then none
  let y := valueOf 10 year
  let cs ← char? '-' (cs.drop 4)
  let (m, cs) ← two? 1 12 cs
  let cs ← char? '-' cs
  let days := match m with
    | 2 => if y % 4 = 0 && (y % 100 ≠ 0 || y % 400 = 0) then 29 else 28
    | 4 | 6 | 9 | 11 => 30
    | _ => 31
  let (_, cs) ← two? 1 days cs
  some cs

def time? (cs : List Char) : Option (List Char) := do
  let (_, cs) ← two? 0 23 cs
  let cs ← char? ':' cs
  let (_, cs) ← two? 0 59 cs
  let cs ← char? ':' cs
  let (_, cs) ← two? 0 60 cs
  match cs with
  | '.' :: r =>
    if (r.takeWhile Char.isDigit).isEmpty then none else some (r.dropWhile Char.isDigit)
  | cs => some cs

def offset? (cs : List Char) : Option (List Char) :=
  let numeric (r : List Char) : Option (List Char) := do
    let (_, r) ← two? 0 23 r
    let r ← char? ':' r
    let (_, r) ← two? 0 59 r
    some r
  match cs with
  | 'Z' :: r | 'z' :: r => some r
  | '+' :: r | '-' :: r => numeric r
  | cs => some cs

/-- A date, a time, or both; a blank may stand between them. The text behind it is
returned. -/
def dateTime? (cs : List Char) : Option (List Char) :=
  match date? cs with
  | some r =>
    match r with
    | 'T' :: t | 't' :: t | ' ' :: t =>
      match time? t with
      | some behind => offset? behind
      | none => some r
    | r => some r
  | none => time? cs

def endsWord (c : Char) : Bool :=
  [' ', '\t', '\n', '\r', ',', ']', '\x7d', '#'].contains c

def scalar? (cs : List Char) : Option (Value × List Char) :=
  let word := cs.takeWhile fun c => !endsWord c
  let rest := cs.dropWhile fun c => !endsWord c
  match dateTime? cs with
  | some behind =>
    if (behind.takeWhile fun c => !endsWord c).isEmpty then
      some (.other (cs.take (cs.length - behind.length)), behind)
    else none
  | none =>
    if word = ['t', 'r', 'u', 'e'] then some (.boolean true, rest)
    else if word = ['f', 'a', 'l', 's', 'e'] then some (.boolean false, rest)
    else if isFloat word then some (.other word, rest)
    else (integer? word).map fun n => (.integer n, rest)

end LoraBridge.Toml
