/-! IPv6 addresses in URLs: reading their text and writing the shortest one. -/
namespace LoraBridge.Address.Ipv6

def hexValue? (c : Char) : Option Nat :=
  if c.isDigit then some (c.toNat - 48)
  else if 'a' ≤ c ∧ c ≤ 'f' then some (c.toNat - 87)
  else if 'A' ≤ c ∧ c ≤ 'F' then some (c.toNat - 55)
  else none

def isHex (c : Char) : Bool := (hexValue? c).isSome

def hexNumber (cs : List Char) : Nat :=
  cs.foldl (fun n c => 16 * n + (hexValue? c).getD 0) 0

/-- A decimal number of a dotted address: below 256, without leading zeros. -/
def octet? (cs : List Char) : Option (Nat × List Char) :=
  let ds := cs.takeWhile Char.isDigit
  let n := ds.foldl (fun n c => 10 * n + (c.toNat - 48)) 0
  match ds with
  | [] => none
  | '0' :: _ :: _ => none
  | _ => if n < 256 then some (n, cs.drop ds.length) else none

def dotted? (cs : List Char) : Option (List Nat) := do
  let dot : List Char → Option (List Char)
    | '.' :: r => some r
    | _ => none
  let (a, cs) ← octet? cs
  let (b, cs) ← octet? (← dot cs)
  let (c, cs) ← octet? (← dot cs)
  let (d, cs) ← octet? (← dot cs)
  if cs.isEmpty then some [a * 256 + b, c * 256 + d] else none

/-- Pieces read so far, and the place where zeros were left out. -/
structure Pieces where
  before : List Nat
  gap : Option Nat

/-- Fill the gap with zeros; without a gap there have to be eight pieces. -/
def Pieces.complete? (p : Pieces) : Option (List Nat) :=
  match p.gap with
  | some gap =>
    some (p.before.take gap ++ List.replicate (8 - p.before.length) 0 ++ p.before.drop gap)
  | none => if p.before.length = 8 then some p.before else none

/-- Read pieces while the text lasts. The gap counts as a piece while reading. -/
def readPieces (fuel : Nat) (p : Pieces) (cs : List Char) : Option Pieces :=
  let count := p.before.length + (if p.gap.isSome then 1 else 0)
  match fuel, cs with
  | _, [] => some p
  | 0, _ => none
  | fuel + 1, c :: r =>
    if count = 8 then none
    else if c = ':' then
      if p.gap.isSome then none else readPieces fuel { p with gap := some p.before.length } r
    else
      let ds := ((c :: r).take 4).takeWhile isHex
      let piece := { p with before := p.before ++ [hexNumber ds] }
      match (c :: r).drop ds.length with
      | [] => some piece
      | '.' :: _ =>
        if ds.isEmpty || 6 < count then none
        else (dotted? (c :: r)).map fun ns => { p with before := p.before ++ ns }
      | ':' :: more => if more.isEmpty then none else readPieces fuel piece more
      | _ => none

def parse? (cs : List Char) : Option (List Nat) :=
  match cs with
  | ':' :: ':' :: r => (readPieces r.length ⟨[], some 0⟩ r).bind Pieces.complete?
  | ':' :: _ => none
  | [] => none
  | [_] => none
  | cs => (readPieces cs.length ⟨[], none⟩ cs).bind Pieces.complete?

def zeros (ns : List Nat) : Nat :=
  (ns.takeWhile (· == 0)).length

def longestZeros : Nat → List Nat → Nat × Nat
  | _, [] => (0, 0)
  | i, n :: ns =>
    let here := zeros (n :: ns)
    let (start, length) := longestZeros (i + 1) ns
    if length ≤ here then (i, here) else (start, length)

def joinPieces (ns : List Nat) : List Char :=
  [':'].intercalate (ns.map (Nat.toDigits 16))

/-- The text of eight pieces: the first longest run of at least two zeros is left
out. -/
def chars (ns : List Nat) : List Char :=
  let (start, length) := longestZeros 0 ns
  if length < 2 then joinPieces ns
  else joinPieces (ns.take start) ++ [':', ':'] ++ joinPieces (ns.drop (start + length))

end LoraBridge.Address.Ipv6
