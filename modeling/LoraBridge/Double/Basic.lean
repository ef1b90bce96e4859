/-! Finite binary64 numbers in their only normal form, with the arithmetic that
reading and printing decimals needs. Every result is the exact one rounded to
the nearest representable number, a half going to the even neighbour. -/
namespace LoraBridge

/-- The natural number nearest to a quotient, a half going to the even one. -/
def roundQuotient (num den : Nat) : Nat :=
  let q := num / den
  let r := num % den
  if 2 * r < den || (2 * r == den && q % 2 == 0) then q else q + 1

/-- A finite binary64 number, `mantissa * 2 ^ exponent` with a sign; zero has a
sign too. The mantissa has 53 bits, of which the highest is set unless the
exponent is the least one. -/
structure Double where
  negative : Bool
  mantissa : Nat
  exponent : Int
  normal : (mantissa < 0x20000000000000 ∧ exponent = -1074) ∨
    (0x10000000000000 ≤ mantissa ∧ mantissa < 0x20000000000000 ∧ -1074 < exponent ∧ exponent ≤ 971)
deriving DecidableEq

namespace Double

def zero (negative : Bool) : Double :=
  ⟨negative, 0, -1074, .inl ⟨by decide, rfl⟩⟩

instance : Inhabited Double := ⟨zero false⟩

def isZero (x : Double) : Bool :=
  x.mantissa == 0

def neg (x : Double) : Double :=
  { x with negative := !x.negative }

def ofParts? (negative : Bool) (mantissa : Nat) (exponent : Int) : Option Double :=
  if h : (mantissa < 0x20000000000000 ∧ exponent = -1074) ∨
      (0x10000000000000 ≤ mantissa ∧ mantissa < 0x20000000000000 ∧ -1074 < exponent ∧ exponent ≤ 971) then
    some ⟨negative, mantissa, exponent, h⟩
  else none

def scaled (n : Nat) (e : Int) : Nat × Nat :=
  if 0 ≤ e then (n * Nat.pow 2 e.toNat, 1) else (n, Nat.pow 2 (-e).toNat)

/-- The largest power of two that is not above a positive quotient. -/
def log2Quotient (num den : Nat) : Int :=
  let k := (num.log2 : Int) - (den.log2 : Int)
  let reaches := if 0 ≤ k then den * Nat.pow 2 k.toNat ≤ num else den ≤ num * Nat.pow 2 (-k).toNat
  if reaches then k else k - 1

def lastPlace (num den : Nat) : Int :=
  max (-1074) (log2Quotient num den - 52)

/-- The number nearest to a quotient; none when that is beyond the largest. -/
def ofQuotient? (negative : Bool) (num den : Nat) : Option Double :=
  if num = 0 then some (zero negative) else
  let e := lastPlace num den
  let m := if 0 ≤ e then roundQuotient num (den * Nat.pow 2 e.toNat)
    else roundQuotient (num * Nat.pow 2 (-e).toNat) den
  if m = 0x20000000000000 then ofParts? negative 0x10000000000000 (e + 1) else ofParts? negative m e

def ofInt? (n : Int) : Option Double :=
  ofQuotient? (decide (n < 0)) n.natAbs 1

def magnitude (x : Double) : Nat × Nat :=
  scaled x.mantissa x.exponent

def mul? (x y : Double) : Option Double :=
  let (a, b) := x.magnitude
  let (c, d) := y.magnitude
  ofQuotient? (x.negative != y.negative) (a * c) (b * d)

def div? (x y : Double) : Option Double :=
  let (a, b) := x.magnitude
  let (c, d) := y.magnitude
  ofQuotient? (x.negative != y.negative) (a * d) (b * c)

/-- The number nearest to a power of ten; none from `10 ^ 309` on. -/
def powTen? (k : Nat) : Option Double :=
  if k ≤ 308 then ofQuotient? false (Nat.pow 10 k) 1 else none

end Double

end LoraBridge
