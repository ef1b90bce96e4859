import LoraBridge.Double.Basic

/-! The shortest decimal of a number: on the coarsest decimal grid that has a
point reading back as the number, the point nearest to it. -/
namespace LoraBridge.Double

structure Decimal where
  digits : Nat
  exponent : Int
deriving DecidableEq

def tens (n : Nat) (e : Int) : Nat × Nat :=
  if 0 ≤ e then (n * Nat.pow 10 e.toNat, 1) else (n, Nat.pow 10 (-e).toNat)

/-- The middle to the lower neighbour, as a mantissa for the exponent less two;
below a power of two the gap is half as wide. -/
def lowerEnd (x : Double) : Nat :=
  if x.mantissa = 0x10000000000000 ∧ -1074 < x.exponent then 4 * x.mantissa - 1 else 4 * x.mantissa - 2

def upperEnd (x : Double) : Nat :=
  4 * x.mantissa + 2

/-- Whether a decimal lies where numbers round to this magnitude: between the
middles to both neighbours, themselves included when the mantissa is even. -/
def roundsHere (x : Double) (d : Decimal) : Bool :=
  let (n, m) := tens d.digits d.exponent
  let (a, b) := scaled x.lowerEnd (x.exponent - 2)
  let (c, e) := scaled x.upperEnd (x.exponent - 2)
  if x.mantissa % 2 = 0 then a * m ≤ n * b && n * e ≤ c * m
  else a * m < n * b && n * e < c * m

/-- The point of the grid of `10 ^ e` nearest to the magnitude, a half going to
the even one, if it reads back, else its neighbour on the other side. -/
def onGrid? (x : Double) (e : Int) : Option Decimal :=
  let (a, b) := x.magnitude
  let (p, q) := tens 1 e
  let num := a * q
  let den := b * p
  let near := roundQuotient num den
  let other := if near = num / den then near + 1 else num / den
  if x.roundsHere ⟨near, e⟩ then some ⟨near, e⟩
  else if x.roundsHere ⟨other, e⟩ then some ⟨other, e⟩
  else none

def grids : List Int :=
  (List.range 633).map fun i : Nat => (308 : Int) - i

/-- The shortest decimal that reads back as a magnitude other than zero. -/
def shortest (x : Double) : Decimal :=
  (grids.findSome? x.onGrid?).getD ⟨x.mantissa, 0⟩

def Decimal.text (d : Decimal) : List Char :=
  Nat.toDigits 10 d.digits

end LoraBridge.Double
