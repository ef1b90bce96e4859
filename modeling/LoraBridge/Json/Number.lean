import LoraBridge.Json.Token
import LoraBridge.Json.Value

/-! The number that a numeral denotes. Whole numerals that fit 64 bits are kept
exactly; all others become a binary64 number by scaling the significant digits
that fit an unsigned word with one power of ten, so the last place of a long
numeral need not be the nearest one. -/
namespace LoraBridge.Json

inductive Number where
  | integer (n : WideInt)
  | float (x : Double)
deriving DecidableEq

namespace Numeral

/-- Collect decimal digits behind a number while the result fits an unsigned
word; the second part counts the digits used, the third holds the others. -/
def fill (n : Nat) : List Nat → Nat × Nat × List Nat
  | [] => (n, 0, [])
  | d :: ds =>
    if 10 * n + d < 0x10000000000000000 then
      let (m, used, rest) := fill (10 * n + d) ds
      (m, used + 1, rest)
    else (n, 0, d :: ds)

def digitsValue (ds : List Nat) : Nat :=
  ds.foldl (fun n d => 10 * n + d) 0

/-- Divide by a power of ten, in steps of `10 ^ 308` until nothing is left. -/
def scaleDown (x : Double) (k : Nat) : Option Double :=
  if k ≤ 308 then (Double.powTen? k).bind x.div?
  else if x.isZero then some x
  else ((Double.powTen? 308).bind x.div?).bind fun y => scaleDown y (k - 308)
termination_by k
decreasing_by omega

/-- A significand times a power of ten, each step rounded; none when too large. -/
def scale (significand : Nat) (exponent : Int) : Option Double := do
  let x ← Double.ofQuotient? false significand 1
  if exponent < 0 then scaleDown x exponent.natAbs
  else if exponent ≤ 308 then (Double.powTen? exponent.toNat).bind x.mul?
  else if x.isZero then some x
  else none

def maxExponent : Nat := 0x7fffffff

def magnitude (significand : Nat) (point : Int) : Option (Bool × List Nat) → Option Double
  | none => scale significand point
  | some (false, ds) =>
    if digitsValue ds ≤ maxExponent then scale significand (point + digitsValue ds)
    else if significand = 0 then some (Double.zero false)
    else none
  | some (true, ds) =>
    if digitsValue ds ≤ maxExponent then scale significand (point - digitsValue ds)
    else some (Double.zero false)

def withSign (negative : Bool) (x : Double) : Double :=
  if negative then x.neg else x

def number? (n : Numeral) : Option Number :=
  let (whole, _, extra) := fill 0 n.whole
  let (significand, used, _) := fill whole (n.fraction.getD [])
  let point : Int := (extra.length : Int) - used
  match extra, n.fraction, n.exponent with
  | [], none, none =>
    if n.negative then
      if h : 0 < whole ∧ whole ≤ 0x8000000000000000 then
        some (.integer ⟨-(whole : Int), by omega⟩)
      else (scale whole 0).map fun x => .float x.neg
    else if h : whole < 0x10000000000000000 then some (.integer (.ofNat whole h))
    else none
  | _, _, e => (magnitude significand point e).map fun x => .float (withSign n.negative x)

end Numeral

def Number.value : Number → Value
  | .integer n => .integer n
  | .float x => .float x

end LoraBridge.Json
