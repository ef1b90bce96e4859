/-! Lengths of time and their text in messages. -/
namespace LoraBridge

structure Duration where
  nanos : Nat
deriving DecidableEq

namespace Duration

def ofSeconds (n : Nat) : Duration := ⟨n * 1000000000⟩

def ofMillis (n : Nat) : Duration := ⟨n * 1000000⟩

def millis (d : Duration) : Nat := d.nanos / 1000000

def fraction (places n : Nat) : List Char :=
  let ds := Nat.toDigits 10 n
  let ds := List.replicate (places - ds.length) '0' ++ ds
  (ds.reverse.dropWhile (· == '0')).reverse

def inUnit (places n : Nat) (unit : String) : String :=
  let ds := if places = 0 then [] else fraction places (n % Nat.pow 10 places)
  let whole := toString (n / Nat.pow 10 places)
  if ds.isEmpty then whole ++ unit else whole ++ "." ++ String.ofList ds ++ unit

/-- The text in the largest unit of which there is a whole one. -/
def text (d : Duration) : String :=
  if 1000000000 ≤ d.nanos then inUnit 9 d.nanos "s"
  else if 1000000 ≤ d.nanos then inUnit 6 d.nanos "ms"
  else if 1000 ≤ d.nanos then inUnit 3 d.nanos "\u00b5s"
  else inUnit 0 d.nanos "ns"

end Duration

end LoraBridge
