/-! Base64 with the standard alphabet and padding. Reading accepts exactly the
canonical text, and names the first symbol that cannot stand in it. -/
namespace LoraBridge.Text.Base64

inductive DecodeError where
  | invalidSymbol (symbol : UInt8) (offset : Nat)
  | invalidLength (length : Nat)
  | invalidLastSymbol (symbol : UInt8) (offset : Nat)
  | invalidPadding
deriving DecidableEq

def DecodeError.message : DecodeError → String
  | .invalidSymbol s o => s!"Invalid symbol {s}, offset {o}."
  | .invalidLength n => s!"Invalid input length: {n}"
  | .invalidLastSymbol s o => s!"Invalid last symbol {s}, offset {o}."
  | .invalidPadding => "Invalid padding"

def pad : UInt8 := 61

def symbol (n : Nat) : UInt8 :=
  UInt8.ofNat <|
    if n < 26 then 65 + n
    else if n < 52 then 71 + n
    else if n < 62 then n - 4
    else if n = 62 then 43
    else 47

def sextet? (s : UInt8) : Option Nat :=
  let n := s.toNat
  if 65 ≤ n ∧ n ≤ 90 then some (n - 65)
  else if 97 ≤ n ∧ n ≤ 122 then some (n - 71)
  else if 48 ≤ n ∧ n ≤ 57 then some (n + 4)
  else if n = 43 then some 62
  else if n = 47 then some 63
  else none

def encode : List UInt8 → List UInt8
  | a :: b :: c :: rest =>
    symbol (a.toNat / 4) :: symbol (a.toNat % 4 * 16 + b.toNat / 16) ::
      symbol (b.toNat % 16 * 4 + c.toNat / 64) :: symbol (c.toNat % 64) :: encode rest
  | [a, b] =>
    [symbol (a.toNat / 4), symbol (a.toNat % 4 * 16 + b.toNat / 16), symbol (b.toNat % 16 * 4), pad]
  | [a] => [symbol (a.toNat / 4), symbol (a.toNat % 4 * 16), pad, pad]
  | [] => []

def sextet (offset : Nat) (s : UInt8) : Except DecodeError Nat :=
  match sextet? s with
  | some n => .ok n
  | none => .error (.invalidSymbol s offset)

def quad (a b c d : Nat) : List UInt8 :=
  [UInt8.ofNat (a * 4 + b / 16), UInt8.ofNat (b % 16 * 16 + c / 4), UInt8.ofNat (c % 4 * 64 + d)]

/-- The leading symbols of the last group and the padding behind them. A pad is
refused where the first or second symbol has to stand, and so is the first pad
when a symbol follows it. -/
def lastGroup (offset : Nat) : Nat → List UInt8 → Except DecodeError (List Nat × Nat)
  | _, [] => .ok ([], 0)
  | i, s :: rest =>
    if s = pad then
      if i < 2 then .error (.invalidSymbol s (offset + i))
      else if rest.all (· == pad) then .ok ([], 1 + rest.length)
      else .error (.invalidSymbol pad (offset + i))
    else do
      let n ← sextet (offset + i) s
      let (ns, pads) ← lastGroup offset (i + 1) rest
      .ok (n :: ns, pads)

def decodeLast (offset : Nat) (group : List UInt8) : Except DecodeError (List UInt8) := do
  let (ns, pads) ← lastGroup offset 0 group
  let lastSymbol := (group.take ns.length).getLastD 0
  match ns with
  | [] => if group.isEmpty then .ok [] else .error (.invalidLength offset)
  | [_] => .error (.invalidLength (offset + 1))
  | ns =>
    if (pads + ns.length) % 4 ≠ 0 then .error .invalidPadding else
    match ns with
    | [a, b] =>
      if b % 16 ≠ 0 then .error (.invalidLastSymbol lastSymbol (offset + 1))
      else .ok ((quad a b 0 0).take 1)
    | [a, b, c] =>
      if c % 4 ≠ 0 then .error (.invalidLastSymbol lastSymbol (offset + 2))
      else .ok ((quad a b c 0).take 2)
    | [a, b, c, d] => .ok (quad a b c d)
    | _ => .error .invalidPadding

def decodeGroups (offset : Nat) : List UInt8 → Except DecodeError (List UInt8)
  | a :: b :: c :: d :: e :: rest => do
    let a ← sextet offset a
    let b ← sextet (offset + 1) b
    let c ← sextet (offset + 2) c
    let d ← sextet (offset + 3) d
    let bytes ← decodeGroups (offset + 4) (e :: rest)
    .ok (quad a b c d ++ bytes)
  | group => decodeLast offset group

/-- Whether a text has one symbol too many and that one is no symbol at all. -/
def strayEnd? (s : List UInt8) : Option UInt8 :=
  if s.length % 4 = 1 then
    s.getLast?.filter fun b => b != pad && (sextet? b).isNone
  else none

/-- The bytes of a base64 text. A stray byte at the end of a text is reported
before anything else. -/
def decode (s : List UInt8) : Except DecodeError (List UInt8) :=
  match strayEnd? s with
  | some b => .error (.invalidSymbol b (s.length - 1))
  | none => decodeGroups 0 s

end LoraBridge.Text.Base64
