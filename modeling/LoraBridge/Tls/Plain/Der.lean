/-! Elements of DER: a tag, a length in its shortest form, and a content. -/
namespace LoraBridge.Tls.Plain.Der

def boolean : UInt8 := 0x01
def integer : UInt8 := 0x02
def bitString : UInt8 := 0x03
def octetString : UInt8 := 0x04
def null : UInt8 := 0x05
def objectId : UInt8 := 0x06
def sequence : UInt8 := 0x30

def tagged (n : Nat) : UInt8 := UInt8.ofNat (0xa0 + n)

def value (bs : List UInt8) : Nat :=
  bs.foldl (fun n b => 256 * n + b.toNat) 0

def length? : List UInt8 → Option (Nat × List UInt8)
  | [] => none
  | b :: bs =>
    if b < 0x80 then some (b.toNat, bs)
    else
      let size := b.toNat - 0x80
      let n := value (bs.take size)
      if size = 0 || 4 < size || bs.length < size then none
      else if n < 0x80 || n < Nat.pow 256 (size - 1) then none
      else some (n, bs.drop size)

def element? : List UInt8 → Option (UInt8 × List UInt8 × List UInt8)
  | [] => none
  | tag :: bs => do
    if tag &&& 0x1f = 0x1f then none
    let (n, bs) ← length? bs
    if bs.length < n then none
    some (tag, bs.take n, bs.drop n)

def take? (tag : UInt8) (bs : List UInt8) : Option (List UInt8 × List UInt8) := do
  let (t, content, rest) ← element? bs
  if t = tag then some (content, rest) else none

def whole? (tag : UInt8) (bs : List UInt8) : Option (List UInt8) := do
  let (content, rest) ← take? tag bs
  if rest.isEmpty then some content else none

def optional? (tag : UInt8) (bs : List UInt8) : Option (Option (List UInt8) × List UInt8) :=
  if bs.head? = some tag then (take? tag bs).map fun p => (some p.1, p.2) else some (none, bs)

def natural? (bs : List UInt8) : Option (Nat × List UInt8) := do
  let (content, rest) ← take? integer bs
  match content with
  | [] => none
  | [b] => if b < 0x80 then some (b.toNat, rest) else none
  | a :: b :: _ =>
    if 0x80 ≤ a || (a = 0 && b < 0x80) then none else some (value content, rest)

def bits? (bs : List UInt8) : Option (List UInt8 × List UInt8) := do
  let (content, rest) ← take? bitString bs
  match content with
  | 0 :: bytes => some (bytes, rest)
  | _ => none

def elements? (tag : UInt8) : Nat → List UInt8 → Option (List (List UInt8))
  | _, [] => some []
  | 0, _ => none
  | fuel + 1, bs => do
    let (content, rest) ← take? tag bs
    let more ← elements? tag fuel rest
    some (content :: more)

end LoraBridge.Tls.Plain.Der
