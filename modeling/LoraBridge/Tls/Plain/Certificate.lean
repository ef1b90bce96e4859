import LoraBridge.Tls.Plain.Der

/-! X.509 certificates, as far as a certificate has to be well formed to be
trusted. -/
namespace LoraBridge.Tls.Plain.Certificate

def extensionNumber? (id : List UInt8) : Option Nat :=
  match id with
  | [0x55, 0x1d, n] => some n.toNat
  | _ => none

def understood : List Nat := [15, 17, 19, 30, 31, 37]

def keyUsage : Nat := 15

/-- Check one extension, after those with the given numbers. Only extensions that
are understood may be critical, and each of them may stand once. -/
def extension? (seen : List Nat) (bs : List UInt8) : Option (List Nat) := do
  let (id, bs) ← Der.take? Der.objectId bs
  let (critical, bs) ← Der.optional? Der.boolean bs
  let content ← Der.whole? Der.octetString bs
  let isCritical ← match critical with
    | none => some false
    | some [0xff] => some true
    | some [0x00] => some false
    | some _ => none
  match (extensionNumber? id).filter understood.contains with
  | none => if isCritical then none else some seen
  | some n =>
    if seen.contains n then none
    else if n = keyUsage then some (n :: seen)
    else (Der.whole? Der.sequence content).map fun _ => n :: seen

def extensions? (bs : List UInt8) : Option Unit := do
  let list ← Der.whole? Der.sequence bs
  let each ← Der.elements? Der.sequence list.length list
  let _ ← each.foldlM extension? []
  some ()

def body? (algorithm : List UInt8) (bs : List UInt8) : Option Unit := do
  let (_, bs) ← Der.take? Der.integer bs
  let (inner, bs) ← Der.take? Der.sequence bs
  if inner ≠ algorithm then none
  let (_, bs) ← Der.take? Der.sequence bs
  let (_, bs) ← Der.take? Der.sequence bs
  let (_, bs) ← Der.take? Der.sequence bs
  let (_, bs) ← Der.take? Der.sequence bs
  if bs.isEmpty then some ()
  else extensions? (← Der.whole? (Der.tagged 3) bs)

/-- Check a certificate: one of the third version, or one without a version and
without extensions. -/
def wellFormed (bs : List UInt8) : Bool :=
  let check : Option Unit := do
    let content ← Der.whole? Der.sequence bs
    let (signed, rest) ← Der.take? Der.sequence content
    let (algorithm, rest) ← Der.take? Der.sequence rest
    let (_, rest) ← Der.bits? rest
    if !rest.isEmpty || 0x10000 ≤ signed.length then none
    let (version, signed) ← Der.optional? (Der.tagged 0) signed
    match version with
    | some v =>
      if v = [Der.integer, 1, 2] then body? algorithm signed else none
    | none => body? algorithm signed
  check.isSome

end LoraBridge.Tls.Plain.Certificate
