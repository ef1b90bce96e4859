import LoraBridge.Tls.Library
import LoraBridge.Tls.Plain.Der
import LoraBridge.Tls.Plain.Pem

/-! Private keys, in the forms of PKCS #1, PKCS #8 and SEC 1: RSA keys, keys on two
of the NIST curves, and Ed25519 keys. -/
namespace LoraBridge.Tls.Plain.PrivateKey

structure Curve where
  id : List UInt8
  size : Nat
  order : Nat

def p256 : Curve :=
  ⟨[0x2a, 0x86, 0x48, 0xce, 0x3d, 0x03, 0x01, 0x07], 32,
    0xffffffff00000000ffffffffffffffffbce6faada7179e84f3b9cac2fc632551⟩
def p384 : Curve :=
  ⟨[0x2b, 0x81, 0x04, 0x00, 0x22], 48,
    0xffffffffffffffffffffffffffffffffffffffffffffffff <<< 192 |||
      0xc7634d81f4372ddf581a0db248b0a77aecec196accc52973⟩

def rsaId : List UInt8 := [0x2a, 0x86, 0x48, 0x86, 0xf7, 0x0d, 0x01, 0x01, 0x01]
def ecId : List UInt8 := [0x2a, 0x86, 0x48, 0xce, 0x3d, 0x02, 0x01]
def ed25519Id : List UInt8 := [0x2b, 0x65, 0x70]

def idElement (id : List UInt8) : List UInt8 :=
  Der.objectId :: UInt8.ofNat id.length :: id

def rsaAlgorithm : List UInt8 := idElement rsaId ++ [Der.null, 0]
def ecAlgorithm (c : Curve) : List UInt8 := idElement ecId ++ idElement c.id
def ed25519Algorithm : List UInt8 := idElement ed25519Id

def bitLength (n : Nat) : Nat :=
  if n = 0 then 0 else n.log2 + 1

def rsa (bs : List UInt8) : Bool :=
  let check : Option Bool := do
    let (version, bs) ← Der.natural? (← Der.whole? Der.sequence bs)
    let (n, bs) ← Der.natural? bs
    let (e, bs) ← Der.natural? bs
    let (d, bs) ← Der.natural? bs
    let (p, bs) ← Der.natural? bs
    let (q, bs) ← Der.natural? bs
    let (dp, bs) ← Der.natural? bs
    let (dq, bs) ← Der.natural? bs
    let (qInv, bs) ← Der.natural? bs
    let size := bitLength n
    some (version = 0 && bs.isEmpty && 2048 ≤ size && size ≤ 4096 && size % 512 = 0 &&
      65537 ≤ e && e % 2 = 1 && bitLength e ≤ 33 && p * q = n && bitLength p * 2 = size &&
      bitLength q * 2 = size && size / 2 < bitLength d && d < n && d % 2 = 1 &&
      0 < dp && dp < p && dp % 2 = 1 && 0 < dq && dq < q && dq % 2 = 1 &&
      qInv < p && qInv * q % p = 1)
  check.getD false

/-- A key on a curve, with its public point. That the point is the one of the secret number
is not checked. -/
def ec (c : Curve) (bs : List UInt8) : Bool :=
  let check : Option Bool := do
    let (version, bs) ← Der.natural? (← Der.whole? Der.sequence bs)
    let (secret, bs) ← Der.take? Der.octetString bs
    let (parameters, bs) ← Der.optional? (Der.tagged 0) bs
    let (point, rest) ← Der.bits? (← Der.whole? (Der.tagged 1) bs)
    some (version = 1 && rest.isEmpty && secret.length = c.size &&
      Der.value secret ≠ 0 && Der.value secret < c.order &&
      (parameters.isNone || parameters = some (idElement c.id)) &&
      point.length = 2 * c.size + 1 && point.head? = some 4)
  check.getD false

/-- The algorithm and the key of the form of PKCS #8; the second version may carry
more behind the key. -/
def unwrap? (bs : List UInt8) : Option (List UInt8 × List UInt8) := do
  let (version, bs) ← Der.natural? (← Der.whole? Der.sequence bs)
  let (algorithm, bs) ← Der.take? Der.sequence bs
  let (key, rest) ← Der.take? Der.octetString bs
  if version = 0 && rest.isEmpty || version = 1 then some (algorithm, key) else none

def wrapped (bs : List UInt8) : Bool :=
  match unwrap? bs with
  | none => false
  | some (algorithm, key) =>
    (algorithm = rsaAlgorithm && rsa key) ||
    (algorithm = ecAlgorithm p256 && ec p256 key) ||
    (algorithm = ecAlgorithm p384 && ec p384 key) ||
    (algorithm = ed25519Algorithm &&
      ((Der.whole? Der.octetString key).map List.length) = some 32)

def usable (k : Key) : Bool :=
  match k.form with
  | .pkcs1 => rsa k.content
  | .pkcs8 => wrapped k.content
  | .sec1 => ec p256 k.content || ec p384 k.content

def ofSection? (s : Pem.Section) : Option Key :=
  match s.kind with
  | .rsaKey => some ⟨.pkcs1, s.content⟩
  | .privateKey => some ⟨.pkcs8, s.content⟩
  | .ecKey => some ⟨.sec1, s.content⟩
  | _ => none

end LoraBridge.Tls.Plain.PrivateKey
