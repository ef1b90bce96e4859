import LoraBridge.Tls.Plain.Certificate
import LoraBridge.Tls.Plain.PrivateKey

/-! A plain TLS library, for a machine that has no other: it goes by the form of texts,
certificates and keys, verifies no signature and makes no connection. -/
namespace LoraBridge.Tls

def Plain.certificates (text : List UInt8) : Except FileError (List (List UInt8)) :=
  match Pem.sections text with
  | (_, some e) => .error (.invalidData e.message)
  | (sections, none) =>
    .ok ((sections.filter fun s => s.kind == .certificate).map (·.content))

/-- Only what stands before the first key can be a problem. -/
def Plain.privateKey (text : List UInt8) : Except FileError (Option Key) :=
  let (sections, problem) := Pem.sections text
  match sections.findSome? PrivateKey.ofSection?, problem with
  | some key, _ => .ok (some key)
  | none, some e => .error (.invalidData e.message)
  | none, none => .ok none

def Library.plain : Library where
  certificates := Plain.certificates
  privateKey := Plain.privateKey
  trust cert :=
    if Plain.Certificate.wellFormed cert then .ok ()
    else .error "invalid peer certificate: BadEncoding"
  identify _ key :=
    if Plain.PrivateKey.usable key then .ok ()
    else .error "unexpected error: failed to parse private key as RSA, ECDSA, or EdDSA"
  platform := .ok ()

end LoraBridge.Tls
