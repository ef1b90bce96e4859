import LoraBridge.Log.Event
import LoraBridge.Tls.Error
import LoraBridge.Tls.Library

/-! The files for TLS: certificates that verify the broker, and a certificate and a
key of the client. -/
namespace LoraBridge.Tls

structure ClientAuth where
  certificates : List (List UInt8)
  key : Key
deriving DecidableEq

structure Material where
  trusted : Option (List (List UInt8))
  clientAuth : Option ClientAuth
deriving DecidableEq

def readFile (files : Files) (path : String) : Except Error (List UInt8) :=
  (files path).mapError (.read path)

section

variable (lib : Library) (files : Files)

/-- All certificates of a file; a problem anywhere in it counts. -/
def certificates (path : String) : Except Error (List (List UInt8)) := do
  let text ← readFile files path
  let certs ← (lib.certificates text).mapError (.read path)
  if certs.isEmpty then .error (.noCertificates path) else .ok certs

def privateKey (path : String) : Except Error Key := do
  let text ← readFile files path
  match ← (lib.privateKey text).mapError (.read path) with
  | some key => .ok key
  | none => .error (.noPrivateKey path)

def trusted (path : String) : Except Error (List (List UInt8)) := do
  let certs ← certificates lib files path
  certs.forM fun cert => (lib.trust cert).mapError (.invalidCa path)
  .ok certs

def clientAuth (cert key : String) : Except Error ClientAuth := do
  let certs ← certificates lib files cert
  let key ← privateKey lib files key
  (lib.identify certs key).mapError .invalidClientAuth
  .ok ⟨certs, key⟩

/-- The material in the named files, none when no file is named. A certificate of
the client and its key belong together. -/
def material (ca cert key : String) : Except Error (Option Material) := do
  if ca.isEmpty && cert.isEmpty && key.isEmpty then .ok none
  else if cert.isEmpty != key.isEmpty then .error .incompleteClientAuth
  else
    let roots ← if ca.isEmpty then .ok none else (trusted lib files ca).map some
    let auth ← if cert.isEmpty then .ok none else (clientAuth lib files cert key).map some
    .ok (some ⟨roots, auth⟩)

def trustedEvent (path : String) (certs : List (List UInt8)) : Log.Event :=
  ⟨.debug, .tls, "backend: loaded CA certificates",
    [("path", .text path), ("certificates", .count certs.length)]⟩

/-- What is logged of the material: the trusted certificates, even if those of the client
fail. -/
def logs (ca cert key : String) : List Log.Event :=
  if ca.isEmpty || cert.isEmpty != key.isEmpty then []
  else
    match trusted lib files ca with
    | .ok certs => [trustedEvent ca certs]
    | .error _ => []

end

end LoraBridge.Tls
