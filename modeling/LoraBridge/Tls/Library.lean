import LoraBridge.Files

/-! What a TLS library has to provide: it reads PEM texts and judges certificates and keys.
How it does so is left open here, so that what is said of the program holds with any library. -/
namespace LoraBridge.Tls

inductive KeyForm where
  | pkcs1
  | pkcs8
  | sec1
deriving DecidableEq

structure Key where
  form : KeyForm
  content : List UInt8
deriving DecidableEq

structure Library where
  /-- All certificates of a text, unless the text is malformed. -/
  certificates : List UInt8 → Except FileError (List (List UInt8))
  /-- The first private key of a text, if there is one. -/
  privateKey : List UInt8 → Except FileError (Option Key)
  /-- Trust a certificate. -/
  trust : List UInt8 → Except String Unit
  /-- Take a certificate, with those that lead to it, and a key for those of a client. -/
  identify : List (List UInt8) → Key → Except String Unit
  /-- Load the certificates that the platform trusts. When that is not possible the program
  breaks off, with a text to its error output. -/
  platform : Except String Unit

end LoraBridge.Tls
