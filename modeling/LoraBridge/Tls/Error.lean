import LoraBridge.Files

/-! Why TLS material cannot be used. -/
namespace LoraBridge.Tls

inductive Error where
  | read (path : String) (cause : FileError)
  | noCertificates (path : String)
  | noPrivateKey (path : String)
  | invalidCa (path : String) (reason : String)
  | invalidClientAuth (reason : String)
  | incompleteClientAuth
deriving DecidableEq

def Error.message : Error → String
  | .read path cause => s!"Failed to read {path}: {cause.message}"
  | .noCertificates path => s!"No PEM certificates found in {path}"
  | .noPrivateKey path => s!"No private key found in {path}"
  | .invalidCa path reason => s!"Invalid CA certificate in {path}: {reason}"
  | .invalidClientAuth reason => s!"Invalid client certificate or key: {reason}"
  | .incompleteClientAuth => "Client certificate and key must be configured together"

end LoraBridge.Tls
