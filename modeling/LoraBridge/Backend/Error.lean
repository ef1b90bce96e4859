import LoraBridge.Address.Broker
import LoraBridge.Lifecycle
import LoraBridge.Sanitize
import LoraBridge.Tls.Error
import LoraBridge.Topic.Topics
import LoraBridge.Transport.Error

/-! Why an operation of the backend fails. -/
namespace LoraBridge.Backend

inductive EncodeError where
  | keyNotText
deriving DecidableEq

def EncodeError.message : EncodeError → String
  | .keyNotText => "key must be a string"

inductive Error where
  | template (cause : Topic.TemplateError)
  | topic (cause : Topic.RoleError)
  | tls (cause : Tls.Error)
  | invalidServer (cause : AddressError)
  | connectFailed (reason : String)
  | transport (cause : Transport.Error)
  | notConnected (state : ConnectionState)
  | serialization (cause : EncodeError)
  | closed
deriving DecidableEq

namespace Error

def message : Error → String
  | .template e => s!"Topic template error: {e.message}"
  | .topic e => s!"Topic template error: {e.message}"
  | .tls e => s!"TLS configuration error: {e.message}"
  | .invalidServer e => s!"Invalid broker address: {e.message}"
  | .connectFailed reason => s!"Broker connection failed: {reason}"
  | .transport e => s!"Broker request failed: {e.message}"
  | .notConnected state => s!"Not connected - current state: {state.name}"
  | .serialization e => s!"Failed to encode payload: {e.message}"
  | .closed => "Backend connection is closed"

def isConfiguration : Error → Bool
  | .template _ | .topic _ | .tls _ | .invalidServer _ => true
  | _ => false

def ofReason (reason : String) : Error :=
  .connectFailed (sanitize reason)

/-- A transport that is shut down belongs to a backend that is closed. -/
def ofTransport : Transport.Error → Error
  | .shutdown => .closed
  | e => .transport e

end Error

end LoraBridge.Backend
