import LoraBridge.Config.Basic

/-! The options of a connection to the broker. -/
namespace LoraBridge

/-- Why a connection cannot be prepared: there is an error to report, or the program breaks off
with a text to its error output. -/
inductive Failure (ε : Type) where
  | error (e : ε)
  | crash (reason : String)
deriving DecidableEq

def Failure.map {ε ε' : Type} (f : ε → ε') : Failure ε → Failure ε'
  | .error e => .error (f e)
  | .crash reason => .crash reason

namespace Transport

inductive Security where
  | plain
  | known
  | material
deriving DecidableEq

def Security.isTls : Security → Bool
  | .plain => false
  | .known | .material => true

structure Options where
  clientId : Option String
  address : BrokerAddress
  credentials : Option (String × String)
  keepAlive : Duration
  cleanSession : Bool
  security : Security
deriving DecidableEq

namespace Options

def minKeepAlive : Duration := .ofSeconds 5

def longer (a b : Duration) : Duration :=
  if a.nanos ≤ b.nanos then b else a

def credentialsOf (m : Config.Mqtt) (env : Config.Environment) : Option (String × String) :=
  let username := m.resolvedUsername env
  if username.isEmpty then none else some (username, m.resolvedPassword env)

/-- TLS material needs an address that asks for TLS. Such an address without material takes the
certificates of the platform. -/
def securityOf (m : Config.Mqtt) (address : BrokerAddress) (hasTls : Bool)
    (platform : Except String Unit) : Except (Failure AddressError) Security :=
  match hasTls, address.tls with
  | true, false => .error (.error (.tlsWithPlainScheme m.server))
  | true, true => .ok .material
  | false, true => (platform.mapError .crash).map fun _ => .known
  | false, false => .ok .plain

def ofConfig (m : Config.Mqtt) (env : Config.Environment) (hasTls : Bool)
    (platform : Except String Unit) : Except (Failure AddressError) Options := do
  let address ← (BrokerAddress.parse m.server).mapError .error
  let security ← securityOf m address hasTls platform
  .ok ⟨m.clientId, address, credentialsOf m env, longer minKeepAlive m.keepAlive, true, security⟩

end Options

end Transport

end LoraBridge
