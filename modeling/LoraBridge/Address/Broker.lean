import LoraBridge.Address.Url

/-! The address of a broker, given by a URL. -/
namespace LoraBridge

inductive AddressError where
  | invalidUrl (url : String)
  | unsupportedScheme (scheme : String)
  | tlsWithPlainScheme (url : String)
deriving DecidableEq

def AddressError.message : AddressError → String
  | .invalidUrl url => s!"Invalid broker URL: {url}"
  | .unsupportedScheme scheme =>
    s!"Unsupported broker URL scheme '{scheme}', expected tcp, mqtt, ssl, tls or mqtts"
  | .tlsWithPlainScheme url =>
    s!"TLS material is configured but broker URL '{url}' uses a plain scheme, use ssl, tls or mqtts"

structure BrokerAddress where
  host : String
  port : Nat
  tls : Bool
deriving DecidableEq

namespace BrokerAddress

/-- Whether a scheme asks for TLS; none for the schemes of other protocols. -/
def tlsOfScheme? (scheme : List Char) : Option Bool :=
  if ["tcp", "mqtt"].contains (String.ofList scheme) then some false
  else if ["ssl", "tls", "mqtts"].contains (String.ofList scheme) then some true
  else none

def defaultPort (tls : Bool) : Nat :=
  if tls then 8883 else 1883

def parse (server : String) : Except AddressError BrokerAddress :=
  match Address.Url.parse? server.toList with
  | none => .error (.invalidUrl server)
  | some url =>
    match tlsOfScheme? url.scheme with
    | none => .error (.unsupportedScheme (String.ofList url.scheme))
    | some tls =>
      if url.host.isEmpty then .error (.invalidUrl server)
      else .ok ⟨String.ofList url.host, url.port.getD (defaultPort tls), tls⟩

end BrokerAddress

end LoraBridge
