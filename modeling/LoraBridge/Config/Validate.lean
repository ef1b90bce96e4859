import LoraBridge.Config.Basic

/-! What can be checked of a configuration without the network and the files it
names. -/
namespace LoraBridge.Config

inductive Invalid where
  | logLevel (n : UInt8)
  | address (e : AddressError)
  | topic (e : Topic.RoleError)
  | halfClientAuth
  | emptyBuffer
deriving DecidableEq

def Invalid.message : Invalid → String
  | .logLevel n => s!"Invalid log level {n}, expected 0-5"
  | .address e => s!"Invalid configuration: {e.message}"
  | .topic e => s!"Invalid topic template: {e.message}"
  | .halfClientAuth => "Invalid configuration: tls_cert and tls_key must be set together"
  | .emptyBuffer => "Invalid configuration: downlink_buffer must be greater than 0"

def validate (c : Config) : Except Invalid Unit := do
  if 5 < c.logLevel then .error (.logLevel c.logLevel)
  let address ← (BrokerAddress.parse c.mqtt.server).mapError .address
  if c.mqtt.hasTlsMaterial && !address.tls then
    .error (.address (.tlsWithPlainScheme c.mqtt.server))
  let _ ← c.mqtt.topics.mapError .topic
  if c.mqtt.tlsCert.isEmpty != c.mqtt.tlsKey.isEmpty then .error .halfClientAuth
  if c.mqtt.downlinkBuffer = 0 then .error .emptyBuffer

end LoraBridge.Config
