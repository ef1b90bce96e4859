import LoraBridge.Backend.Basic

/-! The configuration of the bridge. Every setting has a default, so that an empty
file configures a local deployment. -/
namespace LoraBridge

structure Config.Mqtt where
  server : String
  username : String
  password : String
  usernameEnv : Option String
  passwordEnv : Option String
  caCert : String
  tlsCert : String
  tlsKey : String
  uplinkTemplate : String
  downlinkTemplate : String
  statsTemplate : String
  ackTemplate : String
  clientId : Option String
  keepAliveSecs : UInt64
  connectTimeoutSecs : UInt64
  ackTimeoutSecs : UInt64
  resubscribeDelayMs : UInt64
  disconnectGraceMs : UInt64
  downlinkBuffer : UInt64
deriving DecidableEq

structure Config where
  logLevel : UInt8
  udpBind : String
  skipCrcCheck : Bool
  mqtt : Config.Mqtt
deriving DecidableEq

namespace Config

def defaultTemplate (kind : String) : String :=
  "gateway/\x7b\x7b .MAC \x7d\x7d/" ++ kind

def Mqtt.default : Mqtt where
  server := "tcp://127.0.0.1:1883"
  username := ""
  password := ""
  usernameEnv := none
  passwordEnv := none
  caCert := ""
  tlsCert := ""
  tlsKey := ""
  uplinkTemplate := defaultTemplate "rx"
  downlinkTemplate := defaultTemplate "tx"
  statsTemplate := defaultTemplate "stats"
  ackTemplate := defaultTemplate "ack"
  clientId := none
  keepAliveSecs := 30
  connectTimeoutSecs := 10
  ackTimeoutSecs := 10
  resubscribeDelayMs := 1000
  disconnectGraceMs := 250
  downlinkBuffer := 64

def default : Config where
  logLevel := 4
  udpBind := "0.0.0.0:1700"
  skipCrcCheck := false
  mqtt := Mqtt.default

abbrev Environment := String → Option String

namespace Mqtt

def topics (m : Mqtt) : Except Topic.RoleError Topic.Topics :=
  Topic.Topics.parse m.uplinkTemplate m.downlinkTemplate m.statsTemplate m.ackTemplate

/-- The user name; a variable that is set goes before the configured one. -/
def resolvedUsername (m : Mqtt) (env : Environment) : String :=
  (m.usernameEnv.bind env).getD m.username

def resolvedPassword (m : Mqtt) (env : Environment) : String :=
  (m.passwordEnv.bind env).getD m.password

def keepAlive (m : Mqtt) : Duration := .ofSeconds m.keepAliveSecs.toNat
def connectTimeout (m : Mqtt) : Duration := .ofSeconds m.connectTimeoutSecs.toNat
def ackTimeout (m : Mqtt) : Duration := .ofSeconds m.ackTimeoutSecs.toNat
def resubscribeDelay (m : Mqtt) : Duration := .ofMillis m.resubscribeDelayMs.toNat
def disconnectGrace (m : Mqtt) : Duration := .ofMillis m.disconnectGraceMs.toNat

def options (m : Mqtt) : Backend.Options :=
  ⟨m.connectTimeout, m.resubscribeDelay, m.disconnectGrace, m.downlinkBuffer.toNat⟩

def hasTlsMaterial (m : Mqtt) : Bool :=
  !(m.caCert.isEmpty && m.tlsCert.isEmpty && m.tlsKey.isEmpty)

end Mqtt

end Config

end LoraBridge
