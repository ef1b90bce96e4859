import LoraBridge.Config.Basic
import LoraBridge.Toml.Quoted

/-! Writing configurations as TOML: the sections in their order, the settings of
each in their order, and settings without a value left out. -/
namespace LoraBridge.Config

inductive Scalar where
  | text (s : String)
  | number (n : Nat)
  | flag (b : Bool)
deriving DecidableEq

def Scalar.chars : Scalar → List Char
  | .text s => Toml.quoted s.toList
  | .number n => Nat.toDigits 10 n
  | .flag b => (if b then "true" else "false").toList

abbrev Entries := List (String × Option Scalar)

def Mqtt.entries (m : Mqtt) : Entries :=
  [("server", some (.text m.server)),
   ("username", some (.text m.username)),
   ("password", some (.text m.password)),
   ("username_env", m.usernameEnv.map .text),
   ("password_env", m.passwordEnv.map .text),
   ("ca_cert", some (.text m.caCert)),
   ("tls_cert", some (.text m.tlsCert)),
   ("tls_key", some (.text m.tlsKey)),
   ("uplink_topic_template", some (.text m.uplinkTemplate)),
   ("downlink_topic_template", some (.text m.downlinkTemplate)),
   ("stats_topic_template", some (.text m.statsTemplate)),
   ("ack_topic_template", some (.text m.ackTemplate)),
   ("client_id", m.clientId.map .text),
   ("keep_alive_secs", some (.number m.keepAliveSecs.toNat)),
   ("connect_timeout_secs", some (.number m.connectTimeoutSecs.toNat)),
   ("ack_timeout_secs", some (.number m.ackTimeoutSecs.toNat)),
   ("resubscribe_delay_ms", some (.number m.resubscribeDelayMs.toNat)),
   ("disconnect_grace_ms", some (.number m.disconnectGraceMs.toNat)),
   ("downlink_buffer", some (.number m.downlinkBuffer.toNat))]

def tables (c : Config) : List (List String × Entries) :=
  [(["general"], [("log_level", some (.number c.logLevel.toNat))]),
   (["packet_forwarder"],
    [("udp_bind", some (.text c.udpBind)), ("skip_crc_check", some (.flag c.skipCrcCheck))]),
   (["backend", "mqtt"], c.mqtt.entries)]

def entryLine : String × Option Scalar → List Char
  | (name, some v) => name.toList ++ [' ', '=', ' '] ++ v.chars ++ ['\n']
  | (_, none) => []

def tableLines (t : List String × Entries) : List Char :=
  ['['] ++ (".".intercalate t.1).toList ++ [']', '\n'] ++ t.2.flatMap entryLine

def chars (c : Config) : List Char :=
  ['\n'].intercalate (c.tables.map tableLines)

def toToml (c : Config) : String :=
  String.ofList c.chars

def passwordMask : String := "********"

def masked (c : Config) : Config :=
  if c.mqtt.password.isEmpty then c
  else { c with mqtt := { c.mqtt with password := passwordMask } }

end LoraBridge.Config
