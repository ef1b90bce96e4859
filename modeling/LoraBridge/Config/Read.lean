import LoraBridge.Config.Validate
import LoraBridge.Toml.Read

/-! Reading configurations from TOML. A section is a table of its settings, or an
array of them in their order; what is not set keeps its default, and names that are
no settings are passed over. -/
namespace LoraBridge.Config

open Toml (Value)

structure Setting (σ : Type) where
  name : String
  read : Value → σ → Option σ

def readSection {σ : Type} (settings : List (Setting σ)) (defaults : σ) : Value → Option σ
  | .table _ entries =>
    entries.foldlM
      (fun acc e =>
        match settings.find? fun s => s.name == e.1 with
        | some s => s.read e.2 acc
        | none => some acc)
      defaults
  | .array _ items => (settings.zip items).foldlM (fun acc p => p.1.read p.2 acc) defaults
  | _ => none

def text? : Value → Option String
  | .string s => some s
  | _ => none

def bool? : Value → Option Bool
  | .boolean b => some b
  | _ => none

def nat? (bound : Nat) : Value → Option Nat
  | .integer n => if 0 ≤ n ∧ n.toNat < bound then some n.toNat else none
  | _ => none

def word8? (v : Value) : Option UInt8 := (nat? 0x100 v).map UInt8.ofNat
def word64? (v : Value) : Option UInt64 := (nat? 0x10000000000000000 v).map UInt64.ofNat

def setting {σ α : Type} (name : String) (read : Value → Option α) (set : σ → α → σ) : Setting σ :=
  ⟨name, fun v acc => (read v).map (set acc)⟩

def mqttSettings : List (Setting Mqtt) :=
  [setting "server" text? fun m v => { m with server := v },
   setting "username" text? fun m v => { m with username := v },
   setting "password" text? fun m v => { m with password := v },
   setting "username_env" text? fun m v => { m with usernameEnv := some v },
   setting "password_env" text? fun m v => { m with passwordEnv := some v },
   setting "ca_cert" text? fun m v => { m with caCert := v },
   setting "tls_cert" text? fun m v => { m with tlsCert := v },
   setting "tls_key" text? fun m v => { m with tlsKey := v },
   setting "uplink_topic_template" text? fun m v => { m with uplinkTemplate := v },
   setting "downlink_topic_template" text? fun m v => { m with downlinkTemplate := v },
   setting "stats_topic_template" text? fun m v => { m with statsTemplate := v },
   setting "ack_topic_template" text? fun m v => { m with ackTemplate := v },
   setting "client_id" text? fun m v => { m with clientId := some v },
   setting "keep_alive_secs" word64? fun m v => { m with keepAliveSecs := v },
   setting "connect_timeout_secs" word64? fun m v => { m with connectTimeoutSecs := v },
   setting "ack_timeout_secs" word64? fun m v => { m with ackTimeoutSecs := v },
   setting "resubscribe_delay_ms" word64? fun m v => { m with resubscribeDelayMs := v },
   setting "disconnect_grace_ms" word64? fun m v => { m with disconnectGraceMs := v },
   setting "downlink_buffer" word64? fun m v => { m with downlinkBuffer := v }]

def generalSettings : List (Setting Config) :=
  [setting "log_level" word8? fun c v => { c with logLevel := v }]

def packetForwarderSettings : List (Setting Config) :=
  [setting "udp_bind" text? fun c v => { c with udpBind := v },
   setting "skip_crc_check" bool? fun c v => { c with skipCrcCheck := v }]

def backendSettings : List (Setting Config) :=
  [setting "mqtt" (readSection mqttSettings Mqtt.default) fun c v => { c with mqtt := v }]

/-- The sections of a file; each holds settings of its own. -/
def sections : List (Setting Config) :=
  [⟨"general", fun v c => readSection generalSettings c v⟩,
   ⟨"packet_forwarder", fun v c => readSection packetForwarderSettings c v⟩,
   ⟨"backend", fun v c => readSection backendSettings c v⟩]

def Mqtt.ofToml? (text : String) : Option Mqtt := do
  let entries ← Toml.parse? text.toList
  readSection mqttSettings Mqtt.default (.table .header entries)

def ofToml? (text : String) : Option Config := do
  let entries ← Toml.parse? text.toList
  readSection sections default (.table .header entries)

inductive LoadError where
  | read (cause : FileError)
  | toml
  | invalid (cause : Invalid)
deriving DecidableEq

def LoadError.message : LoadError → String
  | .read e => s!"Failed to read config file: {e.message}"
  | .toml => "Failed to parse TOML"
  | .invalid e => e.message

def read (files : Files) (path : String) : Except LoadError Config := do
  let text ← (files.readText path).mapError .read
  match ofToml? text with
  | some c => .ok c
  | none => .error .toml

def load (files : Files) (path : String) : Except LoadError Config := do
  let c ← read files path
  c.validate.mapError .invalid
  .ok c

end LoraBridge.Config
