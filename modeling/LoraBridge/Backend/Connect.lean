import LoraBridge.Config.Basic
import LoraBridge.Log.Record
import LoraBridge.Tls.Material
import LoraBridge.Transport.Options

/-! Connecting a backend: what the configuration has to provide before a connection
is attempted, and waiting for the broker to accept the first one. -/
namespace LoraBridge

def Config.Mqtt.material (m : Mqtt) (lib : Tls.Library) (files : Files) :
    Except Tls.Error (Option Tls.Material) :=
  Tls.material lib files m.caCert m.tlsCert m.tlsKey

namespace Backend

structure Plan where
  topics : Topic.Topics
  material : Option Tls.Material
  transport : Transport.Options
  options : Options

/-- Prepare a connection. Topics are looked at first, then TLS material, then the
address of the broker. -/
def plan (m : Config.Mqtt) (lib : Tls.Library) (files : Files) (env : Config.Environment) :
    Except (Failure Error) Plan := do
  let topics ← m.topics.mapError fun e => .error (.topic e)
  let material ← (m.material lib files).mapError fun e => .error (.tls e)
  let transport ← (Transport.Options.ofConfig m env material.isSome lib.platform).mapError
    (·.map .invalidServer)
  .ok ⟨topics, material, transport, m.options⟩

def planLogs (m : Config.Mqtt) (lib : Tls.Library) (files : Files) : List Log.Event :=
  match m.topics with
  | .ok _ => Tls.logs lib files m.caCert m.tlsCert m.tlsKey
  | .error _ => []

/-- Handle events until it is known whether there is a connection. The dispatcher
logs on its own, outside of every span. -/
def await (b : Backend) (ticket : Nat) :
    List Transport.Event → Backend × Except Error Unit × List Log.Record
  | [] => (b, b.connectionOutcome?.getD (.error b.connectTimeoutError), [])
  | e :: es =>
    match b.connectionOutcome? with
    | some result => (b, result, [])
    | none =>
      let (b, logs) := b.handle ticket e
      let (b, result, more) := b.await (ticket + 1) es
      (b, result, logs.map (.of · []) ++ more)

def connectingEvent (server : String) : Log.Event :=
  ⟨.info, .backend, "backend: connecting to mqtt broker", [("server", .text server)]⟩

def connectFailedEvent (server : String) (e : Error) : Log.Event :=
  ⟨.error, .backend, "backend: could not connect to mqtt broker",
    [("server", .text server), ("error", .text e.message)]⟩

def closeNow (b : Backend) : Backend × List Log.Event :=
  let (b, _, logs) := b.beginClose
  let (b, _, more) := b.finishClose (.ok ())
  (b, logs ++ more)

/-- Connect with a plan, when these are the events of the transport until the time
for it is over. A backend that gets no connection is closed. -/
def connect (p : Plan) (server : String) (events : List Transport.Event)
    (spans : List Log.Span) : Except Error Backend × List Log.Record :=
  let own (logs : List Log.Event) : List Log.Record := logs.map (.of · spans)
  let (b, startLogs) := Backend.start p.topics p.options
  let (b, result, waitLogs) := b.await 0 events
  let logs := own (connectingEvent server :: startLogs) ++ waitLogs
  match result with
  | .ok () => (.ok b, logs)
  | .error e => (.error e, logs ++ own (connectFailedEvent server e :: b.closeNow.2))

end Backend

end LoraBridge
