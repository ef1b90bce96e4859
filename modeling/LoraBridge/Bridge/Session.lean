import LoraBridge.Backend.Connect

/-! The bridge while it is connected: it subscribes its gateways one after the other,
then logs the downlink frames that arrive, until it is told to stop. -/
namespace LoraBridge.Bridge

inductive Happening where
  | answer (a : Except Transport.Error Unit)
  | event (e : Transport.Event)
  | interrupt
  | terminate

structure Session where
  backend : Backend
  gatewayCount : Nat
  pending : List Eui
  taken : Nat
  stopped : Bool

namespace Session

def programEvent (level : Log.Level) (message : String) (fields : List (String × Log.Datum)) :
    Log.Record :=
  .of ⟨level, .program, message, fields⟩ []

def subscribeFailed (gateway : Eui) (e : Backend.Error) : Log.Record :=
  programEvent .error "Failed to subscribe gateway"
    [("gateway", .text gateway.text), ("error", .text e.message)]

def frameReceived (f : Envelope.DownlinkFrame) : Log.Record :=
  programEvent .info "Downlink frame received"
    [("token", .count f.token.toNat), ("gateway", .text f.txInfo.mac.text),
      ("size", .count f.payload.length)]

/-- Ask for the next subscription that can be asked for; those before it fail. -/
def subscribe (backend : Backend) : List Eui → List Eui × List Log.Record
  | [] => ([], [])
  | g :: gs =>
    match backend.prepare (.subscribe g) with
    | .error e =>
      let (rest, logs) := subscribe backend gs
      (rest, subscribeFailed g e :: logs)
    | .ok (_, event) =>
      (g :: gs, [.of event [⟨.backend, "subscribe_downlink", [("gateway", .text g.text)]⟩]])

/-- Go on with the gateways that are left; when there are none the bridge is running. -/
def advance (s : Session) (gateways : List Eui) : Session × List Log.Record :=
  let (pending, logs) := subscribe s.backend gateways
  let running := if pending.isEmpty then
      [programEvent .info "Bridge is running" [("gateway_count", .count s.gatewayCount)]]
    else []
  ({ s with pending }, logs ++ running)

def start (backend : Backend) (gateways : List Eui) : Session × List Log.Record :=
  advance ⟨backend, gateways.length, [], 0, false⟩ gateways

def relay (s : Session) : Session × List Log.Record :=
  go s.backend.downlinks.buffer.length s
where
  go : Nat → Session → Session × List Log.Record
    | 0, s => (s, [])
    | n + 1, s =>
      match s.backend.receive with
      | (.frame f, backend) =>
        let (s, logs) := go n { s with backend }
        (s, frameReceived f :: logs)
      | (_, backend) => ({ s with backend }, [])

def stop (s : Session) (signal : String) : Session × List Log.Record :=
  let (backend, logs) := s.backend.closeNow
  let span : Log.Span := ⟨.program, "lifecycle_event", [("phase", .text "shutdown")]⟩
  ({ s with backend, stopped := true },
    programEvent .info s!"Received {signal}, shutting down gracefully..." [] ::
      .ofSpan "new" [] span :: logs.map (.of · [span]) ++ [.ofSpan "close" [] span])

def step (s : Session) (h : Happening) : Session × List Log.Record :=
  if s.stopped then (s, []) else
  match h with
  | .answer a =>
    match s.pending with
    | [] => (s, [])
    | g :: gs =>
      let (backend, result) := s.backend.complete (.subscribe g) a
      let logs := match result with
        | .ok () => []
        | .error e => [subscribeFailed g e]
      let (s, more) := advance { s with backend } gs
      (s, logs ++ more)
  | .event e =>
    let (backend, logs) := s.backend.handle s.taken e
    let s := { s with backend, taken := s.taken + 1 }
    let (s, more) := if s.pending.isEmpty then s.relay else (s, [])
    (s, logs.map (.of · []) ++ more)
  | .interrupt => s.stop "SIGINT"
  | .terminate => s.stop "SIGTERM"

def run (s : Session) : List Happening → Session × List Log.Record
  | [] => (s, [])
  | h :: hs =>
    let (s, logs) := s.step h
    let (s, more) := run s hs
    (s, logs ++ more)

end Session

end LoraBridge.Bridge
