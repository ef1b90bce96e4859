import LoraBridge.Backend.Error
import LoraBridge.Downlink.Channel
import LoraBridge.Envelope.Encode
import LoraBridge.Registry
import LoraBridge.Transport.Request

/-! The backend between two of its suspensions. A backend has three actors: its
callers, the dispatcher that handles the events of the transport, and at most one
resubscription that replays the registry after a connection. Everything that one
of them does without waiting is one function here; a run is any interleaving of
them, with the answers of the broker in between. -/
namespace LoraBridge

open Transport (Qos Request)
open Topic (Role)

namespace Backend

structure Options where
  connectTimeout : Duration
  resubscribeDelay : Duration
  disconnectGrace : Duration
  downlinkBuffer : Nat
deriving DecidableEq

def Options.default : Options :=
  ⟨.ofSeconds 10, .ofSeconds 1, .ofMillis 250, 64⟩

inductive Dispatcher where
  | idle
  /-- The reason of a loss is stored, and the state is to be changed. -/
  | losing
  /-- A connection was acknowledged, and the replay is to be started. -/
  | replaying
  /-- A frame waits for room in the queue. -/
  | delivering
  | stopped
deriving DecidableEq

/-- How far the replay of the registry is. -/
inductive Replay where
  | none
  | due (attempts : Nat)
  /-- The broker was asked for a number of topics. -/
  | asking (attempts topics : Nat)
  /-- The next attempt is made at a time. -/
  | sleeping (attempts : Nat) (wake : Nat)
deriving DecidableEq

end Backend

structure Backend where
  topics : Topic.Topics
  options : Backend.Options
  state : ConnectionState
  /-- The reason of the latest loss, without secrets. -/
  lastError : Option String
  registry : Registry
  stopping : Bool
  dispatcher : Backend.Dispatcher
  replay : Backend.Replay
  downlinks : Downlink.Channel

namespace Backend

def transition (b : Backend) (e : LifecycleEvent) : Backend × List Log.Event :=
  let new := b.state.next e
  ({ b with state := new }, (ConnectionState.logTransition b.state new).toList)

def start (topics : Topic.Topics) (options : Options) : Backend × List Log.Event :=
  transition
    { topics, options, state := .disconnected, lastError := none, registry := .empty,
      stopping := false, dispatcher := .idle, replay := .none,
      downlinks := .new options.downlinkBuffer } .start

def ensureConnected (b : Backend) : Except Error Unit :=
  if b.state = .closed then .error .closed
  else if b.state.canOperate then .ok ()
  else .error (.notConnected b.state)

def render (b : Backend) (role : Role) (gateway : Eui) : Except Error String :=
  (b.topics.render role gateway).mapError .topic

/-! Callers. An operation asks the broker for something, and once the broker has
answered it changes the registry. -/

inductive Operation where
  | subscribe (gateway : Eui)
  | unsubscribe (gateway : Eui)
  | publish (role : Role) (gateway : Eui) (payload : Except EncodeError (List UInt8))

def Operation.role : Operation → Role
  | .subscribe _ | .unsubscribe _ => .downlink
  | .publish role .. => role

def Operation.gateway : Operation → Eui
  | .subscribe gateway | .unsubscribe gateway | .publish _ gateway _ => gateway

def topicEvent (message topic : String) : Log.Event :=
  ⟨.info, .backend, message, [("topic", .text topic)]⟩

def prepare (b : Backend) (op : Operation) : Except Error (Request × Log.Event) := do
  b.ensureConnected
  match op with
  | .subscribe gateway =>
    let topic ← b.render .downlink gateway
    .ok (.subscribe topic .atMostOnce, topicEvent "backend: subscribing to topic" topic)
  | .unsubscribe gateway =>
    let topic ← b.render .downlink gateway
    .ok (.unsubscribe topic, topicEvent "backend: unsubscribing from topic" topic)
  | .publish role gateway payload =>
    let topic ← b.render role gateway
    let bytes ← payload.mapError Error.serialization
    .ok (.publish topic .atMostOnce false bytes, topicEvent "backend: publishing packet" topic)

theorem connected_of_prepare {b : Backend} {op : Operation} {p : Request × Log.Event}
    (h : b.prepare op = .ok p) : b.state = .connected := by
  unfold prepare ensureConnected at h
  by_cases hc : b.state = .closed
  · rw [if_pos hc] at h
    cases h
  · by_cases ho : b.state.canOperate
    · exact eq_of_beq ho
    · rw [if_neg hc, if_neg ho] at h
      cases h

theorem rendered_of_prepare {b : Backend} {op : Operation} {p : Request × Log.Event}
    (h : b.prepare op = .ok p) : ∃ topic, b.topics.render op.role op.gateway = .ok topic := by
  cases hr : b.topics.render op.role op.gateway with
  | ok topic => exact ⟨topic, rfl⟩
  | error e =>
    have hconn : b.ensureConnected = .ok () := by
      unfold ensureConnected
      rw [connected_of_prepare h]
      rfl
    unfold prepare at h
    rw [hconn] at h
    cases op <;> simp only [Operation.role, Operation.gateway] at hr <;>
      simp only [render, hr] at h <;> cases h

/-- Only what the broker acknowledged changes the registry. -/
def complete (b : Backend) (op : Operation) (answer : Except Transport.Error Unit) :
    Backend × Except Error Unit :=
  match answer with
  | .error e => (b, .error (.ofTransport e))
  | .ok () =>
    match op with
    | .subscribe gateway => ({ b with registry := b.registry.add gateway }, .ok ())
    | .unsubscribe gateway => ({ b with registry := b.registry.remove gateway }, .ok ())
    | .publish .. => (b, .ok ())

def payloadOf (v : Json.Value) : List UInt8 :=
  v.text.toUTF8.toList

def forwardUplink (f : Envelope.UplinkFrame) : Operation :=
  .publish .uplink f.rxInfo.mac (.ok (payloadOf f.value))

def forwardStats (s : Envelope.GatewayStats) : Operation :=
  .publish .stats s.mac (.ok (payloadOf s.value))

def forwardAck (a : Envelope.DownlinkAck) : Operation :=
  .publish .ack a.mac (.ok (payloadOf a.value))

/-! Closing. The first call stops the replay and asks the broker to disconnect;
after the answer the dispatcher is stopped too. -/

/-- Begin to close; nothing is left to do for a backend that is closed. -/
def beginClose (b : Backend) : Backend × Option Request × List Log.Event :=
  if b.state = .closed then (b, none, []) else
  let (b, logs) := b.transition .close
  ({ b with stopping := true, replay := .none }, some (.disconnect b.options.disconnectGrace), logs)

theorem beginClose_frame (b : Backend) :
    (b.state = .closed ∧ b.beginClose = (b, none, [])) ∨
      b.state ≠ .closed ∧ ∃ logs, b.beginClose =
        ({ b with state := .closed, stopping := true, replay := .none },
          some (.disconnect b.options.disconnectGrace), logs) := by
  unfold beginClose
  by_cases h : b.state = .closed
  · rw [if_pos h]
    exact .inl ⟨h, rfl⟩
  · rw [if_neg h]
    refine .inr ⟨h, (b.transition .close).2, ?_⟩
    simp only [transition, ConnectionState.next_close]

/-- Stop the dispatcher; a frame that waits for room is given up. -/
def stopDispatcher (b : Backend) : Backend :=
  { b with dispatcher := .stopped, downlinks := b.downlinks.abandonWaiting }

/-- Finish closing. A transport that was shut down before is no error. -/
def finishClose (b : Backend) (answer : Except Transport.Error Unit) :
    Backend × Except Error Unit × List Log.Event :=
  let result := match answer with
    | .ok () | .error .shutdown => .ok ()
    | .error e => .error (Error.ofTransport e)
  (b.stopDispatcher, result, [⟨.info, .backend, "backend: closed", []⟩])

/-- Leave a backend without closing it: its actors stop, its state stays. -/
def abandon (b : Backend) : Backend :=
  { b.stopDispatcher with stopping := true, replay := .none }

/-- What a look at the state tells one who waits for the connection; none to wait
on. -/
def connectionOutcome? (b : Backend) : Option (Except Error Unit) :=
  match b.state with
  | .connected => some (.ok ())
  | .closed => some (.error .closed)
  | .disconnected => some (.error (.ofReason (b.lastError.getD "connection lost")))
  | .connecting | .reconnecting => none

theorem connectionOutcome?_disconnected {b : Backend} {reason : String}
    (hstate : b.state = .disconnected) (hreason : b.lastError = some reason) :
    b.connectionOutcome? = some (.error (.connectFailed (sanitize reason))) := by
  simp only [connectionOutcome?, hstate, hreason]
  rfl

def connectTimeoutError (b : Backend) : Error :=
  .ofReason s!"no connection acknowledgement within {b.options.connectTimeout.text}"

def takeEvent (b : Backend) (ticket : Nat) : Transport.Event → Backend × List Log.Event
  | .connected _ =>
    let (b, logs) := b.transition .connected
    (if b.state = .connected then { b with dispatcher := .replaying } else b, logs)
  | .connectionLost reason =>
    let reason := sanitize reason
    ({ b with lastError := some reason, dispatcher := .losing },
      [⟨.error, .backend, "backend: mqtt connection error", [("error", .text reason)]⟩])
  | .message topic payload =>
    match Downlink.decode payload with
    | .error e => (b, [Downlink.malformedEvent topic e])
    | .ok frame =>
      let d : Downlink.Delivery := ⟨ticket, topic, frame⟩
      match b.downlinks.deliver d with
      | (.delivered, c) => ({ b with downlinks := c }, [])
      | (.waiting, c) => ({ b with downlinks := c, dispatcher := .delivering }, [])
      | (.refused, c) => ({ b with downlinks := c }, [Downlink.discardedEvent d])

theorem takeEvent_frame (b : Backend) (ticket : Nat) (e : Transport.Event) :
    ∃ state lastError dispatcher downlinks,
      (b.takeEvent ticket e).1 = { b with state, lastError, dispatcher, downlinks } ∧
      (state = .closed ↔ b.state = .closed) ∧
      (e.isConnected = true → b.state ≠ .closed → dispatcher = .replaying) := by
  cases e with
  | connected sessionPresent =>
    have hclosed := ConnectionState.next_eq_closed_iff b.state (e := .connected) nofun
    simp only [takeEvent]
    split
    · exact ⟨b.state.next .connected, b.lastError, .replaying, b.downlinks, rfl, hclosed,
        fun _ _ => rfl⟩
    · next hne =>
      exact ⟨b.state.next .connected, b.lastError, b.dispatcher, b.downlinks, rfl, hclosed,
        fun _ hopen => absurd (ConnectionState.next_connected hopen) hne⟩
  | connectionLost reason =>
    exact ⟨b.state, some (sanitize reason), .losing, b.downlinks, rfl, Iff.rfl, nofun⟩
  | message topic payload =>
    simp only [takeEvent]
    split
    · exact ⟨b.state, b.lastError, b.dispatcher, b.downlinks, rfl, Iff.rfl, nofun⟩
    · split
      · exact ⟨b.state, b.lastError, b.dispatcher, _, rfl, Iff.rfl, nofun⟩
      · exact ⟨b.state, b.lastError, .delivering, _, rfl, Iff.rfl, nofun⟩
      · exact ⟨b.state, b.lastError, b.dispatcher, _, rfl, Iff.rfl, nofun⟩

/-- Go on with an event that was taken up. A replay that is under way is given up
for a new one, which is needed only when a gateway is registered. -/
def finishEvent (b : Backend) : Backend × List Log.Event :=
  match b.dispatcher with
  | .losing =>
    let (b, logs) := b.transition .connectionLost
    ({ b with dispatcher := .idle }, logs)
  | .replaying =>
    ({ b with dispatcher := .idle, replay := if b.registry.isEmpty then .none else .due 0 }, [])
  | .idle | .delivering | .stopped => (b, [])

def handle (b : Backend) (ticket : Nat) (e : Transport.Event) : Backend × List Log.Event :=
  let (b, logs) := b.takeEvent ticket e
  let (b, more) := b.finishEvent
  (b, logs ++ more)

/-- Take a frame; the dispatcher goes on once its frame has found room. -/
def receive (b : Backend) : Downlink.Received × Backend :=
  let (r, c) := b.downlinks.receive
  let dispatcher := if b.dispatcher = .delivering ∧ c.waiting = [] then .idle else b.dispatcher
  (r, { b with downlinks := c, dispatcher })

def dropReceiver (b : Backend) : Backend × List Log.Event :=
  let (ds, c) := b.downlinks.dropReader
  let dispatcher := if b.dispatcher = .delivering then .idle else b.dispatcher
  ({ b with downlinks := c, dispatcher }, ds.map Downlink.discardedEvent)

def downlinkTopics (b : Backend) : List (String × Qos) :=
  b.registry.gateways.filterMap fun g =>
    match b.topics.render .downlink g with
    | .ok topic => some (topic, .atMostOnce)
    | .error _ => none

def replayFields (topics attempts : Nat) : List (String × Log.Datum) :=
  [("topic_count", .count topics), ("attempt", .count attempts)]

/-- Make an attempt that is due: one request for all registered gateways, or none
when there are no gateways any more. -/
def attempt (b : Backend) : Backend × Option Request × List Log.Event :=
  match b.replay with
  | .due n =>
    let topics := b.downlinkTopics
    if b.stopping || topics.isEmpty then ({ b with replay := .none }, none, [])
    else
      ({ b with replay := .asking (n + 1) topics.length }, some (.subscribeMany topics),
        [⟨.info, .backend, "backend: re-registering to gateway topics",
          replayFields topics.length (n + 1)⟩])
  | _ => (b, none, [])

theorem attempt_nothing {b : Backend} {n : Nat} (h : b.replay = .due n)
    (ht : b.stopping = true ∨ b.downlinkTopics = []) :
    b.attempt = ({ b with replay := .none }, none, []) := by
  have hc : (b.stopping || b.downlinkTopics.isEmpty) = true := by
    rwa [Bool.or_eq_true, List.isEmpty_iff]
  unfold attempt
  simp only [h, hc, ↓reduceIte]

theorem attempt_asking {b : Backend} {n : Nat} (h : b.replay = .due n) (hs : b.stopping = false)
    (ht : b.downlinkTopics ≠ []) :
    ∃ logs, b.attempt = ({ b with replay := .asking (n + 1) b.downlinkTopics.length },
      some (.subscribeMany b.downlinkTopics), logs) := by
  have hc : ¬ (b.stopping || b.downlinkTopics.isEmpty) = true := by
    rw [Bool.or_eq_true, List.isEmpty_iff, hs]
    exact fun hor => hor.elim nofun ht
  unfold attempt
  simp only [h, hc]
  exact ⟨_, rfl⟩

/-- The answer to an attempt: after a refusal the next one follows after the delay. -/
def attempted (b : Backend) (now : Nat) (answer : Except Transport.Error Unit) :
    Backend × List Log.Event :=
  match b.replay with
  | .asking n topics =>
    match answer with
    | .ok () =>
      ({ b with replay := .none },
        [⟨.info, .backend, "backend: re-registered to gateway topics", replayFields topics n⟩])
    | .error e =>
      let next := if b.stopping then .none
        else .sleeping n (now + b.options.resubscribeDelay.millis)
      ({ b with replay := next },
        [⟨.error, .backend, "backend: subscribe multiple failed",
          replayFields topics n ++ [("error", .text e.message)]⟩])
  | _ => (b, [])

@[simp]
theorem attempted_ok {b : Backend} {n topics : Nat} (h : b.replay = .asking n topics) (now : Nat) :
    (b.attempted now (.ok ())).1 = { b with replay := .none } := by
  unfold attempted
  rw [h]

@[simp]
theorem attempted_error {b : Backend} {n topics : Nat} (h : b.replay = .asking n topics) (now : Nat)
    (e : Transport.Error) :
    (b.attempted now (.error e)).1 = { b with
      replay := if b.stopping then .none
        else .sleeping n (now + b.options.resubscribeDelay.millis) } := by
  unfold attempted
  rw [h]

def wake? (b : Backend) : Option Nat :=
  match b.replay with
  | .sleeping _ wake => some wake
  | _ => none

def awaken (b : Backend) : Backend :=
  match b.replay with
  | .sleeping n _ => { b with replay := .due n }
  | _ => b

@[simp] theorem awaken_sleeping {b : Backend} {n wake : Nat} (h : b.replay = .sleeping n wake) :
    b.awaken = { b with replay := .due n } := by
  unfold awaken
  rw [h]

end Backend

end LoraBridge
