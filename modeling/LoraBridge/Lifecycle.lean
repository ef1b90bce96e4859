import LoraBridge.Log.Event

/-! The connection states of a backend and the one table of their transitions. -/
namespace LoraBridge

inductive ConnectionState where
  /-- Not started, or the first attempt failed. -/
  | disconnected
  /-- Waiting for the first acknowledgement. -/
  | connecting
  | connected
  /-- The link was lost; the transport tries again. -/
  | reconnecting
  | closed
deriving DecidableEq

inductive LifecycleEvent where
  | start
  | connected
  | connectionLost
  | close
deriving DecidableEq

namespace ConnectionState

def name : ConnectionState → String
  | .disconnected => "disconnected"
  | .connecting => "connecting"
  | .connected => "connected"
  | .reconnecting => "reconnecting"
  | .closed => "closed"

def all : List ConnectionState :=
  [.disconnected, .connecting, .connected, .reconnecting, .closed]

def ofName? (s : String) : Option ConnectionState :=
  all.find? fun c => c.name == s

def next : ConnectionState → LifecycleEvent → ConnectionState
  | .closed, _ => .closed
  | _, .close => .closed
  | _, .connected => .connected
  | .disconnected, .start => .connecting
  | s, .start => s
  | .connected, .connectionLost => .reconnecting
  | .reconnecting, .connectionLost => .reconnecting
  | .connecting, .connectionLost => .disconnected
  | .disconnected, .connectionLost => .disconnected

def canOperate (s : ConnectionState) : Bool :=
  s == .connected

/-- What is logged of a transition; a transition to the same state is not. -/
def logTransition (old new : ConnectionState) : Option Log.Event :=
  match old, new with
  | .connecting, .connected | .disconnected, .connected =>
    some ⟨.info, .lifecycle, "backend: connected to mqtt broker", []⟩
  | .reconnecting, .connected =>
    some ⟨.info, .lifecycle, "backend: reconnected to mqtt broker", []⟩
  | .connected, .reconnecting =>
    some ⟨.warn, .lifecycle, "backend: mqtt connection lost, transport is reconnecting", []⟩
  | .connecting, .disconnected =>
    some ⟨.warn, .lifecycle, "backend: initial mqtt connection attempt failed", []⟩
  | old, new =>
    if old = new then none
    else some ⟨.info, .lifecycle, "backend: connection state changed",
      [("from", .text old.name), ("to", .text new.name)]⟩

@[simp] theorem next_closed (e : LifecycleEvent) : next .closed e = .closed := rfl

@[simp] theorem next_close (s : ConnectionState) : next s .close = .closed := by
  cases s <;> rfl

@[simp] theorem next_connected {s : ConnectionState} (h : s ≠ .closed) :
    s.next .connected = .connected := by
  cases s <;> first | rfl | exact absurd rfl h

theorem next_eq_closed_iff (s : ConnectionState) {e : LifecycleEvent} (h : e ≠ .close) :
    s.next e = .closed ↔ s = .closed := by
  cases s <;> cases e <;> first | exact absurd rfl h | decide

end ConnectionState

end LoraBridge
