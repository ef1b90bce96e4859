import LoraBridge.Mqtt.Route
import LoraBridge.Transport.Backoff
import LoraBridge.Transport.Client

/-! The loop that follows the connection to the broker. It binds and resolves the
waiters of calls, and tells the user of the transport of connections, losses and
messages. After an error it waits before the next attempt to connect. -/
namespace LoraBridge.Transport

inductive Polled where
  | notice (n : Mqtt.Notice)
  | failed (reason : String)
deriving DecidableEq

inductive Action where
  | resolve (w : Waiter) (a : Answer)
  | forward (e : Event)
  | sleep (millis : UInt64)
  | stop
deriving DecidableEq

structure EventLoop where
  client : Client
  backoff : Backoff
  failures : UInt32

namespace EventLoop

def start (backoff : Backoff) : EventLoop := ⟨.new, backoff, 0⟩

def resolutions (answers : List (Waiter × Answer)) : List Action :=
  answers.map fun p => .resolve p.1 p.2

def withAcks (l : EventLoop) (change : Acks → Acks × List (Waiter × Answer)) :
    EventLoop × List Action :=
  let (acks, answers) := change l.client.acks
  let (client, answers) := { l.client with acks }.hand answers
  ({ l with client }, resolutions answers)

def subscribeAnswer (id : Mqtt.PacketId) (accepted : Bool) : Answer :=
  if accepted then .ok () else .error (.rejected s!"subscription with packet id {id.toNat}")

def follow (l : EventLoop) : Mqtt.Route → EventLoop × List Action
  | .acknowledged sessionPresent => ({ l with failures := 0 }, [.forward (.connected sessionPresent)])
  | .message topic payload => (l, [.forward (.message topic payload)])
  | .subscribeSent id => l.withAcks (·.sent .subscribe id)
  | .unsubscribeSent id => l.withAcks (·.sent .unsubscribe id)
  | .subscribeAnswered id accepted => l.withAcks (·.acknowledge id (subscribeAnswer id accepted))
  | .unsubscribeAnswered id => l.withAcks (·.acknowledge id (.ok ()))
  | .disconnectSent => (l, [.stop])
  | .disconnected | .infrastructure _ | .outgoing => (l, [])

/-- After an error every waiter has failed before the user is told. -/
def recover (l : EventLoop) (reason : String) : EventLoop × List Action :=
  let (l, actions) := l.withAcks Acks.failAll
  let failures := l.failures + 1
  ({ l with failures },
    actions ++ [.forward (.connectionLost reason), .sleep (l.backoff.delay failures.toNat)])

def handle (l : EventLoop) : Polled → EventLoop × List Action
  | .notice n => l.follow n.route
  | .failed reason => l.recover reason

def run (l : EventLoop) : List Polled → EventLoop × List Action
  | [] => (l, [])
  | p :: ps =>
    let (l, actions) := l.handle p
    if actions.contains .stop then (l, actions)
    else
      let (l, more) := run l ps
      (l, actions ++ more)

end EventLoop

end LoraBridge.Transport
