import LoraBridge.Duration

/-! What a backend asks of its broker, and what it is told. -/
namespace LoraBridge.Transport

inductive Qos where
  | atMostOnce
  | atLeastOnce
  | exactlyOnce
deriving DecidableEq

def Qos.level : Qos → Nat
  | .atMostOnce => 0
  | .atLeastOnce => 1
  | .exactlyOnce => 2

def Qos.ofLevel : Nat → Qos
  | 0 => .atMostOnce
  | 1 => .atLeastOnce
  | _ => .exactlyOnce

inductive Operation where
  | publish
  | subscribe
  | subscribeMany
  | unsubscribe
  | disconnect
deriving DecidableEq

def Operation.name : Operation → String
  | .publish => "Publish"
  | .subscribe => "Subscribe"
  | .subscribeMany => "SubscribeMany"
  | .unsubscribe => "Unsubscribe"
  | .disconnect => "Disconnect"

inductive Request where
  | publish (topic : String) (qos : Qos) (retain : Bool) (payload : List UInt8)
  | subscribe (topic : String) (qos : Qos)
  | subscribeMany (topics : List (String × Qos))
  | unsubscribe (topic : String)
  | disconnect (grace : Duration)
deriving DecidableEq

def Request.operation : Request → Operation
  | .publish .. => .publish
  | .subscribe .. => .subscribe
  | .subscribeMany .. => .subscribeMany
  | .unsubscribe .. => .unsubscribe
  | .disconnect .. => .disconnect

inductive Event where
  | connected (sessionPresent : Bool)
  /-- The connection was lost; the transport tries again on its own. -/
  | connectionLost (reason : String)
  | message (topic : String) (payload : List UInt8)
deriving DecidableEq

def Event.isConnected : Event → Bool
  | .connected _ => true
  | .connectionLost _ | .message .. => false

end LoraBridge.Transport
