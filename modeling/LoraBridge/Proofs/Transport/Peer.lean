import LoraBridge.Proofs.Runs
import LoraBridge.Proofs.Transport.Standing

/-! A transport whose broker follows no rules. Callers take their steps, and connections are
lost, as in a network. But requests go out under any identifiers, and while there is a
connection any packet may come. -/
namespace LoraBridge

namespace Mqtt.Packet

def acknowledged? : Packet → Option (Transport.AckKind × PacketId)
  | .subAck id _ => some (.subscribe, id)
  | .unsubAck id => some (.unsubscribe, id)
  | .connAck _ | .publish .. | .pubAck _ | .pubRec _ | .pubRel _ | .pubComp _ | .pingReq | .pingResp
  | .disconnect | .foreign _ => none

def grants : Packet → List Grant
  | .subAck _ grants => grants
  | .unsubAck _ | .connAck _ | .publish .. | .pubAck _ | .pubRec _ | .pubRel _ | .pubComp _
  | .pingReq | .pingResp | .disconnect | .foreign _ => []

def outcome : Packet → Transport.Answer
  | .subAck id grants => Transport.EventLoop.subscribeAnswer id (accepted grants)
  | .unsubAck _ | .connAck _ | .publish .. | .pubAck _ | .pubRec _ | .pubRel _ | .pubComp _
  | .pingReq | .pingResp | .disconnect | .foreign _ => .ok ()

end Mqtt.Packet

namespace Transport

inductive Report where
  | sent (id : Mqtt.PacketId) (call : Waiter) (request : Request)
  | received (packet : Mqtt.Packet)
deriving DecidableEq

def Report.notice : Report → Mqtt.Notice
  | .sent id _ r => .sent (r.packet id)
  | .received packet => .received packet

def Report.sent? : Report → Option (Waiter × Request)
  | .sent _ w r => some (w, r)
  | .received _ => none

structure Labelled extends Binding where
  id : Mqtt.PacketId
deriving DecidableEq

structure Peer where
  net : Network
  reports : List Report
  bound : List Labelled
  completed : List (Waiter × Mqtt.Packet)

namespace Peer

def start (backoff : Backoff) : Peer := ⟨.start backoff, [], [], []⟩

def sent (p : Peer) : List (Waiter × Request) := p.reports.filterMap Report.sent?

def surplus (p : Peer) (k : AckKind) : Nat :=
  (callsOf k (p.sent ++ p.net.client.queue ++ p.net.placing)).length -
    (p.net.client.acks.queued k).length

def note (p : Peer) : Report → Peer
  | .sent id w r =>
    match r.ackKind? with
    | none => p
    | some k =>
      match p.net.client.acks.queued k with
      | [] => p
      | v :: _ => { p with bound := p.bound ++ [⟨⟨v, w, p.surplus k⟩, id⟩] }
  | .received packet =>
    match packet.acknowledged? with
    | none => p
    | some (_, id) =>
      { p with completed := p.completed ++
          (p.net.client.acks.inFlight.filter fun f => f.id == id).map fun f => (f.waiter, packet) }

inductive Act where
  | go (a : Network.Act)
  | connect
  | send (id : Mqtt.PacketId)
  | receive (packet : Mqtt.Packet)
  | handle
deriving DecidableEq

def step (p : Peer) : Act → Option Peer
  | .go a =>
    if a.ofCaller then (p.net.step a).map fun net => { p with net }
    else if a.isLoss then (p.net.step a).map fun net => { p with net, reports := [] }
    else none
  | .connect =>
    if p.net.connected || !p.net.client.running then none
    else some { p with net := { p.net with connected := true } }
  | .send id =>
    if !p.net.connected then none
    else
      match p.net.client.queue with
      | [] => none
      | (w, r) :: rest => some { p with
          net := p.net.setClient { p.net.client with queue := rest }
          reports := p.reports ++ [.sent id w r] }
  | .receive packet =>
    if p.net.connected then some { p with reports := p.reports ++ [.received packet] } else none
  | .handle =>
    match p.reports with
    | [] => none
    | x :: rest =>
      if !p.net.connected then none
      else some { p.note x with reports := rest, net := p.net.follow (.notice x.notice) }

def run (p : Peer) (as : List Act) : Option Peer :=
  as.foldlM step p

end Peer

/-- A packet accepts a request that went out under an identifier: it is of the kind of the
request, carries the identifier, and grants every filter. -/
structure Request.GrantedBy (r : Request) (id : Mqtt.PacketId) (packet : Mqtt.Packet) : Prop where
  acknowledges : ∃ k, r.ackKind? = some k ∧ packet.acknowledged? = some (k, id)
  enough : r.filters ≤ packet.grants.length
  granted : ∀ g ∈ packet.grants, g.isGranted = true

/-- Only a full grant of its own request lets a call return well, and no call returns with an
acknowledgement of another kind. -/
structure Peer.Granted (p : Peer) : Prop where
  accepted : ∀ w r, (w, r) ∈ p.net.calls → r.ackKind? ≠ none → (w, .ok ()) ∈ p.net.returned →
    ∃ b ∈ p.bound, b.waiter = w ∧ b.call = w ∧
      ∃ packet, (w, packet) ∈ p.completed ∧ r.GrantedBy b.id packet
  kinds : ∀ w r packet, (w, r) ∈ p.net.calls → (w, packet) ∈ p.completed →
    (w, packet.outcome) ∈ p.net.returned →
    packet.acknowledged?.map Prod.fst = r.ackKind?

end Transport

end LoraBridge
