import LoraBridge.Mqtt.Packet

/-! What a notice of the connection means for the client. -/
namespace LoraBridge.Mqtt

inductive Route where
  | acknowledged (sessionPresent : Bool)
  | message (topic : String) (payload : List UInt8)
  | subscribeSent (id : PacketId)
  | unsubscribeSent (id : PacketId)
  | subscribeAnswered (id : PacketId) (accepted : Bool)
  | unsubscribeAnswered (id : PacketId)
  | disconnectSent
  | disconnected
  | infrastructure (text : String)
  | outgoing
deriving DecidableEq

def Grant.isGranted : Grant → Bool
  | .granted _ => true
  | .refused => false

def accepted (grants : List Grant) : Bool :=
  grants.all Grant.isGranted

def numbered (name : String) (id : PacketId) : String :=
  s!"{name}({name} \x7b pkid: {id.toNat} \x7d)"

def Packet.route : Packet → Route
  | .connAck sessionPresent => .acknowledged sessionPresent
  | .publish topic payload => .message topic payload
  | .subAck id grants => .subscribeAnswered id (accepted grants)
  | .unsubAck id => .unsubscribeAnswered id
  | .disconnect => .disconnected
  | .pubAck id => .infrastructure (numbered "PubAck" id)
  | .pubRec id => .infrastructure (numbered "PubRec" id)
  | .pubRel id => .infrastructure (numbered "PubRel" id)
  | .pubComp id => .infrastructure (numbered "PubComp" id)
  | .pingReq => .infrastructure "PingReq"
  | .pingResp => .infrastructure "PingResp"
  | .foreign text => .infrastructure text

def Sent.route : Sent → Route
  | .subscribe id => .subscribeSent id
  | .unsubscribe id => .unsubscribeSent id
  | .disconnect => .disconnectSent
  | .publish _ | .pubAck _ | .pubRec _ | .pubRel _ | .pubComp _ | .awaitAck _
  | .pingReq | .pingResp => .outgoing

def Notice.route : Notice → Route
  | .received packet => packet.route
  | .sent packet => packet.route

end LoraBridge.Mqtt
