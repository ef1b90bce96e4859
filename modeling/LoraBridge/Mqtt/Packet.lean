import LoraBridge.Transport.Request

/-! What the client of a broker is told of its connection: the packets of MQTT 3.1.1
that came in, and notices of those that went out. -/
namespace LoraBridge.Mqtt

abbrev PacketId := UInt16

inductive Grant where
  | granted (qos : Transport.Qos)
  | refused
deriving DecidableEq

inductive Packet where
  | connAck (sessionPresent : Bool)
  | publish (topic : String) (payload : List UInt8)
  | pubAck (id : PacketId)
  | pubRec (id : PacketId)
  | pubRel (id : PacketId)
  | pubComp (id : PacketId)
  | subAck (id : PacketId) (grants : List Grant)
  | unsubAck (id : PacketId)
  | pingReq
  | pingResp
  | disconnect
  | foreign (text : String)
deriving DecidableEq

inductive Sent where
  | publish (id : PacketId)
  | subscribe (id : PacketId)
  | unsubscribe (id : PacketId)
  | pubAck (id : PacketId)
  | pubRec (id : PacketId)
  | pubRel (id : PacketId)
  | pubComp (id : PacketId)
  | pingReq
  | pingResp
  | disconnect
  | awaitAck (id : PacketId)
deriving DecidableEq

inductive Notice where
  | received (packet : Packet)
  | sent (packet : Sent)
deriving DecidableEq

end LoraBridge.Mqtt
