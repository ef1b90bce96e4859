import LoraBridge.Eui
import LoraBridge.Json.Value
import LoraBridge.Timestamp

/-! The envelopes exchanged with the network server. Radio frames are opaque
bytes; the metadata around them is carried as it is. -/
namespace LoraBridge.Envelope

structure DataRate where
  modulation : String
  spreadFactor : Option UInt8
  bandwidth : Option UInt32
  bitRate : Option UInt32
deriving DecidableEq

structure RxInfo where
  mac : Eui
  time : Option Timestamp
  timestamp : UInt32
  frequency : UInt32
  channel : UInt8
  rfChain : UInt8
  crcStatus : Int8
  codeRate : String
  rssi : Int32
  snr : Double
  size : UInt32
  dataRate : DataRate
deriving DecidableEq

structure UplinkFrame where
  rxInfo : RxInfo
  payload : List UInt8
deriving DecidableEq

structure TxInfo where
  mac : Eui
  immediately : Bool
  timestamp : UInt32
  frequency : UInt32
  power : Int32
  dataRate : DataRate
  codeRate : String
  inverted : Option Bool
deriving DecidableEq

structure DownlinkFrame where
  token : UInt16
  txInfo : TxInfo
  payload : List UInt8
deriving DecidableEq

structure DownlinkAck where
  mac : Eui
  token : UInt16
  error : String
deriving DecidableEq

structure GatewayStats where
  mac : Eui
  time : Timestamp
  latitude : Option Double
  longitude : Option Double
  altitude : Option Double
  rxReceived : UInt32
  rxReceivedOk : UInt32
  txReceived : UInt32
  txEmitted : UInt32
  custom : List (String × Json.Value)

end LoraBridge.Envelope
