import LoraBridge.Envelope.Basic
import LoraBridge.Json.Read

/-! The JSON values of envelopes. Fields come in their declared order; optional
fields that are not set, an empty acknowledgement error and an empty map of
custom values are left out. -/
namespace LoraBridge.Envelope

open Json (Value WideInt)

def natValue (n : Nat) (h : n < 0x10000000000000000) : Value :=
  .integer (.ofNat n h)

def word8 (n : UInt8) : Value := natValue n.toNat (by have := n.toNat_lt; omega)
def word16 (n : UInt16) : Value := natValue n.toNat (by have := n.toNat_lt; omega)
def word32 (n : UInt32) : Value := natValue n.toNat (by have := n.toNat_lt; omega)

def int8 (n : Int8) : Value :=
  .integer ⟨n.toInt, by have := n.toInt_lt; have := n.le_toInt; omega⟩

def int32 (n : Int32) : Value :=
  .integer ⟨n.toInt, by have := n.toInt_lt; have := n.le_toInt; omega⟩

def payloadText (bytes : List UInt8) : String :=
  String.ofList ((Text.Base64.encode bytes).map fun b => Char.ofNat b.toNat)

/-- A member that is left out when it has no value. -/
def optional {α : Type} (name : String) (value : α → Value) : Option α → List (String × Value)
  | some a => [(name, value a)]
  | none => []

def DataRate.value (r : DataRate) : Value :=
  .object <|
    [("modulation", .string r.modulation)] ++
    optional "spreadFactor" word8 r.spreadFactor ++
    optional "bandwidth" word32 r.bandwidth ++
    optional "bitRate" word32 r.bitRate

def RxInfo.value (r : RxInfo) : Value :=
  .object <|
    [("mac", .string r.mac.text)] ++
    optional "time" (fun t => .string t.text) r.time ++
    [("timestamp", word32 r.timestamp),
     ("frequency", word32 r.frequency),
     ("channel", word8 r.channel),
     ("rfChain", word8 r.rfChain),
     ("crcStatus", int8 r.crcStatus),
     ("codeRate", .string r.codeRate),
     ("rssi", int32 r.rssi),
     ("loRaSNR", .float r.snr),
     ("size", word32 r.size),
     ("dataRate", r.dataRate.value)]

def UplinkFrame.value (f : UplinkFrame) : Value :=
  .object [("rxInfo", f.rxInfo.value), ("phyPayload", .string (payloadText f.payload))]

def TxInfo.value (t : TxInfo) : Value :=
  .object <|
    [("mac", .string t.mac.text),
     ("immediately", .bool t.immediately),
     ("timestamp", word32 t.timestamp),
     ("frequency", word32 t.frequency),
     ("power", int32 t.power),
     ("dataRate", t.dataRate.value),
     ("codeRate", .string t.codeRate)] ++
    optional "iPol" .bool t.inverted

def DownlinkFrame.value (f : DownlinkFrame) : Value :=
  .object
    [("token", word16 f.token),
     ("txInfo", f.txInfo.value),
     ("phyPayload", .string (payloadText f.payload))]

def DownlinkAck.value (a : DownlinkAck) : Value :=
  .object <|
    [("mac", .string a.mac.text), ("token", word16 a.token)] ++
    (if a.error = "" then [] else [("error", .string a.error)])

def GatewayStats.value (s : GatewayStats) : Value :=
  .object <|
    [("mac", .string s.mac.text), ("time", .string s.time.text)] ++
    optional "latitude" .float s.latitude ++
    optional "longitude" .float s.longitude ++
    optional "altitude" .float s.altitude ++
    [("rxPacketsReceived", word32 s.rxReceived),
     ("rxPacketsReceivedOK", word32 s.rxReceivedOk),
     ("txPacketsReceived", word32 s.txReceived),
     ("txPacketsEmitted", word32 s.txEmitted)] ++
    (if s.custom.isEmpty then [] else [("customData", .object s.custom)])

end LoraBridge.Envelope
