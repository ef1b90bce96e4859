import LoraBridge.Envelope.Basic
import LoraBridge.Json.Read

/-! Reading envelopes from JSON. Each record collects its fields in a draft, in
which a field that has not been read yet is empty. -/
namespace LoraBridge.Envelope

open Json (RecordField Record Reader required)

/-- A field that keeps its value in one place of the draft. -/
def field {σ α : Type} (name : String) (optional : Bool) (read : Reader α)
    (get : σ → Option α) (set : σ → α → σ) : RecordField σ where
  name := name
  optional := optional
  isSet := fun acc => (get acc).isSome
  read := fun d t acc => (read d t).map (set acc)

namespace DataRate

structure Draft where
  modulation : Option String
  spreadFactor : Option (Option UInt8)
  bandwidth : Option (Option UInt32)
  bitRate : Option (Option UInt32)

def record : Record Draft DataRate where
  name := "DataRate"
  fields :=
    [field "modulation" false Json.readString Draft.modulation
       fun s v => { s with modulation := some v },
     field "spreadFactor" true (Json.readOption Json.readUInt8) Draft.spreadFactor
       fun s v => { s with spreadFactor := some v },
     field "bandwidth" true (Json.readOption Json.readUInt32) Draft.bandwidth
       fun s v => { s with bandwidth := some v },
     field "bitRate" true (Json.readOption Json.readUInt32) Draft.bitRate
       fun s v => { s with bitRate := some v }]
  empty := ⟨none, none, none, none⟩
  finish := fun s => do
    let modulation ← required "modulation" s.modulation
    .ok ⟨modulation, s.spreadFactor.getD none, s.bandwidth.getD none, s.bitRate.getD none⟩

def read : Reader DataRate := record.read

end DataRate

namespace RxInfo

structure Draft where
  mac : Option Eui := none
  time : Option (Option Timestamp) := none
  timestamp : Option UInt32 := none
  frequency : Option UInt32 := none
  channel : Option UInt8 := none
  rfChain : Option UInt8 := none
  crcStatus : Option Int8 := none
  codeRate : Option String := none
  rssi : Option Int32 := none
  snr : Option Double := none
  size : Option UInt32 := none
  dataRate : Option DataRate := none

def record : Record Draft RxInfo where
  name := "RxInfo"
  fields :=
    [field "mac" false Json.readEui Draft.mac fun s v => { s with mac := some v },
     field "time" true (Json.readOption Json.readTimestamp) Draft.time
       fun s v => { s with time := some v },
     field "timestamp" false Json.readUInt32 Draft.timestamp
       fun s v => { s with timestamp := some v },
     field "frequency" false Json.readUInt32 Draft.frequency
       fun s v => { s with frequency := some v },
     field "channel" false Json.readUInt8 Draft.channel fun s v => { s with channel := some v },
     field "rfChain" false Json.readUInt8 Draft.rfChain fun s v => { s with rfChain := some v },
     field "crcStatus" false Json.readInt8 Draft.crcStatus
       fun s v => { s with crcStatus := some v },
     field "codeRate" false Json.readString Draft.codeRate
       fun s v => { s with codeRate := some v },
     field "rssi" false Json.readInt32 Draft.rssi fun s v => { s with rssi := some v },
     field "loRaSNR" false Json.readDouble Draft.snr fun s v => { s with snr := some v },
     field "size" false Json.readUInt32 Draft.size fun s v => { s with size := some v },
     field "dataRate" false DataRate.read Draft.dataRate
       fun s v => { s with dataRate := some v }]
  empty := {}
  finish := fun s => do
    let mac ← required "mac" s.mac
    let timestamp ← required "timestamp" s.timestamp
    let frequency ← required "frequency" s.frequency
    let channel ← required "channel" s.channel
    let rfChain ← required "rfChain" s.rfChain
    let crcStatus ← required "crcStatus" s.crcStatus
    let codeRate ← required "codeRate" s.codeRate
    let rssi ← required "rssi" s.rssi
    let snr ← required "loRaSNR" s.snr
    let size ← required "size" s.size
    let dataRate ← required "dataRate" s.dataRate
    .ok ⟨mac, s.time.getD none, timestamp, frequency, channel, rfChain, crcStatus, codeRate,
      rssi, snr, size, dataRate⟩

def read : Reader RxInfo := record.read

end RxInfo

namespace UplinkFrame

structure Draft where
  rxInfo : Option RxInfo := none
  payload : Option (List UInt8) := none

def record : Record Draft UplinkFrame where
  name := "UplinkFrame"
  fields :=
    [field "rxInfo" false RxInfo.read Draft.rxInfo fun s v => { s with rxInfo := some v },
     field "phyPayload" false Json.readBytes Draft.payload
       fun s v => { s with payload := some v }]
  empty := {}
  finish := fun s => do
    let rxInfo ← required "rxInfo" s.rxInfo
    let payload ← required "phyPayload" s.payload
    .ok ⟨rxInfo, payload⟩

def read : Reader UplinkFrame := record.read

end UplinkFrame

namespace TxInfo

structure Draft where
  mac : Option Eui := none
  immediately : Option Bool := none
  timestamp : Option UInt32 := none
  frequency : Option UInt32 := none
  power : Option Int32 := none
  dataRate : Option DataRate := none
  codeRate : Option String := none
  inverted : Option (Option Bool) := none

def record : Record Draft TxInfo where
  name := "TxInfo"
  fields :=
    [field "mac" false Json.readEui Draft.mac fun s v => { s with mac := some v },
     field "immediately" true Json.readBool Draft.immediately
       fun s v => { s with immediately := some v },
     field "timestamp" true Json.readUInt32 Draft.timestamp
       fun s v => { s with timestamp := some v },
     field "frequency" false Json.readUInt32 Draft.frequency
       fun s v => { s with frequency := some v },
     field "power" false Json.readInt32 Draft.power fun s v => { s with power := some v },
     field "dataRate" false DataRate.read Draft.dataRate
       fun s v => { s with dataRate := some v },
     field "codeRate" true Json.readString Draft.codeRate
       fun s v => { s with codeRate := some v },
     field "iPol" true (Json.readOption Json.readBool) Draft.inverted
       fun s v => { s with inverted := some v }]
  empty := {}
  finish := fun s => do
    let mac ← required "mac" s.mac
    let frequency ← required "frequency" s.frequency
    let power ← required "power" s.power
    let dataRate ← required "dataRate" s.dataRate
    .ok ⟨mac, s.immediately.getD false, s.timestamp.getD 0, frequency, power, dataRate,
      s.codeRate.getD "", s.inverted.getD none⟩

def read : Reader TxInfo := record.read

end TxInfo

namespace DownlinkFrame

structure Draft where
  token : Option UInt16 := none
  txInfo : Option TxInfo := none
  payload : Option (List UInt8) := none

def record : Record Draft DownlinkFrame where
  name := "DownlinkFrame"
  fields :=
    [field "token" true Json.readUInt16 Draft.token fun s v => { s with token := some v },
     field "txInfo" false TxInfo.read Draft.txInfo fun s v => { s with txInfo := some v },
     field "phyPayload" false Json.readBytes Draft.payload
       fun s v => { s with payload := some v }]
  empty := {}
  finish := fun s => do
    let txInfo ← required "txInfo" s.txInfo
    let payload ← required "phyPayload" s.payload
    .ok ⟨s.token.getD 0, txInfo, payload⟩

def read : Reader DownlinkFrame := record.read

end DownlinkFrame

namespace DownlinkAck

structure Draft where
  mac : Option Eui := none
  token : Option UInt16 := none
  error : Option String := none

def record : Record Draft DownlinkAck where
  name := "DownlinkAck"
  fields :=
    [field "mac" false Json.readEui Draft.mac fun s v => { s with mac := some v },
     field "token" false Json.readUInt16 Draft.token fun s v => { s with token := some v },
     field "error" true Json.readString Draft.error fun s v => { s with error := some v }]
  empty := {}
  finish := fun s => do
    let mac ← required "mac" s.mac
    let token ← required "token" s.token
    .ok ⟨mac, token, s.error.getD ""⟩

def read : Reader DownlinkAck := record.read

end DownlinkAck

namespace GatewayStats

structure Draft where
  mac : Option Eui := none
  time : Option Timestamp := none
  latitude : Option (Option Double) := none
  longitude : Option (Option Double) := none
  altitude : Option (Option Double) := none
  rxReceived : Option UInt32 := none
  rxReceivedOk : Option UInt32 := none
  txReceived : Option UInt32 := none
  txEmitted : Option UInt32 := none
  custom : Option (List (String × Json.Value)) := none

def record : Record Draft GatewayStats where
  name := "GatewayStats"
  fields :=
    [field "mac" false Json.readEui Draft.mac fun s v => { s with mac := some v },
     field "time" false Json.readTimestamp Draft.time fun s v => { s with time := some v },
     field "latitude" true (Json.readOption Json.readDouble) Draft.latitude
       fun s v => { s with latitude := some v },
     field "longitude" true (Json.readOption Json.readDouble) Draft.longitude
       fun s v => { s with longitude := some v },
     field "altitude" true (Json.readOption Json.readDouble) Draft.altitude
       fun s v => { s with altitude := some v },
     field "rxPacketsReceived" false Json.readUInt32 Draft.rxReceived
       fun s v => { s with rxReceived := some v },
     field "rxPacketsReceivedOK" false Json.readUInt32 Draft.rxReceivedOk
       fun s v => { s with rxReceivedOk := some v },
     field "txPacketsReceived" false Json.readUInt32 Draft.txReceived
       fun s v => { s with txReceived := some v },
     field "txPacketsEmitted" false Json.readUInt32 Draft.txEmitted
       fun s v => { s with txEmitted := some v },
     field "customData" true Json.readMembers Draft.custom
       fun s v => { s with custom := some v }]
  empty := {}
  finish := fun s => do
    let mac ← required "mac" s.mac
    let time ← required "time" s.time
    let rxReceived ← required "rxPacketsReceived" s.rxReceived
    let rxReceivedOk ← required "rxPacketsReceivedOK" s.rxReceivedOk
    let txReceived ← required "txPacketsReceived" s.txReceived
    let txEmitted ← required "txPacketsEmitted" s.txEmitted
    .ok ⟨mac, time, s.latitude.getD none, s.longitude.getD none, s.altitude.getD none,
      rxReceived, rxReceivedOk, txReceived, txEmitted, s.custom.getD []⟩

def read : Reader GatewayStats := record.read

end GatewayStats

end LoraBridge.Envelope
