import LoraBridge.Envelope.Decode
import LoraBridge.Envelope.Encode
import LoraBridge.Proofs.Eui.Text
import LoraBridge.Proofs.Json.Records
import LoraBridge.Proofs.Text.Base64

/-! Envelopes read back from their values. -/
namespace LoraBridge

namespace Json

open Envelope (int8 int32 natValue payloadText word8 word16 word32)

@[simp] theorem readEui_tree (d : Nat) (e : Eui) : readEui d (Value.string e.text).tree = .ok e :=
  readText_tree (by rw [Eui.parse_text, mapError_ok]) d

@[simp] theorem utf8_payloadText (bytes : List UInt8) :
    (payloadText bytes).toUTF8.toList = Text.Base64.encode bytes := by
  rw [Text.toUTF8_toList, payloadText, String.toList_ofList]
  exact Text.utf8_map_ofNat fun _ => Text.Base64.toNat_lt_of_mem_encode

@[simp] theorem readBytes_tree (d : Nat) (bytes : List UInt8) :
    readBytes d (Value.string (payloadText bytes)).tree = .ok bytes :=
  readText_tree (by rw [utf8_payloadText, Text.Base64.decode_encode, mapError_ok]) d

@[simp] theorem readUInt8_tree (d : Nat) (n : UInt8) : readUInt8 d (word8 n).tree = .ok n := by
  have h := n.toNat_lt
  rw [readUInt8, word8, natValue, readInt_tree (by simp only [WideInt.ofNat]; omega), map_ok]
  simp [WideInt.ofNat]

@[simp] theorem readUInt16_tree (d : Nat) (n : UInt16) : readUInt16 d (word16 n).tree = .ok n := by
  have h := n.toNat_lt
  rw [readUInt16, word16, natValue, readInt_tree (by simp only [WideInt.ofNat]; omega), map_ok]
  simp [WideInt.ofNat]

@[simp] theorem readUInt32_tree (d : Nat) (n : UInt32) : readUInt32 d (word32 n).tree = .ok n := by
  have h := n.toNat_lt
  rw [readUInt32, word32, natValue, readInt_tree (by simp only [WideInt.ofNat]; omega), map_ok]
  simp [WideInt.ofNat]

@[simp] theorem readInt8_tree (d : Nat) (n : Int8) : readInt8 d (int8 n).tree = .ok n := by
  have hlow := n.le_toInt
  have hhigh := n.toInt_lt
  rw [readInt8, int8, readInt_tree (by simp only; omega), map_ok, Int8.ofInt_toInt]

@[simp] theorem readInt32_tree (d : Nat) (n : Int32) : readInt32 d (int32 n).tree = .ok n := by
  have hlow := n.le_toInt
  have hhigh := n.toInt_lt
  rw [readInt32, int32, readInt_tree (by simp only; omega), map_ok, Int32.ofInt_toInt]

end Json

def Timestamp.ReadsBack (t : Timestamp) : Prop :=
  parse? t.text.toList = some t

@[simp] theorem Json.readTimestamp_tree {t : Timestamp} (h : t.ReadsBack) (d : Nat) :
    readTimestamp d (Value.string t.text).tree = .ok t := by
  have hparse : Timestamp.parse? t.text.toList = some t := h
  rw [Value.tree, readTimestamp, ← Value.tree]
  exact readText_tree (by simp only [hparse]) d

namespace Json

open Envelope (natValue word8 word32)

@[simp] theorem readOption_word8 (d : Nat) (n : UInt8) :
    readOption readUInt8 d (word8 n).tree = .ok (some n) :=
  readOption_some (readUInt8_tree d n) (by simp [word8, natValue, Value.tree])

@[simp] theorem readOption_word32 (d : Nat) (n : UInt32) :
    readOption readUInt32 d (word32 n).tree = .ok (some n) :=
  readOption_some (readUInt32_tree d n) (by simp [word32, natValue, Value.tree])

@[simp] theorem readOption_bool (d : Nat) (b : Bool) :
    readOption readBool d (Value.bool b).tree = .ok (some b) :=
  readOption_some (readBool_tree d b) (by simp [Value.tree])

private theorem readOption_double {x : Double} (h : x.ReadsBack) (d : Nat) :
    readOption readDouble d (Value.float x).tree = .ok (some x) :=
  readOption_some (readDouble_tree h d) (by simp [Value.tree])

private theorem readOption_timestamp {t : Timestamp} (h : t.ReadsBack) (d : Nat) :
    readOption readTimestamp d (Value.string t.text).tree = .ok (some t) :=
  readOption_some (readTimestamp_tree h d) (by simp [Value.tree])

theorem readMembers_tree {d : Nat} {ms ms' : List (String × Value)} (hperm : ms'.Perm ms)
    (hfits : (Value.object ms).Fits d) (hfloat : ∀ m ∈ ms, m.2.EachFloat Double.ReadsBack) :
    readMembers d (Value.object ms').tree = .ok ms := by
  cases hfits with
  | object h hascending =>
    have hread := readValue_object hperm hascending fun m hm =>
      readValue_tree (h m hm) (hfloat m hm)
    rw [Value.tree, readMembers, ← Value.tree, hread]
    rfl

end Json

namespace Envelope

open Json (Value readFields readFields_append readFields_cons required)
open Json.Value (memberTrees)

@[simp]
theorem DataRate.read_value (d : Nat) (r : DataRate) : read (d + 1) r.value.tree = .ok r := by
  obtain ⟨modulation, spreadFactor, bandwidth, bitRate⟩ := r
  rw [value, read, Json.Record.read_object]
  cases spreadFactor <;> cases bandwidth <;> cases bitRate <;>
    simp [record, readFields_cons, field, optional, required]

/-- The floating point number and the time of a reception read back. -/
structure RxInfo.ReadsBack (r : RxInfo) : Prop where
  snr : r.snr.ReadsBack
  time : ∀ t, r.time = some t → t.ReadsBack

theorem RxInfo.read_value (d : Nat) {r : RxInfo} (h : r.ReadsBack) :
    read (d + 2) r.value.tree = .ok r := by
  obtain ⟨mac, time, timestamp, frequency, channel, rfChain, crcStatus, codeRate, rssi, snr, size,
    dataRate⟩ := r
  have hsnr := Json.readDouble_tree h.snr (d + 1)
  have hrate := DataRate.read_value d dataRate
  rw [value, read, Json.Record.read_object]
  cases time with
  | none => simp [record, readFields_cons, field, optional, required, hsnr, hrate]
  | some t =>
    have htime := Json.readOption_timestamp (h.time t rfl) (d + 1)
    simp [record, readFields_cons, field, optional, required, hsnr, hrate, htime]

@[simp] theorem UplinkFrame.read_value (d : Nat) {f : UplinkFrame} (h : f.rxInfo.ReadsBack) :
    read (d + 3) f.value.tree = .ok f := by
  have hinfo := RxInfo.read_value d h
  rw [value, read, Json.Record.read_object]
  simp [record, readFields_cons, field, required, hinfo]

@[simp] theorem TxInfo.read_value (d : Nat) (t : TxInfo) : read (d + 2) t.value.tree = .ok t := by
  obtain ⟨mac, immediately, timestamp, frequency, power, dataRate, codeRate, inverted⟩ := t
  have hrate := DataRate.read_value d dataRate
  rw [value, read, Json.Record.read_object]
  cases inverted <;> simp [record, readFields_cons, field, optional, required, hrate]

@[simp] theorem DownlinkFrame.read_value (d : Nat) (f : DownlinkFrame) :
    read (d + 3) f.value.tree = .ok f := by
  have hinfo := TxInfo.read_value d f.txInfo
  rw [value, read, Json.Record.read_object]
  simp [record, readFields_cons, field, required, hinfo]

@[simp]
theorem DownlinkAck.read_value (d : Nat) (a : DownlinkAck) : read (d + 1) a.value.tree = .ok a := by
  obtain ⟨mac, token, error⟩ := a
  rw [value, read, Json.Record.read_object]
  by_cases h : error = "" <;> simp [record, readFields_cons, field, required, h]

structure GatewayStats.ReadsBack (s : GatewayStats) : Prop where
  time : s.time.ReadsBack
  latitude : ∀ x, s.latitude = some x → x.ReadsBack
  longitude : ∀ x, s.longitude = some x → x.ReadsBack
  altitude : ∀ x, s.altitude = some x → x.ReadsBack
  custom : ∀ m ∈ s.custom, m.2.EachFloat Double.ReadsBack

theorem readFields_optional {σ α : Type} {fields : List (Json.RecordField σ)} {name : String}
    {read : Json.Reader α} {get : σ → Option (Option α)} {set : σ → Option α → σ}
    (hfield : fields.find? (fun f => f.name == name) =
      some (field name true (Json.readOption read) get set))
    {d : Nat} {acc acc' : σ} (hnone : get acc = none) {value : α → Value} {o : Option α}
    (hread : ∀ a, o = some a → Json.readOption read d (value a).tree = .ok (some a))
    (hset : (o.elim acc fun a => set acc (some a)) = acc') :
    readFields fields d (memberTrees (optional name value o)) acc = .ok acc' := by
  cases o with
  | none => rw [optional, Json.readFields_nil, ← hset, Option.elim_none]
  | some a =>
    rw [optional, readFields_cons, hfield, ← hset]
    simp [field, hnone, hread]

theorem GatewayStats.readFields_location {d : Nat} {s : GatewayStats} (h : s.ReadsBack) :
    readFields record.fields d (memberTrees
        ([("mac", .string s.mac.text), ("time", .string s.time.text)] ++
          optional "latitude" .float s.latitude ++ optional "longitude" .float s.longitude ++
          optional "altitude" .float s.altitude)) record.empty =
      .ok ⟨some s.mac, some s.time, s.latitude.map some, s.longitude.map some,
        s.altitude.map some, none, none, none, none, none⟩ := by
  -- One field after the other: with all of them at once each optional one would double the
  -- cases.
  have hhead : readFields record.fields d (memberTrees
      [("mac", .string s.mac.text), ("time", .string s.time.text)]) record.empty =
        .ok ⟨some s.mac, some s.time, none, none, none, none, none, none, none, none⟩ := by
    simp [record, readFields_cons, field, Json.readTimestamp_tree h.time]
  have hlatitude : readFields record.fields d (memberTrees (optional "latitude" .float s.latitude))
      ⟨some s.mac, some s.time, none, none, none, none, none, none, none, none⟩ =
        .ok ⟨some s.mac, some s.time, s.latitude.map some, none, none, none, none, none, none,
          none⟩ :=
    readFields_optional rfl rfl (fun x hx => Json.readOption_double (h.latitude x hx) d)
      (by cases s.latitude <;> rfl)
  have hlongitude : readFields record.fields d
      (memberTrees (optional "longitude" .float s.longitude))
      ⟨some s.mac, some s.time, s.latitude.map some, none, none, none, none, none, none, none⟩ =
        .ok ⟨some s.mac, some s.time, s.latitude.map some, s.longitude.map some, none, none, none,
          none, none, none⟩ :=
    readFields_optional rfl rfl (fun x hx => Json.readOption_double (h.longitude x hx) d)
      (by cases s.longitude <;> rfl)
  have haltitude : readFields record.fields d (memberTrees (optional "altitude" .float s.altitude))
      ⟨some s.mac, some s.time, s.latitude.map some, s.longitude.map some, none, none, none, none,
        none, none⟩ =
        .ok ⟨some s.mac, some s.time, s.latitude.map some, s.longitude.map some,
          s.altitude.map some, none, none, none, none, none⟩ :=
    readFields_optional rfl rfl (fun x hx => Json.readOption_double (h.altitude x hx) d)
      (by cases s.altitude <;> rfl)
  rw [Value.memberTrees_append, Value.memberTrees_append, Value.memberTrees_append,
    readFields_append, readFields_append, readFields_append, hhead, ok_bind, hlatitude, ok_bind,
    hlongitude, ok_bind, haltitude]

theorem GatewayStats.readFields_custom {d : Nat} {s : GatewayStats} (h : s.ReadsBack)
    (hfits : (Value.object s.custom).Fits d) {ms : List (String × Value)}
    (hperm : ms.Perm s.custom) (acc : Draft) (hnone : acc.custom = none) :
    ∃ custom, readFields record.fields d (memberTrees
      (if ms.isEmpty then [] else [("customData", .object ms)])) acc = .ok { acc with custom } ∧
        custom.getD [] = s.custom := by
  cases ms with
  | nil =>
    refine ⟨none, ?_, hperm.nil_eq⟩
    rw [← hnone]
    exact Json.readFields_nil _ _ _
  | cons m ms =>
    refine ⟨some s.custom, ?_, rfl⟩
    simp [record, readFields_cons, field, hnone, Json.readMembers_tree hperm hfits h.custom]

theorem GatewayStats.read_value {d : Nat} {s : GatewayStats} (h : s.ReadsBack)
    (hfits : (Value.object s.custom).Fits d) {ms : List (String × Value)}
    (hperm : ms.Perm s.custom) : read (d + 1) (value { s with custom := ms }).tree = .ok s := by
  have hcounts : readFields record.fields d (memberTrees
      [("rxPacketsReceived", word32 s.rxReceived), ("rxPacketsReceivedOK", word32 s.rxReceivedOk),
       ("txPacketsReceived", word32 s.txReceived), ("txPacketsEmitted", word32 s.txEmitted)])
      ⟨some s.mac, some s.time, s.latitude.map some, s.longitude.map some, s.altitude.map some,
        none, none, none, none, none⟩ =
        .ok ⟨some s.mac, some s.time, s.latitude.map some, s.longitude.map some,
          s.altitude.map some, some s.rxReceived, some s.rxReceivedOk, some s.txReceived,
          some s.txEmitted, none⟩ := by
    simp [record, readFields_cons, field]
  obtain ⟨custom, hcustom, hsame⟩ := readFields_custom h hfits hperm
    ⟨some s.mac, some s.time, s.latitude.map some, s.longitude.map some, s.altitude.map some,
      some s.rxReceived, some s.rxReceivedOk, some s.txReceived, some s.txEmitted, none⟩ rfl
  have hoptional : ∀ o : Option Double, (o.map some).getD none = o := by
    intro o
    cases o <;> rfl
  rw [value, read, Json.Record.read_object, Value.memberTrees_append, Value.memberTrees_append,
    readFields_append, readFields_append, readFields_location h, ok_bind, hcounts, ok_bind,
    hcustom, ok_bind]
  simp [record, required, hoptional, hsame]

end Envelope

end LoraBridge
