import LoraBridge.Proofs.Envelope.Reading

/-! Envelopes survive being written and read. What is written is read back, and what was read
from any text is written so that it is read back, with the radio frame as it stood in the text. -/
namespace LoraBridge.Envelope

open Json (Document Reader Record Value decode maxDepth reread)

/-- The values that statistics are written as: a map lists its members in any order. -/
def GatewayStats.Written (s : GatewayStats) (v : Value) : Prop :=
  ∃ ms : List (String × Value), ms.Perm s.custom ∧ v = value { s with custom := ms }

theorem GatewayStats.written_value (s : GatewayStats) : s.Written s.value :=
  ⟨s.custom, .refl _, rfl⟩

/-- The custom values are a map within the depth that texts may have. -/
def GatewayStats.Fits (s : GatewayStats) : Prop :=
  (Value.object s.custom).Fits (maxDepth - 1)

/-- Writing and reading undo each other for the envelopes whose numbers and times read back. -/
structure RoundTrips {α : Type} (read : Reader α) (Written : α → Value → Prop)
    (ReadsBack Fits : α → Prop) (entries : α → Nat) : Prop where
  encoded : ∀ a v, ReadsBack a → Fits a → Written a v → reread read v = .ok a
  /-- The second text is the first one, where no map has an order to choose. -/
  decoded : ∀ bytes a v, decode read bytes = .ok a → ReadsBack a → Written a v →
    reread read v = .ok a ∧ ∀ v', entries a ≤ 1 → Written a v' → v'.text = v.text

def carriedText? {σ α : Type} (r : Record σ α) (name : String) (bytes : List UInt8) :
    Option String :=
  match r.carried? name (Document.ofBytes bytes).root with
  | some (.string q) => q.read.toOption
  | _ => none

/-- The radio frame is written as the string that it was read from. -/
def KeepsPayload {σ α : Type} (r : Record σ α) (value : α → Value) (payload : α → List UInt8) :
    Prop :=
  ∀ bytes a, decode r.read bytes = .ok a →
    carriedText? r "phyPayload" bytes = some (payloadText (payload a)) ∧
      carriedText? r "phyPayload" (value a).text.toUTF8.toList = some (payloadText (payload a))

theorem read_of_decode {α : Type} {read : Reader α} {bytes : List UInt8} {a : α}
    (h : decode read bytes = .ok a) : read maxDepth (Document.ofBytes bytes).root = .ok a := by
  obtain ⟨b, hb, h⟩ := bind_eq_ok.1 h
  split at h
  · cases h
  · cases h
    exact hb

/-- Where envelopes are written in one way, what is written is read back. -/
theorem roundTrips_of_value {α : Type} {read : Reader α} {value : α → Value}
    {ReadsBack : α → Prop} (h : ∀ a, ReadsBack a → read maxDepth (value a).tree = .ok a) :
    RoundTrips read (fun a v => v = value a) ReadsBack (fun _ => True) (fun _ => 0) := by
  have hread : ∀ a v, ReadsBack a → v = value a → reread read v = .ok a := by
    rintro a _ ha rfl
    rw [Json.reread_eq, h a ha]
  constructor
  · intro a v ha _ hv
    exact hread a v ha hv
  · rintro bytes a v - ha hv
    refine ⟨hread a v ha hv, ?_⟩
    rintro v' - hv'
    rw [hv, hv']

theorem GatewayStats.writes_custom :
    Json.Writes record.fields "customData" Json.readMembers Draft.custom where
  known := by simp [record, field]
  isSet := by simp [record, field]
  own := by simp [record, field, map_eq_ok]
  others := by simp [record, field, map_eq_ok]

theorem GatewayStats.custom_of_finish {acc : Draft} {s : GatewayStats}
    (h : record.finish acc = .ok s) : s.custom = acc.custom.getD [] := by
  obtain ⟨mac, -, h⟩ := bind_eq_ok.1 h
  obtain ⟨time, -, h⟩ := bind_eq_ok.1 h
  obtain ⟨rxReceived, -, h⟩ := bind_eq_ok.1 h
  obtain ⟨rxReceivedOk, -, h⟩ := bind_eq_ok.1 h
  obtain ⟨txReceived, -, h⟩ := bind_eq_ok.1 h
  obtain ⟨txEmitted, -, h⟩ := bind_eq_ok.1 h
  cases h
  rfl

theorem GatewayStats.fits_of_decode {bytes : List UInt8} {s : GatewayStats}
    (h : decode read bytes = .ok s) : s.Fits := by
  obtain ⟨acc, hfinish, hcarried⟩ :=
    Json.carried_of_read writes_custom rfl (by decide) (read_of_decode h)
  rw [GatewayStats.Fits, custom_of_finish hfinish]
  cases hcustom : acc.custom with
  | none => exact .object nofun .nil
  | some ms =>
    obtain ⟨u, -, hu⟩ := hcarried ms hcustom
    exact Json.fits_of_readMembers hu

theorem GatewayStats.roundTrips :
    RoundTrips read Written ReadsBack Fits (fun s => s.custom.length) := by
  have hread : ∀ s v, s.ReadsBack → s.Fits → s.Written v → reread read v = .ok s := by
    rintro s _ hs hfits ⟨ms, hperm, rfl⟩
    rw [Json.reread_eq]
    exact read_value hs hfits hperm
  refine ⟨hread, ?_⟩
  rintro bytes s v hdecode hs hv
  refine ⟨hread s v hs (fits_of_decode hdecode) hv, ?_⟩
  rintro v' hlen ⟨ms', hperm', rfl⟩
  obtain ⟨ms, hperm, rfl⟩ := hv
  have hone : ∀ l : List (String × Value), l.Perm s.custom → l = s.custom := by
    intro l hl
    rcases hcustom : s.custom with _ | ⟨m, _ | ⟨m', more⟩⟩ <;> rw [hcustom] at hl hlen
    · exact hl.eq_nil
    · exact List.perm_singleton.1 hl
    · simp at hlen
  rw [hone ms' hperm', hone ms hperm]

theorem carriedText?_value {σ α : Type} (r : Record σ α) (name : String)
    (ms : List (String × Value)) {s : String}
    (h : ms.find? (fun m => m.1 == name) = some (name, .string s)) :
    carriedText? r name (Value.object ms).text.toUTF8.toList = some s := by
  have hname : (fun m : String × Value =>
      (Json.Quoted.ofText m.1).read.toOption == some name) = fun m => m.1 == name := by
    funext m
    simp [Except.toOption]
  have hfind : (Value.memberTrees ms).find? (fun m => m.1.read.toOption == some name) =
      some (.ofText name, .string (.ofText s)) := by
    rw [Value.memberTrees_eq, List.find?_map, Function.comp_def, hname, h, Option.map_some,
      Value.tree]
  rw [carriedText?, Document.ofBytes_text, Value.tree, Record.carried?, hfind]
  simp [Except.toOption]

theorem payload_of_readBytes {d : Nat} {t : Json.Tree} {payload : List UInt8}
    (h : Json.readBytes d t = .ok payload) :
    ∃ q, t = .string q ∧ q.read = .ok (payloadText payload) := by
  obtain ⟨s, hs, h⟩ := bind_eq_ok.1 h
  have hdecode : Text.Base64.decode s.toUTF8.toList = .ok payload := by
    split at h
    · next hparse =>
      cases h
      exact mapError_eq_ok.1 hparse
    · cases h
  have htext : payloadText payload = s := by
    apply Text.utf8_inj
    rw [← Text.toUTF8_toList, ← Text.toUTF8_toList, Json.utf8_payloadText,
      Text.Base64.encode_of_decode hdecode]
  cases t with
  | string q => exact ⟨q, rfl, htext ▸ hs⟩
  | _ => exact absurd hs (Json.Tree.refuse_ne_ok _ _ _)

theorem keepsPayload {σ α : Type} {r : Record σ α} {value : α → Value} {payload : α → List UInt8}
    {get : σ → Option (List UInt8)} (hwrites : Json.Writes r.fields "phyPayload" Json.readBytes get)
    (hempty : get r.empty = none) (hnodup : (r.fields.map (·.name)).Nodup)
    (hfinish : ∀ acc a, r.finish acc = .ok a → get acc = some (payload a))
    (hvalue : ∀ a, carriedText? r "phyPayload" (value a).text.toUTF8.toList =
      some (payloadText (payload a))) : KeepsPayload r value payload := by
  intro bytes a h
  refine ⟨?_, hvalue a⟩
  obtain ⟨acc, hacc, hcarried⟩ := Json.carried_of_read hwrites hempty hnodup (read_of_decode h)
  obtain ⟨u, hu, hread⟩ := hcarried _ (hfinish acc a hacc)
  obtain ⟨q, rfl, hq⟩ := payload_of_readBytes hread
  rw [carriedText?, hu]
  simp only [hq, Except.toOption]

theorem UplinkFrame.writes_payload :
    Json.Writes record.fields "phyPayload" Json.readBytes Draft.payload where
  known := by simp [record, field]
  isSet := by simp [record, field]
  own := by simp [record, field, map_eq_ok]
  others := by simp [record, field, map_eq_ok]

theorem DownlinkFrame.writes_payload :
    Json.Writes record.fields "phyPayload" Json.readBytes Draft.payload where
  known := by simp [record, field]
  isSet := by simp [record, field]
  own := by simp [record, field, map_eq_ok]
  others := by simp [record, field, map_eq_ok]

theorem UplinkFrame.keepsPayload : KeepsPayload record value UplinkFrame.payload := by
  apply Envelope.keepsPayload writes_payload rfl (by decide)
  · intro acc f h
    obtain ⟨rxInfo, -, h⟩ := bind_eq_ok.1 h
    obtain ⟨payload, hpayload, h⟩ := bind_eq_ok.1 h
    cases h
    exact Json.eq_some_of_required hpayload
  · intro f
    exact carriedText?_value record "phyPayload" _ (by simp)

theorem DownlinkFrame.keepsPayload : KeepsPayload record value DownlinkFrame.payload := by
  apply Envelope.keepsPayload writes_payload rfl (by decide)
  · intro acc f h
    obtain ⟨txInfo, -, h⟩ := bind_eq_ok.1 h
    obtain ⟨payload, hpayload, h⟩ := bind_eq_ok.1 h
    cases h
    exact Json.eq_some_of_required hpayload
  · intro f
    exact carriedText?_value record "phyPayload" _ (by simp)

/-- Envelopes survive being written and read. Downlinks and acknowledgements have no numbers
and times to read back, and only statistics hold a map. -/
theorem roundTrip :
    RoundTrips DownlinkFrame.read (fun f v => v = f.value) (fun _ => True) (fun _ => True)
      (fun _ => 0) ∧
    RoundTrips DownlinkAck.read (fun a v => v = a.value) (fun _ => True) (fun _ => True)
      (fun _ => 0) ∧
    RoundTrips UplinkFrame.read (fun f v => v = f.value) (fun f => f.rxInfo.ReadsBack)
      (fun _ => True) (fun _ => 0) ∧
    RoundTrips GatewayStats.read GatewayStats.Written GatewayStats.ReadsBack GatewayStats.Fits
      (fun s => s.custom.length) ∧
    KeepsPayload DownlinkFrame.record DownlinkFrame.value DownlinkFrame.payload ∧
    KeepsPayload UplinkFrame.record UplinkFrame.value UplinkFrame.payload := by
  refine ⟨?_, ?_, ?_, GatewayStats.roundTrips, DownlinkFrame.keepsPayload,
    UplinkFrame.keepsPayload⟩
  · exact roundTrips_of_value fun f _ => DownlinkFrame.read_value 124 f
  · exact roundTrips_of_value fun a _ => DownlinkAck.read_value 126 a
  · exact roundTrips_of_value fun f hf => UplinkFrame.read_value 124 hf

def sampleDouble : Double :=
  ⟨false, 0x1e000000000000, -50, by decide⟩

private theorem sampleDouble_readsBack : sampleDouble.ReadsBack := by
  have hread : (Json.Numeral.ofDouble sampleDouble).number? = some (.float sampleDouble) := by
    decide +kernel
  rw [Double.ReadsBack, Json.reread_eq, Value.tree, Json.readDouble, Json.Numeral.read, hread]
  rfl

def sampleStats : GatewayStats where
  mac := Eui.ofWord 0x0102030405060708
  time := ⟨18993, 43200, 0⟩
  latitude := some sampleDouble
  longitude := none
  altitude := some sampleDouble
  rxReceived := 12
  rxReceivedOk := 11
  txReceived := 3
  txEmitted := 2
  custom := [("load", .object [("cpu", .array [.float sampleDouble, .null])]), ("note", .string "ü")]

theorem sampleStats_readsBack : sampleStats.ReadsBack := by
  have hsome : ∀ x, some sampleDouble = some x → x.ReadsBack := by
    rintro x ⟨⟩
    exact sampleDouble_readsBack
  have hnone : ∀ x, sampleStats.longitude = some x → x.ReadsBack := by
    simp [sampleStats]
  have htime : sampleStats.time.ReadsBack := by
    unfold Timestamp.ReadsBack
    decide +kernel
  refine ⟨htime, hsome, hnone, hsome, ?_⟩
  have hload : (Value.array [.float sampleDouble, .null]).EachFloat Double.ReadsBack :=
    .array (by simp [Value.EachFloat.null, Value.EachFloat.float sampleDouble_readsBack])
  simp only [sampleStats, List.forall_mem_cons, List.not_mem_nil, false_imp_iff, implies_true,
    and_true]
  exact ⟨.object (by simpa using hload), .string _⟩

theorem sampleStats_fits : sampleStats.Fits := by
  refine .object ?_ (List.pairwise_pair.2 (by decide))
  simp only [sampleStats, List.forall_mem_cons, List.not_mem_nil, false_imp_iff, implies_true,
    and_true]
  refine ⟨.object ?_ (by simp [Value.Ascending]), .string _ _⟩
  have hload : (Value.array [.float sampleDouble, .null]).Fits 124 :=
    .array (by simp [Value.Fits.null, Value.Fits.float])
  simpa using hload

theorem roundTrip_sample :
    sampleStats.ReadsBack ∧ sampleStats.Fits ∧ sampleStats.Written sampleStats.value ∧
      reread GatewayStats.read sampleStats.value = .ok sampleStats ∧
        ∀ v, sampleStats.Written v → reread GatewayStats.read v = .ok sampleStats := by
  have hwritten := sampleStats.written_value
  have hstats := roundTrip.2.2.2.1
  have hread := hstats.encoded _ _ sampleStats_readsBack sampleStats_fits hwritten
  exact ⟨sampleStats_readsBack, sampleStats_fits, hwritten, hread,
    fun v hv => (hstats.decoded _ _ v hread sampleStats_readsBack hv).1⟩

end LoraBridge.Envelope
