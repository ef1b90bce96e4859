import LoraBridge.Downlink.Channel
import LoraBridge.Proofs.Envelope.Reading
import LoraBridge.Proofs.Json.Variants

/-! Downlinks depend on their known members only. A frame, its transmission and its data rate are
read alike from all variants of their objects. -/
namespace LoraBridge

namespace Envelope

open Json (Reader RecordField Tree Value)

section

variable {σ α β : Type} {name name' : String} {optional optional' : Bool} {read : Reader α}
  {read' : Reader β} {get : σ → Option α} {get' : σ → Option β} {set : σ → α → σ}
  {set' : σ → β → σ}

@[simp] theorem sets_field (h : ∀ s a, get (set s a) = some a) :
    (field name optional read get set).Sets := by
  intro d v acc next hread
  obtain ⟨a, -, rfl⟩ := map_eq_ok.1 hread
  simp [field, h]

@[simp] theorem apart_field (hget : ∀ s a, get' (set s a) = get' s)
    (hset : ∀ s a b, set' (set s a) b = set (set' s b) a) :
    (field name optional read get set).Apart (field name' optional' read' get' set') where
  kept := by
    intro d v acc next h
    obtain ⟨a, -, rfl⟩ := map_eq_ok.1 h
    simp [field, hget]
  swap := by
    intro d v w acc mid next h h'
    obtain ⟨a, ha, rfl⟩ := map_eq_ok.1 h
    obtain ⟨b, hb, rfl⟩ := map_eq_ok.1 h'
    exact ⟨_, map_eq_ok.2 ⟨b, hb, rfl⟩, map_eq_ok.2 ⟨a, ha, (hset acc a b).symm⟩⟩

theorem completed_field {r : Json.Record σ β} {v : Value} {a : α}
    (hfind : r.fields.find? (fun f => f.name == name) = some (field name optional read get set))
    (hread : ∀ d, read d v.tree = .ok a)
    (hfinish : ∀ s, get s = none → r.finish (set s a) = r.finish s) :
    r.Completes (name, v) := by
  refine ⟨_, hfind, fun d acc hunset => ⟨set acc a, map_eq_ok.2 ⟨a, hread d, rfl⟩, ?_⟩⟩
  exact hfinish acc (by simpa [field] using hunset)

/-- A record with a record in one of its fields: the inner one may change in its turn. -/
theorem lenient_of_inner {τ : Type} {r : Json.Record σ β} {q : Json.Record τ α}
    {defaults defaults' : List (String × Value)} {inner : String → Tree → Tree → Prop}
    (hq : q.Lenient defaults' inner)
    (hfind : r.fields.find? (fun f => f.name == name) = some (field name optional q.read get set))
    (hindependent : Json.Independent r.fields) (hunset : ∀ f ∈ r.fields, f.isSet r.empty = false)
    (hcompleted : ∀ m ∈ defaults, r.Completes m) :
    r.Lenient defaults fun n v v' => n = name ∧ Json.Variant q.names defaults' inner v v' where
  independent := hindependent
  unset := hunset
  completed := hcompleted
  within := by
    rintro _ v v' ⟨rfl, hvariant⟩
    refine ⟨_, hfind, fun d acc next h => ?_⟩
    obtain ⟨a, ha, hnext⟩ := map_eq_ok.1 h
    exact map_eq_ok.2 ⟨a, hq.read_of_variant hvariant ha, hnext⟩
  writable := by
    rintro _ v v' ⟨-, hvariant⟩
    exact hq.writable_of_variant hvariant

end

@[simp] theorem readOption_null {α : Type} (read : Reader α) (d : Nat) :
    Json.readOption read d Value.null.tree = .ok none := by
  rw [Value.tree, Json.readOption]

namespace DataRate

def defaults : List (String × Value) :=
  [("spreadFactor", .null), ("bandwidth", .null), ("bitRate", .null)]

def Variant : Tree → Tree → Prop :=
  Json.Variant record.names defaults fun _ _ _ => False

private theorem independent : Json.Independent record.fields := by
  apply Json.Independent.of_pairwise <;> simp [record]

theorem lenient : record.Lenient defaults fun _ _ _ => False where
  independent := independent
  unset := by simp [record, field]
  completed := by
    simp only [defaults, List.forall_mem_cons, List.not_mem_nil, false_imp_iff, implies_true,
      and_true]
    refine ⟨?_, ?_, ?_⟩
    · exact completed_field rfl (readOption_null _) fun s hs => by simp [record, hs]
    · exact completed_field rfl (readOption_null _) fun s hs => by simp [record, hs]
    · exact completed_field rfl (readOption_null _) fun s hs => by simp [record, hs]
  within := False.elim
  writable := False.elim

end DataRate

namespace TxInfo

def defaults : List (String × Value) :=
  [("immediately", .bool false), ("timestamp", word32 0), ("codeRate", .string ""),
    ("iPol", .null)]

def Inner (name : String) (v v' : Tree) : Prop :=
  name = "dataRate" ∧ DataRate.Variant v v'

def Variant : Tree → Tree → Prop :=
  Json.Variant record.names defaults Inner

private theorem independent : Json.Independent record.fields := by
  apply Json.Independent.of_pairwise <;> simp [record]

theorem lenient : record.Lenient defaults Inner := by
  apply lenient_of_inner DataRate.lenient rfl independent (by simp [record, field])
  simp only [defaults, List.forall_mem_cons, List.not_mem_nil, false_imp_iff, implies_true,
    and_true]
  refine ⟨?_, ?_, ?_, ?_⟩
  · exact completed_field rfl (Json.readBool_tree · _) fun s hs => by simp [record, hs]
  · exact completed_field rfl (Json.readUInt32_tree · _) fun s hs => by simp [record, hs]
  · exact completed_field rfl (Json.readString_tree · _) fun s hs => by simp [record, hs]
  · exact completed_field rfl (readOption_null _) fun s hs => by simp [record, hs]

end TxInfo

namespace DownlinkFrame

def defaults : List (String × Value) :=
  [("token", word16 0)]

def Inner (name : String) (v v' : Tree) : Prop :=
  name = "txInfo" ∧ TxInfo.Variant v v'

def Variant : Tree → Tree → Prop :=
  Json.Variant record.names defaults Inner

private theorem independent : Json.Independent record.fields := by
  apply Json.Independent.of_pairwise <;> simp [record]

theorem lenient : record.Lenient defaults Inner := by
  apply lenient_of_inner TxInfo.lenient rfl independent (by simp [record, field])
  simp only [defaults, List.forall_mem_singleton]
  exact completed_field rfl (Json.readUInt16_tree · _) fun s hs => by simp [record, hs]

theorem read_of_variants {t t' : Tree} (h : Relation.ReflTransGen Variant t t') {d : Nat}
    {f : DownlinkFrame} (hread : read d t = .ok f) : read d t' = .ok f := by
  induction h with
  | refl => exact hread
  | tail _ hvariant ih => exact lenient.read_of_variant hvariant ih

theorem writable_of_variants {t t' : Tree} (h : Relation.ReflTransGen Variant t t')
    (ht : t.Writable) : t'.Writable := by
  induction h with
  | refl => exact ht
  | tail _ hvariant ih => exact lenient.writable_of_variant hvariant ih

end DownlinkFrame

end Envelope

namespace Downlink

open Envelope (DownlinkFrame payloadText word16)
open Json (Quoted Tree Value)

/-- A payload is decoded from its tree alone, however the tree is written. -/
theorem decode_of_writtenAs {t : Tree} {payload : List UInt8} (h : t.WrittenAs payload) :
    decode payload = DownlinkFrame.read Json.maxDepth t := by
  rw [decode, Json.decode, Json.Document.ofBytes_eq h]
  cases DownlinkFrame.read Json.maxDepth t <;> rfl

/-- Whatever is decoded has a tree, and it is decoded from every text of every variant of that
tree. -/
theorem decodes_variants {payload : List UInt8} {f : DownlinkFrame}
    (h : decode payload = .ok f) :
    (∃ t : Tree, t.WrittenAs payload) ∧
      ∀ t : Tree, t.WrittenAs payload → ∀ t', Relation.ReflTransGen DownlinkFrame.Variant t t' →
        t'.Writable ∧ ∀ text, t'.WrittenAs text → decode text = .ok f := by
  refine ⟨⟨_, (Json.Record.whole_of_decode h).writtenAs⟩, ?_⟩
  intro t ht t' hvariants
  refine ⟨DownlinkFrame.writable_of_variants hvariants ⟨payload, ht⟩, ?_⟩
  intro text htext
  rw [decode_of_writtenAs ht] at h
  rw [decode_of_writtenAs htext]
  exact DownlinkFrame.read_of_variants hvariants h

def sampleFrame : DownlinkFrame :=
  ⟨0, ⟨Eui.ofWord 0x0102030405060708, true, 0, 868100000, 14, ⟨"LORA", some 7, none, none⟩,
    "4/5", none⟩, [1, 2]⟩

def sampleMembers : List (String × Value) :=
  [("txInfo", sampleFrame.txInfo.value), ("phyPayload", .string (payloadText [1, 2]))]

def escapedToken : Quoted :=
  ⟨.unit 116 :: [.byte 111, .byte 107, .byte 101, .byte 110], none⟩

private theorem read_escapedToken : escapedToken.read = .ok "token" := by
  have hbytes : Json.pieceBytes none escapedToken.pieces = .ok (Text.utf8 "token".toList) := by
    rfl
  rw [Quoted.read, show escapedToken.fault = none from rfl, hbytes, ok_bind, Json.utf8?_text]

private theorem spellable_escapedToken : (Json.Token.string escapedToken).Spellable := by
  have hletter : (Json.Piece.unit 116).Spelled (Text.utf8 ['\\', 'u', '0', '0', '7', '4']) :=
    .code rfl (by decide)
  have hrest : Json.PiecesSpelled [.byte 111, .byte 107, .byte 101, .byte 110]
      [111, 107, 101, 110] := by
    repeat' first | exact .nil | refine .cons (.plain (by decide) (by decide) (by decide)) ?_
  exact ⟨_, .string (.cons hletter hrest)⟩

theorem decode_sampleMembers :
    decode (Value.object sampleMembers).text.toUTF8.toList = .ok sampleFrame := by
  have hread : DownlinkFrame.read Json.maxDepth (Value.object sampleMembers).tree =
      .ok sampleFrame := by
    have hinfo := Envelope.TxInfo.read_value 124 sampleFrame.txInfo
    rw [DownlinkFrame.read, Json.maxDepth, Json.Record.read_object]
    simp [sampleMembers, DownlinkFrame.record, Json.readFields_cons, Envelope.field,
      Json.required, hinfo]
    rfl
  exact (Json.reread_eq DownlinkFrame.read _).trans hread

/-- The members of the same frame in another order, with an escaped name and an unknown one. -/
def sampleVariant : Tree :=
  .object
    [(.ofText "phyPayload", (Value.string (payloadText [1, 2])).tree),
     (escapedToken, (word16 0).tree),
     (.ofText "note", (Value.array [.object [("mac", .null)]]).tree),
     (.ofText "txInfo", sampleFrame.txInfo.value.tree)] none

theorem variants_sampleMembers :
    Relation.ReflTransGen DownlinkFrame.Variant (Value.object sampleMembers).tree
      sampleVariant := by
  let tx : Quoted × Tree := (.ofText "txInfo", sampleFrame.txInfo.value.tree)
  let phy : Quoted × Tree := (.ofText "phyPayload", (Value.string (payloadText [1, 2])).tree)
  let token : Quoted × Tree := (escapedToken, (word16 0).tree)
  let note : Quoted × Tree :=
    (.ofText "note", (Value.array [.object [("mac", .null)]]).tree)
  have hpermute : DownlinkFrame.Variant (.object [tx, phy] none) (.object [phy, tx] none) :=
    .object (.permute (.swap _ _ []))
  have hcomplete : DownlinkFrame.Variant (.object ([phy] ++ [tx]) none)
      (.object ([phy] ++ token :: [tx]) none) := by
    refine .object (.complete read_escapedToken spellable_escapedToken ?_ (.head _))
    simp [phy, tx]
  have hinsert : DownlinkFrame.Variant (.object ([phy, token] ++ [tx]) none)
      (.object ([phy, token] ++ note :: [tx]) none) := by
    refine .object (.insert (Json.Quoted.read_ofText "note") (by decide) ⟨?_, ?_⟩)
    · exact ⟨_, Json.spelled_quoteChars "note"⟩
    · exact ⟨_, Json.laid_chars _⟩
  exact (Relation.ReflTransGen.single hpermute).tail hcomplete |>.tail hinsert

theorem decodes_variants_sample :
    decode (Value.object sampleMembers).text.toUTF8.toList = .ok sampleFrame ∧
      sampleVariant.Writable ∧
        ∀ text, sampleVariant.WrittenAs text → decode text = .ok sampleFrame := by
  have hwritten : (Value.object sampleMembers).tree.WrittenAs
      (Value.object sampleMembers).text.toUTF8.toList := by
    rw [Text.toUTF8_toList, Value.text, String.toList_ofList]
    exact Json.laid_chars _
  exact ⟨decode_sampleMembers,
    (decodes_variants decode_sampleMembers).2 _ hwritten _ variants_sampleMembers⟩

end Downlink

end LoraBridge
