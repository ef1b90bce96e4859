import Mathlib.Algebra.Ring.Nat
import Mathlib.Data.List.Induction
import Mathlib.Logic.ExistsUnique
import LoraBridge.Backend.Basic
import LoraBridge.Proofs.Eui.Text
import LoraBridge.Proofs.Text.Utf8

/-! The order of identifiers. It is the order of their values, and also the order of their texts
byte by byte, since the digits are in the order of their values. The topics of a batch differ in
the text of the gateway only, so they are in ascending order too. -/
namespace LoraBridge

namespace Text

def Before (s t : String) : Prop :=
  s.toUTF8.toList < t.toUTF8.toList

theorem before_iff {s t : String} : Before s t ↔ utf8 s.toList < utf8 t.toList := by
  rw [Before, toUTF8_toList, toUTF8_toList]

variable {as bs cs ds : List UInt8}

theorem append_lt_append_iff (h : as.length = bs.length) :
    as ++ cs < bs ++ ds ↔ as < bs ∨ as = bs ∧ cs < ds := by
  induction as generalizing bs with
  | nil =>
    cases bs with
    | nil => simp
    | cons b bs => cases h
  | cons a as ih =>
    cases bs with
    | nil => cases h
    | cons b bs =>
      rw [List.cons_append, List.cons_append, List.cons_lt_cons_iff, List.cons_lt_cons_iff,
        ih (Nat.succ.inj h), List.cons.injEq]
      tauto

private theorem append_append_lt_iff (h : as.length = bs.length) :
    cs ++ (as ++ ds) < cs ++ (bs ++ ds) ↔ as < bs := by
  rw [append_lt_append_iff rfl, append_lt_append_iff h]
  simp [List.lt_irrefl]

theorem flatMap_lt_iff {f : UInt8 → List UInt8} {n : Nat} (hlen : ∀ b, (f b).length = n)
    (hlt : ∀ a b, f a < f b ↔ a < b) (h : as.length = bs.length) :
    as.flatMap f < bs.flatMap f ↔ as < bs := by
  have hinj : ∀ a b, f a = f b ↔ a = b := by
    refine fun a b => ⟨fun heq => ?_, fun heq => heq ▸ rfl⟩
    have hab : ¬ a < b := fun hab => List.lt_irrefl _ (heq ▸ (hlt a b).2 hab)
    have hba : ¬ b < a := fun hba => List.lt_irrefl _ (heq ▸ (hlt b a).2 hba)
    rw [UInt8.lt_iff_toNat_lt] at hab hba
    apply UInt8.toNat_inj.1
    omega
  induction as generalizing bs with
  | nil =>
    cases bs with
    | nil => simp
    | cons b bs => cases h
  | cons a as ih =>
    cases bs with
    | nil => cases h
    | cons b bs =>
      have hrest : as.flatMap f < bs.flatMap f ↔ as < bs := ih (Nat.succ.inj h)
      rw [List.flatMap_cons, List.flatMap_cons, append_lt_append_iff (by rw [hlen, hlen]), hlt,
        hinj, hrest, List.cons_lt_cons_iff]

end Text

namespace Eui

variable {a b : Eui}

theorem foldl_lt_foldl_iff {as bs : List UInt8} (h : as.length = bs.length) (m n : Nat) :
    as.foldl (fun n b => 256 * n + b.toNat) m < bs.foldl (fun n b => 256 * n + b.toNat) n ↔
      m < n ∨ m = n ∧ as < bs := by
  induction as generalizing bs m n with
  | nil =>
    cases bs with
    | nil => simp
    | cons b bs => cases h
  | cons a as ih =>
    cases bs with
    | nil => cases h
    | cons b bs =>
      have ha := a.toNat_lt
      have hb := b.toNat_lt
      have hlt : 256 * m + a.toNat < 256 * n + b.toNat ↔ m < n ∨ m = n ∧ a < b := by
        rw [UInt8.lt_iff_toNat_lt]
        omega
      have heq : 256 * m + a.toNat = 256 * n + b.toNat ↔ m = n ∧ a = b := by
        rw [← UInt8.toNat_inj]
        omega
      rw [List.foldl_cons, List.foldl_cons, ih (Nat.succ.inj h), List.cons_lt_cons_iff, hlt, heq]
      tauto

theorem foldl_lt (bs : List UInt8) (n : Nat) :
    bs.foldl (fun n b => 256 * n + b.toNat) n < (n + 1) * 256 ^ bs.length := by
  induction bs generalizing n with
  | nil => simp
  | cons b bs ih =>
    have hb := b.toNat_lt
    calc bs.foldl (fun n b => 256 * n + b.toNat) (256 * n + b.toNat)
      _ < (256 * n + b.toNat + 1) * 256 ^ bs.length := ih _
      _ ≤ ((n + 1) * 256) * 256 ^ bs.length := Nat.mul_le_mul_right _ (by omega)
      _ = (n + 1) * 256 ^ (b :: bs).length := by
        rw [List.length_cons, Nat.pow_succ, Nat.mul_assoc, Nat.mul_comm 256]

@[simp] theorem value_lt_iff : a.value < b.value ↔ a < b := by
  rw [value, value, foldl_lt_foldl_iff (by rw [Vector.length_toList, Vector.length_toList])]
  simp only [Nat.lt_irrefl, false_or, true_and]
  rfl

private theorem value_inj (h : a.value = b.value) : a = b := by
  rcases lt_or_eq_or_gt a b with hlt | heq | hgt
  · exact absurd (value_lt_iff.2 hlt) (by omega)
  · exact heq
  · exact absurd (value_lt_iff.2 hgt) (by omega)

private theorem value_lt (e : Eui) : e.value < 2 ^ 64 := by
  have hlt := foldl_lt e.bytes.toList 0
  rw [Vector.length_toList] at hlt
  exact hlt

theorem foldl_eq_mod {bs : List UInt8} {v : Nat}
    (h : ∀ i b, bs[i]? = some b → b.toNat = v / 256 ^ (bs.length - 1 - i) % 256) :
    bs.foldl (fun n b => 256 * n + b.toNat) 0 = v % 256 ^ bs.length := by
  induction bs using List.reverseRecOn generalizing v with
  | nil => simp [Nat.mod_one]
  | append_singleton bs b ih =>
    have hlast : b.toNat = v % 256 := by
      have hb := h bs.length b (by simp)
      rw [List.length_append, List.length_singleton, Nat.add_sub_cancel, Nat.sub_self, Nat.pow_zero,
        Nat.div_one] at hb
      exact hb
    have hinit : bs.foldl (fun n b => 256 * n + b.toNat) 0 = v / 256 % 256 ^ bs.length := by
      apply ih
      intro i c hc
      have hi : i < bs.length := (List.getElem?_eq_some_iff.1 hc).1
      have hpow : (bs ++ [b]).length - 1 - i = (bs.length - 1 - i) + 1 := by
        rw [List.length_append, List.length_singleton]
        omega
      rw [h i c (by rw [List.getElem?_append_left hi, hc]), hpow, Nat.pow_succ',
        Nat.div_div_eq_div_mul]
    rw [List.foldl_append, List.foldl_cons, List.foldl_nil, hinit, hlast, List.length_append,
      List.length_singleton, Nat.pow_succ', Nat.mod_mul, Nat.add_comm]

private theorem toNat_byte (w : UInt64) {k : Nat} (hk : k < 8) :
    (w >>> UInt64.ofNat (8 * k)).toUInt8.toNat = w.toNat / 256 ^ k % 256 := by
  have hshift : (UInt64.ofNat (8 * k)).toNat % 64 = 8 * k := by
    rw [UInt64.toNat_ofNat_of_lt' (show 8 * k < 2 ^ 64 by omega)]
    omega
  rw [UInt64.toNat_toUInt8, UInt64.toNat_shiftRight, hshift, Nat.shiftRight_eq_div_pow,
    Nat.pow_mul]

@[simp] theorem value_ofWord (w : UInt64) : (ofWord w).value = w.toNat := by
  have hlen : (ofWord w).bytes.toList.length = 8 := Vector.length_toList
  rw [value, foldl_eq_mod (v := w.toNat), hlen]
  · exact Nat.mod_eq_of_lt w.toNat_lt
  · intro i b hb
    obtain ⟨hi, rfl⟩ := List.getElem?_eq_some_iff.1 hb
    rw [hlen] at hi ⊢
    simp only [ofWord, Vector.getElem_toList, Vector.getElem_ofFn]
    exact toNat_byte w (by omega)

private theorem ofWord_lt_iff {v w : UInt64} : ofWord v < ofWord w ↔ v < w := by
  rw [← value_lt_iff, value_ofWord, value_ofWord, UInt64.lt_iff_toNat_lt]

private theorem existsUnique_ofWord (e : Eui) : ∃! w, ofWord w = e := by
  refine ⟨UInt64.ofNat e.value, ?_, ?_⟩
  · apply value_inj
    rw [value_ofWord, UInt64.toNat_ofNat_of_lt' e.value_lt]
  · rintro w rfl
    rw [value_ofWord, UInt64.ofNat_toNat]

def digitByte (n : Nat) : UInt8 :=
  UInt8.ofNat (hexDigit n).toNat

private theorem digitByte_lt_iff {m n : Nat} (hm : m < 16) (hn : n < 16) :
    digitByte m < digitByte n ↔ m < n := by
  have hall : ∀ i j : Fin 16, digitByte i < digitByte j ↔ i.val < j.val := by decide
  exact hall ⟨m, hm⟩ ⟨n, hn⟩

private theorem digitByte_inj {m n : Nat} (hm : m < 16) (hn : n < 16) :
    digitByte m = digitByte n ↔ m = n := by
  have hall : ∀ i j : Fin 16, digitByte i = digitByte j ↔ i.val = j.val := by decide
  exact hall ⟨m, hm⟩ ⟨n, hn⟩

theorem utf8_hexPair (b : UInt8) :
    Text.utf8 (hexPair b) = [digitByte (b.toNat / 16), digitByte (b.toNat % 16)] := by
  have hb := b.toNat_lt
  have hhigh : (hexDigit (b.toNat / 16)).toNat < 128 := toNat_hexDigit_lt (by omega)
  have hlow : (hexDigit (b.toNat % 16)).toNat < 128 := toNat_hexDigit_lt (by omega)
  rw [hexPair, Text.utf8_cons, Text.utf8_cons, Text.utf8EncodeChar_ascii hhigh,
    Text.utf8EncodeChar_ascii hlow]
  rfl

@[simp] theorem utf8_hexPair_lt_iff (a b : UInt8) :
    Text.utf8 (hexPair a) < Text.utf8 (hexPair b) ↔ a < b := by
  have ha := a.toNat_lt
  have hb := b.toNat_lt
  rw [utf8_hexPair, utf8_hexPair, List.cons_lt_cons_iff, List.cons_lt_cons_iff,
    digitByte_lt_iff (by omega) (by omega), digitByte_lt_iff (by omega) (by omega),
    digitByte_inj (by omega) (by omega), UInt8.lt_iff_toNat_lt]
  simp only [List.lt_irrefl, and_false, or_false]
  omega

theorem utf8_text (e : Eui) :
    Text.utf8 e.text.toList = e.bytes.toList.flatMap fun b => Text.utf8 (hexPair b) := by
  rw [text, String.toList_ofList, digits, Text.utf8, List.flatMap_assoc]
  rfl

private theorem length_utf8_text (e : Eui) : (Text.utf8 e.text.toList).length = 16 := by
  rw [utf8_text, length_flatMap_pair fun b => by rw [utf8_hexPair]; rfl, Vector.length_toList]

@[simp] theorem text_lt_iff : Text.utf8 a.text.toList < Text.utf8 b.text.toList ↔ a < b := by
  rw [utf8_text, utf8_text]
  apply Text.flatMap_lt_iff (n := 2)
  · intro b
    rw [utf8_hexPair]
    rfl
  · exact utf8_hexPair_lt_iff
  · rw [Vector.length_toList, Vector.length_toList]

end Eui

namespace Topic

theorem Template.before_of_lt {t : Template} {g g' : Eui} {topic topic' : String}
    (h : t.render g = .ok topic) (h' : t.render g' = .ok topic') (hlt : g < g') :
    Text.Before topic topic' := by
  have htopic : ∀ {g : Eui} {topic : String}, t.render g = .ok topic →
      Text.utf8 topic.toList = Text.utf8 t.before.toList ++
        (Text.utf8 g.text.toList ++ Text.utf8 t.after.toList) := by
    intro g topic h
    simp only [render] at h
    split at h
    · cases h
      simp
    · cases h
  rw [Text.before_iff, htopic h, htopic h', Text.append_append_lt_iff, Eui.text_lt_iff]
  · exact hlt
  · rw [Eui.length_utf8_text, Eui.length_utf8_text]

theorem Topics.before_of_lt {t : Topics} {role : Role} {g g' : Eui} {topic topic' : String}
    (h : t.render role g = .ok topic) (h' : t.render role g' = .ok topic') (hlt : g < g') :
    Text.Before topic topic' :=
  Template.before_of_lt (mapError_eq_ok.1 h) (mapError_eq_ok.1 h') hlt

end Topic

theorem Backend.ascending_downlinkTopics (b : Backend) :
    (b.downlinkTopics.map Prod.fst).Pairwise Text.Before := by
  rw [downlinkTopics, List.pairwise_map, List.pairwise_filterMap]
  apply b.registry.sorted.imp
  intro g g' hlt p hp p' hp'
  split at hp
  · next topic htopic =>
    split at hp'
    · next topic' htopic' =>
      cases hp
      cases hp'
      exact Topic.Topics.before_of_lt htopic htopic' hlt
    · cases hp'
  · cases hp

/-- The orders of identifiers, of their texts and of their values are the same one. -/
theorem Eui.orders_agree :
    (∀ a b : Eui, (a < b ↔ Text.Before a.text b.text) ∧ (a < b ↔ a.value < b.value)) ∧
    (∀ w, (ofWord w).value = w.toNat) ∧
    (∀ v w, v < w ↔ ofWord v < ofWord w) ∧
    (∀ bytes : Vector UInt8 8, ∃! w, (ofWord w).bytes = bytes) ∧
    ∀ b : Backend, (b.downlinkTopics.map Prod.fst).Pairwise Text.Before := by
  refine ⟨fun a b => ⟨?_, value_lt_iff.symm⟩, value_ofWord, fun _ _ => ofWord_lt_iff.symm,
    fun bytes => ?_, Backend.ascending_downlinkTopics⟩
  · rw [Text.before_iff, text_lt_iff]
  · obtain ⟨w, hw, huniq⟩ := existsUnique_ofWord ⟨bytes⟩
    exact ⟨w, congrArg Eui.bytes hw, fun v hv => huniq v (congrArg Eui.mk hv)⟩

end LoraBridge
