import LoraBridge.Eui
import LoraBridge.Proofs.Results

/-! The canonical text of an identifier: sixteen characters, which read as the identifier. -/
namespace LoraBridge

theorem Text.trim_eq_self {cs : List Char} (h : ∀ c ∈ cs, isBlank c = false) : trim cs = cs := by
  have hdrop : ∀ ds : List Char, (∀ c ∈ ds, isBlank c = false) → ds.dropWhile isBlank = ds := by
    intro ds hds
    cases ds with
    | nil => rfl
    | cons d ds => simp [hds d List.mem_cons_self]
  rw [trim, hdrop cs h, hdrop _ fun c hc => h c (List.mem_reverse.1 hc), List.reverse_reverse]

namespace Eui

theorem lt_irrefl (e : Eui) : ¬ e < e :=
  List.lt_irrefl e.bytes.toList

instance : Std.Asymm fun a b : Eui => a < b :=
  ⟨fun a _ h h' => lt_irrefl a (lt_trans h h')⟩

theorem mem_digits {e : Eui} {c : Char} (h : c ∈ e.digits) : ∃ n < 16, c = hexDigit n := by
  obtain ⟨b, -, hc⟩ := List.mem_flatMap.1 h
  have hb := b.toNat_lt
  simp only [hexPair, List.mem_cons, List.not_mem_nil, or_false] at hc
  rcases hc with rfl | rfl
  · exact ⟨b.toNat / 16, by omega, rfl⟩
  · exact ⟨b.toNat % 16, Nat.mod_lt _ (by decide), rfl⟩

theorem length_flatMap_pair {α : Type} {f : UInt8 → List α} (h : ∀ b, (f b).length = 2)
    (bs : List UInt8) : (bs.flatMap f).length = 2 * bs.length := by
  induction bs with
  | nil => rfl
  | cons b bs ih =>
    rw [List.flatMap_cons, List.length_append, h, ih, List.length_cons]
    omega

@[simp] theorem length_digits (e : Eui) : e.digits.length = 16 := by
  rw [digits, length_flatMap_pair fun _ => rfl, Vector.length_toList]

theorem utf8Size_hexDigit {n : Nat} (h : n < 16) : (hexDigit n).utf8Size = 1 := by
  have hall : ∀ a : Fin 16, (hexDigit a).utf8Size = 1 := by decide
  exact hall ⟨n, h⟩

theorem toNat_hexDigit_lt {n : Nat} (h : n < 16) : (hexDigit n).toNat < 128 := by
  have hall : ∀ a : Fin 16, (hexDigit a).toNat < 128 := by decide
  exact hall ⟨n, h⟩

@[simp]
private theorem hexValue?_hexDigit {n : Nat} (h : n < 16) : hexValue? (hexDigit n) = some n := by
  have hall : ∀ a : Fin 16, hexValue? (hexDigit a) = some a.val := by decide
  exact hall ⟨n, h⟩

@[simp]
private theorem isBlank_hexDigit {n : Nat} (h : n < 16) : Text.isBlank (hexDigit n) = false := by
  have hall : ∀ a : Fin 16, Text.isBlank (hexDigit a) = false := by decide
  exact hall ⟨n, h⟩

@[simp]
private theorem isSeparator_hexDigit {n : Nat} (h : n < 16) : isSeparator (hexDigit n) = false := by
  have hall : ∀ a : Fin 16, isSeparator (hexDigit a) = false := by decide
  exact hall ⟨n, h⟩

def halves (bs : List UInt8) : List Nat :=
  bs.flatMap fun b => [b.toNat / 16, b.toNat % 16]

@[simp]
theorem hexValues_flatMap (bs : List UInt8) : hexValues (bs.flatMap hexPair) = .ok (halves bs) := by
  induction bs with
  | nil => rfl
  | cons b bs ih =>
    have hb := b.toNat_lt
    rw [List.flatMap_cons, hexPair, List.cons_append, List.cons_append, List.nil_append, hexValues,
      hexValue?_hexDigit (by omega), hexValues, hexValue?_hexDigit (Nat.mod_lt _ (by decide)), ih]
    rfl

private theorem pairs_halves (bs : List UInt8) : pairs (halves bs) = bs := by
  induction bs with
  | nil => rfl
  | cons b bs ih =>
    have hb : 16 * (b.toNat / 16) + b.toNat % 16 = b.toNat := Nat.div_add_mod _ _
    rw [halves, List.flatMap_cons, List.cons_append, List.cons_append, List.nil_append, pairs, hb,
      UInt8.ofNat_toNat]
    exact congrArg _ ih

@[simp] theorem parse_text (e : Eui) : parse e.text = .ok e := by
  have htrim : Text.trim e.digits = e.digits := by
    apply Text.trim_eq_self
    intro c hc
    obtain ⟨n, hn, rfl⟩ := mem_digits hc
    exact isBlank_hexDigit hn
  have hfilter : e.digits.filter (fun c => !isSeparator c) = e.digits := by
    apply List.filter_eq_self.2
    intro c hc
    obtain ⟨n, hn, rfl⟩ := mem_digits hc
    rw [isSeparator_hexDigit hn]
    rfl
  have hvalues : hexValues e.digits = .ok (halves e.bytes.toList) := hexValues_flatMap _
  have hlen : (halves e.bytes.toList).length = 16 := by
    rw [halves, length_flatMap_pair fun _ => rfl, Vector.length_toList]
  rw [parse, text, String.toList_ofList, htrim, hfilter, hvalues, ok_bind, dif_pos hlen]
  apply congrArg Except.ok
  cases e
  simp only [ofDigits, pairs_halves, Eui.mk.injEq]
  rfl

end Eui

end LoraBridge
