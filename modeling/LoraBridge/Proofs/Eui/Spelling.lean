import LoraBridge.Proofs.Eui.Text
import LoraBridge.Proofs.Json.Printing
import LoraBridge.Proofs.Json.Reading

/-! The spellings of an identifier. A text is read as an identifier exactly when it is the
canonical text of the identifier, apart from blanks around it, separators and the case of its
digits. Every other text is refused for its first character that is no digit, or else for the
number of its digits. -/
namespace LoraBridge.Eui

def isHex (c : Char) : Bool :=
  ((List.range 16).map hexDigit).contains c.toLower

def bare (s : String) : List Char :=
  (Text.trim s.toList).filter fun c => !isSeparator c

/-- The canonical text among the spellings of one identifier. -/
def canonical (s : String) : String :=
  String.ofList ((bare s).map Char.toLower)

theorem toNat_le_toLower (c : Char) : c.toNat ≤ c.toLower.toNat := by
  unfold Char.toLower
  split
  · next h =>
    have hlow := UInt32.le_iff_toNat_le.1 h.1
    have hhigh := UInt32.le_iff_toNat_le.1 h.2
    change c.val.toNat ≤ (c.val + ('a'.val - 'A'.val)).toNat
    rw [UInt32.toNat_add]
    change c.val.toNat ≤ (c.val.toNat + 32) % 2 ^ 32
    change c.val.toNat ≤ 90 at hhigh
    omega
  · exact Nat.le_refl _

/-- Digits have a value, and only digits; their values give them back in lowercase. -/
theorem hexValue?_eq_some_iff {c : Char} {d : Nat} :
    hexValue? c = some d ↔ d < 16 ∧ c.toLower = hexDigit d := by
  have hvalue : ∀ n : Fin 128, ∀ d ∈ hexValue? (Char.ofNat n),
      d < 16 ∧ (Char.ofNat n).toLower = hexDigit d := by decide +kernel
  have hdigit : ∀ d : Fin 16, ∀ n : Fin 128, (Char.ofNat n).toLower = hexDigit d →
      hexValue? (Char.ofNat n) = some d.val := by decide +kernel
  constructor
  · intro h
    have hc : c.toNat < 128 := by
      have hle : ∀ a b : Char, a ≤ b ↔ a.toNat ≤ b.toNat := fun _ _ => UInt32.le_iff_toNat_le
      simp only [hexValue?, hle] at h
      split at h
      · next hr => exact Nat.lt_of_le_of_lt hr.2 (by decide)
      split at h
      · next hr => exact Nat.lt_of_le_of_lt hr.2 (by decide)
      split at h
      · next hr => exact Nat.lt_of_le_of_lt hr.2 (by decide)
      · cases h
    rw [← Char.ofNat_toNat c] at h ⊢
    exact hvalue ⟨c.toNat, hc⟩ d h
  · rintro ⟨hd, h⟩
    have hc : c.toNat < 128 := by
      apply Nat.lt_of_le_of_lt (toNat_le_toLower c)
      rw [h]
      exact toNat_hexDigit_lt hd
    rw [← Char.ofNat_toNat c] at h ⊢
    exact hdigit ⟨d, hd⟩ ⟨c.toNat, hc⟩ h

private theorem isHex_iff {c : Char} : isHex c = true ↔ ∃ d, hexValue? c = some d := by
  rw [isHex, List.contains_iff_mem, List.mem_map]
  simp only [List.mem_range, hexValue?_eq_some_iff, eq_comm (b := c.toLower)]

theorem hexValues_eq_ok_iff {cs : List Char} {ds : List Nat} : hexValues cs = .ok ds ↔
    cs.map Char.toLower = ds.map hexDigit ∧ ∀ d ∈ ds, d < 16 := by
  induction cs generalizing ds with
  | nil =>
    rw [hexValues, Except.ok.injEq, List.map_nil]
    constructor
    · rintro rfl
      exact ⟨rfl, fun d hd => absurd hd List.not_mem_nil⟩
    · exact fun h => (List.map_eq_nil_iff.1 h.1.symm).symm
  | cons c cs ih =>
    cases hc : hexValue? c with
    | none =>
      simp only [hexValues, hc, reduceCtorEq, false_iff]
      rintro ⟨hmap, hlt⟩
      cases ds with
      | nil => cases hmap
      | cons d ds =>
        rw [List.map_cons, List.map_cons] at hmap
        have hd := hexValue?_eq_some_iff.2 ⟨hlt d List.mem_cons_self, (List.cons.inj hmap).1⟩
        rw [hc] at hd
        cases hd
    | some d =>
      simp only [hexValues, hc, map_eq_ok, ih]
      constructor
      · rintro ⟨ds', ⟨hmap, hlt⟩, rfl⟩
        obtain ⟨hd, hlower⟩ := hexValue?_eq_some_iff.1 hc
        exact ⟨by rw [List.map_cons, List.map_cons, hmap, hlower],
          List.forall_mem_cons.2 ⟨hd, hlt⟩⟩
      · rintro ⟨hmap, hlt⟩
        cases ds with
        | nil => cases hmap
        | cons d' ds =>
          rw [List.map_cons, List.map_cons] at hmap
          obtain ⟨hlower, hrest⟩ := List.cons.inj hmap
          obtain ⟨hd', hlt'⟩ := List.forall_mem_cons.1 hlt
          have hd := hexValue?_eq_some_iff.2 ⟨hd', hlower⟩
          rw [hc] at hd
          cases hd
          exact ⟨ds, ⟨hrest, hlt'⟩, rfl⟩

theorem hexValues_eq_error_iff {cs : List Char} {e : ParseError} : hexValues cs = .error e ↔
    ∃ c, cs.find? (fun c => !isHex c) = some c ∧ e = .invalidChar c := by
  induction cs with
  | nil => simp [hexValues]
  | cons c cs ih =>
    cases hc : hexValue? c with
    | none =>
      have hhex : isHex c = false := by
        rw [← Bool.not_eq_true, isHex_iff, hc]
        rintro ⟨d, hd⟩
        cases hd
      simp only [hexValues, hc, List.find?_cons, hhex, Bool.not_false, Except.error.injEq,
        Option.some.injEq, exists_eq_left', eq_comm]
    | some d =>
      have hhex : isHex c = true := isHex_iff.2 ⟨d, hc⟩
      simp only [hexValues, hc, List.find?_cons, hhex, Bool.not_true, map_eq_error, ih]

theorem flatMap_pairs : ∀ ds : List Nat, ds.length % 2 = 0 → (∀ d ∈ ds, d < 16) →
    (pairs ds).flatMap hexPair = ds.map hexDigit
  | [], _, _ => rfl
  | [_], h, _ => by cases h
  | hi :: lo :: ds, h, hlt => by
    have hhi := hlt hi List.mem_cons_self
    have hlo := hlt lo (List.mem_cons_of_mem _ List.mem_cons_self)
    have hrest := flatMap_pairs ds (by rw [List.length_cons, List.length_cons] at h; omega)
      fun d hd => hlt d (List.mem_cons_of_mem _ (List.mem_cons_of_mem _ hd))
    have hbyte : (UInt8.ofNat (16 * hi + lo)).toNat = 16 * hi + lo :=
      UInt8.toNat_ofNat_of_lt' (show 16 * hi + lo < 256 by omega)
    rw [pairs, List.flatMap_cons, hrest, hexPair, hbyte, List.map_cons, List.map_cons,
      show (16 * hi + lo) / 16 = hi by omega, show (16 * hi + lo) % 16 = lo by omega]
    rfl

private theorem digits_ofDigits {ds : List Nat} (h : ds.length = 16) (hlt : ∀ d ∈ ds, d < 16) :
    (ofDigits ds h).digits = ds.map hexDigit :=
  flatMap_pairs ds (by rw [h]) hlt

private theorem text_inj {a b : Eui} (h : a.text = b.text) : a = b := by
  have hparse := parse_text a
  rw [h, parse_text] at hparse
  exact (Except.ok.inj hparse).symm

theorem digits_eq_map (e : Eui) :
    e.digits = (halves e.bytes.toList).map hexDigit ∧ ∀ d ∈ halves e.bytes.toList, d < 16 := by
  constructor
  · rw [digits, halves, List.map_flatMap]
    rfl
  · intro d hd
    obtain ⟨b, -, hb⟩ := List.mem_flatMap.1 hd
    have hlt := b.toNat_lt
    simp only [List.mem_cons, List.not_mem_nil, or_false] at hb
    omega

theorem parse_eq_ok_iff {s : String} {e : Eui} : parse s = .ok e ↔ canonical s = e.text := by
  have hread : ∀ {e' : Eui}, parse s = .ok e' → canonical s = e'.text := by
    intro e' h
    obtain ⟨ds, hds, h⟩ := bind_eq_ok.1 h
    split at h
    · next hlen =>
      cases h
      obtain ⟨hmap, hlt⟩ := hexValues_eq_ok_iff.1 hds
      exact congrArg String.ofList (hmap.trans (digits_ofDigits hlen hlt).symm)
    · cases h
  constructor
  · exact hread
  · intro h
    have hlower : (bare s).map Char.toLower = e.digits := by
      have hlist := congrArg String.toList h
      rwa [canonical, text, String.toList_ofList, String.toList_ofList] at hlist
    obtain ⟨hmap, hlt⟩ := digits_eq_map e
    have hvalues : hexValues (bare s) = .ok (halves e.bytes.toList) :=
      hexValues_eq_ok_iff.2 ⟨hlower.trans hmap, hlt⟩
    have hlen : (halves e.bytes.toList).length = 16 := by
      rw [halves, length_flatMap_pair fun _ => rfl, Vector.length_toList]
    have hparse : parse s = .ok (ofDigits _ hlen) := by
      rw [parse, ← bare, hvalues, ok_bind, dif_pos hlen]
    -- What is read has the canonical text of the input, and so of the identifier.
    rw [hparse, text_inj ((hread hparse).symm.trans h)]

def firstInvalid (s : String) : Option Char :=
  (Text.trim s.toList).find? fun c => !isSeparator c && !isHex c

@[simp] theorem find?_bare (s : String) : (bare s).find? (fun c => !isHex c) = firstInvalid s := by
  simp only [bare, firstInvalid, List.find?_filter, Bool.decide_and, Bool.decide_eq_true]

private theorem bare_of_firstInvalid {s : String} (h : firstInvalid s = none) :
    ∀ c ∈ bare s, isHex c = true := by
  rw [← find?_bare, List.find?_eq_none] at h
  intro c hc
  simpa using h c hc

private theorem isSeparator_of_isHex {c : Char} (h : isHex c = true) : isSeparator c = false := by
  rw [← Bool.not_eq_true]
  intro hsep
  rw [isSeparator, Bool.or_eq_true, beq_iff_eq, beq_iff_eq] at hsep
  rcases hsep with rfl | rfl
  · exact absurd h (by decide)
  · exact absurd h (by decide)

theorem length_bare {s : String} (h : firstInvalid s = none) :
    (bare s).length = (Text.trim s.toList).countP isHex := by
  rw [bare, ← List.countP_eq_length_filter]
  apply List.countP_congr
  intro c hc
  constructor
  · intro hsep
    exact bare_of_firstInvalid h c (List.mem_filter.2 ⟨hc, hsep⟩)
  · intro hhex
    rw [isSeparator_of_isHex hhex]
    rfl

theorem parse_eq_invalidChar_iff {s : String} {c : Char} :
    parse s = .error (.invalidChar c) ↔ firstInvalid s = some c := by
  rw [parse, ← bare, ← find?_bare]
  cases hds : hexValues (bare s) with
  | error e =>
    obtain ⟨c', hfind, rfl⟩ := hexValues_eq_error_iff.1 hds
    simp only [error_bind, hfind, Except.error.injEq, ParseError.invalidChar.injEq,
      Option.some.injEq]
  | ok ds =>
    have hnone : ∀ c', (bare s).find? (fun c => !isHex c) ≠ some c' := by
      intro c' hfind
      rw [hexValues_eq_error_iff.2 ⟨c', hfind, rfl⟩] at hds
      cases hds
    simp only [ok_bind, hnone, iff_false]
    split
    · intro h
      cases h
    · intro h
      cases h

theorem parse_eq_invalidLength_iff {s : String} {n : Nat} : parse s = .error (.invalidLength n) ↔
    firstInvalid s = none ∧ n = (Text.trim s.toList).countP isHex ∧ n ≠ 16 := by
  cases hds : hexValues (bare s) with
  | error e =>
    obtain ⟨c', hfind, rfl⟩ := hexValues_eq_error_iff.1 hds
    rw [find?_bare] at hfind
    rw [parse_eq_invalidChar_iff.2 hfind, hfind]
    simp only [Except.error.injEq, reduceCtorEq, false_and]
  | ok ds =>
    have hnone : firstInvalid s = none := by
      rw [← find?_bare, Option.eq_none_iff_forall_ne_some]
      intro c' hfind
      rw [hexValues_eq_error_iff.2 ⟨c', hfind, rfl⟩] at hds
      cases hds
    have hlen : ds.length = (Text.trim s.toList).countP isHex := by
      have hmap := congrArg List.length (hexValues_eq_ok_iff.1 hds).1
      rw [List.length_map, List.length_map] at hmap
      rw [← hmap, length_bare hnone]
    rw [parse, ← bare, hds, ok_bind, ← hlen]
    split
    · next h =>
      simp only [reduceCtorEq, false_iff, not_and]
      rintro - rfl hne
      exact hne h
    · next h =>
      simp only [Except.error.injEq, ParseError.invalidLength.injEq, hnone, true_and]
      constructor
      · rintro rfl
        exact ⟨rfl, h⟩
      · exact fun heq => heq.1.symm

private theorem decode_string (s : String) :
    Json.decode Json.readEui (Json.Value.string s).text.toUTF8.toList =
      (parse s).mapError fun e => .mismatch (.eui e) := by
  rw [Json.decode, Json.Document.ofBytes_text, Json.readEui, Json.readText, Json.readString_tree,
    ok_bind]
  cases parse s with
  | ok e => rfl
  | error e => rfl

/-- Reading gives an identifier exactly for the spellings of its canonical text, also from JSON,
and refuses every other text for its first invalid character or else its number of digits. -/
theorem reads_spellings :
    (∀ s e, parse s = .ok e ↔ canonical s = e.text) ∧
    (∀ e : Eui, e.text.length = 16 ∧ parse e.text = .ok e ∧
      Json.decode Json.readEui (Json.Value.string e.text).text.toUTF8.toList = .ok e) ∧
    (∀ s, Json.decode Json.readEui (Json.Value.string s).text.toUTF8.toList =
      (parse s).mapError fun e => .mismatch (.eui e)) ∧
    (∀ s c, parse s = .error (.invalidChar c) ↔ firstInvalid s = some c) ∧
    ∀ s n, parse s = .error (.invalidLength n) ↔
      firstInvalid s = none ∧ n = (Text.trim s.toList).countP isHex ∧ n ≠ 16 := by
  refine ⟨fun _ _ => parse_eq_ok_iff, fun e => ⟨?_, parse_text e, ?_⟩, decode_string,
    fun _ _ => parse_eq_invalidChar_iff, fun _ _ => parse_eq_invalidLength_iff⟩
  · rw [text, String.length_ofList, length_digits]
  · rw [decode_string, parse_text, mapError_ok]

example : canonical " 01-02:03aAbBcCdDeE\n" = "010203aabbccddee" := by
  decide +kernel

end LoraBridge.Eui
