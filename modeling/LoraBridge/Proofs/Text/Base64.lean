import LoraBridge.Proofs.Results
import LoraBridge.Text.Base64

/-! Reading base64 accepts a text exactly when it is the text of the bytes that were read:
the padding is written out and the bits that carry nothing are zero. -/
namespace LoraBridge.Text.Base64

@[simp] private theorem sextet?_symbol {n : Nat} (h : n < 64) : sextet? (symbol n) = some n := by
  have hall : ∀ m : Fin 64, sextet? (symbol m) = some m.val := by decide
  exact hall ⟨n, h⟩

private theorem symbol_of_sextet? {s : UInt8} {n : Nat} (h : sextet? s = some n) :
    n < 64 ∧ symbol n = s := by
  have hall : ∀ b : Fin 256, ∀ m, sextet? (UInt8.ofNat b) = some m →
      m < 64 ∧ symbol m = UInt8.ofNat b := by decide +kernel
  have hs := hall ⟨s.toNat, s.toNat_lt⟩ n
  simp only [UInt8.ofNat_toNat] at hs
  exact hs h

private theorem symbol_ne_pad {n : Nat} (h : n < 64) : symbol n ≠ pad := by
  have hall : ∀ m : Fin 64, symbol m ≠ pad := by decide
  exact hall ⟨n, h⟩

@[simp] theorem sextet_eq_ok {offset n : Nat} {s : UInt8} :
    sextet offset s = .ok n ↔ n < 64 ∧ symbol n = s := by
  unfold sextet
  constructor
  · intro h
    split at h
    · next m hm =>
      cases h
      exact symbol_of_sextet? hm
    · cases h
  · rintro ⟨hn, rfl⟩
    rw [sextet?_symbol hn]

@[simp] theorem toNat_ofNat {n : Nat} (h : n < 256) : (UInt8.ofNat n).toNat = n :=
  UInt8.toNat_ofNat_of_lt' h

private theorem ofNat_eq {n : Nat} {x : UInt8} (h : n = x.toNat) : UInt8.ofNat n = x := by
  rw [h, UInt8.ofNat_toNat]

theorem encode_quad {a b c d : Nat} (ha : a < 64) (hb : b < 64) (hc : c < 64) (hd : d < 64)
    (bytes : List UInt8) :
    encode (quad a b c d ++ bytes) =
      symbol a :: symbol b :: symbol c :: symbol d :: encode bytes := by
  have hx : (UInt8.ofNat (a * 4 + b / 16)).toNat = a * 4 + b / 16 := toNat_ofNat (by omega)
  have hy : (UInt8.ofNat (b % 16 * 16 + c / 4)).toNat = b % 16 * 16 + c / 4 :=
    toNat_ofNat (by omega)
  have hz : (UInt8.ofNat (c % 4 * 64 + d)).toNat = c % 4 * 64 + d := toNat_ofNat (by omega)
  have ha' : (a * 4 + b / 16) / 4 = a := by omega
  have hb' : (a * 4 + b / 16) % 4 * 16 + (b % 16 * 16 + c / 4) / 16 = b := by omega
  have hc' : (b % 16 * 16 + c / 4) % 16 * 4 + (c % 4 * 64 + d) / 64 = c := by omega
  have hd' : (c % 4 * 64 + d) % 64 = d := by omega
  simp only [quad, List.cons_append, List.nil_append, encode, hx, hy, hz, ha', hb', hc', hd']

theorem encode_two {a b c : Nat} (ha : a < 64) (hb : b < 64) (hc : c < 64) (hzero : c % 4 = 0) :
    encode ((quad a b c 0).take 2) = [symbol a, symbol b, symbol c, pad] := by
  have hx : (UInt8.ofNat (a * 4 + b / 16)).toNat = a * 4 + b / 16 := toNat_ofNat (by omega)
  have hy : (UInt8.ofNat (b % 16 * 16 + c / 4)).toNat = b % 16 * 16 + c / 4 :=
    toNat_ofNat (by omega)
  have ha' : (a * 4 + b / 16) / 4 = a := by omega
  have hb' : (a * 4 + b / 16) % 4 * 16 + (b % 16 * 16 + c / 4) / 16 = b := by omega
  have hc' : (b % 16 * 16 + c / 4) % 16 * 4 = c := by omega
  simp only [quad, List.take_succ_cons, List.take_zero, encode, hx, hy, ha', hb', hc']

private theorem encode_one {a b : Nat} (ha : a < 64) (hb : b < 64) (hzero : b % 16 = 0) :
    encode ((quad a b 0 0).take 1) = [symbol a, symbol b, pad, pad] := by
  have hx : (UInt8.ofNat (a * 4 + b / 16)).toNat = a * 4 + b / 16 := toNat_ofNat (by omega)
  have ha' : (a * 4 + b / 16) / 4 = a := by omega
  have hb' : (a * 4 + b / 16) % 4 * 16 = b := by omega
  simp only [quad, List.take_succ_cons, List.take_zero, encode, hx, ha', hb']

theorem lastGroup_eq_ok {offset i pads : Nat} {group : List UInt8} {ns : List Nat} :
    lastGroup offset i group = .ok (ns, pads) ↔
      group = ns.map symbol ++ List.replicate pads pad ∧ (∀ n ∈ ns, n < 64) ∧
        (pads = 0 ∨ 2 ≤ i + ns.length) := by
  induction group generalizing i ns with
  | nil =>
    rw [lastGroup]
    constructor
    · intro h
      cases h
      exact ⟨rfl, nofun, .inl rfl⟩
    · rintro ⟨h, -, -⟩
      obtain ⟨hns, hpads⟩ := List.append_eq_nil_iff.1 h.symm
      rw [List.map_eq_nil_iff.1 hns, (List.replicate_eq_nil_iff pad).1 hpads]
  | cons s rest ih =>
    rw [lastGroup]
    constructor
    · intro h
      split at h
      · next hs =>
        split at h
        · cases h
        · next hi =>
          split at h
          · next hall =>
            cases h
            refine ⟨?_, nofun, .inr (Nat.not_lt.1 hi)⟩
            rw [hs, Nat.add_comm, List.replicate_succ]
            refine congrArg _ (List.eq_replicate_iff.2 ⟨rfl, ?_⟩)
            simpa using hall
          · cases h
      · obtain ⟨n, hn, h⟩ := bind_eq_ok.1 h
        obtain ⟨⟨ns', pads'⟩, hrest, h⟩ := bind_eq_ok.1 h
        cases h
        obtain ⟨hlt, rfl⟩ := sextet_eq_ok.1 hn
        obtain ⟨hgroup, hall, hpads⟩ := ih.1 hrest
        refine ⟨by rw [hgroup]; rfl, List.forall_mem_cons.2 ⟨hlt, hall⟩, ?_⟩
        rw [List.length_cons]
        omega
    · rintro ⟨hgroup, hall, hpads⟩
      cases ns with
      | nil =>
        cases pads with
        | zero => cases hgroup
        | succ k =>
          rw [List.replicate_succ] at hgroup
          obtain ⟨rfl, rfl⟩ := List.cons.inj hgroup
          have hi : ¬ i < 2 := by
            rw [List.length_nil] at hpads
            omega
          rw [if_pos rfl, if_neg hi, if_pos (by simp), List.length_replicate, Nat.add_comm]
      | cons n ns =>
        obtain ⟨rfl, hrest⟩ := List.cons.inj hgroup
        obtain ⟨hlt, hall⟩ := List.forall_mem_cons.1 hall
        rw [List.length_cons] at hpads
        have hlast := (ih (i := i + 1)).2 ⟨hrest, hall, by omega⟩
        rw [if_neg (symbol_ne_pad hlt), sextet_eq_ok.2 ⟨hlt, rfl⟩, ok_bind, hlast, ok_bind]

theorem encode_of_decodeLast {offset : Nat} {group bytes : List UInt8} (hlen : group.length ≤ 4)
    (h : decodeLast offset group = .ok bytes) : encode bytes = group := by
  unfold decodeLast at h
  obtain ⟨⟨ns, pads⟩, hgroup, h⟩ := bind_eq_ok.1 h
  obtain ⟨hg, hall, -⟩ := lastGroup_eq_ok.1 hgroup
  have hsize : group.length = ns.length + pads := by
    rw [hg, List.length_append, List.length_map, List.length_replicate]
  -- Two, three and four symbols are one, two and three bytes; any other number is refused.
  rcases ns with _ | ⟨a, _ | ⟨b, ns⟩⟩
  · simp only at h
    split at h
    · next hempty =>
      cases h
      exact (List.isEmpty_iff.1 hempty).symm
    · cases h
  · cases h
  simp only [List.length_cons] at h hsize
  split at h
  · cases h
  next hfull =>
  obtain ⟨ha, hall⟩ := List.forall_mem_cons.1 hall
  obtain ⟨hb, hall⟩ := List.forall_mem_cons.1 hall
  rcases ns with _ | ⟨c, _ | ⟨d, _ | ⟨e, ns⟩⟩⟩
  · simp only at h
    split at h
    · cases h
    · next hzero =>
      cases h
      obtain rfl : pads = 2 := by
        simp only [List.length_nil] at hsize hfull
        omega
      rw [encode_one ha hb (Decidable.not_not.1 hzero), hg]
      rfl
  · simp only at h
    split at h
    · cases h
    · next hzero =>
      cases h
      obtain rfl : pads = 1 := by
        simp only [List.length_cons, List.length_nil] at hsize hfull
        omega
      have hc := hall c List.mem_cons_self
      rw [encode_two ha hb hc (Decidable.not_not.1 hzero), hg]
      rfl
  · cases h
    obtain rfl : pads = 0 := by
      simp only [List.length_cons, List.length_nil] at hsize
      omega
    have hquad := encode_quad ha hb (hall c (by simp)) (hall d (by simp)) []
    rw [List.append_nil] at hquad
    rw [hquad, hg]
    rfl
  · simp only [List.length_cons] at hsize
    omega

theorem encode_of_decodeGroups {offset : Nat} {s bytes : List UInt8}
    (h : decodeGroups offset s = .ok bytes) : encode bytes = s := by
  fun_induction decodeGroups offset s generalizing bytes with
  | case1 offset a b c d e rest ih =>
    obtain ⟨na, ha, h⟩ := bind_eq_ok.1 h
    obtain ⟨nb, hb, h⟩ := bind_eq_ok.1 h
    obtain ⟨nc, hc, h⟩ := bind_eq_ok.1 h
    obtain ⟨nd, hd, h⟩ := bind_eq_ok.1 h
    obtain ⟨more, hmore, h⟩ := bind_eq_ok.1 h
    cases h
    obtain ⟨hna, rfl⟩ := sextet_eq_ok.1 ha
    obtain ⟨hnb, rfl⟩ := sextet_eq_ok.1 hb
    obtain ⟨hnc, rfl⟩ := sextet_eq_ok.1 hc
    obtain ⟨hnd, rfl⟩ := sextet_eq_ok.1 hd
    rw [encode_quad hna hnb hnc hnd, ih hmore]
  | case2 offset group hshort =>
    refine encode_of_decodeLast ?_ h
    rcases group with _ | ⟨a, _ | ⟨b, _ | ⟨c, _ | ⟨d, _ | ⟨e, rest⟩⟩⟩⟩⟩
    all_goals first | exact absurd rfl (hshort a b c d e rest) | simp

theorem encode_of_decode {s bytes : List UInt8} (h : decode s = .ok bytes) : encode bytes = s := by
  unfold decode at h
  split at h
  · cases h
  · exact encode_of_decodeGroups h

private theorem length_encode_mod (bytes : List UInt8) : (encode bytes).length % 4 = 0 := by
  fun_induction encode bytes with
  | case1 a b c rest ih =>
    simp only [List.length_cons]
    omega
  | case2 | case3 | case4 => simp only [List.length_cons, List.length_nil]

private theorem decodeLast_quad {offset a b c d : Nat} (ha : a < 64) (hb : b < 64) (hc : c < 64)
    (hd : d < 64) :
    decodeLast offset [symbol a, symbol b, symbol c, symbol d] = .ok (quad a b c d) := by
  have hgroup : lastGroup offset 0 [symbol a, symbol b, symbol c, symbol d] =
      .ok ([a, b, c, d], 0) :=
    lastGroup_eq_ok.2 ⟨rfl, by simp [ha, hb, hc, hd], .inl rfl⟩
  simp [decodeLast, hgroup]

private theorem decodeLast_two {offset a b c : Nat} (ha : a < 64) (hb : b < 64) (hc : c < 64)
    (hzero : c % 4 = 0) :
    decodeLast offset [symbol a, symbol b, symbol c, pad] = .ok ((quad a b c 0).take 2) := by
  have hgroup : lastGroup offset 0 [symbol a, symbol b, symbol c, pad] = .ok ([a, b, c], 1) :=
    lastGroup_eq_ok.2 ⟨rfl, by simp [ha, hb, hc], .inr (by simp)⟩
  simp [decodeLast, hgroup, hzero]

private theorem decodeLast_one {offset a b : Nat} (ha : a < 64) (hb : b < 64) (hzero : b % 16 = 0) :
    decodeLast offset [symbol a, symbol b, pad, pad] = .ok ((quad a b 0 0).take 1) := by
  have hgroup : lastGroup offset 0 [symbol a, symbol b, pad, pad] = .ok ([a, b], 2) :=
    lastGroup_eq_ok.2 ⟨rfl, by simp [ha, hb], .inr (by simp)⟩
  simp [decodeLast, hgroup, hzero]

theorem decodeGroups_quad {offset a b c d : Nat} (ha : a < 64) (hb : b < 64) (hc : c < 64)
    (hd : d < 64) (more : List UInt8) :
    decodeGroups offset (symbol a :: symbol b :: symbol c :: symbol d :: more) =
      (decodeGroups (offset + 4) more).map (quad a b c d ++ ·) := by
  cases more with
  | nil => exact decodeLast_quad ha hb hc hd
  | cons e more =>
    rw [decodeGroups, sextet_eq_ok.2 ⟨ha, rfl⟩, sextet_eq_ok.2 ⟨hb, rfl⟩,
      sextet_eq_ok.2 ⟨hc, rfl⟩, sextet_eq_ok.2 ⟨hd, rfl⟩]
    simp only [ok_bind]
    cases decodeGroups (offset + 4) (e :: more) <;> rfl

@[simp] theorem decodeGroups_encode (offset : Nat) (bytes : List UInt8) :
    decodeGroups offset (encode bytes) = .ok bytes := by
  fun_induction encode bytes generalizing offset with
  | case1 x y z rest ih =>
    have hx := x.toNat_lt
    have hy := y.toNat_lt
    have hz := z.toNat_lt
    rw [decodeGroups_quad (by omega) (by omega) (by omega) (by omega), ih, map_ok, quad,
      ofNat_eq (x := x) (by omega), ofNat_eq (x := y) (by omega), ofNat_eq (x := z) (by omega)]
    rfl
  | case2 x y =>
    have hx := x.toNat_lt
    have hy := y.toNat_lt
    refine (decodeLast_two (by omega) (by omega) (by omega) (by omega)).trans ?_
    rw [quad, ofNat_eq (x := x) (by omega), ofNat_eq (x := y) (by omega)]
    rfl
  | case3 x =>
    have hx := x.toNat_lt
    refine (decodeLast_one (by omega) (by omega) (by omega)).trans ?_
    rw [quad, ofNat_eq (x := x) (by omega)]
    rfl
  | case4 => rfl

@[simp] theorem decode_encode (bytes : List UInt8) : decode (encode bytes) = .ok bytes := by
  have hstray : strayEnd? (encode bytes) = none := by
    rw [strayEnd?, if_neg (by rw [length_encode_mod]; decide)]
  rw [decode, hstray]
  exact decodeGroups_encode 0 bytes

private theorem toNat_symbol_lt (n : Nat) : (symbol n).toNat < 128 := by
  unfold symbol
  rw [toNat_ofNat] <;> grind

theorem toNat_lt_of_mem_encode {bytes : List UInt8} {s : UInt8} (h : s ∈ encode bytes) :
    s.toNat < 128 := by
  fun_induction encode bytes with
  | case1 a b c rest ih =>
    simp only [List.mem_cons] at h
    rcases h with rfl | rfl | rfl | rfl | h
    all_goals first | exact toNat_symbol_lt _ | exact ih h
  | case2 a b =>
    simp only [List.mem_cons, List.not_mem_nil, or_false] at h
    rcases h with rfl | rfl | rfl | rfl
    all_goals first | exact toNat_symbol_lt _ | decide
  | case3 a =>
    simp only [List.mem_cons, List.not_mem_nil, or_false] at h
    rcases h with rfl | rfl | rfl | rfl
    all_goals first | exact toNat_symbol_lt _ | decide
  | case4 => cases h

end LoraBridge.Text.Base64
