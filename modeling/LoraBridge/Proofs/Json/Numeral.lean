import LoraBridge.Json.Number

/-! The numerals in printed texts. Every number prints as a numeral that can be read, a whole
number reads as itself, and a floating point number never reads as a whole one. -/
namespace LoraBridge

namespace Double

theorem digits_pos_of_roundsHere {x : Double} {d : Decimal} (hx : 0 < x.mantissa)
    (h : x.roundsHere d = true) : 0 < d.digits := by
  rcases Nat.eq_zero_or_pos d.digits with hd | hd
  case inr => exact hd
  have hnum : (tens d.digits d.exponent).1 = 0 := by
    rw [hd]
    unfold tens
    split <;> simp
  have hden : 0 < (tens d.digits d.exponent).2 := by
    unfold tens
    split
    · exact Nat.one_pos
    · exact Nat.pow_pos (by decide)
  have hlower : 0 < x.lowerEnd := by
    unfold lowerEnd
    split <;> omega
  have hend : 0 < (scaled x.lowerEnd (x.exponent - 2)).1 := by
    unfold scaled
    split
    · exact Nat.mul_pos hlower (Nat.pow_pos (by decide))
    · exact hlower
  have hpos := Nat.mul_pos hend hden
  simp only [roundsHere, hnum] at h
  split at h <;> simp only [Nat.zero_mul, Bool.and_eq_true, decide_eq_true_eq] at h <;> omega

theorem roundsHere_of_onGrid? {x : Double} {e : Int} {d : Decimal} (h : x.onGrid? e = some d) :
    x.roundsHere d = true := by
  have htry : ∀ near other : Decimal, (if x.roundsHere near then some near
      else if x.roundsHere other then some other else none) = some d → x.roundsHere d = true := by
    intro near other h
    split at h
    · next hnear =>
      cases h
      exact hnear
    split at h
    · next hother =>
      cases h
      exact hother
    · cases h
  exact htry _ _ h

private theorem digits_pos_shortest {x : Double} (hx : 0 < x.mantissa) : 0 < x.shortest.digits := by
  unfold shortest
  cases h : grids.findSome? x.onGrid? with
  | none => exact hx
  | some d =>
    obtain ⟨e, -, he⟩ := List.exists_of_findSome?_eq_some h
    exact digits_pos_of_roundsHere hx (roundsHere_of_onGrid? he)

end Double

theorem Json.Value.digits_pos_stripZeros {d : Double.Decimal} (h : 0 < d.digits) :
    0 < (stripZeros d).digits := by
  fun_induction stripZeros d with
  | case1 d hd ih => exact ih (by simp only; omega)
  | case2 d hd => exact h

namespace Json

def digits (n : Nat) : List Nat :=
  if n < 10 then [n] else digits (n / 10) ++ [n % 10]
termination_by n
decreasing_by omega

@[simp] theorem map_digits (n : Nat) : (digits n).map Nat.digitChar = Nat.toDigits 10 n := by
  fun_induction digits n with
  | case1 n h => rw [Nat.toDigits_of_lt_base h, List.map_singleton]
  | case2 n h ih =>
    rw [List.map_append, ih, Nat.toDigits_of_base_le (by decide) (Nat.le_of_not_lt h),
      List.map_singleton]

theorem lt_of_mem_digits {n d : Nat} (h : d ∈ digits n) : d < 10 := by
  fun_induction digits n with
  | case1 n hn =>
    rwa [List.mem_singleton.1 h]
  | case2 n hn ih =>
    rcases List.mem_append.1 h with h | h
    · exact ih h
    · rw [List.mem_singleton.1 h]
      exact Nat.mod_lt n (by decide)

theorem digits_ne_nil (n : Nat) : digits n ≠ [] := by
  fun_cases digits n <;> simp

theorem digits_lead {n : Nat} (hpos : 0 < n) : ∃ d ds, digits n = d :: ds ∧ d ≠ 0 := by
  fun_induction digits n with
  | case1 n h => exact ⟨n, [], rfl, Nat.ne_of_gt hpos⟩
  | case2 n h ih =>
    obtain ⟨d, ds, hds, hd⟩ := ih (by omega)
    exact ⟨d, ds ++ [n % 10], by rw [hds, List.cons_append], hd⟩

namespace Numeral

@[simp] theorem digitsValue_digits (n : Nat) : digitsValue (digits n) = n := by
  fun_induction digits n with
  | case1 n h =>
    rw [digitsValue, List.foldl_cons, List.foldl_nil]
    omega
  | case2 n h ih =>
    rw [digitsValue] at ih ⊢
    rw [List.foldl_append, ih, List.foldl_cons, List.foldl_nil]
    omega

theorem le_foldl_digits (n : Nat) (ds : List Nat) : n ≤ ds.foldl (fun n d => 10 * n + d) n := by
  induction ds generalizing n with
  | nil => exact Nat.le_refl n
  | cons d ds ih => exact Nat.le_trans (by omega) (ih (10 * n + d))

theorem fill_eq {n : Nat} {ds : List Nat}
    (h : ds.foldl (fun n d => 10 * n + d) n < 0x10000000000000000) :
    fill n ds = (ds.foldl (fun n d => 10 * n + d) n, ds.length, []) := by
  induction ds generalizing n with
  | nil => rfl
  | cons d ds ih =>
    have hle := le_foldl_digits (10 * n + d) ds
    rw [List.foldl_cons] at h
    rw [fill, if_pos (Nat.lt_of_le_of_lt hle h), ih h]
    rfl

private theorem fill_digits {n : Nat} (h : n < 0x10000000000000000) :
    fill 0 (digits n) = (n, (digits n).length, []) := by
  have hvalue := digitsValue_digits n
  rw [digitsValue] at hvalue
  rw [fill_eq (by rwa [hvalue]), hvalue]

def ofInt (z : Int) : Numeral :=
  ⟨decide (z < 0), digits z.natAbs, none, none⟩

@[simp] theorem number?_ofInt (n : WideInt) : (ofInt n.val).number? = some (.integer n) := by
  obtain ⟨z, hlow, hhigh⟩ := n
  have hfill := fill_digits (n := z.natAbs) (by omega)
  simp only [number?, ofInt, hfill, decide_eq_true_eq]
  split
  · rw [dif_pos (by omega)]
    simp only [Option.some.injEq, Number.integer.injEq, WideInt.mk.injEq]
    omega
  · rw [dif_pos (by omega)]
    simp only [WideInt.ofNat, Option.some.injEq, Number.integer.injEq, WideInt.mk.injEq]
    omega

theorem number?_ne_integer {n : Numeral} (h : n.fraction ≠ none ∨ n.exponent ≠ none)
    (i : WideInt) : n.number? ≠ some (.integer i) := by
  unfold number?
  simp only
  split
  · next hfraction hexponent =>
    simp [hfraction, hexponent] at h
  · intro heq
    obtain ⟨x, -, hx⟩ := Option.map_eq_some_iff.1 heq
    cases hx

def fractionChars : Option (List Nat) → List Char
  | some ds => '.' :: ds.map Nat.digitChar
  | none => []

def exponentChars : Option (Bool × List Nat) → List Char
  | some (negative, ds) => 'e' :: (if negative then '-' else '+') :: ds.map Nat.digitChar
  | none => []

def chars (n : Numeral) : List Char :=
  (if n.negative then ['-'] else []) ++ n.whole.map Nat.digitChar ++
    (fractionChars n.fraction ++ exponentChars n.exponent)

def IsDigits (ds : List Nat) : Prop :=
  ds ≠ [] ∧ ∀ d ∈ ds, d < 10

structure WellFormed (n : Numeral) : Prop where
  whole : IsDigits n.whole
  lead : n.whole = [0] ∨ ∃ d ds, n.whole = d :: ds ∧ d ≠ 0
  fraction : ∀ ds, n.fraction = some ds → IsDigits ds
  exponent : ∀ negative ds, n.exponent = some (negative, ds) → IsDigits ds

theorem isDigits_digits (n : Nat) : IsDigits (digits n) :=
  ⟨digits_ne_nil n, fun _ => lt_of_mem_digits⟩

theorem IsDigits.take {ds : List Nat} (h : IsDigits ds) {n : Nat} (hn : 0 < n) :
    IsDigits (ds.take n) := by
  refine ⟨?_, fun d hd => h.2 d (List.mem_of_mem_take hd)⟩
  rw [ne_eq, List.take_eq_nil_iff]
  exact not_or_intro (Nat.ne_of_gt hn) h.1

theorem IsDigits.drop {ds : List Nat} (h : IsDigits ds) {n : Nat} (hn : n < ds.length) :
    IsDigits (ds.drop n) := by
  refine ⟨?_, fun d hd => h.2 d (List.mem_of_mem_drop hd)⟩
  rw [ne_eq, List.drop_eq_nil_iff]
  exact Nat.not_le_of_lt hn

theorem lt_of_mem_zeros {n d : Nat} (h : d ∈ List.replicate n 0) : d < 10 := by
  rw [List.eq_of_mem_replicate h]
  decide

theorem IsDigits.append_zeros {ds : List Nat} (h : IsDigits ds) (n : Nat) :
    IsDigits (ds ++ List.replicate n 0) :=
  ⟨List.append_ne_nil_of_left_ne_nil h.1 _, fun d hd =>
    (List.mem_append.1 hd).elim (h.2 d) lt_of_mem_zeros⟩

theorem IsDigits.zeros_append {ds : List Nat} (h : IsDigits ds) (n : Nat) :
    IsDigits (List.replicate n 0 ++ ds) :=
  ⟨List.append_ne_nil_of_right_ne_nil _ h.1, fun d hd =>
    (List.mem_append.1 hd).elim lt_of_mem_zeros (h.2 d)⟩

theorem wellFormed_ofInt (z : Int) : (ofInt z).WellFormed := by
  refine ⟨isDigits_digits _, ?_, nofun, nofun⟩
  rcases Nat.eq_zero_or_pos z.natAbs with h | h
  · refine .inl ?_
    rw [ofInt, h, digits, if_pos (by decide)]
  · exact .inr (digits_lead h)

@[simp] theorem chars_ofInt (z : Int) : (ofInt z).chars = (toString z).toList := by
  rw [chars, ofInt, map_digits, Int.toString_eq_repr, Int.repr_eq_if]
  simp only [fractionChars, exponentChars, List.append_nil, decide_eq_true_eq]
  split
  · rw [if_neg (by omega), String.toList_append, Nat.toList_repr,
      show (-z).toNat = z.natAbs by omega]
    rfl
  · rw [if_pos (by omega), Nat.toList_repr, show z.toNat = z.natAbs by omega]
    rfl

def ofDecimal (negative : Bool) (d : Double.Decimal) : Numeral :=
  let ds := digits d.digits
  let point : Int := ds.length + d.exponent
  if 0 ≤ d.exponent ∧ point ≤ 16 then
    ⟨negative, ds ++ List.replicate d.exponent.toNat 0, some [0], none⟩
  else if 0 < point ∧ point ≤ 16 then
    ⟨negative, ds.take point.toNat, some (ds.drop point.toNat), none⟩
  else if -5 < point ∧ point ≤ 0 then
    ⟨negative, [0], some (List.replicate (-point).toNat 0 ++ ds), none⟩
  else
    ⟨negative, ds.take 1, if ds.length = 1 then none else some (ds.drop 1),
      some (point - 1 < 0, digits (point - 1).natAbs)⟩

theorem fraction_or_exponent_ofDecimal (negative : Bool) (d : Double.Decimal) :
    (ofDecimal negative d).fraction ≠ none ∨ (ofDecimal negative d).exponent ≠ none := by
  unfold ofDecimal
  simp only
  split
  · exact .inl nofun
  split
  · exact .inl nofun
  split
  · exact .inl nofun
  · exact .inr nofun

theorem chars_ofDecimal (negative : Bool) (d : Double.Decimal) :
    (ofDecimal negative d).chars =
      (if negative then ['-'] else []) ++ Value.decimalText d := by
  unfold ofDecimal Value.decimalText
  simp only [Double.Decimal.text, ← map_digits, List.length_map]
  split
  · simp only [chars, List.map_append, List.map_replicate, List.append_assoc]
    rfl
  split
  · simp [chars, fractionChars, exponentChars]
  split
  · simp [chars, fractionChars, exponentChars]
  · generalize (digits d.digits).length + d.exponent - 1 = e
    rcases hds : digits d.digits with _ | ⟨a, _ | ⟨b, ds⟩⟩
    · exact absurd hds (digits_ne_nil _)
    all_goals by_cases he : e < 0 <;> simp [chars, fractionChars, exponentChars, he]

theorem wellFormed_ofDecimal (negative : Bool) {d : Double.Decimal} (h : 0 < d.digits) :
    (ofDecimal negative d).WellFormed := by
  have hds := isDigits_digits d.digits
  obtain ⟨a, as, has, ha⟩ := digits_lead h
  have hlen : (digits d.digits).length = as.length + 1 := by
    rw [has, List.length_cons]
  unfold ofDecimal
  simp only
  -- Zeros behind the digits, a point among them, zeros before them, and an exponent.
  split
  · refine ⟨hds.append_zeros _, .inr ⟨a, as ++ _, by rw [has]; rfl, ha⟩, ?_, nofun⟩
    rintro ds ⟨⟩
    exact ⟨by simp, by simp⟩
  split
  · next hint hpoint =>
    obtain ⟨k, hk⟩ : ∃ k, ((digits d.digits).length + d.exponent).toNat = k + 1 :=
      Nat.exists_eq_succ_of_ne_zero (by omega)
    rw [hk]
    refine ⟨hds.take (Nat.succ_pos k), .inr ⟨a, as.take k, by rw [has]; rfl, ha⟩, ?_, nofun⟩
    rintro ds ⟨⟩
    exact hds.drop (by omega)
  split
  · refine ⟨⟨by simp, by simp⟩, .inl rfl, ?_, nofun⟩
    rintro ds ⟨⟩
    exact hds.zeros_append _
  · refine ⟨hds.take (by decide), .inr ⟨a, [], by rw [has]; rfl, ha⟩, ?_, ?_⟩
    · intro ds h
      split at h
      · cases h
      · cases h
        exact hds.drop (by omega)
    · rintro negative ds ⟨⟩
      exact isDigits_digits _

def ofDouble (x : Double) : Numeral :=
  if x.isZero then ⟨x.negative, [0], some [0], none⟩
  else ofDecimal x.negative (Value.stripZeros x.shortest)

theorem fraction_or_exponent_ofDouble (x : Double) :
    (ofDouble x).fraction ≠ none ∨ (ofDouble x).exponent ≠ none := by
  unfold ofDouble
  split
  · exact .inl nofun
  · exact fraction_or_exponent_ofDecimal _ _

@[simp] theorem chars_ofDouble (x : Double) : (ofDouble x).chars = (Value.floatText x).toList := by
  unfold ofDouble Value.floatText
  rw [String.toList_ofList]
  split
  · simp only [chars, List.append_assoc]
    rfl
  · exact chars_ofDecimal _ _

theorem wellFormed_ofDouble (x : Double) : (ofDouble x).WellFormed := by
  unfold ofDouble
  split
  · refine ⟨⟨by simp, by simp⟩, .inl rfl, ?_, nofun⟩
    rintro ds ⟨⟩
    exact ⟨by simp, by simp⟩
  · next hzero =>
    have hx : 0 < x.mantissa := by
      simpa [Double.isZero, Nat.pos_iff_ne_zero] using hzero
    exact wellFormed_ofDecimal _ (Value.digits_pos_stripZeros (Double.digits_pos_shortest hx))

end Numeral

end Json

end LoraBridge
