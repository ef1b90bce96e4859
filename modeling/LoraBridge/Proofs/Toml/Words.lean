import Mathlib.Data.List.TakeWhile
import LoraBridge.Proofs.Toml.Quoting
import LoraBridge.Toml.Read

/-! Values that stand alone on the rest of a line: strings, numbers and truth values. -/
namespace LoraBridge.Toml

section Digits

variable {ds rest : List Char}

theorem digits?_eq_some (h : ∀ c ∈ ds, c.isDigit = true) (hne : ds ≠ []) :
    digits? Char.isDigit ds = some ds := by
  induction ds with
  | nil => exact absurd rfl hne
  | cons c ds ih =>
    obtain ⟨hc, hds⟩ := List.forall_mem_cons.1 h
    cases ds with
    | nil => rw [digits?, if_pos hc]
    | cons d ds =>
      rw [digits?, if_pos hc, ih hds (List.cons_ne_nil _ _)]
      · rfl
      · exact nofun
      · rintro r heq
        obtain ⟨rfl, -⟩ := List.cons.inj heq
        cases hds '_' (List.mem_cons_self ..)

private theorem valueOf_ten (h : ∀ c ∈ ds, c.isDigit = true) :
    valueOf 10 ds = Nat.ofDigitChars 10 ds 0 := by
  rw [valueOf, Nat.ofDigitChars_eq_foldl]
  refine List.foldl_ext _ _ _ fun n c hc => ?_
  rw [digitValue, if_pos (h c hc)]
  rfl

theorem toDigits_ne_zero_cons (n : Nat) : ∀ d ds, Nat.toDigits 10 n ≠ '0' :: d :: ds := by
  induction n using Nat.strongRecOn with
  | _ n ih =>
    intro d ds heq
    rcases Nat.lt_or_ge n 10 with hn | hn
    · rw [Nat.toDigits_of_lt_base hn] at heq
      cases (List.cons.inj heq).2
    · rw [Nat.toDigits_of_base_le (by decide) hn] at heq
      have hpos : n / 10 ≠ 0 := by omega
      cases hfront : Nat.toDigits 10 (n / 10) with
      | nil => exact Nat.toDigits_ne_nil hfront
      | cons c cs =>
        rw [hfront] at heq
        obtain ⟨rfl, -⟩ := List.cons.inj heq
        cases cs with
        | nil =>
          have hzero := congrArg (Nat.ofDigitChars 10 · 0) hfront
          simp only [Nat.ofDigitChars_ten_toDigits] at hzero
          exact hpos hzero
        | cons d' ds' => exact ih (n / 10) (by omega) d' ds' hfront

private theorem endsWord_of_isDigit {c : Char} (h : c.isDigit = true) : endsWord c = false := by
  rw [← Bool.not_eq_true, endsWord, List.contains_iff_mem]
  intro hmem
  simp only [List.mem_cons, List.not_mem_nil, or_false] at hmem
  rcases hmem with rfl | rfl | rfl | rfl | rfl | rfl | rfl | rfl <;> cases h

theorem char?_drop (h : ∀ c ∈ ds, c.isDigit = true) {k : Nat} (hk : k ≤ ds.length) {c : Char}
    (hdigit : c.isDigit = false) (hline : c ≠ '\n') (rest : List Char) :
    char? c ((ds ++ '\n' :: rest).drop k) = none := by
  rw [List.drop_append_of_le_length hk]
  cases hdrop : ds.drop k with
  | nil => exact if_neg (Ne.symm hline)
  | cons d ds' =>
    have hd := h d (List.mem_of_mem_drop (hdrop ▸ List.mem_cons_self ..))
    refine if_neg ?_
    rintro rfl
    rw [hd] at hdigit
    cases hdigit

theorem date?_eq_none (h : ∀ c ∈ ds, c.isDigit = true) (rest : List Char) :
    date? (ds ++ '\n' :: rest) = none := by
  unfold date?
  dsimp only
  split
  · rfl
  next hyear =>
  rw [Bool.not_eq_true, Bool.or_eq_false_iff, Bool.not_eq_false', List.all_eq_true] at hyear
  have hlong : 4 ≤ ds.length := by
    by_contra hshort
    obtain ⟨m, hm⟩ : ∃ m, 4 - ds.length = m + 1 := ⟨3 - ds.length, by omega⟩
    have hmem : '\n' ∈ (ds ++ '\n' :: rest).take 4 := by
      rw [List.take_append, hm]
      exact List.mem_append_right _ (List.mem_cons_self ..)
    cases hyear.2 '\n' hmem
  rw [char?_drop h hlong (by decide) (by decide)]
  rfl

theorem time?_eq_none (h : ∀ c ∈ ds, c.isDigit = true) (rest : List Char) :
    time? (ds ++ '\n' :: rest) = none := by
  have htwo : two? 0 23 (ds ++ '\n' :: rest) = none ∨
      ∃ n, 2 ≤ ds.length ∧ two? 0 23 (ds ++ '\n' :: rest) =
        some (n, (ds ++ '\n' :: rest).drop 2) := by
    match ds with
    | [] =>
      cases rest with
      | nil => exact .inl rfl
      | cons c rest => exact .inl rfl
    | [c] => exact .inl (if_neg (by simp))
    | c :: d :: ds =>
      rw [List.cons_append, List.cons_append, two?]
      split
      · exact .inr ⟨_, Nat.le_add_left 2 _, rfl⟩
      · exact .inl rfl
  unfold time?
  rcases htwo with hnone | ⟨n, hlong, hsome⟩
  · rw [hnone]
    rfl
  · rw [hsome]
    simp only [Option.bind_eq_bind, Option.bind_some, char?_drop h hlong (c := ':') rfl (by decide),
      Option.bind_none]

theorem sign_eq_self (h : ∀ c ∈ ds, c.isDigit = true) : sign ds = (false, ds) := by
  unfold sign
  split
  · cases h '-' (List.mem_cons_self ..)
  · cases h '+' (List.mem_cons_self ..)
  · rfl

theorem isFloat_eq_false (h : ∀ c ∈ ds, c.isDigit = true) : isFloat ds = false := by
  have hname : ∀ name : List Char, (∃ c ∈ name, c.isDigit = false) → ds ≠ name := by
    rintro name ⟨c, hc, hdigit⟩ rfl
    rw [h c hc] at hdigit
    cases hdigit
  have hmantissa : ds.takeWhile (fun c => c != 'e' && c != 'E') = ds := by
    refine List.takeWhile_eq_self_iff.2 fun c hc => ?_
    rw [Bool.and_eq_true, bne_iff_ne, bne_iff_ne]
    constructor <;>
    · rintro rfl
      cases h _ hc
  have hwhole : ds.takeWhile (· != '.') = ds := by
    refine List.takeWhile_eq_self_iff.2 fun c hc => bne_iff_ne.2 ?_
    rintro rfl
    cases h _ hc
  unfold isFloat
  simp only [sign_eq_self h, hmantissa, hwhole, List.drop_length,
    hname ['i', 'n', 'f'] ⟨'i', by decide, rfl⟩, hname ['n', 'a', 'n'] ⟨'n', by decide, rfl⟩]
  cases decimal? ds <;> rfl

theorem integer?_eq_some {n : Nat} (h : n < 0x8000000000000000) :
    integer? (Nat.toDigits 10 n) = some (n : Int) := by
  have hdigits : ∀ c ∈ Nat.toDigits 10 n, c.isDigit = true :=
    fun c hc => Nat.isDigit_of_mem_toDigits (by decide) (by decide) hc
  have hdecimal : decimal? (Nat.toDigits 10 n) = some (Nat.toDigits 10 n) := by
    unfold decimal?
    split
    · next heq => exact absurd heq (toDigits_ne_zero_cons n _ _)
    · exact digits?_eq_some hdigits Nat.toDigits_ne_nil
  have hvalue : valueOf 10 (Nat.toDigits 10 n) = n := by
    rw [valueOf_ten hdigits, Nat.ofDigitChars_ten_toDigits]
  have hbounds : (-0x8000000000000000 : Int) ≤ n ∧ (n : Int) < 0x8000000000000000 := by omega
  rw [integer?]
  · rw [sign_eq_self hdigits]
    show (decimal? (Nat.toDigits 10 n)).bind (fun ds =>
      if (-0x8000000000000000 : Int) ≤ valueOf 10 ds ∧ (valueOf 10 ds : Int) < 0x8000000000000000
      then some (valueOf 10 ds : Int) else none) = _
    rw [hdecimal, Option.bind_some, hvalue, if_pos hbounds]
  · intro r heq
    cases hdigits 'x' (by rw [heq]; simp)
  · intro r heq
    cases hdigits 'o' (by rw [heq]; simp)
  · intro r heq
    cases hdigits 'b' (by rw [heq]; simp)

theorem scalar?_toDigits {n : Nat} (h : n < 0x8000000000000000) (rest : List Char) :
    scalar? (Nat.toDigits 10 n ++ '\n' :: rest) = some (.integer n, '\n' :: rest) := by
  have hdigits : ∀ c ∈ Nat.toDigits 10 n, c.isDigit = true :=
    fun c hc => Nat.isDigit_of_mem_toDigits (by decide) (by decide) hc
  have hsolid : ∀ c ∈ Nat.toDigits 10 n, (!endsWord c) = true := by
    intro c hc
    rw [endsWord_of_isDigit (hdigits c hc)]
    rfl
  have hword : (Nat.toDigits 10 n ++ '\n' :: rest).takeWhile (fun c => !endsWord c) =
      Nat.toDigits 10 n := by
    rw [List.takeWhile_append_of_pos hsolid]
    exact List.append_nil _
  have hrest : (Nat.toDigits 10 n ++ '\n' :: rest).dropWhile (fun c => !endsWord c) =
      '\n' :: rest := by
    rw [List.dropWhile_append_of_pos hsolid]
    rfl
  have hdate : dateTime? (Nat.toDigits 10 n ++ '\n' :: rest) = none := by
    rw [dateTime?, date?_eq_none hdigits]
    exact time?_eq_none hdigits rest
  have hname : ∀ name : List Char, (∃ c ∈ name, c.isDigit = false) → Nat.toDigits 10 n ≠ name := by
    rintro name ⟨c, hc, hdigit⟩ heq
    rw [hdigits c (heq ▸ hc)] at hdigit
    cases hdigit
  unfold scalar?
  simp only [hword, hrest, hdate, isFloat_eq_false hdigits, integer?_eq_some h,
    if_neg (hname ['t', 'r', 'u', 'e'] ⟨'t', by decide, rfl⟩),
    if_neg (hname ['f', 'a', 'l', 's', 'e'] ⟨'f', by decide, rfl⟩)]
  rfl

end Digits

/-- A text that is read as a value when a line ends behind it. -/
structure Denotes (text : List Char) (v : Value) : Prop where
  solid : ∀ c ∈ text.head?, isBlank c = false
  read : ∀ rest, value? maxDepth (text ++ '\n' :: rest) = some (v, '\n' :: rest)

/-- What begins neither a string nor a container is one word. -/
theorem value?_word {c : Char} (h : c ∉ ['"', '\'', '[', '\x7b']) (depth : Nat) (rest : List Char) :
    value? depth (c :: rest) = scalar? (c :: rest) := by
  simp only [List.mem_cons, List.not_mem_nil, or_false, not_or] at h
  unfold value?
  split
  · next heq => exact absurd (List.cons.inj heq).1 h.1
  · next heq => exact absurd (List.cons.inj heq).1 h.2.1
  · next heq => exact absurd (List.cons.inj heq).1 h.2.2.1
  · next heq => exact absurd (List.cons.inj heq).1 h.2.2.2
  · next heq => exact absurd (List.cons.inj heq).1 h.2.2.1
  · next heq => exact absurd (List.cons.inj heq).1 h.2.2.2
  · rfl

theorem denotes_toDigits {n : Nat} (h : n < 0x8000000000000000) :
    Denotes (Nat.toDigits 10 n) (.integer n) := by
  have hdigits : ∀ c ∈ Nat.toDigits 10 n, c.isDigit = true :=
    fun c hc => Nat.isDigit_of_mem_toDigits (by decide) (by decide) hc
  cases hds : Nat.toDigits 10 n with
  | nil => exact absurd hds Nat.toDigits_ne_nil
  | cons c cs =>
    have hc := hdigits c (hds ▸ List.mem_cons_self ..)
    have hne (d : Char) (hd : d.isDigit = false) : c ≠ d := by
      rintro rfl
      rw [hc] at hd
      cases hd
    constructor
    · rintro _ ⟨⟩
      simp [isBlank, hne ' ' rfl, hne '\t' rfl]
    · intro rest
      have hword : c ∉ ['"', '\'', '[', '\x7b'] := by
        simp [hne '"' rfl, hne '\'' rfl, hne '[' rfl, hne '\x7b' rfl]
      rw [List.cons_append, value?_word hword, ← List.cons_append, ← hds]
      exact scalar?_toDigits h rest

theorem denotes_boolean (b : Bool) :
    Denotes (if b then "true" else "false").toList (.boolean b) := by
  cases b <;> exact ⟨by rintro _ ⟨⟩; rfl, fun _ => rfl⟩

theorem denotes_quoted (cs : List Char) : Denotes (quoted cs) (.string (String.ofList cs)) := by
  have hread (rest : List Char) : string? (quoted cs ++ '\n' :: rest) = some (cs, '\n' :: rest) :=
    string?_quoted cs (by rintro _ ⟨⟩; decide)
  have hquote : ∃ c more, quoted cs = c :: more ∧ (c = '"' ∨ c = '\'') := by
    unfold quoted
    cases hform : (Shape.of cs).form <;> simp [hform]
  obtain ⟨c, more, htext, hc⟩ := hquote
  rw [htext] at hread ⊢
  constructor
  · rintro _ ⟨⟩
    rcases hc with rfl | rfl <;> rfl
  · intro rest
    rw [List.cons_append]
    rcases hc with rfl | rfl
    · rw [value?, ← List.cons_append, hread]
      rfl
    · rw [value?, ← List.cons_append, hread]
      rfl

end LoraBridge.Toml
