import Mathlib.Data.List.Basic
import LoraBridge.Toml.Quoted

/-! Strings that are written are read back, in whichever of the four forms they are written. -/
namespace LoraBridge.Toml

private theorem hexValue?_upperHex {n : Nat} (h : n < 16) : hexValue? (upperHex n) = some n := by
  have hall : ∀ m : Fin 16, hexValue? (upperHex m) = some m.val := by decide
  exact hall ⟨n, h⟩

theorem codePoint?_upperHex {c : Char} (h : c.toNat < 128) (rest : List Char) :
    codePoint? 4 ('0' :: '0' :: upperHex (c.toNat / 16) :: upperHex (c.toNat % 16) :: rest) =
      some (c, rest) := by
  have hhigh := hexValue?_upperHex (n := c.toNat / 16) (by omega)
  have hlow := hexValue?_upperHex (n := c.toNat % 16) (by omega)
  have hzero : hexValue? '0' = some 0 := rfl
  have hsum : 16 * (c.toNat / 16) + c.toNat % 16 = c.toNat := Nat.div_add_mod _ _
  have hchar : c.toNat < 0xd800 := by omega
  simp [codePoint?, hhigh, hlow, hzero, hsum, hchar]

inductive Written (multiline : Bool) (c : Char) : List Char → Prop
  | plain (hprintable : isPrintable c = true) (hne : c ≠ '\\') : Written multiline c [c]
  | escaped {body : List Char} (h : ∀ rest, escape? (body ++ rest) = some (c, rest)) :
    Written multiline c ('\\' :: body)
  | line (hmultiline : multiline = true) (hc : c = '\n') : Written multiline c ['\n']

theorem written_escapeChar (multiline : Bool) (c : Char) :
    Written multiline c (escapeChar multiline c) := by
  unfold escapeChar
  split
  · exact .escaped fun _ => rfl
  · exact .escaped fun _ => rfl
  · split
    · next hm => exact .line hm rfl
    · exact .escaped fun _ => rfl
  · exact .escaped fun _ => rfl
  · exact .escaped fun _ => rfl
  · exact .escaped fun _ => rfl
  · next hslash =>
    dsimp only
    split
    · next hcontrol =>
      rw [Bool.or_eq_true, decide_eq_true_iff, beq_iff_eq] at hcontrol
      exact .escaped fun rest => codePoint?_upperHex (by omega) rest
    · next hprintable =>
      rw [Bool.not_eq_true, Bool.or_eq_false_iff, decide_eq_false_iff_not,
        beq_eq_false_iff_ne] at hprintable
      refine .plain ?_ fun hc => hslash hc
      unfold isPrintable
      rw [Bool.or_eq_true, Bool.and_eq_true, decide_eq_true_iff, bne_iff_ne]
      exact .inr ⟨by omega, hprintable.2⟩

theorem Written.head_ne {multiline : Bool} {c : Char} {text : List Char}
    (h : Written multiline c text) (hc : c ≠ '"') : ∃ d ds, text = d :: ds ∧ d ≠ '"' := by
  cases h with
  | plain => exact ⟨c, [], rfl, hc⟩
  | escaped => exact ⟨'\\', _, rfl, by decide⟩
  | line => exact ⟨'\n', [], rfl, by decide⟩

variable {c : Char} {cs rest : List Char} {fuel : Nat}

theorem basic?_plain (hprintable : isPrintable c = true) (hquote : c ≠ '"') (hslash : c ≠ '\\')
    (rest : List Char) :
    basic? (fuel + 1) (c :: rest) = (basic? fuel rest).map fun p => (c :: p.1, p.2) := by
  rw [basic?]
  · rw [if_pos hprintable]
  · exact fun heq => hquote heq
  · exact fun heq => hslash heq

private theorem basic?_escaped {body : List Char} (h : escape? body = some (c, rest)) :
    basic? (fuel + 1) ('\\' :: body) = (basic? fuel rest).map fun p => (c :: p.1, p.2) := by
  simp only [basic?, h, Option.bind_eq_bind, Option.bind_some]
  cases basic? fuel rest <;> rfl

theorem basic?_escapeFrom (cs : List Char) (h : cs.length < fuel) (rest : List Char) :
    basic? fuel (escapeFrom false 0 cs ++ '"' :: rest) = some (cs, rest) := by
  induction cs generalizing fuel with
  | nil =>
    obtain ⟨fuel, rfl⟩ := Nat.exists_eq_succ_of_ne_zero (Nat.ne_of_gt h)
    rfl
  | cons c cs ih =>
    obtain ⟨fuel, rfl⟩ := Nat.exists_eq_succ_of_ne_zero (Nat.ne_of_gt (Nat.zero_lt_of_lt h))
    have hrest := ih (Nat.lt_of_succ_lt_succ h)
    rw [escapeFrom]
    split
    · next hc =>
      subst hc
      show basic? (fuel + 1) ('\\' :: '"' :: (escapeFrom false 0 cs ++ '"' :: rest)) = _
      rw [basic?_escaped (c := '"') rfl, hrest]
      rfl
    · next hc =>
      have hwritten := written_escapeChar false c
      rw [List.append_assoc]
      generalize escapeChar false c = text at hwritten
      cases hwritten with
      | plain hprintable hne =>
        rw [List.singleton_append, basic?_plain hprintable hc hne, hrest]
        rfl
      | escaped hbody =>
        rw [List.cons_append, basic?_escaped (hbody _), hrest]
        rfl
      | line hmultiline => cases hmultiline

theorem length_le_escapeFrom (multiline : Bool) (quotes : Nat) (cs : List Char) :
    cs.length ≤ (escapeFrom multiline quotes cs).length := by
  induction cs generalizing quotes with
  | nil => exact Nat.le_refl _
  | cons c cs ih =>
    rw [escapeFrom]
    split
    · generalize (if multiline then 2 else 0) = most
      split
      · exact Nat.le_succ_of_le (Nat.succ_le_succ (ih _))
      · exact Nat.succ_le_succ (ih _)
    · have hwritten := written_escapeChar multiline c
      have hpos : 0 < (escapeChar multiline c).length := by
        generalize escapeChar multiline c = text at hwritten
        cases hwritten <;> exact Nat.succ_pos _
      have hrest := ih 0
      rw [List.length_append, List.length_cons]
      omega

theorem literal?_append (h : ∀ c ∈ cs, isPrintable c = true ∧ c ≠ '\'') (rest : List Char) :
    literal? (cs ++ '\'' :: rest) = some (cs, rest) := by
  induction cs with
  | nil => rfl
  | cons c cs ih =>
    obtain ⟨⟨hprintable, hquote⟩, hcs⟩ := List.forall_mem_cons.1 h
    rw [List.cons_append, literal?, if_pos hprintable, ih hcs]
    · rfl
    · exact fun heq => hquote heq

/-- A text that is written begins with a run of quotes. It ends there, or has something else
next. -/
inductive Run (quote : Char) (cs text : List Char) (n : Nat) : Prop
  | whole (hcs : cs = List.replicate n quote) (htext : text = List.replicate n quote)
  | front (c : Char) (more : List Char) (hc : c ≠ quote)
    (htext : text = List.replicate n quote ++ c :: more)

theorem takeWhile_replicate_append (quote : Char) (n : Nat) {text : List Char}
    (h : ∀ c ∈ text.head?, c ≠ quote) :
    (List.replicate n quote ++ text).takeWhile (· == quote) = List.replicate n quote := by
  rw [List.takeWhile_append_of_pos fun c hc => beq_iff_eq.2 (List.eq_of_mem_replicate hc)]
  cases text with
  | nil => exact List.append_nil _
  | cons c text =>
    rw [List.takeWhile_cons_of_neg (by simpa using h c rfl), List.append_nil]

theorem closing?_replicate {quote : Char} {n : Nat} (hn : n ≤ 2)
    (hrest : ∀ c ∈ rest.head?, c ≠ quote) :
    closing? quote (List.replicate n quote ++ [quote, quote, quote] ++ rest) =
      some (List.replicate n quote, rest) := by
  have hjoin : List.replicate n quote ++ [quote, quote, quote] = List.replicate (n + 3) quote :=
    (List.replicate_append_replicate (n := n) (m := 3)).trans rfl
  unfold closing?
  rw [hjoin, takeWhile_replicate_append quote _ hrest, List.length_replicate]
  have hextra : min (n + 3 - 3) 2 = n := by omega
  simp only [hextra, if_neg (Nat.not_lt.2 (Nat.le_add_left 3 n))]
  rw [List.drop_left' List.length_replicate]

theorem closing?_eq_none {quote : Char} {n : Nat} (hn : n ≤ 2) (hc : c ≠ quote)
    (rest : List Char) : closing? quote (List.replicate n quote ++ c :: rest) = none := by
  unfold closing?
  rw [takeWhile_replicate_append quote n (by simpa using hc), List.length_replicate]
  exact if_pos (by omega)

theorem newline?_eq_none (h : c ≠ '\n') (hreturn : c ≠ '\r') (rest : List Char) :
    newline? (c :: rest) = none := by
  unfold newline?
  split
  · next heq => exact absurd (List.cons.inj heq).1 h
  · next heq => exact absurd (List.cons.inj heq).1 hreturn
  · rfl

theorem multilineBasic?_plain (hclosing : closing? '"' (c :: rest) = none)
    (hprintable : isPrintable c = true) (hslash : c ≠ '\\') (hline : c ≠ '\n')
    (hreturn : c ≠ '\r') :
    multilineBasic? (fuel + 1) (c :: rest) =
      (multilineBasic? fuel rest).map fun p => (c :: p.1, p.2) := by
  rw [multilineBasic?, hclosing]
  · simp only [newline?_eq_none hline hreturn, if_pos hprintable]
  · exact hslash

theorem multilineBasic?_escaped {body : List Char} (h : escape? body = some (c, rest)) :
    multilineBasic? (fuel + 1) ('\\' :: body) =
      (multilineBasic? fuel rest).map fun p => (c :: p.1, p.2) := by
  have hclosing : closing? '"' ('\\' :: body) = none :=
    closing?_eq_none (n := 0) (Nat.zero_le 2) (by decide) body
  rw [multilineBasic?, hclosing]
  simp only [newline?_eq_none (c := '\\') (by decide) (by decide), h]

private theorem multilineBasic?_line (rest : List Char) :
    multilineBasic? (fuel + 1) ('\n' :: rest) =
      (multilineBasic? fuel rest).map fun p => ('\n' :: p.1, p.2) := by
  have hclosing : closing? '"' ('\n' :: rest) = none :=
    closing?_eq_none (n := 0) (Nat.zero_le 2) (by decide) rest
  rw [multilineBasic?, hclosing]
  · rfl
  · decide

@[simp]
private theorem multilineBasic?_closing {p : List Char × List Char} (h : closing? '"' cs = some p) :
    multilineBasic? (fuel + 1) cs = some p := by
  unfold multilineBasic?
  rw [h]

theorem run_escapeFrom (cs : List Char) {quotes : Nat} (hquotes : quotes ≤ 2) :
    ∃ n, quotes + n ≤ 2 ∧ Run '"' cs (escapeFrom true quotes cs) n := by
  induction cs generalizing quotes with
  | nil => exact ⟨0, hquotes, .whole rfl rfl⟩
  | cons c cs ih =>
    rw [escapeFrom]
    split
    · next hc =>
      rw [if_pos rfl]
      split
      · exact ⟨0, hquotes, .front '\\' _ (by decide) rfl⟩
      · next hfew =>
        have hmore : quotes + 1 ≤ 2 := by omega
        obtain ⟨n, hn, hrun⟩ := ih hmore
        refine ⟨n + 1, by omega, ?_⟩
        cases hrun with
        | whole hcs htext =>
          exact .whole (by rw [hc, hcs, List.replicate_succ]) (by rw [htext, List.replicate_succ])
        | front d more hd htext =>
          exact .front d more hd (by rw [htext, List.replicate_succ, List.cons_append])
    · next hc =>
      obtain ⟨d, ds, htext, hd⟩ := (written_escapeChar true c).head_ne hc
      exact ⟨0, hquotes, .front d _ hd (by rw [htext]; rfl)⟩

theorem multilineBasic?_written {c : Char} {text cs rest' : List Char} (h : Written true c text)
    (hc : c ≠ '"') (hclosing : closing? '"' (text ++ rest') = none)
    (hmore : multilineBasic? fuel rest' = some (cs, rest)) :
    multilineBasic? (fuel + 1) (text ++ rest') = some (c :: cs, rest) := by
  cases h with
  | plain hprintable hne =>
    have hline : c ≠ '\n' := by
      rintro rfl
      cases hprintable
    have hreturn : c ≠ '\r' := by
      rintro rfl
      cases hprintable
    rw [List.singleton_append] at hclosing ⊢
    rw [multilineBasic?_plain hclosing hprintable hne hline hreturn, hmore]
    rfl
  | escaped hbody =>
    rw [List.cons_append, multilineBasic?_escaped (hbody _), hmore]
    rfl
  | line _ hc =>
    subst hc
    rw [List.singleton_append, multilineBasic?_line, hmore]
    rfl

theorem multilineBasic?_escapeFrom (cs : List Char) {quotes : Nat} (hquotes : quotes ≤ 2)
    (h : cs.length < fuel) (hrest : ∀ c ∈ rest.head?, c ≠ '"') :
    multilineBasic? fuel (escapeFrom true quotes cs ++ (['"', '"', '"'] ++ rest)) =
      some (cs, rest) := by
  induction cs generalizing quotes fuel with
  | nil =>
    obtain ⟨fuel, rfl⟩ := Nat.exists_eq_succ_of_ne_zero (Nat.ne_of_gt h)
    exact multilineBasic?_closing (closing?_replicate (n := 0) (Nat.zero_le 2) hrest)
  | cons c cs ih =>
    obtain ⟨fuel, rfl⟩ := Nat.exists_eq_succ_of_ne_zero (Nat.ne_of_gt (Nat.zero_lt_of_lt h))
    have hlength : cs.length < fuel := Nat.lt_of_succ_lt_succ h
    obtain ⟨n, hn, hrun⟩ := run_escapeFrom (c :: cs) hquotes
    cases hrun with
    -- Only quotes are left: they are read together with the closing ones, not one by one.
    | whole hcs htext =>
      rw [htext, hcs, ← List.append_assoc]
      exact multilineBasic?_closing (closing?_replicate (by omega) hrest)
    | front d more hd htext =>
      have hclosing : closing? '"' (escapeFrom true quotes (c :: cs) ++ (['"', '"', '"'] ++ rest)) =
          none := by
        rw [htext, List.append_assoc]
        exact closing?_eq_none (by omega) hd _
      rw [escapeFrom] at hclosing ⊢
      split at hclosing
      · next hc =>
        subst hc
        rw [if_pos rfl] at hclosing ⊢
        split at hclosing
        · rw [if_pos rfl, if_pos ‹_›, List.cons_append, List.cons_append,
            multilineBasic?_escaped (c := '"') rfl, ih (Nat.zero_le 2) hlength]
          rfl
        · rw [List.cons_append] at hclosing
          rw [if_pos rfl, if_neg ‹_›, List.cons_append, multilineBasic?_plain hclosing (by decide)
            (by decide) (by decide) (by decide), ih (by omega) hlength]
          rfl
      · next hc =>
        rw [List.append_assoc] at hclosing
        rw [if_neg hc, List.append_assoc]
        exact multilineBasic?_written (written_escapeChar true c) hc hclosing
          (ih (Nat.zero_le 2) hlength)

@[simp]
theorem multilineLiteral?_closing {p : List Char × List Char} (h : closing? '\'' cs = some p) :
    multilineLiteral? (fuel + 1) cs = some p := by
  unfold multilineLiteral?
  rw [h]

theorem multilineLiteral?_plain (hclosing : closing? '\'' (c :: rest) = none)
    (hprintable : isPrintable c = true ∨ c = '\n') :
    multilineLiteral? (fuel + 1) (c :: rest) =
      (multilineLiteral? fuel rest).map fun p => (c :: p.1, p.2) := by
  rw [multilineLiteral?, hclosing]
  rcases hprintable with hprintable | rfl
  · have hline : c ≠ '\n' := by
      rintro rfl
      cases hprintable
    have hreturn : c ≠ '\r' := by
      rintro rfl
      cases hprintable
    simp only [newline?_eq_none hline hreturn, if_pos hprintable]
  · rfl

@[simp] theorem longestRun_cons_self (quote : Char) (here : Nat) (cs : List Char) :
    longestRun quote here (quote :: cs) = longestRun quote (here + 1) cs := by
  rw [longestRun, if_pos rfl]

@[simp] theorem longestRun_cons_of_ne {quote : Char} (h : c ≠ quote) (here : Nat) (cs : List Char) :
    longestRun quote here (c :: cs) = max here (longestRun quote 0 cs) := by
  rw [longestRun, if_neg h]

theorem run_longestRun (quote : Char) (cs : List Char) (here : Nat) :
    ∃ n, here + n ≤ longestRun quote here cs ∧ Run quote cs cs n := by
  induction cs generalizing here with
  | nil => exact ⟨0, Nat.le_refl _, .whole rfl rfl⟩
  | cons c cs ih =>
    by_cases hc : c = quote
    · subst hc
      obtain ⟨n, hn, hrun⟩ := ih (here + 1)
      refine ⟨n + 1, by rw [longestRun_cons_self]; omega, ?_⟩
      cases hrun with
      | whole hcs htext =>
        have hall : c :: cs = List.replicate (n + 1) c := by rw [hcs, List.replicate_succ]
        exact .whole hall hall
      | front d more hd htext =>
        exact .front d more hd (by rw [htext, List.replicate_succ, List.cons_append])
    · rw [longestRun_cons_of_ne hc]
      exact ⟨0, Nat.le_max_left _ _, .front c cs hc rfl⟩

theorem multilineLiteral?_append (cs : List Char) {here : Nat}
    (hsingles : longestRun '\'' here cs ≤ 2)
    (hprintable : ∀ c ∈ cs, isPrintable c = true ∨ c = '\n') (h : cs.length < fuel)
    (hrest : ∀ c ∈ rest.head?, c ≠ '\'') :
    multilineLiteral? fuel (cs ++ (['\'', '\'', '\''] ++ rest)) = some (cs, rest) := by
  induction cs generalizing here fuel with
  | nil =>
    obtain ⟨fuel, rfl⟩ := Nat.exists_eq_succ_of_ne_zero (Nat.ne_of_gt h)
    exact multilineLiteral?_closing (closing?_replicate (n := 0) (Nat.zero_le 2) hrest)
  | cons c cs ih =>
    obtain ⟨fuel, rfl⟩ := Nat.exists_eq_succ_of_ne_zero (Nat.ne_of_gt (Nat.zero_lt_of_lt h))
    obtain ⟨n, hn, hrun⟩ := run_longestRun '\'' (c :: cs) here
    obtain ⟨hc, hcs⟩ := List.forall_mem_cons.1 hprintable
    cases hrun with
    | whole _ htext =>
      rw [htext, ← List.append_assoc]
      exact multilineLiteral?_closing (closing?_replicate (by omega) hrest)
    | front d more hd htext =>
      have hclosing : closing? '\'' (c :: cs ++ (['\'', '\'', '\''] ++ rest)) = none := by
        rw [htext, List.append_assoc]
        exact closing?_eq_none (by omega) hd _
      obtain ⟨here', hhere⟩ : ∃ here', longestRun '\'' here' cs ≤ 2 := by
        by_cases hq : c = '\''
        · subst hq
          rw [longestRun_cons_self] at hsingles
          exact ⟨_, hsingles⟩
        · rw [longestRun_cons_of_ne hq] at hsingles
          exact ⟨0, by omega⟩
      rw [List.cons_append] at hclosing ⊢
      rw [multilineLiteral?_plain hclosing hc, ih hhere hcs (Nat.lt_of_succ_lt_succ h)]
      rfl

theorem isPrintable_of_not_control (h : isControl c = false) : isPrintable c = true ∨ c = '\n' := by
  unfold isControl at h
  unfold isPrintable
  by_cases htab : c = '\t'
  · exact .inl (by simp [htab])
  by_cases hline : c = '\n'
  · exact .inr hline
  simp [htab, hline] at h
  simp [htab, h.1, h.2]

theorem ne_of_isPrintable (h : isPrintable c = true) : c ≠ '\n' ∧ c ≠ '\r' := by
  constructor <;>
  · rintro rfl
    cases h

theorem Shape.plain_of_literal {s : Shape} (h : s.form = .literal) :
    s.hasControl = false ∧ s.singles = 0 ∧ s.hasNewline = false := by
  unfold form at h
  split at h
  · cases h
  split at h
  · next hplain =>
    rw [Bool.and_eq_true, Bool.and_eq_true, Bool.not_eq_true', beq_iff_eq, Bool.not_eq_true']
      at hplain
    exact ⟨hplain.1.1, hplain.1.2, hplain.2⟩
  split at h
  · cases h
  split at h
  · cases h
  split at h <;> cases h

theorem Shape.plain_of_multilineLiteral {s : Shape} (h : s.form = .multilineLiteral) :
    s.hasControl = false ∧ s.singles ≤ 2 := by
  unfold form at h
  split at h
  · cases h
  split at h
  · cases h
  split at h
  · cases h
  split at h
  · next hplain =>
    rw [Bool.and_eq_true, Bool.not_eq_true', decide_eq_true_iff] at hplain
    exact hplain
  split at h <;> cases h

private theorem printable_of_shape (h : (Shape.of cs).hasControl = false) :
    ∀ c ∈ cs, isPrintable c = true ∨ c = '\n' := by
  intro c hc
  exact isPrintable_of_not_control (Bool.not_eq_true _ ▸ List.any_eq_false.1 h c hc)

theorem notMem_newline_of_shape (h : (Shape.of cs).hasNewline = false) : '\n' ∉ cs := by
  simpa [Shape.of] using h

theorem notMem_of_longestRun {quote : Char} {here : Nat} (h : longestRun quote here cs = 0) :
    quote ∉ cs := by
  induction cs generalizing here with
  | nil => exact List.not_mem_nil
  | cons c cs ih =>
    by_cases hc : c = quote
    · subst hc
      rw [longestRun_cons_self] at h
      obtain ⟨n, hn, -⟩ := run_longestRun c cs (here + 1)
      omega
    · rw [longestRun_cons_of_ne hc] at h
      intro hmem
      rcases List.mem_cons.1 hmem with heq | hmem
      · exact hc heq.symm
      · have hzero : longestRun quote 0 cs = 0 := by omega
        exact ih hzero hmem

theorem skipFirstNewline_eq_self {text : List Char} (h : ∀ c ∈ text.head?, c ≠ '\n' ∧ c ≠ '\r') :
    skipFirstNewline text = text := by
  cases text with
  | nil => rfl
  | cons c text =>
    obtain ⟨hline, hreturn⟩ := h c rfl
    rw [skipFirstNewline, newline?_eq_none hline hreturn]
    rfl

private theorem skipFirstNewline_start (cs inside : List Char) (h : '\n' ∉ cs →
    ∀ c ∈ inside.head?, c ≠ '\n' ∧ c ≠ '\r') :
    skipFirstNewline ((if (Shape.of cs).hasNewline then ['\n'] else []) ++ inside) = inside := by
  split
  · rfl
  · next hnone =>
    exact skipFirstNewline_eq_self (h (notMem_newline_of_shape (Bool.not_eq_true _ ▸ hnone)))

theorem head_append_quotes (hline : '\n' ∉ cs)
    (hprintable : ∀ c ∈ cs, isPrintable c = true ∨ c = '\n') (rest : List Char) :
    ∀ c ∈ (cs ++ '\'' :: rest).head?, c ≠ '\n' ∧ c ≠ '\r' := by
  cases cs with
  | nil =>
    rintro _ ⟨⟩
    decide
  | cons c cs =>
    rintro _ ⟨⟩
    refine ne_of_isPrintable ((hprintable c (List.mem_cons_self ..)).resolve_right fun hc => ?_)
    exact hline (hc ▸ List.mem_cons_self ..)

theorem head_escapeFrom (hline : '\n' ∉ cs) (rest : List Char) :
    ∀ c ∈ (escapeFrom true 0 cs ++ '"' :: rest).head?, c ≠ '\n' ∧ c ≠ '\r' := by
  cases cs with
  | nil =>
    rintro _ ⟨⟩
    decide
  | cons c cs =>
    rw [escapeFrom]
    split
    · rintro _ ⟨⟩
      decide
    · have hwritten := written_escapeChar true c
      generalize escapeChar true c = text at hwritten
      cases hwritten with
      | plain hprintable hne =>
        rintro _ ⟨⟩
        exact ne_of_isPrintable hprintable
      | escaped hbody =>
        rintro _ ⟨⟩
        decide
      | line _ hc => exact absurd (hc ▸ List.mem_cons_self ..) hline

private theorem string?_double (h : ∀ rest', rest ≠ '"' :: '"' :: rest') :
    string? ('"' :: rest) = basic? (rest.length + 1) rest := by
  unfold string?
  split
  · next heq => exact absurd (List.cons.inj heq).2 (h _)
  · next heq => cases (List.cons.inj heq).1
  · rfl

private theorem string?_single (h : ∀ rest', rest ≠ '\'' :: '\'' :: rest') :
    string? ('\'' :: rest) = literal? rest := by
  unfold string?
  split
  · next heq => cases (List.cons.inj heq).1
  · next heq => exact absurd (List.cons.inj heq).2 (h _)
  · rfl

@[simp] private theorem string?_doubles (rest : List Char) : string? ('"' :: '"' :: '"' :: rest) =
    multilineBasic? ((skipFirstNewline rest).length + 1) (skipFirstNewline rest) :=
  rfl

@[simp]
private theorem string?_singles (rest : List Char) : string? ('\'' :: '\'' :: '\'' :: rest) =
    multilineLiteral? ((skipFirstNewline rest).length + 1) (skipFirstNewline rest) :=
  rfl

theorem escapeFrom_ne_quotes (hrest : ∀ c ∈ rest.head?, c ≠ '"') (rest' : List Char) :
    escapeFrom false 0 cs ++ '"' :: rest ≠ '"' :: '"' :: rest' := by
  intro heq
  cases cs with
  | nil =>
    have htail : rest = '"' :: rest' := (List.cons.inj heq).2
    exact hrest '"' (by rw [htail]; rfl) rfl
  | cons c cs =>
    rw [escapeFrom] at heq
    split at heq
    · cases (List.cons.inj heq).1
    · next hc =>
      obtain ⟨d, ds, htext, hd⟩ := (written_escapeChar false c).head_ne hc
      rw [htext] at heq
      exact hd (List.cons.inj heq).1

/-- A string is read as it was written, whatever stands behind it but another quote. -/
theorem string?_quoted (cs : List Char) (hrest : ∀ c ∈ rest.head?, c ≠ '"' ∧ c ≠ '\'') :
    string? (quoted cs ++ rest) = some (cs, rest) := by
  have hdouble : ∀ c ∈ rest.head?, c ≠ '"' := fun c hc => (hrest c hc).1
  have hsingle : ∀ c ∈ rest.head?, c ≠ '\'' := fun c hc => (hrest c hc).2
  unfold quoted
  cases hform : (Shape.of cs).form with
  | basic =>
    have htext : '"' :: escapeFrom false 0 cs ++ ['"'] ++ rest =
        '"' :: (escapeFrom false 0 cs ++ '"' :: rest) := by simp
    have hlength := length_le_escapeFrom false 0 cs
    simp only [hform]
    rw [htext, string?_double (escapeFrom_ne_quotes hdouble)]
    exact basic?_escapeFrom cs (by rw [List.length_append]; omega) rest
  | literal =>
    obtain ⟨hcontrol, hquote, hline⟩ := Shape.plain_of_literal hform
    have htext : '\'' :: cs ++ ['\''] ++ rest = '\'' :: (cs ++ '\'' :: rest) := by simp
    have hplain : ∀ c ∈ cs, isPrintable c = true ∧ c ≠ '\'' := by
      intro c hc
      refine ⟨(printable_of_shape hcontrol c hc).resolve_right ?_, ?_⟩
      · exact fun heq => notMem_newline_of_shape hline (heq ▸ hc)
      · exact fun heq => notMem_of_longestRun hquote (heq ▸ hc)
    simp only [hform]
    rw [htext, string?_single]
    · exact literal?_append hplain rest
    · intro rest' heq
      cases cs with
      | nil =>
        have htail : rest = '\'' :: rest' := (List.cons.inj heq).2
        exact hsingle '\'' (by rw [htail]; rfl) rfl
      | cons c cs => exact (hplain c (List.mem_cons_self ..)).2 (List.cons.inj heq).1
  | multilineBasic =>
    have hskip := skipFirstNewline_start cs (escapeFrom true 0 cs ++ (['"', '"', '"'] ++ rest))
      fun hline => head_escapeFrom hline _
    have hlength := length_le_escapeFrom true 0 cs
    simp only [hform, List.append_assoc]
    rw [List.cons_append, List.cons_append, List.cons_append, List.nil_append, string?_doubles,
      hskip]
    exact multilineBasic?_escapeFrom cs (Nat.zero_le 2) (by rw [List.length_append]; omega) hdouble
  | multilineLiteral =>
    obtain ⟨hcontrol, hquotes⟩ := Shape.plain_of_multilineLiteral hform
    have hprintable := printable_of_shape hcontrol
    have hskip := skipFirstNewline_start cs (cs ++ (['\'', '\'', '\''] ++ rest))
      fun hline => head_append_quotes hline hprintable _
    simp only [hform, List.append_assoc]
    rw [List.cons_append, List.cons_append, List.cons_append, List.nil_append, string?_singles,
      hskip]
    exact multilineLiteral?_append cs hquotes hprintable (by rw [List.length_append]; omega) hsingle

end LoraBridge.Toml
