import LoraBridge.Proofs.Json.Parsing

/-! What a text is cut into is laid in it. At every byte the finished tokens are laid in a front of
the text, and what goes on is spelled behind them, or there is a token that is not whole. -/
namespace LoraBridge.Json

namespace Lexer

theorem utf8_byte {b : UInt8} (h : b.toNat < 128) : Text.utf8 [Char.ofNat b.toNat] = [b] :=
  Text.utf8_map_ofNat fun _ hc => List.mem_singleton.1 hc ▸ h

inductive PartSpelled : Part → Numeral → List Char → Prop
  | minus : PartSpelled .minus ⟨true, [], none, none⟩ ['-']
  | zero (negative : Bool) :
    PartSpelled .zero ⟨negative, [0], none, none⟩ ((if negative then ['-'] else []) ++ ['0'])
  | whole (negative : Bool) {ds : List Nat} {d : Nat} (hd : d ≠ 0) (h : ∀ d' ∈ d :: ds, d' < 10) :
    PartSpelled .whole ⟨negative, (d :: ds).reverse, none, none⟩
      ((if negative then ['-'] else []) ++ (d :: ds).map Nat.digitChar)
  | point {part : Part} {n : Numeral} {cs : List Char} (h : PartSpelled part n cs)
      (hpart : part = .zero ∨ part = .whole) :
    PartSpelled .point { n with fraction := some [] } (cs ++ ['.'])
  | fraction {n : Numeral} {cs : List Char} {ds : List Nat} (h : PartSpelled .point n cs)
      (hds : Numeral.IsDigits ds) :
    PartSpelled .fraction { n with fraction := some ds.reverse } (cs ++ ds.map Nat.digitChar)
  | mark {part : Part} {n : Numeral} {cs : List Char} {mark : Char} (h : PartSpelled part n cs)
      (hpart : part = .zero ∨ part = .whole ∨ part = .fraction) (hmark : mark = 'e' ∨ mark = 'E') :
    PartSpelled .mark { n with exponent := some (false, []) } (cs ++ [mark])
  | sign {n : Numeral} {cs : List Char} (negative : Bool) (h : PartSpelled .mark n cs) :
    PartSpelled .markSign { n with exponent := some (negative, []) }
      (cs ++ [if negative then '-' else '+'])
  | exponent {part : Part} {n : Numeral} {cs : List Char} {negative : Bool} {ds : List Nat}
      (h : PartSpelled part n cs) (hpart : part = .mark ∨ part = .markSign)
      (hn : n.exponent = some (negative, [])) (hds : Numeral.IsDigits ds) :
    PartSpelled .exponent { n with exponent := some (negative, ds.reverse) }
      (cs ++ ds.map Nat.digitChar)

namespace PartSpelled

open Json.Numeral (IsDigits WellFormed)

variable {part next : Part} {n : Numeral} {cs : List Char}

theorem whole_eq (h : PartSpelled part n cs) (hpart : part = .zero ∨ part = .whole) :
    n.fraction = none ∧ n.exponent = none ∧ (Numeral.finish n).WellFormed ∧
      cs = (Numeral.finish n).leadChars := by
  cases h with
  | zero negative =>
    have hwell : (⟨negative, [0], none, none⟩ : Numeral).WellFormed :=
      ⟨⟨by simp, by simp⟩, .inl rfl, by simp, by simp⟩
    refine ⟨rfl, rfl, hwell, ?_⟩
    simp [Numeral.finish, Numeral.leadChars, Numeral.fractionChars]
  | @whole negative ds d hd h =>
    have hwell : (⟨negative, d :: ds, none, none⟩ : Numeral).WellFormed :=
      ⟨⟨List.cons_ne_nil d ds, h⟩, .inr ⟨d, ds, rfl, hd⟩, by simp, by simp⟩
    refine ⟨rfl, rfl, ?_, ?_⟩
    · simpa [Numeral.finish] using hwell
    · simp [Numeral.finish, Numeral.leadChars, Numeral.fractionChars]
  | minus | point | fraction | mark | sign | exponent => simp at hpart

theorem lead_eq (h : PartSpelled part n cs)
    (hpart : part = .zero ∨ part = .whole ∨ part = .fraction) :
    n.exponent = none ∧ (Numeral.finish n).WellFormed ∧ cs = (Numeral.finish n).leadChars := by
  cases h with
  | zero negative => exact (whole_eq (.zero negative) (.inl rfl)).2
  | whole negative hd h => exact (whole_eq (.whole negative hd h) (.inr rfl)).2
  | @fraction n cs ds h hds =>
    cases h with
    | point h hpart =>
      obtain ⟨hfraction, hexponent, hwell, rfl⟩ := h.whole_eq hpart
      refine ⟨hexponent, ⟨hwell.whole, hwell.lead, ?_, hwell.exponent⟩, ?_⟩
      · rintro ds' hds'
        simp only [Numeral.finish, Option.map_some, List.reverse_reverse, Option.some.injEq] at hds'
        exact hds' ▸ hds
      · simp [Numeral.finish, Numeral.leadChars, Numeral.fractionChars, hfraction]
  | minus | point | mark | sign | exponent => simp at hpart

theorem mark_eq (h : PartSpelled part n cs) (hpart : part = .mark ∨ part = .markSign)
    {negative : Bool} (hn : n.exponent = some (negative, [])) :
    (Numeral.finish { n with exponent := none }).WellFormed ∧ ∃ mark sign,
      (mark = 'e' ∨ mark = 'E') ∧ (if negative then sign = ['-'] else sign = [] ∨ sign = ['+']) ∧
      cs = (Numeral.finish { n with exponent := none }).leadChars ++ mark :: sign := by
  have hmark : ∀ {n : Numeral} {cs : List Char}, PartSpelled .mark n cs →
      (Numeral.finish { n with exponent := none }).WellFormed ∧ n.exponent = some (false, []) ∧
        ∃ mark, (mark = 'e' ∨ mark = 'E') ∧
          cs = (Numeral.finish { n with exponent := none }).leadChars ++ [mark] := by
    intro n cs h
    cases h with
    | @mark part n cs mark h hpart hmark =>
      obtain ⟨hexponent, hwell, rfl⟩ := h.lead_eq hpart
      have hsame : { n with exponent := none } = n := by rw [← hexponent]
      have hagain : ({ { n with exponent := some (false, []) } with exponent := none } : Numeral) =
        n := hsame
      rw [hagain]
      exact ⟨hwell, rfl, mark, hmark, rfl⟩
  rcases hpart with rfl | rfl
  · obtain ⟨hwell, hexponent, mark, hmark, hcs⟩ := hmark h
    rw [hexponent] at hn
    cases hn
    exact ⟨hwell, mark, [], hmark, .inl rfl, hcs⟩
  · cases h with
    | sign negative' h =>
      obtain ⟨hwell, -, mark, hmark, rfl⟩ := hmark h
      cases hn
      refine ⟨hwell, mark, [if negative then '-' else '+'], hmark, ?_, by simp⟩
      cases negative <;> simp

theorem spelled (h : PartSpelled part n cs) (hpart : part.complete = true) :
    (Numeral.finish n).Spelled cs := by
  have hlead : ∀ {part : Part} {n : Numeral} {cs : List Char}, PartSpelled part n cs →
      part = .zero ∨ part = .whole ∨ part = .fraction → (Numeral.finish n).Spelled cs := by
    intro part n cs h hpart
    obtain ⟨hexponent, hwell, rfl⟩ := h.lead_eq hpart
    refine ⟨hwell, [], ?_, (List.append_nil _).symm⟩
    simp only [Numeral.finish, hexponent, Option.map_none]
    exact .none
  cases part with
  | zero => exact hlead h (.inl rfl)
  | whole => exact hlead h (.inr (.inl rfl))
  | fraction => exact hlead h (.inr (.inr rfl))
  | exponent =>
    cases h with
    | @exponent part n cs negative ds h hpart hn hds =>
      obtain ⟨hwell, mark, sign, hmark, hsign, rfl⟩ := h.mark_eq hpart hn
      refine ⟨⟨hwell.whole, hwell.lead, hwell.fraction, ?_⟩,
        mark :: (sign ++ ds.map Nat.digitChar), ?_, ?_⟩
      · rintro negative' ds' heq
        simp only [Numeral.finish, Option.map_some, List.reverse_reverse, Option.some.injEq,
          Prod.mk.injEq] at heq
        exact heq.2 ▸ hds
      · simp only [Numeral.finish, Option.map_some, List.reverse_reverse]
        exact .some hmark hsign hds
      · exact List.append_assoc _ (mark :: sign) _
  | minus | point | mark | markSign => cases hpart

private theorem isDigits_concat {ds : List Nat} {d : Nat} (hds : IsDigits ds) (hd : d < 10) :
    IsDigits (ds ++ [d]) :=
  ⟨by simp, List.forall_mem_append.2 ⟨hds.2, by simpa using hd⟩⟩

theorem isDigits_singleton {d : Nat} (hd : d < 10) : IsDigits [d] :=
  ⟨List.cons_ne_nil d [], by simpa using hd⟩

theorem digit (h : PartSpelled part n cs) {d : Nat} (hd : d < 10)
    (hnext : part.digit? d = some next) :
    PartSpelled next (Numeral.push n part d) (cs ++ [d.digitChar]) := by
  cases h with
  | minus =>
    by_cases hzero : d = 0
    · subst hzero
      cases hnext
      exact .zero true
    · have hwhole : Part.digit? .minus d = some .whole := by
        cases d with
        | zero => exact absurd rfl hzero
        | succ d => rfl
      rw [hwhole] at hnext
      cases hnext
      exact .whole true hzero (isDigits_singleton hd).2
  | zero => cases hnext
  | @whole negative ds d' hd' h =>
    cases hnext
    have hmore := PartSpelled.whole negative hd'
      (isDigits_concat ⟨List.cons_ne_nil d' ds, h⟩ hd).2
    simpa [Numeral.push] using hmore
  | point h hpart =>
    cases hnext
    simpa [Numeral.push] using (h.point hpart).fraction (isDigits_singleton hd)
  | fraction h hds =>
    cases hnext
    simpa [Numeral.push] using h.fraction (isDigits_concat hds hd)
  | mark h hpart hmark =>
    cases hnext
    simpa [Numeral.push] using
      (h.mark hpart hmark).exponent (.inl rfl) rfl (isDigits_singleton hd)
  | sign negative h =>
    cases hnext
    simpa [Numeral.push] using (h.sign negative).exponent (.inr rfl) rfl (isDigits_singleton hd)
  | exponent h hpart hn hds =>
    cases hnext
    simpa [Numeral.push] using h.exponent hpart hn (isDigits_concat hds hd)

end PartSpelled

theorem mem_begin (s : State) (c : Char) {t : Token} (h : t ∈ s.tokens) :
    t ∈ (begin s c).tokens := by
  unfold begin
  split
  · exact h
  split <;> try exact List.mem_cons_of_mem _ h
  all_goals try exact h
  split
  · exact h
  · exact h
  · exact List.mem_cons_of_mem _ h

theorem mem_number (s : State) (part : Part) (n : Numeral) (c : Char) {t : Token}
    (h : t ∈ s.tokens) : t ∈ (number s part n c).tokens := by
  unfold number
  split
  · split
    · exact h
    · exact List.mem_cons_of_mem _ h
  split
  · exact h
  split
  · exact h
  split
  · exact h
  split
  · exact mem_begin _ c (List.mem_cons_of_mem _ h)
  · exact List.mem_cons_of_mem _ h

theorem mem_step (s : State) (b : UInt8) {t : Token} (h : t ∈ s.tokens) :
    t ∈ (step s b).tokens := by
  have hmore : ∀ u : Token, t ∈ u :: s.tokens := fun u => List.mem_cons_of_mem u h
  simp only [step]
  split
  · exact h
  · exact mem_begin s _ h
  · split
    · exact hmore _
    split
    · exact hmore _
    · exact h
  · exact mem_begin _ _ (hmore _)
  · exact mem_number s _ _ _ h
  · split
    · exact hmore _
    split
    · exact h
    split
    · exact hmore _
    · exact h
  · split
    · exact h
    split
    · exact h
    · exact hmore _
  · split
    · exact h
    split
    · exact h
    · exact hmore _

/-- What has been read: the finished tokens are laid in a front of the bytes, and what goes on is
spelled behind it, unless a token is not whole. -/
inductive Reads : State → List UInt8 → Prop
  | between {ts : List Token} {front : List UInt8} (h : Laid ts.reverse front) :
    Reads ⟨.between, ts⟩ front
  | word {ts : List Token} {front : List UInt8} {t : Token} {w rest : List Char}
      (h : Laid ts.reverse front) (ht : t.fixed? = some (w ++ rest)) (hrest : rest ≠ []) :
    Reads ⟨.word rest t, ts⟩ (front ++ Text.utf8 w)
  | number {ts : List Token} {front : List UInt8} {part : Part} {n : Numeral} {cs : List Char}
      (h : Laid ts.reverse front) (hpart : PartSpelled part n cs) :
    Reads ⟨.number part n, ts⟩ (front ++ Text.utf8 cs)
  | string {ts : List Token} {front bs : List UInt8} {ps : List Piece} (h : Laid ts.reverse front)
      (hps : PiecesSpelled ps.reverse bs) : Reads ⟨.string ps, ts⟩ (front ++ 34 :: bs)
  | escape {ts : List Token} {front bs : List UInt8} {ps : List Piece} (h : Laid ts.reverse front)
      (hps : PiecesSpelled ps.reverse bs) : Reads ⟨.escape ps, ts⟩ (front ++ 34 :: (bs ++ [92]))
  | hex {ts : List Token} {front bs ds : List UInt8} {ps : List Piece} (h : Laid ts.reverse front)
      (hps : PiecesSpelled ps.reverse bs) (hds : ds.length ≤ 3) :
    Reads ⟨.hex ps (ds.map fun b => Char.ofNat b.toNat), ts⟩
      (front ++ 34 :: (bs ++ 92 :: 117 :: ds))
  | lost {mode : Mode} {ts : List Token} {bytes : List UInt8} {t : Token} (ht : t ∈ ts)
      (h : t.isSound = false) : Reads ⟨mode, ts⟩ bytes

theorem Reads.fail {ts : List Token} {mode : Mode} {bytes : List UInt8} (f : Fault) :
    Reads (fail ⟨mode, ts⟩ f) bytes :=
  .lost List.mem_cons_self rfl

theorem digit_of_digit? {c : Char} {d : Nat} (h : digit? c = some d) :
    d < 10 ∧ c = d.digitChar := by
  unfold digit? at h
  split at h
  · next hc =>
    cases h
    simp only [Char.isDigit, Bool.and_eq_true, decide_eq_true_eq, UInt32.le_iff_toNat_le] at hc
    obtain ⟨hlow, hhigh⟩ := hc
    change 48 ≤ c.toNat at hlow
    change c.toNat ≤ 57 at hhigh
    have hd : c.toNat - 48 < 10 := by omega
    refine ⟨hd, ?_⟩
    have hall : ∀ m : Fin 10, (Nat.digitChar m).toNat = m + 48 := by decide
    apply Char.toNat_inj.1
    rw [hall ⟨c.toNat - 48, hd⟩]
    simp only
    omega
  · cases h

theorem reads_begin {ts : List Token} {front : List UInt8} (h : Laid ts.reverse front)
    (mode : Mode) (b : UInt8) : Reads (begin ⟨mode, ts⟩ (Char.ofNat b.toNat)) (front ++ [b]) := by
  by_cases hblank : Blank b
  · have hspace : isSpace (Char.ofNat b.toNat) = true := hblank
    have hblanks : Laid [] [b] := .nil (by simpa using hblank)
    unfold begin
    rw [if_pos hspace]
    exact .between (by simpa using h.append hblanks)
  have hbyte : (Char.ofNat b.toNat).toNat < 128 → Text.utf8 [Char.ofNat b.toNat] = [b] := by
    intro hlt
    rw [Text.toNat_charOfNat] at hlt
    exact utf8_byte hlt
  have hspace : ¬ isSpace (Char.ofNat b.toNat) = true := hblank
  generalize Char.ofNat b.toNat = c at hbyte hspace
  have hfixed : ∀ t : Token, t.fixed? = some [c] → c.toNat < 128 →
      Reads ⟨.between, t :: ts⟩ (front ++ [b]) := by
    intro t ht hlt
    rw [← hbyte hlt]
    refine .between ?_
    rw [List.reverse_cons]
    exact h.append (.of_spelled (.fixed ht))
  have hword : ∀ (t : Token) (rest : List Char), t.fixed? = some (c :: rest) → rest ≠ [] →
      c.toNat < 128 → Reads ⟨.word rest t, ts⟩ (front ++ [b]) := by
    intro t rest ht hrest hlt
    rw [← hbyte hlt]
    exact .word h ht hrest
  unfold begin
  rw [if_neg hspace]
  split
  · exact hfixed .openArray rfl (by decide)
  · exact hfixed .closeArray rfl (by decide)
  · exact hfixed .openObject rfl (by decide)
  · exact hfixed .closeObject rfl (by decide)
  · exact hfixed .comma rfl (by decide)
  · exact hfixed .colon rfl (by decide)
  · exact hword .null _ rfl (by decide) (by decide)
  · exact hword (.bool true) _ rfl (by decide) (by decide)
  · exact hword (.bool false) _ rfl (by decide) (by decide)
  · rw [← hbyte (by decide)]
    exact .string h .nil
  · rw [← hbyte (by decide)]
    exact .number h .minus
  · split
    · next hd =>
      obtain ⟨-, rfl⟩ := digit_of_digit? hd
      rw [← hbyte (by decide)]
      exact .number h (.zero false)
    · next d hzero hd =>
      obtain ⟨hlt, rfl⟩ := digit_of_digit? hd
      rw [← hbyte (toNat_digitChar_lt hlt)]
      exact .number h (.whole false hzero (PartSpelled.isDigits_singleton hlt).2)
    · exact .fail _

theorem reads_number {ts : List Token} {front : List UInt8} {part : Part} {n : Numeral}
    {cs : List Char} (h : Laid ts.reverse front) (hpart : PartSpelled part n cs) (mode : Mode)
    (b : UInt8) :
    Reads (number ⟨mode, ts⟩ part n (Char.ofNat b.toNat)) (front ++ Text.utf8 cs ++ [b]) := by
  have hbyte : ∀ c, Char.ofNat b.toNat = c → c.toNat < 128 →
      front ++ Text.utf8 cs ++ [b] = front ++ Text.utf8 (cs ++ [c]) := by
    rintro c rfl hlt
    rw [Text.toNat_charOfNat] at hlt
    rw [Text.utf8_append, utf8_byte hlt, List.append_assoc]
  unfold number
  split
  · next d hd =>
    obtain ⟨hlt, hc⟩ := digit_of_digit? hd
    split
    · next next hnext =>
      rw [hbyte _ hc (toNat_digitChar_lt hlt)]
      exact .number h (hpart.digit hlt hnext)
    · exact .fail _
  split
  · next hpoint =>
    simp only [Bool.and_eq_true, Bool.or_eq_true, beq_iff_eq] at hpoint
    rw [hbyte _ hpoint.1 (by decide)]
    exact .number h (hpart.point hpoint.2)
  split
  · next hmark =>
    simp only [Bool.and_eq_true, Bool.or_eq_true, beq_iff_eq, or_assoc] at hmark
    obtain ⟨hmark, hlead⟩ := hmark
    rw [hbyte _ rfl (by rcases hmark with h | h <;> rw [h] <;> decide)]
    exact .number h (hpart.mark hlead hmark)
  split
  · next hsign =>
    simp only [Bool.and_eq_true, Bool.or_eq_true, beq_iff_eq] at hsign
    obtain ⟨hsign, rfl⟩ := hsign
    rcases hsign with hsign | hsign
    · rw [hbyte _ hsign (by decide), hsign]
      exact .number h (hpart.sign false)
    · rw [hbyte _ hsign (by decide), hsign]
      exact .number h (hpart.sign true)
  split
  · next hcomplete =>
    have hlaid : Laid (.number (Numeral.finish n) :: ts).reverse (front ++ Text.utf8 cs) := by
      rw [List.reverse_cons]
      exact h.append (.of_spelled (.number (hpart.spelled hcomplete)))
    exact reads_begin hlaid .between b
  · exact .fail _

theorem Reads.close {ts : List Token} {front bs : List UInt8} {ps : List Piece}
    (h : Laid ts.reverse front) (hps : PiecesSpelled ps.reverse bs) :
    Reads (closeString ⟨.string ps, ts⟩ ps none) (front ++ 34 :: bs ++ [34]) := by
  rw [List.append_assoc]
  refine .between ?_
  rw [List.reverse_cons]
  exact h.append (.of_spelled (.string hps))

theorem Reads.broken {ts : List Token} {mode : Mode} {bytes : List UInt8} (ps : List Piece)
    (f : Fault) : Reads (closeString ⟨mode, ts⟩ ps (some f)) bytes :=
  .lost List.mem_cons_self rfl

theorem Reads.piece {ts : List Token} {front bs bs' : List UInt8} {ps : List Piece} {p : Piece}
    (h : Laid ts.reverse front) (hps : PiecesSpelled ps.reverse bs) (hp : p.Spelled bs') :
    Reads ⟨.string (p :: ps), ts⟩ (front ++ 34 :: (bs ++ bs')) := by
  refine .string h ?_
  rw [List.reverse_cons]
  exact hps.append (.of_spelled hp)

theorem ascii_of_escaped? {c : Char} {b : UInt8} (h : escaped? c = some b) : c.toNat < 128 := by
  unfold escaped? at h
  split at h
  · decide
  · decide
  · decide
  · decide
  · decide
  · decide
  · decide
  · decide
  · cases h

theorem reads_word {ts : List Token} {front : List UInt8} {t : Token} {w : List Char} {c : Char}
    {rest : List Char} (h : Laid ts.reverse front) (ht : t.fixed? = some (w ++ c :: rest))
    (b : UInt8) :
    Reads (step ⟨.word (c :: rest) t, ts⟩ b) (front ++ Text.utf8 w ++ [b]) := by
  simp only [step]
  split
  · exact .fail _
  next hc =>
  simp only [bne_iff_ne, ne_eq, Decidable.not_not] at hc
  have hlt : b.toNat < 128 := by
    have hmem : c ∈ w ++ c :: rest := List.mem_append_right w List.mem_cons_self
    rw [← Text.toNat_charOfNat, hc]
    exact Token.ascii_of_fixed? ht c hmem
  have hfront : front ++ Text.utf8 w ++ [b] = front ++ Text.utf8 (w ++ [c]) := by
    rw [← hc, Text.utf8_append, utf8_byte hlt, List.append_assoc]
  rw [hfront]
  rw [List.append_cons] at ht
  split
  · next hend =>
    rw [List.isEmpty_iff] at hend
    rw [hend, List.append_nil] at ht
    refine .between ?_
    rw [List.reverse_cons]
    exact h.append (.of_spelled (.fixed ht))
  · next hmore =>
    exact .word h ht (by simpa using hmore)

section

variable {ts : List Token} {front bs : List UInt8} {ps : List Piece}
  (h : Laid ts.reverse front) (hps : PiecesSpelled ps.reverse bs) (b : UInt8)

include h hps

theorem reads_string : Reads (step ⟨.string ps, ts⟩ b) (front ++ 34 :: bs ++ [b]) := by
  simp only [step]
  split
  · next hquote =>
    cases Text.eq_of_charOfNat (beq_iff_eq.1 hquote)
    exact .close h hps
  next hquote =>
  split
  · next hslash =>
    cases Text.eq_of_charOfNat (beq_iff_eq.1 hslash)
    rw [List.append_assoc]
    exact .escape h hps
  next hslash =>
  split
  · exact .broken _ _
  · next hlow =>
    rw [List.append_assoc]
    refine .piece h hps (.plain ?_ ?_ ?_)
    · rw [UInt8.lt_iff_toNat_lt] at hlow
      exact Nat.not_lt.1 hlow
    · rintro rfl
      exact hquote rfl
    · rintro rfl
      exact hslash rfl

theorem reads_escape :
    Reads (step ⟨.escape ps, ts⟩ b) (front ++ 34 :: (bs ++ [92]) ++ [b]) := by
  simp only [step]
  split
  · next hu =>
    cases Text.eq_of_charOfNat (beq_iff_eq.1 hu)
    have hreads : Reads ⟨.hex ps (([] : List UInt8).map fun b => Char.ofNat b.toNat), ts⟩
        (front ++ 34 :: (bs ++ 92 :: 117 :: [])) := .hex h hps (by simp)
    simpa using hreads
  split
  · next e he =>
    have hlt := ascii_of_escaped? he
    have hbytes : front ++ 34 :: (bs ++ [92]) ++ [b] =
        front ++ 34 :: (bs ++ Text.utf8 ['\\', Char.ofNat b.toNat]) := by
      rw [Text.toNat_charOfNat] at hlt
      rw [Text.utf8_cons, utf8_byte hlt]
      simp
    rw [hbytes]
    exact .piece h hps (.letter he)
  · exact .broken _ _

theorem reads_hex {ds : List UInt8} (hds : ds.length ≤ 3) :
    Reads (step ⟨.hex ps (ds.map fun b => Char.ofNat b.toNat), ts⟩ b)
      (front ++ 34 :: (bs ++ 92 :: 117 :: ds) ++ [b]) := by
  have hconcat : ds.map (fun b => Char.ofNat b.toNat) ++ [Char.ofNat b.toNat] =
      (ds ++ [b]).map fun b => Char.ofNat b.toNat := by
    rw [List.map_append]
    rfl
  have hbytes : front ++ 34 :: (bs ++ 92 :: 117 :: ds) ++ [b] =
      front ++ 34 :: (bs ++ 92 :: 117 :: (ds ++ [b])) := by
    simp
  simp only [step, hconcat, List.length_map]
  rw [hbytes]
  split
  · next hlen =>
    exact .hex h hps (by rw [List.length_append]; exact hlen)
  next hlen =>
  split
  · next n hn =>
    have hsame : Text.utf8 ((ds ++ [b]).map fun b => Char.ofNat b.toNat) = ds ++ [b] := by
      refine Text.utf8_map_ofNat fun c hc => ?_
      rw [← Text.toNat_charOfNat]
      exact ascii_of_hexCode? hn _ (List.mem_map_of_mem hc)
    have htext : Text.utf8 ('\\' :: 'u' :: (ds ++ [b]).map fun b => Char.ofNat b.toNat) =
        92 :: 117 :: (ds ++ [b]) := by
      rw [Text.utf8_cons, Text.utf8_cons, hsame]
      rfl
    rw [← htext]
    refine .piece h hps (.code ?_ hn)
    rw [List.length_map, List.length_append, List.length_singleton]
    omega
  · exact .broken _ _

end

theorem reads_step {s : State} {bytes : List UInt8} (h : Reads s bytes) (b : UInt8) :
    Reads (step s b) (bytes ++ [b]) := by
  cases h with
  | between h => exact reads_begin h .between b
  | @word ts front t w rest h ht hrest =>
    obtain ⟨c, rest, rfl⟩ := List.exists_cons_of_ne_nil hrest
    exact reads_word h ht b
  | number h hpart => exact reads_number h hpart _ b
  | string h hps => exact reads_string h hps b
  | escape h hps => exact reads_escape h hps b
  | hex h hps hds => exact reads_hex h hps b hds
  | lost ht h => exact .lost (mem_step _ b ht) h

theorem reads_foldl {s : State} {front : List UInt8} (h : Reads s front) (bytes : List UInt8) :
    Reads (bytes.foldl step s) (front ++ bytes) := by
  induction bytes generalizing s front with
  | nil => rwa [List.append_nil]
  | cons b bytes ih =>
    rw [List.foldl_cons, List.append_cons]
    exact ih (reads_step h b)

theorem laid_finish {s : State} {bytes : List UInt8} (h : Reads s bytes)
    (hsound : ∀ t ∈ finish s, t.isSound = true) : Laid (finish s) bytes := by
  have hlast : ∀ t : Token, t ∈ finish s → t.isSound = false → Laid (finish s) bytes := by
    intro t ht hf
    rw [hsound t ht] at hf
    cases hf
  cases h with
  | between h => exact h
  | word => exact hlast (.fault .truncated) (by simp [finish]) rfl
  | @number ts front part n cs h hpart =>
    cases hcomplete : part.complete with
    | true =>
      simp only [finish, hcomplete, if_true, List.singleton_append, List.reverse_cons]
      exact h.append (.of_spelled (.number (hpart.spelled hcomplete)))
    | false => exact hlast .cutNumber (by simp [finish, hcomplete]) rfl
  | @string ts front bs ps =>
    exact hlast (.string ⟨ps.reverse, some .truncated⟩) (by simp [finish]) rfl
  | @escape ts front bs ps =>
    exact hlast (.string ⟨ps.reverse, some .truncated⟩) (by simp [finish]) rfl
  | @hex ts front bs ds ps =>
    exact hlast (.string ⟨ps.reverse, some .truncated⟩) (by simp [finish]) rfl
  | @lost mode ts bytes t ht h =>
    exact hlast t (by simp [finish, ht]) h

end Lexer

theorem laid_tokens {bytes : List UInt8} (h : ∀ t ∈ tokens bytes, t.isSound = true) :
    Laid (tokens bytes) bytes := by
  have hreads := Lexer.reads_foldl (.between (.nil (by simp)) : Lexer.Reads Lexer.start []) bytes
  exact Lexer.laid_finish hreads h

end LoraBridge.Json
