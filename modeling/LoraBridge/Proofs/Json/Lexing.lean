import Mathlib.Data.List.Chain
import LoraBridge.Proofs.Json.Grammar

/-! Texts cut into tokens. A token that is spelled out is read as that token, with any blanks
before it; a number is only finished by the byte behind it, or by the end of the text. -/
namespace LoraBridge.Json

namespace Lexer

def feed (s : State) (cs : List Char) : State :=
  (Text.utf8 cs).foldl step s

@[simp] theorem feed_nil (s : State) : feed s [] = s := rfl

@[simp] theorem feed_append (s : State) (cs ds : List Char) :
    feed s (cs ++ ds) = feed (feed s cs) ds := by
  rw [feed, Text.utf8_append, List.foldl_append]
  rfl

@[simp] theorem feed_ascii {c : Char} (h : c.toNat < 128) (s : State) (cs : List Char) :
    feed s (c :: cs) = feed (step s (UInt8.ofNat c.toNat)) cs := by
  rw [feed, Text.utf8_cons, Text.utf8EncodeChar_ascii h]
  rfl

theorem charOf_byte {c : Char} (h : c.toNat < 128) :
    Char.ofNat (UInt8.ofNat c.toNat).toNat = c := by
  rw [UInt8.toNat_ofNat_of_lt' (Nat.lt_trans h (by decide)), Char.ofNat_toNat]

def endsNumber (c : Char) : Bool :=
  !c.isDigit && c != '.' && c != 'e' && c != 'E' && c != '+' && c != '-'

/-- The tokens of a state in which nothing goes on, or only a number that may end. -/
inductive Stands : State → List Token → Prop where
  | between (ts : List Token) : Stands ⟨.between, ts⟩ ts
  | pending {part : Part} (n : Numeral) (ts : List Token) (h : part.complete = true) :
    Stands ⟨.number part n, ts⟩ (.number (Numeral.finish n) :: ts)

theorem Stands.finish_eq {s : State} {ts : List Token} (h : Stands s ts) :
    finish s = ts.reverse := by
  cases h with
  | between => rfl
  | pending n ts h => simp [finish, h]

theorem Stands.step_eq {s : State} {ts : List Token} (h : Stands s ts) {b : UInt8}
    (hb : endsNumber (Char.ofNat b.toNat) = true) : step s b = step ⟨.between, ts⟩ b := by
  cases h with
  | between => rfl
  | pending n ts h =>
    simp only [endsNumber, Bool.and_eq_true, Bool.not_eq_true', bne_iff_ne] at hb
    obtain ⟨⟨⟨⟨⟨hdigit, hdot⟩, he⟩, hE⟩, hplus⟩, hminus⟩ := hb
    simp [step, number, digit?, hdigit, hdot, he, hE, hplus, hminus, h, emit]

theorem step_string {ps : List Piece} {ts : List Token} {b : UInt8} (hlow : 32 ≤ b.toNat)
    (hquote : b ≠ 34) (hslash : b ≠ 92) :
    step ⟨.string ps, ts⟩ b = ⟨.string (.byte b :: ps), ts⟩ := by
  have hb : ¬ b < 32 := by
    rw [UInt8.lt_iff_toNat_lt]
    exact Nat.not_lt.2 hlow
  have hquote' : Char.ofNat b.toNat ≠ '"' := fun h => hquote (Text.eq_of_charOfNat h)
  have hslash' : Char.ofNat b.toNat ≠ '\\' := fun h => hslash (Text.eq_of_charOfNat h)
  simp [step, hquote', hslash', hb]

private theorem step_hex {ps : List Piece} {ts : List Token} {ds : List Char} {c : Char}
    (hc : c.toNat < 128) (h : ds.length < 3) :
    step ⟨.hex ps ds, ts⟩ (UInt8.ofNat c.toNat) = ⟨.hex ps (ds ++ [c]), ts⟩ := by
  simp only [step, charOf_byte hc, h, if_true]

theorem step_hex_last {ps : List Piece} {ts : List Token} {ds : List Char} {c : Char} {n : Nat}
    (hc : c.toNat < 128) (h : ds.length = 3) (hn : hexCode? (ds ++ [c]) = some n) :
    step ⟨.hex ps ds, ts⟩ (UInt8.ofNat c.toNat) = ⟨.string (.unit n :: ps), ts⟩ := by
  simp only [step, charOf_byte hc, h, hn, Nat.lt_irrefl, if_false]

theorem ascii_of_hexDigit? {c : Char} {n : Nat} (h : hexDigit? c = some n) : c.toNat < 128 := by
  unfold hexDigit? at h
  split at h
  · next hc =>
    simp only [Char.isDigit, Bool.and_eq_true, decide_eq_true_eq, UInt32.le_iff_toNat_le] at hc
    exact Nat.lt_of_le_of_lt hc.2 (by decide)
  split at h
  · next hc =>
    simp only [Char.le_def, UInt32.le_iff_toNat_le] at hc
    exact Nat.lt_of_le_of_lt hc.2 (by decide)
  split at h
  · next hc =>
    simp only [Char.le_def, UInt32.le_iff_toNat_le] at hc
    exact Nat.lt_of_le_of_lt hc.2 (by decide)
  · cases h

theorem ascii_of_hexCode? {ds : List Char} {n : Nat} (h : hexCode? ds = some n) :
    ∀ c ∈ ds, c.toNat < 128 := by
  unfold hexCode? at h
  generalize 0 = m at h
  induction ds generalizing m with
  | nil => simp
  | cons c ds ih =>
    rw [List.foldlM_cons] at h
    obtain ⟨m', hm', h⟩ := Option.bind_eq_some_iff.1 h
    obtain ⟨k, hk, -⟩ := Option.map_eq_some_iff.1 hm'
    exact List.forall_mem_cons.2 ⟨ascii_of_hexDigit? hk, ih _ h⟩

theorem feed_code {ps : List Piece} {ts : List Token} {ds : List Char} {n : Nat}
    (hlen : ds.length = 4) (h : hexCode? ds = some n) :
    feed ⟨.string ps, ts⟩ ('\\' :: 'u' :: ds) = ⟨.string (.unit n :: ps), ts⟩ := by
  have hascii := ascii_of_hexCode? h
  match ds, hlen with
  | [a, b, c, d], _ =>
    have hopen : feed ⟨.string ps, ts⟩ ['\\', 'u'] = ⟨.hex ps [], ts⟩ := rfl
    simp only [List.forall_mem_cons, List.not_mem_nil, false_implies, implies_true,
      and_true] at hascii
    obtain ⟨ha, hb, hc, hd⟩ := hascii
    change feed _ (['\\', 'u'] ++ [a, b, c, d]) = _
    rw [feed_append, hopen, feed_ascii ha, step_hex ha (by decide), feed_ascii hb,
      step_hex hb (by simp), feed_ascii hc, step_hex hc (by simp), feed_ascii hd,
      step_hex_last hd rfl h, feed_nil]

private theorem foldl_step_piece {p : Piece} {bs : List UInt8} (h : p.Spelled bs) (ps : List Piece)
    (ts : List Token) : bs.foldl step ⟨.string ps, ts⟩ = ⟨.string (p :: ps), ts⟩ := by
  cases h with
  | plain hlow hquote hslash => exact step_string hlow hquote hslash
  | letter h =>
    unfold escaped? at h
    split at h <;> cases h <;> rfl
  | code hlen h => exact feed_code hlen h

private theorem foldl_step_pieces {ps : List Piece} {bs : List UInt8} (h : PiecesSpelled ps bs)
    (acc : List Piece) (ts : List Token) :
    bs.foldl step ⟨.string acc, ts⟩ = ⟨.string (ps.reverse ++ acc), ts⟩ := by
  induction h generalizing acc with
  | nil => rfl
  | cons h _ ih =>
    rw [List.foldl_append, foldl_step_piece h, ih, List.reverse_cons, List.append_assoc]
    rfl

theorem toNat_digitChar_lt {d : Nat} (h : d < 10) : d.digitChar.toNat < 128 := by
  have hall : ∀ m : Fin 10, (Nat.digitChar m).toNat < 128 := by decide
  exact hall ⟨d, h⟩

private theorem digit?_digitChar {d : Nat} (h : d < 10) : digit? d.digitChar = some d := by
  have hall : ∀ m : Fin 10, digit? (Nat.digitChar m) = some m.val := by decide
  exact hall ⟨d, h⟩

private theorem step_digit {part next : Part} {n : Numeral} {ts : List Token} {d : Nat} (h : d < 10)
    (hnext : part.digit? d = some next) :
    step ⟨.number part n, ts⟩ (UInt8.ofNat d.digitChar.toNat) =
      ⟨.number next (Numeral.push n part d), ts⟩ := by
  simp only [step, charOf_byte (toNat_digitChar_lt h), Lexer.number, digit?_digitChar h, hnext]

theorem feed_digit {part next : Part} {n : Numeral} {ts : List Token} {d : Nat} (h : d < 10)
    (hnext : part.digit? d = some next) (cs : List Char) :
    feed ⟨.number part n, ts⟩ (d.digitChar :: cs) =
      feed ⟨.number next (Numeral.push n part d), ts⟩ cs := by
  rw [feed_ascii (toNat_digitChar_lt h), step_digit h hnext]

theorem feed_digits {part : Part} (hpart : ∀ d, part.digit? d = some part) (n : Numeral)
    (ts : List Token) {ds : List Nat} (h : ∀ d ∈ ds, d < 10) :
    feed ⟨.number part n, ts⟩ (ds.map Nat.digitChar) =
      ⟨.number part (ds.foldl (fun n d => Numeral.push n part d) n), ts⟩ := by
  induction ds generalizing n with
  | nil => rfl
  | cons d ds ih =>
    obtain ⟨hd, hds⟩ := List.forall_mem_cons.1 h
    rw [List.map_cons, feed_digit hd (hpart d), ih _ hds, List.foldl_cons]

private theorem foldl_push_whole (ds : List Nat) (n : Numeral) :
    ds.foldl (fun n d => Numeral.push n .whole d) n =
      { n with whole := ds.reverse ++ n.whole } := by
  induction ds generalizing n with
  | nil => rfl
  | cons d ds ih =>
    rw [List.foldl_cons, ih]
    simp [Numeral.push]

theorem foldl_push_fraction (ds acc : List Nat) (n : Numeral) (h : n.fraction = some acc) :
    ds.foldl (fun n d => Numeral.push n .fraction d) n =
      { n with fraction := some (ds.reverse ++ acc) } := by
  induction ds generalizing n acc with
  | nil =>
    cases n
    cases h
    rfl
  | cons d ds ih =>
    rw [List.foldl_cons, ih (d :: acc) _ (by simp [Numeral.push, h])]
    simp [Numeral.push]

theorem foldl_push_exponent (ds acc : List Nat) (negative : Bool) (n : Numeral)
    (h : n.exponent = some (negative, acc)) :
    ds.foldl (fun n d => Numeral.push n .exponent d) n =
      { n with exponent := some (negative, ds.reverse ++ acc) } := by
  induction ds generalizing n acc with
  | nil =>
    cases n
    cases h
    rfl
  | cons d ds ih =>
    rw [List.foldl_cons, ih (d :: acc) _ (by simp [Numeral.push, h])]
    simp [Numeral.push, h]

open Json.Numeral (IsDigits WellFormed)

private theorem feed_lead {d : Nat} (h : d < 10) (hd : d ≠ 0) (negative : Bool) (ts : List Token) :
    feed ⟨.between, ts⟩ ((if negative then ['-'] else []) ++ [d.digitChar]) =
      ⟨.number .whole ⟨negative, [d], none, none⟩, ts⟩ := by
  have hcases : d = 1 ∨ d = 2 ∨ d = 3 ∨ d = 4 ∨ d = 5 ∨ d = 6 ∨ d = 7 ∨ d = 8 ∨ d = 9 := by
    omega
  rcases hcases with rfl | rfl | rfl | rfl | rfl | rfl | rfl | rfl | rfl <;> cases negative <;> rfl

theorem feed_whole {n : Numeral} (h : n.WellFormed) (ts : List Token) :
    ∃ part, (part = .zero ∨ part = .whole) ∧
      feed ⟨.between, ts⟩
          ((if n.negative then ['-'] else []) ++ n.whole.map Nat.digitChar) =
        ⟨.number part ⟨n.negative, n.whole.reverse, none, none⟩, ts⟩ := by
  rcases h.lead with hwhole | ⟨d, ds, hwhole, hd⟩
  · refine ⟨.zero, .inl rfl, ?_⟩
    rw [hwhole]
    cases n.negative <;> rfl
  · refine ⟨.whole, .inr rfl, ?_⟩
    have hlt := h.whole.2
    rw [hwhole] at hlt
    obtain ⟨hdlt, hds⟩ := List.forall_mem_cons.1 hlt
    rw [hwhole, List.map_cons, List.append_cons, feed_append, feed_lead hdlt hd,
      feed_digits (fun _ => rfl) _ _ hds, foldl_push_whole, List.reverse_cons]

theorem feed_fraction {part : Part} (hpart : part = .zero ∨ part = .whole) (negative : Bool)
    (whole : List Nat) (ts : List Token) {ds : List Nat} (h : IsDigits ds) :
    feed ⟨.number part ⟨negative, whole, none, none⟩, ts⟩ ('.' :: ds.map Nat.digitChar) =
      ⟨.number .fraction ⟨negative, whole, some ds.reverse, none⟩, ts⟩ := by
  have hpoint : step ⟨.number part ⟨negative, whole, none, none⟩, ts⟩
      (UInt8.ofNat ('.' : Char).toNat) =
        ⟨.number .point ⟨negative, whole, some [], none⟩, ts⟩ := by
    rcases hpart with rfl | rfl <;> rfl
  obtain ⟨hne, hlt⟩ := h
  cases ds with
  | nil => exact absurd rfl hne
  | cons d ds =>
    obtain ⟨hd, hds⟩ := List.forall_mem_cons.1 hlt
    rw [feed_ascii (by decide), hpoint, List.map_cons, feed_digit hd rfl,
      feed_digits (fun _ => rfl) _ _ hds, foldl_push_fraction _ [d] _ rfl, List.reverse_cons]
    rfl

theorem feed_exponent {part : Part} (hpart : part = .zero ∨ part = .whole ∨ part = .fraction)
    {n : Numeral} (hn : n.exponent = none) (ts : List Token) {e : Option (Bool × List Nat)}
    {cs : List Char} (h : ExponentSpelled e cs) :
    ∃ last : Part, last.complete = true ∧ feed ⟨.number part n, ts⟩ cs =
      ⟨.number last { n with exponent := e.map fun e => (e.1, e.2.reverse) }, ts⟩ := by
  cases h with
  | none =>
    refine ⟨part, by rcases hpart with rfl | rfl | rfl <;> rfl, ?_⟩
    rw [feed_nil, Option.map_none, ← hn]
  | @some mark sign negative ds hmark hsign hds =>
    have hascii : mark.toNat < 128 := by
      rcases hmark with rfl | rfl <;> decide
    have hmark' : step ⟨.number part n, ts⟩ (UInt8.ofNat mark.toNat) =
        ⟨.number .mark { n with exponent := some (false, []) }, ts⟩ := by
      rcases hmark with rfl | rfl <;> rcases hpart with rfl | rfl | rfl <;> rfl
    have hsign' : ∃ next, (next = .mark ∨ next = .markSign) ∧
        feed ⟨.number .mark { n with exponent := some (false, []) }, ts⟩ sign =
          ⟨.number next { n with exponent := some (negative, []) }, ts⟩ := by
      cases negative with
      | true => exact ⟨.markSign, .inr rfl, by rw [show sign = ['-'] from hsign]; rfl⟩
      | false =>
        rcases (show sign = [] ∨ sign = ['+'] from hsign) with rfl | rfl
        · exact ⟨.mark, .inl rfl, rfl⟩
        · exact ⟨.markSign, .inr rfl, rfl⟩
    obtain ⟨next, hnext, hsign'⟩ := hsign'
    obtain ⟨hne, hlt⟩ := hds
    obtain ⟨d, ds, rfl⟩ := List.exists_cons_of_ne_nil hne
    obtain ⟨hd, hds⟩ := List.forall_mem_cons.1 hlt
    have hfirst : next.digit? d = some .exponent := by
      rcases hnext with rfl | rfl <;> rfl
    have hpush : Numeral.push { n with exponent := some (negative, []) } next d =
        { n with exponent := some (negative, [d]) } := by
      rcases hnext with rfl | rfl <;> rfl
    refine ⟨.exponent, rfl, ?_⟩
    rw [feed_ascii hascii, hmark', feed_append, hsign', List.map_cons, feed_digit hd hfirst,
      feed_digits (fun _ => rfl) _ _ hds, hpush, foldl_push_exponent _ [d] negative _ rfl,
      Option.map_some, List.reverse_cons]

theorem stands_numeral {n : Numeral} {cs : List Char} (h : n.Spelled cs) (ts : List Token) :
    Stands (feed ⟨.between, ts⟩ cs) (.number n :: ts) := by
  obtain ⟨hwell, exponent, hexponent, rfl⟩ := h
  obtain ⟨part, hpart, hwhole⟩ := feed_whole hwell ts
  have hfraction : ∃ next, (next = .zero ∨ next = .whole ∨ next = .fraction) ∧
      feed ⟨.number part ⟨n.negative, n.whole.reverse, none, none⟩, ts⟩
          (Numeral.fractionChars n.fraction) =
        ⟨.number next ⟨n.negative, n.whole.reverse, n.fraction.map (·.reverse), none⟩, ts⟩ := by
    cases hf : n.fraction with
    | none => exact ⟨part, hpart.imp_right .inl, rfl⟩
    | some ds =>
      exact ⟨.fraction, .inr (.inr rfl), feed_fraction hpart _ _ _ (hwell.fraction ds hf)⟩
  obtain ⟨next, hnext, hfraction⟩ := hfraction
  obtain ⟨last, hlast, hexponent⟩ := feed_exponent hnext
    (n := ⟨n.negative, n.whole.reverse, n.fraction.map (·.reverse), none⟩) rfl ts hexponent
  rw [Numeral.leadChars, feed_append, feed_append, hwhole, hfraction, hexponent]
  have hstands := Stands.pending ⟨n.negative, n.whole.reverse, n.fraction.map (·.reverse),
    n.exponent.map fun e => (e.1, e.2.reverse)⟩ ts hlast
  simpa [Numeral.finish, Function.comp_def] using hstands

theorem stands_spelled {t : Token} {bs : List UInt8} (h : t.Spelled bs) (ts : List Token) :
    Stands (bs.foldl step ⟨.between, ts⟩) (t :: ts) := by
  cases h with
  | fixed h =>
    cases t with
    | number | cutNumber | string | fault => cases h
    | bool b =>
      cases b <;> cases h <;> exact .between _
    | openArray | closeArray | openObject | closeObject | comma | colon | null =>
      cases h
      exact .between _
  | number h => exact stands_numeral h ts
  | string h =>
    have hopen : step ⟨.between, ts⟩ 34 = ⟨.string [], ts⟩ := rfl
    have hclose : ∀ ps, step ⟨.string ps, ts⟩ 34 = ⟨.between, .string ⟨ps.reverse, none⟩ :: ts⟩ :=
      fun _ => rfl
    rw [List.foldl_cons, hopen, List.foldl_append, foldl_step_pieces h, List.append_nil,
      List.foldl_cons, hclose, List.reverse_reverse]
    exact .between _

end Lexer

def Token.isNumber : Token → Bool
  | .number _ => true
  | _ => false

def Parted (t u : Token) : Prop :=
  t.isNumber = true → u.isNumber = false

namespace Lexer

theorem exists_endsNumber {t : Token} {bs : List UInt8} (h : t.Spelled bs)
    (ht : t.isNumber = false) :
    ∃ b rest, bs = b :: rest ∧ endsNumber (Char.ofNat b.toNat) = true := by
  cases h with
  | fixed h =>
    cases t with
    | number | cutNumber | string | fault => cases h
    | bool b =>
      cases b <;> cases h <;> exact ⟨_, _, rfl, by decide⟩
    | openArray | closeArray | openObject | closeObject | comma | colon | null =>
      cases h
      exact ⟨_, _, rfl, by decide⟩
  | number => cases ht
  | string => exact ⟨34, _, rfl, by decide⟩

private theorem endsNumber_of_blank {b : UInt8} (h : Blank b) :
    endsNumber (Char.ofNat b.toNat) = true := by
  simp only [Blank, isSpace, Bool.or_eq_true, beq_iff_eq] at h
  rcases h with ((h | h) | h) | h <;> rw [h] <;> decide

private theorem step_blank {b : UInt8} (h : Blank b) (ts : List Token) :
    step ⟨.between, ts⟩ b = ⟨.between, ts⟩ := by
  have hspace : isSpace (Char.ofNat b.toNat) = true := h
  change begin _ _ = _
  unfold begin
  exact if_pos hspace

theorem foldl_step_blanks {blanks : List UInt8} (h : ∀ b ∈ blanks, Blank b) (ts : List Token) :
    blanks.foldl step ⟨.between, ts⟩ = ⟨.between, ts⟩ := by
  induction blanks with
  | nil => rfl
  | cons b blanks ih =>
    obtain ⟨hb, hblanks⟩ := List.forall_mem_cons.1 h
    rw [List.foldl_cons, step_blank hb, ih hblanks]

theorem Stands.blanks {s : State} {ts : List Token} (h : Stands s ts) {blanks : List UInt8}
    (hblanks : ∀ b ∈ blanks, Blank b) : Stands (blanks.foldl step s) ts := by
  cases blanks with
  | nil => exact h
  | cons b blanks =>
    rw [List.foldl_cons, h.step_eq (endsNumber_of_blank (hblanks b List.mem_cons_self)),
      ← List.foldl_cons, foldl_step_blanks hblanks]
    exact .between ts

/-- A token is read whole behind others that it can be told from. -/
theorem Stands.spelled {s : State} {ts : List Token} (hs : Stands s ts) {t : Token}
    {bs : List UInt8} (h : t.Spelled bs) (hparted : s = ⟨.between, ts⟩ ∨ t.isNumber = false) :
    Stands (bs.foldl step s) (t :: ts) := by
  rcases hparted with rfl | ht
  · exact stands_spelled h ts
  · obtain ⟨b, rest, rfl, hb⟩ := exists_endsNumber h ht
    rw [List.foldl_cons, hs.step_eq hb, ← List.foldl_cons]
    exact stands_spelled h ts

theorem stands_laid {us : List Token} {bytes : List UInt8} (h : Laid us bytes)
    (hparted : us.IsChain Parted) {s : State} {ts : List Token} (hs : Stands s ts)
    (hhead : s = ⟨.between, ts⟩ ∨ ∀ t ∈ us.head?, t.isNumber = false) :
    Stands (bytes.foldl step s) (us.reverse ++ ts) := by
  induction h generalizing s ts with
  | nil hblanks => exact hs.blanks hblanks
  | @cons blanks bs rest t us hblanks ht _ ih =>
    obtain ⟨hnext, hparted⟩ := List.isChain_cons.1 hparted
    have hbefore : blanks.foldl step s = ⟨.between, ts⟩ ∨ t.isNumber = false := by
      rcases hhead with rfl | hhead
      · exact .inl (foldl_step_blanks hblanks ts)
      · exact .inr (hhead t rfl)
    have hstands := (hs.blanks hblanks).spelled ht hbefore
    rw [List.foldl_append, List.foldl_append, List.reverse_cons, List.append_assoc]
    refine ih hparted hstands ?_
    cases hnumber : t.isNumber with
    | true => exact .inr fun u hu => hnext u hu hnumber
    | false =>
      -- Nothing goes on behind a token that is no number.
      left
      generalize (bs.foldl step (blanks.foldl step s)) = s' at hstands
      cases hstands with
      | between => rfl
      | pending => cases hnumber

end Lexer

/-- A text is cut into the tokens that are laid in it. -/
theorem tokens_eq_of_laid {ts : List Token} {bytes : List UInt8} (h : Laid ts bytes)
    (hparted : ts.IsChain Parted) : tokens bytes = ts := by
  have hstands := Lexer.stands_laid h hparted (.between []) (.inl rfl)
  rw [tokens, Lexer.start, hstands.finish_eq, List.append_nil, List.reverse_reverse]

end LoraBridge.Json
