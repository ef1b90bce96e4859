import Mathlib.Data.List.TakeWhile
import LoraBridge.Proofs.Topic.Compiled

/-! The templates that are accepted, as a grammar. A template is a text with one action in it,
which names the gateway and may have blanks around the name. The parts of an accepted template
are determined by the template, and its topics are its outer parts around the digits of a
gateway. -/
namespace LoraBridge

namespace Text

theorem exists_of_trim (cs : List Char) : ∃ left right, cs = left ++ trim cs ++ right ∧
    (∀ c ∈ left, isBlank c = true) ∧ ∀ c ∈ right, isBlank c = true := by
  have htake : ∀ ds : List Char, ∀ c ∈ ds.takeWhile isBlank, isBlank c = true :=
    fun ds c hc => List.mem_takeWhile_imp hc
  refine ⟨cs.takeWhile isBlank, ((cs.dropWhile isBlank).reverse.takeWhile isBlank).reverse, ?_,
    htake cs, fun c hc => htake _ c (List.mem_reverse.1 hc)⟩
  rw [trim, List.append_assoc, ← List.reverse_append, List.takeWhile_append_dropWhile,
    List.reverse_reverse, List.takeWhile_append_dropWhile]

end Text

namespace Topic

open Text (isBlank)

@[simp] theorem hasOpening_iff (cs : List Char) :
    hasOpening cs = true ↔ ['\x7b', '\x7b'] <:+: cs := by
  induction cs with
  | nil => simp [hasOpening]
  | cons c cs ih =>
    cases cs with
    | nil => simp [hasOpening, List.infix_cons_iff]
    | cons d r =>
      have hinfix : ['\x7b', '\x7b'] <:+: c :: d :: r ↔
          ['\x7b', '\x7b'] <+: c :: d :: r ∨ ['\x7b', '\x7b'] <:+: d :: r :=
        List.infix_cons_iff
      rw [hasOpening, Bool.or_eq_true, ih, Bool.and_eq_true, beq_iff_eq, beq_iff_eq, hinfix,
        List.cons_prefix_cons, List.cons_prefix_cons]
      simp only [List.nil_prefix, and_true, eq_comm]

theorem closing?_cons {c : Char} (hbrace : c ≠ '\x7d') (hfeed : c ≠ '\n') (cs : List Char) :
    closing? (c :: cs) = (closing? cs).map fun p => (c :: p.1, p.2) := by
  cases cs with
  | nil => rfl
  | cons d r => rw [closing?, if_neg fun h => hbrace h.1, if_neg hfeed]

private theorem closing?_append {inner : List Char} (h : ∀ c ∈ inner, c ≠ '\x7d' ∧ c ≠ '\n')
    (rest : List Char) : closing? (inner ++ '\x7d' :: '\x7d' :: rest) = some (inner, rest) := by
  induction inner with
  | nil => rfl
  | cons c inner ih =>
    obtain ⟨hc, hinner⟩ := List.forall_mem_cons.1 h
    rw [List.cons_append, closing?_cons hc.1 hc.2, ih hinner]
    rfl

theorem newline_of_closing? {cs inner rest : List Char} (h : closing? cs = some (inner, rest)) :
    '\n' ∉ inner := by
  fun_induction closing? cs generalizing inner with
  | case1 => cases h
  | case2 => cases h
  | case3 =>
    cases h
    exact List.not_mem_nil
  | case4 => cases h
  | case5 c d r _ hc ih =>
    obtain ⟨p, hp, he⟩ := Option.map_eq_some_iff.1 h
    cases he
    rw [List.mem_cons, not_or]
    exact ⟨Ne.symm hc, ih hp⟩

theorem split_cons {c : Char} {cs : List Char} (h : c = '\x7b' → cs.head? ≠ some '\x7b') :
    split (c :: cs) = (c :: (split cs).1, (split cs).2) := by
  cases cs with
  | nil => simp [split]
  | cons d r =>
    have hne : ¬ (c = '\x7b' ∧ d = '\x7b') := fun hcd => h hcd.1 (congrArg some hcd.2)
    rw [split, if_neg hne]

theorem split_opening {r inner rest : List Char} (h : closing? r = some (inner, rest)) :
    split ('\x7b' :: '\x7b' :: r) = ([], (inner, (split rest).1) :: (split rest).2) := by
  rw [split, if_pos ⟨rfl, rfl⟩]
  split
  · next heq =>
    rw [h] at heq
    cases heq
    rfl
  · next heq =>
    rw [h] at heq
    cases heq

theorem split_open {r : List Char} (h : closing? r = none) :
    split ('\x7b' :: '\x7b' :: r) =
      ('\x7b' :: (split ('\x7b' :: r)).1, (split ('\x7b' :: r)).2) := by
  rw [split, if_pos ⟨rfl, rfl⟩]
  split
  · next heq =>
    rw [h] at heq
    cases heq
  · rfl

theorem split_of_not_hasOpening {cs : List Char} (h : hasOpening cs = false) :
    split cs = (cs, []) := by
  induction cs with
  | nil => simp [split]
  | cons c cs ih =>
    cases cs with
    | nil => simp [split]
    | cons d r =>
      rw [hasOpening, Bool.or_eq_false_iff, Bool.and_eq_false_iff] at h
      have hhead : c = '\x7b' → (d :: r).head? ≠ some '\x7b' := by
        rintro rfl heq
        cases heq
        rcases h.1 with h | h <;> cases h
      rw [split_cons hhead, ih h.2]

theorem split_append {before r inner rest : List Char} (hbefore : hasOpening before = false)
    (hlast : before.getLast? ≠ some '\x7b') (h : closing? r = some (inner, rest)) :
    split (before ++ '\x7b' :: '\x7b' :: r) =
      (before, (inner, (split rest).1) :: (split rest).2) := by
  induction before with
  | nil => exact split_opening h
  | cons c before ih =>
    have hhead : c = '\x7b' → (before ++ '\x7b' :: '\x7b' :: r).head? ≠ some '\x7b' := by
      rintro rfl heq
      cases before with
      | nil => exact hlast rfl
      | cons d before =>
        cases heq
        cases hbefore
    cases before with
    | nil => exact (split_cons hhead).trans (by rw [List.nil_append, split_opening h])
    | cons d before =>
      rw [hasOpening, Bool.or_eq_false_iff] at hbefore
      rw [List.getLast?_cons_cons] at hlast
      rw [List.cons_append, split_cons hhead, ih hbefore.2 hlast]

theorem opening_of_split {cs : List Char} {a : List Char × List Char}
    {more : List (List Char × List Char)} (h : split cs = ([], a :: more)) :
    ∃ r, cs = '\x7b' :: '\x7b' :: r ∧ closing? r ≠ none := by
  cases cs with
  | nil => simp [split] at h
  | cons c cs =>
    by_cases hopen : c = '\x7b' ∧ cs.head? = some '\x7b'
    · obtain ⟨rfl, hhead⟩ := hopen
      obtain ⟨r, rfl⟩ := List.head?_eq_some_iff.1 hhead
      refine ⟨r, rfl, fun hnone => ?_⟩
      rw [split_open hnone] at h
      cases h
    · rw [split_cons fun hc hhead => hopen ⟨hc, hhead⟩] at h
      cases h

/-- Braces that open an action are not preceded by another one: it would open the action. -/
theorem getLast?_of_split {cs before : List Char} {a : List Char × List Char}
    {more : List (List Char × List Char)} (h : split cs = (before, a :: more)) :
    before.getLast? ≠ some '\x7b' := by
  induction cs generalizing before with
  | nil => simp [split] at h
  | cons c cs ih =>
    by_cases hopen : c = '\x7b' ∧ cs.head? = some '\x7b'
    · obtain ⟨rfl, hhead⟩ := hopen
      obtain ⟨r, rfl⟩ := List.head?_eq_some_iff.1 hhead
      cases hclosing : closing? r with
      | some p =>
        rw [split_opening hclosing] at h
        cases h
        intro hlast
        cases hlast
      | none =>
        rw [split_open hclosing] at h
        obtain ⟨rfl, hmore⟩ := Prod.mk.inj h
        cases hliteral : (split ('\x7b' :: r)).1 with
        | nil =>
          -- The second brace does not open an action, as the first one would have opened it.
          obtain ⟨r', hr, hsome⟩ := opening_of_split (Prod.ext hliteral hmore)
          cases hr
          rw [closing?_cons (by decide) (by decide), Option.map_eq_none_iff] at hclosing
          exact absurd hclosing hsome
        | cons d literal =>
          rw [List.getLast?_cons_cons, ← hliteral]
          exact ih (Prod.ext rfl hmore)
    · rw [split_cons fun hc hhead => hopen ⟨hc, hhead⟩] at h
      obtain ⟨rfl, hmore⟩ := Prod.mk.inj h
      cases hliteral : (split cs).1 with
      | nil =>
        obtain ⟨r, rfl, -⟩ := opening_of_split (Prod.ext hliteral hmore)
        intro hlast
        cases hlast
        exact hopen ⟨rfl, rfl⟩
      | cons d literal =>
        rw [List.getLast?_cons_cons, ← hliteral]
        exact ih (Prod.ext rfl hmore)

theorem newline_of_split (cs : List Char) : ∀ a ∈ (split cs).2, '\n' ∉ a.1 := by
  fun_induction split cs with
  | case1 => exact fun a ha => absurd ha List.not_mem_nil
  | case2 => exact fun a ha => absurd ha List.not_mem_nil
  | case3 c d r _ inner rest h literal more hs ih =>
    rw [hs] at ih
    exact List.forall_mem_cons.2 ⟨newline_of_closing? h, ih⟩
  | case4 c d r _ h literal more hs ih =>
    rw [hs] at ih
    exact ih
  | case5 c d r _ literal more hs ih =>
    rw [hs] at ih
    exact ih

/-- A template in its parts: the texts around its action, and the blanks in it. -/
@[ext]
structure Parts where
  before : List Char
  left : List Char
  right : List Char
  after : List Char
  left_blank : ∀ c ∈ left, isBlank c = true ∧ c ≠ '\n'
  right_blank : ∀ c ∈ right, isBlank c = true ∧ c ≠ '\n'
  before_opening : ¬ ['\x7b', '\x7b'] <:+: before
  before_last : before.getLast? ≠ some '\x7b'
  after_opening : ¬ ['\x7b', '\x7b'] <:+: after
  before_plain : ∀ c ∈ before, c ≠ '+' ∧ c ≠ '#'
  after_plain : ∀ c ∈ after, c ≠ '+' ∧ c ≠ '#'

namespace Parts

def inner (p : Parts) : List Char :=
  p.left ++ gatewayField ++ p.right

def chars (p : Parts) : List Char :=
  p.before ++ '\x7b' :: '\x7b' :: (p.inner ++ '\x7d' :: '\x7d' :: p.after)

def text (p : Parts) : String :=
  String.ofList p.chars

def template (p : Parts) : Template :=
  ⟨p.text, String.ofList p.before, String.ofList p.after⟩

variable (p : Parts)

theorem inner_line {c : Char} (h : c ∈ p.inner) :
    c ≠ '\x7d' ∧ c ≠ '\n' ∧ isWildcard c = false := by
  have hblank : ∀ c, isBlank c = true ∧ c ≠ '\n' →
      c ≠ '\x7d' ∧ c ≠ '\n' ∧ isWildcard c = false := by
    intro c hc
    refine ⟨?_, hc.2, ?_⟩
    · rintro rfl
      cases hc.1
    · rw [← Bool.not_eq_true, isWildcard, Bool.or_eq_true, beq_iff_eq, beq_iff_eq]
      rintro (rfl | rfl) <;> cases hc.1
  have hfield : ∀ c ∈ gatewayField, c ≠ '\x7d' ∧ c ≠ '\n' ∧ isWildcard c = false := by
    intro c hc
    simp only [gatewayField, List.mem_cons, List.not_mem_nil, or_false] at hc
    rcases hc with rfl | rfl | rfl | rfl <;> decide
  rw [inner, List.mem_append, List.mem_append] at h
  rcases h with (h | h) | h
  · exact hblank c (p.left_blank c h)
  · exact hfield c h
  · exact hblank c (p.right_blank c h)

@[simp] theorem hasOpening_before : hasOpening p.before = false := by
  rw [← Bool.not_eq_true, hasOpening_iff]
  exact p.before_opening

@[simp] theorem hasOpening_after : hasOpening p.after = false := by
  rw [← Bool.not_eq_true, hasOpening_iff]
  exact p.after_opening

@[simp] private theorem split_chars : split p.chars = (p.before, [(p.inner, p.after)]) := by
  have hclosing : closing? (p.inner ++ '\x7d' :: '\x7d' :: p.after) = some (p.inner, p.after) :=
    closing?_append (fun c hc => ⟨(p.inner_line hc).1, (p.inner_line hc).2.1⟩) p.after
  rw [chars, split_append p.hasOpening_before p.before_last hclosing,
    split_of_not_hasOpening p.hasOpening_after]

@[simp] private theorem trim_inner : Text.trim p.inner = gatewayField := by
  have hleft : ∀ c ∈ p.left, isBlank c = true := fun c hc => (p.left_blank c hc).1
  have hright : ∀ c ∈ p.right.reverse, isBlank c = true :=
    fun c hc => (p.right_blank c (List.mem_reverse.1 hc)).1
  rw [Text.trim, inner, List.append_assoc, List.dropWhile_append_of_pos hleft]
  change ((gatewayField ++ p.right).reverse.dropWhile isBlank).reverse = gatewayField
  rw [List.reverse_append, List.dropWhile_append_of_pos hright]
  rfl

@[simp] theorem trim_chars : (Text.trim p.chars).isEmpty = false := by
  obtain ⟨left, right, heq, hleft, hright⟩ := Text.exists_of_trim p.chars
  rw [← Bool.not_eq_true, List.isEmpty_iff]
  intro hnil
  rw [hnil, List.append_nil] at heq
  have hmem : '\x7b' ∈ left ++ right := by
    rw [← heq, chars]
    exact List.mem_append_right _ List.mem_cons_self
  rcases List.mem_append.1 hmem with h | h
  · exact absurd (hleft _ h) (by decide)
  · exact absurd (hright _ h) (by decide)

@[simp] theorem find?_chars : p.chars.find? isWildcard = none := by
  have hplain : ∀ c, c ≠ '+' ∧ c ≠ '#' → isWildcard c = false := by
    intro c hc
    rw [isWildcard, beq_false_of_ne hc.1, beq_false_of_ne hc.2, Bool.or_false]
  have hbraces : isWildcard '\x7b' = false ∧ isWildcard '\x7d' = false := by decide
  rw [List.find?_eq_none]
  intro c hc
  rw [Bool.not_eq_true]
  simp only [chars, List.mem_append, List.mem_cons] at hc
  rcases hc with hc | rfl | rfl | hc | rfl | rfl | hc
  · exact hplain c (p.before_plain c hc)
  · exact hbraces.1
  · exact hbraces.1
  · exact (p.inner_line hc).2.2
  · exact hbraces.2
  · exact hbraces.2
  · exact hplain c (p.after_plain c hc)

@[simp] theorem parse_text : Template.parse p.text = .ok p.template := by
  simp [Template.parse, text, template, trim_chars, split_chars, trim_inner, find?_chars,
    hasOpening_before, hasOpening_after]

/-- A template has its parts in one way. -/
theorem text_injective : Function.Injective text := by
  intro p q h
  have hparse := p.parse_text
  rw [h, q.parse_text] at hparse
  obtain ⟨-, hbefore, hafter⟩ := Template.mk.inj (Except.ok.inj hparse)
  have hbefore := (String.ofList_inj.1 hbefore).symm
  have hafter := (String.ofList_inj.1 hafter).symm
  have hinner : p.inner = q.inner := by
    have hchars := String.ofList_inj.1 h
    rw [chars, chars, hbefore, hafter] at hchars
    obtain ⟨-, hrest⟩ := List.cons.inj (List.append_cancel_left hchars)
    exact List.append_cancel_right (List.cons.inj hrest).2
  -- The blanks before the field are the blanks at the beginning.
  have hleft : ∀ p : Parts, p.left = p.inner.takeWhile isBlank := by
    intro p
    rw [inner, List.append_assoc,
      List.takeWhile_append_of_pos fun c hc => (p.left_blank c hc).1]
    exact (List.append_nil _).symm
  have hleft : p.left = q.left := by
    rw [hleft p, hleft q, hinner]
  rw [inner, inner, hleft] at hinner
  exact Parts.ext hbefore hleft (List.append_cancel_left hinner) hafter

theorem exists_of_parse {source : String} {t : Template} (h : Template.parse source = .ok t) :
    ∃ p : Parts, p.text = source := by
  simp only [Template.parse] at h
  split at h
  · cases h
  split at h
  · cases h
  next hfield =>
  split at h
  · cases h
  next hopening =>
  split at h
  · next inner after hactions =>
    split at h
    · cases h
    next hwild =>
    have hsplit : split source.toList = ((split source.toList).1, [(inner, after)]) :=
      Prod.ext rfl hactions
    have hlast := getLast?_of_split hsplit
    have hline := newline_of_split source.toList
    have hsource := join_split source.toList
    rw [hsplit] at hsource
    rw [hactions] at hfield hopening hline
    generalize (split source.toList).1 = before at hsource hopening hlast
    simp only [join, List.flatMap_cons, List.flatMap_nil, List.append_nil] at hsource
    simp only [List.any_cons, List.any_nil, Bool.or_false, Bool.or_eq_true, not_or,
      hasOpening_iff] at hopening
    obtain ⟨left, right, hinner, hleft, hright⟩ := Text.exists_of_trim inner
    rw [show Text.trim inner = gatewayField by simpa using hfield] at hinner
    subst hinner
    have hne : ∀ c ∈ left ++ gatewayField ++ right, c ≠ '\n' :=
      fun c hc heq => hline _ List.mem_cons_self (heq ▸ hc)
    have hplain : ∀ c ∈ source.toList, c ≠ '+' ∧ c ≠ '#' := by
      intro c hc
      simpa [isWildcard] using List.find?_eq_none.1 hwild c hc
    rw [← hsource] at hplain
    refine ⟨⟨before, left, right, after, ?_, ?_, hopening.1, hlast, hopening.2, ?_, ?_⟩, ?_⟩
    · exact fun c hc => ⟨hleft c hc, hne c (by simp [hc])⟩
    · exact fun c hc => ⟨hright c hc, hne c (by simp [hc])⟩
    · exact fun c hc => hplain c (List.mem_append_left _ hc)
    · exact fun c hc => hplain c (by simp [hc])
    · apply String.toList_inj.1
      rw [text, String.toList_ofList, ← hsource]
      rfl
  · cases h

end Parts

/-- Accepted are the templates that have parts, in one way each; their topics are the outer parts
around the digits of the gateway, as long as MQTT can carry them. -/
theorem Template.parses_parts :
    (∀ source, (∃ t, parse source = .ok t) ↔ ∃ p : Parts, p.text = source) ∧
    Function.Injective Parts.text ∧
    (∀ (p : Parts) (gateway : Eui), ∃ t, parse p.text = .ok t ∧
      let topic := String.ofList (p.before ++ gateway.digits ++ p.after)
      t.render gateway =
        if topic.utf8ByteSize ≤ 65535 then .ok topic else .error (.tooLong topic.utf8ByteSize)) ∧
    ∀ gateway : Eui, gateway.digits.length = 16 ∧
      (∀ c ∈ gateway.digits, c ∈ "0123456789abcdef".toList) ∧
        Eui.parse (String.ofList gateway.digits) = .ok gateway := by
  refine ⟨fun source => ⟨?_, ?_⟩, Parts.text_injective, fun p gateway => ?_, fun gateway => ?_⟩
  · rintro ⟨t, h⟩
    exact Parts.exists_of_parse h
  · rintro ⟨p, rfl⟩
    exact ⟨p.template, p.parse_text⟩
  · refine ⟨p.template, p.parse_text, ?_⟩
    simp only [render, Parts.template, Eui.text, String.ofList_append]
    rfl
  · refine ⟨gateway.length_digits, fun c hc => ?_, gateway.parse_text⟩
    have hall : ∀ n : Fin 16, Eui.hexDigit n ∈ "0123456789abcdef".toList := by decide
    obtain ⟨n, hn, rfl⟩ := Eui.mem_digits hc
    exact hall ⟨n, hn⟩

end Topic

end LoraBridge
