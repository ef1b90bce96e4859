import Mathlib.Data.List.TakeWhile
import LoraBridge.Proofs.Sanitize.Scan

/-! Where secrets are found. A secret at the front of a text is a keyword, a separator, blanks
and a value, and these parts are determined by the text. A text that ends with a separator
behind which a value has begun decides every secret that starts in it, whatever follows. -/
namespace LoraBridge.Sanitize

open Text (isBlank)

/-- A character without its letter case, as far as ASCII letters have case variants. -/
def fold (c : Char) : Char :=
  if c = '\u017f' then 's' else if c = '\u212a' then 'k' else c.toLower

def IsKeyword (word : List Char) : Prop :=
  word.map fold ∈ keywords

instance (word : List Char) : Decidable (IsKeyword word) :=
  inferInstanceAs (Decidable (word.map fold ∈ keywords))

def fromBlank (cs : List Char) : List Char :=
  cs.dropWhile fun c => !isBlank c

def secretRule : Rule := fun cs =>
  (secret? cs).map fun p => (p.1 ++ '=' :: mask, p.2)

theorem maskSecrets_eq (cs : List Char) : maskSecrets cs = replaceAll secretRule cs := rfl

private theorem isLower_iff (c : Char) : isLower c = true ↔ 97 ≤ c.toNat ∧ c.toNat ≤ 122 := by
  simp only [isLower, Bool.and_eq_true, decide_eq_true_eq, Char.le_def, UInt32.le_iff_toNat_le]
  rfl

theorem toNat_of_isLower_fold {c : Char} (h : isLower (fold c) = true) :
    (65 ≤ c.toNat ∧ c.toNat ≤ 90) ∨ (97 ≤ c.toNat ∧ c.toNat ≤ 122) ∨ c.toNat = 0x17f ∨
      c.toNat = 0x212a := by
  unfold fold at h
  split at h
  · next hc =>
    rw [hc]
    decide
  split at h
  · next hc =>
    rw [hc]
    decide
  unfold Char.toLower at h
  split at h
  · next hc => exact .inl ⟨hc.1, hc.2⟩
  · exact .inr (.inl ((isLower_iff c).1 h))

theorem isCaseOf_iff {letter c : Char} (h : isLower letter = true) :
    isCaseOf letter c = true ↔ fold c = letter := by
  have hs : letter ≠ '\u017f' := by
    rintro rfl
    cases h
  have hk : letter ≠ '\u212a' := by
    rintro rfl
    cases h
  simp only [isCaseOf, fold, Bool.or_eq_true, Bool.and_eq_true, beq_iff_eq]
  split
  · next hc =>
    subst hc
    have hlower : Char.toLower '\u017f' ≠ letter := fun heq => hs heq.symm
    have hne : ('\u017f' : Char) ≠ '\u212a' := by decide
    simp only [hlower, hne, and_true, and_false, or_false, false_or]
    exact eq_comm
  next hc =>
  split
  · next hc' =>
    subst hc'
    have hlower : Char.toLower '\u212a' ≠ letter := fun heq => hk heq.symm
    simp only [hlower, hc, and_true, and_false, false_or]
    exact eq_comm
  · next hc' => simp only [hc, hc', and_false, or_false]

theorem isLower_of_mem_keywords {k : List Char} (hk : k ∈ keywords) {letter : Char}
    (hletter : letter ∈ k) : isLower letter = true := by
  have hall : ∀ k ∈ keywords, k.all isLower = true := by decide
  exact List.all_eq_true.1 (hall k hk) letter hletter

namespace IsKeyword

variable {word : List Char} {c : Char}

theorem isLower_fold (h : IsKeyword word) (hc : c ∈ word) : isLower (fold c) = true :=
  isLower_of_mem_keywords h (List.mem_map_of_mem hc)

theorem not_isBlank (h : IsKeyword word) (hc : c ∈ word) : isBlank c = false := by
  have hn := toNat_of_isLower_fold (h.isLower_fold hc)
  rw [← Bool.not_eq_true]
  intro hb
  simp only [isBlank, Bool.or_eq_true, Bool.and_eq_true, decide_eq_true_eq, beq_iff_eq] at hb
  omega

theorem not_isSeparator (h : IsKeyword word) (hc : c ∈ word) : isSeparator c = false := by
  have hn := toNat_of_isLower_fold (h.isLower_fold hc)
  rw [← Bool.not_eq_true]
  intro hs
  simp only [isSeparator, Bool.or_eq_true, beq_iff_eq] at hs
  rcases hs with rfl | rfl <;> simp at hn

theorem ne_nil (h : IsKeyword word) : word ≠ [] := by
  rintro rfl
  revert h
  decide

theorem fold_head (h : IsKeyword (c :: word)) : fold c ∈ ['p', 't', 'k', 's'] := by
  have hall : ∀ k ∈ keywords, k.head? ∈ ['p', 't', 'k', 's'].map some := by decide
  simpa using hall _ h

theorem eq_nil_of_append {p : List Char} (h : IsKeyword (p ++ word)) (hw : IsKeyword word) :
    p = [] := by
  have hall : ∀ k ∈ keywords, ∀ k' ∈ keywords, k' <:+ k → k' = k := by decide
  have heq := hall _ h _ hw (by
    rw [List.map_append]
    exact List.suffix_append _ _)
  have hlen := congrArg List.length heq
  rw [List.length_map, List.length_map, List.length_append] at hlen
  exact List.eq_nil_of_length_eq_zero (by omega)

end IsKeyword

theorem word?_eq_some_iff {k : List Char} (hk : ∀ l ∈ k, isLower l = true)
    {cs out rest : List Char} :
    word? k cs = some (out, rest) ↔ cs = out ++ rest ∧ out.map fold = k := by
  induction k generalizing cs out with
  | nil =>
    rw [word?, Option.some.injEq, Prod.mk.injEq, List.map_eq_nil_iff]
    constructor
    · rintro ⟨rfl, rfl⟩
      exact ⟨rfl, rfl⟩
    · rintro ⟨rfl, rfl⟩
      exact ⟨rfl, rfl⟩
  | cons l k ih =>
    obtain ⟨hl, htail⟩ := List.forall_mem_cons.1 hk
    cases cs with
    | nil =>
      rw [word?]
      refine iff_of_false (Option.some_ne_none _).symm ?_
      rintro ⟨heq, hmap⟩
      rw [(List.append_eq_nil_iff.1 heq.symm).1] at hmap
      cases hmap
    | cons c cs =>
      rw [word?]
      split
      · next hc =>
        rw [Option.map_eq_some_iff]
        constructor
        · rintro ⟨⟨word, rest'⟩, hword, heq⟩
          cases heq
          obtain ⟨rfl, rfl⟩ := (ih htail).1 hword
          exact ⟨rfl, by rw [List.map_cons, (isCaseOf_iff hl).1 hc]⟩
        · rintro ⟨heq, hmap⟩
          cases out with
          | nil => cases hmap
          | cons d word =>
            cases heq
            exact ⟨(word, rest), (ih htail).2 ⟨rfl, (List.cons.inj hmap).2⟩, rfl⟩
      · next hc =>
        refine iff_of_false (Option.some_ne_none _).symm ?_
        rintro ⟨heq, hmap⟩
        cases out with
        | nil => cases hmap
        | cons d word =>
          cases heq
          exact hc ((isCaseOf_iff hl).2 (List.cons.inj hmap).1)

theorem value?_eq_some_iff {cs rest : List Char} :
    value? cs = some rest ↔ ∃ e z, cs = e :: z ∧ isSeparator e = true ∧
      z.dropWhile isBlank ≠ [] ∧ rest = fromBlank (z.dropWhile isBlank) := by
  cases cs with
  | nil =>
    refine iff_of_false (Option.some_ne_none rest).symm ?_
    rintro ⟨e, z, heq, -⟩
    cases heq
  | cons e z =>
    simp only [value?, Bool.and_eq_true, Bool.not_eq_true', List.isEmpty_eq_false_iff]
    split
    · next h =>
      rw [Option.some.injEq]
      constructor
      · rintro rfl
        exact ⟨e, z, rfl, h.1, h.2, rfl⟩
      · rintro ⟨e', z', heq, -, -, rfl⟩
        cases heq
        rfl
    · next h =>
      refine iff_of_false (Option.some_ne_none rest).symm ?_
      rintro ⟨e', z', heq, hsep, hvalue, -⟩
      cases heq
      exact h ⟨hsep, hvalue⟩

theorem append_cons_inj {word word' z z' : List Char} {e e' : Char}
    (hword : ∀ c ∈ word, isSeparator c = false) (he : isSeparator e = true)
    (hword' : ∀ c ∈ word', isSeparator c = false) (he' : isSeparator e' = true)
    (h : word ++ e :: z = word' ++ e' :: z') : word = word' ∧ e = e' ∧ z = z' := by
  have htake : ∀ {word : List Char} {e : Char} (z : List Char),
      (∀ c ∈ word, isSeparator c = false) → isSeparator e = true →
      (word ++ e :: z).takeWhile (fun c => !isSeparator c) = word := by
    intro word e z hword he
    rw [List.takeWhile_append_of_pos (fun c hc => by rw [hword c hc]; rfl),
      List.takeWhile_cons_of_neg (by simp [he]), List.append_nil]
  have heq := htake z hword he
  rw [h, htake z' hword' he'] at heq
  rw [heq, List.append_right_inj] at h
  cases h
  exact ⟨heq.symm, rfl, rfl⟩

/-- A secret at the front of a text: a keyword, a separator, and a rest with a value in it. -/
structure SecretAt (cs word : List Char) (e : Char) (z : List Char) : Prop where
  eq : cs = word ++ e :: z
  keyword : IsKeyword word
  separator : isSeparator e = true
  value : z.dropWhile isBlank ≠ []

namespace SecretAt

variable {cs word word' z z' : List Char} {e e' : Char}

theorem append (h : SecretAt cs word e z) (y : List Char) : SecretAt (cs ++ y) word e (z ++ y) where
  eq := by rw [h.eq, List.append_assoc, List.cons_append]
  keyword := h.keyword
  separator := h.separator
  value := by
    rw [List.dropWhile_append, if_neg (by simpa using h.value)]
    exact List.append_ne_nil_of_left_ne_nil h.value y

theorem parts (h : SecretAt cs word e z) (hcs : cs = word' ++ e' :: z')
    (hword : ∀ c ∈ word', isSeparator c = false) (he : isSeparator e' = true) :
    word = word' ∧ e = e' ∧ z = z' :=
  append_cons_inj (fun _ => h.keyword.not_isSeparator) h.separator hword he (h.eq.symm.trans hcs)

private theorem unique (h : SecretAt cs word e z) (h' : SecretAt cs word' e' z') :
    word = word' ∧ e = e' ∧ z = z' :=
  h.parts h'.eq (fun _ => h'.keyword.not_isSeparator) h'.separator

theorem exists_of_secretRule {x : List Char × List Char} (h : secretRule cs = some x) :
    ∃ word e z, SecretAt cs word e z ∧
      x = (word ++ '=' :: mask, fromBlank (z.dropWhile isBlank)) := by
  obtain ⟨⟨word, rest⟩, hsecret, rfl⟩ := Option.map_eq_some_iff.1 h
  obtain ⟨k, hk, hfound⟩ := List.exists_of_findSome?_eq_some hsecret
  obtain ⟨⟨word', behind⟩, hword, hvalue⟩ := Option.bind_eq_some_iff.1 hfound
  obtain ⟨rest', hrest, heq⟩ := Option.map_eq_some_iff.1 hvalue
  cases heq
  obtain ⟨rfl, hfold⟩ := (word?_eq_some_iff fun _ => isLower_of_mem_keywords hk).1 hword
  obtain ⟨e, z, rfl, hsep, hne, rfl⟩ := value?_eq_some_iff.1 hrest
  exact ⟨word', e, z, ⟨rfl, by rwa [← hfold] at hk, hsep, hne⟩, rfl⟩

theorem secretRule_eq (h : SecretAt cs word e z) :
    secretRule cs = some (word ++ '=' :: mask, fromBlank (z.dropWhile isBlank)) := by
  have hword : word? (word.map fold) cs = some (word, e :: z) :=
    (word?_eq_some_iff fun _ => isLower_of_mem_keywords h.keyword).2 ⟨h.eq, rfl⟩
  have hvalue : value? (e :: z) = some (fromBlank (z.dropWhile isBlank)) :=
    value?_eq_some_iff.2 ⟨e, z, rfl, h.separator, h.value, rfl⟩
  cases hrule : secretRule cs with
  | none =>
    have hnone := List.findSome?_eq_none_iff.1 (Option.map_eq_none_iff.1 hrule) _ h.keyword
    rw [hword, Option.bind_some, hvalue] at hnone
    cases hnone
  | some x =>
    obtain ⟨word', e', z', h', rfl⟩ := exists_of_secretRule hrule
    obtain ⟨rfl, rfl, rfl⟩ := h.unique h'
    rfl

theorem secretRule_append (h : SecretAt cs word e z) (y : List Char) :
    secretRule (cs ++ y) = some (word ++ '=' :: mask,
      if fromBlank (z.dropWhile isBlank) = [] then fromBlank y
      else fromBlank (z.dropWhile isBlank) ++ y) := by
  rw [(h.append y).secretRule_eq, List.dropWhile_append, if_neg (by simpa using h.value),
    fromBlank, List.dropWhile_append]
  simp only [List.isEmpty_iff]
  rfl

end SecretAt

theorem secretRule_eq_none {cs : List Char} (h : ∀ word e z, ¬ SecretAt cs word e z) :
    secretRule cs = none := by
  cases hrule : secretRule cs with
  | none => rfl
  | some x =>
    obtain ⟨word, e, z, hat, -⟩ := SecretAt.exists_of_secretRule hrule
    exact absurd hat (h word e z)

theorem fromBlank_suffix (cs : List Char) : fromBlank cs <:+ cs :=
  List.dropWhile_suffix _

theorem secretRule_consumes : secretRule.Consumes := by
  intro cs out rest h
  obtain ⟨word, e, z, hat, heq⟩ := SecretAt.exists_of_secretRule h
  cases heq
  obtain ⟨used, hused⟩ := (fromBlank_suffix _).trans (List.dropWhile_suffix (l := z) isBlank)
  refine ⟨word ++ e :: used, List.append_ne_nil_of_right_ne_nil _ (List.cons_ne_nil e used), ?_⟩
  rw [List.append_assoc, List.cons_append, hused]
  exact hat.eq

theorem isBlank_of_mem_fromBlank {cs : List Char} {c : Char} (h : c ∈ (fromBlank cs).head?) :
    isBlank c = true := by
  have hhead := List.head?_dropWhile_not (fun c => !isBlank c) cs
  rw [show (List.dropWhile _ cs).head? = some c from h] at hhead
  simpa using hhead

theorem secretRule_eq_none_of_head {c : Char} (h : ∀ word, ¬ IsKeyword (c :: word))
    (cs : List Char) : secretRule (c :: cs) = none := by
  apply secretRule_eq_none
  intro word e z hat
  cases word with
  | nil => exact hat.keyword.ne_nil rfl
  | cons d word =>
    have heq := hat.eq
    cases heq
    exact h word hat.keyword

theorem not_isBlank_of_isSeparator {e : Char} (h : isSeparator e = true) : isBlank e = false := by
  simp only [isSeparator, Bool.or_eq_true, beq_iff_eq] at h
  rcases h with rfl | rfl <;> decide

theorem not_isKeyword_of_isBlank {c : Char} (h : isBlank c = true) (word : List Char) :
    ¬ IsKeyword (c :: word) := by
  intro hkey
  rw [hkey.not_isBlank List.mem_cons_self] at h
  cases h

theorem isBlank_head_maskSecrets {cs : List Char} (h : ∀ c ∈ cs.head?, isBlank c = true) :
    ∀ c ∈ (maskSecrets cs).head?, isBlank c = true := by
  cases cs with
  | nil =>
    rw [maskSecrets_eq, replaceAll_nil]
    exact nofun
  | cons b cs =>
    have hb := h b rfl
    have hnone := secretRule_eq_none_of_head (not_isKeyword_of_isBlank hb) cs
    rw [maskSecrets_eq, replaceAll_keep hnone]
    intro d hd
    cases hd
    exact hb

/-- A text without blanks that decides every secret which starts before it and reaches into
it. -/
structure Sealed (back : List Char) : Prop where
  ne_nil : back ≠ []
  solid : ∀ c ∈ back, isBlank c = false
  closed : ∀ p y word e z, p ≠ [] → SecretAt (p ++ (back ++ y)) word e z →
    ∃ z', SecretAt (p ++ back) word e z'

theorem dropWhile_ne_nil {c : Char} {z : List Char} (hc : c ∈ z) (h : isBlank c = false) :
    z.dropWhile isBlank ≠ [] := by
  intro hnil
  have := List.dropWhile_eq_nil_iff.1 hnil c hc
  rw [h] at this
  cases this

theorem sealed_append {word more : List Char} {e : Char} (he : isSeparator e = true)
    (hsolid : ∀ c ∈ word ++ e :: more, isBlank c = false)
    (hmore : more ≠ [] ∨ ∀ p, p ≠ [] → ¬ IsKeyword (p ++ word)) : Sealed (word ++ e :: more) where
  ne_nil := List.append_ne_nil_of_right_ne_nil _ (List.cons_ne_nil e more)
  solid := hsolid
  closed := by
    intro p y key e' z hp hat
    have heq : (p ++ word) ++ (e :: more ++ y) = key ++ e' :: z := by
      rw [← hat.eq]
      simp only [List.append_assoc, List.cons_append]
    have hassoc : p ++ (word ++ e :: more) = (p ++ word) ++ e :: more :=
      (List.append_assoc ..).symm
    -- A keyword that ends at the separator has its value behind it.
    have hends : key = p ++ word → e' = e →
        ∃ z', SecretAt (p ++ (word ++ e :: more)) key e' z' := by
      rintro rfl rfl
      rcases hmore with hmore | hmore
      · refine ⟨more, hassoc, hat.keyword, he, ?_⟩
        obtain ⟨c, cs, rfl⟩ := List.exists_cons_of_ne_nil hmore
        exact dropWhile_ne_nil List.mem_cons_self (hsolid c (by simp))
      · exact absurd hat.keyword (hmore p hp)
    rcases List.append_eq_append_iff.1 heq with ⟨as, hkey, hrest⟩ | ⟨bs, hfront, hrest⟩
    · cases as with
      | nil => exact hends (by rw [hkey, List.append_nil]) (List.cons.inj hrest).1.symm
      | cons d as =>
        have hd : e ∈ key := by
          rw [hkey, (List.cons.inj hrest).1]
          exact List.mem_append_right _ List.mem_cons_self
        rw [hat.keyword.not_isSeparator hd] at he
        cases he
    · cases bs with
      | nil => exact hends (by rw [hfront, List.append_nil]) (List.cons.inj hrest).1
      | cons d bs =>
        cases (List.cons.inj hrest).1
        refine ⟨bs ++ e :: more, ?_, hat.keyword, hat.separator, ?_⟩
        · rw [hassoc, hfront, List.append_assoc, List.cons_append]
        · exact dropWhile_ne_nil (List.mem_append_right _ List.mem_cons_self) (hsolid e (by simp))

/-- A secret that starts before a sealed text ends there too, or runs through it to the first
blank behind. -/
theorem front_secretRule {back p : List Char} (hback : Sealed back) (hp : p ≠ []) :
    Front secretRule (fun y => back ++ y) fromBlank p := by
  cases hrule : secretRule (p ++ back) with
  | none =>
    refine .none fun y => secretRule_eq_none fun word e z hat => ?_
    obtain ⟨z', hat'⟩ := hback.closed p y word e z hp hat
    rw [hat'.secretRule_eq] at hrule
    cases hrule
  | some x =>
    obtain ⟨word, e, z, hat, rfl⟩ := SecretAt.exists_of_secretRule hrule
    by_cases hend : fromBlank (z.dropWhile isBlank) = []
    · refine .through (word ++ '=' :: mask) fun y => ?_
      rw [← List.append_assoc, hat.secretRule_append, if_pos hend]
    have hsuffix : fromBlank (z.dropWhile isBlank) <:+ p ++ back := by
      rw [hat.eq]
      exact ((fromBlank_suffix _).trans (List.dropWhile_suffix _)).trans
        ((List.suffix_cons e z).trans (List.suffix_append word _))
    rcases List.suffix_or_suffix_of_suffix hsuffix (List.suffix_append p back) with h | ⟨q, hq⟩
    · -- The rest starts with a blank, and the sealed text has none.
      obtain ⟨c, cs, hc⟩ := List.exists_cons_of_ne_nil hend
      have hblank : isBlank c = true := isBlank_of_mem_fromBlank (by rw [hc]; rfl)
      rw [hback.solid c (h.subset (hc ▸ List.mem_cons_self))] at hblank
      cases hblank
    · refine .within (word ++ '=' :: mask) q ?_ fun y => ?_
      · have hlen := secretRule_consumes.length_lt hrule
        rw [← hq, List.length_append, List.length_append] at hlen
        omega
      · rw [← List.append_assoc, hat.secretRule_append, if_neg hend, ← hq, List.append_assoc]

end LoraBridge.Sanitize
