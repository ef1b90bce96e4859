import Mathlib.Data.List.TakeWhile
import LoraBridge.Proofs.Sanitize.Scan

/-! Where credentials of URLs are found. A URL with credentials is a scheme, two slashes behind a
colon, the credentials and the sign that ends them, all of them without blanks. A text in front
of such a URL makes the scheme longer, or it has no part in the URL. -/
namespace LoraBridge.Sanitize

open Text (isBlank)

structure IsScheme (cs : List Char) : Prop where
  head : ∃ c ∈ cs.head?, isLower c = true
  chars : ∀ c ∈ cs, isSchemeChar c = true

structure IsCredentials (cs : List Char) : Prop where
  ne_nil : cs ≠ []
  chars : ∀ c ∈ cs, isCredential c = true

def maskedUrl (scheme : List Char) : List Char :=
  scheme ++ ':' :: '/' :: '/' :: mask ++ ['@']

def urlFront (scheme credentials : List Char) : List Char :=
  scheme ++ ':' :: '/' :: '/' :: (credentials ++ ['@'])

def urlRule : Rule := fun cs =>
  (url? cs).map fun p => (maskedUrl p.1, p.2)

theorem maskUrls_eq (cs : List Char) : maskUrls cs = replaceAll urlRule cs := rfl

theorem urlFront_append (scheme credentials rest : List Char) :
    urlFront scheme credentials ++ rest =
      scheme ++ ':' :: '/' :: '/' :: (credentials ++ '@' :: rest) := by
  simp [urlFront]

theorem toNat_of_isSchemeChar {c : Char} (h : isSchemeChar c = true) :
    43 ≤ c.toNat ∧ c.toNat ≤ 122 ∧ c.toNat ≠ 47 ∧ c.toNat ≠ 64 := by
  simp only [isSchemeChar, isLower, Char.isDigit, Bool.or_eq_true, Bool.and_eq_true,
    decide_eq_true_eq, beq_iff_eq, Char.le_def, ge_iff_le, UInt32.le_iff_toNat_le] at h
  rcases h with (((⟨h, h'⟩ | ⟨h, h'⟩) | rfl) | rfl) | rfl
  · change 97 ≤ c.toNat at h
    change c.toNat ≤ 122 at h'
    omega
  · change 48 ≤ c.toNat at h
    change c.toNat ≤ 57 at h'
    omega
  · decide
  · decide
  · decide

theorem isCredential_of_isSchemeChar {c : Char} (h : isSchemeChar c = true) :
    isCredential c = true := by
  have hn := toNat_of_isSchemeChar h
  have hslash : c ≠ '/' := by
    rintro rfl
    exact hn.2.2.1 rfl
  have hat : c ≠ '@' := by
    rintro rfl
    exact hn.2.2.2 rfl
  have hblank : isBlank c = false := by
    rw [← Bool.not_eq_true]
    intro hb
    simp only [isBlank, Bool.or_eq_true, Bool.and_eq_true, decide_eq_true_eq, beq_iff_eq] at hb
    omega
  rw [isCredential, hblank, bne_iff_ne.2 hslash, bne_iff_ne.2 hat]
  rfl

theorem not_isSeparator_of_isSchemeChar {c : Char} (h : isSchemeChar c = true) :
    isSeparator c = false := by
  rw [← Bool.not_eq_true]
  intro hs
  simp only [isSeparator, Bool.or_eq_true, beq_iff_eq] at hs
  rcases hs with rfl | rfl <;> revert h <;> decide

theorem isSchemeChar_of_isLower {c : Char} (h : isLower c = true) : isSchemeChar c = true := by
  rw [isSchemeChar, h]
  rfl

theorem credentials?_eq_some_iff {cs rest : List Char} :
    credentials? cs = some rest ↔
      ∃ credentials, IsCredentials credentials ∧ cs = credentials ++ '@' :: rest := by
  unfold credentials?
  constructor
  · intro h
    split at h
    · next rest' hdrop =>
      split at h
      · cases h
      · next hne =>
        cases h
        refine ⟨cs.takeWhile isCredential, ⟨by simpa using hne, fun c hc => ?_⟩, ?_⟩
        · exact List.mem_takeWhile_imp hc
        · rw [← hdrop, List.takeWhile_append_dropWhile]
    · cases h
  · rintro ⟨credentials, hcred, rfl⟩
    have hat : isCredential '@' = false := by decide
    rw [List.dropWhile_append_of_pos hcred.chars, List.takeWhile_append_of_pos hcred.chars,
      List.dropWhile_cons_of_neg (by simp [hat]), List.takeWhile_cons_of_neg (by simp [hat])]
    simp [hcred.ne_nil]

/-- A URL with credentials at the front of a text. -/
structure UrlAt (cs scheme credentials rest : List Char) : Prop where
  eq : cs = urlFront scheme credentials ++ rest
  scheme : IsScheme scheme
  credentials : IsCredentials credentials

namespace UrlAt

variable {cs scheme credentials rest : List Char}

theorem exists_of_urlRule {x : List Char × List Char} (h : urlRule cs = some x) :
    ∃ scheme credentials rest, UrlAt cs scheme credentials rest ∧ x = (maskedUrl scheme, rest) := by
  obtain ⟨⟨scheme, rest⟩, hurl, rfl⟩ := Option.map_eq_some_iff.1 h
  unfold url? at hurl
  split at hurl
  · next c r =>
    split at hurl
    · next hc =>
      split at hurl
      · next behind hdrop =>
        obtain ⟨rest', hrest, heq⟩ := Option.map_eq_some_iff.1 hurl
        cases heq
        obtain ⟨credentials, hcred, rfl⟩ := credentials?_eq_some_iff.1 hrest
        refine ⟨c :: r.takeWhile isSchemeChar, credentials, rest, ⟨?_, ⟨⟨c, rfl, hc⟩, ?_⟩, hcred⟩,
          rfl⟩
        · have hr := List.takeWhile_append_dropWhile (p := isSchemeChar) (l := r)
          rw [hdrop] at hr
          rw [urlFront_append, List.cons_append, hr]
        · rw [List.forall_mem_cons]
          exact ⟨isSchemeChar_of_isLower hc, fun d hd => List.mem_takeWhile_imp hd⟩
      · cases hurl
    · cases hurl
  · cases hurl

theorem urlRule_eq (h : UrlAt cs scheme credentials rest) :
    urlRule cs = some (maskedUrl scheme, rest) := by
  obtain ⟨rfl, ⟨⟨c, hhead, hc⟩, hchars⟩, hcred⟩ := h
  cases scheme with
  | nil => cases hhead
  | cons d r =>
    cases hhead
    obtain ⟨-, hr⟩ := List.forall_mem_cons.1 hchars
    have hcolon : isSchemeChar ':' = false := by decide
    have hrest : credentials? (credentials ++ '@' :: rest) = some rest :=
      credentials?_eq_some_iff.2 ⟨credentials, hcred, rfl⟩
    rw [urlFront_append, List.cons_append, urlRule, url?, if_pos hc,
      List.dropWhile_append_of_pos hr, List.dropWhile_cons_of_neg (by simp [hcolon]),
      List.takeWhile_append_of_pos hr, List.takeWhile_cons_of_neg (by simp [hcolon]),
      List.append_nil]
    show Option.map _ (Option.map _ (credentials? (credentials ++ '@' :: rest))) = _
    rw [hrest]
    rfl

theorem append (h : UrlAt cs scheme credentials rest) (y : List Char) :
    UrlAt (cs ++ y) scheme credentials (rest ++ y) where
  eq := by rw [h.eq, List.append_assoc]
  scheme := h.scheme
  credentials := h.credentials

end UrlAt

theorem urlRule_eq_none {cs : List Char}
    (h : ∀ scheme credentials rest, ¬ UrlAt cs scheme credentials rest) : urlRule cs = none := by
  cases hrule : urlRule cs with
  | none => rfl
  | some x =>
    obtain ⟨scheme, credentials, rest, hat, -⟩ := UrlAt.exists_of_urlRule hrule
    exact absurd hat (h scheme credentials rest)

theorem urlRule_consumes : urlRule.Consumes := by
  intro cs out rest h
  obtain ⟨scheme, credentials, rest', hat, heq⟩ := UrlAt.exists_of_urlRule h
  cases heq
  exact ⟨urlFront scheme credentials, by simp [urlFront], hat.eq⟩

theorem IsScheme.urlFront_eq_cons {scheme : List Char} (h : IsScheme scheme)
    (credentials : List Char) : ∃ c d cs, urlFront scheme credentials = c :: d :: cs := by
  obtain ⟨c, hc, -⟩ := h.head
  obtain ⟨r, rfl⟩ := List.head?_eq_some_iff.1 hc
  cases r with
  | nil => exact ⟨_, _, _, rfl⟩
  | cons d r => exact ⟨_, _, _, rfl⟩

theorem not_isBlank_of_mem_urlFront {scheme credentials : List Char} (hs : IsScheme scheme)
    (hc : IsCredentials credentials) {c : Char} (h : c ∈ urlFront scheme credentials) :
    isBlank c = false := by
  have hblank : ∀ d, isCredential d = true → isBlank d = false := by
    intro d hd
    rw [isCredential, Bool.and_eq_true, Bool.not_eq_true'] at hd
    exact hd.2
  simp only [urlFront, List.mem_append, List.mem_cons, List.not_mem_nil, or_false] at h
  rcases h with h | rfl | rfl | rfl | h | rfl
  · exact hblank c (isCredential_of_isSchemeChar (hs.chars c h))
  · decide
  · decide
  · decide
  · exact hblank c (hc.chars c h)
  · decide

theorem maskUrls_append_blank {b : Char} (hb : isBlank b = true) (cs back : List Char) :
    maskUrls (cs ++ [b] ++ back) = maskUrls (cs ++ [b]) ++ maskUrls back := by
  have hnone : ∀ s, s ≠ [] → s <:+ cs ++ [b] → urlRule s = none → urlRule (s ++ back) = none := by
    intro s hs hsuffix hrule
    -- What is left of the text ends with the blank, too.
    obtain ⟨s', rfl, -⟩ := (List.suffix_concat_iff.1 hsuffix).resolve_left hs
    refine urlRule_eq_none fun scheme credentials rest hat => ?_
    have heq := hat.eq
    rw [List.append_assoc] at heq
    have hsolid : b ∉ urlFront scheme credentials := by
      intro hmem
      rw [not_isBlank_of_mem_urlFront hat.scheme hat.credentials hmem] at hb
      cases hb
    have hfits : ∀ rest', UrlAt (s' ++ [b]) scheme credentials rest' → False := by
      intro rest' hat'
      rw [hat'.urlRule_eq] at hrule
      cases hrule
    rcases List.append_eq_append_iff.1 heq with ⟨as, hfront, hrest⟩ | ⟨bs, hfront, hrest⟩
    · cases as with
      | nil =>
        rw [List.append_nil] at hfront
        exact hfits [b] ⟨by rw [hfront], hat.scheme, hat.credentials⟩
      | cons d as =>
        refine hsolid ?_
        rw [hfront, (List.cons.inj hrest).1]
        exact List.mem_append_right _ List.mem_cons_self
    · refine hfits (bs ++ [b]) ⟨?_, hat.scheme, hat.credentials⟩
      rw [hfront, List.append_assoc]
  have hsome : ∀ s o r, urlRule s = some (o, r) → urlRule (s ++ back) = some (o, r ++ back) := by
    intro s o r h
    obtain ⟨scheme, credentials, rest, hat, heq⟩ := UrlAt.exists_of_urlRule h
    cases heq
    exact (hat.append back).urlRule_eq
  exact ((Scans.to_end urlRule_consumes (cs ++ [b])).extend urlRule_consumes hnone
    hsome).replaceAll_eq urlRule_consumes

theorem IsScheme.append {p scheme : List Char} (hp : IsScheme p) (hs : IsScheme scheme) :
    IsScheme (p ++ scheme) where
  head := by
    obtain ⟨c, hc, hlower⟩ := hp.head
    exact ⟨c, by rw [List.head?_append, hc]; rfl, hlower⟩
  chars c hc := (List.mem_append.1 hc).elim (hp.chars c) (hs.chars c)

theorem IsScheme.of_append {p q : List Char} (h : IsScheme (p ++ q)) (hp : p ≠ []) :
    IsScheme p where
  head := by
    obtain ⟨c, hc, hlower⟩ := h.head
    obtain ⟨d, r, rfl⟩ := List.exists_cons_of_ne_nil hp
    exact ⟨c, hc, hlower⟩
  chars c hc := h.chars c (List.mem_append_left q hc)

private theorem dropWhile_urlFront {scheme : List Char} (hs : IsScheme scheme)
    (credentials rest : List Char) :
    (urlFront scheme credentials ++ rest).dropWhile isCredential =
      '/' :: '/' :: (credentials ++ '@' :: rest) := by
  rw [urlFront_append, List.dropWhile_append_of_pos fun c hc =>
    isCredential_of_isSchemeChar (hs.chars c hc)]
  rfl

theorem urlFront_append_ne {scheme t : List Char} (hs : IsScheme scheme)
    (ht : ∀ c ∈ t, isCredential c = true) (credentials rest rest' : List Char) :
    urlFront scheme credentials ++ rest ≠ t ++ '@' :: rest' := by
  intro heq
  have hdrop := dropWhile_urlFront hs credentials rest
  rw [heq, List.dropWhile_append_of_pos ht] at hdrop
  exact absurd (List.cons.inj hdrop).1 (by decide)

theorem IsScheme.isLower_of_urlFront {scheme credentials rest cs : List Char} {c : Char}
    (hs : IsScheme scheme) (h : urlFront scheme credentials ++ rest = c :: cs) :
    isLower c = true := by
  obtain ⟨d, hd, hlower⟩ := hs.head
  obtain ⟨r, rfl⟩ := List.head?_eq_some_iff.1 hd
  rw [urlFront_append] at h
  cases h
  exact hlower

theorem urlAt_of_append {p scheme credentials rest scheme' credentials' rest' : List Char}
    (hs : IsScheme scheme) (hp : p ≠ [])
    (h : UrlAt (p ++ (urlFront scheme credentials ++ rest)) scheme' credentials' rest') :
    IsScheme p ∨ ∃ q, UrlAt p scheme' credentials' q := by
  have hslash : ∀ cs, urlFront scheme credentials ++ rest ≠ '/' :: cs := fun cs heq =>
    Bool.false_ne_true (hs.isLower_of_urlFront heq)
  rcases List.append_eq_append_iff.1 h.eq with ⟨as, hfront, hback⟩ | ⟨bs, hfront, -⟩
  · rcases List.append_eq_append_iff.1 hfront with ⟨bs, hp', has⟩ | ⟨bs, hscheme, -⟩
    · -- The front reaches to the colon of the other URL, or over it.
      match bs, hp', has with
      | [], hp', _ =>
        left
        rw [hp', List.append_nil]
        exact h.scheme
      | [c], _, has =>
        obtain ⟨-, rfl⟩ := List.cons.inj has
        exact (hslash _ hback).elim
      | [c, d], _, has =>
        obtain ⟨-, rfl⟩ := List.cons.inj (List.cons.inj has).2
        exact (hslash _ hback).elim
      | c :: d :: e :: t, hp', has =>
        simp only [List.cons_append, List.cons.injEq] at has
        obtain ⟨rfl, rfl, rfl, has⟩ := has
        -- The URL would begin within the credentials of the other one.
        have hend : ∀ t', credentials' = t ++ t' → as = t' ++ ['@'] → False := by
          rintro t' hcred rfl
          have hchars : ∀ c ∈ t', isCredential c = true := fun c hc =>
            h.credentials.chars c (hcred ▸ List.mem_append_right t hc)
          rw [List.append_assoc] at hback
          exact urlFront_append_ne hs hchars _ _ _ hback
        rcases List.append_eq_append_iff.1 has with ⟨t', ht, hat⟩ | ⟨t', hcred, has⟩
        · cases t' with
          | nil => exact (hend [] (by rw [ht, List.append_nil, List.append_nil]) hat.symm).elim
          | cons f t' =>
            obtain ⟨rfl, hnil⟩ := List.cons.inj hat
            rw [(List.append_eq_nil_iff.1 hnil.symm).1] at ht
            right
            refine ⟨[], ?_, h.scheme, h.credentials⟩
            rw [hp', ht, List.append_nil]
            rfl
        · exact (hend t' hcred has).elim
    · left
      have hscheme' := h.scheme
      rw [hscheme] at hscheme'
      exact hscheme'.of_append hp
  · exact .inr ⟨bs, hfront, h.scheme, h.credentials⟩

/-- A URL that starts before another one has ended there, or its scheme goes on in the other's. -/
theorem front_urlRule {scheme rest p : List Char} (hs : IsScheme scheme) (hp : p ≠ []) :
    Front urlRule
      (fun credentials : { cs // IsCredentials cs } => urlFront scheme credentials ++ rest)
      (fun _ => rest) p := by
  by_cases hscheme : IsScheme p
  · refine .through (maskedUrl (p ++ scheme)) fun credentials => ?_
    refine UrlAt.urlRule_eq ⟨?_, hscheme.append hs, credentials.2⟩
    simp [urlFront]
  by_cases hurl : ∃ scheme' credentials' q, UrlAt p scheme' credentials' q
  · obtain ⟨scheme', credentials', q, hat⟩ := hurl
    refine .within (maskedUrl scheme') q ?_ fun credentials => (hat.append _).urlRule_eq
    exact urlRule_consumes.length_lt hat.urlRule_eq
  refine .none fun credentials => urlRule_eq_none fun scheme' credentials' rest' hat => ?_
  rcases urlAt_of_append hs hp hat with h | ⟨q, h⟩
  · exact hscheme h
  · exact hurl ⟨scheme', credentials', q, h⟩

/-- The credentials of a URL leave no trace, whatever stands before it. -/
theorem maskUrls_urlFront {scheme : List Char} (hs : IsScheme scheme) (front rest : List Char) :
    ∃ out, ∀ credentials, IsCredentials credentials →
      maskUrls (front ++ (urlFront scheme credentials ++ rest)) = out := by
  have hleft : ∀ credentials : { cs // IsCredentials cs },
      rest.length < (urlFront scheme credentials ++ rest).length := fun credentials =>
    urlRule_consumes.length_lt (UrlAt.urlRule_eq ⟨rfl, hs, credentials.2⟩)
  rcases scans_front urlRule_consumes hleft (fun p hp => front_urlRule hs hp) front with
    ⟨out, hscan⟩ | ⟨out, hscan⟩
  · refine ⟨out ++ (maskedUrl scheme ++ maskUrls rest), fun credentials hc => ?_⟩
    have hurl : UrlAt (urlFront scheme credentials ++ rest) scheme credentials rest := ⟨rfl, hs, hc⟩
    rw [maskUrls_eq, (hscan ⟨credentials, hc⟩).replaceAll_eq urlRule_consumes,
      replaceAll_skip urlRule_consumes hurl.urlRule_eq]
    rfl
  · refine ⟨out ++ maskUrls rest, fun credentials hc => ?_⟩
    exact (hscan ⟨credentials, hc⟩).1.replaceAll_eq urlRule_consumes

end LoraBridge.Sanitize
