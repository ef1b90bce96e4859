import Mathlib.Data.List.Infix
import LoraBridge.Proofs.Sanitize.Secrets
import LoraBridge.Proofs.Sanitize.Urls

/-! Texts that a rule leaves as they are: wherever it applies, it writes what stood there. Masked
secrets are left by the rule for secrets, also when credentials are masked after them, and the
text is left by both rules then. -/
namespace LoraBridge.Sanitize

open Text (isBlank)

/-- Wherever the rule applies in a text, it writes what stood there. -/
def Settled (rule : Rule) (cs : List Char) : Prop :=
  ∀ s, s <:+ cs → ∀ out rest, rule s = some (out, rest) → s = out ++ rest

theorem settled_nil {rule : Rule} (h : rule [] = none) : Settled rule [] := by
  intro s hs out rest happly
  rw [List.suffix_nil.1 hs, h] at happly
  cases happly

theorem suffix_append_cases {s cs ds : List Char} (h : s <:+ cs ++ ds) :
    s <:+ ds ∨ ∃ t, t <:+ cs ∧ s = t ++ ds := by
  rcases List.suffix_or_suffix_of_suffix h (List.suffix_append cs ds) with hs | ⟨t, rfl⟩
  · exact .inl hs
  · exact .inr ⟨t, List.suffix_append_self_iff.1 h, rfl⟩

namespace Settled

variable {rule : Rule} {cs ds front back : List Char}

theorem of_suffix (h : Settled rule cs) (hs : ds <:+ cs) : Settled rule ds :=
  fun s hsuffix => h s (hsuffix.trans hs)

theorem append (hback : Settled rule back)
    (hfront : ∀ t, t ≠ [] → t <:+ front → ∀ out rest, rule (t ++ back) = some (out, rest) →
      t ++ back = out ++ rest) : Settled rule (front ++ back) := by
  intro s hs out rest happly
  rcases suffix_append_cases hs with h | ⟨t, ht, rfl⟩
  · exact hback s h out rest happly
  · by_cases hne : t = []
    · rw [hne, List.nil_append] at happly ⊢
      exact hback back List.suffix_rfl out rest happly
    · exact hfront t hne ht out rest happly

theorem cons {c : Char} (h : rule (c :: cs) = none) (hcs : Settled rule cs) :
    Settled rule (c :: cs) := by
  rw [← List.singleton_append]
  refine hcs.append fun t hne ht out rest happly => ?_
  have ht' := (List.suffix_cons_iff.1 ht).resolve_right fun h => hne (List.suffix_nil.1 h)
  rw [ht', List.singleton_append, h] at happly
  cases happly

theorem replaceAll_eq (hrule : rule.Consumes) (h : Settled rule cs) : replaceAll rule cs = cs := by
  induction cs using replaceAll_induction hrule with
  | nil => exact replaceAll_nil rule
  | keep c cs happly ih =>
    rw [replaceAll_keep happly, ih (h.of_suffix (List.suffix_cons c cs))]
  | skip cs out rest happly ih =>
    have heq := h cs List.suffix_rfl out rest happly
    rw [replaceAll_skip hrule happly, ih (h.of_suffix ⟨out, heq.symm⟩), ← heq]

end Settled

theorem urlRule_eq_none_of_head {c : Char} (h : isLower c = false) (cs : List Char) :
    urlRule (c :: cs) = none := by
  apply urlRule_eq_none
  intro scheme credentials rest hat
  rw [hat.scheme.isLower_of_urlFront hat.eq.symm] at h
  cases h

theorem isLower_of_isBlank {c : Char} (h : isBlank c = true) : isLower c = false := by
  rw [← Bool.not_eq_true]
  intro hlower
  have hcred := isCredential_of_isSchemeChar (isSchemeChar_of_isLower hlower)
  simp [isCredential, h] at hcred

private theorem replaceAll_blanks {rule : Rule}
    (hblank : ∀ c cs, isBlank c = true → rule (c :: cs) = none) {cs : List Char}
    (h : ∀ c ∈ cs, isBlank c = true) : replaceAll rule cs = cs := by
  induction cs with
  | nil => exact replaceAll_nil rule
  | cons c cs ih =>
    obtain ⟨hc, hcs⟩ := List.forall_mem_cons.1 h
    rw [replaceAll_keep (hblank c cs hc), ih hcs]

private theorem value_of_replaceAll {rule : Rule}
    (hblank : ∀ c cs, isBlank c = true → rule (c :: cs) = none) {cs : List Char}
    (h : (replaceAll rule cs).dropWhile isBlank ≠ []) : cs.dropWhile isBlank ≠ [] := by
  intro hnil
  rw [replaceAll_blanks hblank (List.dropWhile_eq_nil_iff.1 hnil)] at h
  exact h hnil

/-- Where the rule applies there is a first separator with a value behind it, and it writes what
stood in front of the separator and another one. -/
def KeepsKeys (rule : Rule) (same : Char → Char → Prop) : Prop :=
  ∀ cs out rest, rule cs = some (out, rest) → ∃ key e e' z more,
    cs = key ++ e :: z ∧ out = key ++ e' :: more ∧ (∀ c ∈ key, isSeparator c = false) ∧
    isSeparator e = true ∧ isSeparator e' = true ∧ same e e' ∧ z.dropWhile isBlank ≠ []

theorem KeepsKeys.exists_of_replaceAll {rule : Rule} {same : Char → Char → Prop}
    (h : KeepsKeys rule same) (hrule : rule.Consumes)
    (hblank : ∀ c cs, isBlank c = true → rule (c :: cs) = none) (hsame : ∀ e, same e e)
    {cs word z : List Char} {e : Char} (hout : replaceAll rule cs = word ++ e :: z)
    (hword : ∀ c ∈ word, isSeparator c = false) (he : isSeparator e = true)
    (hz : z.dropWhile isBlank ≠ []) : ∃ e' z', cs = word ++ e' :: z' ∧ isSeparator e' = true ∧
      same e' e ∧ z'.dropWhile isBlank ≠ [] := by
  induction cs using replaceAll_induction hrule generalizing word with
  | nil =>
    rw [replaceAll_nil] at hout
    exact absurd hout.symm (List.append_ne_nil_of_right_ne_nil word (List.cons_ne_nil e z))
  | keep c cs happly ih =>
    rw [replaceAll_keep happly] at hout
    cases word with
    | nil =>
      obtain ⟨rfl, rfl⟩ := List.cons.inj hout
      exact ⟨c, cs, rfl, he, hsame c, value_of_replaceAll hblank hz⟩
    | cons d word =>
      obtain ⟨rfl, hrest⟩ := List.cons.inj hout
      obtain ⟨e', z', rfl, hparts⟩ := ih hrest fun d hd => hword d (List.mem_cons_of_mem c hd)
      exact ⟨e', z', rfl, hparts⟩
  | skip cs out rest happly ih =>
    obtain ⟨key, e', e'', z', more, rfl, rfl, hkey, he', he'', hsame', hz'⟩ := h cs out rest happly
    rw [replaceAll_skip hrule happly, List.append_assoc, List.cons_append] at hout
    obtain ⟨rfl, rfl, -⟩ := append_cons_inj hkey he'' hword he hout
    exact ⟨e', z', rfl, he', hsame', hz'⟩

theorem exists_of_maskSecrets {cs word z : List Char} {e : Char}
    (h : maskSecrets cs = word ++ e :: z) (hword : ∀ c ∈ word, isSeparator c = false)
    (he : isSeparator e = true) (hz : z.dropWhile isBlank ≠ []) :
    ∃ e' z', cs = word ++ e' :: z' ∧ isSeparator e' = true ∧ z'.dropWhile isBlank ≠ [] := by
  have hkeeps : KeepsKeys secretRule fun _ _ => True := by
    intro cs out rest happly
    obtain ⟨key, e, z, hat, heq⟩ := SecretAt.exists_of_secretRule happly
    cases heq
    exact ⟨key, e, '=', z, mask, hat.eq, rfl, fun _ => hat.keyword.not_isSeparator, hat.separator,
      rfl, trivial, hat.value⟩
  obtain ⟨e', z', hcs, he', -, hz'⟩ := hkeeps.exists_of_replaceAll secretRule_consumes
    (fun c cs hc => secretRule_eq_none_of_head (not_isKeyword_of_isBlank hc) cs)
    (fun _ => trivial) h hword he hz
  exact ⟨e', z', hcs, he', hz'⟩

private theorem fromBlank_eq_self {cs : List Char} (h : ∀ c ∈ cs.head?, isBlank c = true) :
    fromBlank cs = cs := by
  cases cs with
  | nil => rfl
  | cons c cs => exact List.dropWhile_cons_of_neg (by simp [h c rfl])

private theorem fromBlank_mask (cs : List Char) : fromBlank (mask ++ cs) = fromBlank cs :=
  List.dropWhile_append_of_pos (List.all_eq_true.1 rfl)

private theorem dropWhile_mask (cs : List Char) : (mask ++ cs).dropWhile isBlank = mask ++ cs := rfl

theorem secretRule_masked {word cs : List Char} (hword : IsKeyword word)
    (hcs : ∀ c ∈ cs.head?, isBlank c = true) :
    secretRule (word ++ '=' :: (mask ++ cs)) = some (word ++ '=' :: mask, cs) := by
  have hat : SecretAt (word ++ '=' :: (mask ++ cs)) word '=' (mask ++ cs) :=
    ⟨rfl, hword, rfl, by rw [dropWhile_mask]; simp [mask]⟩
  rw [hat.secretRule_eq, dropWhile_mask, fromBlank_mask, fromBlank_eq_self hcs]

theorem Settled.masked {word back : List Char} (hword : IsKeyword word)
    (hback : Settled secretRule back) (hhead : ∀ c ∈ back.head?, isBlank c = true) :
    Settled secretRule (word ++ '=' :: mask ++ back) := by
  refine hback.append fun t hne ht out rest happly => ?_
  rcases suffix_append_cases ht with ht | ⟨u, hu, rfl⟩
  · -- Behind the keyword there is no letter of another one.
    obtain ⟨c, t, rfl⟩ := List.exists_cons_of_ne_nil hne
    have hletter : ∀ c ∈ '=' :: mask, fold c ∉ ['p', 't', 'k', 's'] := by simp [mask, fold]
    have hc := hletter c (ht.subset List.mem_cons_self)
    rw [List.cons_append, secretRule_eq_none_of_head fun word h => hc h.fold_head] at happly
    cases happly
  · obtain ⟨key, e, z, hat, -⟩ := SecretAt.exists_of_secretRule happly
    rw [List.append_assoc, List.cons_append] at hat happly ⊢
    obtain ⟨rfl, -, -⟩ :=
      hat.parts rfl (fun c hc => hword.not_isSeparator (hu.subset hc)) rfl
    rw [secretRule_masked hat.keyword hhead] at happly
    cases happly
    rw [List.append_assoc, List.cons_append]

/-- Masked secrets are left as they are. -/
theorem settled_maskSecrets (cs : List Char) : Settled secretRule (maskSecrets cs) := by
  rw [maskSecrets_eq]
  induction cs using replaceAll_induction secretRule_consumes with
  | nil =>
    rw [replaceAll_nil]
    exact settled_nil rfl
  | keep c cs happly ih =>
    rw [replaceAll_keep happly]
    refine ih.cons (secretRule_eq_none fun word e z hat => ?_)
    -- The secret would have been one before, too.
    cases word with
    | nil => exact hat.keyword.ne_nil rfl
    | cons d word =>
      have hword : ∀ c ∈ word, isSeparator c = false := fun c hc =>
        hat.keyword.not_isSeparator (List.mem_cons_of_mem d hc)
      obtain ⟨rfl, heq⟩ := List.cons.inj hat.eq
      obtain ⟨e', z', rfl, he', hz'⟩ :=
        exists_of_maskSecrets heq hword hat.separator hat.value
      have hbefore : SecretAt (c :: (word ++ e' :: z')) (c :: word) e' z' :=
        ⟨rfl, hat.keyword, he', hz'⟩
      rw [hbefore.secretRule_eq] at happly
      cases happly
  | skip cs out rest happly ih =>
    obtain ⟨key, e, z, hat, heq⟩ := SecretAt.exists_of_secretRule happly
    cases heq
    rw [replaceAll_skip secretRule_consumes happly]
    exact ih.masked hat.keyword (isBlank_head_maskSecrets fun c hc => isBlank_of_mem_fromBlank hc)

theorem exists_of_maskUrls {cs word z : List Char} {e : Char} (h : maskUrls cs = word ++ e :: z)
    (hword : ∀ c ∈ word, isSeparator c = false) (he : isSeparator e = true)
    (hz : z.dropWhile isBlank ≠ []) : ∃ z', cs = word ++ e :: z' ∧ z'.dropWhile isBlank ≠ [] := by
  have hkeeps : KeepsKeys urlRule Eq := by
    intro cs out rest happly
    obtain ⟨scheme, credentials, rest, hat, heq⟩ := UrlAt.exists_of_urlRule happly
    cases heq
    refine ⟨scheme, ':', ':', '/' :: '/' :: (credentials ++ '@' :: rest),
      '/' :: '/' :: (mask ++ ['@']), ?_, by simp [maskedUrl], ?_, rfl, rfl, rfl,
      List.cons_ne_nil _ _⟩
    · rw [hat.eq, urlFront_append]
    · exact fun c hc => not_isSeparator_of_isSchemeChar (hat.scheme.chars c hc)
  obtain ⟨e', z', hcs, -, rfl, hz'⟩ := hkeeps.exists_of_replaceAll urlRule_consumes
    (fun c cs hc => urlRule_eq_none_of_head (isLower_of_isBlank hc) cs) (fun _ => rfl)
    h hword he hz
  exact ⟨z', hcs, hz'⟩

theorem maskUrls_masked {word : List Char} (hword : ∀ c ∈ word, isSeparator c = false)
    (cs : List Char) :
    maskUrls (word ++ '=' :: (mask ++ cs)) = word ++ '=' :: (mask ++ maskUrls cs) := by
  have hscan : Scans urlRule (word ++ '=' :: mask ++ cs) (word ++ '=' :: mask) cs := by
    refine Scans.kept fun s hne hs => ?_
    rcases suffix_append_cases hs with hs | ⟨u, hu, rfl⟩
    · obtain ⟨c, s, rfl⟩ := List.exists_cons_of_ne_nil hne
      have hlower : ∀ c ∈ '=' :: mask, isLower c = false := by simp [mask, isLower]
      exact urlRule_eq_none_of_head (hlower c (hs.subset List.mem_cons_self)) _
    · refine urlRule_eq_none fun scheme credentials rest hat => ?_
      have heq := hat.eq
      rw [urlFront_append, List.append_assoc, List.cons_append] at heq
      have hsign := (append_cons_inj (fun c hc => hword c (hu.subset hc)) rfl
        (fun c hc => not_isSeparator_of_isSchemeChar (hat.scheme.chars c hc)) rfl heq).2.1
      exact absurd hsign (by decide)
  have hmask := hscan.replaceAll_eq urlRule_consumes
  simp only [List.append_assoc, List.cons_append] at hmask
  exact hmask

theorem isBlank_head_maskUrls {cs : List Char} (h : ∀ c ∈ cs.head?, isBlank c = true) :
    ∀ c ∈ (maskUrls cs).head?, isBlank c = true := by
  cases cs with
  | nil =>
    rw [maskUrls_eq, replaceAll_nil]
    exact nofun
  | cons b cs =>
    rw [maskUrls_eq, replaceAll_keep (urlRule_eq_none_of_head (isLower_of_isBlank (h b rfl)) cs)]
    exact h

/-- A secret in a text whose credentials are masked was one before, too, so it is masked. -/
theorem eq_of_secretRule_maskUrls {cs out rest : List Char} {c : Char}
    (h : Settled secretRule (c :: cs)) (happly : secretRule (c :: maskUrls cs) = some (out, rest)) :
    c :: maskUrls cs = out ++ rest := by
  obtain ⟨word, e, z, hat, -⟩ := SecretAt.exists_of_secretRule happly
  cases word with
  | nil => exact absurd rfl hat.keyword.ne_nil
  | cons d word =>
    have hword : ∀ c ∈ word, isSeparator c = false := fun c hc =>
      hat.keyword.not_isSeparator (List.mem_cons_of_mem d hc)
    obtain ⟨rfl, heq⟩ := List.cons.inj hat.eq
    obtain ⟨z', rfl, hz'⟩ := exists_of_maskUrls heq hword hat.separator hat.value
    have hbefore : SecretAt (c :: (word ++ e :: z')) (c :: word) e z' :=
      ⟨rfl, hat.keyword, hat.separator, hz'⟩
    have hsame := h _ List.suffix_rfl _ _ hbefore.secretRule_eq
    simp only [List.cons_append, List.append_assoc, List.cons.injEq, true_and,
      List.append_cancel_left_eq] at hsame
    obtain ⟨rfl, hz⟩ := hsame
    have hhead : ∀ c ∈ (fromBlank (z'.dropWhile isBlank)).head?, isBlank c = true :=
      fun c hc => isBlank_of_mem_fromBlank hc
    generalize fromBlank (z'.dropWhile isBlank) = rest' at hz hhead
    rw [hz, maskUrls_masked hword rest'] at happly ⊢
    have hrule := secretRule_masked hat.keyword (isBlank_head_maskUrls hhead)
    rw [List.cons_append] at hrule
    rw [hrule] at happly
    cases happly
    simp

theorem secretRule_maskedUrl {scheme credentials rest t : List Char}
    (h : Settled secretRule (urlFront scheme credentials ++ rest)) (hscheme : IsScheme scheme)
    (hne : t ≠ []) (ht : t <:+ maskedUrl scheme) (y : List Char) : secretRule (t ++ y) = none := by
  rw [maskedUrl, List.append_assoc] at ht
  rcases suffix_append_cases ht with ht | ⟨u, hu, rfl⟩
  · obtain ⟨c, t, rfl⟩ := List.exists_cons_of_ne_nil hne
    have hletter : ∀ c ∈ ':' :: '/' :: '/' :: mask ++ ['@'], fold c ∉ ['p', 't', 'k', 's'] := by
      simp [mask, fold]
    have hc := hletter c (ht.subset List.mem_cons_self)
    exact secretRule_eq_none_of_head (fun word h => hc h.fold_head) _
  · -- The scheme would have been the keyword of a secret before, which was not masked.
    refine secretRule_eq_none fun word e z hat => ?_
    rw [List.append_assoc, List.cons_append, List.cons_append] at hat
    have hsign : ∀ c ∈ u, isSeparator c = false := fun c hc =>
      not_isSeparator_of_isSchemeChar (hscheme.chars c (hu.subset hc))
    obtain ⟨rfl, -, -⟩ := hat.parts rfl hsign rfl
    have hbefore : SecretAt (word ++ ':' :: '/' :: '/' :: (credentials ++ '@' :: rest)) word ':'
        ('/' :: '/' :: (credentials ++ '@' :: rest)) :=
      ⟨rfl, hat.keyword, rfl, List.cons_ne_nil _ _⟩
    have hsuffix : word ++ ':' :: '/' :: '/' :: (credentials ++ '@' :: rest) <:+
        urlFront scheme credentials ++ rest := by
      rw [urlFront_append]
      exact List.suffix_append_self_iff.2 hu
    have hsame := h _ hsuffix _ _ hbefore.secretRule_eq
    simp at hsame

/-- Masked secrets are left also when credentials are masked. -/
theorem settled_secrets_maskUrls {cs : List Char} (h : Settled secretRule cs) :
    Settled secretRule (maskUrls cs) := by
  rw [maskUrls_eq]
  induction cs using replaceAll_induction urlRule_consumes with
  | nil => rwa [replaceAll_nil]
  | keep c cs happly ih =>
    rw [replaceAll_keep happly]
    have ih := ih (h.of_suffix (List.suffix_cons c cs))
    rw [← List.singleton_append]
    refine ih.append fun t hne ht out rest hsecret => ?_
    obtain rfl := (List.suffix_cons_iff.1 ht).resolve_right fun h => hne (List.suffix_nil.1 h)
    rw [List.singleton_append, ← maskUrls_eq] at hsecret ⊢
    exact eq_of_secretRule_maskUrls h hsecret
  | skip cs out rest happly ih =>
    obtain ⟨scheme, credentials, rest, hat, heq⟩ := UrlAt.exists_of_urlRule happly
    cases heq
    rw [replaceAll_skip urlRule_consumes happly]
    refine (ih (h.of_suffix (hat.eq ▸ List.suffix_append _ _))).append
      fun t hne ht out rest' hsecret => ?_
    rw [secretRule_maskedUrl (hat.eq ▸ h) hat.scheme hne ht] at hsecret
    cases hsecret

theorem maskedUrl_eq (scheme : List Char) : maskedUrl scheme = urlFront scheme mask := by
  simp [maskedUrl, urlFront]

private theorem isCredentials_mask : IsCredentials mask where
  ne_nil := by decide
  chars := List.all_eq_true.1 rfl

theorem exists_of_maskUrls_cons {cs z : List Char} {c : Char} (h : maskUrls cs = c :: z)
    (hc : isLower c = false) : ∃ cs', cs = c :: cs' ∧ maskUrls cs' = z := by
  rw [maskUrls_eq] at h
  cases cs with
  | nil => rw [replaceAll_nil] at h; cases h
  | cons d cs =>
    cases happly : urlRule (d :: cs) with
    | none =>
      rw [replaceAll_keep happly] at h
      obtain ⟨rfl, hz⟩ := List.cons.inj h
      exact ⟨cs, rfl, hz⟩
    | some x =>
      obtain ⟨scheme, credentials, rest, hat, rfl⟩ := UrlAt.exists_of_urlRule happly
      rw [replaceAll_skip urlRule_consumes happly, maskedUrl_eq] at h
      rw [hat.scheme.isLower_of_urlFront h] at hc
      cases hc

theorem exists_of_maskUrls_sign {cs t z : List Char} (h : maskUrls cs = t ++ '@' :: z)
    (ht : ∀ c ∈ t, isCredential c = true) : ∃ z', cs = t ++ '@' :: z' := by
  rw [maskUrls_eq] at h
  induction cs using replaceAll_induction urlRule_consumes generalizing t with
  | nil =>
    rw [replaceAll_nil] at h
    exact absurd h.symm (List.append_ne_nil_of_right_ne_nil t (List.cons_ne_nil '@' z))
  | keep c cs happly ih =>
    rw [replaceAll_keep happly] at h
    cases t with
    | nil =>
      obtain ⟨rfl, -⟩ := List.cons.inj h
      exact ⟨cs, rfl⟩
    | cons d t =>
      obtain ⟨rfl, hrest⟩ := List.cons.inj h
      obtain ⟨z', rfl⟩ := ih hrest fun d hd => ht d (List.mem_cons_of_mem c hd)
      exact ⟨z', rfl⟩
  | skip cs out rest happly ih =>
    obtain ⟨scheme, credentials, rest, hat, heq⟩ := UrlAt.exists_of_urlRule happly
    cases heq
    rw [replaceAll_skip urlRule_consumes happly, maskedUrl_eq] at h
    exact absurd h (urlFront_append_ne hat.scheme ht mask _ z)

theorem exists_of_maskUrls_front {cs scheme credentials z : List Char}
    (h : maskUrls cs = urlFront scheme credentials ++ z)
    (hscheme : ∀ c ∈ scheme, isSchemeChar c = true) (hcred : IsCredentials credentials) :
    ∃ credentials' z', IsCredentials credentials' ∧ cs = urlFront scheme credentials' ++ z' := by
  induction cs using replaceAll_induction urlRule_consumes generalizing scheme with
  | nil =>
    rw [maskUrls_eq, replaceAll_nil, urlFront_append] at h
    exact absurd h.symm (List.append_ne_nil_of_right_ne_nil scheme (List.cons_ne_nil _ _))
  | keep c cs happly ih =>
    rw [maskUrls_eq, replaceAll_keep happly] at h
    cases scheme with
    | nil =>
      rw [urlFront_append] at h
      obtain ⟨rfl, hslashes⟩ := List.cons.inj h
      obtain ⟨cs', rfl, hslash⟩ := exists_of_maskUrls_cons hslashes (by decide)
      obtain ⟨cs, rfl, hsign⟩ := exists_of_maskUrls_cons hslash (by decide)
      obtain ⟨z', rfl⟩ := exists_of_maskUrls_sign hsign hcred.chars
      exact ⟨credentials, z', hcred, (urlFront_append [] credentials z').symm⟩
    | cons d scheme =>
      obtain ⟨rfl, hrest⟩ := List.cons.inj h
      obtain ⟨credentials', z', hcred', rfl⟩ :=
        ih hrest fun d hd => hscheme d (List.mem_cons_of_mem c hd)
      exact ⟨credentials', z', hcred', rfl⟩
  | skip cs out rest happly ih =>
    obtain ⟨scheme', credentials', rest, hat, heq⟩ := UrlAt.exists_of_urlRule happly
    cases heq
    rw [maskUrls_eq, replaceAll_skip urlRule_consumes happly, maskedUrl_eq, urlFront_append,
      urlFront_append] at h
    obtain ⟨rfl, -, -⟩ := append_cons_inj
      (fun c hc => not_isSeparator_of_isSchemeChar (hat.scheme.chars c hc)) rfl
      (fun c hc => not_isSeparator_of_isSchemeChar (hscheme c hc)) rfl h
    exact ⟨credentials', rest, hat.credentials, hat.eq⟩

theorem Settled.maskedUrl {scheme back : List Char}
    (hscheme : ∀ c ∈ scheme, isSeparator c = false) (hback : Settled urlRule back) :
    Settled urlRule (maskedUrl scheme ++ back) := by
  refine hback.append fun t hne ht out rest happly => ?_
  rw [Sanitize.maskedUrl, List.append_assoc] at ht
  rcases suffix_append_cases ht with ht | ⟨u, hu, rfl⟩
  · obtain ⟨c, t, rfl⟩ := List.exists_cons_of_ne_nil hne
    have hlower : ∀ c ∈ ':' :: '/' :: '/' :: mask ++ ['@'], isLower c = false := by
      simp [mask, isLower]
    have hc := hlower c (ht.subset List.mem_cons_self)
    rw [List.cons_append, urlRule_eq_none_of_head hc] at happly
    cases happly
  · obtain ⟨scheme', credentials, rest', hat, -⟩ := UrlAt.exists_of_urlRule happly
    have heq := hat.eq
    rw [urlFront_append, List.append_assoc] at heq
    obtain ⟨rfl, -, -⟩ := append_cons_inj (fun c hc => hscheme c (hu.subset hc)) rfl
      (fun c hc => not_isSeparator_of_isSchemeChar (hat.scheme.chars c hc)) rfl heq
    -- The rule would write the mask once more.
    have hmasked : UrlAt (u ++ (':' :: '/' :: '/' :: mask ++ ['@']) ++ back) u mask back :=
      ⟨by simp [urlFront], hat.scheme, isCredentials_mask⟩
    rw [hmasked.urlRule_eq] at happly
    cases happly
    simp [Sanitize.maskedUrl]

/-- Masked credentials are left as they are. -/
theorem settled_maskUrls (cs : List Char) : Settled urlRule (maskUrls cs) := by
  rw [maskUrls_eq]
  induction cs using replaceAll_induction urlRule_consumes with
  | nil =>
    rw [replaceAll_nil]
    exact settled_nil rfl
  | keep c cs happly ih =>
    rw [replaceAll_keep happly]
    refine ih.cons (urlRule_eq_none fun scheme credentials rest hat => ?_)
    -- The URL would have been one before, too.
    obtain ⟨d, hd, hlower⟩ := hat.scheme.head
    obtain ⟨scheme', rfl⟩ := List.head?_eq_some_iff.1 hd
    obtain ⟨rfl, heq⟩ := List.cons.inj hat.eq
    obtain ⟨credentials', z, hcred, rfl⟩ := exists_of_maskUrls_front (z := rest) heq
      (fun d hd => hat.scheme.chars d (List.mem_cons_of_mem c hd)) hat.credentials
    have hbefore :
        UrlAt (c :: (urlFront scheme' credentials' ++ z)) (c :: scheme') credentials' z :=
      ⟨rfl, hat.scheme, hcred⟩
    rw [hbefore.urlRule_eq] at happly
    cases happly
  | skip cs out rest happly ih =>
    obtain ⟨scheme, credentials, rest, hat, heq⟩ := UrlAt.exists_of_urlRule happly
    cases heq
    rw [replaceAll_skip urlRule_consumes happly]
    exact ih.maskedUrl fun c hc => not_isSeparator_of_isSchemeChar (hat.scheme.chars c hc)

end LoraBridge.Sanitize
