import LoraBridge.Backend.Basic
import LoraBridge.Proofs.Sanitize.Settled
import LoraBridge.Proofs.Sanitize.Truncation

/-! Texts that are sanitized twice. What was masked is left as it is, and so is the mark of a cut,
unless the cut was made in the value of a secret: the mark is a part of that value then, and is
masked with it. The reason of a lost connection is sanitized when it is stored, and once more for
those who wait for the connection. -/
namespace LoraBridge.Sanitize

open Text (isBlank)

/-- A text that ends in a secret: behind its separator, in the blanks there or in its value. -/
structure OpenSecret where
  before : List Char
  keyword : List Char
  separator : Char
  blanks : List Char
  value : List Char
  keyword_isKeyword : IsKeyword keyword
  separator_isSeparator : isSeparator separator = true
  blanks_isBlank : ∀ c ∈ blanks, isBlank c = true
  value_solid : ∀ c ∈ value, isBlank c = false

namespace OpenSecret

variable (s : OpenSecret)

def text : List Char := s.before ++ (s.keyword ++ s.separator :: (s.blanks ++ s.value))

def masked : List Char := s.before ++ (s.keyword ++ '=' :: mask)

end OpenSecret

/-- The text of a message is too long when its secrets are masked, and the part of it that is kept
ends in a secret. -/
def CutInSecret (message : String) : Prop :=
  500 < (redacted message).utf8ByteSize ∧
    ∃ s : OpenSecret, kept (redacted message).toList = s.text

theorem not_mem_cutMark : '@' ∉ cutMark ∧ (∀ c ∈ cutMark, isSeparator c = false) ∧
    ∀ c ∈ cutMark, isBlank c = false := by
  have hseparators : cutMark.all (!isSeparator ·) = true := rfl
  have hblanks : cutMark.all (!isBlank ·) = true := rfl
  exact ⟨by decide, by simpa using hseparators, by simpa using hblanks⟩

theorem exists_of_append_eq {front y word z : List Char} {e : Char}
    (h : front ++ y = word ++ e :: z) (he : e ∉ y) : ∃ v, front = word ++ e :: v ∧ z = v ++ y := by
  rcases List.append_eq_append_iff.1 h with ⟨as, -, hy⟩ | ⟨bs, hfront, hz⟩
  · exact absurd (hy ▸ List.mem_append_right as List.mem_cons_self) he
  · cases bs with
    | nil =>
      rw [← List.nil_append y, ← hz] at he
      exact absurd List.mem_cons_self he
    | cons d v =>
      obtain ⟨rfl, htail⟩ := List.cons.inj hz
      exact ⟨v, hfront, htail⟩

theorem Settled.urls_append {front back y : List Char} (h : Settled urlRule (front ++ back))
    (hy : '@' ∉ y) : Settled urlRule (front ++ y) := by
  intro t ht out rest happly
  obtain ⟨scheme, credentials, rest', hat, heq⟩ := UrlAt.exists_of_urlRule happly
  cases heq
  have hsign : '@' ∈ t := by
    rw [hat.eq]
    simp [urlFront]
  rcases suffix_append_cases ht with ht | ⟨u, hu, rfl⟩
  · exact absurd (ht.subset hsign) hy
  · have heq : u ++ y = (scheme ++ ':' :: '/' :: '/' :: credentials) ++ '@' :: rest := by
      rw [hat.eq, urlFront]
      simp
    obtain ⟨q, rfl, rfl⟩ := exists_of_append_eq heq hy
    have hbefore : UrlAt (scheme ++ ':' :: '/' :: '/' :: credentials ++ '@' :: q ++ back) scheme
        credentials (q ++ back) :=
      ⟨by simp [urlFront], hat.scheme, hat.credentials⟩
    have hsame := h _ (List.suffix_append_self_iff.2 hu) _ _ hbefore.urlRule_eq
    rw [← List.append_assoc, List.append_left_inj] at hsame
    rw [hsame, List.append_assoc]

theorem Settled.secrets_append {front back y : List Char}
    (h : Settled secretRule (front ++ back)) (hfront : ∀ s : OpenSecret, front ≠ s.text)
    (hy : ∀ c ∈ y, isSeparator c = false) : Settled secretRule (front ++ y) := by
  intro t ht out rest happly
  obtain ⟨word, e, z, hat, -⟩ := SecretAt.exists_of_secretRule happly
  have he : e ∉ y := fun hmem => Bool.false_ne_true ((hy e hmem).symm.trans hat.separator)
  rcases suffix_append_cases ht with ht | ⟨u, hu, rfl⟩
  · exact absurd (ht.subset (hat.eq ▸ List.mem_append_right word List.mem_cons_self)) he
  · obtain ⟨v, rfl, rfl⟩ := exists_of_append_eq hat.eq he
    -- The value ends before the new end: there is a blank behind it.
    have hblank : fromBlank (v.dropWhile isBlank) ≠ [] := by
      intro hnil
      obtain ⟨before, rfl⟩ := hu
      have hsolid := List.dropWhile_eq_nil_iff.1 hnil
      refine hfront ⟨before, word, e, v.takeWhile isBlank, v.dropWhile isBlank, hat.keyword,
        hat.separator, fun c hc => List.mem_takeWhile_imp hc, fun c hc => ?_⟩ ?_
      · simpa using hsolid c hc
      · rw [OpenSecret.text, List.takeWhile_append_dropWhile]
    have hbefore : SecretAt (word ++ e :: v) word e v := by
      refine ⟨rfl, hat.keyword, hat.separator, fun hnil => ?_⟩
      rw [hnil] at hblank
      exact hblank rfl
    have hrule := fun y => hbefore.secretRule_append y
    simp only [if_neg hblank] at hrule
    have hsame := h _ (List.suffix_append_self_iff.2 hu) _ _ (hrule back)
    rw [← List.append_assoc, List.append_left_inj] at hsame
    rw [hrule] at happly
    cases happly
    rw [hsame, List.append_assoc]

theorem SecretAt.exists_of_keyword {t word y word' z : List Char} {e e' : Char}
    (hat : SecretAt (t ++ (word ++ e :: y)) word' e' z) (hword : IsKeyword word)
    (he : isSeparator e = true) (hne : t ≠ []) : ∃ v, t = word' ++ e' :: v := by
  rcases List.append_eq_append_iff.1 hat.eq with ⟨as, hkey, hz⟩ | ⟨bs, hfront, hz⟩
  · have has : ∀ c ∈ as, isSeparator c = false := fun c hc =>
      hat.keyword.not_isSeparator (hkey ▸ List.mem_append_right t hc)
    obtain ⟨rfl, -, -⟩ :=
      append_cons_inj (fun c hc => hword.not_isSeparator hc) he has hat.separator hz
    have hkeyword := hat.keyword
    rw [hkey] at hkeyword
    exact absurd (hkeyword.eq_nil_of_append hword) hne
  · obtain ⟨d, letters, rfl⟩ := List.exists_cons_of_ne_nil hword.ne_nil
    cases bs with
    | nil =>
      have hsep := hat.separator
      rw [(List.cons.inj hz).1, hword.not_isSeparator List.mem_cons_self] at hsep
      cases hsep
    | cons f v => exact ⟨v, by rw [hfront, (List.cons.inj hz).1]⟩

theorem exists_blank_of_mask {v word behind rest : List Char}
    (heq : v ++ (word ++ behind) = mask ++ rest) (hword : IsKeyword word)
    (hrest : ∀ c ∈ rest.head?, isBlank c = true) :
    ∃ b left, v = mask ++ b :: left ∧ isBlank b = true := by
  obtain ⟨d, letters, rfl⟩ := List.exists_cons_of_ne_nil hword.ne_nil
  have hd : isBlank d = false := hword.not_isBlank List.mem_cons_self
  have hsolid : ∀ more, rest ≠ d :: more := by
    rintro more rfl
    rw [hrest d rfl] at hd
    cases hd
  rcases List.append_eq_append_iff.1 heq with ⟨as, hmask, hsplit⟩ | ⟨bs, hv, hsplit⟩
  · cases as with
    | nil => exact absurd hsplit.symm (hsolid _)
    | cons f as =>
      have hstar : ∀ c ∈ mask, fold c ∉ ['p', 't', 'k', 's'] := by simp [mask, fold]
      rw [← (List.cons.inj hsplit).1] at hmask
      have hmem := hmask ▸ List.mem_append_right v List.mem_cons_self
      exact absurd hword.fold_head (hstar d hmem)
  · cases bs with
    | nil => exact absurd hsplit (hsolid _)
    | cons b left => exact ⟨b, left, hv, hrest b (by rw [hsplit]; rfl)⟩

/-- A text whose secrets are masked is kept up to a keyword with a separator, whatever follows. -/
theorem Settled.scans_key {before word behind : List Char} {e : Char}
    (h : Settled secretRule (before ++ (word ++ e :: behind))) (hword : IsKeyword word)
    (he : isSeparator e = true) (y : List Char) :
    Scans secretRule (before ++ (word ++ e :: y)) before (word ++ e :: y) := by
  refine Scans.kept_of_same fun t hne ht => ?_
  cases happly : secretRule (t ++ (word ++ e :: y)) with
  | none => exact .inl rfl
  | some x =>
    right
    obtain ⟨word', e', z, hat, rfl⟩ := SecretAt.exists_of_secretRule happly
    obtain ⟨v, rfl⟩ := hat.exists_of_keyword hword he hne
    have hvalue : (v ++ (word ++ e :: behind)).dropWhile isBlank ≠ [] := by
      obtain ⟨d, letters, rfl⟩ := List.exists_cons_of_ne_nil hword.ne_nil
      exact dropWhile_ne_nil (List.mem_append_right v List.mem_cons_self)
        (hword.not_isBlank List.mem_cons_self)
    have hbefore : SecretAt (word' ++ e' :: v ++ (word ++ e :: behind)) word' e'
        (v ++ (word ++ e :: behind)) :=
      ⟨by rw [List.append_assoc, List.cons_append], hat.keyword, hat.separator, hvalue⟩
    -- What the rule writes was a mask already, and it is one with every end.
    have hsame := h _ (List.suffix_append_self_iff.2 ht) _ _ hbefore.secretRule_eq
    simp only [List.append_assoc, List.cons_append, List.append_cancel_left_eq,
      List.cons.injEq] at hsame
    obtain ⟨rfl, hsame⟩ := hsame
    obtain ⟨b, left, rfl, hb⟩ :=
      exists_blank_of_mask hsame hword fun c hc => isBlank_of_mem_fromBlank hc
    refine ⟨word' ++ '=' :: mask, b :: left, List.append_ne_nil_of_right_ne_nil _
      (List.cons_ne_nil _ _), by simp, ?_⟩
    have hleft : ∀ c ∈ (b :: left ++ (word ++ e :: y)).head?, isBlank c = true := by
      intro c hc
      cases hc
      exact hb
    have hrule := secretRule_masked hat.keyword hleft
    rw [← happly]
    simpa using hrule

private theorem chars_eq_self {cs : List Char} (hsecrets : Settled secretRule cs)
    (hurls : Settled urlRule cs) (hsize : byteCount cs ≤ maxBytes) : chars cs = cs := by
  rw [chars, maskSecrets_eq, hsecrets.replaceAll_eq secretRule_consumes, maskUrls_eq,
    hurls.replaceAll_eq urlRule_consumes, truncate_eq, if_pos hsize]

namespace OpenSecret

variable (s : OpenSecret) {back : List Char}

theorem maskSecrets_cutMark (h : Settled secretRule (s.text ++ back)) :
    maskSecrets (s.text ++ cutMark) = s.masked := by
  have hsolid : ∀ c ∈ s.value ++ cutMark, isBlank c = false := fun c hc =>
    (List.mem_append.1 hc).elim (s.value_solid c) (not_mem_cutMark.2.2 c)
  have hdrop : (s.blanks ++ (s.value ++ cutMark)).dropWhile isBlank =
      (s.value ++ cutMark).dropWhile isBlank :=
    List.dropWhile_append_of_pos s.blanks_isBlank
  have hat : SecretAt (s.keyword ++ s.separator :: (s.blanks ++ (s.value ++ cutMark))) s.keyword
      s.separator (s.blanks ++ (s.value ++ cutMark)) := by
    refine ⟨rfl, s.keyword_isKeyword, s.separator_isSeparator, ?_⟩
    rw [hdrop]
    exact dropWhile_ne_nil (c := '.') (List.mem_append_right _ (by decide)) (by decide)
  have hend : fromBlank ((s.value ++ cutMark).dropWhile isBlank) = [] := by
    refine List.dropWhile_eq_nil_iff.2 fun c hc => ?_
    rw [hsolid c ((List.dropWhile_suffix isBlank).subset hc)]
    rfl
  have htext : ∀ y, s.text ++ y =
      s.before ++ (s.keyword ++ s.separator :: (s.blanks ++ (s.value ++ y))) := fun y => by
    simp [text]
  rw [htext] at h
  have hscan := h.scans_key s.keyword_isKeyword s.separator_isSeparator
    (s.blanks ++ (s.value ++ cutMark))
  rw [htext, maskSecrets_eq, hscan.replaceAll_eq secretRule_consumes,
    replaceAll_skip secretRule_consumes hat.secretRule_eq, hdrop, hend, replaceAll_nil,
    List.append_nil, masked]

theorem maskUrls_masked (h : Settled urlRule (s.text ++ back)) : maskUrls s.masked = s.masked := by
  have hsign : '@' ∉ s.keyword ++ '=' :: mask := by
    intro hmem
    rcases List.mem_append.1 hmem with hmem | hmem
    · have hletter := s.keyword_isKeyword.isLower_fold hmem
      revert hletter
      decide
    · revert hmem
      decide
  rw [text, List.append_assoc] at h
  exact (h.urls_append hsign).replaceAll_eq urlRule_consumes

private theorem byteCount_masked (h : byteCount s.text ≤ maxBytes - byteCount cutMark) :
    byteCount s.masked ≤ maxBytes := by
  have hmark : byteCount ('=' :: mask) ≤ byteCount cutMark := by decide
  rw [text, byteCount_append, byteCount_append] at h
  have hlimit : byteCount cutMark ≤ maxBytes := by decide
  rw [masked, byteCount_append, byteCount_append]
  omega

private theorem chars_cutMark (hsecrets : Settled secretRule (s.text ++ back))
    (hurls : Settled urlRule (s.text ++ back))
    (hsize : byteCount s.text ≤ maxBytes - byteCount cutMark) :
    chars (s.text ++ cutMark) = s.masked := by
  rw [chars, s.maskSecrets_cutMark hsecrets, s.maskUrls_masked hurls, truncate_eq,
    if_pos (s.byteCount_masked hsize)]

private theorem masked_ne : s.masked ≠ s.text ++ cutMark := by
  intro heq
  have hlen := congrArg List.length heq
  have hmask : mask.length = 3 := rfl
  have hmark : cutMark.length = 14 := by decide
  simp only [masked, text, List.length_append, List.length_cons, hmask, hmark] at hlen
  omega

end OpenSecret

private theorem sanitize_ofList (cs : List Char) :
    sanitize (String.ofList cs) = String.ofList (chars cs) := by
  rw [sanitize, String.toList_ofList]

private theorem settled_redacted (message : String) : Settled secretRule (redacted message).toList ∧
    Settled urlRule (redacted message).toList := by
  rw [redacted, String.toList_ofList]
  exact ⟨settled_secrets_maskUrls (settled_maskSecrets _), settled_maskUrls _⟩

/-- What a message looks like when it is sanitized twice. -/
theorem sanitize_sanitize (message : String) :
    (¬ CutInSecret message → sanitize (sanitize message) = sanitize message) ∧
      (500 < (redacted message).utf8ByteSize → ∀ s : OpenSecret,
        kept (redacted message).toList = s.text →
          sanitize (sanitize message) = String.ofList s.masked ∧
            sanitize (sanitize message) ≠ sanitize message) := by
  obtain ⟨hsecrets, hurls⟩ := settled_redacted message
  have hsanitize := sanitize_eq message
  by_cases hsize : (redacted message).utf8ByteSize ≤ 500
  · rw [if_pos hsize] at hsanitize
    refine ⟨fun _ => ?_, fun hlong => absurd hsize (Nat.not_le.2 hlong)⟩
    have hbytes : byteCount (redacted message).toList ≤ maxBytes := by rwa [byteCount_toList]
    rw [hsanitize, sanitize, chars_eq_self hsecrets hurls hbytes, String.ofList_toList]
  · rw [if_neg hsize, ← ofList_cutMark, ← String.ofList_append] at hsanitize
    have hkept := byteCount_takeBytes_le (maxBytes - byteCount cutMark) (redacted message).toList
    obtain ⟨back, hback⟩ :=
      takeBytes_prefix (maxBytes - byteCount cutMark) (redacted message).toList
    rw [← hback] at hsecrets hurls
    rw [← kept] at hkept hsecrets hurls
    rw [hsanitize, sanitize_ofList, CutInSecret]
    refine ⟨fun hcut => ?_, fun _ s hs => ?_⟩
    · have hopen : ∀ s : OpenSecret, kept (redacted message).toList ≠ s.text := fun s hs =>
        hcut ⟨Nat.not_le.1 hsize, s, hs⟩
      have hbytes : byteCount (kept (redacted message).toList ++ cutMark) ≤ maxBytes := by
        have hlimit := limit_eq
        rw [byteCount_append]
        omega
      rw [chars_eq_self (hsecrets.secrets_append hopen not_mem_cutMark.2.1)
        (hurls.urls_append not_mem_cutMark.1) hbytes]
    · rw [hs] at hkept hsecrets hurls ⊢
      rw [s.chars_cutMark hsecrets hurls hkept]
      exact ⟨rfl, fun heq => s.masked_ne (String.ofList_injective heq)⟩

/-- How the text of a message is shown where it is sanitized again. The reason of a loss that leaves
the backend disconnected is stored and logged, and then sanitized for those who wait. -/
structure ShownAgain (message : String) : Prop where
  same_iff : sanitize (sanitize message) = sanitize message ↔ ¬ CutInSecret message
  masked : 500 < (redacted message).utf8ByteSize → ∀ s : OpenSecret,
    kept (redacted message).toList = s.text →
      sanitize (sanitize message) = String.ofList s.masked
  lost : ∀ (b b' : Backend) (ticket : Nat) (logs : List Log.Event),
    b.handle ticket (.connectionLost message) = (b', logs) → b'.state = .disconnected →
      b'.lastError = some (sanitize message) ∧
      ⟨.error, .backend, "backend: mqtt connection error",
        [("error", .text (sanitize message))]⟩ ∈ logs ∧
      ∃ shown, b'.connectionOutcome? = some (.error (.connectFailed shown)) ∧
        (shown = sanitize message ↔ ¬ CutInSecret message)

theorem shownAgain (message : String) : ShownAgain message := by
  obtain ⟨hsame, hcut⟩ := sanitize_sanitize message
  have hiff : sanitize (sanitize message) = sanitize message ↔ ¬ CutInSecret message := by
    refine ⟨fun heq hopen => ?_, hsame⟩
    obtain ⟨hlong, s, hs⟩ := hopen
    exact (hcut hlong s hs).2 heq
  refine ⟨hiff, fun hlong s hs => (hcut hlong s hs).1, fun b b' ticket logs h hstate => ?_⟩
  have hreason : b'.lastError = some (sanitize message) := by
    cases h
    rfl
  refine ⟨hreason, ?_, sanitize (sanitize message),
    Backend.connectionOutcome?_disconnected hstate hreason, hiff⟩
  cases h
  exact List.mem_cons_self

private theorem maskUrls_eq_self {cs : List Char} (h : '@' ∉ cs) : maskUrls cs = cs := by
  have hnil : Settled urlRule ([] ++ []) := settled_nil rfl
  exact (hnil.urls_append h).replaceAll_eq urlRule_consumes

theorem maskSecrets_blanks {word blanks : List Char} {e : Char} (hword : IsKeyword word)
    (he : isSeparator e = true) (hblanks : ∀ c ∈ blanks, isBlank c = true) :
    maskSecrets (word ++ e :: blanks) = word ++ e :: blanks := by
  refine Settled.replaceAll_eq secretRule_consumes fun t ht out rest happly => ?_
  obtain ⟨word', e', z, hat, -⟩ := SecretAt.exists_of_secretRule happly
  have hparts : ∀ u, (∀ c ∈ u, isSeparator c = false) → t ≠ u ++ e :: blanks := by
    intro u hu heq
    obtain ⟨-, -, rfl⟩ := hat.parts heq hu he
    exact hat.value (List.dropWhile_eq_nil_iff.2 hblanks)
  rcases suffix_append_cases ht with ht | ⟨u, hu, heq⟩
  · rcases List.suffix_cons_iff.1 ht with heq | ht
    · exact absurd heq (hparts [] (by simp))
    · have hmem : e' ∈ blanks := ht.subset (hat.eq ▸ List.mem_append_right _ List.mem_cons_self)
      have hsep := not_isBlank_of_isSeparator hat.separator
      rw [hblanks e' hmem] at hsep
      cases hsep
  · exact absurd heq (hparts u fun c hc => hword.not_isSeparator (hu.subset hc))

def padded (n : Nat) : List Char := ['k', 'e', 'y'] ++ ':' :: List.replicate n ' '

theorem isBlank_of_mem_replicate {n : Nat} {c : Char} (h : c ∈ List.replicate n ' ') :
    isBlank c = true := by
  rw [List.eq_of_mem_replicate h]
  decide

@[simp] theorem byteCount_padded (n : Nat) : byteCount (padded n) = 4 + n := by
  have hkey : byteCount ['k', 'e', 'y', ':'] = 4 := by decide
  have hblanks : byteCount (List.replicate n ' ') = n := by
    induction n with
    | zero => rfl
    | succ n ih =>
      rw [List.replicate_succ, byteCount_cons, ih, Nat.add_comm]
      rfl
  rw [padded, List.append_cons, byteCount_append, hblanks]
  exact congrArg (· + n) hkey

private theorem redacted_padded (n : Nat) :
    redacted (String.ofList (padded n)) = String.ofList (padded n) := by
  have hsign : '@' ∉ padded n := by simp [padded]
  rw [redacted, String.toList_ofList, padded, maskSecrets_blanks (by decide) (by decide)
    fun c hc => isBlank_of_mem_replicate hc, ← padded, maskUrls_eq_self hsign]

@[simp] theorem kept_padded (n : Nat) : kept (padded (482 + n)) = padded 482 := by
  have hsplit : padded (482 + n) = padded 482 ++ List.replicate n ' ' := by
    simp only [padded, List.append_assoc, List.cons_append, ← List.replicate_add]
  have hsize : 486 ≤ byteCount (padded 482) := Nat.le_of_eq (byteCount_padded 482).symm
  rw [kept, limit_eq, hsplit, takeBytes_append (Nat.le_of_eq (byteCount_padded 482)),
    Nat.sub_eq_zero_of_le hsize]
  cases n with
  | zero => exact List.append_nil _
  | succ n => exact List.append_nil _

theorem sanitize_padded_ne : sanitize (sanitize (String.ofList (padded 500))) ≠
    sanitize (String.ofList (padded 500)) := by
  have hlong : 500 < (redacted (String.ofList (padded 500))).utf8ByteSize := by
    rw [redacted_padded, ← byteCount_ofList, byteCount_padded]
    decide
  refine ((sanitize_sanitize _).2 hlong ⟨[], ['k', 'e', 'y'], ':', List.replicate 482 ' ', [],
    by decide, by decide, fun c hc => isBlank_of_mem_replicate hc, by simp⟩ ?_).2
  rw [redacted_padded, String.toList_ofList, kept_padded 18, OpenSecret.text, List.nil_append,
    List.append_nil, padded]

end LoraBridge.Sanitize
