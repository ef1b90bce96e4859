import LoraBridge.Sanitize

/-! Texts that are cut when they are too long. The place of the cut is looked for backwards, and
found within three steps: it is the last one between two characters. What stands in front of it
is kept as it is. -/
namespace LoraBridge.Sanitize

@[simp] theorem byteCount_nil : byteCount [] = 0 := rfl

@[simp] theorem byteCount_cons (c : Char) (cs : List Char) :
    byteCount (c :: cs) = c.utf8Size + byteCount cs := rfl

@[simp] theorem takeBytes_nil (n : Nat) : takeBytes n [] = [] := by cases n <;> rfl

theorem takeBytes_cons (n : Nat) (c : Char) (cs : List Char) : takeBytes n (c :: cs) =
    if c.utf8Size ≤ n then c :: takeBytes (n - c.utf8Size) cs else [] := by cases n <;> rfl

@[simp] private theorem isBoundary_nil (n : Nat) : isBoundary [] (n + 1) = false := rfl

@[simp] private theorem isBoundary_zero (cs : List Char) : isBoundary cs 0 = true := by
  cases cs <;> rfl

private theorem isBoundary_cons (c : Char) (cs : List Char) (n : Nat) :
    isBoundary (c :: cs) (n + 1) =
      (decide (c.utf8Size ≤ n + 1) && isBoundary cs (n + 1 - c.utf8Size)) := rfl

private theorem boundary?_succ (cs : List Char) (n : Nat) : boundary? cs (n + 1) =
    if isBoundary cs (n + 1) then some (n + 1) else boundary? cs n := rfl

@[simp] theorem byteCount_append (cs ds : List Char) :
    byteCount (cs ++ ds) = byteCount cs + byteCount ds := by
  induction cs with
  | nil => exact (Nat.zero_add _).symm
  | cons c cs ih => rw [List.cons_append, byteCount_cons, byteCount_cons, ih, Nat.add_assoc]

theorem byteCount_ofList (cs : List Char) : byteCount cs = (String.ofList cs).utf8ByteSize := by
  induction cs with
  | nil => rfl
  | cons c cs ih =>
    have hcons : String.ofList (c :: cs) = String.singleton c ++ String.ofList cs := by
      rw [String.singleton_eq_ofList, ← String.ofList_append, List.singleton_append]
    rw [byteCount_cons, ih, hcons, String.utf8ByteSize_append, String.utf8ByteSize_singleton]

@[simp] theorem byteCount_toList (s : String) : byteCount s.toList = s.utf8ByteSize := by
  rw [byteCount_ofList, String.ofList_toList]

theorem takeBytes_append {n : Nat} {front : List Char} (h : byteCount front ≤ n) (cs : List Char) :
    takeBytes n (front ++ cs) = front ++ takeBytes (n - byteCount front) cs := by
  induction front generalizing n with
  | nil => rfl
  | cons c front ih =>
    rw [byteCount_cons] at h
    have hc : c.utf8Size ≤ n := by omega
    rw [List.cons_append, takeBytes_cons, if_pos hc, ih (by omega), byteCount_cons, Nat.sub_sub,
      List.cons_append]

theorem takeBytes_prefix (n : Nat) (cs : List Char) : takeBytes n cs <+: cs := by
  induction cs generalizing n with
  | nil => exact List.prefix_rfl
  | cons c cs ih =>
    rw [takeBytes_cons]
    split
    · exact List.cons_prefix_cons.2 ⟨rfl, ih _⟩
    · exact List.nil_prefix

theorem byteCount_takeBytes_le (n : Nat) (cs : List Char) : byteCount (takeBytes n cs) ≤ n := by
  induction cs generalizing n with
  | nil => exact Nat.zero_le n
  | cons c cs ih =>
    rw [takeBytes_cons]
    split
    · next hc =>
      have hrest := ih (n - c.utf8Size)
      rw [byteCount_cons]
      omega
    · exact Nat.zero_le n

/-- At most three bytes are left over: the next character would have fitted. -/
theorem le_byteCount_takeBytes {n : Nat} {cs : List Char} (h : n ≤ byteCount cs) :
    n ≤ byteCount (takeBytes n cs) + 3 := by
  induction cs generalizing n with
  | nil => exact Nat.le_trans h (Nat.zero_le _)
  | cons c cs ih =>
    rw [byteCount_cons] at h
    have hfour := c.utf8Size_le_four
    rw [takeBytes_cons]
    split
    · next hc =>
      have hrest := @ih (n - c.utf8Size) (by omega)
      rw [byteCount_cons]
      omega
    · omega

@[simp] theorem isBoundary_iff (cs : List Char) (n : Nat) :
    isBoundary cs n = true ↔ byteCount (takeBytes n cs) = n := by
  induction cs generalizing n with
  | nil => cases n <;> simp
  | cons c cs ih =>
    have hpos := c.utf8Size_pos
    cases n with
    | zero => simp [takeBytes_cons, Nat.not_le.2 hpos]
    | succ n =>
      rw [isBoundary_cons, takeBytes_cons, Bool.and_eq_true, decide_eq_true_eq, ih]
      split
      · next hc =>
        rw [byteCount_cons]
        omega
      · next hc =>
        simp [hc]

theorem takeBytes_succ {n : Nat} {cs : List Char} (h : isBoundary cs (n + 1) = false) :
    takeBytes (n + 1) cs = takeBytes n cs := by
  induction cs generalizing n with
  | nil => rfl
  | cons c cs ih =>
    have hpos := c.utf8Size_pos
    rw [isBoundary_cons, Bool.and_eq_false_iff, decide_eq_false_iff_not] at h
    rw [takeBytes_cons, takeBytes_cons]
    by_cases hc : c.utf8Size ≤ n
    · have hsucc : n + 1 - c.utf8Size = n - c.utf8Size + 1 := by omega
      rw [if_pos hc, if_pos (Nat.le_succ_of_le hc), hsucc]
      rw [hsucc] at h
      rw [ih (h.resolve_left fun hn => hn (Nat.le_succ_of_le hc))]
    · rw [if_neg hc, if_neg]
      intro hc'
      -- The character would end exactly there.
      have hn : n + 1 - c.utf8Size = 0 := by omega
      rw [hn] at h
      rcases h with h | h
      · exact h hc'
      · cases cs <;> cases h

@[simp] theorem boundary?_eq (cs : List Char) (n : Nat) :
    boundary? cs n = some (byteCount (takeBytes n cs)) := by
  induction n with
  | zero =>
    have hzero := byteCount_takeBytes_le 0 cs
    rw [boundary?, if_pos (isBoundary_zero cs), Nat.le_zero.1 hzero]
  | succ n ih =>
    rw [boundary?_succ]
    split
    · next h => rw [(isBoundary_iff cs _).1 h]
    · next h => rw [ih, takeBytes_succ (Bool.not_eq_true _ ▸ h)]

@[simp] theorem takeBytes_byteCount (n : Nat) (cs : List Char) :
    takeBytes (byteCount (takeBytes n cs)) cs = takeBytes n cs := by
  obtain ⟨back, hback⟩ := takeBytes_prefix n cs
  have htake := takeBytes_append (Nat.le_refl (byteCount (takeBytes n cs))) back
  rw [hback, Nat.sub_self] at htake
  rw [htake]
  cases back with
  | nil => exact List.append_nil _
  | cons c back => rw [takeBytes_cons, if_neg (Nat.not_le.2 c.utf8Size_pos), List.append_nil]

def kept (cs : List Char) : List Char :=
  takeBytes (maxBytes - byteCount cutMark) cs

theorem truncate_eq (cs : List Char) :
    truncate cs = if byteCount cs ≤ maxBytes then cs else kept cs ++ cutMark := by
  simp only [truncate, boundary?_eq, Option.getD_some, takeBytes_byteCount, kept]

theorem truncate_ne {front back : List Char} {c d : Char} (hne : c ≠ d)
    (hsize : c.utf8Size = d.utf8Size)
    (hfront : byteCount front + c.utf8Size ≤ maxBytes - byteCount cutMark) :
    truncate (front ++ c :: back) ≠ truncate (front ++ d :: back) := by
  have hcount : byteCount (front ++ c :: back) = byteCount (front ++ d :: back) := by
    rw [byteCount_append, byteCount_append, byteCount_cons, byteCount_cons, hsize]
  have hfit : byteCount front ≤ maxBytes - byteCount cutMark := by omega
  have hc : c.utf8Size ≤ maxBytes - byteCount cutMark - byteCount front := by omega
  have hd : d.utf8Size ≤ maxBytes - byteCount cutMark - byteCount front := by omega
  rw [truncate_eq, truncate_eq, hcount]
  split
  · intro heq
    exact hne (List.cons.inj (List.append_cancel_left heq)).1
  · rw [kept, kept, takeBytes_append hfit, takeBytes_append hfit, takeBytes_cons,
      takeBytes_cons, if_pos hc, if_pos hd, List.append_assoc, List.append_assoc]
    intro heq
    exact hne (List.cons.inj (List.append_cancel_left heq)).1

theorem isValid_iff (s : String) (n : Nat) :
    (⟨n⟩ : String.Pos.Raw).IsValid s ↔ isBoundary s.toList n = true := by
  rw [isBoundary_iff, String.Pos.Raw.isValid_iff_exists_append]
  constructor
  · rintro ⟨front, back, rfl, hn⟩
    have hsize : n = byteCount front.toList := by
      rw [byteCount_toList]
      exact congrArg String.Pos.Raw.byteIdx hn
    rw [String.toList_append, hsize, takeBytes_append (Nat.le_refl _), Nat.sub_self,
      byteCount_append]
    cases back.toList with
    | nil => rfl
    | cons c cs => rw [takeBytes_cons, if_neg (Nat.not_le.2 c.utf8Size_pos)]; rfl
  · intro h
    obtain ⟨back, hback⟩ := takeBytes_prefix n s.toList
    refine ⟨String.ofList (takeBytes n s.toList), String.ofList back, ?_, ?_⟩
    · rw [← String.ofList_append, hback, String.ofList_toList]
    · ext
      rw [String.byteIdx_rawEndPos, ← byteCount_ofList, h]

def redacted (message : String) : String :=
  String.ofList (maskUrls (maskSecrets message.toList))

/-- The last place between two characters of a text, within a number of bytes. -/
structure LastBoundary (s : String) (limit cut : Nat) : Prop where
  valid : (⟨cut⟩ : String.Pos.Raw).IsValid s
  le : cut ≤ limit
  last : ∀ n ≤ limit, (⟨n⟩ : String.Pos.Raw).IsValid s → n ≤ cut

theorem lastBoundary_takeBytes (s : String) (limit : Nat) :
    LastBoundary s limit (byteCount (takeBytes limit s.toList)) where
  valid := by
    rw [isValid_iff, isBoundary_iff, takeBytes_byteCount]
  le := byteCount_takeBytes_le limit s.toList
  last := by
    intro n hn hvalid
    rw [isValid_iff, isBoundary_iff] at hvalid
    obtain ⟨back, hback⟩ := takeBytes_prefix n s.toList
    have htake := takeBytes_append (Nat.le_trans (Nat.le_of_eq hvalid) hn) back
    rw [hback] at htake
    rw [htake, byteCount_append, hvalid]
    exact Nat.le_add_right n _

/-- How long the text of a message is once it is sanitized, and what it consists of. -/
structure Bounded (message : String) : Prop where
  short : (redacted message).utf8ByteSize ≤ 500 → sanitize message = redacted message
  /-- The search for the cut starts at 486 bytes, and goes back by three of them at most. -/
  long : 500 < (redacted message).utf8ByteSize → ∃ steps ≤ 3,
    boundary? (redacted message).toList 486 = some (486 - steps) ∧
    LastBoundary (redacted message) 486 (486 - steps) ∧
    (sanitize message).toByteArray =
      (redacted message).toByteArray.extract 0 (486 - steps) ++ "...[truncated]".toByteArray ∧
    497 ≤ (sanitize message).utf8ByteSize
  size : (sanitize message).utf8ByteSize ≤ 500
  utf8 : (sanitize message).toByteArray.IsValidUTF8

@[simp] theorem limit_eq : maxBytes - byteCount cutMark = 486 := by decide

@[simp] theorem ofList_cutMark : String.ofList cutMark = "...[truncated]" :=
  String.ofList_toList

theorem sanitize_eq (message : String) : sanitize message =
    if (redacted message).utf8ByteSize ≤ 500 then redacted message
    else String.ofList (kept (redacted message).toList) ++ "...[truncated]" := by
  have hlist : (redacted message).toList = maskUrls (maskSecrets message.toList) :=
    String.toList_ofList
  rw [sanitize, chars, ← hlist, truncate_eq, byteCount_toList, maxBytes]
  split
  · rw [String.ofList_toList]
  · rw [String.ofList_append, ofList_cutMark]

theorem bounded_of_long {message : String} (h : ¬ (redacted message).utf8ByteSize ≤ 500) :
    ∃ steps ≤ 3, boundary? (redacted message).toList 486 = some (486 - steps) ∧
      LastBoundary (redacted message) 486 (486 - steps) ∧
      (sanitize message).toByteArray =
        (redacted message).toByteArray.extract 0 (486 - steps) ++ "...[truncated]".toByteArray ∧
      (sanitize message).utf8ByteSize = 486 - steps + 14 := by
  have hsanitize := sanitize_eq message
  rw [if_neg h] at hsanitize
  generalize redacted message = s at h hsanitize
  have hlast := lastBoundary_takeBytes s 486
  have hge := @le_byteCount_takeBytes 486 s.toList (by rw [byteCount_toList]; omega)
  obtain ⟨back, hback⟩ := takeBytes_prefix 486 s.toList
  have hfront : s = String.ofList (takeBytes 486 s.toList) ++ String.ofList back := by
    rw [← String.ofList_append, hback, String.ofList_toList]
  have hcut : 486 - (486 - byteCount (takeBytes 486 s.toList)) =
      byteCount (takeBytes 486 s.toList) := by
    have hle := hlast.le
    omega
  refine ⟨486 - byteCount (takeBytes 486 s.toList), by omega, ?_⟩
  rw [hcut]
  refine ⟨boundary?_eq _ _, hlast, ?_, ?_⟩
  · have hextract : s.toByteArray.extract 0 (byteCount (takeBytes 486 s.toList)) =
        (String.ofList (takeBytes 486 s.toList)).toByteArray := by
      have hbytes := congrArg String.toByteArray hfront
      rw [String.toByteArray_append] at hbytes
      rw [hbytes, byteCount_ofList]
      exact ByteArray.extract_append_eq_left rfl
    rw [hsanitize, String.toByteArray_append, hextract, kept, limit_eq]
  · rw [hsanitize, String.utf8ByteSize_append, kept, limit_eq, ← byteCount_ofList]
    rfl

theorem bounded (message : String) : Bounded message := by
  by_cases h : (redacted message).utf8ByteSize ≤ 500
  · have hsanitize := sanitize_eq message
    rw [if_pos h] at hsanitize
    refine ⟨fun _ => hsanitize, fun hlong => absurd h (Nat.not_le.2 hlong), ?_,
      (sanitize message).isValidUTF8⟩
    rwa [hsanitize]
  · obtain ⟨steps, hsteps, hsearch, hlast, hbytes, hsize⟩ := bounded_of_long h
    refine ⟨fun hshort => absurd hshort h, fun _ => ?_, by omega, (sanitize message).isValidUTF8⟩
    exact ⟨steps, hsteps, hsearch, hlast, hbytes, by omega⟩

end LoraBridge.Sanitize
