import LoraBridge.Proofs.Json.Lexing

/-! The tree of a text. A text that is written from a tree is read as that tree, and nothing stands
behind it. -/
namespace LoraBridge.Json

def Token.isSound : Token → Bool
  | .string s => s.fault.isNone
  | .cutNumber | .fault _ => false
  | _ => true

theorem Token.Spelled.isSound {t : Token} {bs : List UInt8} (h : t.Spelled bs) :
    t.isSound = true := by
  cases h with
  | fixed h =>
    cases t with
    | number | cutNumber | string | fault => cases h
    | bool | openArray | closeArray | openObject | closeObject | comma | colon | null => rfl
  | number => rfl
  | string => rfl

theorem Laid.isSound {ts : List Token} {bytes : List UInt8} (h : Laid ts bytes) {t : Token}
    (ht : t ∈ ts) : t.isSound = true := by
  obtain ⟨bs, hbs⟩ := h.exists_spelled ht
  exact hbs.isSound

namespace Tree

theorem isChain_append {xs ys : List Token} (hxs : xs.IsChain Parted) (hys : ys.IsChain Parted)
    (hhead : ∀ y ∈ ys.head?, y.isNumber = false) : (xs ++ ys).IsChain Parted :=
  List.isChain_append.2 ⟨hxs, hys, fun _ _ y hy _ => hhead y hy⟩

theorem isChain_cons {x : Token} {xs : List Token} (hx : x.isNumber = false)
    (hxs : xs.IsChain Parted) : (x :: xs).IsChain Parted := by
  refine List.isChain_cons.2 ⟨fun y _ h => ?_, hxs⟩
  rw [hx] at h
  cases h

theorem isChain_singleton (x : Token) : [x].IsChain Parted :=
  List.isChain_cons.2 ⟨by simp, .nil⟩

theorem isChain_closing (close : Token) (hclose : close.isNumber = false) (stop : Option Fault) :
    (closing close stop).IsChain Parted ∧ ∀ t ∈ (closing close stop).head?, t.isNumber = false := by
  cases stop with
  | none => exact ⟨isChain_singleton close, by simp [closing, hclose]⟩
  | some f => exact ⟨isChain_singleton (.fault f), by simp [closing, Token.isNumber]⟩

mutual

theorem isChain_tokens : (t : Tree) → t.tokens.IsChain Parted
  | .null | .bool _ | .number _ | .cutNumber | .string _ | .fault _ => by
    rw [tokens]
    exact isChain_singleton _
  | .array items stop => by
    obtain ⟨hclosing, hhead⟩ := isChain_closing .closeArray rfl stop
    rw [tokens]
    exact isChain_cons rfl (isChain_itemTokens true items hclosing hhead).1
  | .object ms stop => by
    obtain ⟨hclosing, hhead⟩ := isChain_closing .closeObject rfl stop
    rw [tokens]
    exact isChain_cons rfl (isChain_memberTokens true ms hclosing hhead).1

theorem isChain_itemTokens (first : Bool) {ts : List Token} : (vs : List Tree) →
    ts.IsChain Parted → (∀ t ∈ ts.head?, t.isNumber = false) →
    (itemTokens first vs ++ ts).IsChain Parted ∧
      (first = false → ∀ t ∈ (itemTokens first vs ++ ts).head?, t.isNumber = false)
  | [], hts, hhead => by
    rw [itemTokens]
    exact ⟨hts, fun _ => hhead⟩
  | v :: vs, hts, hhead => by
    obtain ⟨hrest, hnext⟩ := isChain_itemTokens false vs hts hhead
    have hchain := isChain_append (isChain_tokens v) hrest (hnext rfl)
    rw [itemTokens, List.append_assoc, List.append_assoc]
    cases first with
    | true => exact ⟨hchain, by simp⟩
    | false => exact ⟨isChain_cons rfl hchain, by simp [Token.isNumber]⟩

theorem isChain_memberTokens (first : Bool) {ts : List Token} : (ms : List (Quoted × Tree)) →
    ts.IsChain Parted → (∀ t ∈ ts.head?, t.isNumber = false) →
    (memberTokens first ms ++ ts).IsChain Parted ∧
      (first = false → ∀ t ∈ (memberTokens first ms ++ ts).head?, t.isNumber = false)
  | [], hts, hhead => by
    rw [memberTokens]
    exact ⟨hts, fun _ => hhead⟩
  | (k, v) :: ms, hts, hhead => by
    obtain ⟨hrest, hnext⟩ := isChain_memberTokens false ms hts hhead
    have hchain := isChain_cons (x := .string k) rfl (isChain_cons (x := .colon) rfl
      (isChain_append (isChain_tokens v) hrest (hnext rfl)))
    rw [memberTokens, List.append_assoc, List.append_assoc]
    cases first with
    | true => exact ⟨hchain, by simp⟩
    | false => exact ⟨isChain_cons rfl hchain, by simp [Token.isNumber]⟩

end

private theorem exists_tokens (t : Tree) : ∃ u us, t.tokens = u :: us ∧ u ≠ .closeArray := by
  cases t <;> simp [tokens]

@[simp] private theorem build_firstItem (t : Tree) (rest : List Token) (frames : List Frame) :
    build (t.tokens ++ rest) .firstItem frames = build (t.tokens ++ rest) .value frames := by
  obtain ⟨u, us, hu, hne⟩ := exists_tokens t
  rw [hu]
  cases u <;> first | rfl | exact absurd rfl hne

private theorem build_openArray (rest : List Token) (frames : List Frame) :
    build (.openArray :: rest) .value frames = build rest .firstItem (.array [] :: frames) := rfl

private theorem build_openObject (rest : List Token) (frames : List Frame) :
    build (.openObject :: rest) .value frames =
      build rest .firstKey (.object [] noKey :: frames) := rfl

private theorem build_nextItem (rest : List Token) (items : List Tree) (frames : List Frame) :
    build (.comma :: rest) .next (.array items :: frames) =
      build rest .value (.array items :: frames) := rfl

private theorem build_nextMember (rest : List Token) (ms : List (Quoted × Tree)) (key : Quoted)
    (frames : List Frame) :
    build (.comma :: rest) .next (.object ms key :: frames) =
      build rest .key (.object ms key :: frames) := rfl

@[simp] private theorem build_firstKey (k : Quoted) (rest : List Token) (frames : List Frame) :
    build (.string k :: rest) .firstKey frames = build (.string k :: rest) .key frames := rfl

@[simp] theorem build_key {k : Quoted} (hk : k.fault = none) (rest : List Token)
    (ms : List (Quoted × Tree)) (key : Quoted) (frames : List Frame) :
    build (.string k :: .colon :: rest) .key (.object ms key :: frames) =
      build rest .value (.object ms k :: frames) := by
  obtain ⟨ps, fault⟩ := k
  cases hk
  rfl

private theorem eq_none_of_closing {close : Token} {stop : Option Fault}
    (h : ∀ t ∈ closing close stop, t.isSound = true) : stop = none := by
  cases stop with
  | none => rfl
  | some f => cases h (.fault f) List.mem_cons_self

mutual

-- The induction is on the tree, with any tokens behind it: the builder looks at what comes next
-- only after it has put a tree into its place.
theorem build_tokens (rest : List Token) : (t : Tree) → (∀ u ∈ t.tokens, u.isSound = true) →
    (frames : List Frame) →
    build (t.tokens ++ rest) .value frames = place t rest (build rest) frames
  | .null, _, _ => by rw [tokens]; rfl
  | .bool _, _, _ => by rw [tokens]; rfl
  | .number _, _, _ => by rw [tokens]; rfl
  | .cutNumber, h, _ => by cases h .cutNumber (by simp [tokens])
  | .string ⟨ps, none⟩, _, _ => by rw [tokens]; rfl
  | .string ⟨ps, some f⟩, h, _ => by cases h (.string ⟨ps, some f⟩) (by simp [tokens])
  | .fault f, h, _ => by cases h (.fault f) (by simp [tokens])
  | .array items stop, h, frames => by
    rw [tokens] at h ⊢
    obtain ⟨-, h⟩ := List.forall_mem_cons.1 h
    obtain ⟨hitems, hstop⟩ := List.forall_mem_append.1 h
    cases eq_none_of_closing hstop
    cases items with
    | nil => rfl
    | cons v vs =>
      rw [itemTokens] at hitems ⊢
      obtain ⟨hv, hvs⟩ := List.forall_mem_append.1 hitems
      simp only [if_pos, List.nil_append, List.cons_append, List.append_assoc]
      rw [build_openArray, build_firstItem, build_tokens _ v hv]
      exact build_itemTokens rest vs hvs [v] frames
  | .object ms stop, h, frames => by
    rw [tokens] at h ⊢
    obtain ⟨-, h⟩ := List.forall_mem_cons.1 h
    obtain ⟨hmembers, hstop⟩ := List.forall_mem_append.1 h
    cases eq_none_of_closing hstop
    cases ms with
    | nil => rfl
    | cons m ms =>
      obtain ⟨k, v⟩ := m
      rw [memberTokens] at hmembers ⊢
      obtain ⟨hm, hms⟩ := List.forall_mem_append.1 hmembers
      obtain ⟨hk, hm⟩ := List.forall_mem_cons.1 hm
      obtain ⟨-, hv⟩ := List.forall_mem_cons.1 hm
      simp only [if_pos, List.nil_append, List.cons_append, List.append_assoc]
      rw [build_openObject, build_firstKey, build_key (Option.isNone_iff_eq_none.1 hk),
        build_tokens _ v hv]
      exact build_memberTokens rest ms hms [(k, v)] noKey frames

theorem build_itemTokens (rest : List Token) : (vs : List Tree) →
    (∀ u ∈ itemTokens false vs, u.isSound = true) → (acc : List Tree) → (frames : List Frame) →
    build (itemTokens false vs ++ .closeArray :: rest) .next (.array acc :: frames) =
      place (.array (acc.reverse ++ vs) none) rest (build rest) frames
  | [], _, acc, frames => by
    rw [itemTokens, List.append_nil]
    rfl
  | v :: vs, h, acc, frames => by
    rw [itemTokens] at h ⊢
    obtain ⟨hv, hvs⟩ := List.forall_mem_append.1 h
    obtain ⟨-, hv⟩ := List.forall_mem_cons.1 hv
    rw [if_neg Bool.false_ne_true, List.singleton_append, List.cons_append, List.cons_append,
      build_nextItem, List.append_assoc, build_tokens _ v hv, place, build_itemTokens rest vs hvs,
      List.reverse_cons, List.append_assoc, List.singleton_append]

theorem build_memberTokens (rest : List Token) : (ms : List (Quoted × Tree)) →
    (∀ u ∈ memberTokens false ms, u.isSound = true) → (acc : List (Quoted × Tree)) →
    (key : Quoted) → (frames : List Frame) →
    build (memberTokens false ms ++ .closeObject :: rest) .next (.object acc key :: frames) =
      place (.object (acc.reverse ++ ms) none) rest (build rest) frames
  | [], _, acc, key, frames => by
    rw [memberTokens, List.append_nil]
    rfl
  | (k, v) :: ms, h, acc, key, frames => by
    rw [memberTokens] at h ⊢
    obtain ⟨hm, hms⟩ := List.forall_mem_append.1 h
    obtain ⟨-, hm⟩ := List.forall_mem_cons.1 hm
    obtain ⟨hk, hm⟩ := List.forall_mem_cons.1 hm
    obtain ⟨-, hv⟩ := List.forall_mem_cons.1 hm
    simp only [if_neg Bool.false_ne_true, List.cons_append, List.nil_append]
    rw [build_nextMember, build_key (Option.isNone_iff_eq_none.1 hk), List.append_assoc,
      build_tokens _ v hv, place, build_memberTokens rest ms hms, List.reverse_cons,
      List.append_assoc, List.singleton_append]

end

end Tree

/-- The document of a text that is written from a tree is the tree. -/
theorem Document.ofBytes_eq {t : Tree} {bytes : List UInt8} (h : t.WrittenAs bytes) :
    ofBytes bytes = ⟨t, false⟩ := by
  have hbuild := Tree.build_tokens [] t (fun _ hu => h.isSound hu) []
  rw [List.append_nil] at hbuild
  rw [ofBytes, tokens_eq_of_laid h t.isChain_tokens, hbuild]
  rfl

end LoraBridge.Json
