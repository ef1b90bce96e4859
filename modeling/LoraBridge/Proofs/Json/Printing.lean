import LoraBridge.Proofs.Json.Parsing

/-! The text of a printed value. It is written from a tree that has the shape of the value, so it is
read as that tree. -/
namespace LoraBridge.Json

/-- What a character becomes inside a string: the bytes of it, or its code. -/
def charPieces (c : Char) : List Piece :=
  if c.toNat < 32 ∧ c ∉ ['\n', '\r', '\t', '\x08', '\x0c'] then [.unit c.toNat]
  else (String.utf8EncodeChar c).map .byte

def Quoted.ofText (s : String) : Quoted :=
  ⟨s.toList.flatMap charPieces, none⟩

theorem PiecesSpelled.plain {bs : List UInt8} (h : ∀ b ∈ bs, 128 ≤ b.toNat) :
    PiecesSpelled (bs.map .byte) bs := by
  induction bs with
  | nil => exact .nil
  | cons b bs ih =>
    obtain ⟨hb, hbs⟩ := List.forall_mem_cons.1 h
    have hspelled : (Piece.byte b).Spelled [b] := by
      refine .plain (by omega) ?_ ?_
      · rintro rfl
        exact absurd hb (by decide)
      · rintro rfl
        exact absurd hb (by decide)
    exact .cons hspelled (ih hbs)

private theorem spelled_code {n : Nat} (h : n < 32) :
    (Piece.unit n).Spelled (Text.utf8
      ['\\', 'u', '0', '0', Value.hexDigit (n / 16), Value.hexDigit (n % 16)]) := by
  have hcode : ∀ m : Fin 32, Lexer.hexCode?
      ['0', '0', Value.hexDigit (m / 16), Value.hexDigit (m % 16)] = some m.val := by
    decide
  exact .code rfl (hcode ⟨n, h⟩)

theorem spelled_escape (c : Char) : PiecesSpelled (charPieces c) (Text.utf8 (Value.escape c)) := by
  unfold Value.escape
  split
  · exact .of_spelled (.letter rfl)
  · exact .of_spelled (.letter rfl)
  · exact .of_spelled (.letter rfl)
  · exact .of_spelled (.letter rfl)
  · exact .of_spelled (.letter rfl)
  · exact .of_spelled (.letter rfl)
  · exact .of_spelled (.letter rfl)
  · next hquote hslash hline hreturn htab hback hfeed =>
    have hnot : c ∉ ['\n', '\r', '\t', '\x08', '\x0c'] := by
      intro hmem
      simp only [List.mem_cons, List.not_mem_nil, or_false] at hmem
      rcases hmem with h | h | h | h | h
      · exact hline h
      · exact hreturn h
      · exact htab h
      · exact hback h
      · exact hfeed h
    split
    · next hlow =>
      rw [charPieces, if_pos ⟨hlow, hnot⟩]
      exact .of_spelled (spelled_code hlow)
    · next hlow =>
      rw [charPieces, if_neg fun h => hlow h.1, Text.utf8_cons, Text.utf8_nil, List.append_nil]
      by_cases hascii : c.toNat < 128
      · rw [Text.utf8EncodeChar_ascii hascii]
        have hbyte := UInt8.toNat_ofNat_of_lt' (Nat.lt_trans hascii (by decide : 128 < 256))
        refine .of_spelled (.plain ?_ ?_ ?_)
        · rw [hbyte]
          exact Nat.not_lt.1 hlow
        · intro heq
          rw [heq] at hbyte
          exact hquote (Char.toNat_inj.1 hbyte.symm)
        · intro heq
          rw [heq] at hbyte
          exact hslash (Char.toNat_inj.1 hbyte.symm)
      · exact .plain fun b hb => Text.le_of_mem_utf8EncodeChar (Nat.not_lt.1 hascii) hb

theorem spelled_quoteChars (s : String) :
    (Token.string (.ofText s)).Spelled (Text.utf8 (Value.quoteChars s)) := by
  have hpieces : ∀ cs : List Char,
      PiecesSpelled (cs.flatMap charPieces) (Text.utf8 (cs.flatMap Value.escape)) := by
    intro cs
    induction cs with
    | nil => exact .nil
    | cons c cs ih =>
      rw [List.flatMap_cons, List.flatMap_cons, Text.utf8_append]
      exact (spelled_escape c).append ih
  rw [Value.quoteChars, List.cons_append, Text.utf8_cons, Text.utf8_append]
  exact .string (hpieces s.toList)

theorem Numeral.spelled_chars {n : Numeral} (h : n.WellFormed) : n.Spelled n.chars := by
  refine ⟨h, exponentChars n.exponent, ?_, by simp [chars, leadChars]⟩
  cases he : n.exponent with
  | none => exact .none
  | some e =>
    obtain ⟨negative, ds⟩ := e
    have hsign : if negative then [if negative then '-' else '+'] = ['-'] else
        [if negative then '-' else '+'] = [] ∨ [if negative then '-' else '+'] = ['+'] := by
      cases negative <;> simp
    exact .some (.inl rfl) hsign (h.exponent negative ds he)

mutual

def Value.tree : Value → Tree
  | .null => .null
  | .bool b => .bool b
  | .integer n => .number (.ofInt n.val)
  | .float x => .number (.ofDouble x)
  | .string s => .string (.ofText s)
  | .array items => .array (Value.itemTrees items) none
  | .object ms => .object (Value.memberTrees ms) none

def Value.itemTrees : List Value → List Tree
  | [] => []
  | v :: vs => v.tree :: Value.itemTrees vs

def Value.memberTrees : List (String × Value) → List (Quoted × Tree)
  | [] => []
  | (k, v) :: ms => (.ofText k, v.tree) :: Value.memberTrees ms

end

theorem Value.itemTrees_eq (vs : List Value) : Value.itemTrees vs = vs.map Value.tree := by
  induction vs with
  | nil => rw [Value.itemTrees, List.map_nil]
  | cons v vs ih => rw [Value.itemTrees, ih, List.map_cons]

theorem Value.memberTrees_eq (ms : List (String × Value)) :
    Value.memberTrees ms = ms.map fun m => (.ofText m.1, m.2.tree) := by
  induction ms with
  | nil => rw [Value.memberTrees, List.map_nil]
  | cons m ms ih => rw [Value.memberTrees, ih, List.map_cons]

theorem Laid.fixed {t : Token} {cs : List Char} (h : t.fixed? = some cs) :
    Laid [t] (Text.utf8 cs) :=
  .of_spelled (.fixed h)

theorem Laid.comma (first : Bool) :
    Laid (if first then [] else [.comma]) (Text.utf8 (if first then [] else [','])) := by
  cases first with
  | true => exact .nil (by simp)
  | false => exact .fixed rfl

private theorem Laid.opening {t : Token} {c : Char} (h : t.fixed? = some [c]) {ts : List Token}
    {cs : List Char} (hrest : Laid ts (Text.utf8 cs)) : Laid (t :: ts) (Text.utf8 (c :: cs)) := by
  have hlaid := (Laid.fixed h).append hrest
  rwa [← Text.utf8_append] at hlaid

mutual

theorem laid_chars : (v : Value) → Laid v.tree.tokens (Text.utf8 v.chars)
  | .null => by rw [Value.tree, Tree.tokens, Value.chars]; exact .fixed rfl
  | .bool true => by rw [Value.tree, Tree.tokens, Value.chars]; exact .fixed rfl
  | .bool false => by rw [Value.tree, Tree.tokens, Value.chars]; exact .fixed rfl
  | .integer n => by
    rw [Value.tree, Tree.tokens, Value.chars, ← Numeral.chars_ofInt]
    exact .of_spelled (.number (Numeral.spelled_chars (Numeral.wellFormed_ofInt _)))
  | .float x => by
    rw [Value.tree, Tree.tokens, Value.chars, ← Numeral.chars_ofDouble]
    exact .of_spelled (.number (Numeral.spelled_chars (Numeral.wellFormed_ofDouble x)))
  | .string s => by
    rw [Value.tree, Tree.tokens, Value.chars]
    exact .of_spelled (spelled_quoteChars s)
  | .array items => by
    rw [Value.tree, Tree.tokens, Value.chars]
    exact .opening rfl (laid_itemChars true items)
  | .object ms => by
    rw [Value.tree, Tree.tokens, Value.chars]
    exact .opening rfl (laid_memberChars true ms)

theorem laid_itemChars (first : Bool) : (vs : List Value) →
    Laid (Tree.itemTokens first (Value.itemTrees vs) ++ closing .closeArray none)
      (Text.utf8 (Value.itemChars first vs))
  | [] => by
    rw [Value.itemTrees, Tree.itemTokens, Value.itemChars]
    exact .fixed rfl
  | v :: vs => by
    rw [Value.itemTrees, Tree.itemTokens, Value.itemChars, List.append_assoc, Text.utf8_append,
      Text.utf8_append]
    exact ((Laid.comma first).append (laid_chars v)).append (laid_itemChars false vs)

theorem laid_memberChars (first : Bool) : (ms : List (String × Value)) →
    Laid (Tree.memberTokens first (Value.memberTrees ms) ++ closing .closeObject none)
      (Text.utf8 (Value.memberChars first ms))
  | [] => by
    rw [Value.memberTrees, Tree.memberTokens, Value.memberChars]
    exact .fixed rfl
  | (k, v) :: ms => by
    have hkey := (Laid.comma first).append (.of_spelled (spelled_quoteChars k))
    have hvalue := (Laid.fixed (t := .colon) rfl).append (laid_chars v)
    have hmembers := (hkey.append hvalue).append (laid_memberChars false ms)
    rw [Value.memberTrees, Tree.memberTokens, Value.memberChars]
    simpa using hmembers

end

@[simp]
theorem Document.ofBytes_text (v : Value) : ofBytes v.text.toUTF8.toList = ⟨v.tree, false⟩ := by
  rw [Text.toUTF8_toList, Value.text, String.toList_ofList]
  exact ofBytes_eq (laid_chars v)

end LoraBridge.Json
