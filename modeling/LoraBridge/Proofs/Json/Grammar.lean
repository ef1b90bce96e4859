import LoraBridge.Json.Tree
import LoraBridge.Proofs.Json.Numeral
import LoraBridge.Proofs.Text.Utf8

/-! The grammar of JSON texts. A text is written from the tokens of its tree, each with any blanks
before it, and a token may be spelled in several ways: the digits of an exponent may have a sign,
and the units of a string may be escaped. A fault has no spelling. -/
namespace LoraBridge.Json

def Token.fixed? : Token → Option (List Char)
  | .openArray => some ['[']
  | .closeArray => some [']']
  | .openObject => some ['\x7b']
  | .closeObject => some ['\x7d']
  | .comma => some [',']
  | .colon => some [':']
  | .null => some ['n', 'u', 'l', 'l']
  | .bool true => some ['t', 'r', 'u', 'e']
  | .bool false => some ['f', 'a', 'l', 's', 'e']
  | .number _ | .cutNumber | .string _ | .fault _ => none

theorem Token.ascii_of_fixed? {t : Token} {cs : List Char} (h : t.fixed? = some cs) :
    ∀ c ∈ cs, c.toNat < 128 := by
  cases t with
  | number | cutNumber | string | fault => cases h
  | bool b =>
    cases b <;> cases h <;> simp
  | openArray | closeArray | openObject | closeObject | comma | colon | null =>
    cases h
    simp

inductive ExponentSpelled : Option (Bool × List Nat) → List Char → Prop
  | none : ExponentSpelled none []
  | some {mark : Char} {sign : List Char} {negative : Bool} {ds : List Nat}
      (hmark : mark = 'e' ∨ mark = 'E')
      (hsign : if negative then sign = ['-'] else sign = [] ∨ sign = ['+'])
      (hds : Numeral.IsDigits ds) :
    ExponentSpelled (some (negative, ds)) (mark :: (sign ++ ds.map Nat.digitChar))

def Numeral.leadChars (n : Numeral) : List Char :=
  (if n.negative then ['-'] else []) ++ n.whole.map Nat.digitChar ++ fractionChars n.fraction

structure Numeral.Spelled (n : Numeral) (cs : List Char) : Prop where
  wellFormed : n.WellFormed
  eq : ∃ exponent, ExponentSpelled n.exponent exponent ∧ cs = n.leadChars ++ exponent

inductive Piece.Spelled : Piece → List UInt8 → Prop
  | plain {b : UInt8} (hlow : 32 ≤ b.toNat) (hquote : b ≠ 34) (hslash : b ≠ 92) :
    Spelled (.byte b) [b]
  | letter {c : Char} {b : UInt8} (h : Lexer.escaped? c = some b) :
    Spelled (.byte b) (Text.utf8 ['\\', c])
  | code {ds : List Char} {n : Nat} (hlen : ds.length = 4) (h : Lexer.hexCode? ds = some n) :
    Spelled (.unit n) (Text.utf8 ('\\' :: 'u' :: ds))

inductive PiecesSpelled : List Piece → List UInt8 → Prop
  | nil : PiecesSpelled [] []
  | cons {p : Piece} {ps : List Piece} {bs rest : List UInt8} (h : p.Spelled bs)
      (hrest : PiecesSpelled ps rest) : PiecesSpelled (p :: ps) (bs ++ rest)

theorem PiecesSpelled.of_spelled {p : Piece} {bs : List UInt8} (h : p.Spelled bs) :
    PiecesSpelled [p] bs := by
  have hpieces := PiecesSpelled.cons h .nil
  rwa [List.append_nil] at hpieces

theorem PiecesSpelled.append {ps qs : List Piece} {bs bytes : List UInt8}
    (h : PiecesSpelled ps bs) (h' : PiecesSpelled qs bytes) :
    PiecesSpelled (ps ++ qs) (bs ++ bytes) := by
  induction h with
  | nil => exact h'
  | cons h _ ih =>
    rw [List.append_assoc]
    exact .cons h ih

inductive Token.Spelled : Token → List UInt8 → Prop
  | fixed {t : Token} {cs : List Char} (h : t.fixed? = some cs) : Spelled t (Text.utf8 cs)
  | number {n : Numeral} {cs : List Char} (h : n.Spelled cs) : Spelled (.number n) (Text.utf8 cs)
  | string {ps : List Piece} {bs : List UInt8} (h : PiecesSpelled ps bs) :
    Spelled (.string ⟨ps, none⟩) (34 :: (bs ++ [34]))

def Blank (b : UInt8) : Prop :=
  Lexer.isSpace (Char.ofNat b.toNat) = true

/-- Tokens with blanks around them. -/
inductive Laid : List Token → List UInt8 → Prop
  | nil {blanks : List UInt8} (hblanks : ∀ b ∈ blanks, Blank b) : Laid [] blanks
  | cons {blanks bs rest : List UInt8} {t : Token} {ts : List Token}
      (hblanks : ∀ b ∈ blanks, Blank b) (h : t.Spelled bs) (hrest : Laid ts rest) :
    Laid (t :: ts) (blanks ++ (bs ++ rest))

namespace Laid

variable {ts us : List Token} {t : Token} {bs bytes bytes' blanks : List UInt8}

theorem blanks_append (hblanks : ∀ b ∈ blanks, Blank b) (h : Laid ts bytes) :
    Laid ts (blanks ++ bytes) := by
  have hboth : ∀ {more : List UInt8}, (∀ b ∈ more, Blank b) → ∀ b ∈ blanks ++ more, Blank b :=
    fun hmore b hb => (List.mem_append.1 hb).elim (hblanks b) (hmore b)
  cases h with
  | nil hmore => exact .nil (hboth hmore)
  | cons hmore h hrest =>
    rw [← List.append_assoc]
    exact .cons (hboth hmore) h hrest

theorem append (h : Laid ts bytes) (h' : Laid us bytes') : Laid (ts ++ us) (bytes ++ bytes') := by
  induction h with
  | nil hblanks => exact h'.blanks_append hblanks
  | cons hblanks h _ ih =>
    rw [List.append_assoc, List.append_assoc]
    exact .cons hblanks h ih

theorem of_spelled (h : t.Spelled bs) : Laid [t] bs := by
  have hnone : ∀ b ∈ ([] : List UInt8), Blank b := by simp
  have hlaid := Laid.cons hnone h (.nil hnone)
  rwa [List.nil_append, List.append_nil] at hlaid

theorem exists_spelled (h : Laid ts bytes) (ht : t ∈ ts) : ∃ bs, t.Spelled bs := by
  induction h with
  | nil => cases ht
  | cons _ h _ ih =>
    rcases List.mem_cons.1 ht with rfl | ht
    · exact ⟨_, h⟩
    · exact ih ht

end Laid

theorem exists_laid {ts : List Token} (h : ∀ t ∈ ts, ∃ bs, t.Spelled bs) :
    ∃ bytes, Laid ts bytes := by
  induction ts with
  | nil => exact ⟨[], .nil (by simp)⟩
  | cons t ts ih =>
    obtain ⟨⟨bs, hbs⟩, hts⟩ := List.forall_mem_cons.1 h
    obtain ⟨bytes, hbytes⟩ := ih hts
    exact ⟨bs ++ bytes, (Laid.of_spelled hbs).append hbytes⟩

def closing (close : Token) : Option Fault → List Token
  | none => [close]
  | some f => [.fault f]

mutual

def Tree.tokens : Tree → List Token
  | .null => [.null]
  | .bool b => [.bool b]
  | .number n => [.number n]
  | .cutNumber => [.cutNumber]
  | .string s => [.string s]
  | .array items stop => .openArray :: (Tree.itemTokens true items ++ closing .closeArray stop)
  | .object ms stop => .openObject :: (Tree.memberTokens true ms ++ closing .closeObject stop)
  | .fault f => [.fault f]

def Tree.itemTokens (first : Bool) : List Tree → List Token
  | [] => []
  | v :: vs => (if first then [] else [.comma]) ++ v.tokens ++ Tree.itemTokens false vs

def Tree.memberTokens (first : Bool) : List (Quoted × Tree) → List Token
  | [] => []
  | (k, v) :: ms =>
    (if first then [] else [.comma]) ++ .string k :: .colon :: v.tokens ++
      Tree.memberTokens false ms

end

def Tree.WrittenAs (t : Tree) (bytes : List UInt8) : Prop :=
  Laid t.tokens bytes

end LoraBridge.Json
