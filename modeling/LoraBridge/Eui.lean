import LoraBridge.Text.Blank

/-! Gateway identifiers. A gateway is addressed by eight bytes; the canonical
text is sixteen lowercase hexadecimal digits, and reading also accepts
uppercase digits, separators between them and blanks around them. -/
namespace LoraBridge

/-- An eight byte gateway identifier, most significant byte first. -/
structure Eui where
  bytes : Vector UInt8 8
deriving DecidableEq

namespace Eui

instance : LT Eui := ⟨fun a b => a.bytes.toList < b.bytes.toList⟩
instance (a b : Eui) : Decidable (a < b) :=
  inferInstanceAs (Decidable (a.bytes.toList < b.bytes.toList))

theorem lt_trans {a b c : Eui} (h : a < b) (h' : b < c) : a < c :=
  List.lt_trans h h'

theorem lt_or_eq_or_gt (a b : Eui) : a < b ∨ a = b ∨ b < a := by
  by_cases h : a < b
  · exact .inl h
  · by_cases h' : b < a
    · exact .inr (.inr h')
    · have := List.le_antisymm h' h
      cases a; cases b
      exact .inr (.inl (congrArg Eui.mk (Vector.toList_inj.1 this)))

def ofWord (w : UInt64) : Eui :=
  ⟨Vector.ofFn fun i => (w >>> (UInt64.ofNat (8 * (7 - i.val)))).toUInt8⟩

def ofBytes (bs : List UInt8) : Eui :=
  ofWord (bs.foldl (fun w b => w <<< 8 ||| b.toUInt64) 0)

def value (e : Eui) : Nat :=
  e.bytes.toList.foldl (fun n b => 256 * n + b.toNat) 0

instance : Inhabited Eui := ⟨ofWord 0⟩

def hexDigit (n : Nat) : Char :=
  if n < 10 then Char.ofNat (48 + n) else Char.ofNat (87 + n)

def hexValue? (c : Char) : Option Nat :=
  if '0' ≤ c ∧ c ≤ '9' then some (c.toNat - 48)
  else if 'a' ≤ c ∧ c ≤ 'f' then some (c.toNat - 87)
  else if 'A' ≤ c ∧ c ≤ 'F' then some (c.toNat - 55)
  else none

def hexPair (b : UInt8) : List Char :=
  [hexDigit (b.toNat / 16), hexDigit (b.toNat % 16)]

def digits (e : Eui) : List Char :=
  e.bytes.toList.flatMap hexPair

def text (e : Eui) : String :=
  String.ofList e.digits

inductive ParseError where
  | invalidLength (digits : Nat)
  | invalidChar (c : Char)
deriving DecidableEq

def ParseError.message : ParseError → String
  | .invalidLength n => s!"EUI64 must be 8 bytes (16 hex digits), got {n} digits"
  | .invalidChar c => s!"EUI64 contains invalid hex character: '{c}'"

def isSeparator (c : Char) : Bool :=
  c == ':' || c == '-'

def hexValues : List Char → Except ParseError (List Nat)
  | [] => .ok []
  | c :: cs =>
    match hexValue? c with
    | none => .error (.invalidChar c)
    | some d => (hexValues cs).map (d :: ·)

/-- Join digits to bytes; an odd last digit is dropped. -/
def pairs : List Nat → List UInt8
  | hi :: lo :: r => UInt8.ofNat (16 * hi + lo) :: pairs r
  | _ => []

private theorem length_pairs : (ds : List Nat) → (pairs ds).length = ds.length / 2
  | [] => rfl
  | [_] => by simp [pairs]
  | _ :: _ :: r => by simp only [pairs, List.length_cons, length_pairs r]; omega

def ofDigits (ds : List Nat) (h : ds.length = 16) : Eui :=
  ⟨⟨(pairs ds).toArray, by simp [length_pairs, h]⟩⟩

/-- Read an identifier, ignoring separators and the blanks around it. -/
def parse (s : String) : Except ParseError Eui := do
  let ds ← hexValues ((Text.trim s.toList).filter fun c => !isSeparator c)
  if h : ds.length = 16 then .ok (ofDigits ds h) else .error (.invalidLength ds.length)

end Eui

end LoraBridge
