/-! The tokens of a JSON text. A text is cut into tokens byte by byte; what can
be refused only by a reader of the token, such as the escapes of a string that
nobody reads, stays inside the token. -/
namespace LoraBridge.Json

/-- Why a text cannot be read on: it is malformed, or it ends too early. -/
inductive Fault where
  | malformed
  | truncated
deriving DecidableEq

structure Numeral where
  negative : Bool
  whole : List Nat
  fraction : Option (List Nat)
  exponent : Option (Bool × List Nat)
deriving DecidableEq

/-- One unit of a string: a byte, written or escaped by one letter, or a
sixteen bit code escaped by its digits. -/
inductive Piece where
  | byte (b : UInt8)
  | unit (code : Nat)
deriving DecidableEq

/-- The inside of a string, with the fault when it has no closing quote. -/
structure Quoted where
  pieces : List Piece
  fault : Option Fault
deriving DecidableEq

inductive Token where
  | openArray
  | closeArray
  | openObject
  | closeObject
  | comma
  | colon
  | null
  | bool (b : Bool)
  | number (n : Numeral)
  /-- A number whose text ends before its last part has a digit. -/
  | cutNumber
  | string (s : Quoted)
  | fault (f : Fault)
deriving DecidableEq

namespace Lexer

inductive Part where
  | minus
  | zero
  | whole
  | point
  | fraction
  | mark
  | markSign
  | exponent
deriving DecidableEq

/-- What the next byte continues. Collected pieces and digits are reversed. -/
inductive Mode where
  | between
  | word (rest : List Char) (token : Token)
  | number (part : Part) (n : Numeral)
  | string (pieces : List Piece)
  | escape (pieces : List Piece)
  | hex (pieces : List Piece) (digits : List Char)
  | failed

structure State where
  mode : Mode
  tokens : List Token

def start : State := ⟨.between, []⟩

def isSpace (c : Char) : Bool :=
  c == ' ' || c == '\n' || c == '\t' || c == '\r'

def digit? (c : Char) : Option Nat :=
  if c.isDigit then some (c.toNat - 48) else none

def hexDigit? (c : Char) : Option Nat :=
  if c.isDigit then some (c.toNat - 48)
  else if 'a' ≤ c ∧ c ≤ 'f' then some (c.toNat - 87)
  else if 'A' ≤ c ∧ c ≤ 'F' then some (c.toNat - 55)
  else none

def hexCode? (cs : List Char) : Option Nat :=
  cs.foldlM (fun n c => (hexDigit? c).map (16 * n + ·)) 0

def escaped? : Char → Option UInt8
  | '"' => some 34
  | '\\' => some 92
  | '/' => some 47
  | 'b' => some 8
  | 'f' => some 12
  | 'n' => some 10
  | 'r' => some 13
  | 't' => some 9
  | _ => none

def emit (s : State) (t : Token) : State := ⟨.between, t :: s.tokens⟩

def fail (s : State) (f : Fault) : State := ⟨.failed, .fault f :: s.tokens⟩

def begin (s : State) (c : Char) : State :=
  if isSpace c then ⟨.between, s.tokens⟩ else
  match c with
  | '[' => emit s .openArray
  | ']' => emit s .closeArray
  | '\x7b' => emit s .openObject
  | '\x7d' => emit s .closeObject
  | ',' => emit s .comma
  | ':' => emit s .colon
  | 'n' => ⟨.word ['u', 'l', 'l'] .null, s.tokens⟩
  | 't' => ⟨.word ['r', 'u', 'e'] (.bool true), s.tokens⟩
  | 'f' => ⟨.word ['a', 'l', 's', 'e'] (.bool false), s.tokens⟩
  | '"' => ⟨.string [], s.tokens⟩
  | '-' => ⟨.number .minus ⟨true, [], none, none⟩, s.tokens⟩
  | c =>
    match digit? c with
    | some 0 => ⟨.number .zero ⟨false, [0], none, none⟩, s.tokens⟩
    | some d => ⟨.number .whole ⟨false, [d], none, none⟩, s.tokens⟩
    | none => fail s .malformed

namespace Numeral

/-- Put a digit behind those collected so far. -/
def push (n : Numeral) (part : Part) (d : Nat) : Numeral :=
  match part with
  | .minus | .zero | .whole => { n with whole := d :: n.whole }
  | .point | .fraction => { n with fraction := some (d :: n.fraction.getD []) }
  | .mark | .markSign | .exponent =>
    match n.exponent with
    | some (neg, ds) => { n with exponent := some (neg, d :: ds) }
    | none => { n with exponent := some (false, [d]) }

def finish (n : Numeral) : Numeral :=
  ⟨n.negative, n.whole.reverse, n.fraction.map (·.reverse),
    n.exponent.map fun e => (e.1, e.2.reverse)⟩

end Numeral

/-- The part that a digit continues to; none where no digit may follow. -/
def Part.digit? : Part → Nat → Option Part
  | .minus, 0 => some .zero
  | .minus, _ => some .whole
  | .zero, _ => none
  | .whole, _ => some .whole
  | .point, _ => some .fraction
  | .fraction, _ => some .fraction
  | .mark, _ => some .exponent
  | .markSign, _ => some .exponent
  | .exponent, _ => some .exponent

def Part.complete : Part → Bool
  | .zero | .whole | .fraction | .exponent => true
  | .minus | .point | .mark | .markSign => false

/-- One more byte after a part of a number. -/
def number (s : State) (part : Part) (n : Numeral) (c : Char) : State :=
  match digit? c with
  | some d =>
    match part.digit? d with
    | some next => ⟨.number next (Numeral.push n part d), s.tokens⟩
    | none => fail s .malformed
  | none =>
    if c == '.' && (part == .zero || part == .whole) then
      ⟨.number .point { n with fraction := some [] }, s.tokens⟩
    else if (c == 'e' || c == 'E') && (part == .zero || part == .whole || part == .fraction) then
      ⟨.number .mark { n with exponent := some (false, []) }, s.tokens⟩
    else if (c == '+' || c == '-') && part == .mark then
      ⟨.number .markSign { n with exponent := some (c == '-', []) }, s.tokens⟩
    else if part.complete then begin (emit s (.number (Numeral.finish n))) c
    else fail s .malformed

def closeString (s : State) (pieces : List Piece) (f : Option Fault) : State :=
  ⟨if f.isSome then .failed else .between, .string ⟨pieces.reverse, f⟩ :: s.tokens⟩

def step (s : State) (b : UInt8) : State :=
  let c := Char.ofNat b.toNat
  match s.mode with
  | .failed => s
  | .between => begin s c
  | .word (w :: rest) t =>
    if c != w then fail s .malformed
    else if rest.isEmpty then emit s t
    else ⟨.word rest t, s.tokens⟩
  | .word [] t => begin (emit s t) c
  | .number part n => number s part n c
  | .string ps =>
    if c == '"' then closeString s ps none
    else if c == '\\' then ⟨.escape ps, s.tokens⟩
    else if b < 32 then closeString s ps (some .malformed)
    else ⟨.string (.byte b :: ps), s.tokens⟩
  | .escape ps =>
    if c == 'u' then ⟨.hex ps [], s.tokens⟩ else
    match escaped? c with
    | some e => ⟨.string (.byte e :: ps), s.tokens⟩
    | none => closeString s ps (some .malformed)
  | .hex ps ds =>
    if ds.length < 3 then ⟨.hex ps (ds ++ [c]), s.tokens⟩ else
    match hexCode? (ds ++ [c]) with
    | some n => ⟨.string (.unit n :: ps), s.tokens⟩
    | none => closeString s ps (some .malformed)

def finish (s : State) : List Token :=
  let last := match s.mode with
    | .between | .failed => []
    | .word _ _ => [Token.fault .truncated]
    | .number part n =>
      if part.complete then [.number (Numeral.finish n)] else [.cutNumber]
    | .string ps | .escape ps | .hex ps _ => [.string ⟨ps.reverse, some .truncated⟩]
  (last ++ s.tokens).reverse

end Lexer

def tokens (bytes : List UInt8) : List Token :=
  Lexer.finish (bytes.foldl Lexer.step Lexer.start)

end LoraBridge.Json
