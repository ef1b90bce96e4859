import LoraBridge.Double.Shortest

/-! JSON values and their compact text. Integers of up to 64 bits are kept apart
from floating point numbers, and the members of an object keep their order. -/
namespace LoraBridge.Json

/-- An integer that fits a signed or an unsigned 64 bit word. -/
structure WideInt where
  val : Int
  inRange : -0x8000000000000000 ≤ val ∧ val < 0x10000000000000000
deriving DecidableEq

def WideInt.ofNat (n : Nat) (h : n < 0x10000000000000000) : WideInt :=
  ⟨n, by omega⟩

def WideInt.ofInt? (n : Int) : Option WideInt :=
  if h : -0x8000000000000000 ≤ n ∧ n < 0x10000000000000000 then some ⟨n, h⟩ else none

inductive Value where
  | null
  | bool (b : Bool)
  | integer (n : WideInt)
  | float (x : Double)
  | string (s : String)
  | array (items : List Value)
  | object (members : List (String × Value))

namespace Value

instance : Inhabited Value := ⟨.null⟩

/-- The text of a number that is not zero: its shortest digits, positional for
decimal exponents from minus five to fifteen, with at least one fractional digit. -/
def decimalText (d : Double.Decimal) : List Char :=
  let ds := d.text
  let point : Int := ds.length + d.exponent
  if 0 ≤ d.exponent ∧ point ≤ 16 then
    ds ++ List.replicate d.exponent.toNat '0' ++ ['.', '0']
  else if 0 < point ∧ point ≤ 16 then
    ds.take point.toNat ++ '.' :: ds.drop point.toNat
  else if -5 < point ∧ point ≤ 0 then
    '0' :: '.' :: List.replicate (-point).toNat '0' ++ ds
  else
    let e := point - 1
    let mark := (if e < 0 then ['e', '-'] else ['e', '+']) ++ Nat.toDigits 10 e.natAbs
    match ds with
    | [] => mark
    | [c] => c :: mark
    | c :: cs => c :: '.' :: cs ++ mark

def stripZeros (d : Double.Decimal) : Double.Decimal :=
  if h : 0 < d.digits ∧ d.digits % 10 = 0 then
    stripZeros ⟨d.digits / 10, d.exponent + 1⟩
  else d
termination_by d.digits
decreasing_by omega

def floatText (x : Double) : String :=
  let sign := if x.negative then ['-'] else []
  let body := if x.isZero then ['0', '.', '0'] else decimalText (stripZeros x.shortest)
  String.ofList (sign ++ body)

def hexDigit (n : Nat) : Char :=
  if n < 10 then Char.ofNat (48 + n) else Char.ofNat (87 + n)

def escape (c : Char) : List Char :=
  match c with
  | '"' => ['\\', '"']
  | '\\' => ['\\', '\\']
  | '\n' => ['\\', 'n']
  | '\r' => ['\\', 'r']
  | '\t' => ['\\', 't']
  | '\x08' => ['\\', 'b']
  | '\x0c' => ['\\', 'f']
  | c =>
    if c.toNat < 32 then ['\\', 'u', '0', '0', hexDigit (c.toNat / 16), hexDigit (c.toNat % 16)]
    else [c]

def quoteChars (s : String) : List Char :=
  '"' :: s.toList.flatMap escape ++ ['"']

def quote (s : String) : String :=
  String.ofList (quoteChars s)

mutual

def chars : Value → List Char
  | .null => ['n', 'u', 'l', 'l']
  | .bool true => ['t', 'r', 'u', 'e']
  | .bool false => ['f', 'a', 'l', 's', 'e']
  | .integer n => (toString n.val).toList
  | .float x => (floatText x).toList
  | .string s => quoteChars s
  | .array items => '[' :: itemChars true items
  | .object ms => '\x7b' :: memberChars true ms

def itemChars (first : Bool) : List Value → List Char
  | [] => [']']
  | v :: vs => (if first then [] else [',']) ++ chars v ++ itemChars false vs

def memberChars (first : Bool) : List (String × Value) → List Char
  | [] => ['\x7d']
  | (k, v) :: ms =>
    (if first then [] else [',']) ++ quoteChars k ++ ':' :: chars v ++ memberChars false ms

end

def text (v : Value) : String :=
  String.ofList v.chars

def insertMember (k : String) (v : Value) : List (String × Value) → List (String × Value)
  | [] => [(k, v)]
  | (k', v') :: ms =>
    if k < k' then (k, v) :: (k', v') :: ms
    else if k = k' then (k, v) :: ms
    else (k', v') :: insertMember k v ms

/-- The members sorted by name; of several with one name the last stays. -/
def sortMembers (ms : List (String × Value)) : List (String × Value) :=
  ms.foldl (fun acc m => insertMember m.1 m.2 acc) []

def member? (v : Value) (name : String) : Option Value :=
  match v with
  | .object ms => (ms.find? fun m => m.1 == name).map (·.2)
  | _ => none

end Value

end LoraBridge.Json
