import LoraBridge.Toml.Text

/-! Writing strings in TOML: in the plainest of the four forms that can hold the
text. -/
namespace LoraBridge.Toml

/-- What decides about the form of a string. -/
structure Shape where
  singles : Nat
  doubles : Nat
  hasBackslash : Bool
  hasNewline : Bool
  hasControl : Bool

def longestRun (c : Char) : Nat → List Char → Nat
  | here, [] => here
  | here, d :: ds => if d = c then longestRun c (here + 1) ds else max here (longestRun c 0 ds)

def isControl (c : Char) : Bool :=
  (c.toNat < 32 || c.toNat == 127) && c != '\t' && c != '\n'

def Shape.of (cs : List Char) : Shape :=
  ⟨longestRun '\'' 0 cs, longestRun '"' 0 cs, cs.contains '\\', cs.contains '\n', cs.any isControl⟩

inductive StringForm where
  | basic
  | literal
  | multilineBasic
  | multilineLiteral
deriving DecidableEq

/-- Escapes only where no other form can do without them. -/
def Shape.form (s : Shape) : StringForm :=
  if !s.hasControl && !s.hasBackslash && s.doubles == 0 && !s.hasNewline then .basic
  else if !s.hasControl && s.singles == 0 && !s.hasNewline then .literal
  else if !s.hasControl && !s.hasBackslash && s.doubles ≤ 2 then .multilineBasic
  else if !s.hasControl && s.singles ≤ 2 then .multilineLiteral
  else if s.hasNewline then .multilineBasic
  else .basic

def upperHex (n : Nat) : Char :=
  if n < 10 then Char.ofNat (48 + n) else Char.ofNat (55 + n)

def escapeChar (multiline : Bool) (c : Char) : List Char :=
  match c with
  | '\x08' => ['\\', 'b']
  | '\t' => ['\\', 't']
  | '\n' => if multiline then ['\n'] else ['\\', 'n']
  | '\x0c' => ['\\', 'f']
  | '\r' => ['\\', 'r']
  | '\\' => ['\\', '\\']
  | c =>
    let n := c.toNat
    if n < 32 || n == 127 then ['\\', 'u', '0', '0', upperHex (n / 16), upperHex (n % 16)] else [c]

/-- The text with escapes, after a number of double quotes; a quote is escaped when
it would be one too many. -/
def escapeFrom (multiline : Bool) : Nat → List Char → List Char
  | _, [] => []
  | quotes, c :: cs =>
    if c = '"' then
      if (if multiline then 2 else 0) ≤ quotes then '\\' :: '"' :: escapeFrom multiline 0 cs
      else '"' :: escapeFrom multiline (quotes + 1) cs
    else escapeChar multiline c ++ escapeFrom multiline 0 cs

/-- A text with quotes; a text of several lines begins on a line of its own. -/
def quoted (cs : List Char) : List Char :=
  let shape := Shape.of cs
  let start := if shape.hasNewline then ['\n'] else []
  match shape.form with
  | .basic => '"' :: escapeFrom false 0 cs ++ ['"']
  | .literal => '\'' :: cs ++ ['\'']
  | .multilineBasic => ['"', '"', '"'] ++ start ++ escapeFrom true 0 cs ++ ['"', '"', '"']
  | .multilineLiteral => ['\'', '\'', '\''] ++ start ++ cs ++ ['\'', '\'', '\'']

end LoraBridge.Toml
