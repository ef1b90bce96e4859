/-! The texts of TOML: strings in their four forms, and keys. Each function takes
what it reads off the front of the text. -/
namespace LoraBridge.Toml

def isBlank (c : Char) : Bool :=
  c == ' ' || c == '\t'

def isPrintable (c : Char) : Bool :=
  c == '\t' || (32 ≤ c.toNat && c.toNat != 127)

def skipBlank (cs : List Char) : List Char :=
  cs.dropWhile isBlank

def newline? : List Char → Option (List Char)
  | '\n' :: r => some r
  | '\r' :: '\n' :: r => some r
  | _ => none

def hexValue? (c : Char) : Option Nat :=
  if c.isDigit then some (c.toNat - 48)
  else if 'a' ≤ c ∧ c ≤ 'f' then some (c.toNat - 87)
  else if 'A' ≤ c ∧ c ≤ 'F' then some (c.toNat - 55)
  else none

def codePoint? (digits : Nat) (cs : List Char) : Option (Char × List Char) := do
  if cs.length < digits then none
  let n ← (cs.take digits).foldlM (fun n c => (hexValue? c).map (16 * n + ·)) 0
  if n < 0xd800 ∨ (0xdfff < n ∧ n < 0x110000) then some (Char.ofNat n, cs.drop digits) else none

def escape? : List Char → Option (Char × List Char)
  | 'b' :: r => some ('\x08', r)
  | 't' :: r => some ('\t', r)
  | 'n' :: r => some ('\n', r)
  | 'f' :: r => some ('\x0c', r)
  | 'r' :: r => some ('\r', r)
  | '"' :: r => some ('"', r)
  | '\\' :: r => some ('\\', r)
  | 'u' :: r => codePoint? 4 r
  | 'U' :: r => codePoint? 8 r
  | _ => none

def basic? : Nat → List Char → Option (List Char × List Char)
  | 0, _ => none
  | fuel + 1, cs =>
    match cs with
    | '"' :: r => some ([], r)
    | '\\' :: r => do
      let (c, r) ← escape? r
      let (s, r) ← basic? fuel r
      some (c :: s, r)
    | c :: r =>
      if isPrintable c then (basic? fuel r).map fun p => (c :: p.1, p.2) else none
    | [] => none

def literal? : List Char → Option (List Char × List Char)
  | '\'' :: r => some ([], r)
  | c :: r => if isPrintable c then (literal? r).map fun p => (c :: p.1, p.2) else none
  | [] => none

def skipLines : Nat → List Char → List Char
  | 0, cs => cs
  | fuel + 1, cs =>
    let cs := skipBlank cs
    match newline? cs with
    | some r => skipLines fuel r
    | none => cs

/-- The quotes that end a text of several lines: three of them, with at most two
more that still belong to the text. None where fewer than three stand. -/
def closing? (quote : Char) (cs : List Char) : Option (List Char × List Char) :=
  let n := (cs.takeWhile (· == quote)).length
  if n < 3 then none
  else
    let extra := min (n - 3) 2
    some (List.replicate extra quote, cs.drop (extra + 3))

/-- The inside of a text of several lines with escapes; a backslash at the end of a
line joins it with the next text. -/
def multilineBasic? : Nat → List Char → Option (List Char × List Char)
  | 0, _ => none
  | fuel + 1, cs =>
    match closing? '"' cs with
    | some p => some p
    | none =>
      match newline? cs with
      | some r => (multilineBasic? fuel r).map fun p => ('\n' :: p.1, p.2)
      | none =>
        match cs with
        | '\\' :: r =>
          match escape? r with
          | some (c, r) => (multilineBasic? fuel r).map fun p => (c :: p.1, p.2)
          | none =>
            match newline? (skipBlank r) with
            | some r => multilineBasic? fuel (skipLines r.length r)
            | none => none
        | c :: r =>
          if isPrintable c then (multilineBasic? fuel r).map fun p => (c :: p.1, p.2) else none
        | [] => none

def multilineLiteral? : Nat → List Char → Option (List Char × List Char)
  | 0, _ => none
  | fuel + 1, cs =>
    match closing? '\'' cs with
    | some p => some p
    | none =>
      match newline? cs with
      | some r => (multilineLiteral? fuel r).map fun p => ('\n' :: p.1, p.2)
      | none =>
        match cs with
        | c :: r =>
          if isPrintable c then (multilineLiteral? fuel r).map fun p => (c :: p.1, p.2) else none
        | [] => none

/-- A line end right behind the opening quotes does not count. -/
def skipFirstNewline (cs : List Char) : List Char :=
  (newline? cs).getD cs

def lineString? : List Char → Option (List Char × List Char)
  | '"' :: r => basic? (r.length + 1) r
  | '\'' :: r => literal? r
  | _ => none

def string? : List Char → Option (List Char × List Char)
  | '"' :: '"' :: '"' :: r =>
    let r := skipFirstNewline r
    multilineBasic? (r.length + 1) r
  | '\'' :: '\'' :: '\'' :: r =>
    let r := skipFirstNewline r
    multilineLiteral? (r.length + 1) r
  | cs => lineString? cs

def isBareKey (c : Char) : Bool :=
  c.isAlphanum || c == '_' || c == '-'

def keyPart? (cs : List Char) : Option (String × List Char) :=
  match cs with
  | '"' :: _ | '\'' :: _ => (lineString? cs).map fun p => (String.ofList p.1, p.2)
  | _ =>
    let key := cs.takeWhile isBareKey
    if key.isEmpty then none else some (String.ofList key, cs.dropWhile isBareKey)

def keyParts? : Nat → List Char → Option (List String × List Char)
  | 0, _ => none
  | fuel + 1, cs => do
    let (k, cs) ← keyPart? (skipBlank cs)
    match skipBlank cs with
    | '.' :: r =>
      let (ks, cs) ← keyParts? fuel r
      some (k :: ks, cs)
    | cs => some ([k], cs)

def maxDepth : Nat := 79

def key? (cs : List Char) : Option (List String × String × List Char) := do
  let (ks, cs) ← keyParts? (cs.length + 1) cs
  let last ← ks.getLast?
  if ks.length ≤ maxDepth then some (ks.dropLast, last, cs) else none

end LoraBridge.Toml
