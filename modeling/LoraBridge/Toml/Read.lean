import LoraBridge.Toml.Scalar
import LoraBridge.Toml.Text

/-! Reading TOML documents: values, and the lines that name them. -/
namespace LoraBridge.Toml

abbrev ValueReader := List Char → Option (Value × List Char)

def comment? : List Char → Option (List Char)
  | '#' :: r => some (r.dropWhile isPrintable)
  | _ => none

def skipFiller : Nat → List Char → List Char
  | 0, cs => cs
  | fuel + 1, cs =>
    let cs := skipBlank cs
    match newline? cs with
    | some r => skipFiller fuel r
    | none =>
      match comment? cs with
      | some r => (newline? r).map (skipFiller fuel) |>.getD cs
      | none => cs

def filler (cs : List Char) : List Char :=
  skipFiller (cs.length + 1) cs

def items? (read : ValueReader) : Nat → List Char → Option (List Value × List Char)
  | 0, _ => none
  | fuel + 1, cs =>
    match filler cs with
    | ']' :: r => some ([], r)
    | cs => do
      let (v, cs) ← read cs
      match filler cs with
      | ']' :: r => some ([v], r)
      | ',' :: r =>
        let (vs, r) ← items? read fuel r
        some (v :: vs, r)
      | _ => none

def entry? (read : ValueReader) (es : Entries) (cs : List Char) : Option (Entries × List Char) := do
  let (path, key, cs) ← key? cs
  let cs ← char? '=' cs
  let (v, cs) ← read (skipBlank cs)
  let (_, es) ← es.insert? .header path key v
  some (es, skipBlank cs)

/-- The entries of a table in braces; they all stand on one line. -/
def entries? (read : ValueReader) : Nat → Entries → List Char → Option (Entries × List Char)
  | 0, _, _ => none
  | fuel + 1, es, cs => do
    let (es, cs) ← entry? read es cs
    match cs with
    | '\x7d' :: r => some (es, r)
    | ',' :: r => entries? read fuel es r
    | _ => none

def value? : Nat → ValueReader
  | _, '"' :: r => (string? ('"' :: r)).map fun p => (.string (String.ofList p.1), p.2)
  | _, '\'' :: r => (string? ('\'' :: r)).map fun p => (.string (String.ofList p.1), p.2)
  | 0, '[' :: _ => none
  | 0, '\x7b' :: _ => none
  | depth + 1, '[' :: r =>
    (items? (value? depth) (r.length + 1) r).map fun p => (.array false p.1, p.2)
  | depth + 1, '\x7b' :: r =>
    match skipBlank r with
    | '\x7d' :: r => some (.table .inline [], r)
    | r =>
      (entries? (value? depth) (r.length + 1) [] r).map fun p => (.table .inline p.1, p.2)
  | _, cs => scalar? cs

def lineEnd? (cs : List Char) : Option (List Char) :=
  let cs := skipBlank cs
  let cs := (comment? cs).getD cs
  match cs with
  | [] => some []
  | cs => newline? cs

def header? (d : Document) (cs : List Char) : Option (Document × List Char) :=
  match cs with
  | '[' :: '[' :: r => do
    let (path, key, r) ← key? r
    match r with
    | ']' :: ']' :: r =>
      let d ← d.openItem? path key
      some (d, ← lineEnd? r)
    | _ => none
  | '[' :: r => do
    let (path, key, r) ← key? r
    let r ← char? ']' r
    let d ← d.openTable? path key
    some (d, ← lineEnd? r)
  | _ => none

def keyLine? (d : Document) (cs : List Char) : Option (Document × List Char) := do
  let (path, key, cs) ← key? cs
  let cs ← char? '=' cs
  let (v, cs) ← value? maxDepth (skipBlank cs)
  let cs ← lineEnd? cs
  let d ← d.insert? path key v
  some (d, cs)

def lines? : Nat → Document → List Char → Option Document
  | 0, _, _ => none
  | fuel + 1, d, cs =>
    match skipBlank cs with
    | [] => some d
    | '[' :: r => do
      let (d, r) ← header? d ('[' :: r)
      lines? fuel d r
    | c :: r =>
      if c = '#' || c = '\n' || c = '\r' then
        (lineEnd? (c :: r)).bind (lines? fuel d)
      else do
        let (d, r) ← keyLine? d (c :: r)
        lines? fuel d r

def parse? (text : List Char) : Option Entries :=
  let cs := match text with
    | '\ufeff' :: r => r
    | cs => cs
  (lines? (cs.length + 1) .empty cs).map (·.entries)

end LoraBridge.Toml
