/-! TOML values, and tables that remember how they were written: which of them may
still be extended depends on it. -/
namespace LoraBridge.Toml

inductive Form where
  | inline
  | header
  | implicit
  | dotted
deriving DecidableEq

inductive Value where
  | string (s : String)
  | integer (n : Int)
  | boolean (b : Bool)
  | other (text : List Char)
  /-- An array; the flag tells whether headers add tables to it. -/
  | array (ofTables : Bool) (items : List Value)
  | table (form : Form) (entries : List (String × Value))

abbrev Entries := List (String × Value)

namespace Entries

def get? (es : Entries) (key : String) : Option Value :=
  (es.find? fun e => e.1 == key).map (·.2)

def set (es : Entries) (key : String) (v : Value) : Entries :=
  es.map fun e => if e.1 == key then (key, v) else e

def add? (es : Entries) (key : String) (v : Value) : Option Entries :=
  if (es.get? key).isSome then none else some (es ++ [(key, v)])

def setLast {α : Type} (xs : List α) (x : α) : List α :=
  xs.dropLast ++ [x]

/-- Change the table at a path; tables on the way are made as needed. A path
through an array of tables goes to its last table. Dotted keys pass only through
tables that were not opened by a header. -/
def modifyAt (byDots : Bool) (f : Form → Entries → Option (Form × Entries)) :
    List String → Form → Entries → Option (Form × Entries)
  | [], form, es => f form es
  | key :: path, form, es =>
    match es.get? key with
    | none => do
      let (made, sub) ← modifyAt byDots f path (if byDots then .dotted else .implicit) []
      some (form, es ++ [(key, .table made sub)])
    | some (.table old sub) =>
      if old = .inline || (byDots && old = .header) then none
      else do
        let (new, sub) ← modifyAt byDots f path old sub
        some (form, es.set key (.table new sub))
    | some (.array true items) =>
      match items.getLast? with
      | some (.table old sub) => do
        let (new, sub) ← modifyAt byDots f path old sub
        some (form, es.set key (.array true (setLast items (.table new sub))))
      | _ => none
    | some _ => none

/-- Put a value under a dotted key; only tables made by dotted keys are extended
by them. -/
def insert? (es : Entries) (form : Form) (path : List String) (key : String) (v : Value) :
    Option (Form × Entries) :=
  modifyAt true
    (fun target es =>
      if !path.isEmpty && target ≠ .dotted then none
      else (es.add? key v).map fun es => (target, es))
    path form es

end Entries

/-- A document that is being read: all its entries, and the path of the table that
takes the next keys. -/
structure Document where
  entries : Entries
  current : List String

namespace Document

def empty : Document := ⟨[], []⟩

def insert? (d : Document) (path : List String) (key : String) (v : Value) : Option Document := do
  let (_, es) ← Entries.modifyAt false (fun form es => es.insert? form path key v)
    d.current .header d.entries
  some { d with entries := es }

/-- Open a table; only a table that was merely named before may exist already. -/
def openTable? (d : Document) (path : List String) (key : String) : Option Document := do
  let (_, es) ← Entries.modifyAt false
    (fun form es =>
      match es.get? key with
      | none => some (form, es ++ [(key, .table .header [])])
      | some (.table .implicit sub) => some (form, es.set key (.table .header sub))
      | some _ => none)
    path .header d.entries
  some ⟨es, path ++ [key]⟩

def openItem? (d : Document) (path : List String) (key : String) : Option Document := do
  let (_, es) ← Entries.modifyAt false
    (fun form es =>
      match es.get? key with
      | none => some (form, es ++ [(key, .array true [.table .header []])])
      | some (.array true items) =>
        some (form, es.set key (.array true (items ++ [.table .header []])))
      | some _ => none)
    path .header d.entries
  some ⟨es, path ++ [key]⟩

end Document

end LoraBridge.Toml
