import LoraBridge.Log.Record
import LoraBridge.Text.Blank

/-! Filters of log events. A filter is a list of directives, separated by commas:
each admits the events of a target, or those inside a span, up to a level. Of the
directives for a target the one that names it most exactly decides. -/
namespace LoraBridge.Log

structure Directive where
  /-- The target and all that begin with it; all targets when there is none. -/
  target : Option String
  span : Option String
  /-- The least severe level that passes; nothing does when there is none. -/
  level : Option Level
deriving DecidableEq

abbrev Filter := List Directive

namespace Directive

inductive Error where
  | shape
  | level
deriving DecidableEq

def Error.message : Error → String
  | .shape => "invalid filter directive"
  | .level => "error parsing level filter: expected one of \"off\", \"error\", \"warn\", " ++
      "\"info\", \"debug\", \"trace\", or a number 0-5"

def lower (s : String) : String :=
  String.ofList (s.toList.map Char.toLower)

def number? (s : String) : Option Nat :=
  let digits := match s.toList with
    | '+' :: cs => cs
    | cs => cs
  if digits.isEmpty || !digits.all Char.isDigit then none
  else some (digits.foldl (fun n c => 10 * n + (c.toNat - 48)) 0)

/-- A level by its name in any case or by its number; the inner value is none for
the level that admits nothing. -/
def levelOf? (s : String) : Option (Option Level) :=
  match number? s with
  | some 0 => some none
  | some n => ([Level.error, .warn, .info, .debug, .trace][n - 1]?).map some
  | none =>
    match lower s with
    | "" | "error" => some (some .error)
    | "warn" => some (some .warn)
    | "info" => some (some .info)
    | "debug" => some (some .debug)
    | "trace" => some (some .trace)
    | "off" => some none
    | _ => none

def givenLevel (cs : List Char) : Except Error (Option Level) :=
  if cs.isEmpty then .ok (some .trace)
  else
    match levelOf? (String.ofList cs) with
    | some l => .ok l
    | none => .error .level

def tail (target span : Option String) : List Char → Except Error Directive
  | [] => .ok ⟨target, span, some .trace⟩
  | '=' :: cs => do .ok ⟨target, span, ← givenLevel cs⟩
  | _ => .error .shape

def bracketed (target : Option String) (cs : List Char) : Except Error Directive :=
  let (name, rest) := cs.span (· != ']')
  match rest with
  | [] => .error .shape
  | _ :: rest => tail target (some (String.ofList name)) rest

def parse (cs : List Char) : Except Error Directive :=
  let cs := Text.trim cs
  match cs with
  | [] => .error .shape
  | '[' :: rest => bracketed none rest
  | c :: _ =>
    if !(c.isAlphanum || 128 ≤ c.toNat || ['-', ':', '_'].contains c) then .error .shape
    else
      let (name, rest) := cs.span fun c => c != '=' && c != '['
      let name := String.ofList name
      match rest with
      | [] =>
        match levelOf? name with
        | some l => .ok ⟨none, none, l⟩
        | none => .ok ⟨some name, none, some .trace⟩
      | '[' :: rest => bracketed (some name) rest
      | rest => tail (some name) none rest

def covers (d : Directive) (target : String) : Bool :=
  match d.target with
  | some t => t.toList.isPrefixOf target.toList
  | none => true

def exactness (d : Directive) : Nat :=
  match d.target with
  | some t => t.utf8ByteSize + 1
  | none => 0

def passes (d : Directive) (level : Level) : Bool :=
  match d.level with
  | some l => l.admits level
  | none => false

end Directive

namespace Filter

def default : Filter := [⟨none, none, some .error⟩]

def ofLevel (l : Level) : Filter := [⟨none, none, some l⟩]

def pieces (cs : List Char) : List (List Char) :=
  (cs.splitOn ',').filter fun p => !p.isEmpty

def parse (s : String) : Filter × List String :=
  let read := (pieces s.toList).map fun p => (p, Directive.parse p)
  let good := read.filterMap fun r => r.2.toOption
  let notices := read.filterMap fun r =>
    match r.2 with
    | .ok _ => none
    | .error e => some ("ignoring \x60" ++ String.ofList r.1 ++ "\x60: " ++ e.message)
  (if good.isEmpty then default else good, notices)

/-- The directive that decides about a target: the most exact one, and of several
with one target the last. -/
def decisive? (f : Filter) (target : String) : Option Directive :=
  (f.filter fun d => d.span.isNone && d.covers target).foldl
    (fun best d =>
      match best with
      | some b => if b.exactness ≤ d.exactness then some d else best
      | none => some d) none

def aboutSpan (d : Directive) (s : Span) : Bool :=
  d.span == some s.name && d.covers s.source.target

def admitsSpan (f : Filter) (s : Span) : Bool :=
  f.any (aboutSpan · s) ||
    match f.decisive? s.source.target with
    | some d => d.passes Span.level
    | none => false

/-- Whether an event passes, inside of spans that are there. -/
def admitsEvent (f : Filter) (target : String) (level : Level) (spans : List Span) : Bool :=
  (spans.any fun s => f.any fun d => aboutSpan d s && d.passes level) ||
    match f.decisive? target with
    | some d => d.passes level
    | none => false

/-- What is left of a record: spans that are not there are left out. -/
def apply (f : Filter) (r : Record) : Option Record :=
  let spans := r.spans.filter f.admitsSpan
  match r.subject with
  | some s => if f.admitsSpan s then some { r with spans } else none
  | none =>
    if f.admitsEvent r.event.source.target r.event.level spans then some { r with spans } else none

end Filter

end LoraBridge.Log
