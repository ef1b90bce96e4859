import LoraBridge.Json.Value
import LoraBridge.Log.Event

/-! Records: log events with the spans that they happened in, and how each format
shows them. -/
namespace LoraBridge.Log

structure Span where
  source : Source
  name : String
  fields : List (String × Datum)
deriving DecidableEq

def Span.level : Level := .info

structure Record where
  event : Event
  /-- The spans around the event, outermost first. -/
  spans : List Span
  /-- The span that the record itself tells of. -/
  subject : Option Span
deriving DecidableEq

namespace Record

def of (event : Event) (spans : List Span) : Record := ⟨event, spans, none⟩

def ofSpan (message : String) (spans : List Span) (span : Span) : Record :=
  ⟨⟨Span.level, span.source, message, []⟩, spans, some span⟩

def datumValue : Datum → Json.Value
  | .text s => .string s
  | .count n =>
    match Json.WideInt.ofInt? n with
    | some w => .integer w
    | none => .string (toString n)

def fieldsValue (fields : List (String × Datum)) : Json.Value :=
  .object (Json.Value.sortMembers (fields.map fun f => (f.1, datumValue f.2)))

def spanValue (s : Span) : Json.Value :=
  fieldsValue (("name", .text s.name) :: s.fields)

/-- The members of a record as a JSON object. Only records with a span around them,
or about a span, tell of spans. -/
def members (r : Record) : List (String × Json.Value) :=
  let current := r.subject.or r.spans.getLast?
  [("level", .string r.event.level.name),
    ("fields", fieldsValue (("message", .text r.event.message) :: r.event.fields)),
    ("target", .string r.event.source.target)] ++
  match current with
  | some s => [("span", spanValue s), ("spans", .array (r.spans.map spanValue))]
  | none => []

def value (r : Record) : Json.Value :=
  .object r.members

def assignments (fields : List (String × Datum)) : List String :=
  fields.map fun f => s!"{f.1}={f.2.shown}"

def scope (r : Record) : List Span :=
  r.spans ++ r.subject.toList

def quoted (f : String × Datum) : String × Datum :=
  match f.2 with
  | .text s => (f.1, .text (Json.Value.quote s))
  | .count _ => f

def compact (r : Record) : String :=
  let spans := r.scope
  let names := String.join (spans.map fun s => s.name ++ ":")
  let head := if spans.isEmpty then [] else [names]
  " ".intercalate ([r.event.level.name] ++ head ++ [r.event.message] ++
    assignments r.event.fields ++ spans.flatMap fun s => assignments (s.fields.map quoted))

def pretty (r : Record) : String :=
  ", ".intercalate (s!"{r.event.level.name} {r.event.source.target}: {r.event.message}" ::
    r.event.fields.map fun f => s!"{f.1}: {f.2.shown}")

end Record

end LoraBridge.Log
