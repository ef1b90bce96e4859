import LoraBridge.Log.Filter
import LoraBridge.Timestamp

/-! The settings of logging: levels and formats by their names, and what the
environment says of them. -/
namespace LoraBridge.Log

/-- A letter in uppercase; of the letters beyond ASCII the dotless i counts as an
ASCII letter there. -/
def upper (c : Char) : Char :=
  if c = '\u0131' then 'I' else c.toUpper

def Level.parse? (s : String) : Option Level :=
  let name := String.ofList (s.toList.map upper)
  [Level.error, .warn, .info, .debug, .trace].find? fun l => l.name == name

def Level.ofNumber (n : UInt8) : Level :=
  if n ≤ 2 then .error
  else if n = 3 then .warn
  else if n = 4 then .info
  else .debug

inductive Format where
  | json
  | pretty
  | compact
deriving DecidableEq

def Format.parse (s : String) : Format :=
  match String.ofList (s.toList.map Char.toLower) with
  | "pretty" => .pretty
  | "compact" => .compact
  | _ => .json

def Format.render (f : Format) (time : Timestamp) (r : Record) : String :=
  match f with
  | .json => (Json.Value.object (("timestamp", .string time.text) :: r.members)).text ++ "\n"
  | .compact => time.text ++ " " ++ r.compact ++ "\n"
  | .pretty => "  " ++ time.text ++ " " ++ r.pretty ++ "\n\n"

def parseFlag (s : String) : Bool :=
  String.ofList (s.toList.map Char.toLower) == "true"

structure Settings where
  filter : Filter
  format : Format
  spanEvents : Bool
deriving DecidableEq

/-- The settings of an environment, with the level that holds when it names none, and
notices of what was not understood. A filter of its own goes before the level. -/
def Settings.ofEnvironment (env : String → Option String) (level : Level) :
    Settings × List String :=
  let level := ((env "LOG_LEVEL").bind Level.parse?).getD level
  let (filter, notices) := match env "RUST_LOG" with
    | some s => Filter.parse s
    | none => (Filter.ofLevel level, [])
  (⟨filter, Format.parse ((env "LOG_FORMAT").getD "json"),
    ((env "LOG_SPANS").map parseFlag).getD false⟩, notices)

def Settings.apply (s : Settings) (r : Record) : Option Record :=
  if r.subject.isSome && !s.spanEvents then none else s.filter.apply r

end LoraBridge.Log
