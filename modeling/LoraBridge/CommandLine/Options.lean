/-! Options on a command line: long and short ones, with values behind them or
attached to them, up to the name of a subcommand. An option takes effect when the
next one begins, or at the end. -/
namespace LoraBridge.CommandLine

structure Flag where
  short : Option Char
  long : String
  value : Option String
  help : String
deriving DecidableEq

def Flag.shown (f : Flag) : String :=
  match f.value with
  | some v => s!"--{f.long} <{v}>"
  | none => s!"--{f.long}"

inductive UsageError where
  | unexpectedArgument (arg : String)
  | unexpectedValue (flag : Flag) (value : String)
  | missingValue (flag : Flag)
  | invalidValue (flag : Flag) (value reason : String)
  | repeated (flag : Flag)
  | unknownCommand (name : String)
  | missingCommand (program : String)
deriving DecidableEq

def UsageError.message : UsageError → String
  | .unexpectedArgument arg => s!"unexpected argument '{arg}' found"
  | .unexpectedValue flag value =>
    s!"unexpected value '{value}' for '{flag.shown}' found; no more were expected"
  | .missingValue flag => s!"a value is required for '{flag.shown}' but none was supplied"
  | .invalidValue flag value reason => s!"invalid value '{value}' for '{flag.shown}': {reason}"
  | .repeated flag => s!"the argument '{flag.shown}' cannot be used multiple times"
  | .unknownCommand name => s!"unrecognized subcommand '{name}'"
  | .missingCommand program => s!"'{program}' requires a subcommand but one was not provided"

inductive Stop where
  | failed (e : UsageError)
  | asked (text : String)
  | lost (help : String)
deriving DecidableEq

structure Spec (σ : Type) where
  flags : List Flag
  commands : List String
  apply : σ → Flag → String → Except Stop σ

/-- What was read so far, and the option whose effect is to come, with its value
when there is one already. -/
structure Scan (σ : Type) where
  read : σ
  pending : Option (Flag × Option String)

namespace Spec

variable {σ : Type}

def resolve (spec : Spec σ) (s : Scan σ) : Except Stop σ :=
  match s.pending with
  | none => .ok s.read
  | some (f, none) => .error (.failed (.missingValue f))
  | some (f, some v) => spec.apply s.read f v

def begin (spec : Spec σ) (s : Scan σ) (f : Flag) (value : Option String) :
    Except Stop (Scan σ) := do
  let read ← spec.resolve s
  match f.value, value with
  | some _, none => .ok ⟨read, some (f, none)⟩
  | _, v => .ok ⟨← spec.apply read f (v.getD ""), none⟩

def long (spec : Spec σ) (s : Scan σ) (text : List Char) : Except Stop (Scan σ) :=
  let (name, rest) := text.span (· != '=')
  let name := String.ofList name
  let value := match rest with
    | [] => none
    | _ :: v => some (String.ofList v)
  match spec.flags.find? fun f => f.long == name with
  | none => .error (.failed (.unexpectedArgument ("--" ++ name)))
  | some f =>
    match f.value, value with
    | none, some v => .error (.failed (.unexpectedValue f v))
    | _, value => spec.begin s f value

/-- Short options in one word; what follows one that has a value is the value. -/
def shorts (spec : Spec σ) (s : Scan σ) : List Char → Except Stop (Scan σ)
  | [] => .ok s
  | c :: cs =>
    match spec.flags.find? fun f => f.short == some c with
    | none => .error (.failed (.unexpectedArgument (String.ofList ['-', c])))
    | some f =>
      if f.value.isNone then do shorts spec (← spec.begin s f none) cs
      else
        match cs with
        | [] => spec.begin s f none
        | '=' :: v => spec.begin s f (some (String.ofList v))
        | v => spec.begin s f (some (String.ofList v))

def unexpected (spec : Spec σ) (word : String) : UsageError :=
  if spec.commands.isEmpty || spec.commands.contains word then .unexpectedArgument word
  else .unknownCommand word

/-- Read words up to a subcommand. The words after two dashes are no options. -/
def scan (spec : Spec σ) (s : Scan σ) :
    List String → Except Stop (Scan σ × Option (String × List String))
  | [] => .ok (s, none)
  | w :: ws =>
    let waits := match s.pending with
      | some (_, none) => true
      | _ => false
    if !waits && spec.commands.contains w then .ok (s, some (w, ws))
    else
      match w.toList with
      | ['-', '-'] =>
        match ws with
        | [] => .ok (s, none)
        | v :: _ => .error (.failed (spec.unexpected v))
      | '-' :: '-' :: text => do scan spec (← spec.long s text) ws
      | '-' :: c :: cs => do scan spec (← spec.shorts s (c :: cs)) ws
      | _ =>
        match s.pending with
        | some (f, none) => scan spec { s with pending := some (f, some w) } ws
        | _ => .error (.failed (spec.unexpected w))

end Spec

end LoraBridge.CommandLine
