import LoraBridge.CommandLine.Options
import LoraBridge.Config.Basic

/-! The commands of the program, and the help for them. -/
namespace LoraBridge.CommandLine

inductive Command where
  | run (gateways : List Eui)
  | config (shown : Bool)
deriving DecidableEq

structure Invocation where
  configPath : Option String
  command : Command
deriving DecidableEq

def programName : String := "gateway-bridge"

def version : String := "0.1.0"

def about : String := "Bridge between a LoRa packet forwarder and an MQTT broker"

def configVariable : String := "GATEWAY_BRIDGE_CONFIG"

def helpFlag : Flag := ⟨some 'h', "help", none, "Print help"⟩

def versionFlag : Flag := ⟨some 'V', "version", none, "Print version"⟩

def configFlag (env : Config.Environment) : Flag :=
  ⟨some 'c', "config", some "FILE",
    "Configuration file path [env: " ++ configVariable ++ "=" ++
      (env configVariable).getD "" ++ "]"⟩

def gatewayFlag : Flag :=
  ⟨some 'g', "gateway", some "EUI", "Gateway to subscribe to downlinks for (may be repeated)"⟩

def showFlag : Flag := ⟨none, "show", none, "Show current configuration"⟩

def commands : List (String × String) :=
  [("run", "Connect to the broker and relay downlinks"),
   ("config", "Validate configuration"),
   ("help", "Print this message or the help of the given subcommand(s)")]

def columns (rows : List (String × String)) : List String :=
  let width := rows.foldl (fun n r => max n r.1.length) 0
  rows.map fun r =>
    "  " ++ r.1 ++ String.ofList (List.replicate (width - r.1.length) ' ') ++ "  " ++ r.2

def flagRow (f : Flag) : String × String :=
  let short := match f.short with
    | some c => String.ofList ['-', c, ',', ' ']
    | none => "    "
  (short ++ f.shown, f.help)

def block (heading : String) (lines : List String) : List String :=
  if lines.isEmpty then [] else ["", heading ++ ":"] ++ lines

def helpText (about usage : String) (blocks : List (List String)) : String :=
  String.join (([about, "", "Usage: " ++ programName ++ usage] ++ blocks.flatten).map (· ++ "\n"))

def optionBlock (flags : List Flag) : List String :=
  block "Options" (columns (flags.map flagRow))

def programFlags (env : Config.Environment) : List Flag :=
  [configFlag env, helpFlag, versionFlag]

def programHelp (env : Config.Environment) : String :=
  helpText about " [OPTIONS] <COMMAND>"
    [block "Commands" (columns commands), optionBlock (programFlags env)]

def commandFlags : String → List Flag
  | "run" => [gatewayFlag, helpFlag]
  | "config" => [showFlag, helpFlag]
  | _ => []

def commandHelp (name : String) : String :=
  let about := (commands.lookup name).getD ""
  if name = "help" then
    helpText about " help [COMMAND]..."
      [block "Arguments" (columns [("[COMMAND]...", "Print help for the subcommand(s)")])]
  else helpText about s!" {name} [OPTIONS]" [optionBlock (commandFlags name)]

def helpFor (env : Config.Environment) : List String → Stop
  | [] => .asked (programHelp env)
  | name :: rest =>
    if !(commands.map (·.1)).contains name then .failed (.unknownCommand name)
    else
      match rest with
      | [] => .asked (commandHelp name)
      | other :: _ => .failed (.unknownCommand other)

def programSpec (env : Config.Environment) : Spec (Option String) where
  flags := programFlags env
  commands := commands.map (·.1)
  apply path flag value :=
    if flag = helpFlag then .error (.asked (programHelp env))
    else if flag = versionFlag then .error (.asked s!"{programName} {version}\n")
    else if path.isSome then .error (.failed (.repeated flag))
    else if value.isEmpty then .error (.failed (.missingValue flag))
    else .ok (some value)

def runSpec : Spec (List Eui) where
  flags := commandFlags "run"
  commands := []
  apply gateways flag value :=
    if flag = helpFlag then .error (.asked (commandHelp "run"))
    else
      match Eui.parse value with
      | .ok g => .ok (gateways ++ [g])
      | .error e => .error (.failed (.invalidValue flag value e.message))

def configSpec : Spec Bool where
  flags := commandFlags "config"
  commands := []
  apply shown flag _ :=
    if flag = helpFlag then .error (.asked (commandHelp "config"))
    else if shown then .error (.failed (.repeated flag))
    else .ok true

def options {σ : Type} (spec : Spec σ) (start : σ) (words : List String) : Except Stop σ := do
  spec.resolve (← spec.scan ⟨start, none⟩ words).1

def parseCommand (name : String) (words : List String) : Except Stop Command :=
  if name = "run" then (options runSpec [] words).map .run
  else (options configSpec false words).map .config

def configPath (env : Config.Environment) (s : Scan (Option String)) :
    Except Stop (Option String) := do
  let spec := programSpec env
  match ← spec.resolve s, env configVariable with
  | none, some value => spec.apply none (configFlag env) value
  | path, _ => .ok path

/-- Read a command line. What is wrong with the words of a subcommand is told before
what is wrong with the options in front of it. -/
def parse (env : Config.Environment) (words : List String) : Except Stop Invocation := do
  let (s, found) ← (programSpec env).scan ⟨none, none⟩ words
  match found with
  | some ("help", rest) => .error (helpFor env rest)
  | some (name, rest) =>
    let command ← parseCommand name rest
    .ok ⟨← configPath env s, command⟩
  | none =>
    match ← configPath env s with
    | none => .error (.lost (programHelp env))
    | some _ => .error (.failed (.missingCommand programName))

end LoraBridge.CommandLine
