import LoraBridge.Bridge.Session
import LoraBridge.CommandLine.Basic
import LoraBridge.Config.Print
import LoraBridge.Config.Read
import LoraBridge.Log.Setup
import LoraBridge.Tls.Plain
import LoraBridge.Transport.Bench

/-! The program: what it writes and how it exits, given its command line, its
environment, its files and what comes over the network. -/
namespace LoraBridge.Bridge

structure World where
  files : Files
  env : Config.Environment
  tls : Tls.Library
  /-- The events of the transport until the time for the connection is over. -/
  opening : Backend.Plan → List Transport.Event
  happenings : List Happening

inductive Output where
  | line (text : String)
  | record (r : Log.Record)

structure Outcome where
  /-- The exit code; none while the program is still running. -/
  exit : Option Nat
  format : Log.Format
  output : List Output
  errors : String

namespace Outcome

def linesOf (text : String) : List Output :=
  ((text.toList.splitOn '\n').dropLast).map fun l => .line (String.ofList l)

def ofStop : CommandLine.Stop → Outcome
  | .asked text => ⟨some 0, .json, linesOf text, ""⟩
  | .lost help => ⟨some 2, .json, [], help⟩
  | .failed e =>
    ⟨some 2, .json, [], s!"error: {e.message}\n\nFor more information, try '--help'.\n"⟩

def logged (settings : Log.Settings × List String) (exit : Option Nat) (output : List Output)
    (errors : String) : Outcome where
  exit := exit
  format := settings.1.format
  output := output.filterMap fun o =>
    match o with
    | .line text => some (.line text)
    | .record r => (settings.1.apply r).map .record
  errors := String.join (settings.2.map (· ++ "\n")) ++ errors

end Outcome

def defaultPaths : List String :=
  ["gateway-bridge.toml", "config/gateway-bridge.toml"]

def isThere (files : Files) (path : String) : Bool :=
  !(files path matches .error .notFound)

/-- Load the configuration that is named, or the first one that is found; an error is
a message. -/
def loadConfig (files : Files) (named : Option String) : Except String Config :=
  match named.or (defaultPaths.find? (isThere files)) with
  | some path => (Config.load files path).mapError Config.LoadError.message
  | none => .error ("No configuration file found. Provide one with -c/--config or create " ++
      defaultPaths.headD "")

def info (message : String) : Output :=
  .record (Session.programEvent .info message [])

def error (message : String) : Output :=
  .record (Session.programEvent .error message [])

def shown (c : Config) : List Output :=
  .line "Current configuration:" :: Outcome.linesOf (c.masked.toToml ++ "\n")

def runConfig (c : Config) (withShow : Bool) : List Output :=
  (if withShow then shown c else []) ++ [info "Configuration validation complete"]

def connectSpan : Log.Span :=
  ⟨.program, "lifecycle_event", [("phase", .text "connect")]⟩

/-- Connect as configured. What the transport logs, and what the dispatcher logs for debugging,
is left out. -/
def connect (w : World) (c : Config) :
    Except (Failure Backend.Error) Backend × List Log.Record :=
  let planLogs := (Backend.planLogs c.mqtt w.tls w.files).map (.of · [connectSpan])
  match Backend.plan c.mqtt w.tls w.files w.env with
  | .error e => (.error e, planLogs)
  | .ok plan =>
    let (result, logs) := Backend.connect plan c.mqtt.server (w.opening plan) [connectSpan]
    (result.mapError .error, planLogs ++ logs)

def within (span : Log.Span) (logs : List Log.Record) : List Output :=
  (Log.Record.ofSpan "new" [] span :: logs ++ [Log.Record.ofSpan "close" [] span]).map .record

/-- Run the bridge; a failure to connect ends the program, with a code of its own when it
breaks off. -/
def runBridge (w : World) (c : Config) (gateways : List Eui) :
    List Output × Option Nat × String :=
  match connect w c with
  | (.error (.error e), logs) =>
    (within connectSpan logs ++ [error s!"Command failed: {e.message}"], some 1, "")
  | (.error (.crash reason), logs) => (within connectSpan logs, some 101, reason)
  | (.ok backend, connectLogs) =>
    let (session, logs) := Session.start backend gateways
    let (session, more) := session.run w.happenings
    let output := within connectSpan connectLogs ++ (logs ++ more).map .record
    if session.stopped then (output ++ [info "Application shutdown complete"], some 0, "")
    else (output, none, "")

def run (w : World) (words : List String) : Outcome :=
  match CommandLine.parse w.env words with
  | .error stop => .ofStop stop
  | .ok invocation =>
    match loadConfig w.files invocation.configPath with
    | .error message =>
      .logged (Log.Settings.ofEnvironment w.env .info) (some 1)
        [error s!"Failed to load configuration: {message}"] ""
    | .ok c =>
      let settings := Log.Settings.ofEnvironment w.env (.ofNumber c.logLevel)
      let start := info s!"Starting gateway bridge v{CommandLine.version}"
      match invocation.command with
      | .run gateways =>
        let (output, exit, errors) := runBridge w c gateways
        .logged settings exit (start :: output) errors
      | .config withShow =>
        .logged settings (some 0)
          (start :: runConfig c withShow ++ [info "Application shutdown complete"]) ""

/-! What the program looks at before it runs; of a configuration that can be loaded
also what it names. -/

def loaded? (w : World) (words : List String) : Option Config :=
  match CommandLine.parse w.env words with
  | .ok invocation => (loadConfig w.files invocation.configPath).toOption
  | .error _ => none

def paths (w : World) (words : List String) : List String :=
  let named := match CommandLine.parse w.env words with
    | .ok invocation => invocation.configPath.toList
    | .error _ => []
  let material := match loaded? w words with
    | some c => [c.mqtt.caCert, c.mqtt.tlsCert, c.mqtt.tlsKey]
    | none => []
  named ++ defaultPaths ++ material

def variableNames (w : World) (words : List String) : List String :=
  let login := match loaded? w words with
    | some c => c.mqtt.usernameEnv.toList ++ c.mqtt.passwordEnv.toList
    | none => []
  [CommandLine.configVariable, "LOG_LEVEL", "LOG_FORMAT", "LOG_SPANS", "RUST_LOG"] ++ login

def World.offline (files : Files) (env : Config.Environment) : World where
  files := files
  env := env
  tls := .plain
  opening _ :=
    (Transport.Bench.start Transport.networkUnreachable .default (.ofSeconds 10)).events
  happenings := []

end LoraBridge.Bridge
