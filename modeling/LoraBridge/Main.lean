import LoraBridge.Bridge.Program
import Std.Time.DateTime.Timestamp

/-! The command line. It reads what the program looks at, runs it, and writes what it
says. There are no sockets here, so that the program runs as on a machine without a
network. -/
namespace LoraBridge.Bridge

def readFile (path : String) : IO (Except FileError (List UInt8)) := do
  try return .ok (← IO.FS.readBinFile path).toList
  catch e =>
    match e with
    | .noFileOrDirectory .. => return .error .notFound
    | .permissionDenied .. => return .error .denied
    | _ => return .error .isDirectory

def observe (seen : World) (words : List String) : IO World := do
  let values ← (variableNames seen words).mapM fun name => return (name, ← IO.getEnv name)
  let files ← (paths seen words).mapM fun path => return (path, ← readFile path)
  return .offline (fun path => (files.lookup path).getD (.error .notFound))
    fun name => (values.lookup name).join

def clock : IO Timestamp := do
  let now ← Std.Time.Timestamp.now
  let seconds := now.toSecondsSinceUnixEpoch.toInt
  let nanos := now.toNanosecondsSinceUnixEpoch.toInt - seconds * 1000000000
  return ⟨seconds / 86400, (seconds % 86400).toNat, nanos.toNat⟩

end LoraBridge.Bridge

open LoraBridge LoraBridge.Bridge in
def main (words : List String) : IO UInt32 := do
  let mut world := .offline (fun _ => .error .notFound) fun _ => none
  -- the variables, then the configuration, then what it names
  for _ in [0:3] do
    world ← observe world words
  let outcome := run world words
  let out ← IO.getStdout
  for o in outcome.output do
    match o with
    | .line text => out.putStrLn text
    | .record r => out.putStr (outcome.format.render (← clock) r)
  (← IO.getStderr).putStr outcome.errors
  return UInt32.ofNat (outcome.exit.getD 0)
