/-! Log events: a level, the part of the program that speaks, a message and
named values. -/
namespace LoraBridge.Log

inductive Level where
  | error
  | warn
  | info
  | debug
  | trace
deriving DecidableEq

namespace Level

def name : Level → String
  | .error => "ERROR"
  | .warn => "WARN"
  | .info => "INFO"
  | .debug => "DEBUG"
  | .trace => "TRACE"

def rank : Level → Nat
  | .error => 1
  | .warn => 2
  | .info => 3
  | .debug => 4
  | .trace => 5

def admits (filter event : Level) : Bool :=
  event.rank ≤ filter.rank

end Level

inductive Source where
  | program
  | backend
  | lifecycle
  | downlink
  | tls
deriving DecidableEq

def Source.target : Source → String
  | .program => "gateway_bridge"
  | .backend => "gateway_bridge::backend"
  | .lifecycle => "gateway_bridge::backend::state"
  | .downlink => "gateway_bridge::backend::downlink"
  | .tls => "gateway_bridge::transport::mqtt::tls"

inductive Datum where
  | text (s : String)
  | count (n : Nat)
deriving DecidableEq

def Datum.shown : Datum → String
  | .text s => s
  | .count n => toString n

structure Event where
  level : Level
  source : Source
  message : String
  fields : List (String × Datum)
deriving DecidableEq

end LoraBridge.Log
