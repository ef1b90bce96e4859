import LoraBridge.Backend.Basic
import LoraBridge.Broker.Memory

/-! A backend on the broker in memory, with a bounded queue of events and a clock
that moves only while something waits. Between two steps of its user every actor
runs as far as it can. -/
namespace LoraBridge.Backend

def Bench.queueCapacity : Nat := 16

structure Bench where
  backend : Backend
  broker : Broker.Memory
  queue : List Transport.Event
  now : Nat
  taken : Nat
  logs : List Log.Event

namespace Bench

def log (w : Bench) (events : List Log.Event) : Bench :=
  { w with logs := events.reverse ++ w.logs }

def start (topics : Topic.Topics) (options : Options) : Bench :=
  let (b, logs) := Backend.start topics options
  log ⟨b, .new, [], 0, 0, []⟩ logs

def drain (w : Bench) : List Transport.Event → Bench
  | [] => { w with queue := [] }
  | e :: rest =>
    if w.backend.dispatcher = .idle then
      let (b, logs) := w.backend.handle w.taken e
      drain (log { w with backend := b, taken := w.taken + 1 } logs) rest
    else { w with queue := e :: rest }

def attempt (w : Bench) : Bench :=
  let (b, request, logs) := w.backend.attempt
  let w := log { w with backend := b } logs
  match request with
  | none => w
  | some r =>
    let (answer, broker) := w.broker.serve w.now r
    let (b, logs) := w.backend.attempted w.now answer
    log { w with backend := b, broker } logs

/-- Make the attempts of the replay that are due until a time; with no delay
between attempts they all are, so their number is bounded by fuel. -/
def replayUntil (time : Nat) : Nat → Bench → Bench
  | 0, w => w
  | fuel + 1, w =>
    match w.backend.replay with
    | .due _ => replayUntil time fuel (attempt w)
    | .sleeping _ wake =>
      if wake ≤ time then
        replayUntil time fuel { w with backend := w.backend.awaken, now := max w.now wake }
      else w
    | .none | .asking .. => w

/-- Fuel for the attempts until a time: as many as the script refuses or as there
is time for, and every one is made due first. -/
def replayFuel (w : Bench) (time : Nat) : Nat :=
  let delay := w.backend.options.resubscribeDelay.millis
  let timed := if delay = 0 then 0 else (time - w.now) / delay
  2 * (w.broker.refusals .subscribeMany + timed) + 4

/-- Let every actor run as far as it can without waiting. -/
def settle (w : Bench) : Bench :=
  let w := drain w w.queue
  replayUntil w.now (replayFuel w w.now) w

def passUntil (w : Bench) (time : Nat) : Bench :=
  let w := replayUntil time (replayFuel w time) w
  { w with now := max w.now time }

def pass (w : Bench) (millis : Nat) : Bench :=
  w.passUntil (w.now + millis)

inductive Offered where
  | queued
  | full
  | gone
deriving DecidableEq

def offer (w : Bench) (e : Transport.Event) : Offered × Bench :=
  if w.backend.dispatcher = .stopped then (.gone, w)
  else if queueCapacity ≤ w.queue.length then (.full, w)
  else (.queued, settle { w with queue := w.queue ++ [e] })

def perform (w : Bench) (op : Operation) : Except Error Unit × Bench :=
  match w.backend.prepare op with
  | .error e => (.error e, w)
  | .ok (request, event) =>
    let (answer, broker) := w.broker.serve w.now request
    let (b, result) := w.backend.complete op answer
    (result, settle (log { w with backend := b, broker } [event]))

def close (w : Bench) : Except Error Unit × Bench :=
  let (b, request, logs) := w.backend.beginClose
  let w := log { w with backend := b } logs
  match request with
  | none => (.ok (), w)
  | some r =>
    let (answer, broker) := w.broker.serve w.now r
    let (b, result, logs) := w.backend.finishClose answer
    (result, log { w with backend := b, broker, queue := [] } logs)

def abandon (w : Bench) : Bench :=
  { w with backend := w.backend.abandon, queue := [] }

def waitConnected (w : Bench) : Except Error Unit × Bench :=
  match w.backend.connectionOutcome? with
  | some r => (r, w)
  | none => (.error w.backend.connectTimeoutError, w.pass w.backend.options.connectTimeout.millis)

def receive (w : Bench) (millis : Nat) : Option Downlink.Received × Bench :=
  match w.backend.receive with
  | (.nothing, _) => (none, w.pass millis)
  | (r, b) => (some r, settle { w with backend := b })

def tryReceive (w : Bench) : Downlink.Received × Bench :=
  let (r, b) := w.backend.receive
  (r, settle { w with backend := b })

def dropReceiver (w : Bench) : Bench :=
  let (b, logs) := w.backend.dropReceiver
  settle (log { w with backend := b } logs)

/-- Wait until the broker has accepted a number of requests, or until a time is
reached; what happens exactly then comes too late. -/
def waitAccepted (op : Transport.Operation) (count deadline : Nat) : Nat → Bench → Bool × Bench
  | 0, w => (false, w.passUntil deadline)
  | fuel + 1, w =>
    if count ≤ w.broker.acceptedCount op then (true, w) else
    match w.backend.wake? with
    | some wake =>
      if wake < deadline then waitAccepted op count deadline fuel (w.passUntil wake)
      else (false, w.passUntil deadline)
    | none => (false, w.passUntil deadline)

end Bench

end LoraBridge.Backend
