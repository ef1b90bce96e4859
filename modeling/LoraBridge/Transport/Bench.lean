import LoraBridge.Duration
import LoraBridge.Transport.EventLoop

/-! A transport on a network where no broker can be reached: every attempt to connect
fails at once, for one reason. The clock moves only while something waits; between
two steps of the user everything runs as far as it can. -/
namespace LoraBridge.Transport

inductive Phase where
  | sleeping (wake : Nat)
  /-- The user has to take an event before it goes on. -/
  | blocked (rest : List Action)
  | ended
deriving DecidableEq

structure Closing where
  waiter : Waiter
  grace : Nat
  /-- Whether its request is placed; what is left is to see it sent. -/
  placed : Bool
  deadline : Nat
deriving DecidableEq

structure Bench where
  loop : EventLoop
  reason : String
  ackTimeout : Duration
  now : Nat
  phase : Phase
  events : List Event
  listening : Bool
  deadlines : List (Waiter × AckKind × Nat)
  closings : List Closing
  answers : List (Waiter × Answer)

namespace Bench

def eventCapacity : Nat := 64

def client (b : Bench) : Client := b.loop.client

def setClient (b : Bench) (client : Client) : Bench :=
  { b with loop := { b.loop with client } }

def answer? (b : Bench) (w : Waiter) : Option Answer :=
  b.answers.lookup w

def record (b : Bench) (answers : List (Waiter × Answer)) : Bench :=
  answers.foldl (fun b (w, a) =>
    if (b.answer? w).isSome then b
    else { b with
      answers := b.answers ++ [(w, a)]
      deadlines := b.deadlines.filter fun d => d.1 != w }) b

def endLoop (b : Bench) : Bench :=
  let (client, answers) := b.client.stop
  { (b.setClient client).record answers with phase := .ended }

def perform : List Action → Bench → Bench
  | [], b => b
  | .resolve w a :: rest, b => perform rest (b.record [(w, a)])
  | .forward e :: rest, b =>
    if !b.listening then b.endLoop
    else if eventCapacity ≤ b.events.length then { b with phase := .blocked (.forward e :: rest) }
    else perform rest { b with events := b.events ++ [e] }
  | .sleep millis :: rest, b => perform rest { b with phase := .sleeping (b.now + millis.toNat) }
  | .stop :: _, b => b.endLoop

def attempt (b : Bench) : Bench :=
  let (loop, actions) := b.loop.handle (.failed b.reason)
  perform actions { b with loop }

def placed (b : Bench) (e : Entering) : Bench :=
  match e.request with
  | .disconnect _ =>
    { b with closings := b.closings.map fun x =>
        if x.waiter = e.waiter then { x with placed := true, deadline := b.now + x.grace } else x }
  | r =>
    match r.ackKind? with
    | some kind =>
      if (b.answer? e.waiter).isSome then b
      else
        let deadline := b.now + b.ackTimeout.millis
        { b with deadlines := b.deadlines ++ [(e.waiter, kind, deadline)] }
    | none => b

def turn (b : Bench) : Bench :=
  let client := b.client.giveTurn
  match client.entering with
  | none => b
  | some e =>
    let (client, answers) := client.place
    let b := (b.setClient client).record answers
    if client.entering.isSome then b else b.placed e

def canTurn (b : Bench) : Bool :=
  match b.client.entering with
  | none => !b.client.waiting.isEmpty
  | some e => !b.client.running || !e.request.placeable ||
      b.client.queue.length < Client.queueCapacity

def finish (b : Bench) (x : Closing) : Bench :=
  let (client, answers) := b.client.shut
  let b := (b.setClient client).record (answers ++ [(x.waiter, .ok ())])
  { b with phase := .ended, closings := b.closings.filter fun y => y.waiter != x.waiter }

/-- Let calls go on while they can. Each turn ends the placing of a call, and each
end of a closing removes it. -/
def settle (b : Bench) : Bench :=
  go (2 * (b.client.waiting.length + b.closings.length) + 3) b
where
  go : Nat → Bench → Bench
    | 0, b => b
    | fuel + 1, b =>
      if b.canTurn then go fuel b.turn
      else
        match b.closings.find? fun x => x.placed && b.phase = .ended with
        | some x => go fuel (b.finish x)
        | none => b

/-- A transport that was just started: it has tried to connect once. -/
def start (reason : String) (backoff : Backoff) (ackTimeout : Duration) : Bench :=
  attempt
    { loop := .start backoff, reason, ackTimeout, now := 0, phase := .sleeping 0, events := [],
      listening := true, deadlines := [], closings := [], answers := [] }

def call (b : Bench) (w : Waiter) (r : Request) : Bench :=
  let (client, answers) := b.client.begin w r
  let b := (b.setClient client).record answers
  match r with
  | .disconnect grace =>
    if (b.answer? w).isSome then b
    else
      let grace := grace.millis
      settle { b with closings := b.closings ++ [⟨w, grace, false, b.now + grace⟩] }
  | _ => b.settle

def least : List Nat → Option Nat
  | [] => none
  | n :: ns => some (ns.foldl min n)

def next? (b : Bench) : Option Nat :=
  let wake := match b.phase with
    | .sleeping wake => [wake]
    | .blocked _ | .ended => []
  least (wake ++ b.deadlines.map (·.2.2) ++ b.closings.map (·.deadline))

def expire (b : Bench) : Bench :=
  match b.deadlines.find? fun d => d.2.2 ≤ b.now with
  | some (w, kind, _) => b.record [(w, .error (.ackTimeout kind.name b.ackTimeout))]
  | none =>
    match b.closings.find? fun x => x.deadline ≤ b.now with
    | some x => finish (b.setClient (b.client.abandon x.waiter)) x
    | none => b

/-- Let happen what happens next, at its time. -/
def fire (b : Bench) (time : Nat) : Bench :=
  let b := { b with now := max b.now time }
  match b.phase with
  | .sleeping wake => if wake ≤ b.now then b.attempt.settle else b.expire.settle
  | .blocked _ | .ended => b.expire.settle

def waitUntil (holds : Bench → Bool) (time : Nat) (b : Bench) : Bool × Bench :=
  go (time - b.now + eventCapacity + 2 + b.deadlines.length + 2 * b.closings.length) b
where
  go : Nat → Bench → Bool × Bench
    | 0, b => (holds b, b)
    | fuel + 1, b =>
      if holds b then (true, b)
      else
        match b.next? with
        | none => (false, { b with now := max b.now time })
        | some t =>
          if t ≤ time then go fuel (b.fire t) else (false, { b with now := max b.now time })

def pass (b : Bench) (millis : Nat) : Bench :=
  (b.waitUntil (fun _ => false) (b.now + millis)).2

inductive Taken where
  | event (e : Event)
  | ended
  | timeout
deriving DecidableEq

def takeEvent (b : Bench) (millis : Nat) : Taken × Bench :=
  let ready (b : Bench) : Bool := !b.events.isEmpty || b.phase = .ended
  let (_, b) := b.waitUntil ready (b.now + millis)
  match b.events with
  | e :: events =>
    let b := { b with events }
    match b.phase with
    | .blocked rest => (.event e, (perform rest b).settle)
    | .sleeping _ | .ended => (.event e, b)
  | [] => (if b.phase = .ended then .ended else .timeout, b)

def dropEvents (b : Bench) : Bench :=
  let b := { b with listening := false, events := [] }
  match b.phase with
  | .blocked _ => b.endLoop.settle
  | .sleeping _ | .ended => b

def dropClient (b : Bench) : Bench :=
  let (client, answers) := b.client.shut
  { (b.setClient client).record answers with phase := .ended }.settle

def waitAnswer (b : Bench) (w : Waiter) (millis : Nat) : Option Answer × Bench :=
  let (_, b) := b.waitUntil (fun b => (b.answer? w).isSome) (b.now + millis)
  (b.answer? w, b)

end Bench

end LoraBridge.Transport
