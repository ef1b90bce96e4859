import LoraBridge.Downlink.Channel

/-! A downlink queue with a record of what became of every delivery. -/
namespace LoraBridge.Downlink

structure Bench where
  channel : Channel
  /-- What became of the deliveries so far; none while one waits for room. -/
  results : List (Option Bool)

namespace Bench

def start (capacity : Nat) : Bench := ⟨.new capacity, []⟩

def update (b : Bench) : Bench :=
  let waiting := b.channel.waiting.map (·.ticket)
  { b with results := b.results.mapIdx fun i r =>
      if r.isNone && !waiting.contains i then some true else r }

/-- Begin a delivery of a message, numbered by those before it. -/
def deliver (b : Bench) (topic : String) (payload : List UInt8) : Bench :=
  match decode payload with
  | .error _ => { b with results := b.results ++ [some false] }
  | .ok frame =>
    let (outcome, channel) := b.channel.deliver ⟨b.results.length, topic, frame⟩
    let result := match outcome with
      | .delivered => some true
      | .waiting => none
      | .refused => some false
    ⟨channel, b.results ++ [result]⟩

def receive (b : Bench) : Received × Bench :=
  let (r, channel) := b.channel.receive
  (r, update { b with channel })

def dropReader (b : Bench) : Bench :=
  let (refused, channel) := b.channel.dropReader
  let tickets := refused.map (·.ticket)
  ⟨channel, b.results.mapIdx fun i r => if tickets.contains i then some false else r⟩

def dropWriter (b : Bench) : Bench :=
  { b with channel := b.channel.dropWriter }

end Bench

end LoraBridge.Downlink
