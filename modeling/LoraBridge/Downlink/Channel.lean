import LoraBridge.Envelope.Decode
import LoraBridge.Log.Event

/-! The hand-off of downlink frames to the packet forwarder: a bounded queue with
one reader. A delivery waits while the queue is full, and waiting deliveries get
their room in the order in which they came. -/
namespace LoraBridge.Downlink

open Envelope (DownlinkFrame)

/-- A frame on its way into the queue; the ticket tells deliveries apart. -/
structure Delivery where
  ticket : Nat
  topic : String
  frame : DownlinkFrame
deriving DecidableEq

structure Channel where
  capacity : Nat
  buffer : List DownlinkFrame
  /-- The deliveries that wait for room, first come first. -/
  waiting : List Delivery
  hasReader : Bool
  hasWriter : Bool

inductive Outcome where
  | delivered
  | waiting
  | refused
deriving DecidableEq

inductive Received where
  | frame (f : DownlinkFrame)
  | nothing
  | ended
deriving DecidableEq

namespace Channel

/-- An empty queue; it has room for one frame at least. -/
def new (capacity : Nat) : Channel :=
  ⟨max 1 capacity, [], [], true, true⟩

def deliver (c : Channel) (d : Delivery) : Outcome × Channel :=
  if !c.hasReader then (.refused, c)
  else if c.waiting.isEmpty && c.buffer.length < c.capacity then
    (.delivered, { c with buffer := c.buffer ++ [d.frame] })
  else (.waiting, { c with waiting := c.waiting ++ [d] })

/-- Take a frame; the first waiting delivery gets its room. -/
def receive (c : Channel) : Received × Channel :=
  match c.buffer with
  | f :: rest =>
    match c.waiting with
    | d :: more => (.frame f, { c with buffer := rest ++ [d.frame], waiting := more })
    | [] => (.frame f, { c with buffer := rest })
  | [] => (if c.hasWriter then .nothing else .ended, c)

/-- The reader goes; frames are lost, and the waiting deliveries are refused. -/
def dropReader (c : Channel) : List Delivery × Channel :=
  (c.waiting, { c with buffer := [], waiting := [], hasReader := false })

def dropWriter (c : Channel) : Channel :=
  { c with hasWriter := false }

def abandonWaiting (c : Channel) : Channel :=
  { c with waiting := [], hasWriter := false }

end Channel

def decode (payload : List UInt8) : Except Json.Error DownlinkFrame :=
  Json.decode DownlinkFrame.read payload

def problem : Json.Error → String
  | .fault .malformed => "malformed text"
  | .fault .truncated => "text ends too early"
  | .mismatch m => m.message

def malformedEvent (topic : String) (e : Json.Error) : Log.Event :=
  ⟨.warn, .downlink, "backend: decode downlink frame error",
    [("topic", .text topic), ("error", .text (problem e))]⟩

def discardedEvent (d : Delivery) : Log.Event :=
  ⟨.warn, .downlink, "backend: downlink receiver dropped, frame discarded",
    [("topic", .text d.topic), ("token", .count d.frame.token.toNat)]⟩

end LoraBridge.Downlink
