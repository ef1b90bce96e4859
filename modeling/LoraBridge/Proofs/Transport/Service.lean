import LoraBridge.Proofs.Runs
import LoraBridge.Proofs.Transport.Peer
import LoraBridge.Proofs.Transport.Pending

/-! A transport that is shut down while it is in use. A call that disconnects waits for its turn
and for room, then for the event loop to end, each for its grace at most; then it sets the flag,
tells the event loop to go, and fails the waiters that are left. The event loop may end on its own
at any time, and it goes some time after it was told to. Nothing is assumed of the connection: any
packets come, and any errors, in any order. -/
namespace LoraBridge.Transport

def Client.close (c : Client) : Client :=
  { c with running := false, queue := [] }

/-- To shut a client at once is to set its flag, to let its event loop go, and to fail its
waiters. -/
theorem Client.shut_eq (c : Client) : c.shut = { c with shutDown := true }.close.failWaiters :=
  rfl

def Client.registering (c : Client) : List Waiter :=
  match c.entering, c.waiting with
  | none, (w, r) :: _ => if r.ackKind?.isSome then [w] else []
  | _, _ => []

structure Books where
  client : Client
  calls : List (Waiter × Request)
  registered : List Waiter
  /-- The waiters that an acknowledgement resolved, with its packet. -/
  completed : List (Waiter × Mqtt.Packet)
  dropped : List Waiter
  returned : List (Waiter × Answer)

namespace Books

def start : Books := ⟨.new, [], [], [], [], []⟩

def record (b : Books) (answers : List (Waiter × Answer)) : Books :=
  { b with
    returned := b.returned ++ answers.filter fun p =>
      !(b.returned.any fun q => q.1 == p.1) && !b.dropped.contains p.1 }

def call (b : Books) (w : Waiter) (r : Request) : Books :=
  { b with client := (b.client.begin w r).1, calls := b.calls ++ [(w, r)] }.record
    (b.client.begin w r).2

def turn (b : Books) : Books :=
  { b with client := b.client.giveTurn, registered := b.registered ++ b.client.registering }

def place (b : Books) : Books :=
  { b with client := b.client.place.1 }.record b.client.place.2

def drop (b : Books) (w : Waiter) : Books :=
  { b with client := b.client.abandon w, dropped := b.dropped ++ [w] }

def settle (b : Books) (out : Acks × List (Waiter × Answer)) : Books :=
  { b with client := ({ b.client with acks := out.1 }.hand out.2).1 }.record
    ({ b.client with acks := out.1 }.hand out.2).2

def note (b : Books) : Polled → Books
  | .notice (.received packet) =>
    match packet.acknowledged? with
    | none => b
    | some (_, id) =>
      { b with completed := b.completed ++
          (b.client.acks.inFlight.filter fun f => f.id == id).map fun f => (f.waiter, packet) }
  | .notice (.sent _) | .failed _ => b

def poll (b : Books) (out : EventLoop × List Action) : Books :=
  { b with client := out.1.client }.record (out.2.filterMap Action.resolution?)

def queueing (b : Books) : List Waiter :=
  b.client.entering.toList.map (·.waiter) ++ b.client.waiting.map (·.1)

end Books

/-- A call that disconnects, on its way. -/
inductive Parting where
  | queueing (deadline : Nat)
  | flushing (deadline : Nat)
  | stopping
  /-- The flag is set; the waiters are still to fail. -/
  | stopped
deriving DecidableEq

def Parting.deadline? : Parting → Option Nat
  | .queueing deadline | .flushing deadline => some deadline
  | .stopping | .stopped => none

inductive Driver where
  | following
  | leaving
  | left
  | gone
deriving DecidableEq

structure Service where
  books : Books
  backoff : Backoff
  failures : UInt32
  driver : Driver
  partings : Waiter → Option Parting
  now : Nat

namespace Service

def start (backoff : Backoff) : Service := ⟨.start, backoff, 0, .following, fun _ => none, 0⟩

def client (s : Service) : Client := s.books.client

def loop (s : Service) : EventLoop := ⟨s.client, s.backoff, s.failures⟩

def setBooks (s : Service) (books : Books) : Service := { s with books }

def setParting (s : Service) (w : Waiter) (p : Option Parting) : Service :=
  { s with partings := fun v => if v = w then p else s.partings v }

@[simp] theorem partings_setParting (s : Service) (w v : Waiter) (p : Option Parting) :
    (s.setParting w p).partings v = if v = w then p else s.partings v :=
  rfl

def grace (s : Service) (w : Waiter) : Nat :=
  match s.books.calls.lookup w with
  | some (.disconnect grace) => grace.nanos
  | _ => 0

inductive Act where
  | call (w : Waiter) (r : Request)
  | turn
  | place
  | timeOut (w : Waiter) (time : Duration)
  | drop (w : Waiter)
  | take
  | poll (p : Polled)
  /-- The event loop ends, on the signal to stop or because nobody listens any more. -/
  | leave
  | finish
  /-- The event loop goes, after its end or because it was told to. -/
  | vanish
  | pass (nanos : Nat)
  | giveUp (w : Waiter)
  | see (w : Waiter)
  | shut (w : Waiter)
  | conclude (w : Waiter)
deriving DecidableEq

def step (s : Service) : Act → Option Service
  | .call w r =>
    if w ∈ s.books.calls.map (·.1) then none
    else
      let s' := s.setBooks (s.books.call w r)
      match r with
      | .disconnect grace =>
        if s.client.shutDown then some s'
        else some (s'.setParting w (some (.queueing (s.now + grace.nanos))))
      | _ => some s'
  | .turn => some (s.setBooks s.books.turn)
  | .place =>
    let s' := s.setBooks s.books.place
    match s.client.entering with
    | none => some s'
    | some e =>
      if s'.client.entering.isSome || (s.partings e.waiter).isNone then some s'
      else if s.client.running then
        some (s'.setParting e.waiter (some (.flushing (s.now + s.grace e.waiter))))
      else some (s'.setParting e.waiter (some .stopping))
  | .timeOut w time =>
    match (s.books.calls.lookup w).bind Request.ackKind? with
    | none => none
    | some k =>
      if w ∈ s.books.queueing then none
      else some (s.setBooks (s.books.record [(w, .error (.ackTimeout k.name time))]))
  | .drop w =>
    if w ∈ s.books.calls.map (·.1) ∧ w ∉ s.books.returned.map (·.1) then
      some ((s.setBooks (s.books.drop w)).setParting w none)
    else none
  | .take =>
    if s.driver = .following then
      s.client.take?.map fun p => s.setBooks { s.books with client := p.2 }
    else none
  | .poll p =>
    if s.driver = .following then
      let out := s.loop.handle p
      some { s with
        books := (s.books.note p).poll out
        failures := out.1.failures
        driver := if Action.stop ∈ out.2 then .leaving else .following }
    else none
  | .leave => if s.driver = .following then some { s with driver := .leaving } else none
  | .finish =>
    if s.driver = .leaving then
      some { s.setBooks (s.books.settle s.client.acks.failAll) with driver := .left }
    else none
  | .vanish => some { s.setBooks { s.books with client := s.client.close } with driver := .gone }
  | .pass nanos => some { s with now := s.now + nanos }
  | .giveUp w =>
    match s.partings w with
    | some (.queueing deadline) =>
      if deadline ≤ s.now then
        some ((s.setBooks { s.books with client := s.client.abandon w }).setParting w
          (some .stopping))
      else none
    | some (.flushing deadline) =>
      if deadline ≤ s.now then some (s.setParting w (some .stopping)) else none
    | _ => none
  | .see w =>
    match s.partings w with
    | some (.flushing _) =>
      if s.driver = .left ∨ s.driver = .gone then some (s.setParting w (some .stopping)) else none
    | _ => none
  | .shut w =>
    match s.partings w with
    | some .stopping =>
      some ((s.setBooks { s.books with client := { s.client with shutDown := true } }).setParting w
        (some .stopped))
    | _ => none
  | .conclude w =>
    match s.partings w with
    | some .stopped =>
      some ((s.setBooks ((s.books.settle s.client.acks.failAll).record [(w, .ok ())])).setParting w
        none)
    | _ => none

def run (s : Service) (as : List Act) : Option Service :=
  as.foldlM step s

end Service

end LoraBridge.Transport
