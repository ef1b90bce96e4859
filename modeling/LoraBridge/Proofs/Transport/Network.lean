import LoraBridge.Proofs.Runs
import LoraBridge.Transport.EventLoop

/-! A transport with its connection and its broker, as a transition system. The
connection takes requests in the order in which they were placed, keeps those that it
has not taken when an attempt to connect fails, and sends each under an identifier
that no unanswered request has. The broker answers every identifier with the outcome
of the packet that carried it. Callers, the connection, the broker and the event loop
take their steps in any order. -/
namespace LoraBridge.Transport

def Request.packet (r : Request) (id : Mqtt.PacketId) : Mqtt.Sent :=
  match r with
  | .publish .. => .publish id
  | .subscribe .. | .subscribeMany _ => .subscribe id
  | .unsubscribe _ => .unsubscribe id
  | .disconnect _ => .disconnect

def Request.reply (r : Request) (id : Mqtt.PacketId) (grants : List Mqtt.Grant) : Mqtt.Packet :=
  match r with
  | .subscribe .. | .subscribeMany _ => .subAck id grants
  | .unsubscribe _ => .unsubAck id
  | .publish .. => .pubAck id
  | .disconnect _ => .disconnect

def Request.filters : Request → Nat
  | .subscribe .. => 1
  | .subscribeMany topics => topics.length
  | .publish .. | .unsubscribe _ | .disconnect _ => 0

def Request.acceptedBy (r : Request) (grants : List Mqtt.Grant) : Bool :=
  match r with
  | .subscribe .. | .subscribeMany _ => Mqtt.accepted grants
  | .publish .. | .unsubscribe _ | .disconnect _ => true

def callsOf (k : AckKind) (ps : List (Waiter × Request)) : List Waiter :=
  (ps.filter fun p => p.2.ackKind? == some k).map (·.1)

def Action.resolution? : Action → Option (Waiter × Answer)
  | .resolve w a => some (w, a)
  | .forward _ | .sleep _ | .stop => none

structure Unanswered where
  id : Mqtt.PacketId
  call : Waiter
  request : Request
deriving DecidableEq

/-- What the connection has noticed for the event loop. -/
inductive Noticed where
  | sent (id : Mqtt.PacketId) (call : Waiter) (request : Request)
  | answered (id : Mqtt.PacketId) (call : Waiter) (request : Request) (grants : List Mqtt.Grant)
  | message (topic : String) (payload : List UInt8)
  | connected (sessionPresent : Bool)
deriving DecidableEq

def Noticed.notice : Noticed → Mqtt.Notice
  | .sent id _ r => .sent (r.packet id)
  | .answered id _ r grants => .received (r.reply id grants)
  | .message topic payload => .received (.publish topic payload)
  | .connected sessionPresent => .received (.connAck sessionPresent)

def Noticed.sent? : Noticed → Option (Waiter × Request)
  | .sent _ w r => some (w, r)
  | .answered .. | .message .. | .connected _ => none

structure Binding where
  waiter : Waiter
  call : Waiter
  /-- How many requests of the kind were ahead of the waiters at that time, with no
  waiter of their own. -/
  surplus : Nat
deriving DecidableEq

structure Network where
  loop : EventLoop
  notices : List Noticed
  unanswered : List Unanswered
  connected : Bool
  calls : List (Waiter × Request)
  bound : List Binding
  /-- The waiters that were resolved by an acknowledgement, with the call whose request
  was acknowledged. -/
  resolved : List (Waiter × Waiter)
  accepted : List Waiter
  returned : List (Waiter × Answer)

namespace Network

def start (backoff : Backoff) : Network :=
  ⟨.start backoff, [], [], false, [], [], [], [], []⟩

def client (n : Network) : Client := n.loop.client

def setClient (n : Network) (client : Client) : Network :=
  { n with loop := { n.loop with client } }

def record (n : Network) (answers : List (Waiter × Answer)) : Network :=
  { n with returned := n.returned ++ answers.filter fun p => !n.returned.any fun q => q.1 == p.1 }

def placing (n : Network) : List (Waiter × Request) :=
  n.client.entering.toList.map fun e => (e.waiter, e.request)

/-- The requests that the event loop does not know to be sent, oldest first, with the
one that is to be placed. -/
def ahead (n : Network) : List (Waiter × Request) :=
  n.notices.filterMap Noticed.sent? ++ n.client.queue ++ n.placing

def line (n : Network) (k : AckKind) : List Waiter :=
  callsOf k n.ahead

/-- How many requests of a kind have no waiter of their own. -/
def surplus (n : Network) (k : AckKind) : Nat :=
  (n.line k).length - (n.client.acks.queued k).length

def disconnect (n : Network) : Network :=
  { n with connected := false, notices := [], unanswered := [] }

def halt (n : Network) : Network :=
  let (client, answers) := n.client.stop
  (n.disconnect.setClient client).record answers

def follow (n : Network) (p : Polled) : Network :=
  let (loop, actions) := n.loop.handle p
  let n := { n with loop }.record (actions.filterMap Action.resolution?)
  if actions.contains .stop then n.halt else n

def note (n : Network) : Noticed → Network
  | .sent _ w r =>
    match r.ackKind? with
    | none => n
    | some k =>
      match n.client.acks.queued k with
      | [] => n
      | v :: _ => { n with bound := n.bound ++ [⟨v, w, n.surplus k⟩] }
  | .answered id w _ _ =>
    { n with
      resolved := n.resolved ++
        (n.client.acks.inFlight.filter fun f => f.id == id).map fun f => (f.waiter, w) }
  | .message .. | .connected _ => n

inductive Act where
  | call (w : Waiter) (r : Request)
  | turn
  | place
  | timeOut (w : Waiter) (time : Duration)
  | send (id : Mqtt.PacketId)
  | answer (id : Mqtt.PacketId) (grants : List Mqtt.Grant)
  | message (topic : String) (payload : List UInt8)
  | handle
  | connect (sessionPresent : Bool)
  | fail (reason : String)
  /-- The connection is lost; of the requests that it had not taken some may be left. -/
  | lose (reason : String) (left : List (Waiter × Request))
  | halt
  | shut
deriving DecidableEq

def step (n : Network) : Act → Option Network
  | .call w r =>
    if w ∈ n.calls.map (·.1) then none
    else
      let (client, answers) := n.client.begin w r
      some (({ n with calls := n.calls ++ [(w, r)] }.setClient client).record answers)
  | .turn => some (n.setClient n.client.giveTurn)
  | .place =>
    let (client, answers) := n.client.place
    some ((n.setClient client).record answers)
  | .timeOut w time =>
    match n.calls.lookup w with
    | none => none
    | some r =>
      match r.ackKind? with
      | none => none
      | some k =>
        if w ∈ (n.placing ++ n.client.waiting).map (·.1) then none
        else some (n.record [(w, .error (.ackTimeout k.name time))])
  | .send id =>
    if !n.connected || n.unanswered.any (fun o => o.id == id) then none
    else
      match n.client.queue with
      | [] => none
      | (w, r) :: rest =>
        let n := { n.setClient { n.client with queue := rest } with
          notices := n.notices ++ [.sent id w r] }
        match r.ackKind? with
        | none => some n
        | some _ => some { n with unanswered := n.unanswered ++ [⟨id, w, r⟩] }
  | .answer id grants =>
    match n.unanswered.find? (fun o => o.id == id) with
    | none => none
    | some o =>
      if grants.length ≠ o.request.filters then none
      else some { n with
        unanswered := n.unanswered.filter fun o => o.id != id
        notices := n.notices ++ [.answered id o.call o.request grants]
        accepted := if o.request.acceptedBy grants then n.accepted ++ [o.call] else n.accepted }
  | .message topic payload =>
    if n.connected then some { n with notices := n.notices ++ [.message topic payload] } else none
  | .handle =>
    match n.notices with
    | [] => none
    | x :: rest => some ({ n.note x with notices := rest }.follow (.notice x.notice))
  | .connect sessionPresent =>
    if n.connected || !n.client.running then none
    else some { n with connected := true, notices := n.notices ++ [.connected sessionPresent] }
  | .fail reason =>
    if n.connected || !n.client.running then none else some (n.follow (.failed reason))
  | .lose reason left =>
    if n.connected ∧ left.Sublist n.client.queue then
      some ((n.disconnect.setClient { n.client with queue := left }).follow (.failed reason))
    else none
  | .halt => some n.halt
  | .shut =>
    let (client, answers) := n.client.shut
    some ((n.disconnect.setClient client).record answers)

def run (n : Network) (as : List Act) : Option Network :=
  as.foldlM step n

@[simp] theorem record_nil (n : Network) : n.record [] = n := by
  simp only [record, List.filter_nil, List.append_nil]

theorem mem_of_record {n : Network} {answers : List (Waiter × Answer)} {p : Waiter × Answer}
    (h : p ∈ (n.record answers).returned) : p ∈ n.returned ∨ p ∈ answers := by
  rcases List.mem_append.1 h with h | h
  · exact .inl h
  · exact .inr (List.mem_filter.1 h).1

def resolve (n : Network) (change : Acks → Acks × List (Waiter × Answer)) : Network :=
  let (acks, answers) := change n.client.acks
  let (client, answers) := { n.client with acks }.hand answers
  (n.setClient client).record answers

section

variable (n : Network) (change : Acks → Acks × List (Waiter × Answer))

@[simp] theorem acks_resolve : (n.resolve change).client.acks = (change n.client.acks).1 :=
  Client.hand_acks _ _

@[simp] theorem waiting_resolve : (n.resolve change).client.waiting = n.client.waiting :=
  Client.hand_waiting _ _

@[simp] theorem queue_resolve : (n.resolve change).client.queue = n.client.queue :=
  Client.hand_queue _ _

@[simp] theorem placing_resolve : (n.resolve change).placing = n.placing := by
  have h := congrArg Option.toList
    (Client.hand_entering { n.client with acks := (change n.client.acks).1 }
      (change n.client.acks).2)
  rwa [Option.toList_map, Option.toList_map] at h

@[simp] theorem ahead_resolve : (n.resolve change).ahead = n.ahead := by
  unfold ahead
  rw [queue_resolve, placing_resolve]
  rfl

theorem mem_of_resolve {n : Network} {change : Acks → Acks × List (Waiter × Answer)}
    {p : Waiter × Answer}
    (h : p ∈ (n.resolve change).returned ∨ (n.resolve change).client.held = some p) :
    (p ∈ n.returned ∨ n.client.held = some p) ∨ p ∈ (change n.client.acks).2 := by
  have hand := @Client.mem_of_hand { n.client with acks := (change n.client.acks).1 }
    (change n.client.acks).2 p
  rcases h with h | h
  · rcases mem_of_record h with h | h
    · exact .inl (.inl h)
    · rcases hand (.inl h) with h | h
      · exact .inr h
      · exact .inl (.inr h)
  · rcases hand (.inr h) with h | h
    · exact .inr h
    · exact .inl (.inr h)

end

@[simp] theorem filterMap_resolutions (answers : List (Waiter × Answer)) :
    (EventLoop.resolutions answers).filterMap Action.resolution? = answers := by
  unfold EventLoop.resolutions
  rw [List.filterMap_map]
  exact List.filterMap_some

theorem stop_notMem_resolutions (answers : List (Waiter × Answer)) :
    Action.stop ∉ EventLoop.resolutions answers := by
  intro h
  obtain ⟨p, -, hp⟩ := List.mem_map.1 h
  cases hp

theorem follow_withAcks {n : Network} {p : Polled}
    {change : Acks → Acks × List (Waiter × Answer)} (h : n.loop.handle p = n.loop.withAcks change) :
    n.follow p = n.resolve change := by
  have hstop : ((n.loop.withAcks change).2.contains .stop) = false := by
    rw [← Bool.not_eq_true, List.contains_iff_mem]
    exact stop_notMem_resolutions _
  unfold follow
  rw [h]
  simp only [hstop, Bool.false_eq_true, ↓reduceIte]
  unfold EventLoop.withAcks
  rw [filterMap_resolutions]
  rfl

theorem follow_sent (n : Network) {r : Request} {k : AckKind} (h : r.ackKind? = some k)
    (id : Mqtt.PacketId) (w : Waiter) :
    n.follow (.notice (Noticed.sent id w r).notice) = n.resolve (·.sent k id) := by
  refine follow_withAcks ?_
  cases r <;> cases h <;> rfl

theorem follow_answered (n : Network) {r : Request} (h : r.ackKind? ≠ none)
    (id : Mqtt.PacketId) (w : Waiter) (grants : List Mqtt.Grant) :
    ∃ answer, (answer = .ok () → r.acceptedBy grants = true) ∧
      n.follow (.notice (Noticed.answered id w r grants).notice) =
        n.resolve (·.acknowledge id answer) := by
  have hsub : ∀ accepted, EventLoop.subscribeAnswer id accepted = .ok () → accepted = true := by
    intro accepted heq
    cases accepted
    · cases heq
    · rfl
  cases r with
  | subscribe => exact ⟨_, hsub _, follow_withAcks rfl⟩
  | subscribeMany => exact ⟨_, hsub _, follow_withAcks rfl⟩
  | unsubscribe => exact ⟨.ok (), fun _ => rfl, follow_withAcks rfl⟩
  | publish | disconnect => exact absurd rfl h

theorem follow_failed (n : Network) (reason : String) :
    ∃ failures, n.follow (.failed reason) =
      { n.resolve Acks.failAll with
        loop := { (n.resolve Acks.failAll).loop with failures } } := by
  refine ⟨n.loop.failures + 1, ?_⟩
  have hstop : (n.loop.handle (.failed reason)).2.contains .stop = false := by
    rw [← Bool.not_eq_true, List.contains_iff_mem]
    intro h
    rcases List.mem_append.1 h with h | h
    · exact stop_notMem_resolutions _ h
    · simp only [List.mem_cons, reduceCtorEq, List.not_mem_nil, or_self] at h
  have hanswers : (n.loop.handle (.failed reason)).2.filterMap Action.resolution? =
      (n.loop.withAcks Acks.failAll).2.filterMap Action.resolution? :=
    List.filterMap_append.trans (List.append_nil _)
  unfold follow
  simp only [hstop, hanswers, Bool.false_eq_true, ↓reduceIte]
  unfold EventLoop.withAcks
  rw [filterMap_resolutions]
  rfl

end Network

end LoraBridge.Transport
