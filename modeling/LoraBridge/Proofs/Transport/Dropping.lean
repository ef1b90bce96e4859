import LoraBridge.Proofs.Runs
import LoraBridge.Proofs.Transport.Shift

/-! Calls that are dropped at any of their suspensions: while they wait for their turn,
in their turn while they wait for room in the queue, and while they wait for the
acknowledgement. The network gets a step that drops a call, and logs of the turns of
calls, of what the broker answered to their requests and of what the event loop has
handled. Its other steps stay, but for those that are errors, or the end, of the
connection. -/
namespace LoraBridge.Transport

def Answer.inTime : Answer → Bool
  | .error (.ackTimeout ..) => false
  | .ok () | .error _ => true

def Request.verdict (r : Request) (id : Mqtt.PacketId) (grants : List Mqtt.Grant) : Answer :=
  match r with
  | .subscribe .. | .subscribeMany _ => EventLoop.subscribeAnswer id (Mqtt.accepted grants)
  | .publish .. | .unsubscribe _ | .disconnect _ => .ok ()

def Request.disconnects : Request → Bool
  | .disconnect _ => true
  | .publish .. | .subscribe .. | .subscribeMany _ | .unsubscribe _ => false

def Network.Act.peaceful : Network.Act → Bool
  | .call _ r => !r.disconnects
  | .fail _ | .lose .. | .halt | .shut => false
  | .turn | .place | .timeOut .. | .send _ | .answer .. | .message .. | .handle | .connect _ => true

structure Crowd where
  net : Network
  turns : List (Waiter × Request)
  dropped : List Waiter
  /-- Those that were dropped in their turn, before their requests were placed. -/
  strays : List Waiter
  outcomes : List (Waiter × Answer)
  /-- The calls whose answers the event loop handled. -/
  handled : List Waiter
  /-- The calls that timed out after the event loop had handled their answers. -/
  overdue : List Waiter

namespace Crowd

def start (backoff : Backoff) : Crowd := ⟨.start backoff, [], [], [], [], [], []⟩

inductive Act where
  | go (a : Network.Act)
  | drop (w : Waiter)
deriving DecidableEq

def note (c : Crowd) : Network.Act → Crowd
  | .turn =>
    if c.net.client.entering.isSome then c
    else { c with turns := c.turns ++ c.net.client.waiting.take 1 }
  | .timeOut w _ =>
    if w ∈ c.handled ∧ w ∉ c.net.returned.map (·.1) then { c with overdue := c.overdue ++ [w] }
    else c
  | .answer id grants =>
    match c.net.unanswered.find? (fun o => o.id == id) with
    | none => c
    | some o => { c with outcomes := c.outcomes ++ [(o.call, o.request.verdict id grants)] }
  | .handle =>
    match c.net.notices with
    | .answered _ w _ _ :: _ => { c with handled := c.handled ++ [w] }
    | _ => c
  | .call .. | .place | .send _ | .message .. | .connect _ | .fail _ | .lose .. | .halt | .shut => c

def permits (c : Crowd) : Network.Act → Bool
  | .timeOut w _ => w ∉ c.dropped
  | a => a.peaceful

def step (c : Crowd) : Act → Option Crowd
  | .go a =>
    if c.permits a then (c.net.step a).map fun net => { c.note a with net } else none
  | .drop w =>
    if w ∈ c.net.calls.map (·.1) ∧ w ∉ c.net.returned.map (·.1) ∧ w ∉ c.dropped then
      some { c with
        net := c.net.setClient (c.net.client.abandon w)
        dropped := c.dropped ++ [w]
        strays := if w ∈ c.net.placing.map (·.1) then c.strays ++ [w] else c.strays }
    else none

def run (c : Crowd) (as : List Act) : Option Crowd :=
  as.foldlM step c

/-- The calls of a kind that had their turn before a call. -/
def earlier (c : Crowd) (k : AckKind) (w : Waiter) : List Waiter := before w (callsOf k c.turns)

/-- Every call that was not dropped and that returned in time got the acknowledgement of
its own request, and the outcome that the broker gave to it; none timed out after its
answer was handled. -/
def Undisturbed (c : Crowd) : Prop :=
  ∀ k, ∀ w ∈ callsOf k c.net.calls, w ∉ c.dropped →
    (∀ a, (w, a) ∈ c.net.returned → a.inTime = true →
      (w, w) ∈ c.net.resolved ∧ (w, a) ∈ c.outcomes) ∧
    w ∉ c.overdue

end Crowd

@[simp] theorem Client.held_eq_some_iff {c : Client} {p : Waiter × Answer} :
    c.held = some p ↔ ∃ e, c.entering = some e ∧ e.waiter = p.1 ∧ e.answer = some p.2 := by
  unfold held
  rw [Option.bind_eq_some_iff]
  refine exists_congr fun e => and_congr_right fun _ => ?_
  rw [Option.map_eq_some_iff]
  constructor
  · rintro ⟨a, ha, rfl⟩
    exact ⟨rfl, ha⟩
  · rintro ⟨hw, ha⟩
    exact ⟨p.2, ha, Prod.ext hw rfl⟩

theorem Client.waiter_of_held {c : Client} {p : Waiter × Answer} {e : Entering}
    (h : c.held = some p) (he : c.entering = some e) : e.waiter = p.1 ∧ e.answer = some p.2 := by
  obtain ⟨e', he', hp⟩ := held_eq_some_iff.1 h
  rw [he, Option.some.injEq] at he'
  rwa [he']

@[simp] theorem Client.hand_shutDown (c : Client) (answers : List (Waiter × Answer)) :
    (c.hand answers).1.shutDown = c.shutDown := by
  unfold hand
  split <;> rfl

@[simp] theorem Client.hand_running (c : Client) (answers : List (Waiter × Answer)) :
    (c.hand answers).1.running = c.running := by
  unfold hand
  split <;> rfl

theorem Client.mem_hand {c : Client} {answers : List (Waiter × Answer)} {p : Waiter × Answer}
    (h : p ∈ answers) :
    p ∈ (c.hand answers).2 ∨ ∃ a, (c.hand answers).1.held = some (p.1, a) := by
  unfold hand
  split
  · exact .inl h
  next e he =>
  simp only [held, List.partition_eq_filter_filter, Option.bind_some]
  by_cases hp : p.1 = e.waiter
  · right
    have hown : p ∈ answers.filter fun p => p.1 == e.waiter :=
      List.mem_filter.2 ⟨h, beq_iff_eq.2 hp⟩
    obtain ⟨q, qs, hq⟩ := List.exists_cons_of_ne_nil (List.ne_nil_of_mem hown)
    rw [hq, List.head?_cons, Option.map_some, hp]
    cases e.answer with
    | none => exact ⟨q.2, rfl⟩
    | some a => exact ⟨a, rfl⟩
  · exact .inl (List.mem_filter.2 ⟨h, by simpa using hp⟩)

namespace Network

variable {n : Network} {change : Acks → Acks × List (Waiter × Answer)} {p : Waiter × Answer}

theorem map_returned_subset_record (n : Network) (answers : List (Waiter × Answer)) :
    n.returned.map (·.1) ⊆ (n.record answers).returned.map (·.1) :=
  List.map_subset _ (List.subset_append_left _ _)

theorem mem_returned_record {answers : List (Waiter × Answer)} (h : p ∈ answers) :
    p.1 ∈ (n.record answers).returned.map (·.1) := by
  unfold record
  rw [List.map_append, List.mem_append]
  by_cases hr : p.1 ∈ n.returned.map (·.1)
  · exact .inl hr
  · refine .inr (List.mem_map_of_mem (List.mem_filter.2 ⟨h, ?_⟩))
    rw [Bool.not_eq_true', List.any_eq_false]
    intro q hq heq
    exact hr (eq_of_beq heq ▸ List.mem_map_of_mem hq)

theorem held_resolve (h : n.client.held = some p) :
    (n.resolve change).client.held = some p := by
  obtain ⟨e, he, hw, ha⟩ := Client.held_eq_some_iff.1 h
  show (Client.hand { n.client with acks := (change n.client.acks).1 }
    (change n.client.acks).2).1.held = some p
  unfold Client.hand
  simp only [he, ha, Option.some_or]
  exact Client.held_eq_some_iff.2 ⟨_, rfl, hw, rfl⟩

theorem given_resolve (h : p ∈ (change n.client.acks).2) :
    p.1 ∈ (n.resolve change).returned.map (·.1) ∨
      ∃ a, (n.resolve change).client.held = some (p.1, a) := by
  rcases Client.mem_hand (c := { n.client with acks := (change n.client.acks).1 }) h with hg | hg
  · exact .inl (mem_returned_record hg)
  · exact .inr hg

theorem follow_verdict (n : Network) {r : Request} (h : r.ackKind? ≠ none) (id : Mqtt.PacketId)
    (w : Waiter) (grants : List Mqtt.Grant) :
    n.follow (.notice (Noticed.answered id w r grants).notice) =
      n.resolve (·.acknowledge id (r.verdict id grants)) := by
  cases r with
  | subscribe | subscribeMany | unsubscribe => exact follow_withAcks rfl
  | publish | disconnect => exact absurd rfl h

end Network

end LoraBridge.Transport
