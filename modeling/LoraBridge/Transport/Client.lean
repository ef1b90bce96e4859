import LoraBridge.Transport.Acks
import LoraBridge.Transport.Request

/-! The client of a broker between two of its suspensions. Calls get their turn one
after the other; in its turn a call registers its waiter and places its request in
a bounded queue, from which the connection takes requests in order. Everything that
a call does without waiting is one function here, and each gives the answers that
calls return with. -/
namespace LoraBridge.Transport

def Request.ackKind? : Request → Option AckKind
  | .subscribe .. | .subscribeMany _ => some .subscribe
  | .unsubscribe _ => some .unsubscribe
  | .publish .. | .disconnect _ => none

def Request.placed? : Request → Option Answer
  | .publish .. => some (.ok ())
  | .subscribe .. | .subscribeMany _ | .unsubscribe _ | .disconnect _ => none

/-- A message can be published to a topic without wildcards only. -/
def Request.placeable : Request → Bool
  | .publish topic .. => !topic.toList.any fun c => c == '+' || c == '#'
  | .subscribe .. | .subscribeMany _ | .unsubscribe _ | .disconnect _ => true

/-- A call in its turn, before its request is placed. -/
structure Entering where
  waiter : Waiter
  request : Request
  /-- The answer of its waiter, when it came before the request was placed. -/
  answer : Option Answer
deriving DecidableEq

structure Client where
  acks : Acks
  queue : List (Waiter × Request)
  entering : Option Entering
  waiting : List (Waiter × Request)
  shutDown : Bool
  /-- Whether there is a connection, or one to come, that takes requests. -/
  running : Bool
deriving DecidableEq

namespace Client

def new : Client := ⟨.empty, [], none, [], false, true⟩

def queueCapacity : Nat := 10

/-- Begin a call. A client that is shut down refuses every call, but has nothing
against being shut down again. -/
def begin (c : Client) (w : Waiter) (r : Request) : Client × List (Waiter × Answer) :=
  if c.shutDown then
    (c, [(w, match r with
      | .disconnect _ => .ok ()
      | _ => .error .shutdown)])
  else ({ c with waiting := c.waiting ++ [(w, r)] }, [])

/-- Give the next call its turn: its waiter is registered. -/
def giveTurn (c : Client) : Client :=
  match c.entering, c.waiting with
  | none, (w, r) :: rest =>
    { c with
      waiting := rest
      entering := some ⟨w, r, none⟩
      acks := match r.ackKind? with
        | some k => c.acks.enqueue k w
        | none => c.acks }
  | _, _ => c

def placeError : Error :=
  .request "Failed to send mqtt requests to eventloop"

def refuse (c : Client) (e : Entering) : Client × List (Waiter × Answer) :=
  ({ c with
      entering := none
      acks := match e.request.ackKind? with
        | some k => c.acks.cancelLast k
        | none => c.acks },
    match e.request with
    | .disconnect _ => []
    | _ => [(e.waiter, .error placeError)])

theorem error_of_mem_refuse {c : Client} {e : Entering} {p : Waiter × Answer}
    (h : p ∈ (c.refuse e).2) : p.2 ≠ .ok () := by
  have hp : p = (e.waiter, .error placeError) := by
    unfold refuse at h
    cases hr : e.request <;> rw [hr] at h <;>
      first | exact List.mem_singleton.1 h | exact absurd h List.not_mem_nil
  rw [hp]
  exact nofun

def place (c : Client) : Client × List (Waiter × Answer) :=
  match c.entering with
  | none => (c, [])
  | some e =>
    if !c.running || !e.request.placeable then refuse c e
    else if queueCapacity ≤ c.queue.length then (c, [])
    else
      ({ c with entering := none, queue := c.queue ++ [(e.waiter, e.request)] },
        ((e.request.placed?.or e.answer).map fun a => (e.waiter, a)).toList)

def take? (c : Client) : Option (Request × Client) :=
  match c.queue with
  | [] => none
  | (_, r) :: rest => some (r, { c with queue := rest })

/-- Drop a call before its request is placed. Its waiter stays. -/
def abandon (c : Client) (w : Waiter) : Client :=
  { c with
    waiting := c.waiting.filter fun p => p.1 != w
    entering := c.entering.filter fun e => e.waiter != w }

/-- Hand answers to their calls. A call returns only after its turn, so an answer
for the call whose turn it is is kept. -/
def hand (c : Client) (answers : List (Waiter × Answer)) : Client × List (Waiter × Answer) :=
  match c.entering with
  | none => (c, answers)
  | some e =>
    let (own, others) := answers.partition fun p => p.1 == e.waiter
    ({ c with entering := some { e with answer := e.answer.or (own.head?.map (·.2)) } }, others)

@[simp] theorem hand_acks (c : Client) (answers : List (Waiter × Answer)) :
    (c.hand answers).1.acks = c.acks := by
  unfold hand
  split <;> rfl

@[simp] theorem hand_queue (c : Client) (answers : List (Waiter × Answer)) :
    (c.hand answers).1.queue = c.queue := by
  unfold hand
  split <;> rfl

@[simp] theorem hand_waiting (c : Client) (answers : List (Waiter × Answer)) :
    (c.hand answers).1.waiting = c.waiting := by
  unfold hand
  split <;> rfl

@[simp] theorem hand_entering (c : Client) (answers : List (Waiter × Answer)) :
    (c.hand answers).1.entering.map (fun e => (e.waiter, e.request)) =
      c.entering.map fun e => (e.waiter, e.request) := by
  unfold hand
  split
  · rfl
  · next e h => simp only [h, Option.map_some]

def held (c : Client) : Option (Waiter × Answer) :=
  c.entering.bind fun e => e.answer.map fun a => (e.waiter, a)

theorem mem_of_hand {c : Client} {answers : List (Waiter × Answer)} {p : Waiter × Answer}
    (h : p ∈ (c.hand answers).2 ∨ (c.hand answers).1.held = some p) :
    p ∈ answers ∨ c.held = some p := by
  unfold hand at h
  split at h
  · next he => exact h
  · next e he =>
    simp only [held, he, List.partition_eq_filter_filter, Option.bind_some] at h ⊢
    rcases h with h | h
    · exact .inl (List.mem_filter.1 h).1
    · cases hans : e.answer with
      | some a => exact .inr (by simpa only [hans, Option.some_or] using h)
      | none =>
        rw [hans, Option.none_or] at h
        obtain ⟨a, ha, rfl⟩ := Option.map_eq_some_iff.1 h
        obtain ⟨q, hq, rfl⟩ := Option.map_eq_some_iff.1 ha
        obtain ⟨hmem, hkey⟩ := List.mem_filter.1 (List.mem_of_head? hq)
        rw [← eq_of_beq hkey]
        exact .inl hmem

def failWaiters (c : Client) : Client × List (Waiter × Answer) :=
  let (acks, answers) := c.acks.failAll
  { c with acks }.hand answers

def stop (c : Client) : Client × List (Waiter × Answer) :=
  { c with running := false, queue := [] }.failWaiters

def shut (c : Client) : Client × List (Waiter × Answer) :=
  { c with shutDown := true }.stop

end Client

end LoraBridge.Transport
