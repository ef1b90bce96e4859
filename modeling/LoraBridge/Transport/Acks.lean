import LoraBridge.Mqtt.Packet
import LoraBridge.Transport.Error

/-! The calls that wait for an acknowledgement. A waiter is queued when its request is
placed, bound to a packet identifier when the request goes out, and resolved when
that packet is acknowledged. Requests go out in the order in which they were placed,
so the waiter to bind is always the oldest one of its kind. -/
namespace LoraBridge.Transport

inductive AckKind where
  | subscribe
  | unsubscribe
deriving DecidableEq

def AckKind.name : AckKind → String
  | .subscribe => "subscribe"
  | .unsubscribe => "unsubscribe"

/-- A waiter is known by the number of its call. -/
abbrev Waiter := Nat

abbrev Answer := Except Error Unit

instance : DecidableEq Answer
  | .ok (), .ok () => isTrue rfl
  | .error a, .error b => decidable_of_iff (a = b) ⟨congrArg _, Except.error.inj⟩
  | .ok (), .error _ => isFalse nofun
  | .error _, .ok () => isFalse nofun

structure InFlight where
  id : Mqtt.PacketId
  kind : AckKind
  waiter : Waiter
deriving DecidableEq

structure Acks where
  subscribes : List Waiter
  unsubscribes : List Waiter
  inFlight : List InFlight
deriving DecidableEq

namespace Acks

def empty : Acks := ⟨[], [], []⟩

def queued (a : Acks) : AckKind → List Waiter
  | .subscribe => a.subscribes
  | .unsubscribe => a.unsubscribes

def setQueued (a : Acks) (ws : List Waiter) : AckKind → Acks
  | .subscribe => { a with subscribes := ws }
  | .unsubscribe => { a with unsubscribes := ws }

def enqueue (a : Acks) (kind : AckKind) (w : Waiter) : Acks :=
  a.setQueued (a.queued kind ++ [w]) kind

/-- Forget the newest queued waiter of a kind. -/
def cancelLast (a : Acks) (kind : AckKind) : Acks :=
  a.setQueued (a.queued kind).dropLast kind

/-- The answer of a waiter whose acknowledgement cannot come any more. -/
def lost (kind : AckKind) : Answer :=
  .error (.connectionLost kind.name)

/-- Bind the oldest queued waiter of a kind to an identifier. One that was bound to
it before is lost. -/
def sent (a : Acks) (kind : AckKind) (id : Mqtt.PacketId) : Acks × List (Waiter × Answer) :=
  match a.queued kind with
  | [] => (a, [])
  | w :: ws =>
    let (old, others) := a.inFlight.partition fun f => f.id == id
    ({ a.setQueued ws kind with inFlight := others ++ [⟨id, kind, w⟩] },
      old.map fun f => (f.waiter, lost f.kind))

def acknowledge (a : Acks) (id : Mqtt.PacketId) (answer : Answer) :
    Acks × List (Waiter × Answer) :=
  let (found, others) := a.inFlight.partition fun f => f.id == id
  ({ a with inFlight := others }, found.map fun f => (f.waiter, answer))

def failAll (a : Acks) : Acks × List (Waiter × Answer) :=
  (empty, a.subscribes.map (fun w => (w, lost .subscribe)) ++
    a.unsubscribes.map (fun w => (w, lost .unsubscribe)) ++
    a.inFlight.map (fun f => (f.waiter, lost f.kind)))

def waiters (a : Acks) : List Waiter :=
  a.subscribes ++ a.unsubscribes ++ a.inFlight.map (·.waiter)

@[simp] theorem queued_setQueued (a : Acks) (ws : List Waiter) (k : AckKind) :
    (a.setQueued ws k).queued k = ws := by
  cases k <;> rfl

@[simp] theorem inFlight_setQueued (a : Acks) (ws : List Waiter) (k : AckKind) :
    (a.setQueued ws k).inFlight = a.inFlight := by
  cases k <;> rfl

@[simp] theorem queued_setQueued_of_ne (a : Acks) (ws : List Waiter) {k k' : AckKind} (h : k' ≠ k) :
    (a.setQueued ws k).queued k' = a.queued k' := by
  cases k <;> cases k' <;> first | rfl | exact absurd rfl h

@[simp] theorem queued_enqueue (a : Acks) (k k' : AckKind) (w : Waiter) :
    (a.enqueue k w).queued k' = a.queued k' ++ if k' = k then [w] else [] := by
  unfold enqueue
  split
  · next h => rw [h, queued_setQueued]
  · next h => rw [queued_setQueued_of_ne _ _ h, List.append_nil]

@[simp] theorem inFlight_enqueue (a : Acks) (k : AckKind) (w : Waiter) :
    (a.enqueue k w).inFlight = a.inFlight :=
  inFlight_setQueued a _ k

@[simp] theorem queued_cancelLast (a : Acks) (k k' : AckKind) :
    (a.cancelLast k).queued k' = if k' = k then (a.queued k').dropLast else a.queued k' := by
  unfold cancelLast
  split
  · next h => rw [h, queued_setQueued]
  · next h => rw [queued_setQueued_of_ne _ _ h]

@[simp] theorem inFlight_cancelLast (a : Acks) (k : AckKind) :
    (a.cancelLast k).inFlight = a.inFlight :=
  inFlight_setQueued a _ k

@[simp] theorem queued_empty (k : AckKind) : empty.queued k = [] := by
  cases k <;> rfl

@[simp] theorem sent_of_nil {a : Acks} {k : AckKind} (h : a.queued k = []) (id : Mqtt.PacketId) :
    a.sent k id = (a, []) := by
  simp only [sent, h]

@[simp] theorem queued_sent (a : Acks) (k k' : AckKind) (id : Mqtt.PacketId) :
    (a.sent k id).1.queued k' = if k' = k then (a.queued k').tail else a.queued k' := by
  cases hq : a.queued k with
  | nil =>
    rw [sent_of_nil hq]
    split
    · next h => rw [h, hq, List.tail_nil]
    · rfl
  | cons w ws =>
    simp only [sent, hq]
    split
    · next h =>
      rw [h, hq, List.tail_cons]
      exact queued_setQueued a ws k
    · next h => exact queued_setQueued_of_ne a ws h

@[simp] theorem inFlight_sent_of_cons {a : Acks} {k : AckKind} {w : Waiter} {ws : List Waiter}
    (h : a.queued k = w :: ws) (id : Mqtt.PacketId) :
    (a.sent k id).1.inFlight = (a.inFlight.filter fun f => f.id != id) ++ [⟨id, k, w⟩] := by
  simp only [sent, h, List.partition_eq_filter_filter]
  rfl

@[simp] theorem queued_acknowledge (a : Acks) (id : Mqtt.PacketId) (answer : Answer)
    (k : AckKind) : (a.acknowledge id answer).1.queued k = a.queued k := by
  cases k <;> rfl

@[simp] theorem inFlight_acknowledge (a : Acks) (id : Mqtt.PacketId) (answer : Answer) :
    (a.acknowledge id answer).1.inFlight = a.inFlight.filter fun f => f.id != id := by
  simp only [acknowledge, List.partition_eq_filter_filter]
  rfl

@[simp] theorem answers_acknowledge (a : Acks) (id : Mqtt.PacketId) (answer : Answer) :
    (a.acknowledge id answer).2 =
      (a.inFlight.filter fun f => f.id == id).map fun f => (f.waiter, answer) := by
  simp only [acknowledge, List.partition_eq_filter_filter]

theorem error_of_mem_sent {a : Acks} {k : AckKind} {id : Mqtt.PacketId} {p : Waiter × Answer}
    (h : p ∈ (a.sent k id).2) : p.2 ≠ .ok () := by
  cases hq : a.queued k with
  | nil =>
    rw [sent_of_nil hq] at h
    exact absurd h List.not_mem_nil
  | cons w ws =>
    simp only [sent, hq, List.mem_map] at h
    obtain ⟨f, _, rfl⟩ := h
    exact nofun

theorem error_of_mem_failAll {a : Acks} {p : Waiter × Answer} (h : p ∈ a.failAll.2) :
    p.2 ≠ .ok () := by
  simp only [failAll, List.mem_append, List.mem_map] at h
  obtain (⟨w, _, rfl⟩ | ⟨w, _, rfl⟩) | ⟨f, _, rfl⟩ := h <;> exact nofun

@[simp] theorem map_fst_failAll (a : Acks) : a.failAll.2.map Prod.fst = a.waiters := by
  simp [failAll, waiters, Function.comp_def]

end Acks

end LoraBridge.Transport
