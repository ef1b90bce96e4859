import LoraBridge.Transport.Error
import LoraBridge.Transport.Request

/-! A broker in memory. It records every request with its time, refuses as many
of each operation as its script says, and like a real transport answers nothing
any more once it was disconnected. -/
namespace LoraBridge.Broker

open Transport (Operation Request)

structure Recorded where
  time : Nat
  request : Request
  accepted : Bool
deriving DecidableEq

structure Memory where
  recorded : List Recorded
  /-- How many requests of an operation are still to be refused. -/
  refusals : Operation → Nat
  shutDown : Bool

namespace Memory

def new : Memory := ⟨[], fun _ => 0, false⟩

def history (b : Memory) : List Recorded := b.recorded.reverse

/-- Refuse the next requests of an operation, however many were to be before. -/
def failNext (b : Memory) (op : Operation) (count : Nat) : Memory :=
  { b with refusals := fun o => if o = op then count else b.refusals o }

def clearHistory (b : Memory) : Memory :=
  { b with recorded := [] }

def acceptedCount (b : Memory) (op : Operation) : Nat :=
  b.recorded.countP fun r => r.accepted && r.request.operation == op

/-- Answer a request at a time. A disconnect shuts the broker down even when the
script refuses it. -/
def serve (b : Memory) (now : Nat) (r : Request) : Except Transport.Error Unit × Memory :=
  if b.shutDown then (.error .shutdown, b) else
  let op := r.operation
  let accepted := b.refusals op == 0
  let b := { b with
    recorded := ⟨now, r, accepted⟩ :: b.recorded
    refusals := fun o => if o = op then b.refusals o - 1 else b.refusals o
    shutDown := op == .disconnect }
  (if accepted then .ok () else .error (.failed s!"scripted {op.name} failure"), b)

theorem serve_of_shutDown {b : Memory} (h : b.shutDown) (now : Nat) (r : Request) :
    b.serve now r = (.error .shutdown, b) := by
  simp [serve, h]

end Memory

end LoraBridge.Broker
