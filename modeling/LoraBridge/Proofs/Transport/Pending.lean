import LoraBridge.Proofs.Transport.Bookkeeping
import LoraBridge.Proofs.Transport.Dropping

/-! Where the answer of a call may come from. A call waits for its turn, or its waiter is
registered, or an answer is kept for it until its turn ends. However callers and the event loop
take their steps, a call stands in one of these places only, and an error answers every waiter
with the loss of the connection. -/
namespace LoraBridge.Transport

namespace Acks

variable {a : Acks} {k : AckKind} {w : Waiter}

def Awaits (a : Acks) (k : AckKind) (w : Waiter) : Prop :=
  w ∈ a.queued k ∨ ∃ f ∈ a.inFlight, f.kind = k ∧ f.waiter = w

theorem Awaits.mem_failAll (h : a.Awaits k w) : (w, lost k) ∈ a.failAll.2 := by
  simp only [failAll, List.mem_append, List.mem_map]
  rcases h with h | ⟨f, hf, rfl, rfl⟩
  · cases k with
    | subscribe => exact .inl (.inl ⟨w, h, rfl⟩)
    | unsubscribe => exact .inl (.inr ⟨w, h, rfl⟩)
  · exact .inr ⟨f, hf, rfl⟩

theorem count_waiters_sent (a : Acks) (k : AckKind) (id : Mqtt.PacketId) (v : Waiter) :
    (a.sent k id).1.waiters.count v + ((a.sent k id).2.map Prod.fst).count v =
      a.waiters.count v := by
  cases hq : a.queued k with
  | nil => simp [sent_of_nil hq]
  | cons w ws =>
    have hsplit := (List.filter_append_perm (fun f : InFlight => f.id == id) a.inFlight).map
      (·.waiter)
    have hcount := hsplit.count_eq v
    rw [List.map_append, List.count_append] at hcount
    have hanswers : (a.sent k id).2.map Prod.fst =
        (a.inFlight.filter fun f => f.id == id).map (·.waiter) := by
      simp only [sent, hq, List.partition_eq_filter_filter, List.map_map]
      rfl
    have hne : (fun f : InFlight => f.id != id) = fun f => !(f.id == id) := rfl
    rw [count_waiters, count_waiters, queued_sent, queued_sent, inFlight_sent_of_cons hq, hanswers,
      hne, List.map_append, List.count_append, List.map_singleton]
    cases k <;> simp only [reduceCtorEq, ↓reduceIte, hq, List.tail_cons, List.count_cons,
      List.count_nil] <;> omega

end Acks

namespace Client

variable (c : Client) (v : Waiter)

def pending : List Waiter :=
  c.waiting.map (·.1) ++ c.acks.waiters ++ c.held.toList.map (·.1)

theorem count_pending : c.pending.count v =
    (c.waiting.map (·.1)).count v + c.acks.waiters.count v +
      (c.held.toList.map (·.1)).count v := by
  rw [pending, List.count_append, List.count_append]

theorem count_pending_begin (w : Waiter) (r : Request) :
    (c.begin w r).1.pending.count v ≤ c.pending.count v + [w].count v := by
  unfold begin
  split
  · exact Nat.le_add_right _ _
  · rw [count_pending, count_pending, List.map_append, List.count_append]
    show (c.waiting.map (·.1)).count v + [w].count v + c.acks.waiters.count v +
      (c.held.toList.map (·.1)).count v ≤ _
    omega

theorem count_pending_giveTurn : c.giveTurn.pending.count v ≤ c.pending.count v := by
  unfold giveTurn
  split
  · next w r rest he hw =>
    rw [count_pending, count_pending, hw, List.map_cons, List.count_cons]
    cases hk : r.ackKind? with
    | none =>
      show (rest.map (·.1)).count v + c.acks.waiters.count v + 0 ≤ _
      omega
    | some k =>
      have hperm := (c.acks.waiters_enqueue k w).count_eq v
      rw [List.count_append, List.count_singleton] at hperm
      show (rest.map (·.1)).count v + (c.acks.enqueue k w).waiters.count v + 0 ≤ _
      simp only at hperm ⊢
      omega
  · exact Nat.le_refl _

theorem count_pending_place : c.place.1.pending.count v ≤ c.pending.count v := by
  unfold place
  split
  · exact Nat.le_refl _
  next e he =>
  split
  · unfold refuse
    rw [count_pending, count_pending]
    cases hk : e.request.ackKind? with
    | none =>
      show (c.waiting.map (·.1)).count v + c.acks.waiters.count v + 0 ≤ _
      omega
    | some k =>
      have hperm := (c.acks.waiters_cancelLast k).count_eq v
      rw [List.count_append] at hperm
      show (c.waiting.map (·.1)).count v + (c.acks.cancelLast k).waiters.count v + 0 ≤ _
      omega
  split
  · exact Nat.le_refl _
  · rw [count_pending, count_pending]
    show (c.waiting.map (·.1)).count v + c.acks.waiters.count v + 0 ≤ _
    omega

theorem count_pending_abandon (w : Waiter) :
    (c.abandon w).pending.count v ≤ c.pending.count v := by
  have hwaiting : ((c.waiting.filter fun p => p.1 != w).map (·.1)).count v ≤
      (c.waiting.map (·.1)).count v := (List.filter_sublist.map _).count_le v
  have hheld : (c.abandon w).held.toList.Sublist c.held.toList := by
    unfold abandon held
    cases c.entering with
    | none => exact List.Sublist.refl _
    | some e =>
      rw [Option.filter_some]
      split
      · exact List.Sublist.refl _
      · exact List.nil_sublist _
  have hcount := (hheld.map (·.1)).count_le v
  rw [count_pending, count_pending]
  show ((c.waiting.filter fun p => p.1 != w).map (·.1)).count v + c.acks.waiters.count v +
    ((c.abandon w).held.toList.map (·.1)).count v ≤ _
  omega

theorem count_held_hand (answers : List (Waiter × Answer)) :
    ((c.hand answers).1.held.toList.map (·.1)).count v ≤
      (c.held.toList.map (·.1)).count v + (answers.map Prod.fst).count v := by
  cases hkept : (c.hand answers).1.held with
  | none => exact Nat.zero_le _
  | some p =>
    rcases mem_of_hand (.inr hkept) with hp | hp
    · have hle := (List.singleton_sublist.2 (List.mem_map_of_mem (f := Prod.fst) hp)).count_le v
      exact Nat.le_trans hle (Nat.le_add_left _ _)
    · rw [hp]
      exact Nat.le_add_right _ _

theorem count_pending_hand {acks : Acks} {answers : List (Waiter × Answer)}
    (h : acks.waiters.count v + (answers.map Prod.fst).count v ≤ c.acks.waiters.count v) :
    ({ c with acks }.hand answers).1.pending.count v ≤ c.pending.count v := by
  have hheld := { c with acks }.count_held_hand v answers
  rw [count_pending, count_pending, hand_waiting, hand_acks]
  -- Only the waiters have changed.
  change _ ≤ (c.held.toList.map (·.1)).count v + _ at hheld
  show (c.waiting.map (·.1)).count v + acks.waiters.count v + _ ≤ _
  omega

theorem answered_failWaiters {c : Client} {k : AckKind} {w : Waiter}
    (hone : ∀ v, c.pending.count v ≤ 1) (h : c.acks.Awaits k w) :
    (w, Acks.lost k) ∈ c.failWaiters.2 ∨ c.failWaiters.1.held = some (w, Acks.lost k) := by
  have hmem := h.mem_failAll
  have hkeys : (c.acks.failAll.2.map Prod.fst).Nodup := by
    rw [Acks.map_fst_failAll, List.nodup_iff_count_le_one]
    intro v
    have hv := hone v
    rw [count_pending] at hv
    omega
  rcases mem_hand (c := { c with acks := c.acks.failAll.1 }) hmem with hgiven | ⟨a, hkept⟩
  · exact .inl hgiven
  refine .inr ?_
  rcases mem_of_hand (.inr hkept) with ha | ha
  · -- A waiter is registered once, so it has this answer only.
    have hsame := List.inj_on_of_nodup_map hkeys ha hmem rfl
    rw [← hsame]
    exact hkept
  · -- A call for which an answer is kept has no waiter any more.
    have hheld : c.held = some (w, a) := ha
    have hwaiter : w ∈ c.acks.waiters := by
      rw [← Acks.map_fst_failAll]
      exact List.mem_map_of_mem hmem
    have hcount := hone w
    rw [count_pending, hheld] at hcount
    have hpos := List.count_pos_iff.2 hwaiter
    have hself : (((some (w, a)).toList : List (Waiter × Answer)).map (·.1)).count w = 1 := by simp
    omega

end Client

end LoraBridge.Transport
