import Mathlib.Logic.Function.Basic
import LoraBridge.Proofs.Transport.Outlook

/-! Which call an identifier is open for. A request that goes out opens its identifier
and the answer closes it, so what the event loop has still to see leads from the
identifiers that are open to it to those that are open to the broker. Every identifier
that is open to the event loop has a waiter, as long as no request goes out without
one. -/
namespace LoraBridge.Transport

abbrev Open := Mqtt.PacketId → Option Waiter

def Mark.prior (m : Mark) : Option Waiter := if m.isAnswer then some m.call else none

def Mark.after (m : Mark) : Option Waiter := if m.isAnswer then none else some m.call

def Leads : List Mark → Open → Open → Prop
  | [], now, later => now = later
  | m :: ms, now, later => now m.id = m.prior ∧ Leads ms (Function.update now m.id m.after) later

theorem Leads.push {ms : List Mark} {now later : Open} {m : Mark} (h : Leads ms now later)
    (hm : later m.id = m.prior) : Leads (ms ++ [m]) now (Function.update later m.id m.after) := by
  induction ms generalizing now with
  | nil =>
    cases h
    exact ⟨hm, rfl⟩
  | cons x xs ih => exact ⟨h.1, ih h.2⟩

def opened (os : List Unanswered) : Open := fun id =>
  (os.find? fun o => o.id == id).map (·.call)

@[simp]
theorem opened_eq_none {os : List Unanswered} {id : Mqtt.PacketId} (h : ∀ o ∈ os, o.id ≠ id) :
    opened os id = none := by
  unfold opened
  rw [List.find?_eq_none.2 fun o ho => by simpa using h o ho]
  rfl

theorem opened_send {os : List Unanswered} {id : Mqtt.PacketId} (h : ∀ o ∈ os, o.id ≠ id)
    (w : Waiter) (r : Request) :
    opened (os ++ [⟨id, w, r⟩]) = Function.update (opened os) id (some w) := by
  funext id'
  by_cases hid : id' = id
  · subst hid
    have hlast : [Unanswered.mk id' w r].find? (fun o => o.id == id') = some ⟨id', w, r⟩ :=
      List.find?_cons_of_pos (beq_self_eq_true id')
    rw [Function.update_self]
    unfold opened
    rw [List.find?_append, List.find?_eq_none.2 fun o ho => by simpa using h o ho, hlast]
    rfl
  · rw [Function.update_of_ne hid]
    unfold opened
    rw [List.find?_append, List.find?_cons_of_neg (by simpa using Ne.symm hid), List.find?_nil,
      Option.or_none]

@[simp] theorem opened_answer (os : List Unanswered) (id : Mqtt.PacketId) :
    opened (os.filter fun o => o.id != id) = Function.update (opened os) id none := by
  funext id'
  by_cases hid : id' = id
  · subst hid
    rw [Function.update_self]
    exact opened_eq_none fun o ho => bne_iff_ne.1 (List.mem_filter.1 ho).2
  · rw [Function.update_of_ne hid]
    unfold opened
    rw [List.find?_filter]
    refine congrArg (Option.map _) (congrArg (List.find? · os) (funext fun o => ?_))
    by_cases ho : o.id = id'
    · simp [ho, hid]
    · simp [ho]

/-- How the waiters that are bound to identifiers stand to the calls that these are open
for, and what was resolved. -/
structure Heard (now : Open) (flights : List InFlight) (bound : List Binding)
    (resolved : List (Waiter × Waiter)) (handled : List Waiter) : Prop where
  flight : ∀ f ∈ flights, ∃ b ∈ bound, b.waiter = f.waiter ∧ now f.id = some b.call
  opened : ∀ id w, now id = some w → ∃ f ∈ flights, f.id = id
  binding : ∀ p ∈ resolved, ∃ b ∈ bound, b.waiter = p.1 ∧ b.call = p.2
  resolution : ∀ w ∈ handled, ∃ v, (v, w) ∈ resolved

namespace Heard

variable {now : Open} {flights : List InFlight} {bound : List Binding}
  {resolved : List (Waiter × Waiter)} {handled : List Waiter} {id : Mqtt.PacketId} {w : Waiter}

theorem start : Heard (fun _ => none) [] [] [] [] where
  flight _ h := absurd h List.not_mem_nil
  opened _ _ h := nomatch h
  binding _ h := absurd h List.not_mem_nil
  resolution _ h := absurd h List.not_mem_nil

theorem id_ne (h : Heard now flights bound resolved handled) (hid : now id = none)
    {f : InFlight} (hf : f ∈ flights) : f.id ≠ id := by
  rintro rfl
  obtain ⟨b, -, -, hn⟩ := h.flight f hf
  rw [hid] at hn
  cases hn

theorem bind (h : Heard now flights bound resolved handled) (id : Mqtt.PacketId) (w : Waiter)
    (k : AckKind) (v : Waiter) (s : Nat) :
    Heard (Function.update now id (some w))
      ((flights.filter fun f => f.id != id) ++ [⟨id, k, v⟩]) (bound ++ [⟨v, w, s⟩]) resolved
      handled where
  flight f hf := by
    rcases List.mem_append.1 hf with hf | hf
    · obtain ⟨hmem, hne⟩ := List.mem_filter.1 hf
      obtain ⟨b, hb, hw, hn⟩ := h.flight f hmem
      refine ⟨b, List.mem_append_left _ hb, hw, ?_⟩
      rw [Function.update_of_ne (bne_iff_ne.1 hne), hn]
    · rw [List.mem_singleton.1 hf]
      exact ⟨⟨v, w, s⟩, List.mem_append_right _ (List.mem_singleton.2 rfl), rfl,
        Function.update_self ..⟩
  opened id' w' hn := by
    by_cases hne : id' = id
    · exact ⟨⟨id, k, v⟩, List.mem_append_right _ (List.mem_singleton.2 rfl), hne.symm⟩
    · rw [Function.update_of_ne hne] at hn
      obtain ⟨f, hf, rfl⟩ := h.opened id' w' hn
      exact ⟨f, List.mem_append_left _ (List.mem_filter.2 ⟨hf, bne_iff_ne.2 hne⟩), rfl⟩
  binding p hp := by
    obtain ⟨b, hb, heq⟩ := h.binding p hp
    exact ⟨b, List.mem_append_left _ hb, heq⟩
  resolution := h.resolution

theorem call_eq (h : Heard now flights bound resolved handled) (hid : now id = some w)
    {f : InFlight} (hf : f ∈ flights) (heq : f.id = id) :
    ∃ b ∈ bound, b.waiter = f.waiter ∧ b.call = w := by
  obtain ⟨b, hb, hw, hn⟩ := h.flight f hf
  rw [heq, hid, Option.some.injEq] at hn
  exact ⟨b, hb, hw, hn.symm⟩

theorem answer (h : Heard now flights bound resolved handled) (hid : now id = some w) :
    Heard (Function.update now id none) (flights.filter fun f => f.id != id) bound
      (resolved ++ (flights.filter fun f => f.id == id).map fun f => (f.waiter, w))
      (handled ++ [w]) where
  flight f hf := by
    obtain ⟨hmem, hne⟩ := List.mem_filter.1 hf
    obtain ⟨b, hb, hw, hn⟩ := h.flight f hmem
    refine ⟨b, hb, hw, ?_⟩
    rw [Function.update_of_ne (bne_iff_ne.1 hne), hn]
  opened id' w' hn := by
    by_cases hne : id' = id
    · rw [hne, Function.update_self] at hn
      cases hn
    · rw [Function.update_of_ne hne] at hn
      obtain ⟨f, hf, rfl⟩ := h.opened id' w' hn
      exact ⟨f, List.mem_filter.2 ⟨hf, bne_iff_ne.2 hne⟩, rfl⟩
  binding p hp := by
    rcases List.mem_append.1 hp with hp | hp
    · exact h.binding p hp
    · obtain ⟨f, hf, rfl⟩ := List.mem_map.1 hp
      obtain ⟨hmem, heq⟩ := List.mem_filter.1 hf
      exact h.call_eq hid hmem (eq_of_beq heq)
  resolution v hv := by
    rcases List.mem_append.1 hv with hv | hv
    · obtain ⟨u, hu⟩ := h.resolution v hv
      exact ⟨u, List.mem_append_left _ hu⟩
    · rw [List.mem_singleton.1 hv]
      obtain ⟨f, hf, heq⟩ := h.opened id w hid
      refine ⟨f.waiter, List.mem_append_right _ (List.mem_map.2 ⟨f, ?_, rfl⟩)⟩
      exact List.mem_filter.2 ⟨hf, beq_iff_eq.2 heq⟩

end Heard

end LoraBridge.Transport
