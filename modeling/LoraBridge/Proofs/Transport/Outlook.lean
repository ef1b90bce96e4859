import LoraBridge.Proofs.Transport.Network

/-! What the event loop has still to see of the requests that went out. Under each
identifier of such a request its answer comes next, whether the broker has given it or
not; so a waiter that is bound to an identifier awaits the answer to the request that it
was bound to. -/
namespace LoraBridge.Transport

/-- A request that went out under an identifier, or its answer. -/
structure Mark where
  id : Mqtt.PacketId
  call : Waiter
  isAnswer : Bool

def Noticed.mark? : Noticed → Option Mark
  | .sent id w r => if r.ackKind?.isSome then some ⟨id, w, false⟩ else none
  | .answered id w _ _ => some ⟨id, w, true⟩
  | .message .. | .connected _ => none

@[simp] theorem mark?_sent_of_none {r : Request} (h : r.ackKind? = none) (id : Mqtt.PacketId)
    (w : Waiter) : (Noticed.sent id w r).mark? = none := by
  simp only [Noticed.mark?, h, Option.isSome_none, Bool.false_eq_true, ↓reduceIte]

@[simp] theorem mark?_sent_of_some {r : Request} {k : AckKind} (h : r.ackKind? = some k)
    (id : Mqtt.PacketId) (w : Waiter) : (Noticed.sent id w r).mark? = some ⟨id, w, false⟩ := by
  simp only [Noticed.mark?, h, Option.isSome_some, ↓reduceIte]

def Unanswered.mark (o : Unanswered) : Mark := ⟨o.id, o.call, true⟩

def next (ms : List Mark) (id : Mqtt.PacketId) : Option Mark :=
  ms.find? fun m => m.id == id

@[simp] theorem next_cons (m : Mark) (ms : List Mark) (id : Mqtt.PacketId) :
    next (m :: ms) id = if m.id = id then some m else next ms id := by
  unfold next
  by_cases h : m.id = id
  · rw [if_pos h]
    exact List.find?_cons_of_pos (by simpa using h)
  · rw [if_neg h]
    exact List.find?_cons_of_neg (by simpa using h)

@[simp] theorem next_append (ms ms' : List Mark) (id : Mqtt.PacketId) :
    next (ms ++ ms') id = (next ms id).or (next ms' id) :=
  List.find?_append

@[simp] theorem next_eq_none {ms : List Mark} {id : Mqtt.PacketId} (h : ∀ m ∈ ms, m.id ≠ id) :
    next ms id = none := by
  refine List.find?_eq_none.2 fun m hm => ?_
  rw [beq_iff_eq]
  exact h m hm

theorem id_of_next {ms : List Mark} {id : Mqtt.PacketId} {m : Mark} (h : next ms id = some m) :
    m.id = id := by
  have := List.find?_some h
  rwa [beq_iff_eq] at this

private theorem next_filter_ne (ms : List Mark) {id id' : Mqtt.PacketId} (h : id' ≠ id) :
    next (ms.filter fun m => m.id != id') id = next ms id := by
  induction ms with
  | nil => rfl
  | cons m ms ih =>
    by_cases hm : m.id = id'
    · rw [List.filter_cons_of_neg (by simp [hm]), ih, next_cons, if_neg (by rw [hm]; exact h)]
    · rw [List.filter_cons_of_pos (by simpa using hm), next_cons, next_cons, ih]

def Paired : List Mark → List Mark → Prop
  | [], _ => True
  | m :: ms, ahead =>
    (m.isAnswer = false → next (ms ++ ahead) m.id = some ⟨m.id, m.call, true⟩) ∧ Paired ms ahead

def Continues (ahead : List Mark) (x : Mark) (ahead' : List Mark) : Prop :=
  ∀ id c, next ahead id = some ⟨id, c, true⟩ → next (x :: ahead') id = some ⟨id, c, true⟩

section

variable {ms ahead ahead' : List Mark} {x : Mark}

theorem Continues.append (h : Continues ahead x ahead') {id : Mqtt.PacketId} {c : Waiter}
    (hn : next (ms ++ ahead) id = some ⟨id, c, true⟩) :
    next ((ms ++ [x]) ++ ahead') id = some ⟨id, c, true⟩ := by
  rw [List.append_assoc, List.singleton_append, next_append]
  rw [next_append] at hn
  cases hm : next ms id with
  | some m => rwa [hm] at hn
  | none =>
    rw [hm, Option.none_or] at hn
    rw [Option.none_or]
    exact h id c hn

theorem continues_sent {id : Mqtt.PacketId} (w : Waiter) (h : ∀ m ∈ ahead, m.id ≠ id) :
    Continues ahead ⟨id, w, false⟩ (ahead ++ [⟨id, w, true⟩]) := by
  intro id' c hn
  have hne : id ≠ id' := by
    rintro rfl
    rw [next_eq_none h] at hn
    cases hn
  rw [next_cons, if_neg hne, next_append, hn, Option.some_or]

theorem continues_answered {id : Mqtt.PacketId} {m : Mark} (h : next ahead id = some m) :
    Continues ahead m (ahead.filter fun m => m.id != id) := by
  intro id' c hn
  have hm := id_of_next h
  rw [next_cons]
  by_cases hid : m.id = id'
  · rw [if_pos hid]
    rw [hm] at hid
    rwa [← hid, h, hid] at hn
  · rw [if_neg hid]
    rw [hm] at hid
    rwa [next_filter_ne ahead hid]

theorem Paired.append (h : Paired ms ahead) (hc : Continues ahead x ahead')
    (hx : x.isAnswer = false → next ahead' x.id = some ⟨x.id, x.call, true⟩) :
    Paired (ms ++ [x]) ahead' := by
  induction ms with
  | nil => exact ⟨hx, trivial⟩
  | cons m ms ih => exact ⟨fun hm => hc.append (h.1 hm), ih h.2⟩

end

/-- What the marks say of the waiters that are bound to identifiers. -/
structure Tracked (ms ahead : List Mark) (flights : List InFlight) (bound : List Binding) :
    Prop where
  paired : Paired ms ahead
  awaited : ∀ f ∈ flights, ∃ b ∈ bound, b.waiter = f.waiter ∧
    next (ms ++ ahead) f.id = some ⟨f.id, b.call, true⟩

namespace Tracked

variable {ms ahead ahead' : List Mark} {flights : List InFlight} {bound : List Binding} {m : Mark}

theorem push (h : Tracked ms ahead flights bound) (hc : Continues ahead m ahead')
    (hm : m.isAnswer = false → next ahead' m.id = some ⟨m.id, m.call, true⟩) :
    Tracked (ms ++ [m]) ahead' flights bound where
  paired := h.paired.append hc hm
  awaited f hf := by
    obtain ⟨b, hb, hw, hn⟩ := h.awaited f hf
    exact ⟨b, hb, hw, hc.append hn⟩

/-- The next answer under the identifier of a waiter is the one that it awaits. -/
theorem call_eq (h : Tracked (m :: ms) ahead flights bound) {f : InFlight} (hf : f ∈ flights)
    (hid : f.id = m.id) : ∃ b ∈ bound, b.waiter = f.waiter ∧ b.call = m.call := by
  obtain ⟨b, hb, hw, hn⟩ := h.awaited f hf
  rw [List.cons_append, next_cons, if_pos hid.symm, Option.some.injEq] at hn
  exact ⟨b, hb, hw, by rw [hn]⟩

private theorem id_ne (h : Tracked (m :: ms) ahead flights bound) (hm : m.isAnswer = false)
    {f : InFlight} (hf : f ∈ flights) : f.id ≠ m.id := by
  intro hid
  obtain ⟨b, -, -, hn⟩ := h.awaited f hf
  rw [List.cons_append, next_cons, if_pos hid.symm, Option.some.injEq] at hn
  rw [hn] at hm
  cases hm

theorem pop (h : Tracked (m :: ms) ahead flights bound) :
    Tracked ms ahead (flights.filter fun f => f.id != m.id) bound where
  paired := h.paired.2
  awaited f hf := by
    obtain ⟨hmem, hne⟩ := List.mem_filter.1 hf
    obtain ⟨b, hb, hw, hn⟩ := h.awaited f hmem
    rw [bne_iff_ne] at hne
    rw [List.cons_append, next_cons, if_neg hne.symm] at hn
    exact ⟨b, hb, hw, hn⟩

theorem pop_sent (h : Tracked (m :: ms) ahead flights bound) (hm : m.isAnswer = false) :
    Tracked ms ahead flights bound := by
  have hf : (flights.filter fun f => f.id != m.id) = flights :=
    List.filter_eq_self.2 fun f hf => bne_iff_ne.2 (h.id_ne hm hf)
  rw [← hf]
  exact h.pop

theorem bind (h : Tracked (m :: ms) ahead flights bound) (hm : m.isAnswer = false)
    (k : AckKind) (v : Waiter) (s : Nat) :
    Tracked ms ahead ((flights.filter fun f => f.id != m.id) ++ [⟨m.id, k, v⟩])
      (bound ++ [⟨v, m.call, s⟩]) where
  paired := h.paired.2
  awaited f hf := by
    rcases List.mem_append.1 hf with hf | hf
    · obtain ⟨b, hb, hw, hn⟩ := h.pop.awaited f hf
      exact ⟨b, List.mem_append_left _ hb, hw, hn⟩
    · rw [List.mem_singleton.1 hf]
      exact ⟨⟨v, m.call, s⟩, List.mem_append_right _ (List.mem_singleton.2 rfl), rfl, h.paired.1 hm⟩

end Tracked

end LoraBridge.Transport
