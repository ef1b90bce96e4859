import LoraBridge.Proofs.Transport.Service

/-! What becomes of the calls of a transport. A call stands in one place until its turn ends, and
a waiter that was registered is tracked until it has an answer or its call is dropped. Only an
acknowledgement lets such a call return well. -/
namespace LoraBridge.Transport

namespace Acks

/-- What a change of the waiters may do: it gives answers to some, and forgets no other one. -/
structure Change (a : Acks) (out : Acks × List (Waiter × Answer)) : Prop where
  kept : ∀ v ∈ out.1.waiters, v ∈ a.waiters
  answered : ∀ v ∈ a.waiters, v ∈ out.1.waiters ∨ v ∈ out.2.map Prod.fst
  known : ∀ p ∈ out.2, p.1 ∈ a.waiters
  queues : ∀ k, out.1.queued k <:+ a.queued k

variable (a : Acks)

theorem change_of_count {out : Acks × List (Waiter × Answer)}
    (hcount : ∀ v, out.1.waiters.count v + (out.2.map Prod.fst).count v = a.waiters.count v)
    (hqueues : ∀ k, out.1.queued k <:+ a.queued k) : a.Change out where
  kept v hv := by
    have hpos := List.count_pos_iff.2 hv
    have h := hcount v
    exact List.count_pos_iff.1 (by omega)
  answered v hv := by
    have hpos := List.count_pos_iff.2 hv
    have h := hcount v
    rcases Nat.eq_zero_or_pos (out.1.waiters.count v) with hzero | hleft
    · exact .inr (List.count_pos_iff.1 (by omega))
    · exact .inl (List.count_pos_iff.1 hleft)
  known p hp := by
    have hpos := List.count_pos_iff.2 (List.mem_map_of_mem (f := Prod.fst) hp)
    have h := hcount p.1
    exact List.count_pos_iff.1 (by omega)
  queues := hqueues

theorem change_sent (k : AckKind) (id : Mqtt.PacketId) : a.Change (a.sent k id) := by
  refine a.change_of_count (a.count_waiters_sent k id) fun k' => ?_
  rw [queued_sent]
  split
  · exact List.tail_suffix _
  · exact List.suffix_refl _

theorem change_acknowledge (id : Mqtt.PacketId) (answer : Answer) :
    a.Change (a.acknowledge id answer) := by
  refine a.change_of_count (fun v => ?_) fun k => ?_
  · rw [← List.count_append]
    exact (a.waiters_acknowledge id answer).count_eq v
  · exact (a.queued_acknowledge id answer k).symm ▸ List.suffix_refl _

theorem change_failAll : a.Change a.failAll := by
  refine a.change_of_count (fun v => ?_) fun k => ?_
  · rw [← List.count_append]
    exact a.waiters_failAll.count_eq v
  · cases k <;> exact List.nil_suffix

end Acks

namespace Client

structure Recedes (c c' : Client) : Prop where
  waiting : c'.waiting.Sublist c.waiting
  entering : ∀ e', c'.entering = some e' →
    (∃ e, c.entering = some e ∧ e.waiter = e'.waiter ∧ e.request = e'.request) ∧
      ∀ k, c'.acks.queued k <:+ c.acks.queued k
  tracked : ∀ v ∈ c'.acks.waiters, v ∈ c.acks.waiters

variable {c : Client}

theorem recedes_of_eq {c' : Client} (hwaiting : c'.waiting = c.waiting)
    (hentering : c'.entering = c.entering) (hacks : c'.acks = c.acks) : c.Recedes c' where
  waiting := by rw [hwaiting]
  entering e' he' := by
    rw [hentering] at he'
    rw [hacks]
    exact ⟨⟨e', he', rfl, rfl⟩, fun _ => List.suffix_refl _⟩
  tracked v hv := hacks ▸ hv

theorem recedes_hand {out : Acks × List (Waiter × Answer)} (h : c.acks.Change out) :
    c.Recedes ({ c with acks := out.1 }.hand out.2).1 where
  waiting := by rw [hand_waiting]
  entering e' he' := by
    have hsame := hand_entering { c with acks := out.1 } out.2
    rw [he', Option.map_some, eq_comm, Option.map_eq_some_iff] at hsame
    obtain ⟨e, he, heq⟩ := hsame
    obtain ⟨hw, hr⟩ := Prod.mk.inj heq
    rw [hand_acks]
    exact ⟨⟨e, he, hw, hr⟩, h.queues⟩
  tracked v hv := by
    rw [hand_acks] at hv
    exact h.kept v hv

theorem recedes_place : c.Recedes c.place.1 := by
  unfold place
  split
  · exact recedes_of_eq rfl rfl rfl
  next e he =>
  split
  · refine ⟨List.Sublist.refl _, fun _ he' => absurd he' (Option.not_mem_none _), fun v hv => ?_⟩
    cases hk : e.request.ackKind? with
    | none => simpa only [refuse, hk] using hv
    | some k =>
      simp only [refuse, hk] at hv
      exact (c.acks.waiters_cancelLast k).mem_iff.1 (List.mem_append_left _ hv)
  split
  · exact recedes_of_eq rfl rfl rfl
  · exact ⟨List.Sublist.refl _, fun _ he' => absurd he' (Option.not_mem_none _), fun _ hv => hv⟩

private theorem recedes_abandon (w : Waiter) : c.Recedes (c.abandon w) where
  waiting := List.filter_sublist
  entering e' he' := by
    obtain ⟨he, -⟩ := Option.filter_eq_some_iff.1 he'
    exact ⟨⟨e', he, rfl, rfl⟩, fun _ => List.suffix_refl _⟩
  tracked _ hv := hv

private theorem held_hand {answers : List (Waiter × Answer)} {p : Waiter × Answer}
    (h : c.held = some p) : (c.hand answers).1.held = some p := by
  obtain ⟨e, he, hw, ha⟩ := held_eq_some_iff.1 h
  unfold hand
  simp only [he, ha, Option.some_or]
  exact held_eq_some_iff.2 ⟨_, rfl, hw, rfl⟩

end Client

@[simp] theorem Request.disconnects_eq_false {r : Request} (h : r.ackKind? ≠ none) :
    r.disconnects = false := by
  cases r <;> first | rfl | exact absurd rfl h

namespace Books

variable {b b' : Books} {w v : Waiter} {r : Request} {a : Answer}

def Gets (b : Books) (v : Waiter) (a : Answer) : Prop :=
  (v, a) ∈ b.returned ∨ b.client.held = some (v, a)

def Done (b : Books) (v : Waiter) : Prop :=
  (∃ a, b.Gets v a) ∨ v ∈ b.dropped

def Accepted (b : Books) (v : Waiter) : Prop :=
  ∃ packet, (v, packet) ∈ b.completed ∧ packet.outcome = .ok ()

def Fits (b : Books) (p : Waiter × Answer) : Prop :=
  ∃ r, (p.1, r) ∈ b.calls ∧ r.disconnects = false ∧
    (p.2 = .ok () → r.ackKind? = none ∨ b.Accepted p.1)

/-- Where the calls of a client stand. -/
structure Standing (b : Books) : Prop where
  nodup : (b.calls.map (·.1)).Nodup
  once : (b.client.waiting.map (·.1)).Nodup
  waiting : ∀ p ∈ b.client.waiting, p ∈ b.calls ∧ p.1 ∉ b.registered
  entering : ∀ e, b.client.entering = some e → (e.waiter, e.request) ∈ b.calls
  registered : ∀ v ∈ b.registered, ∃ r, (v, r) ∈ b.calls ∧ r.ackKind? ≠ none
  tracked : ∀ v ∈ b.client.acks.waiters, v ∈ b.registered
  last : ∀ e k, b.client.entering = some e → e.request.ackKind? = some k →
    ∀ v ∈ (b.client.acks.queued k).getLast?, v = e.waiter

/-- What the calls of a client are told. -/
structure Answering (b : Books) : Prop where
  held : ∀ p, b.client.held = some p → p.1 ∈ b.registered ∧ b.Fits p
  returned : ∀ p ∈ b.returned, b.Fits p ∨ p.2 = .ok () ∧ ∃ g, (p.1, .disconnect g) ∈ b.calls
  dropped : ∀ v ∈ b.dropped, v ∈ b.calls.map (·.1)
  answered : ∀ v ∈ b.registered, v ∈ b.client.acks.waiters ∨ b.Done v

theorem standing_start : start.Standing where
  nodup := List.nodup_nil
  once := List.nodup_nil
  waiting _ h := absurd h List.not_mem_nil
  entering _ h := by cases h
  registered _ h := absurd h List.not_mem_nil
  tracked _ h := absurd h List.not_mem_nil
  last _ _ h := by cases h

theorem answering_start : start.Answering where
  held _ h := by cases h
  returned _ h := absurd h List.not_mem_nil
  dropped _ h := absurd h List.not_mem_nil
  answered _ h := absurd h List.not_mem_nil

@[simp] theorem record_nil (b : Books) : b.record [] = b := by
  unfold record
  rw [List.filter_nil, List.append_nil]

theorem mem_record {answers : List (Waiter × Answer)} {p : Waiter × Answer}
    (h : p ∈ (b.record answers).returned) : p ∈ b.returned ∨ p ∈ answers := by
  rcases List.mem_append.1 h with h | h
  · exact .inl h
  · exact .inr (List.mem_filter.1 h).1

theorem done_record {answers : List (Waiter × Answer)} (h : v ∈ answers.map Prod.fst) :
    v ∈ (b.record answers).returned.map (·.1) ∨ v ∈ b.dropped := by
  obtain ⟨p, hp, rfl⟩ := List.mem_map.1 h
  by_cases hd : p.1 ∈ b.dropped
  · exact .inr hd
  refine .inl ?_
  unfold record
  rw [List.map_append, List.mem_append]
  by_cases hr : p.1 ∈ b.returned.map (·.1)
  · exact .inl hr
  refine .inr (List.mem_map_of_mem (List.mem_filter.2 ⟨hp, ?_⟩))
  rw [Bool.and_eq_true, Bool.not_eq_true', Bool.not_eq_true', List.any_eq_false]
  refine ⟨fun q hq heq => hr (eq_of_beq heq ▸ List.mem_map_of_mem hq), ?_⟩
  simpa using hd

theorem Standing.request_eq {r' : Request} (h : b.Standing) (hr : (v, r) ∈ b.calls)
    (hr' : (v, r') ∈ b.calls) : r = r' :=
  congrArg Prod.snd (List.inj_on_of_nodup_map h.nodup hr hr' rfl)

theorem Standing.known (h : b.Standing) (hv : v ∈ b.registered) : v ∈ b.calls.map (·.1) := by
  obtain ⟨r, hr, -⟩ := h.registered v hv
  exact List.mem_map_of_mem hr

theorem Standing.record (h : b.Standing) (answers : List (Waiter × Answer)) :
    (b.record answers).Standing :=
  ⟨h.nodup, h.once, h.waiting, h.entering, h.registered, h.tracked, h.last⟩

theorem Standing.recede (h : b.Standing) (hcalls : b'.calls = b.calls)
    (hregistered : b'.registered = b.registered) (hc : b.client.Recedes b'.client) :
    b'.Standing where
  nodup := hcalls ▸ h.nodup
  once := h.once.sublist (hc.waiting.map _)
  waiting p hp := by
    rw [hcalls, hregistered]
    exact h.waiting p (hc.waiting.subset hp)
  entering e' he' := by
    obtain ⟨⟨e, he, hw, hr⟩, -⟩ := hc.entering e' he'
    rw [hcalls, ← hw, ← hr]
    exact h.entering e he
  registered := by
    rw [hcalls, hregistered]
    exact h.registered
  tracked v hv := by
    rw [hregistered]
    exact h.tracked v (hc.tracked v hv)
  last e' k he' hk v hv := by
    obtain ⟨⟨e, he, hw, hr⟩, hqueues⟩ := hc.entering e' he'
    obtain ⟨older, holder⟩ := hqueues k
    rw [← hw]
    refine h.last e k he (hr ▸ hk) v ?_
    rw [← holder, List.getLast?_append, Option.mem_def.1 hv]
    rfl

theorem Standing.call (h : b.Standing) (hw : w ∉ b.calls.map (·.1)) : (b.call w r).Standing := by
  have hcalls : b.calls ⊆ b.calls ++ [(w, r)] := List.subset_append_left _ _
  have hself : (w, r) ∈ b.calls ++ [(w, r)] := List.mem_append_right _ (List.mem_singleton.2 rfl)
  have hnodup : ((b.calls ++ [(w, r)]).map (·.1)).Nodup := by
    rw [List.map_append, List.nodup_append_comm]
    exact List.nodup_cons.2 ⟨hw, h.nodup⟩
  have hregistered : ∀ v ∈ b.registered,
      ∃ r', (v, r') ∈ b.calls ++ [(w, r)] ∧ r'.ackKind? ≠ none := by
    intro v hv
    obtain ⟨r', hr', hk⟩ := h.registered v hv
    exact ⟨r', hcalls hr', hk⟩
  refine Standing.record (b := { b with
    client := (b.client.begin w r).1, calls := b.calls ++ [(w, r)] }) ?_ _
  unfold Client.begin
  split
  · exact ⟨hnodup, h.once, fun p hp => ⟨hcalls (h.waiting p hp).1, (h.waiting p hp).2⟩,
      fun e he => hcalls (h.entering e he), hregistered, h.tracked, h.last⟩
  · refine ⟨hnodup, ?_, fun p hp => ?_, fun e he => hcalls (h.entering e he), hregistered,
      h.tracked, h.last⟩
    · show ((b.client.waiting ++ [(w, r)]).map (·.1)).Nodup
      rw [List.map_append, List.nodup_append_comm]
      refine List.nodup_cons.2 ⟨fun hmem => ?_, h.once⟩
      obtain ⟨p, hp, rfl⟩ := List.mem_map.1 hmem
      exact hw (List.mem_map_of_mem (h.waiting p hp).1)
    · rcases List.mem_append.1 hp with hp | hp
      · exact ⟨hcalls (h.waiting p hp).1, (h.waiting p hp).2⟩
      · rw [List.mem_singleton.1 hp]
        exact ⟨hself, fun hv => hw (h.known hv)⟩

structure Enters (b : Books) (w : Waiter) (r : Request) (rest : List (Waiter × Request)) :
    Prop where
  free : b.client.entering = none
  next : b.client.waiting = (w, r) :: rest
  waiting : b.turn.client.waiting = rest
  entering : b.turn.client.entering = some ⟨w, r, none⟩
  registered : ∀ v, v ∈ b.turn.registered ↔ v ∈ b.registered ∨ v = w ∧ r.ackKind? ≠ none
  tracked : ∀ v, v ∈ b.turn.client.acks.waiters ↔
    v ∈ b.client.acks.waiters ∨ v = w ∧ r.ackKind? ≠ none
  queued : ∀ k, r.ackKind? = some k →
    b.turn.client.acks.queued k = b.client.acks.queued k ++ [w]

theorem turn_cases (b : Books) : b.turn = b ∨ ∃ w r rest, b.Enters w r rest := by
  have hidle (hturn : b.client.giveTurn = b.client) (hnone : b.client.registering = []) :
      b.turn = b := by
    rw [turn, hturn, hnone, List.append_nil]
  cases he : b.client.entering with
  | some e =>
    exact .inl (hidle (by rw [Client.giveTurn, he]) (by rw [Client.registering, he]))
  | none =>
    cases hw : b.client.waiting with
    | nil =>
      exact .inl (hidle (by rw [Client.giveTurn, he, hw]) (by rw [Client.registering, he, hw]))
    | cons p rest =>
      obtain ⟨w, r⟩ := p
      refine .inr ⟨w, r, rest, he, hw, ?_, ?_, fun v => ?_, fun v => ?_, fun k hk => ?_⟩
      · simp only [turn, Client.giveTurn, he, hw]
      · simp only [turn, Client.giveTurn, he, hw]
      · cases hk : r.ackKind? <;> simp [turn, Client.registering, he, hw, hk]
      · cases hk : r.ackKind? with
        | none => simp [turn, Client.giveTurn, he, hw, hk]
        | some k =>
          simp [turn, Client.giveTurn, he, hw, hk, (b.client.acks.waiters_enqueue k w).mem_iff]
      · simp [turn, Client.giveTurn, he, hw, hk, Acks.queued_enqueue]

theorem Standing.turn (h : b.Standing) : b.turn.Standing := by
  rcases b.turn_cases with hidle | ⟨w, r, rest, ht⟩
  · rwa [hidle]
  have hnext : (w, r) ∈ b.client.waiting := ht.next ▸ List.mem_cons_self ..
  have honce := h.once
  rw [ht.next, List.map_cons, List.nodup_cons] at honce
  refine ⟨h.nodup, ht.waiting ▸ honce.2, fun p hp => ?_, fun e he => ?_, fun v hv => ?_,
    fun v hv => ?_, fun e k he hk v hv => ?_⟩
  · rw [ht.waiting] at hp
    obtain ⟨hcall, hnot⟩ := h.waiting p (ht.next ▸ List.mem_cons_of_mem _ hp)
    refine ⟨hcall, fun hv => ?_⟩
    rcases (ht.registered p.1).1 hv with hv | ⟨hv, -⟩
    · exact hnot hv
    · exact honce.1 (hv ▸ List.mem_map_of_mem (f := (·.1)) hp)
  · rw [ht.entering, Option.some.injEq] at he
    subst he
    exact (h.waiting _ hnext).1
  · rcases (ht.registered v).1 hv with hv | ⟨rfl, hk⟩
    · exact h.registered v hv
    · exact ⟨r, (h.waiting _ hnext).1, hk⟩
  · exact (ht.registered v).2 (((ht.tracked v).1 hv).imp_left (h.tracked v))
  · rw [ht.entering, Option.some.injEq] at he
    subst he
    rw [ht.queued k hk, List.getLast?_concat, Option.mem_some] at hv
    exact hv.symm

theorem Accepted.mono (h : b.Accepted v) (hcompleted : b.completed ⊆ b'.completed) :
    b'.Accepted v := by
  obtain ⟨packet, hp, hok⟩ := h
  exact ⟨packet, hcompleted hp, hok⟩

theorem Fits.mono {p : Waiter × Answer} (h : b.Fits p) (hcalls : b.calls ⊆ b'.calls)
    (hcompleted : b.completed ⊆ b'.completed) : b'.Fits p := by
  obtain ⟨r, hr, hd, hok⟩ := h
  exact ⟨r, hcalls hr, hd, fun ha => (hok ha).imp_right fun hacc => hacc.mono hcompleted⟩

theorem ackKind_of_registered (h : b.Standing) (hv : v ∈ b.registered) (hr : (v, r) ∈ b.calls) :
    r.ackKind? ≠ none := by
  obtain ⟨r', hr', hk⟩ := h.registered v hv
  rwa [h.request_eq hr hr']

theorem Answering.change {c : Client} {answers : List (Waiter × Answer)} (h : b.Answering)
    (hfits : ∀ p ∈ answers, b.Fits p)
    (hheld : ∀ p, c.held = some p → p.1 ∈ b.registered ∧ b.Fits p)
    (htracked : ∀ v ∈ b.client.acks.waiters,
      v ∈ c.acks.waiters ∨ (∃ a, c.held = some (v, a)) ∨ v ∈ answers.map Prod.fst)
    (hkept : ∀ p, b.client.held = some p →
      (∃ a, c.held = some (p.1, a)) ∨ p.1 ∈ answers.map Prod.fst) :
    ({ b with client := c }.record answers).Answering where
  held := hheld
  returned p hp := by
    rcases mem_record hp with hp | hp
    · exact h.returned p hp
    · exact .inl (hfits p hp)
  dropped := h.dropped
  answered v hv := by
    have htold : v ∈ answers.map Prod.fst → ({ b with client := c }.record answers).Done v := by
      intro hmem
      rcases done_record (b := { b with client := c }) hmem with hr | hd
      · obtain ⟨p, hp, rfl⟩ := List.mem_map.1 hr
        exact .inl ⟨p.2, .inl hp⟩
      · exact .inr hd
    rcases h.answered v hv with hv | ⟨a, ha | ha⟩ | hd
    · rcases htracked v hv with hv | ⟨a, ha⟩ | hmem
      · exact .inl hv
      · exact .inr (.inl ⟨a, .inr ha⟩)
      · exact .inr (htold hmem)
    · exact .inr (.inl ⟨a, .inl (List.mem_append_left _ ha)⟩)
    · rcases hkept _ ha with ⟨a', ha'⟩ | hmem
      · exact .inr (.inl ⟨a', .inr ha'⟩)
      · exact .inr (htold hmem)
    · exact .inr (.inr hd)

theorem Answering.quiet {c : Client} (h : b.Answering) (hacks : c.acks = b.client.acks)
    (hheld : c.held = b.client.held) : Answering { b with client := c } := by
  rw [← record_nil { b with client := c }]
  refine h.change (fun p hp => absurd hp List.not_mem_nil) (hheld ▸ h.held) (fun v hv => ?_)
    fun p hp => ?_
  · exact .inl (hacks ▸ hv)
  · exact .inl ⟨p.2, hheld ▸ hp⟩

theorem fits_hand {out : Acks × List (Waiter × Answer)} {p : Waiter × Answer}
    (h : b.Answering) (hs : b.Standing) (hout : b.client.acks.Change out)
    (hok : ∀ p ∈ out.2, p.2 = .ok () → b.Accepted p.1)
    (hp : p ∈ ({ b.client with acks := out.1 }.hand out.2).2 ∨
      ({ b.client with acks := out.1 }.hand out.2).1.held = some p) :
    b.Fits p ∧ (b.client.held = some p ∨ p.1 ∈ b.registered) := by
  rcases Client.mem_of_hand hp with hp | hp
  · have hregistered := hs.tracked _ (hout.known p hp)
    obtain ⟨r, hr, hk⟩ := hs.registered _ hregistered
    exact ⟨⟨r, hr, Request.disconnects_eq_false hk, fun ha => .inr (hok p hp ha)⟩,
      .inr hregistered⟩
  · exact ⟨(h.held p hp).2, .inl hp⟩

theorem Answering.settle {out : Acks × List (Waiter × Answer)} (h : b.Answering)
    (hs : b.Standing) (hout : b.client.acks.Change out)
    (hok : ∀ p ∈ out.2, p.2 = .ok () → b.Accepted p.1) : (b.settle out).Answering := by
  refine h.change (fun p hp => (fits_hand h hs hout hok (.inl hp)).1) (fun p hp => ?_)
    (fun v hv => ?_) fun p hp => ?_
  · obtain ⟨hfits, hheld | hregistered⟩ := fits_hand h hs hout hok (.inr hp)
    · exact h.held p hheld
    · exact ⟨hregistered, hfits⟩
  · rcases hout.answered v hv with hv | hv
    · rw [Client.hand_acks]
      exact .inl hv
    · obtain ⟨p, hp, rfl⟩ := List.mem_map.1 hv
      rcases Client.mem_hand (c := { b.client with acks := out.1 }) hp with hgiven | hkept
      · exact .inr (.inr (List.mem_map_of_mem hgiven))
      · exact .inr (.inl hkept)
  · exact .inl ⟨p.2, Client.held_hand hp⟩

theorem Answering.mono {calls : List (Waiter × Request)} {completed : List (Waiter × Mqtt.Packet)}
    (h : b.Answering) (hcalls : b.calls ⊆ calls) (hcompleted : b.completed ⊆ completed) :
    Answering { b with calls, completed } where
  held p hp := ⟨(h.held p hp).1, (h.held p hp).2.mono hcalls hcompleted⟩
  returned p hp := by
    rcases h.returned p hp with hfits | ⟨hok, g, hg⟩
    · exact .inl (hfits.mono hcalls hcompleted)
    · exact .inr ⟨hok, g, hcalls hg⟩
  dropped v hv := List.map_subset _ hcalls (h.dropped v hv)
  answered := h.answered

theorem Answering.part {g : Duration} (h : b.Answering) (hw : (w, .disconnect g) ∈ b.calls) :
    (b.record [(w, .ok ())]).Answering where
  held := h.held
  returned p hp := by
    rcases mem_record hp with hp | hp
    · exact h.returned p hp
    · rw [List.mem_singleton.1 hp]
      exact .inr ⟨rfl, g, hw⟩
  dropped := h.dropped
  answered v hv := by
    rcases h.answered v hv with hv | ⟨a, ha⟩ | hv
    · exact .inl hv
    · exact .inr (.inl ⟨a, ha.imp_left (List.mem_append_left _ ·)⟩)
    · exact .inr (.inr hv)

theorem Answering.call (h : b.Answering) : (b.call w r).Answering := by
  have hself : (w, r) ∈ b.calls ++ [(w, r)] := List.mem_append_right _ (List.mem_singleton.2 rfl)
  have hmore : Answering { b with calls := b.calls ++ [(w, r)] } :=
    h.mono (List.subset_append_left _ _) (List.Subset.refl _)
  unfold Books.call Client.begin
  split
  · cases r with
    | disconnect g => exact hmore.part hself
    | publish | subscribe | subscribeMany | unsubscribe =>
      refine hmore.change (fun p hp => ?_) hmore.held (fun v hv => .inl hv)
        fun p hp => .inl ⟨p.2, hp⟩
      rw [List.mem_singleton.1 hp]
      exact ⟨_, hself, rfl, nofun⟩
  · rw [record_nil]
    exact hmore.quiet rfl rfl

theorem Answering.turn (h : b.Answering) : b.turn.Answering := by
  rcases b.turn_cases with hidle | ⟨w, r, rest, ht⟩
  · rwa [hidle]
  have hheld : b.client.held = none := by rw [Client.held, ht.free, Option.bind_none]
  refine ⟨fun p hp => ?_, h.returned, h.dropped, fun v hv => ?_⟩
  · rw [Client.held, ht.entering] at hp
    cases hp
  · rcases (ht.registered v).1 hv with hv | hnew
    · rcases h.answered v hv with hv | ⟨a, ha | ha⟩ | hv
      · exact .inl ((ht.tracked v).2 (.inl hv))
      · exact .inr (.inl ⟨a, .inl ha⟩)
      · rw [hheld] at ha
        cases ha
      · exact .inr (.inr hv)
    · exact .inl ((ht.tracked v).2 (.inr hnew))

theorem fits_refuse {e : Entering} {p : Waiter × Answer} (hs : b.Standing)
    (he : b.client.entering = some e) (hp : p ∈ (b.client.refuse e).2) : b.Fits p := by
  have hcall := hs.entering e he
  have herror := Client.error_of_mem_refuse hp
  unfold Client.refuse at hp
  refine ⟨e.request, ?_⟩
  cases hr : e.request with
  | disconnect =>
    rw [hr] at hp
    exact absurd hp List.not_mem_nil
  | publish | subscribe | subscribeMany | unsubscribe =>
    rw [hr] at hp hcall
    rw [List.mem_singleton.1 hp] at herror ⊢
    exact ⟨hcall, rfl, fun ha => absurd ha herror⟩

theorem fits_place {p : Waiter × Answer} (h : b.Answering) (hs : b.Standing)
    (hp : p ∈ b.client.place.2) : b.Fits p := by
  unfold Client.place at hp
  split at hp
  · exact absurd hp List.not_mem_nil
  next e he =>
  split at hp
  · exact fits_refuse hs he hp
  split at hp
  · exact absurd hp List.not_mem_nil
  obtain ⟨a, ha, rfl⟩ := Option.map_eq_some_iff.1 (Option.mem_toList.1 hp)
  cases hr : e.request with
  | publish => exact ⟨e.request, hs.entering e he, by rw [hr]; rfl, fun _ => .inl (by rw [hr]; rfl)⟩
  | subscribe | subscribeMany | unsubscribe | disconnect =>
    rw [hr] at ha
    exact (h.held (e.waiter, a) (Client.held_eq_some_iff.2 ⟨e, he, rfl, ha⟩)).2

theorem Answering.refuse {e : Entering} (h : b.Answering) (hs : b.Standing)
    (he : b.client.entering = some e) :
    ({ b with client := (b.client.refuse e).1 }.record (b.client.refuse e).2).Answering := by
  have hcall := hs.entering e he
  -- A call that waits for an acknowledgement does not disconnect, so it is told.
  have htold : e.request.ackKind? ≠ none → e.waiter ∈ (b.client.refuse e).2.map Prod.fst := by
    intro hk
    unfold Client.refuse
    cases hr : e.request with
    | subscribe | subscribeMany | unsubscribe => exact List.mem_singleton.2 rfl
    | publish | disconnect =>
      rw [hr] at hk
      exact absurd rfl hk
  refine h.change (fun p hp => fits_refuse hs he hp) nofun (fun v hv => ?_) fun p hp => .inr ?_
  · cases hk : e.request.ackKind? with
    | none => exact .inl (by simpa only [Client.refuse, hk] using hv)
    | some k =>
      have hperm := (b.client.acks.waiters_cancelLast k).mem_iff.2 hv
      rcases List.mem_append.1 hperm with hv | hv
      · exact .inl (by simpa only [Client.refuse, hk] using hv)
      · rw [hs.last e k he hk v (Option.mem_toList.1 hv)]
        exact .inr (.inr (htold (hk ▸ Option.some_ne_none k)))
  · have hwaiter := (Client.waiter_of_held hp he).1
    rw [hwaiter] at hcall htold
    exact htold (ackKind_of_registered hs (h.held p hp).1 hcall)

theorem Answering.place (h : b.Answering) (hs : b.Standing) : b.place.Answering := by
  have hfits : ∀ p ∈ b.client.place.2, b.Fits p := fun p => fits_place h hs
  revert hfits
  unfold Books.place Client.place
  split
  · rw [record_nil]
    exact fun _ => h
  next e he =>
  split
  · exact fun _ => h.refuse hs he
  split
  · rw [record_nil]
    exact fun _ => h
  refine fun hfits => h.change hfits nofun (fun v hv => .inl hv) fun p hp => .inr ?_
  obtain ⟨hwaiter, hanswer⟩ := Client.waiter_of_held hp he
  rw [hanswer, ← hwaiter]
  cases e.request.placed? <;> exact List.mem_singleton.2 rfl

theorem held_abandon {p : Waiter × Answer} :
    (b.client.abandon w).held = some p ↔ b.client.held = some p ∧ p.1 ≠ w := by
  rw [Client.held_eq_some_iff, Client.held_eq_some_iff]
  constructor
  · rintro ⟨e, he, hw, ha⟩
    obtain ⟨he, hne⟩ := Option.filter_eq_some_iff.1 he
    exact ⟨⟨e, he, hw, ha⟩, hw ▸ bne_iff_ne.1 hne⟩
  · rintro ⟨⟨e, he, hw, ha⟩, hne⟩
    exact ⟨e, Option.filter_eq_some_iff.2 ⟨he, bne_iff_ne.2 (hw ▸ hne)⟩, hw, ha⟩

theorem Answering.drop (h : b.Answering) (hw : w ∈ b.calls.map (·.1)) : (b.drop w).Answering where
  held p hp := h.held p (held_abandon.1 hp).1
  returned := h.returned
  dropped v hv := by
    rcases List.mem_append.1 hv with hv | hv
    · exact h.dropped v hv
    · rwa [List.mem_singleton.1 hv]
  answered v hv := by
    rcases h.answered v hv with hv | ⟨a, ha | ha⟩ | hv
    · exact .inl hv
    · exact .inr (.inl ⟨a, .inl ha⟩)
    · by_cases hvw : v = w
      · exact .inr (.inr (List.mem_append_right _ (List.mem_singleton.2 hvw)))
      · exact .inr (.inl ⟨a, .inr (held_abandon.2 ⟨ha, hvw⟩)⟩)
    · exact .inr (.inr (List.mem_append_left _ hv))

theorem Answering.giveUp {g : Duration} (h : b.Answering) (hs : b.Standing)
    (hw : (w, .disconnect g) ∈ b.calls) :
    Answering { b with client := b.client.abandon w } := by
  refine h.quiet rfl (Option.ext fun p => ?_)
  rw [held_abandon, and_iff_left_iff_imp]
  rintro hp rfl
  exact absurd rfl (ackKind_of_registered hs (h.held p hp).1 hw)

inductive Moves (b : Books) : Books → Prop
  | call {w : Waiter} {r : Request} (hw : w ∉ b.calls.map (·.1)) : Moves b (b.call w r)
  | turn : Moves b b.turn
  | place : Moves b b.place
  | timeOut {w : Waiter} {r : Request} {e : Error} (hr : (w, r) ∈ b.calls)
      (hk : r.ackKind? ≠ none) : Moves b (b.record [(w, .error e)])
  | drop {w : Waiter} (hw : w ∈ b.calls.map (·.1)) : Moves b (b.drop w)
  | giveUp {w : Waiter} {g : Duration} (hw : (w, .disconnect g) ∈ b.calls) :
      Moves b { b with client := b.client.abandon w }
  | quiet {c : Client} (hwaiting : c.waiting = b.client.waiting)
      (hentering : c.entering = b.client.entering) (hacks : c.acks = b.client.acks)
      (hshut : b.client.shutDown = true → c.shutDown = true) : Moves b { b with client := c }
  | settle {completed : List (Waiter × Mqtt.Packet)} {out : Acks × List (Waiter × Answer)}
      (hout : b.client.acks.Change out)
      (hcompleted : ∀ q ∈ completed, q.1 ∈ b.client.acks.waiters)
      (hok : ∀ p ∈ out.2, p.2 = .ok () →
        ∃ packet, (p.1, packet) ∈ completed ∧ packet.outcome = .ok ()) :
      Moves b ({ b with completed := b.completed ++ completed }.settle out)
  | part {w : Waiter} {g : Duration} (hw : (w, .disconnect g) ∈ b.calls)
      (hshut : b.client.shutDown = true) :
      Moves b ((b.settle b.client.acks.failAll).record [(w, .ok ())])

theorem moves_settle {out : Acks × List (Waiter × Answer)} (hout : b.client.acks.Change out)
    (herror : ∀ p ∈ out.2, p.2 ≠ .ok ()) : b.Moves (b.settle out) := by
  have h := @Moves.settle b [] out hout (fun q hq => absurd hq List.not_mem_nil)
    fun p hp hok => absurd hok (herror p hp)
  rwa [List.append_nil] at h

theorem moves_failAll (b : Books) : b.Moves (b.settle b.client.acks.failAll) :=
  moves_settle b.client.acks.change_failAll fun _ => Acks.error_of_mem_failAll

theorem Moves.standing (h : b.Moves b') (hs : b.Standing) : b'.Standing := by
  cases h with
  | call hw => exact hs.call hw
  | turn => exact hs.turn
  | place => exact hs.recede rfl rfl Client.recedes_place
  | timeOut => exact hs.record _
  | drop => exact hs.recede rfl rfl (Client.recedes_abandon _)
  | giveUp => exact hs.recede rfl rfl (Client.recedes_abandon _)
  | quiet hwaiting hentering hacks _ =>
    exact hs.recede rfl rfl (Client.recedes_of_eq hwaiting hentering hacks)
  | settle hout => exact hs.recede rfl rfl (Client.recedes_hand hout)
  | part => exact hs.recede rfl rfl (Client.recedes_hand b.client.acks.change_failAll)

theorem Moves.answering (h : b.Moves b') (hs : b.Standing) (ha : b.Answering) :
    b'.Answering := by
  cases h with
  | call => exact ha.call
  | turn => exact ha.turn
  | place => exact ha.place hs
  | timeOut hr hk =>
    refine ha.change (fun p hp => ?_) ha.held (fun v hv => .inl hv) fun p hp => .inl ⟨p.2, hp⟩
    rw [List.mem_singleton.1 hp]
    exact ⟨_, hr, Request.disconnects_eq_false hk, nofun⟩
  | drop hw => exact ha.drop hw
  | giveUp hw => exact ha.giveUp hs hw
  | quiet _ hentering hacks _ =>
    exact ha.quiet hacks (by rw [Client.held, hentering, ← Client.held])
  | @settle completed _ hout _ hok =>
    have hmore := ha.mono (List.Subset.refl _) (List.subset_append_left b.completed completed)
    refine hmore.settle ⟨hs.nodup, hs.once, hs.waiting, hs.entering, hs.registered, hs.tracked,
      hs.last⟩ hout fun p hp heq => ?_
    obtain ⟨packet, hpacket, hout⟩ := hok p hp heq
    exact ⟨packet, List.mem_append_right _ hpacket, hout⟩
  | part hw _ =>
    refine Answering.part (ha.settle hs b.client.acks.change_failAll fun p hp hok => ?_) hw
    exact absurd hok (Acks.error_of_mem_failAll hp)

structure Extends (b b' : Books) : Prop where
  calls : b.calls ⊆ b'.calls
  registered : b.registered ⊆ b'.registered
  dropped : b.dropped ⊆ b'.dropped
  returned : b.returned ⊆ b'.returned

private theorem extends_record (b : Books) (answers : List (Waiter × Answer)) :
    b.Extends (b.record answers) :=
  ⟨List.Subset.refl _, List.Subset.refl _, List.Subset.refl _, List.subset_append_left _ _⟩

theorem Moves.extends (h : b.Moves b') : b.Extends b' := by
  have hsame : b.Extends b := ⟨fun _ h => h, fun _ h => h, fun _ h => h, fun _ h => h⟩
  cases h with
  | call =>
    exact ⟨List.subset_append_left _ _, hsame.registered, hsame.dropped,
      List.subset_append_left _ _⟩
  | turn => exact ⟨hsame.calls, List.subset_append_left _ _, hsame.dropped, hsame.returned⟩
  | place => exact ⟨hsame.calls, hsame.registered, hsame.dropped, List.subset_append_left _ _⟩
  | timeOut => exact b.extends_record _
  | drop => exact ⟨hsame.calls, hsame.registered, List.subset_append_left _ _, hsame.returned⟩
  | giveUp | quiet => exact ⟨hsame.calls, hsame.registered, hsame.dropped, hsame.returned⟩
  | settle =>
    exact ⟨hsame.calls, hsame.registered, hsame.dropped, List.subset_append_left _ _⟩
  | part =>
    refine ⟨hsame.calls, hsame.registered, hsame.dropped, fun p hp => ?_⟩
    exact List.mem_append_left _ (List.mem_append_left _ hp)

theorem Moves.shutDown (h : b.Moves b') (hshut : b.client.shutDown = true) :
    b'.client.shutDown = true := by
  cases h with
  | call =>
    unfold Books.call Client.begin
    split <;> exact hshut
  | turn =>
    unfold Books.turn Client.giveTurn
    split <;> exact hshut
  | place =>
    unfold Books.place Client.place
    split
    · exact hshut
    split
    · exact hshut
    split <;> exact hshut
  | timeOut | drop | giveUp => exact hshut
  | quiet _ _ _ hkeep => exact hkeep hshut
  | settle | part => exact (Client.hand_shutDown _ _).trans hshut

theorem not_disconnects_of_hand {out : Acks × List (Waiter × Answer)} {p : Waiter × Answer}
    {g : Duration} (hs : b.Standing) (ha : b.Answering) (hout : b.client.acks.Change out)
    (hp : p ∈ ({ b.client with acks := out.1 }.hand out.2).2) :
    (p.1, .disconnect g) ∉ b.calls := by
  intro hg
  have hregistered : p.1 ∈ b.registered := by
    rcases Client.mem_of_hand (.inl hp) with hp | hp
    · exact hs.tracked _ (hout.known p hp)
    · exact (ha.held p hp).1
  exact absurd rfl (ackKind_of_registered hs hregistered hg)

/-- A call that disconnects is told nothing on its way. It returns after the waiters that were left
have failed. -/
theorem Moves.returned_of_disconnect {p : Waiter × Answer} {g : Duration} (h : b.Moves b')
    (hs : b.Standing) (ha : b.Answering) (hg : (p.1, .disconnect g) ∈ b.calls)
    (hp : p ∈ b'.returned) :
    p ∈ b.returned ∨ b.client.shutDown = true ∧
      b' = (b.settle b.client.acks.failAll).record [(p.1, .ok ())] := by
  cases h with
  | call hw =>
    rcases mem_record hp with hp | hp
    · exact .inl hp
    · unfold Client.begin at hp
      split at hp
      · rw [List.mem_singleton.1 hp] at hg
        exact absurd (List.mem_map_of_mem hg) hw
      · exact absurd hp List.not_mem_nil
  | turn | drop | giveUp | quiet => exact .inl hp
  | place =>
    refine .inl ((mem_record hp).elim id fun hp => ?_)
    obtain ⟨r, hr, hd, -⟩ := fits_place ha hs hp
    rw [hs.request_eq hr hg] at hd
    cases hd
  | timeOut hr hk =>
    rcases mem_record hp with hp | hp
    · exact .inl hp
    · rw [List.mem_singleton.1 hp] at hg
      exact absurd (congrArg Request.ackKind? (hs.request_eq hr hg)) hk
  | settle hout =>
    rcases mem_record hp with hp | hp
    · exact .inl hp
    · exact absurd hg (not_disconnects_of_hand hs ha hout hp)
  | part _ hshut =>
    rcases mem_record hp with hp | hp
    · rcases mem_record hp with hp | hp
      · exact .inl hp
      · exact absurd hg (not_disconnects_of_hand hs ha b.client.acks.change_failAll hp)
    · rw [List.mem_singleton.1 hp]
      exact .inr ⟨hshut, rfl⟩

/-- A waiter that is tracked no more is never tracked again, and no packet resolves it. -/
theorem Moves.untracked (h : b.Moves b') (hs : b.Standing) (hv : v ∈ b.registered)
    (hnot : v ∉ b.client.acks.waiters) :
    v ∉ b'.client.acks.waiters ∧
      ∀ packet, (v, packet) ∈ b'.completed → (v, packet) ∈ b.completed := by
  cases h with
  | call =>
    refine ⟨fun hmem => hnot ?_, fun _ hp => hp⟩
    unfold Books.call Client.begin at hmem
    split at hmem <;> exact hmem
  | turn =>
    refine ⟨fun hmem => ?_, fun _ hp => hp⟩
    rcases b.turn_cases with hidle | ⟨w, r, rest, ht⟩
    · exact hnot (hidle ▸ hmem)
    · rcases (ht.tracked v).1 hmem with hmem | ⟨rfl, -⟩
      · exact hnot hmem
      · exact (hs.waiting _ (ht.next ▸ List.mem_cons_self ..)).2 hv
  | place => exact ⟨fun hmem => hnot (Client.recedes_place.tracked v hmem), fun _ hp => hp⟩
  | timeOut | drop | giveUp => exact ⟨hnot, fun _ hp => hp⟩
  | quiet _ _ hacks _ => exact ⟨fun hmem => hnot (hacks ▸ hmem), fun _ hp => hp⟩
  | settle hout hcompleted =>
    refine ⟨fun hmem => hnot ((Client.recedes_hand hout).tracked v hmem), fun packet hp => ?_⟩
    rcases List.mem_append.1 hp with hp | hp
    · exact hp
    · exact absurd (hcompleted _ hp) hnot
  | part =>
    have hrecedes := Client.recedes_hand b.client.acks.change_failAll
    exact ⟨fun hmem => hnot (hrecedes.tracked v hmem), fun _ hp => hp⟩

end Books

end LoraBridge.Transport
