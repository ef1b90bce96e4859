import LoraBridge.Proofs.Transport.Pending
import LoraBridge.Proofs.Transport.Peer

/-! Which packets of a broker without rules let calls return well. An acknowledgement resolves
the waiter that is bound to its identifier, whatever its kind and however many filters it
answers; that much is all that can go wrong beside a waiter that is bound to the request of
another call. -/
namespace LoraBridge.Transport.Peer

def Accepted (p : Peer) (w : Waiter) : Prop :=
  ∃ packet, (w, packet) ∈ p.completed ∧ packet.outcome = .ok ()

structure Inv (p : Peer) : Prop where
  stands : p.net.Stands p.sent (p.bound.map Labelled.toBinding) p.Accepted
  flights : ∀ f ∈ p.net.client.acks.inFlight, ∃ b ∈ p.bound, b.waiter = f.waiter ∧ b.id = f.id
  completed : ∀ q ∈ p.completed, ∃ b ∈ p.bound, b.waiter = q.1 ∧
    ∃ k, q.2.acknowledged? = some (k, b.id)
  spent : ∀ w, (p.net.client.acks.inFlight.map (·.waiter)).count w +
    (p.completed.map Prod.fst).count w ≤ (p.bound.map (·.waiter)).count w

private theorem inv_start (backoff : Backoff) : (start backoff).Inv where
  stands := (Network.Stands.start backoff).mono fun _ h => h.elim
  flights _ h := absurd h List.not_mem_nil
  completed _ h := absurd h List.not_mem_nil
  spent _ := Nat.le_refl _

section

variable {p : Peer} {id : Mqtt.PacketId} {w : Waiter} {r : Request} {packet : Mqtt.Packet}
  {k : AckKind} {rest : List Report}

theorem sent_of_sent (hx : p.reports = .sent id w r :: rest) :
    p.sent = (w, r) :: rest.filterMap Report.sent? := by
  rw [sent, hx]
  rfl

theorem sent_of_received (hx : p.reports = .received packet :: rest) :
    p.sent = rest.filterMap Report.sent? := by
  rw [sent, hx]
  rfl

private theorem note_unawaited (hk : r.ackKind? = none) : p.note (.sent id w r) = p := by
  simp only [note, hk]

private theorem note_unexpected (hk : r.ackKind? = some k) (hq : p.net.client.acks.queued k = []) :
    p.note (.sent id w r) = p := by
  simp only [note, hk, hq]

private theorem note_bound {v : Waiter} {ws : List Waiter} (hk : r.ackKind? = some k)
    (hq : p.net.client.acks.queued k = v :: ws) :
    p.note (.sent id w r) = { p with bound := p.bound ++ [⟨⟨v, w, p.surplus k⟩, id⟩] } := by
  simp only [note, hk, hq]

private theorem note_unacknowledged (hk : packet.acknowledged? = none) :
    p.note (.received packet) = p := by
  simp only [note, hk]

private theorem note_completed (hk : packet.acknowledged? = some (k, id)) :
    p.note (.received packet) = { p with
      completed := p.completed ++ (p.net.client.acks.inFlight.filter fun f => f.id == id).map
        fun f => (f.waiter, packet) } := by
  simp only [note, hk]

end

variable {p p' : Peer}

theorem Inv.setNet {net : Network} {reports : List Report} (h : p.Inv)
    (hs : net.Stands (reports.filterMap Report.sent?) (p.bound.map Labelled.toBinding) p.Accepted)
    (hf : net.client.acks.inFlight.Sublist p.net.client.acks.inFlight) :
    Inv { p with net, reports } where
  stands := hs
  flights f hmem := h.flights f (hf.subset hmem)
  completed := h.completed
  spent w := by
    have hle := (hf.map (·.waiter)).count_le w
    have hspent := h.spent w
    show (net.client.acks.inFlight.map (·.waiter)).count w + (p.completed.map Prod.fst).count w ≤
      (p.bound.map (·.waiter)).count w
    omega

theorem Inv.go {a : Network.Act} (h : p.Inv) (hs : p.step (.go a) = some p') : p'.Inv := by
  simp only [step] at hs
  split at hs
  · next ha =>
    obtain ⟨net, hnet, rfl⟩ := Option.map_eq_some_iff.1 hs
    obtain ⟨hstands, hflights⟩ := h.stands.caller ha hnet
    exact h.setNet hstands (hflights ▸ List.Sublist.refl _)
  split at hs
  · next ha =>
    obtain ⟨net, hnet, rfl⟩ := Option.map_eq_some_iff.1 hs
    obtain ⟨hstands, hacks⟩ := h.stands.loss (List.nil_sublist _) ha hnet
    refine h.setNet hstands ?_
    rw [hacks]
    exact List.nil_sublist _
  · cases hs

theorem Inv.send {id : Mqtt.PacketId} (h : p.Inv) (hs : p.step (.send id) = some p') :
    p'.Inv := by
  simp only [step] at hs
  split at hs
  · cases hs
  split at hs
  · cases hs
  next w r rest hq =>
  cases hs
  refine h.setNet ?_ (List.Sublist.refl _)
  rw [List.filterMap_append]
  exact h.stands.take hq

theorem Inv.handle_sent {id : Mqtt.PacketId} {w : Waiter} {r : Request} {k : AckKind}
    {rest : List Report} (h : p.Inv) (hx : p.reports = .sent id w r :: rest)
    (hk : r.ackKind? = some k) :
    Inv { p.note (.sent id w r) with reports := rest, net := p.net.resolve (·.sent k id) } := by
  have hsent := sent_of_sent hx
  have hqueued : ∀ k', (p.net.client.acks.sent k id).1.queued k' =
      if r.ackKind? = some k' then (p.net.client.acks.queued k').tail
      else p.net.client.acks.queued k' := by
    intro k'
    rw [Acks.queued_sent]
    simp only [hk, Option.some.injEq, eq_comm]
  have hstands := h.stands
  rw [hsent] at hstands
  cases hq : p.net.client.acks.queued k with
  | nil =>
    have hresolved : (p.net.resolve (·.sent k id)).Stands (rest.filterMap Report.sent?)
        (p.bound.map Labelled.toBinding) p.Accepted :=
      Network.Stands.resolve hstands.reasoned (hstands.line.bind hqueued (.inl rfl))
        (fun _ hv => hv) fun v hv => absurd rfl (Acks.error_of_mem_sent hv)
    rw [note_unexpected hk hq]
    refine h.setNet hresolved ?_
    rw [Network.acks_resolve, Acks.sent_of_nil hq]
  | cons v ws =>
    have hbound : p.bound ⊆ p.bound ++ [⟨⟨v, w, p.surplus k⟩, id⟩] := List.subset_append_left _ _
    have hsurplus : p.surplus k = (callsOf k ((w, r) :: (rest.filterMap Report.sent? ++
        p.net.client.queue ++ p.net.placing))).length - (p.net.client.acks.queued k).length := by
      unfold surplus
      rw [hsent]
      rfl
    have hresolved : (p.net.resolve (·.sent k id)).Stands (rest.filterMap Report.sent?)
        ((p.bound ++ [(⟨⟨v, w, p.surplus k⟩, id⟩ : Labelled)]).map Labelled.toBinding)
        p.Accepted := by
      refine Network.Stands.resolve hstands.reasoned (hstands.line.bind hqueued ?_)
        (fun _ hv => hv) fun v hv => absurd rfl (Acks.error_of_mem_sent hv)
      refine .inr ⟨k, v, ws, hk, hq, ?_⟩
      rw [List.map_append, hsurplus]
      rfl
    rw [note_bound hk hq]
    refine ⟨hresolved, fun f hf => ?_, fun q hq => ?_, fun u => ?_⟩
    · rw [Network.acks_resolve, Acks.inFlight_sent_of_cons hq] at hf
      rcases List.mem_append.1 hf with hf | hf
      · obtain ⟨b, hb, hwaiter⟩ := h.flights f (List.mem_filter.1 hf).1
        exact ⟨b, hbound hb, hwaiter⟩
      · rw [List.mem_singleton.1 hf]
        exact ⟨_, List.mem_append_right _ (List.mem_singleton.2 rfl), rfl, rfl⟩
    · obtain ⟨b, hb, hcompleted⟩ := h.completed q hq
      exact ⟨b, hbound hb, hcompleted⟩
    · have hspent := h.spent u
      have hle := ((List.filter_sublist (p := fun f : InFlight => f.id != id)
        (l := p.net.client.acks.inFlight)).map (·.waiter)).count_le u
      rw [Network.acks_resolve, Acks.inFlight_sent_of_cons hq, List.map_append, List.map_append,
        List.count_append, List.count_append]
      show _ + [v].count u + (p.completed.map Prod.fst).count u ≤ _ + [v].count u
      omega

theorem Inv.handle_acknowledgement {packet : Mqtt.Packet} {k : AckKind} {id : Mqtt.PacketId}
    {rest : List Report} (h : p.Inv) (hx : p.reports = .received packet :: rest)
    (hk : packet.acknowledged? = some (k, id)) :
    Inv { p.note (.received packet) with
      reports := rest
      net := p.net.resolve (·.acknowledge id packet.outcome) } := by
  have hnote := note_completed (p := p) hk
  have hstands := h.stands
  rw [sent_of_received hx] at hstands
  have hresolved : (p.net.resolve (·.acknowledge id packet.outcome)).Stands
      (rest.filterMap Report.sent?) (p.bound.map Labelled.toBinding)
      (p.note (.received packet)).Accepted := by
    have hqueued : (p.net.client.acks.acknowledge id packet.outcome).1.queued =
        p.net.client.acks.queued := funext (Acks.queued_acknowledge _ _ _)
    have hline := hstands.line
    rw [← hqueued] at hline
    rw [hnote]
    refine Network.Stands.resolve hstands.reasoned hline (fun v hv => ?_) fun v hv => ?_
    · obtain ⟨x, hx, hgood⟩ := hv
      exact ⟨x, List.mem_append_left _ hx, hgood⟩
    · rw [Acks.answers_acknowledge] at hv
      obtain ⟨f, hf, heq⟩ := List.mem_map.1 hv
      obtain ⟨rfl, hgood⟩ := Prod.mk.inj heq
      exact ⟨packet, List.mem_append_right _ (List.mem_map.2 ⟨f, hf, rfl⟩), hgood⟩
  rw [hnote] at hresolved ⊢
  refine ⟨hresolved, fun f hf => ?_, fun q hq => ?_, fun u => ?_⟩
  · rw [Network.acks_resolve, Acks.inFlight_acknowledge] at hf
    exact h.flights f (List.mem_filter.1 hf).1
  · rcases List.mem_append.1 hq with hq | hq
    · exact h.completed q hq
    · obtain ⟨f, hf, rfl⟩ := List.mem_map.1 hq
      obtain ⟨hmem, hid⟩ := List.mem_filter.1 hf
      obtain ⟨b, hb, hwaiter, hlabel⟩ := h.flights f hmem
      refine ⟨b, hb, hwaiter, k, ?_⟩
      rw [hlabel, eq_of_beq hid]
      exact hk
  · have hspent := h.spent u
    have hsplit := ((List.filter_append_perm (fun f : InFlight => f.id == id)
      p.net.client.acks.inFlight).map (·.waiter)).count_eq u
    rw [List.map_append, List.count_append] at hsplit
    rw [Network.acks_resolve, Acks.inFlight_acknowledge, List.map_append, List.count_append,
      List.map_map]
    have hne : (fun f : InFlight => f.id != id) = fun f => !(f.id == id) := rfl
    have hfst : Prod.fst ∘ (fun f : InFlight => (f.waiter, packet)) = (·.waiter) := rfl
    rw [hne, hfst]
    show _ ≤ (p.bound.map (·.waiter)).count u
    omega

theorem follow_unacknowledged (n : Network) {packet : Mqtt.Packet}
    (h : packet.acknowledged? = none) : ∃ failures,
      n.follow (.notice (.received packet)) = { n with loop := { n.loop with failures } } := by
  have hnil : ∀ failures, Network.record { n with loop := { n.loop with failures } } [] =
      { n with loop := { n.loop with failures } } := fun _ => Network.record_nil _
  cases packet with
  | connAck => exact ⟨0, hnil 0⟩
  | subAck | unsubAck => cases h
  | publish | pubAck | pubRec | pubRel | pubComp | pingReq | pingResp | disconnect | «foreign» =>
    exact ⟨n.loop.failures, hnil _⟩

theorem follow_acknowledgement (n : Network) {packet : Mqtt.Packet} {k : AckKind}
    {id : Mqtt.PacketId} (h : packet.acknowledged? = some (k, id)) :
    n.follow (.notice (.received packet)) = n.resolve (·.acknowledge id packet.outcome) := by
  cases packet with
  | subAck | unsubAck =>
    cases h
    exact Network.follow_withAcks rfl
  | connAck | publish | pubAck | pubRec | pubRel | pubComp | pingReq | pingResp | disconnect
  | «foreign» => cases h

private theorem follow_unawaited (n : Network) {r : Request} (h : r.ackKind? = none)
    (id : Mqtt.PacketId) : n.follow (.notice (.sent (r.packet id))) = n ∨
      n.follow (.notice (.sent (r.packet id))) = n.halt := by
  cases r with
  | publish => exact .inl (Network.record_nil n)
  | disconnect => exact .inr (congrArg Network.halt (Network.record_nil n))
  | subscribe | subscribeMany | unsubscribe => cases h

theorem Inv.handle_unawaited {id : Mqtt.PacketId} {w : Waiter} {r : Request} {rest : List Report}
    (h : p.Inv) (hx : p.reports = .sent id w r :: rest) (hk : r.ackKind? = none) :
    Inv { p with reports := rest, net := p.net.follow (.notice (.sent (r.packet id))) } := by
  have hstands := h.stands
  rw [sent_of_sent hx] at hstands
  have hpop := Network.Stands.pop hstands hk
  rcases follow_unawaited p.net hk id with heq | heq
  · rw [heq]
    exact h.setNet hpop (List.Sublist.refl _)
  · obtain ⟨hhalt, hacks⟩ := hpop.loss (a := .halt) (List.Sublist.refl _) rfl rfl
    rw [heq]
    refine h.setNet hhalt ?_
    rw [hacks]
    exact List.nil_sublist _

theorem Inv.handle_unacknowledged {packet : Mqtt.Packet} {rest : List Report} (h : p.Inv)
    (hx : p.reports = .received packet :: rest) (hk : packet.acknowledged? = none) :
    Inv { p with reports := rest, net := p.net.follow (.notice (.received packet)) } := by
  have hstands := h.stands
  rw [sent_of_received hx] at hstands
  obtain ⟨failures, heq⟩ := follow_unacknowledged p.net hk
  rw [heq]
  exact h.setNet ⟨hstands.line, hstands.reasoned⟩ (List.Sublist.refl _)

theorem Inv.handle {x : Report} {rest : List Report} (h : p.Inv) (hx : p.reports = x :: rest) :
    Inv { p.note x with reports := rest, net := p.net.follow (.notice x.notice) } := by
  cases x with
  | sent id w r =>
    cases hk : r.ackKind? with
    | none =>
      rw [note_unawaited hk]
      exact h.handle_unawaited hx hk
    | some k =>
      have hnet : p.net.follow (.notice (Report.sent id w r).notice) =
          p.net.resolve (·.sent k id) := Network.follow_sent p.net hk id w
      rw [hnet]
      exact h.handle_sent hx hk
  | received packet =>
    cases hk : packet.acknowledged? with
    | none =>
      rw [note_unacknowledged hk]
      exact h.handle_unacknowledged hx hk
    | some q =>
      have hnet : p.net.follow (.notice (Report.received packet).notice) =
          p.net.resolve (·.acknowledge q.2 packet.outcome) := follow_acknowledgement p.net hk
      rw [hnet]
      exact h.handle_acknowledgement hx hk

theorem inv_step {a : Act} (h : p.Inv) (hs : p.step a = some p') : p'.Inv := by
  cases a with
  | go a => exact h.go hs
  | connect =>
    simp only [step] at hs
    split at hs
    · cases hs
    cases hs
    exact h.setNet ⟨h.stands.line, h.stands.reasoned⟩ (List.Sublist.refl _)
  | send id => exact h.send hs
  | receive packet =>
    simp only [step] at hs
    split at hs
    · cases hs
      refine h.setNet ?_ (List.Sublist.refl _)
      rw [List.filterMap_append]
      exact (List.append_nil p.sent).symm ▸ h.stands
    · cases hs
  | handle =>
    simp only [step] at hs
    split at hs
    · cases hs
    next x rest hx =>
    split at hs
    · cases hs
    · cases hs
      exact h.handle hx

theorem inv_run {backoff : Backoff} {acts : List Act} (h : (start backoff).run acts = some p) :
    p.Inv :=
  Runs.invariant (fun _ _ _ _ hp hs => inv_step hp hs) h (inv_start backoff)

theorem Inv.nodup_bound (h : p.Inv) : (p.bound.map (·.waiter)).Nodup := by
  rw [List.nodup_iff_count_le_one]
  intro w
  have honce := h.stands.line.once w
  have hcalls := List.nodup_iff_count_le_one.1 h.stands.line.nodup w
  rw [List.map_map] at honce
  have hwaiter : (fun b : Binding => b.waiter) ∘ Labelled.toBinding = (·.waiter) := rfl
  rw [hwaiter] at honce
  omega

theorem Inv.nodup_completed (h : p.Inv) : (p.completed.map Prod.fst).Nodup := by
  rw [List.nodup_iff_count_le_one]
  intro w
  have hspent := h.spent w
  have hbound := List.nodup_iff_count_le_one.1 h.nodup_bound w
  omega

/-- A waiter is bound to the request of its own call when none is ahead without its waiter. -/
theorem Inv.call_eq_iff {b : Labelled} (h : p.Inv) (hb : b ∈ p.bound) :
    b.call = b.waiter ↔ b.surplus = 0 :=
  h.stands.line.exact b.toBinding (List.mem_map_of_mem hb)

/-- Who returns well was resolved by a packet with a good outcome. -/
theorem Inv.accepted {w : Waiter} {r : Request} (h : p.Inv) (hr : (w, r) ∈ p.net.calls)
    (hawaits : r.ackKind? ≠ none) (hreturned : (w, .ok ()) ∈ p.net.returned) : p.Accepted w := by
  rcases h.stands.reasoned w (.inl hreturned) with ⟨r', hr', hnone⟩ | haccepted
  · rw [h.stands.line.eq_of_call_eq hr hr'] at hawaits
    exact absurd hnone hawaits
  · exact haccepted

theorem isGranted_of_outcome {packet : Mqtt.Packet} (h : packet.outcome = .ok ()) :
    ∀ g ∈ packet.grants, g.isGranted = true := by
  cases packet with
  | subAck id grants =>
    cases haccepted : Mqtt.accepted grants with
    | true => exact List.all_eq_true.1 haccepted
    | false =>
      simp only [Mqtt.Packet.outcome, EventLoop.subscribeAnswer, haccepted] at h
      cases h
  | unsubAck | connAck | publish | pubAck | pubRec | pubRel | pubComp | pingReq | pingResp
  | disconnect | «foreign» => exact fun g hg => absurd hg List.not_mem_nil

/-- Who returns well was acknowledged under the identifier of the request to which its waiter was
bound, and no filter was refused. When no request stood ahead without its waiter, that request is
the call's own. -/
theorem acknowledged_of_returned {backoff : Backoff} {acts : List Act}
    (h : (start backoff).run acts = some p) (w : Waiter) (r : Request)
    (hr : (w, r) ∈ p.net.calls) (hawaits : r.ackKind? ≠ none)
    (hreturned : (w, .ok ()) ∈ p.net.returned) :
    ∃ b ∈ p.bound, b.waiter = w ∧ (b.surplus = 0 → b.call = w) ∧
      ∃ k packet, (w, packet) ∈ p.completed ∧ packet.acknowledged? = some (k, b.id) ∧
        ∀ g ∈ packet.grants, g.isGranted = true := by
  have hinv := inv_run h
  obtain ⟨packet, hmem, hgood⟩ := hinv.accepted hr hawaits hreturned
  obtain ⟨b, hb, rfl, k, hk⟩ := hinv.completed _ hmem
  exact ⟨b, hb, rfl, (hinv.call_eq_iff hb).2, k, packet, hmem, hk, isGranted_of_outcome hgood⟩

def granting : List Act :=
  [.go (.call 0 (.subscribeMany [("a", .atMostOnce), ("b", .atMostOnce)])), .go .turn, .go .place,
    .connect, .receive (.subAck 7 []), .handle, .send 7, .handle, .receive (.unsubAck 3), .handle,
    .receive (.subAck 7 [.granted .atMostOnce, .granted .atMostOnce]), .handle]

theorem acknowledged_granting : ∃ p, (start .default).run granting = some p ∧
    p.net.returned = [(0, .ok ())] ∧
    ∃ b ∈ p.bound, b.waiter = 0 ∧ (b.surplus = 0 → b.call = 0) ∧
      ∃ k packet, (0, packet) ∈ p.completed ∧ packet.acknowledged? = some (k, b.id) ∧
        ∀ g ∈ packet.grants, g.isGranted = true := by
  obtain ⟨p, hrun, hreturned, hcalls⟩ : ∃ p, (start .default).run granting = some p ∧
      p.net.returned = [(0, .ok ())] ∧
      p.net.calls = [(0, .subscribeMany [("a", .atMostOnce), ("b", .atMostOnce)])] :=
    ⟨_, rfl, rfl, rfl⟩
  refine ⟨p, hrun, hreturned,
    acknowledged_of_returned hrun 0 _ (hcalls ▸ List.mem_singleton.2 rfl) ?_ ?_⟩
  · exact Option.some_ne_none _
  · exact hreturned ▸ List.mem_singleton.2 rfl

/-- A broker grants one of the two filters of a subscription, answers an unsubscription as it
would refuse a filter, and a subscription as it would answer an unsubscription. Then the
connection is lost before a request goes out, which later takes the waiter of the next call. -/
def unruly : List Act :=
  [.go (.call 0 (.subscribeMany [("a", .atMostOnce), ("b", .atMostOnce)])), .go .turn, .go .place,
    .go (.call 1 (.unsubscribe "c")), .go .turn, .go .place,
    .go (.call 2 (.subscribe "d" .atMostOnce)), .go .turn, .go .place, .connect,
    .send 1, .handle, .receive (.subAck 1 [.granted .atMostOnce]), .handle,
    .send 2, .handle, .receive (.subAck 2 [.refused]), .handle,
    .send 3, .handle, .receive (.unsubAck 3), .handle,
    .go (.call 3 (.subscribe "e" .atMostOnce)), .go .turn, .go .place,
    .go (.lose "gone" [(3, .subscribe "e" .atMostOnce)]),
    .go (.call 4 (.subscribe "f" .atMostOnce)), .go .turn, .go .place, .connect,
    .send 4, .handle, .receive (.subAck 4 [.granted .atMostOnce]), .handle]

theorem not_granted_unruly : ∃ p, (start .default).run unruly = some p ∧
    p.completed = [(0, .subAck 1 [.granted .atMostOnce]), (1, .subAck 2 [.refused]),
      (2, .unsubAck 3), (4, .subAck 4 [.granted .atMostOnce])] ∧
    p.bound = [⟨⟨0, 0, 0⟩, 1⟩, ⟨⟨1, 1, 0⟩, 2⟩, ⟨⟨2, 2, 0⟩, 3⟩, ⟨⟨4, 3, 1⟩, 4⟩] ∧
    p.net.returned = [(0, .ok ()), (1, EventLoop.subscribeAnswer 2 false), (2, .ok ()),
      (3, Acks.lost .subscribe), (4, .ok ())] ∧
    ¬ p.Granted := by
  obtain ⟨p, hrun, hcalls, hcompleted, hbound, hreturned⟩ : ∃ p,
      (start .default).run unruly = some p ∧
      (0, .subscribeMany [("a", .atMostOnce), ("b", .atMostOnce)]) ∈ p.net.calls ∧
      p.completed = [(0, .subAck 1 [.granted .atMostOnce]), (1, .subAck 2 [.refused]),
        (2, .unsubAck 3), (4, .subAck 4 [.granted .atMostOnce])] ∧
      p.bound = [⟨⟨0, 0, 0⟩, 1⟩, ⟨⟨1, 1, 0⟩, 2⟩, ⟨⟨2, 2, 0⟩, 3⟩, ⟨⟨4, 3, 1⟩, 4⟩] ∧
      p.net.returned = [(0, .ok ()), (1, EventLoop.subscribeAnswer 2 false), (2, .ok ()),
        (3, Acks.lost .subscribe), (4, .ok ())] :=
    ⟨_, rfl, List.mem_cons_self, rfl, rfl, rfl⟩
  refine ⟨p, hrun, hcompleted, hbound, hreturned, fun h => ?_⟩
  obtain ⟨_, -, -, -, packet, hmem, hby⟩ := h.accepted 0 _ hcalls (Option.some_ne_none _)
    (hreturned ▸ List.mem_cons_self)
  -- The only packet that resolved the first call answers one filter of two.
  have hone : ∀ q ∈ p.completed, q.1 = 0 → q.2.grants.length < 2 := by
    rw [hcompleted]
    decide
  exact absurd hby.enough (Nat.not_le.2 (hone _ hmem rfl))

/-- A run keeps to full grants exactly when every acknowledgement with which a call returns is of
the kind of its request and, if the call returns well, answers all its filters and resolved a
waiter that was bound while no request stood ahead without its own. -/
theorem granted_iff {backoff : Backoff} {acts : List Act}
    (h : (start backoff).run acts = some p) :
    p.Granted ↔ ∀ b ∈ p.bound, ∀ r packet, (b.waiter, r) ∈ p.net.calls →
      (b.waiter, packet) ∈ p.completed → (b.waiter, packet.outcome) ∈ p.net.returned →
      packet.acknowledged?.map Prod.fst = r.ackKind? ∧
        (packet.outcome = .ok () → b.surplus = 0 ∧ r.filters ≤ packet.grants.length) := by
  have hinv := inv_run h
  constructor
  · intro hgranted b hb r packet hr hcompleted hreturned
    have hkind := hgranted.kinds b.waiter r packet hr hcompleted hreturned
    refine ⟨hkind, fun hgood => ?_⟩
    obtain ⟨_, -, -, k, hk⟩ := hinv.completed _ hcompleted
    have hawaits : r.ackKind? ≠ none := by
      rw [← hkind, hk]
      exact Option.some_ne_none k
    obtain ⟨b', hb', hwaiter, hcall, packet', hcompleted', hby⟩ :=
      hgranted.accepted b.waiter r hr hawaits (hgood ▸ hreturned)
    -- A waiter is bound once, and resolved by one packet.
    obtain rfl := List.inj_on_of_nodup_map hinv.nodup_bound hb' hb hwaiter
    have hsame := List.inj_on_of_nodup_map hinv.nodup_completed hcompleted' hcompleted rfl
    rw [(Prod.mk.inj hsame).2] at hby
    exact ⟨(hinv.call_eq_iff hb).1 hcall, hby.enough⟩
  · intro hall
    refine ⟨fun w r hr hawaits hreturned => ?_, fun w r packet hr hcompleted hreturned => ?_⟩
    · obtain ⟨packet, hmem, hgood⟩ := hinv.accepted hr hawaits hreturned
      obtain ⟨b, hb, rfl, k, hk⟩ := hinv.completed _ hmem
      obtain ⟨hkind, hwell⟩ := hall b hb r packet hr hmem (hgood ▸ hreturned)
      obtain ⟨hsurplus, henough⟩ := hwell hgood
      rw [hk] at hkind
      exact ⟨b, hb, rfl, (hinv.call_eq_iff hb).2 hsurplus, packet, hmem,
        ⟨⟨k, hkind.symm, hk⟩, henough, isGranted_of_outcome hgood⟩⟩
    · obtain ⟨b, hb, rfl, -⟩ := hinv.completed _ hcompleted
      exact (hall b hb r packet hr hcompleted hreturned).1

end LoraBridge.Transport.Peer
