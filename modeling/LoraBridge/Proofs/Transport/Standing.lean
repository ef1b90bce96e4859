import LoraBridge.Proofs.Transport.Line

/-! What holds of a transport however its broker behaves. The steps of callers, and losses of
the connection, keep the waiters in line with the requests that have not been noticed to be
sent, and let no call return well that needs an acknowledgement. -/
namespace LoraBridge.Transport.Network

def Act.ofCaller : Act → Bool
  | .call .. | .turn | .place | .timeOut .. => true
  | .send _ | .answer .. | .message .. | .handle | .connect _ | .fail _ | .lose .. | .halt
  | .shut => false

def Act.isLoss : Act → Bool
  | .fail _ | .lose .. | .halt | .shut => true
  | .call .. | .turn | .place | .timeOut .. | .send _ | .answer .. | .message .. | .handle
  | .connect _ => false

/-- Who returns well has a reason, unless there is nothing to acknowledge. -/
def Reasoned (n : Network) (reason : Waiter → Prop) : Prop :=
  ∀ w, (w, .ok ()) ∈ n.returned ∨ n.client.held = some (w, .ok ()) →
    (∃ r, (w, r) ∈ n.calls ∧ r.ackKind? = none) ∨ reason w

/-- The waiters stand to the requests, the first of which some connection has sent, and nobody
returns well without a reason. -/
structure Stands (n : Network) (sent : List (Waiter × Request)) (bound : List Binding)
    (reason : Waiter → Prop) : Prop where
  line : Aligned n.calls n.client.waiting (sent ++ n.client.queue ++ n.placing)
    n.client.acks.queued bound
  reasoned : n.Reasoned reason

@[simp] theorem placing_of_entering {n : Network} {e : Entering} (he : n.client.entering = some e) :
    n.placing = [(e.waiter, e.request)] := by
  unfold placing
  rw [he]
  rfl

namespace Stands

variable {n n' : Network} {sent : List (Waiter × Request)} {bound : List Binding}
  {reason : Waiter → Prop} {w : Waiter} {r : Request}

theorem start (backoff : Backoff) : (Network.start backoff).Stands [] [] fun _ => False where
  line := by
    have hq : (Network.start backoff).client.acks.queued = fun _ => [] :=
      funext Acks.queued_empty
    rw [hq]
    exact Aligned.start
  reasoned _ h := by rcases h with h | h <;> cases h

theorem mono {reason' : Waiter → Prop} (h : n.Stands sent bound reason)
    (hr : ∀ w, reason w → reason' w) : n.Stands sent bound reason' where
  line := h.line
  reasoned w hw := (h.reasoned w hw).imp_right (hr w)

theorem record {answers : List (Waiter × Answer)} (h : n.Stands sent bound reason)
    (ha : ∀ w, (w, .ok ()) ∈ answers →
      (∃ r, (w, r) ∈ n.calls ∧ r.ackKind? = none) ∨ reason w) :
    (n.record answers).Stands sent bound reason where
  line := h.line
  reasoned w hw := by
    rcases hw with hw | hw
    · rcases mem_of_record hw with hw | hw
      · exact h.reasoned w (.inl hw)
      · exact ha w hw
    · exact h.reasoned w (.inr hw)

theorem resolve {change : Acks → Acks × List (Waiter × Answer)} {sent' : List (Waiter × Request)}
    {bound' : List Binding} {reason' : Waiter → Prop} (h : n.Reasoned reason)
    (hl : Aligned n.calls n.client.waiting (sent' ++ n.client.queue ++ n.placing)
      (change n.client.acks).1.queued bound')
    (hr : ∀ w, reason w → reason' w)
    (hc : ∀ w, (w, .ok ()) ∈ (change n.client.acks).2 → reason' w) :
    (n.resolve change).Stands sent' bound' reason' where
  line := by
    rw [acks_resolve, waiting_resolve, queue_resolve, placing_resolve]
    exact hl
  reasoned w hw := by
    rcases mem_of_resolve hw with hw | hw
    · exact (h w hw).imp_right (hr w)
    · exact .inr (hc w hw)

theorem call (h : n.Stands sent bound reason) (hs : n.step (.call w r) = some n') :
    n'.Stands sent bound reason ∧ n'.client.acks = n.client.acks := by
  simp only [step] at hs
  split at hs
  · cases hs
  next hw =>
  cases hs
  have hbase : Stands { n with calls := n.calls ++ [(w, r)] } sent bound reason := {
    line := (h.line.call hw).weaken (List.sublist_append_left _ _) (List.Sublist.refl _)
      (fun _ => List.Sublist.refl _) h.line.latest
    reasoned := fun v hv => (h.reasoned v hv).imp_left fun ⟨q, hq, hk⟩ =>
      ⟨q, List.mem_append_left _ hq, hk⟩ }
  unfold Client.begin
  split
  · refine ⟨hbase.record fun v hv => ?_, rfl⟩
    obtain ⟨rfl, hr⟩ := Prod.mk.inj (List.mem_singleton.1 hv)
    refine .inl ⟨r, List.mem_append_right _ (List.mem_singleton.2 rfl), ?_⟩
    cases r <;> first | rfl | cases hr
  · rw [record_nil]
    exact ⟨⟨h.line.call hw, hbase.reasoned⟩, rfl⟩

theorem turn (h : n.Stands sent bound reason) :
    (n.setClient n.client.giveTurn).Stands sent bound reason := by
  unfold Client.giveTurn
  split
  · next w r rest he hw =>
    have hl := h.line
    have hahead : sent ++ n.client.queue ++ n.placing = sent ++ n.client.queue := by
      unfold placing
      rw [he]
      exact List.append_nil _
    rw [hw, hahead] at hl
    refine ⟨hl.turn fun k' => ?_, fun v hv => h.reasoned v (hv.imp_right nofun)⟩
    cases hk : r.ackKind? with
    | none => simp only [setClient, client, reduceCtorEq, ↓reduceIte, List.append_nil]
    | some k => simp only [setClient, client, Option.some.injEq, Acks.queued_enqueue, eq_comm]
  · exact h

theorem refuse {e : Entering} (h : n.Stands sent bound reason)
    (he : n.client.entering = some e) :
    ((n.setClient (n.client.refuse e).1).record (n.client.refuse e).2).Stands sent bound
      reason := by
  have hl := h.line
  rw [placing_of_entering he] at hl
  have hqueued : ∀ k, (n.client.refuse e).1.acks.queued k =
      if e.request.ackKind? = some k then (n.client.acks.queued k).dropLast
      else n.client.acks.queued k := by
    intro k'
    cases hk : e.request.ackKind? with
    | none => simp only [Client.refuse, hk, reduceCtorEq, ↓reduceIte]
    | some k => simp only [Client.refuse, hk, Option.some.injEq, Acks.queued_cancelLast, eq_comm]
  refine record ⟨?_, fun v hv => h.reasoned v (hv.imp_right nofun)⟩ fun v hv => ?_
  · have hrefused := hl.refuse hqueued
    rw [← List.append_nil (sent ++ n.client.queue)] at hrefused
    exact hrefused
  · exact absurd rfl (Client.error_of_mem_refuse hv)

theorem place (h : n.Stands sent bound reason) :
    ((n.setClient n.client.place.1).record n.client.place.2).Stands sent bound reason := by
  unfold Client.place
  split
  · rw [record_nil]
    exact h
  next e he =>
  split
  · exact h.refuse he
  split
  · rw [record_nil]
    exact h
  have hl := h.line
  rw [placing_of_entering he] at hl
  refine record ⟨?_, fun v hv => h.reasoned v (hv.imp_right nofun)⟩ fun v hv => ?_
  · rw [List.append_assoc, ← List.append_nil (sent ++ _)] at hl
    exact hl
  · obtain ⟨a, hans, heq⟩ := Option.map_eq_some_iff.1 (Option.mem_toList.1 hv)
    obtain ⟨rfl, rfl⟩ := Prod.mk.inj heq
    cases hp : e.request.placed? with
    | some a =>
      refine .inl ⟨e.request, hl.known _ (by simp), ?_⟩
      cases hr : e.request <;> first | rfl | (rw [hr] at hp; cases hp)
    | none =>
      rw [hp, Option.none_or] at hans
      refine h.reasoned e.waiter (.inr ?_)
      unfold Client.held
      rw [he, Option.bind_some, hans]
      rfl

theorem timeOut {time : Duration} (h : n.Stands sent bound reason)
    (hs : n.step (.timeOut w time) = some n') :
    n'.Stands sent bound reason ∧ n'.client.acks = n.client.acks := by
  simp only [step] at hs
  split at hs
  · cases hs
  split at hs
  · cases hs
  split at hs
  · cases hs
  cases hs
  refine ⟨h.record fun v hv => ?_, rfl⟩
  cases (Prod.mk.inj (List.mem_singleton.1 hv)).2

private theorem inFlight_giveTurn (c : Client) : c.giveTurn.acks.inFlight = c.acks.inFlight := by
  unfold Client.giveTurn
  split
  · next w r _ _ _ =>
    cases hk : r.ackKind? with
    | none => rfl
    | some k => exact Acks.inFlight_enqueue _ _ _
  · rfl

@[simp] theorem inFlight_place (c : Client) : c.place.1.acks.inFlight = c.acks.inFlight := by
  unfold Client.place
  split
  · rfl
  next e _ =>
  split
  · unfold Client.refuse
    cases hk : e.request.ackKind? with
    | none => rfl
    | some k => exact Acks.inFlight_cancelLast _ _
  split <;> rfl

theorem caller {a : Act} (h : n.Stands sent bound reason) (ha : a.ofCaller = true)
    (hs : n.step a = some n') :
    n'.Stands sent bound reason ∧ n'.client.acks.inFlight = n.client.acks.inFlight := by
  cases a with
  | call w r =>
    obtain ⟨hstands, hacks⟩ := h.call hs
    exact ⟨hstands, congrArg Acks.inFlight hacks⟩
  | turn =>
    cases hs
    exact ⟨h.turn, inFlight_giveTurn n.client⟩
  | place =>
    cases hs
    exact ⟨h.place, inFlight_place n.client⟩
  | timeOut w time =>
    obtain ⟨hstands, hacks⟩ := h.timeOut hs
    exact ⟨hstands, congrArg Acks.inFlight hacks⟩
  | send | answer | message | handle | connect | fail | lose | halt | shut => cases ha

theorem pop (h : n.Stands ((w, r) :: sent) bound reason) (hk : r.ackKind? = none) :
    n.Stands sent bound reason where
  line := h.line.bind (fun k => by rw [hk]; rfl) (.inl rfl)
  reasoned := h.reasoned

theorem take {rest : List (Waiter × Request)} (h : n.Stands sent bound reason)
    (hq : n.client.queue = (w, r) :: rest) :
    (n.setClient { n.client with queue := rest }).Stands (sent ++ [(w, r)]) bound reason := by
  have hl := h.line
  rw [hq, List.append_cons] at hl
  exact ⟨hl, h.reasoned⟩

theorem failAll {m : Network} {sent' : List (Waiter × Request)} (h : n.Stands sent bound reason)
    (hcalls : m.calls = n.calls) (hreturned : m.returned = n.returned)
    (hwaiting : m.client.waiting = n.client.waiting)
    (hentering : m.client.entering = n.client.entering)
    (hqueue : m.client.queue.Sublist n.client.queue) (hsent : sent'.Sublist sent) :
    (m.resolve Acks.failAll).Stands sent' bound reason := by
  have hplacing : m.placing = n.placing := by
    unfold placing
    rw [hentering]
  have hahead : (sent' ++ m.client.queue ++ m.placing).Sublist
      (sent ++ n.client.queue ++ n.placing) := by
    rw [hplacing]
    exact (hsent.append hqueue).append (List.Sublist.refl _)
  refine resolve (fun v hv => ?_) ?_ (fun _ hv => hv)
    fun v hv => absurd rfl (Acks.error_of_mem_failAll hv)
  · unfold Client.held at hv
    rw [hreturned, hentering] at hv
    rw [hcalls]
    exact h.reasoned v hv
  · have hqueued : Acks.empty.queued = fun _ => [] := funext Acks.queued_empty
    have hcut := h.line.cut hahead
    rw [← hcalls, ← hwaiting, ← hqueued] at hcut
    exact hcut

/-- Every error, and every end, of the connection fails every waiter. -/
theorem loss {a : Act} {sent' : List (Waiter × Request)} (h : n.Stands sent bound reason)
    (hsent : sent'.Sublist sent) (ha : a.isLoss = true) (hs : n.step a = some n') :
    n'.Stands sent' bound reason ∧ n'.client.acks = Acks.empty := by
  have hlost : ∀ m : Network, m.calls = n.calls → m.returned = n.returned →
      m.client.waiting = n.client.waiting → m.client.entering = n.client.entering →
      m.client.queue.Sublist n.client.queue →
      (m.resolve Acks.failAll).Stands sent' bound reason ∧
        (m.resolve Acks.failAll).client.acks = Acks.empty :=
    fun m hc hr hw he hq =>
      ⟨h.failAll hc hr hw he hq hsent, acks_resolve m Acks.failAll⟩
  have hfailed : ∀ (m : Network) (why : String),
      (m.resolve Acks.failAll).Stands sent' bound reason ∧
        (m.resolve Acks.failAll).client.acks = Acks.empty →
      (m.follow (.failed why)).Stands sent' bound reason ∧
        (m.follow (.failed why)).client.acks = Acks.empty := by
    intro m why hm
    obtain ⟨failures, heq⟩ := follow_failed m why
    rw [heq]
    exact ⟨⟨hm.1.line, hm.1.reasoned⟩, hm.2⟩
  cases a with
  | fail why =>
    simp only [step] at hs
    split at hs
    · cases hs
    cases hs
    exact hfailed n why (hlost n rfl rfl rfl rfl (List.Sublist.refl _))
  | lose why left =>
    simp only [step] at hs
    split at hs
    · next hleft =>
      cases hs
      exact hfailed _ why (hlost _ rfl rfl rfl rfl hleft.2)
    · cases hs
  | halt =>
    cases hs
    exact hlost (n.disconnect.setClient { n.client with running := false, queue := [] }) rfl rfl rfl
      rfl (List.nil_sublist _)
  | shut =>
    cases hs
    exact hlost (n.disconnect.setClient
      { n.client with shutDown := true, running := false, queue := [] }) rfl rfl rfl rfl
      (List.nil_sublist _)
  | call | turn | place | timeOut | send | answer | message | handle | connect => cases ha

end Stands

end LoraBridge.Transport.Network
