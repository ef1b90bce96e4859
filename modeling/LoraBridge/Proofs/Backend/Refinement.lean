import LoraBridge.Proofs.Backend.Shutdown

/-! The coarse steps of a backend as runs of its actors. Where a call waits for nothing but its
answer, the receiver leaves no room that a waiting frame does not take, and a replay that is told
to stop is gone at once, the actors come to the same backend, ask for the same replays and return
the same results. -/
namespace LoraBridge.Backend

open Transport (Answer)

/-- A frame waits while the dispatcher does, and then there is no room. -/
structure Lined (b : Backend) : Prop where
  capacity : 0 < b.downlinks.capacity
  room : b.downlinks.buffer.length ≤ b.downlinks.capacity
  full : b.downlinks.waiting ≠ [] → b.downlinks.buffer.length = b.downlinks.capacity
  delivering : b.dispatcher = .delivering → ∃ d, b.downlinks.waiting = [d]
  others : b.dispatcher ≠ .delivering → b.downlinks.waiting = []

variable {b b' : Backend}

private theorem lined_start (topics : Topic.Topics) (options : Options) :
    (Backend.start topics options).1.Lined where
  capacity := Nat.lt_of_lt_of_le Nat.zero_lt_one (Nat.le_max_left 1 options.downlinkBuffer)
  room := Nat.zero_le _
  full := absurd rfl
  delivering h := by cases h
  others _ := rfl

theorem Lined.frame (h : b.Lined) (hd : b'.dispatcher = b.dispatcher)
    (hc : b'.downlinks = b.downlinks) : b'.Lined := by
  constructor <;> simp only [hd, hc]
  exacts [h.capacity, h.room, h.full, h.delivering, h.others]

theorem Lined.turn (h : b.Lined) (hw : b.downlinks.waiting = [])
    (hd : b'.dispatcher ≠ .delivering) (hc : b'.downlinks = b.downlinks) : b'.Lined := by
  constructor <;> simp only [hc]
  exacts [h.capacity, h.room, h.full, fun he => absurd he hd, fun _ => hw]

theorem Lined.deliver (h : b.Lined) (hd : b.dispatcher = .idle) {d : Downlink.Delivery}
    {o : Downlink.Outcome} {c : Downlink.Channel} (ho : b.downlinks.deliver d = (o, c)) :
    { b with
      downlinks := c
      dispatcher := if o = Downlink.Outcome.waiting then .delivering else b.dispatcher }.Lined := by
  have hw : b.downlinks.waiting = [] := h.others (by simp [hd])
  unfold Downlink.Channel.deliver at ho
  split at ho
  · cases ho
    exact h.turn hw (by simp [hd]) rfl
  · split at ho
    · next hroom =>
      cases ho
      have hlt : b.downlinks.buffer.length < b.downlinks.capacity := by
        simpa [hw] using hroom
      exact ⟨h.capacity, by simpa [Nat.succ_le_iff] using hlt, absurd hw, by simp [hd], fun _ => hw⟩
    · next hfull =>
      cases ho
      have hle : b.downlinks.capacity ≤ b.downlinks.buffer.length := by
        simpa [hw] using hfull
      exact ⟨h.capacity, h.room, fun _ => Nat.le_antisymm h.room hle, fun _ => ⟨d, by simp [hw]⟩,
        by simp⟩

theorem Lined.takeEvent (h : b.Lined) (hd : b.dispatcher = .idle) (ticket : Nat)
    (e : Transport.Event) : (b.takeEvent ticket e).1.Lined := by
  have hw : b.downlinks.waiting = [] := h.others (by simp [hd])
  cases e with
  | connected sessionPresent =>
    simp only [Backend.takeEvent]
    split
    · exact h.turn hw (by simp) rfl
    · exact h.turn hw (by simp [transition, hd]) rfl
  | connectionLost reason => exact h.turn hw (by simp [Backend.takeEvent]) rfl
  | message topic payload =>
    simp only [Backend.takeEvent]
    split
    · exact h
    · next frame hp =>
      split
      all_goals
        next hout => simpa [hd] using h.deliver hd hout

theorem Lined.finishEvent (h : b.Lined) (hd : b.dispatcher = .losing ∨ b.dispatcher = .replaying) :
    b.finishEvent.1.Lined := by
  have hw : b.downlinks.waiting = [] := h.others (by rcases hd with hd | hd <;> simp [hd])
  rcases hd with hd | hd <;> simp only [Backend.finishEvent, hd] <;> exact h.turn hw (by simp) rfl

theorem Lined.dropReceiver (h : b.Lined) : b.dropReceiver.1.Lined where
  capacity := h.capacity
  room := Nat.zero_le _
  full := absurd rfl
  delivering hd := by
    simp only [Backend.dropReceiver] at hd
    split at hd
    · cases hd
    · next hne => exact absurd hd hne
  others _ := rfl

theorem Lined.receive_cases (h : b.Lined) :
    (b.receive.2 = { b with downlinks := b.downlinks.pull.2 } ∧ b.receive.2.Lined) ∨
    (b.dispatcher = .delivering ∧
      b.downlinks.pull.2.buffer.length < b.downlinks.pull.2.capacity ∧
      b.receive.2 = { b with downlinks := b.downlinks.pull.2.moveUp, dispatcher := .idle } ∧
      b.receive.2.Lined) := by
  have hroom := h.room
  cases hbuffer : b.downlinks.buffer with
  | nil =>
    have hw : b.downlinks.waiting = [] := by
      by_contra hne
      have := h.full hne
      have := h.capacity
      simp [hbuffer] at *
      omega
    have hd : b.dispatcher ≠ .delivering := by
      intro he
      obtain ⟨d, hd⟩ := h.delivering he
      simp [hw] at hd
    have heq : b.receive.2 = b := by
      simp [receive, Downlink.Channel.receive, hbuffer, hd]
    rw [heq]
    exact .inl ⟨by simp [Downlink.Channel.pull, hbuffer], h⟩
  | cons f rest =>
    rw [hbuffer, List.length_cons, Nat.succ_le_iff] at hroom
    by_cases hd : b.dispatcher = .delivering
    · obtain ⟨d, hw⟩ := h.delivering hd
      have heq : b.receive.2 = { b with
          downlinks := { b.downlinks with buffer := rest ++ [d.frame], waiting := [] }
          dispatcher := .idle } := by
        simp [receive, Downlink.Channel.receive, hbuffer, hw, hd]
      refine .inr ⟨hd, ?_, ?_, ?_⟩
      · simpa [Downlink.Channel.pull, hbuffer] using hroom
      · simp [heq, Downlink.Channel.pull, Downlink.Channel.moveUp, hbuffer, hw]
      · rw [heq]
        exact ⟨h.capacity, by simpa [Nat.succ_le_iff] using hroom, absurd rfl, by simp, fun _ => rfl⟩
    · have hw := h.others hd
      have heq : b.receive.2 = { b with downlinks := { b.downlinks with buffer := rest } } := by
        simp [receive, Downlink.Channel.receive, hbuffer, hw, hd]
      refine .inl ⟨by simp [heq, Downlink.Channel.pull, hbuffer], ?_⟩
      rw [heq]
      exact ⟨h.capacity, Nat.le_of_lt hroom, absurd hw, fun he => absurd he hd, fun _ => hw⟩

namespace Actors

variable {a : Actors} {i : Nat} {c : Underway}

theorem step_refuse (h : a.calls[i]? = some c) (hc : c.stage = .sent) {e : Transport.Error} :
    a.step (.refuse i e) = some { a with
      calls := a.calls.set i { c with stage := .answered (.error e) } } := by
  simp [step, h, hc]

theorem step_accept (h : a.calls[i]? = some c) (hc : c.stage = .sent) (hs : a.shutDown = false) :
    a.step (.accept i) = some { a with
      calls := a.calls.set i { c with stage := .answered (.ok ()) }
      accepted := a.accepted ++ [(c.number, c.op)] } := by
  simp [step, h, hc, hs]

private theorem step_finish_error (h : a.calls[i]? = some c) {e : Transport.Error}
    (hc : c.stage = .answered (.error e)) : a.step (.finish i) = some { a with
      calls := a.calls.eraseIdx i
      returned := a.returned ++ [⟨c.number, c.op, .error (.ofTransport e)⟩] } := by
  simp [step, h, hc, complete]

private theorem step_finish_ok (h : a.calls[i]? = some c) (hc : c.stage = .answered (.ok ())) :
    a.step (.finish i) = some { a with
      backend := { a.backend with
        registry := System.recorded a.backend.registry (.operation c.op, .ok ()) }
      calls := a.calls.eraseIdx i
      returned := a.returned ++ [⟨c.number, c.op, .ok ()⟩] } := by
  simp [step, h, hc, complete_ok]

theorem run_ask {n : Nat} (h : a.backend.replay = .due n) (hs : a.backend.stopping = false)
    (hl : a.looked = false) : a.run [.look, .ask] = some { a with
      backend := a.backend.ask.1
      looked := false
      requests := a.requests ++ a.backend.ask.2.toList } := by
  have hlook : a.step .look = some { a with looked := true } := by
    simp [step, h, hs, hl]
  exact Runs.two hlook rfl

end Actors

private theorem ask_of_topics {n : Nat} (h : b.replay = .due n) (ht : b.downlinkTopics ≠ []) :
    b.ask = ({ b with replay := .asking (n + 1) b.downlinkTopics.length },
      some (.subscribeMany b.downlinkTopics)) := by
  simp [ask, h, ht]

def Call.operation? : Call → Option Operation
  | .operation op => some op
  | .close => none

namespace System

open Actors (requested_append)

def results (s : System) : List (Operation × Except Error Unit) :=
  s.returned.filterMap fun p => p.1.operation?.map fun op => (op, p.2)

/-- Actors that stand where the coarse steps lead. -/
structure Matches (s : System) (a : Actors) : Prop where
  backend : a.backend = s.backend
  taken : a.handled.length = s.taken
  pending : a.calls.map (·.op) = s.pending
  sent : ∀ c ∈ a.calls, c.stage = .sent
  results : a.returned.map (fun r => (r.op, r.result)) = s.results
  attempts : a.requested .subscribeMany = s.attempts.filterMap (·.request)
  closing : s.closing = true → a.closing = .disconnecting
  looked : a.looked = false
  stragglers : a.stragglers = 0
  isOpen : a.shutDown = false
  lined : s.backend.Lined

variable {s s' : System} {a : Actors} {topics : Topic.Topics} {options : Options}

private theorem matches_start : (start topics options).Matches (Actors.start topics options) :=
  ⟨rfl, rfl, rfl, by simp [Actors.start], rfl, rfl, by simp [start], rfl, rfl, rfl,
    lined_start topics options⟩

theorem matches_call {op : Operation} (h : s.Matches a) (hstep : s.step (.call op) = some s') :
    ∃ as a', a.run as = some a' ∧ s'.Matches a' := by
  cases steps_of_step hstep with
  | @refused _ e he =>
    have hcall : a.step (.call op) = some { a with
        started := a.started + 1
        returned := a.returned ++ [⟨a.started, op, .error e⟩] } := by
      simp [Actors.step, h.backend, he]
    refine ⟨[.call op], _, Runs.one hcall, ?_⟩
    refine { h with results := ?_ }
    simp [results, Call.operation?, h.results]
  | @called _ p hp =>
    have hcall : a.step (.call op) = some { a with
        started := a.started + 1
        calls := a.calls ++ [⟨a.started, op, p.1, .prepared⟩] } := by
      simp [Actors.step, h.backend, hp]
    have hsend : ({ a with
        started := a.started + 1
        calls := a.calls ++ [⟨a.started, op, p.1, .prepared⟩] } : Actors).step
          (.send a.calls.length) = some { a with
        started := a.started + 1
        calls := a.calls ++ [⟨a.started, op, p.1, .sent⟩]
        requests := a.requests ++ [p.1] } := by
      simp [Actors.step, h.isOpen]
    refine ⟨[.call op, .send a.calls.length], _, Runs.two hcall hsend, ?_⟩
    refine { h with pending := ?_, sent := ?_, attempts := ?_ }
    · simp [h.pending]
    · simp only [List.forall_mem_append, List.forall_mem_singleton, and_true]
      exact h.sent
    · rw [requested_append rfl, if_neg (operation_of_prepare hp).2, List.append_nil]
      exact h.attempts

theorem matches_answer {i : Nat} {answer : Answer} (h : s.Matches a)
    (hstep : s.step (.answer i answer) = some s') :
    ∃ as a', a.run as = some a' ∧ s'.Matches a' := by
  have hcall : ∀ op, s.pending[i]? = some op → ∃ c, a.calls[i]? = some c ∧ c.op = op := by
    intro op hop
    rw [← h.pending, List.getElem?_map] at hop
    exact Option.map_eq_some_iff.1 hop
  have hrest : ∀ c ∈ a.calls.eraseIdx i, c.stage = .sent :=
    fun c hc => h.sent c (List.mem_of_mem_eraseIdx hc)
  cases steps_of_step hstep with
  | @failed _ op e hop =>
    obtain ⟨c, hc, rfl⟩ := hcall op hop
    have hstage := h.sent c (List.mem_of_getElem? hc)
    have hset := getElem?_set_of_some hc { c with stage := .answered (.error e) }
    refine ⟨[.refuse i e, .finish i], _,
      Runs.two (Actors.step_refuse hc hstage) (Actors.step_finish_error hset rfl), ?_⟩
    refine { h with pending := ?_, sent := ?_, results := ?_ }
    · simp [h.pending, ← List.eraseIdx_map, List.eraseIdx_set_eq]
    · simpa [List.eraseIdx_set_eq] using hrest
    · simp [results, Call.operation?, h.results]
  | @succeeded _ op hop =>
    obtain ⟨c, hc, rfl⟩ := hcall op hop
    have hstage := h.sent c (List.mem_of_getElem? hc)
    have hset := getElem?_set_of_some hc { c with stage := .answered (.ok ()) }
    refine ⟨[.accept i, .finish i], _,
      Runs.two (Actors.step_accept hc hstage h.isOpen) (Actors.step_finish_ok hset rfl), ?_⟩
    refine { h with
      backend := ?_, pending := ?_, sent := ?_, results := ?_, lined := h.lined.frame rfl rfl }
    · simp [h.backend]
    · simp [h.pending, ← List.eraseIdx_map, List.eraseIdx_set_eq]
    · simpa [List.eraseIdx_set_eq] using hrest
    · simp [results, Call.operation?, h.results]

theorem matches_close (h : s.Matches a) (hstep : s.step .close = some s') :
    ∃ as a', a.run as = some a' ∧ s'.Matches a' := by
  cases steps_of_step hstep with
  | wasClosed hc =>
    have hclose : a.step .close = some a := by
      simp [Actors.step, h.backend, hc]
    refine ⟨[.close], a, Runs.one hclose, { h with results := ?_ }⟩
    simp [results, Call.operation?, h.results]
  | closes hc =>
    have hclose : a.step .close = some { a with
        backend := a.backend.markClosed, closing := .marked } := by
      simp [Actors.step, h.backend, hc]
    refine ⟨[.close, .disconnect], _, Runs.two hclose rfl, { h with
      backend := ?_, attempts := ?_, closing := fun _ => rfl, looked := rfl, stragglers := ?_,
      lined := h.lined.frame rfl rfl }⟩
    · simp [h.backend, markClosed, stopReplay]
    · rw [requested_append rfl, if_neg (by simp [Transport.Request.operation]), List.append_nil]
      exact h.attempts
    · simp [h.stragglers, h.looked]

theorem matches_closed {answer : Answer} (h : s.Matches a)
    (hstep : s.step (.closed answer) = some s') :
    ∃ as a', a.run as = some a' ∧ s'.Matches a' := by
  cases steps_of_step hstep with
  | closed hc =>
    have hclosed : a.step (.closed answer) = some { a with
        backend := a.backend.stopDispatcher, closing := .ended } := by
      simp [Actors.step, h.closing hc, finishClose]
    refine ⟨[.closed answer], _, Runs.one hclosed, { h with
      backend := ?_, results := ?_, closing := by simp, lined := ?_ }⟩
    · rw [h.backend]
    · simp [results, Call.operation?, h.results]
    · exact ⟨h.lined.capacity, h.lined.room, absurd rfl, by simp [stopDispatcher], fun _ => rfl⟩

theorem matches_event {e : Transport.Event} (h : s.Matches a)
    (hstep : s.step (.event e) = some s') : ∃ as a', a.run as = some a' ∧ s'.Matches a' := by
  simp only [step] at hstep
  split at hstep
  · next hd =>
    cases hstep
    have hevent : a.step (.event e) = some { a with
        backend := (a.backend.takeEvent a.handled.length e).1
        handled := a.handled ++ [e] } := by
      simp [Actors.step, h.backend, hd]
    refine ⟨[.event e], _, Runs.one hevent, { h with
      backend := ?_, taken := ?_, lined := h.lined.takeEvent hd _ _ }⟩
    · rw [h.backend, h.taken]
    · simp [h.taken]
  · cases hstep

theorem matches_resume (h : s.Matches a) (hstep : s.step .resume = some s') :
    ∃ as a', a.run as = some a' ∧ s'.Matches a' := by
  simp only [step] at hstep
  split at hstep
  · next hd =>
    cases hstep
    have hresume : a.step .resume = some { a with backend := a.backend.finishEvent.1 } := by
      simp [Actors.step, h.backend, hd]
    refine ⟨[.resume], _, Runs.one hresume, { h with
      backend := ?_, lined := h.lined.finishEvent (.inl hd) }⟩
    rw [h.backend]
  · next hd =>
    cases hstep
    have hresume : a.step .resume = some { a with backend := a.backend.finishEvent.1 } := by
      simp [Actors.step, h.backend, hd, ← h.looked, h.stragglers]
    refine ⟨[.resume], _, Runs.one hresume, { h with
      backend := ?_, lined := h.lined.finishEvent (.inr hd) }⟩
    rw [h.backend]
  all_goals cases hstep

theorem matches_receive (h : s.Matches a) (hstep : s.step .receive = some s') :
    ∃ as a', a.run as = some a' ∧ s'.Matches a' := by
  cases hstep
  have hreceive : ∃ received, a.step .receive = some { a with
      backend := { s.backend with downlinks := s.backend.downlinks.pull.2 }, received } := by
    rw [← h.backend]
    exact ⟨_, rfl⟩
  obtain ⟨received, hreceive⟩ := hreceive
  rcases h.lined.receive_cases with ⟨heq, hlined⟩ | ⟨hd, hroom, heq, hlined⟩
  · refine ⟨[.receive], _, Runs.one hreceive, { h with backend := heq.symm, lined := hlined }⟩
  · refine ⟨[.receive, .moveUp], { a with backend := s.backend.receive.2, received },
      Runs.two hreceive ?_, { h with backend := rfl, lined := hlined }⟩
    simp [Actors.step, hd, hroom, heq]

theorem Matches.asked {n : Nat} {answer : Option Answer} (h : s.Matches a)
    (hr : s.backend.replay = .due n) (hs : s.backend.stopping = false)
    (ht : s.backend.downlinkTopics ≠ []) : ∃ a', a.run [.look, .ask] = some a' ∧
      ({ s with
        backend := { s.backend with replay := .asking (n + 1) s.backend.downlinkTopics.length }
        attempts := s.attempts ++ [⟨s.now, n + 1, s.backend.registry,
          some (.subscribeMany s.backend.downlinkTopics), answer⟩] } : System).Matches a' := by
  rw [← h.backend] at hr hs ht ⊢
  refine ⟨_, Actors.run_ask hr hs h.looked, { h with
    backend := ?_, attempts := ?_, looked := rfl, lined := ?_ }⟩
  · rw [ask_of_topics hr ht]
  · rw [ask_of_topics hr ht, requested_append rfl]
    simp [Transport.Request.operation, h.attempts]
  · rw [h.backend]
    exact h.lined.frame rfl rfl

theorem Matches.attempted (h : s.Matches a) {n topics : Nat}
    (hr : s.backend.replay = .asking n topics) (answer : Answer) :
    ∃ a', a.run [.attempted s.now answer] = some a' ∧
      ({ s with backend := (s.backend.attempted s.now answer).1 } : System).Matches a' := by
  have hstep : a.step (.attempted s.now answer) = some { a with
      backend := (s.backend.attempted s.now answer).1 } := by
    simp [Actors.step, h.backend, hr]
  refine ⟨_, Runs.one hstep, { h with backend := rfl, lined := ?_ }⟩
  cases answer with
  | ok u =>
    rw [attempted_ok hr]
    exact h.lined.frame rfl rfl
  | error e =>
    rw [attempted_error hr]
    exact h.lined.frame rfl rfl

theorem matches_attempt {answer : Option Answer} (h : s.Matches a)
    (hstep : s.step (.attempt answer) = some s') :
    ∃ as a', a.run as = some a' ∧ s'.Matches a' := by
  cases steps_of_step hstep with
  | @nothing _ n hr ht =>
    have hreplay : a.backend.replay = .due n := by rw [h.backend, hr]
    cases hs : s.backend.stopping with
    | true =>
      have hlook : a.step .look = some { a with backend := a.backend.stopReplay } := by
        simp [Actors.step, h.looked, h.backend, hr, hs]
      refine ⟨[.look], _, Runs.one hlook, { h with
        backend := ?_, attempts := h.attempts.trans (by simp), lined := h.lined.frame rfl rfl }⟩
      rw [h.backend, stopReplay]
    | false =>
      have hnone : a.backend.ask = (a.backend.stopReplay, none) := by
        rw [h.backend]
        simp [ask, hr, ht.resolve_left (by simp [hs])]
      refine ⟨[.look, .ask], _, Actors.run_ask hreplay (by rw [h.backend, hs]) h.looked, { h with
        backend := ?_, attempts := ?_, looked := rfl, lined := h.lined.frame rfl rfl }⟩
      · rw [hnone, h.backend, stopReplay]
      · rw [hnone, Option.toList_none, List.append_nil]
        exact h.attempts.trans (by simp)
  | asked hr hs ht =>
    obtain ⟨a', hrun, h'⟩ := h.asked hr hs ht
    exact ⟨_, a', hrun, h'⟩
  | accepted hr hs ht =>
    obtain ⟨a', hrun, h'⟩ := h.asked hr hs ht
    obtain ⟨a'', hrun', h''⟩ := h'.attempted rfl (.ok ())
    exact ⟨_, a'', Runs.append_eq_some.2 ⟨a', hrun, hrun'⟩, h''⟩
  | @rejected n e hr hs ht =>
    obtain ⟨a', hrun, h'⟩ := h.asked hr hs ht
    obtain ⟨a'', hrun', h''⟩ := h'.attempted rfl (.error e)
    refine ⟨_, a'', Runs.append_eq_some.2 ⟨a', hrun, hrun'⟩, ?_⟩
    rw [attempted_error rfl] at h''
    simpa [hs] using h''

theorem matches_step {act : Act} (h : s.Matches a) (hstep : s.step act = some s') :
    ∃ as a', a.run as = some a' ∧ s'.Matches a' := by
  cases act with
  | call op => exact matches_call h hstep
  | answer i answer => exact matches_answer h hstep
  | close => exact matches_close h hstep
  | closed answer => exact matches_closed h hstep
  | event e => exact matches_event h hstep
  | resume => exact matches_resume h hstep
  | receive => exact matches_receive h hstep
  | dropReceiver =>
    cases hstep
    have hdrop : a.step .dropReceiver = some { a with backend := s.backend.dropReceiver.1 } := by
      simp [Actors.step, h.backend]
    exact ⟨_, _, Runs.one hdrop, { h with backend := rfl, lined := h.lined.dropReceiver }⟩
  | attempt answer => exact matches_attempt h hstep
  | attempted answer =>
    simp only [step] at hstep
    split at hstep
    · next hr =>
      cases hstep
      obtain ⟨a', hrun, h'⟩ := h.attempted hr answer
      exact ⟨_, a', hrun, h'⟩
    all_goals cases hstep
  | awaken =>
    cases steps_of_step hstep with
    | awakened hr =>
      have hawaken : a.step .awaken = some { a with backend := a.backend.awaken } := by
        simp [Actors.step, h.backend, hr]
      refine ⟨_, _, Runs.one hawaken, { h with backend := ?_, lined := h.lined.frame rfl rfl }⟩
      rw [h.backend, awaken_sleeping hr]
  | pass millis =>
    cases steps_of_step hstep with
    | passed => exact ⟨[], a, rfl, { h with }⟩

/-- Every run of coarse steps is one of the actors, in which no replay straggles. -/
theorem refines {acts : List Act} (h : (start topics options).run acts = some s) :
    ∃ as a, (Actors.start topics options).run as = some a ∧ s.Matches a :=
  Runs.simulates (fun _ _ _ _ => matches_step) h matches_start

end System

end LoraBridge.Backend
