import LoraBridge.Proofs.Backend.Calls

/-! Closing. However many calls close a backend, and however they overlap, the client is asked
to disconnect once. From the first of them on the backend is closed and refuses what is called.
After the request to disconnect nobody asks for a replay but those replays that were told to stop
when they were about to ask, each of them once at most. An operation that was under way succeeds
only where the client accepted its request before it was shut down. -/
namespace LoraBridge.Backend

open Transport (Request)

theorem operation_of_prepare {b : Backend} {op : Operation} {p : Request × Log.Event}
    (h : b.prepare op = .ok p) :
    p.1.operation ≠ .disconnect ∧ p.1.operation ≠ .subscribeMany := by
  obtain ⟨topic, htopic⟩ := rendered_of_prepare h
  have hconn : b.ensureConnected = .ok () := by
    simp [ensureConnected, connected_of_prepare h, ConnectionState.canOperate]
  unfold prepare at h
  rw [hconn] at h
  cases op with
  | subscribe gateway | unsubscribe gateway =>
    simp only [Operation.role, Operation.gateway] at htopic
    simp only [render, htopic] at h
    cases h
    simp [Request.operation]
  | publish role gateway payload =>
    simp only [Operation.role, Operation.gateway] at htopic
    simp only [render, htopic] at h
    cases payload with
    | error e => cases h
    | ok bytes =>
      cases h
      simp [Request.operation]

def Closing.asked : Closing → Bool
  | .none | .marked => false
  | .disconnecting | .ended => true

namespace Actors

variable {s s' : Actors} {topics : Topic.Topics} {options : Options} {acts : List Act}

def requested (s : Actors) (op : Transport.Operation) : List Request :=
  s.requests.filter fun r => r.operation = op

theorem requested_append {r : Request} (h : s'.requests = s.requests ++ [r])
    (op : Transport.Operation) :
    s'.requested op = s.requested op ++ if r.operation = op then [r] else [] := by
  by_cases hr : r.operation = op <;> simp [requested, h, hr]

structure Asked (options : Options) (s : Actors) : Prop where
  config : s.backend.options = options
  calls : ∀ c ∈ s.calls, c.request.operation ≠ .disconnect ∧ c.request.operation ≠ .subscribeMany
  disconnects : s.requested .disconnect =
    if s.closing.asked then [.disconnect options.disconnectGrace] else []
  looked : s.closing.asked = true → s.looked = false

private theorem asked_start (topics : Topic.Topics) (options : Options) :
    (start topics options).Asked options where
  config := rfl
  calls := by simp [start]
  disconnects := rfl
  looked := by simp [start]

theorem forall_mem_set {α : Type} {P : α → Prop} {l : List α} {i : Nat} {a : α}
    (hl : ∀ b ∈ l, P b) (ha : P a) : ∀ b ∈ l.set i a, P b := by
  intro b hb
  rcases List.mem_or_eq_of_mem_set hb with hmem | rfl
  · exact hl b hmem
  · exact ha

theorem asked_step {a : Act} (hs : s.Sound) (h : s.Asked options) (hstep : s.step a = some s') :
    s'.Asked options := by
  obtain ⟨hconfig, hcalls, hdisconnects, hlooked⟩ := h
  have hfirst : s.looked = true → s.closing.asked = false := by
    intro hl
    by_contra hne
    simp [hlooked (by simpa using hne)] at hl
  cases steps_of_step hstep with
  | refused | shut | wasClosed | event | lost | movedUp | halted | received | nothing
  | left | stops | attempted | awakened | faded | vanished =>
    exact ⟨hconfig, hcalls, hdisconnects, hlooked⟩
  | called hp =>
    refine ⟨hconfig, ?_, hdisconnects, hlooked⟩
    simp only [List.forall_mem_append, List.forall_mem_singleton]
    exact ⟨hcalls, operation_of_prepare hp⟩
  | sent hc =>
    have hop := hcalls _ (List.mem_of_getElem? hc)
    refine ⟨hconfig, forall_mem_set hcalls hop, ?_, hlooked⟩
    rw [requested_append rfl]
    simpa [hop] using hdisconnects
  | accepted hc | declined hc =>
    have hop := hcalls _ (List.mem_of_getElem? hc)
    exact ⟨hconfig, forall_mem_set hcalls hop, hdisconnects, hlooked⟩
  | failed | succeeded =>
    refine ⟨hconfig, ?_, hdisconnects, hlooked⟩
    intro c hc
    exact hcalls c (List.mem_of_mem_eraseIdx hc)
  | closes hc =>
    have hnone : s.closing = .none := by
      by_contra hne
      exact hc (hs.state.2 hne)
    refine ⟨hconfig, hcalls, ?_, ?_⟩
    · rw [hnone] at hdisconnects
      exact hdisconnects
    · simp [Closing.asked]
  | disconnects hc =>
    refine ⟨hconfig, hcalls, ?_, fun _ => rfl⟩
    rw [requested_append rfl, hdisconnects]
    simp [hc, Closing.asked, hconfig, Request.operation]
  | closed hc =>
    rw [hc] at hdisconnects hlooked
    exact ⟨hconfig, hcalls, hdisconnects, hlooked⟩
  | connected | idles => exact ⟨hconfig, hcalls, hdisconnects, fun _ => rfl⟩
  | looks hstop =>
    -- Whoever looks before the signal to stop does so before any call closes.
    refine ⟨hconfig, hcalls, hdisconnects, ?_⟩
    have hnone : s.closing = .none := by
      by_contra hne
      simp [hs.stopping.2 hne] at hstop
    simp [hnone, Closing.asked]
  | asked hl =>
    refine ⟨hconfig, hcalls, ?_, fun _ => rfl⟩
    rw [requested_append rfl]
    simpa [Request.operation] using hdisconnects
  | straggled =>
    refine ⟨hconfig, hcalls, ?_, hlooked⟩
    rw [requested_append rfl]
    simpa [Request.operation] using hdisconnects

theorem asked_run (h : (start topics options).run acts = some s) : s.Sound ∧ s.Asked options := by
  refine Runs.invariant (P := fun t => t.Sound ∧ t.Asked options) ?_ h
    ⟨sound_start topics options, asked_start topics options⟩
  intro t a t' _ ht hstep
  exact ⟨sound_step ht.1 hstep, asked_step ht.1 ht.2 hstep⟩

theorem frozen_step {a : Act} (h : s.shutDown = true) (hstep : s.step a = some s') :
    s'.shutDown = true ∧ s'.accepted = s.accepted := by
  cases steps_of_step hstep with
  | accepted _ _ hopen => simp [h] at hopen
  | shut => exact ⟨rfl, rfl⟩
  | refused | called | sent | declined | failed | succeeded | wasClosed | closes | disconnects
  | closed | event | lost | connected | movedUp | halted | received | nothing | left | stops
  | looks | idles | asked | attempted | awakened | straggled | faded | vanished =>
    exact ⟨h, rfl⟩

private theorem frozen_run (h : s.shutDown = true) (hrun : s.run acts = some s') :
    s'.accepted = s.accepted := by
  refine (Runs.invariant (P := fun t => t.shutDown = true ∧ t.accepted = s.accepted) ?_ hrun
    ⟨h, rfl⟩).2
  intro t a t' _ ht hstep
  obtain ⟨hshut, hsame⟩ := frozen_step ht.1 hstep
  exact ⟨hshut, hsame.trans ht.2⟩

/-- A call whose request did not reach the client before it was shut down. -/
structure Late (number : Nat) (s : Actors) : Prop where
  shutDown : s.shutDown = true
  begun : number < s.started
  calls : ∀ c ∈ s.calls, c.number = number →
    c.stage = .prepared ∨ c.stage = .answered (.error .shutdown)
  returned : ∀ r ∈ s.returned, r.number = number → r.result = .error .closed

theorem late_step {number : Nat} {a : Act} (h : s.Late number) (hstep : s.step a = some s') :
    s'.Late number := by
  obtain ⟨hshut, hbegun, hcalls, hreturned⟩ := h
  cases steps_of_step hstep with
  | shut => exact ⟨rfl, hbegun, hcalls, hreturned⟩
  | wasClosed | closes | disconnects | closed | event | lost | connected | movedUp | halted
  | received | nothing | left | stops | looks | idles | asked | attempted | awakened
  | straggled | faded | vanished =>
    exact ⟨hshut, hbegun, hcalls, hreturned⟩
  -- Calls that come later have other numbers.
  | refused =>
    refine ⟨hshut, Nat.lt_succ_of_lt hbegun, hcalls, ?_⟩
    simp only [List.forall_mem_append, List.forall_mem_singleton]
    exact ⟨hreturned, fun heq => absurd heq.symm (Nat.ne_of_lt hbegun)⟩
  | called =>
    refine ⟨hshut, Nat.lt_succ_of_lt hbegun, ?_, hreturned⟩
    simp only [List.forall_mem_append, List.forall_mem_singleton]
    exact ⟨hcalls, fun _ => .inl trivial⟩
  | sent hc =>
    refine ⟨hshut, hbegun, forall_mem_set hcalls ?_, hreturned⟩
    simp [hshut]
  | accepted _ _ hopen => simp [hshut] at hopen
  | declined hc hstage =>
    refine ⟨hshut, hbegun, forall_mem_set hcalls ?_, hreturned⟩
    intro heq
    have := hcalls _ (List.mem_of_getElem? hc) heq
    simp [hstage] at this
  | failed hc hstage =>
    refine ⟨hshut, hbegun, fun c hmem => hcalls c (List.mem_of_mem_eraseIdx hmem), ?_⟩
    simp only [List.forall_mem_append, List.forall_mem_singleton]
    refine ⟨hreturned, fun heq => ?_⟩
    have := hcalls _ (List.mem_of_getElem? hc) heq
    simp only [hstage, reduceCtorEq, false_or, Stage.answered.injEq, Except.error.injEq] at this
    simp [this, Error.ofTransport]
  | succeeded hc hstage =>
    refine ⟨hshut, hbegun, fun c hmem => hcalls c (List.mem_of_mem_eraseIdx hmem), ?_⟩
    simp only [List.forall_mem_append, List.forall_mem_singleton]
    refine ⟨hreturned, fun heq => ?_⟩
    have := hcalls _ (List.mem_of_getElem? hc) heq
    simp [hstage] at this

private theorem late_run {number : Nat} (h : s.Late number) (hrun : s.run acts = some s') :
    s'.Late number :=
  Runs.invariant (fun _ _ _ _ hs => late_step hs) hrun h

theorem late_of_prepared (h : (start topics options).run acts = some s)
    (hshut : s.shutDown = true) {c : Underway} (hc : c ∈ s.calls) (hstage : c.stage = .prepared) :
    s.Late c.number := by
  refine ⟨hshut, number_lt_started h hc, ?_, ?_⟩
  · intro d hd heq
    rw [underway_inj h hd hc heq]
    exact .inl hstage
  · intro r hr heq
    exact absurd heq.symm (not_underway_of_returned h hr c hc)

theorem closing_step {a : Act} (h : s.closing ≠ .none) (hstep : s.step a = some s') :
    s'.closing ≠ .none := by
  cases steps_of_step hstep with
  | closes | disconnects | closed => simp
  | refused | called | sent | accepted | declined | failed | succeeded | shut | wasClosed
  | event | lost | connected | movedUp | halted | received | nothing | left | stops | looks
  | idles | asked | attempted | awakened | straggled | faded | vanished => exact h

theorem closing_ne_none_of_asked (h : s.closing.asked = true) : s.closing ≠ .none := by
  intro hnone
  simp [hnone, Closing.asked] at h

private theorem asked_closing_step {a : Act} (hs : s.Sound) (h : s.closing.asked = true)
    (hstep : s.step a = some s') : s'.closing.asked = true := by
  cases steps_of_step hstep with
  | closes hc => exact absurd (hs.state.2 (closing_ne_none_of_asked h)) hc
  | disconnects | closed => rfl
  | refused | called | sent | accepted | declined | failed | succeeded | shut | wasClosed
  | event | lost | connected | movedUp | halted | received | nothing | left | stops | looks
  | idles | asked | attempted | awakened | straggled | faded | vanished => exact h

def imminent (s : Actors) : Nat :=
  s.stragglers + s.looked.toNat

/-- What a step leaves of the replays that are about to ask. -/
inductive Trails (s s' : Actors) : Prop where
  | quiet (h : s'.requested .subscribeMany = s.requested .subscribeMany)
    (hn : s'.imminent ≤ s.imminent)
  | asks (h : s'.requested .subscribeMany =
      s.requested .subscribeMany ++ [.subscribeMany s.backend.downlinkTopics])
    (hn : s.imminent = s'.imminent + 1) (ht : s.backend.downlinkTopics ≠ [])

/-- Once a backend is closed no other replay gets ready to ask. -/
theorem trails_step {a : Act} (hs : s.Sound) (h : s.Asked options) (hc : s.closing ≠ .none)
    (hstep : s.step a = some s') : s.Trails s' := by
  cases steps_of_step hstep with
  | refused | called | accepted | declined | failed | succeeded | shut | wasClosed | closes
  | closed | event | lost | movedUp | halted | received | nothing | left | stops | attempted
  | awakened => exact .quiet rfl (Nat.le_refl _)
  | sent hc =>
    have hop := h.calls _ (List.mem_of_getElem? hc)
    refine .quiet ?_ (Nat.le_refl _)
    rw [requested_append rfl]
    simp [hop]
  | disconnects =>
    refine .quiet ?_ (Nat.le_refl _)
    rw [requested_append rfl]
    simp [Request.operation]
  | connected => exact .quiet rfl (Nat.le_refl _)
  | looks hstop => simp [hs.stopping.2 hc] at hstop
  | idles => exact .quiet rfl (Nat.le_add_right _ _)
  | asked hl ht => exact .asks (by simp [requested, Request.operation]) (by simp [imminent, hl]) ht
  | straggled hn ht =>
    refine .asks (by simp [requested, Request.operation]) ?_ ht
    simp only [imminent, hn]
    omega
  | faded hn | vanished hn =>
    refine .quiet rfl ?_
    simp only [imminent, hn]
    omega

theorem attempts_run (hs : s.Sound) (h : s.Asked options) (hc : s.closing ≠ .none)
    (hrun : s.run acts = some s') :
    ∃ late, s'.requested .subscribeMany = s.requested .subscribeMany ++ late ∧
      late.length + s'.imminent ≤ s.imminent := by
  refine (Runs.invariant (P := fun t => t.Sound ∧ t.Asked options ∧ t.closing ≠ .none ∧
    ∃ late, t.requested .subscribeMany = s.requested .subscribeMany ++ late ∧
      late.length + t.imminent ≤ s.imminent) ?_ hrun
    ⟨hs, h, hc, [], by simp, by simp⟩).2.2.2
  rintro t a t' - ⟨htsound, htasked, htclosing, late, hlate, hle⟩ hstep
  refine ⟨sound_step htsound hstep, asked_step htsound htasked hstep,
    closing_step htclosing hstep, ?_⟩
  cases trails_step htsound htasked htclosing hstep with
  | quiet h hn => exact ⟨late, h.trans hlate, by omega⟩
  | asks h hn =>
    refine ⟨late ++ [.subscribeMany t.backend.downlinkTopics], ?_, ?_⟩
    · rw [h, hlate, List.append_assoc]
    · rw [List.length_append, List.length_singleton]
      omega

/-- Nothing is asked for by a replay in any run from here on. -/
def Silent (s : Actors) : Prop :=
  ∀ acts s', s.run acts = some s' → s'.requested .subscribeMany = s.requested .subscribeMany

/-- There is a replay that was told to stop and is about to ask, and something to ask for. -/
def CanStraggle (s : Actors) : Prop :=
  0 < s.stragglers ∧ s.backend.downlinkTopics ≠ []

theorem straggle_of_canStraggle (h : s.CanStraggle) : ∃ s', s.step .straggle = some s' ∧
    s'.requested .subscribeMany =
      s.requested .subscribeMany ++ [.subscribeMany s.backend.downlinkTopics] := by
  obtain ⟨n, hn⟩ := Nat.exists_eq_succ_of_ne_zero (Nat.ne_of_gt h.1)
  have hstep : s.step .straggle = some { s with
      stragglers := n
      requests := s.requests ++ [.subscribeMany s.backend.downlinkTopics] } := by
    simp [step, hn, ask_due, h.2]
  exact ⟨_, hstep, by simp [requested, Request.operation]⟩

theorem silent_iff (hs : s.Sound) (h : s.Asked options) (hq : s.closing.asked = true) :
    s.Silent ↔ ∀ acts s', s.run acts = some s' → ¬ s'.CanStraggle := by
  constructor
  · intro hsilent acts t hrun hcan
    obtain ⟨t', hstep, hasked⟩ := straggle_of_canStraggle hcan
    have hlater := hsilent (acts ++ [.straggle]) t'
      (Runs.append_eq_some.2 ⟨t, hrun, by simp [hstep]⟩)
    rw [hasked, hsilent acts t hrun] at hlater
    simp at hlater
  · intro hnone acts t hrun
    -- What is kept along the run is that a run leads there, so that nobody can straggle.
    refine (Runs.invariant (P := fun u => u.Sound ∧ u.Asked options ∧ u.closing.asked = true ∧
      u.requested .subscribeMany = s.requested .subscribeMany ∧ ∃ as, s.run as = some u) ?_ hrun
      ⟨hs, h, hq, rfl, [], rfl⟩).2.2.2.1
    rintro u a u' - ⟨husound, huasked, huclosing, husame, as, has⟩ hstep
    have hrun' := Runs.append_eq_some.2 ⟨u, has, show [a].foldlM step u = some u' by simp [hstep]⟩
    have huclosed : u.closing ≠ .none := closing_ne_none_of_asked huclosing
    refine ⟨sound_step husound hstep, asked_step husound huasked hstep,
      asked_closing_step husound huclosing hstep, ?_, _, hrun'⟩
    cases trails_step husound huasked huclosed hstep with
    | quiet hsame => exact hsame.trans husame
    | asks _ hn ht =>
      have hlooked := huasked.looked huclosing
      refine absurd ⟨?_, ht⟩ (hnone as u has)
      simp only [imminent, hlooked, Bool.toNat_false] at hn
      omega

private theorem closing_of_close (hs : s.Sound) (hstep : s.step .close = some s') :
    s'.closing ≠ .none := by
  cases steps_of_step hstep with
  | wasClosed hc => exact hs.state.1 hc
  | closes => simp

theorem accepted_of_ok (h : (start topics options).run acts = some s) {r : Returned}
    (hr : r ∈ s.returned) (hok : r.result = .ok ()) : (r.number, r.op) ∈ s.accepted := by
  apply (accepted_run h).mem_iff.2
  apply List.mem_append_left
  apply List.mem_filterMap.2
  exact ⟨r, hr, by simp [Returned.updated?, hok]⟩

/-- A request that reaches the client after it was shut down is answered, and its call
returns. -/
theorem finish_of_late (hshut : s.shutDown = true) {i : Nat} {c : Underway}
    (hc : s.calls[i]? = some c) (hstage : c.stage = .prepared) :
    ∃ s', s.run [.send i, .finish i] = some s' ∧
      s'.returned = s.returned ++ [⟨c.number, c.op, .error .closed⟩] := by
  let answered : Underway := { c with stage := .answered (.error .shutdown) }
  have hsend : s.step (.send i) = some { s with
      calls := s.calls.set i answered
      requests := s.requests ++ [c.request] } := by
    simp [step, hc, hstage, hshut, answered]
  have hanswered : (s.calls.set i answered)[i]? = some answered :=
    getElem?_set_of_some hc answered
  rw [run, Runs.cons, hsend, Option.bind_some]
  simp [step, hanswered, answered, complete, Error.ofTransport]

/-- What holds from the first call on that closes. -/
structure ClosedForGood (options : Options) (s : Actors) : Prop where
  state : s.backend.state = .closed
  /-- The first call is about to ask the client to disconnect, or has done so, once. -/
  disconnects : s.requested .disconnect =
    if s.closing = .marked then [] else [.disconnect options.disconnectGrace]
  goesOn : s.closing = .marked → ∃ s', s.step .disconnect = some s'
  again : s.step .close = some s
  refused : ∀ op, s.step (.call op) = some { s with
    started := s.started + 1
    returned := s.returned ++ [⟨s.started, op, .error .closed⟩] }
  /-- Only the replays that are about to ask still do, each of them once at most. -/
  attempts : ∀ acts s', s.run acts = some s' → ∃ late,
    s'.requested .subscribeMany = s.requested .subscribeMany ++ late ∧
      late.length ≤ s.imminent
  silent : s.closing = .disconnecting ∨ s.closing = .ended →
    (s.Silent ↔ ∀ acts s', s.run acts = some s' → ¬ s'.CanStraggle)
  accepted : ∀ r ∈ s.returned, r.result = .ok () → (r.number, r.op) ∈ s.accepted
  frozen : s.shutDown = true → ∀ acts s', s.run acts = some s' → s'.accepted = s.accepted
  late : s.shutDown = true → ∀ i c, s.calls[i]? = some c → c.stage = .prepared →
    (∃ s', s.run [.send i, .finish i] = some s' ∧
      s'.returned = s.returned ++ [⟨c.number, c.op, .error .closed⟩]) ∧
    ∀ acts s', s.run acts = some s' →
      ∀ r ∈ s'.returned, r.number = c.number → r.result = .error .closed
  registry : ∀ a s', s.step a = some s' → s'.backend.registry = s.backend.registry ∨
    ∃ r, r.result = .ok () ∧ s'.returned = s.returned ++ [r] ∧
      s'.backend.registry = System.recorded s.backend.registry (.operation r.op, .ok ())

theorem closedForGood {before after : List Act}
    (h : (start topics options).run (before ++ .close :: after) = some s) :
    s.ClosedForGood options := by
  obtain ⟨hs, ha⟩ := asked_run h
  have hclosing : s.closing ≠ .none := by
    obtain ⟨t, ht, h⟩ := Runs.append_eq_some.1 h
    obtain ⟨u, hu, h⟩ := Option.bind_eq_some_iff.1 h
    have hsound := sound_run (sound_start topics options) ht
    exact Runs.invariant (P := fun t => t.closing ≠ .none) (fun _ _ _ _ hs => closing_step hs) h
      (closing_of_close hsound hu)
  have hstate : s.backend.state = .closed := hs.state.2 hclosing
  have hasked : s.closing = .disconnecting ∨ s.closing = .ended → s.closing.asked = true := by
    rintro (hc | hc) <;> simp [hc, Closing.asked]
  refine ⟨hstate, ?_, ?_, ?_, ?_, ?_, ?_, ?_, ?_, ?_, ?_⟩
  · rw [ha.disconnects]
    cases hc : s.closing with
    | none => exact absurd hc hclosing
    | marked | disconnecting | ended => simp [Closing.asked]
  · intro hc
    simp [step, hc]
  · simp [step, hstate]
  · intro op
    have hclosed : s.backend.prepare op = .error .closed := by
      unfold prepare ensureConnected
      rw [hstate]
      rfl
    simp [step, hclosed]
  · intro acts s' hrun
    obtain ⟨late, hlate, hle⟩ := attempts_run hs ha hclosing hrun
    exact ⟨late, hlate, Nat.le_of_add_right_le hle⟩
  · intro hc
    exact silent_iff hs ha (hasked hc)
  · intro r hr hok
    exact accepted_of_ok h hr hok
  · intro hshut acts s' hrun
    exact frozen_run hshut hrun
  · intro hshut i c hc hstage
    refine ⟨finish_of_late hshut hc hstage, fun acts s' hrun => ?_⟩
    exact (late_run (late_of_prepared h hshut (List.mem_of_getElem? hc) hstage) hrun).returned
  · intro a s' hstep
    rcases registry_step hstep with ⟨hreg, -⟩ | ⟨r, hr, hret, hreg⟩
    · exact .inl hreg
    · exact .inr ⟨r, hr, hret, hreg⟩

def busyBackend : List Act :=
  [.event (.connected false), .resume, .call (.subscribe (.ofWord 1)), .send 0, .accept 0,
    .finish 0, .call (.subscribe (.ofWord 2)), .call (.unsubscribe (.ofWord 1)),
    .event (.connectionLost "reset"), .resume, .event (.connected false)]

def overlappingClose : List Act :=
  [.send 0, .resume, .close, .look, .accept 0, .disconnect, .shutDown, .send 1, .finish 1,
    .finish 0, .closed (.ok ()), .call (.subscribe (.ofWord 3))]

/-- Two calls close a backend while a connection is being handled and two operations are
under way: the request of one is accepted in time, and that of the other comes too late. The
replay of the connection has not looked when it is told to stop, and asks for nothing. -/
theorem closedForGood_overlapping : ∃ s,
    (start System.sampleTopics .default).run (busyBackend ++ .close :: overlappingClose) =
      some s ∧
    s.closing = .ended ∧ s.requested .disconnect = [.disconnect (.ofMillis 250)] ∧
    s.backend.registry.gateways = [.ofWord 1, .ofWord 2] ∧ s.ClosedForGood .default ∧
    ∀ acts s', s.run acts = some s' → s'.requested .subscribeMany = [] := by
  obtain ⟨s, hrun, hended, hdisconnects, hreplays, hreg, hnone⟩ : ∃ s,
      (start System.sampleTopics .default).run (busyBackend ++ .close :: overlappingClose) =
        some s ∧
      s.closing = .ended ∧ s.requested .disconnect = [.disconnect (.ofMillis 250)] ∧
      s.requested .subscribeMany = [] ∧
      s.backend.registry.gateways = [.ofWord 1, .ofWord 2] ∧ s.imminent = 0 :=
    ⟨_, rfl, rfl, rfl, rfl, by decide, rfl⟩
  have hclosed := closedForGood hrun
  refine ⟨s, hrun, hended, hdisconnects, hreg, hclosed, fun acts s' hlater => ?_⟩
  obtain ⟨late, hlate, hle⟩ := hclosed.attempts acts s' hlater
  rw [hnone, Nat.le_zero, List.length_eq_zero_iff] at hle
  rw [hlate, hreplays, hle]
  rfl

/-- A call closes a backend whose replay has looked at the signal to stop, and goes on to ask
when the call has returned. -/
theorem not_silent_after_close : ∃ s s',
    (start System.sampleTopics .default).run
      (([.event (.connected false), .resume, .call (.subscribe (.ofWord 1)), .send 0, .accept 0,
        .finish 0, .event (.connectionLost "reset"), .resume, .event (.connected false), .resume,
        .look] : List Act) ++ (.close :: [.disconnect, .shutDown, .closed (.ok ())] : List Act)) =
      some s ∧
    s.closing = .ended ∧ s.requested .disconnect = [.disconnect (.ofMillis 250)] ∧
    s.requested .subscribeMany = [] ∧ s.step .straggle = some s' ∧
    s'.requested .subscribeMany =
      [.subscribeMany [("gateway/0000000000000001/tx", .atMostOnce)]] ∧ ¬ s.Silent := by
  obtain ⟨s, s', hrun, hended, hdisconnects, hnone, hstep, hone⟩ : ∃ s s',
      (start System.sampleTopics .default).run
        (([.event (.connected false), .resume, .call (.subscribe (.ofWord 1)), .send 0, .accept 0,
          .finish 0, .event (.connectionLost "reset"), .resume, .event (.connected false), .resume,
          .look] : List Act) ++ (.close :: [.disconnect, .shutDown, .closed (.ok ())] : List Act)) =
        some s ∧
      s.closing = .ended ∧ s.requested .disconnect = [.disconnect (.ofMillis 250)] ∧
      s.requested .subscribeMany = [] ∧ s.step .straggle = some s' ∧
      s'.requested .subscribeMany =
        [.subscribeMany [("gateway/0000000000000001/tx", .atMostOnce)]] :=
    ⟨_, _, rfl, rfl, rfl, rfl, rfl, by decide⟩
  refine ⟨s, s', hrun, hended, hdisconnects, hnone, hstep, hone, fun hsilent => ?_⟩
  have hlater := hsilent [.straggle] s' (by simp [run, hstep])
  simp [hone, hnone] at hlater

end Actors

end LoraBridge.Backend
