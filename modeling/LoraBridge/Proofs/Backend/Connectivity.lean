import LoraBridge.Proofs.Backend.Calls

/-! The state of a backend and the events of its transport. Until a backend is closed the
events that tell of the link decide its state, and nothing that its callers, the replay or the
receiver do in between changes it. An operation that is called in another state than connected
is told that state, and never reaches the client. -/
namespace LoraBridge

open Transport (Event)

def Transport.Event.ofLink : Event → Bool
  | .connected _ | .connectionLost _ => true
  | .message .. => false

namespace ConnectionState

/-- The state that a history of events leads to. -/
structure Follows (es : List Event) (c : ConnectionState) : Prop where
  connecting : (∀ e ∈ es, e.ofLink = false) → c = .connecting
  connected : ∀ session,
    (es.filter Event.ofLink).getLast? = some (.connected session) → c = .connected
  reconnecting : ∀ reason, (es.filter Event.ofLink).getLast? = some (.connectionLost reason) →
    (∃ e ∈ es, e.isConnected = true) → c = .reconnecting
  disconnected : (∃ reason, .connectionLost reason ∈ es) →
    (∀ e ∈ es, e.isConnected = false) → c = .disconnected

variable {es : List Event} {c : ConnectionState}

private theorem follows_nil : Follows [] .connecting := by
  constructor <;> simp

theorem Follows.message (h : Follows es c) (topic : String) (payload : List UInt8) :
    Follows (es ++ [.message topic payload]) c := by
  have hfilter : (es ++ [Event.message topic payload]).filter Event.ofLink =
      es.filter Event.ofLink := by
    simp [Event.ofLink]
  constructor
  · intro hnone
    exact h.connecting fun e he => hnone e (List.mem_append_left _ he)
  · rw [hfilter]
    exact h.connected
  · rw [hfilter]
    rintro reason hlast ⟨e, he, hcon⟩
    rcases List.mem_append.1 he with he | he
    · exact h.reconnecting reason hlast ⟨e, he, hcon⟩
    · rw [List.mem_singleton.1 he] at hcon
      cases hcon
  · rintro ⟨reason, hmem⟩ hnone
    refine h.disconnected ⟨reason, by simpa using hmem⟩ ?_
    exact fun e he => hnone e (List.mem_append_left _ he)

theorem getLast?_filter_append {e : Event} (h : e.ofLink = true) (es : List Event) :
    ((es ++ [e]).filter Event.ofLink).getLast? = some e := by
  simp [h]

theorem follows_connected (es : List Event) (session : Bool) :
    Follows (es ++ [.connected session]) .connected := by
  have hlast := getLast?_filter_append (e := .connected session) rfl es
  have hmem : Event.connected session ∈ es ++ [.connected session] := by simp
  constructor
  · intro hnone
    cases hnone _ hmem
  · exact fun _ _ => rfl
  · rw [hlast]
    exact fun _ heq => nomatch heq
  · intro _ hnone
    cases hnone _ hmem

theorem Follows.of_connected (h : Follows es c) (hc : ∃ e ∈ es, e.isConnected = true) :
    c = .connected ∨ c = .reconnecting := by
  cases hlast : (es.filter Event.ofLink).getLast? with
  | none =>
    obtain ⟨e, he, hcon⟩ := hc
    have hnot := List.filter_eq_nil_iff.1 (List.getLast?_eq_none_iff.1 hlast) e he
    cases e with
    | connected session => exact absurd rfl hnot
    | connectionLost reason | message topic payload => cases hcon
  | some e =>
    cases e with
    | connected session => exact .inl (h.connected session hlast)
    | connectionLost reason => exact .inr (h.reconnecting reason hlast hc)
    | message topic payload => cases (List.mem_filter.1 (List.mem_of_getLast? hlast)).2

theorem Follows.of_not_connected (h : Follows es c) (hc : ∀ e ∈ es, e.isConnected = false) :
    c = .connecting ∨ c = .disconnected := by
  by_cases hlost : ∃ reason, .connectionLost reason ∈ es
  · exact .inr (h.disconnected hlost hc)
  · left
    apply h.connecting
    intro e he
    cases e with
    | connected session => cases hc _ he
    | connectionLost reason => exact absurd ⟨reason, he⟩ hlost
    | message topic payload => rfl

theorem Follows.lost (h : Follows es c) (reason : String) :
    Follows (es ++ [.connectionLost reason]) (c.next .connectionLost) := by
  have hlast := getLast?_filter_append (e := .connectionLost reason) rfl es
  constructor
  · intro hnone
    cases hnone (.connectionLost reason) (by simp)
  · rw [hlast]
    exact fun _ heq => nomatch heq
  · rintro _ _ ⟨e, he, hcon⟩
    rcases List.mem_append.1 he with he | he
    · rcases h.of_connected ⟨e, he, hcon⟩ with rfl | rfl <;> rfl
    · rw [List.mem_singleton.1 he] at hcon
      cases hcon
  · intro _ hnone
    have hbefore := h.of_not_connected fun e he => hnone e (List.mem_append_left _ he)
    rcases hbefore with rfl | rfl <;> rfl

def reached : ConnectionState → Bool
  | .connected | .reconnecting | .closed => true
  | .disconnected | .connecting => false

theorem reached_next (h : c.reached = true) (e : LifecycleEvent) : (c.next e).reached = true := by
  cases c <;> cases e <;> first | rfl | cases h

end ConnectionState

namespace Backend

variable {b : Backend} {es : List Event}

/-- The state of a backend follows the events it took up; where the last of them is a loss
whose reason was only stored, it follows those before it. -/
structure Informed (es : List Event) (b : Backend) : Prop where
  state : b.state ≠ .closed →
    b.state.Follows (if b.dispatcher = .losing then es.dropLast else es)
  losing : b.dispatcher = .losing → ∃ reason, es.getLast? = some (.connectionLost reason)

theorem Informed.idle (h : b.Informed es) (hd : b.dispatcher ≠ .losing) (hs : b.state ≠ .closed) :
    b.state.Follows es := by
  have hstate := h.state hs
  rwa [if_neg hd] at hstate

@[simp] theorem state_takeEvent (b : Backend) (ticket : Nat) (e : Event) :
    (b.takeEvent ticket e).1.state =
      if e.isConnected then b.state.next .connected else b.state := by
  cases e with
  | connected session =>
    by_cases hc : b.state.next .connected = .connected <;>
      simp [takeEvent, transition, hc, Event.isConnected]
  | connectionLost reason => rfl
  | message topic payload =>
    simp only [takeEvent]
    split
    · rfl
    · split <;> rfl

theorem informed_of_ne_losing (hs : b.state ≠ .closed → b.state.Follows es)
    (hd : b.dispatcher ≠ .losing) : b.Informed es where
  state := by rwa [if_neg hd]
  losing h := absurd h hd

theorem informed_takeEvent (h : b.Informed es) (hidle : b.dispatcher = .idle) (ticket : Nat)
    (e : Event) : (b.takeEvent ticket e).1.Informed (es ++ [e]) := by
  have hnot : b.dispatcher ≠ .losing := by simp [hidle]
  cases e with
  | connected session =>
    by_cases hc : b.state = .closed
    · apply informed_of_ne_losing <;>
        simp [takeEvent, transition, hc, ConnectionState.next_closed, hidle]
    · have hnext := ConnectionState.next_connected hc
      apply informed_of_ne_losing <;>
        simp [takeEvent, transition, hnext, ConnectionState.follows_connected]
  | connectionLost reason =>
    constructor
    · simpa [takeEvent] using h.idle hnot
    · simp [takeEvent]
  | message topic payload =>
    have hmessage : b.state ≠ .closed → b.state.Follows (es ++ [.message topic payload]) :=
      fun hs => (h.idle hnot hs).message topic payload
    simp only [takeEvent]
    split
    · exact informed_of_ne_losing hmessage hnot
    · split
      · exact informed_of_ne_losing hmessage hnot
      · exact informed_of_ne_losing hmessage (by simp)
      · exact informed_of_ne_losing hmessage hnot

theorem informed_finishEvent (h : b.Informed es) : b.finishEvent.1.Informed es := by
  unfold finishEvent
  cases hd : b.dispatcher with
  | losing =>
    obtain ⟨reason, hlast⟩ := h.losing hd
    have hstate := h.state
    rw [if_pos hd] at hstate
    apply informed_of_ne_losing
    · intro hs
      simp only [transition] at hs ⊢
      rw [← List.dropLast_append_getLast? _ hlast]
      refine (hstate ?_).lost reason
      rwa [Ne, ConnectionState.next_eq_closed_iff _ (by decide)] at hs
    · simp
  | replaying => exact informed_of_ne_losing (h.idle (by simp [hd])) (by simp)
  | idle | delivering | stopped => exact h

namespace Actors

variable {s s' : Actors} {topics : Topic.Topics} {options : Options} {acts : List Act}

def settled (s : Actors) : List Event :=
  if s.backend.dispatcher = .losing then s.handled.dropLast else s.handled

private theorem informed_start (topics : Topic.Topics) (options : Options) :
    (start topics options).backend.Informed [] :=
  informed_of_ne_losing (fun _ => ConnectionState.follows_nil) nofun

theorem informed_step {a : Act} (hs : s.Sound) (h : s.backend.Informed s.handled)
    (hstep : s.step a = some s') : s'.backend.Informed s'.handled := by
  cases steps_of_step hstep with
  | refused | called | sent | accepted | declined | failed | succeeded | shut | wasClosed
  | disconnects | received | nothing | stops | looks | idles | asked | attempted | awakened
  | straggled | faded | vanished =>
    exact ⟨h.state, h.losing⟩
  | closes => exact ⟨fun hs => absurd rfl hs, h.losing⟩
  | closed hc =>
    have hstate : s.backend.state = .closed := hs.state.2 (by simp [hc])
    exact informed_of_ne_losing (absurd hstate) (by simp [stopDispatcher])
  | event hidle hb =>
    have htaken := informed_takeEvent h hidle s.handled.length
    rw [← hb]
    exact htaken _
  | lost hd =>
    -- Only here the state catches up with the loss that was taken up.
    have hfinished := informed_finishEvent h
    simp only [step, hd, Option.some.injEq] at hstep
    rw [← hstep]
    exact hfinished
  | connected hd =>
    have hfinished := informed_finishEvent h
    simp only [finishEvent, hd] at hfinished
    exact ⟨hfinished.state, hfinished.losing⟩
  | movedUp hd | halted hd =>
    exact informed_of_ne_losing (h.idle (by simp [hd])) (by simp)
  | left =>
    simp only [step, Option.some.injEq] at hstep
    rw [← hstep]
    by_cases hd : s.backend.dispatcher = .delivering
    · exact informed_of_ne_losing (h.idle (by simp [hd])) (by simp [dropReceiver, hd])
    · simp only [dropReceiver, if_neg hd]
      exact ⟨h.state, h.losing⟩

theorem informed_run (h : (start topics options).run acts = some s) :
    s.Sound ∧ s.backend.Informed s.handled := by
  refine Runs.invariant (P := fun t => t.Sound ∧ t.backend.Informed t.handled) ?_ h
    ⟨sound_start topics options, informed_start topics options⟩
  intro t a t' _ ht hstep
  exact ⟨sound_step ht.1 hstep, informed_step ht.1 ht.2 hstep⟩

theorem state_step {a : Act} (hstep : s.step a = some s') :
    s'.backend.state = s.backend.state ∨ ∃ e, s'.backend.state = s.backend.state.next e := by
  cases steps_of_step hstep with
  | refused | called | sent | accepted | declined | failed | succeeded | shut | wasClosed
  | disconnects | closed | connected | movedUp | halted | received | nothing | left | stops
  | looks | idles | asked | attempted | awakened | straggled | faded | vanished => exact .inl rfl
  | closes => exact .inr ⟨.close, (ConnectionState.next_close _).symm⟩
  | @event e _ _ _ _ _ hb =>
    have hstate := state_takeEvent s.backend s.handled.length e
    rw [hb] at hstate
    by_cases hcon : e.isConnected = true
    · exact .inr ⟨.connected, by simpa [hcon] using hstate⟩
    · exact .inl (by simpa [hcon] using hstate)
  | lost hd =>
    simp only [step, hd, finishEvent, transition, Option.some.injEq] at hstep
    exact .inr ⟨.connectionLost, by rw [← hstep]⟩

private theorem reached_run (h : s.backend.state.reached = true) (hrun : s.run acts = some s') :
    s'.backend.state.reached = true := by
  refine Runs.invariant (P := fun t => t.backend.state.reached = true) ?_ hrun h
  intro t a t' _ ht hstep
  rcases state_step hstep with heq | ⟨e, heq⟩
  · rwa [heq]
  · rw [heq]
    exact ConnectionState.reached_next ht e

theorem returned_step {a : Act} (hstep : s.step a = some s') : s.returned <+: s'.returned := by
  cases steps_of_step hstep with
  | refused | failed | succeeded => exact List.prefix_append _ _
  | called | sent | accepted | declined | shut | wasClosed | closes | disconnects | closed
  | event | lost | connected | movedUp | halted | received | nothing | left | stops | looks
  | idles | asked | attempted | awakened | straggled | faded | vanished => exact List.prefix_refl _

theorem returned_run (hrun : s.run acts = some s') : s.returned <+: s'.returned :=
  Runs.invariant (P := fun t => s.returned <+: t.returned)
    (fun _ _ _ _ ht hstep => ht.trans (returned_step hstep)) hrun (List.prefix_refl _)

theorem refused_of_ne_connected (hopen : s.backend.state ≠ .closed)
    (hs : s.backend.state ≠ .connected) (op : Operation) :
    s.step (.call op) = some { s with
      started := s.started + 1
      returned := s.returned ++ [⟨s.started, op, .error (.notConnected s.backend.state)⟩] } := by
  have hprepare : s.backend.prepare op = .error (.notConnected s.backend.state) := by
    unfold prepare ensureConnected
    rw [if_neg hopen, if_neg (by simpa [ConnectionState.canOperate] using hs)]
    rfl
  simp [step, hprepare]

/-- What holds of the state before a backend is closed. -/
structure DeterminedByEvents (s : Actors) : Prop where
  state : s.backend.state.Follows s.settled
  handles : s.backend.dispatcher = .idle → ∀ e, ∃ s', s.step (.event e) = some s' ∧
    s'.handled = s.handled ++ [e]
  settles : s.backend.dispatcher = .losing → ∃ s', s.step .resume = some s' ∧
    s'.settled = s.handled
  message : ∀ topic payload s', s.step (.event (.message topic payload)) = some s' →
    s'.backend.state = s.backend.state
  reached : s.backend.state = .connected → ∀ acts s', s.run acts = some s' →
    s'.backend.state ≠ .connecting ∧ s'.backend.state ≠ .disconnected
  /-- Only a call that finds the state connected goes on to the client. -/
  asks : ∀ op s', s.step (.call op) = some s' → s'.calls ≠ s.calls →
    s.backend.state = .connected
  refuses : s.backend.state ≠ .connected → ∀ op, s.step (.call op) = some { s with
    started := s.started + 1
    returned := s.returned ++ [⟨s.started, op, .error (.notConnected s.backend.state)⟩] }
  /-- A call that was refused makes no request later on. -/
  silent : s.backend.state ≠ .connected → ∀ op acts s', s.run (.call op :: acts) = some s' →
    ∀ c ∈ s'.calls, c.number ≠ s.started

theorem determinedByEvents (h : (start topics options).run acts = some s)
    (hopen : s.backend.state ≠ .closed) : s.DeterminedByEvents := by
  obtain ⟨-, hinformed⟩ := informed_run h
  refine ⟨hinformed.state hopen, ?_, ?_, ?_, ?_, ?_, ?_, ?_⟩
  · intro hd e
    simp [step, hd]
  · intro hd
    simp [step, hd, finishEvent, settled]
  · intro topic payload s' hstep
    cases steps_of_step hstep with
    | event _ hb =>
      have hstate := state_takeEvent s.backend s.handled.length (.message topic payload)
      rw [hb] at hstate
      exact hstate
  · intro hs acts s' hrun
    have hreached := reached_run (by rw [hs]; rfl) hrun
    constructor <;> intro heq <;> rw [heq] at hreached <;> cases hreached
  · intro op s' hstep hne
    cases steps_of_step hstep with
    | refused => exact absurd rfl hne
    | called hp => exact connected_of_prepare hp
  · intro hs op
    exact refused_of_ne_connected hopen hs op
  · intro hs op later s' hrun
    have hwhole : (start topics options).run (acts ++ .call op :: later) = some s' :=
      Runs.append_eq_some.2 ⟨s, h, hrun⟩
    obtain ⟨t, hcall, hrest⟩ := Option.bind_eq_some_iff.1 hrun
    rw [refused_of_ne_connected hopen hs op] at hcall
    cases hcall
    have hmem := (returned_run hrest).subset (List.mem_append_right _ List.mem_cons_self)
    exact not_underway_of_returned hwhole hmem

/-- The first attempt fails, the second one succeeds and is lost again before anything is
subscribed. -/
theorem determinedByEvents_reconnecting : ∃ s,
    (start System.sampleTopics .default).run
      [.event (.connectionLost "refused"), .resume, .call (.subscribe (.ofWord 1)),
        .event (.connected false), .resume, .event (.message "gateway" []),
        .event (.connectionLost "reset"), .resume] = some s ∧
    s.backend.state ≠ .closed ∧ s.backend.state = .reconnecting ∧ s.DeterminedByEvents := by
  obtain ⟨s, hrun, hstate⟩ : ∃ s,
      (start System.sampleTopics .default).run
        [.event (.connectionLost "refused"), .resume, .call (.subscribe (.ofWord 1)),
          .event (.connected false), .resume, .event (.message "gateway" []),
          .event (.connectionLost "reset"), .resume] = some s ∧
      s.backend.state = .reconnecting := ⟨_, rfl, rfl⟩
  have hopen : s.backend.state ≠ .closed := by simp [hstate]
  exact ⟨s, hrun, hopen, hstate, determinedByEvents hrun hopen⟩

end Actors

end Backend

end LoraBridge
