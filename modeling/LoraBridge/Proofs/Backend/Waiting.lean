import LoraBridge.Proofs.Backend.Connectivity
import LoraBridge.Proofs.Runs

/-! Waiting for the first connection. A caller that waits looks at the state of the backend, and
when the state does not tell the outcome it watches for the next change, until its time is over.
The state and the reason of a loss are written one after the other, and a caller that saw the state
reads the reason only later; the reason is there all the same. Whoever waits keeps the backend, so
the announcements of its state do not end meanwhile. -/
namespace LoraBridge

open Transport (Event)

def Transport.Event.loss? : Event → Option String
  | .connectionLost reason => some reason
  | .connected _ | .message .. => none

namespace ConnectionState

def pending : ConnectionState → Bool
  | .connecting | .reconnecting => true
  | .disconnected | .connected | .closed => false

private theorem of_pending {c : ConnectionState} (h : c.pending = true) :
    c = .connecting ∨ c = .reconnecting := by
  cases c <;> simp_all [pending]

theorem Follows.lost_of_disconnected {es : List Event} (h : Follows es .disconnected) :
    ∃ reason, .connectionLost reason ∈ es := by
  by_cases hcon : ∃ e ∈ es, e.isConnected = true
  · rcases h.of_connected hcon with h | h <;> cases h
  · by_contra hnone
    have hlink : ∀ e ∈ es, e.ofLink = false := by
      intro e he
      cases e with
      | connected session => exact absurd ⟨_, he, rfl⟩ hcon
      | connectionLost reason => exact absurd ⟨reason, he⟩ hnone
      | message topic payload => rfl
    cases h.connecting hlink

end ConnectionState

namespace Backend

@[simp] theorem lastError_takeEvent (b : Backend) (ticket : Nat) (e : Event) :
    (b.takeEvent ticket e).1.lastError = (e.loss?.map sanitize).or b.lastError := by
  cases e with
  | connected session =>
    by_cases hc : b.state.next .connected = .connected <;>
      simp [takeEvent, transition, hc, Event.loss?]
  | connectionLost reason => rfl
  | message topic payload =>
    simp only [takeEvent]
    split
    · rfl
    · split <;> rfl

namespace Actors

variable {s s' : Actors} {topics : Topic.Topics} {options : Options} {acts : List Act}

def latestLoss? (s : Actors) : Option String :=
  (s.handled.filterMap Event.loss?).getLast?

def KeepsReason (s : Actors) : Prop :=
  s.backend.lastError = s.latestLoss?.map sanitize

theorem keepsReason_step {a : Act} (h : s.KeepsReason) (hstep : s.step a = some s') :
    s'.KeepsReason := by
  cases steps_of_step hstep with
  | refused | called | sent | accepted | declined | failed | succeeded | shut | wasClosed | closes
  | disconnects | closed | lost | connected | movedUp | halted | received | nothing | left | stops
  | looks | idles | asked | attempted | awakened | straggled | faded | vanished => exact h
  | @event e _ _ _ _ _ hb =>
    have hstored := lastError_takeEvent s.backend s.handled.length e
    rw [hb, h] at hstored
    rw [KeepsReason, hstored, latestLoss?, latestLoss?, List.filterMap_append]
    cases hloss : e.loss? <;> simp [hloss]

theorem keepsReason_run (h : (start topics options).run acts = some s) : s.KeepsReason :=
  Runs.invariant (fun _ _ _ _ => keepsReason_step) h rfl

private theorem handled_step {a : Act} (hstep : s.step a = some s') : s.handled <+: s'.handled := by
  cases steps_of_step hstep with
  | refused | called | sent | accepted | declined | failed | succeeded | shut | wasClosed | closes
  | disconnects | closed | lost | connected | movedUp | halted | received | nothing | left | stops
  | looks | idles | asked | attempted | awakened | straggled
  | faded | vanished => exact List.prefix_refl _
  | event => exact List.prefix_append _ _

private theorem options_step {a : Act} (hstep : s.step a = some s') :
    s'.backend.options = s.backend.options := by
  cases steps_of_step hstep <;> rfl

theorem closed_step {a : Act} (hstep : s.step a = some s') (hs : s.backend.state = .closed) :
    s'.backend.state = .closed := by
  rcases state_step hstep with h | ⟨e, h⟩ <;> rw [h, hs]
  exact ConnectionState.next_closed e

private theorem mem_of_latestLoss? {reason : String} (h : s.latestLoss? = some reason) :
    .connectionLost reason ∈ s.handled := by
  obtain ⟨e, he, hloss⟩ := List.mem_filterMap.1 (List.mem_of_getLast? h)
  cases e with
  | connectionLost r =>
    cases hloss
    exact he
  | connected | message => cases hloss

theorem KeepsReason.stored (h : s.KeepsReason)
    (hlost : ∃ reason, .connectionLost reason ∈ s.handled) :
    ∃ reason, s.latestLoss? = some reason ∧ s.backend.lastError = some (sanitize reason) := by
  obtain ⟨reason, hmem⟩ := hlost
  have hloss : reason ∈ s.handled.filterMap Event.loss? := List.mem_filterMap.2 ⟨_, hmem, rfl⟩
  have hlatest := List.getLast?_eq_some_getLast (List.ne_nil_of_mem hloss)
  exact ⟨_, hlatest, by rw [h, latestLoss?, hlatest, Option.map_some]⟩

theorem lost_of_disconnected (h : (start topics options).run acts = some s)
    (hs : s.backend.state = .disconnected) : ∃ reason, .connectionLost reason ∈ s.handled := by
  have hopen : s.backend.state ≠ .closed := by simp [hs]
  have hfollows := (informed_run h).2.state hopen
  rw [hs] at hfollows
  obtain ⟨reason, hmem⟩ := hfollows.lost_of_disconnected
  refine ⟨reason, ?_⟩
  split at hmem
  · exact List.dropLast_subset _ hmem
  · exact hmem

end Actors

inductive Waiter.Stage where
  | looking
  /-- It has seen a state, after a number of announcements. -/
  | saw (c : ConnectionState) (seen : Nat)
  | watching (seen : Nat)
  | returned (result : Except Error Unit) (time : Nat)
  | timedOut (result : Except Error Unit) (time : Nat)

structure Waiter where
  deadline : Nat
  looks : List ConnectionState
  stage : Waiter.Stage

def Waiter.ended (w : Waiter) : Bool :=
  match w.stage with
  | .returned .. | .timedOut .. => true
  | .looking | .saw .. | .watching _ => false

structure Waiting where
  actors : Actors
  now : Nat
  announced : Nat
  waiters : List Waiter

inductive Waiter.Move where
  | look
  /-- Tell the outcome by the state that was seen, and by the reason that is stored by now. -/
  | conclude
  | wake
  | expire

def Waiter.move (w : Waiter) (s : Waiting) : Waiter.Move → Option Waiter
  | .look =>
    let c := s.actors.backend.state
    match w.stage with
    | .looking => some { w with looks := w.looks ++ [c], stage := .saw c s.announced }
    | _ => none
  | .conclude =>
    match w.stage with
    | .saw c seen =>
      match ({ s.actors.backend with state := c } : Backend).connectionOutcome? with
      | some result => some { w with stage := .returned result s.now }
      | none => some { w with stage := .watching seen }
    | _ => none
  | .wake =>
    match w.stage with
    | .watching seen => if seen = s.announced then none else some { w with stage := .looking }
    | _ => none
  | .expire =>
    match w.stage with
    | .watching _ =>
      if w.deadline ≤ s.now then
        some { w with stage := .timedOut (.error s.actors.backend.connectTimeoutError) s.now }
      else none
    | _ => none

namespace Waiting

def start (topics : Topic.Topics) (options : Options) : Waiting :=
  ⟨.start topics options, 0, 0, []⟩

inductive Act where
  | actor (a : Actors.Act)
  | pass (ms : Nat)
  | wait
  | move (i : Nat) (m : Waiter.Move)

def announces (a : Actors.Act) (old new : ConnectionState) : Bool :=
  match a with
  | .close => true
  | _ => old != new

private theorem eq_of_not_announces {a : Actors.Act} {old new : ConnectionState}
    (h : ¬ announces a old new = true) : new = old := by
  cases a with
  | close => exact absurd rfl h
  | _ =>
    have hsame : old = new := by simpa [announces] using h
    exact hsame.symm

def step (s : Waiting) : Act → Option Waiting
  | .actor a => (s.actors.step a).map fun actors => { s with
      actors
      announced :=
        if announces a s.actors.backend.state actors.backend.state then s.announced + 1
        else s.announced }
  | .pass ms => some { s with now := s.now + ms }
  | .wait =>
    let deadline := s.now + s.actors.backend.options.connectTimeout.millis
    some { s with waiters := s.waiters ++ [⟨deadline, [], .looking⟩] }
  | .move i m => do
    let w ← s.waiters[i]?
    let w' ← w.move s m
    some { s with waiters := s.waiters.set i w' }

def run (s : Waiting) (as : List Act) : Option Waiting :=
  as.foldlM step s

def Act.actor? : Act → Option Actors.Act
  | .actor a => some a
  | .pass _ | .wait | .move .. => none

variable {s s' : Waiting} {a : Act} {acts : List Act} {w : Waiter}

/-- Those who wait change nothing that the actors see. -/
theorem actors_step (h : s.step a = some s') :
    s.actors.run a.actor?.toList = some s'.actors := by
  cases a with
  | actor a =>
    obtain ⟨actors, hactors, rfl⟩ := Option.map_eq_some_iff.1 h
    simp [Act.actor?, Actors.run, hactors]
  | pass ms =>
    cases h
    rfl
  | wait =>
    cases h
    rfl
  | move i m =>
    obtain ⟨w, -, h⟩ := Option.bind_eq_some_iff.1 h
    obtain ⟨w', -, h⟩ := Option.bind_eq_some_iff.1 h
    cases h
    rfl

theorem actors_run (h : s.run acts = some s') :
    s.actors.run (acts.filterMap Act.actor?) = some s'.actors := by
  induction acts generalizing s with
  | nil =>
    cases h
    rfl
  | cons a acts ih =>
    obtain ⟨t, ht, hrest⟩ := Option.bind_eq_some_iff.1 h
    have hsplit : (a :: acts).filterMap Act.actor? =
        a.actor?.toList ++ acts.filterMap Act.actor? := by
      cases ha : a.actor? <;> simp [ha]
    rw [hsplit]
    exact Runs.append_eq_some.2 ⟨t.actors, actors_step ht, ih hrest⟩

/-- The state is the one that was seen, unless it was announced since. -/
structure Seen (s : Waiting) (c : ConnectionState) (seen : Nat) : Prop where
  le : seen ≤ s.announced
  current : seen = s.announced → s.actors.backend.state = c

inductive Stands (s : Waiting) : Waiter → Prop where
  | looking {deadline looks} (h : ∀ c ∈ looks, c.pending = true) :
    Stands s ⟨deadline, looks, .looking⟩
  | saw {deadline looks c seen} (h : ∀ c ∈ looks, c.pending = true) (hseen : s.Seen c seen)
    (hclosed : c = .closed → s.actors.backend.state = .closed)
    (hlost : c = .disconnected → ∃ reason, .connectionLost reason ∈ s.actors.handled) :
    Stands s ⟨deadline, looks ++ [c], .saw c seen⟩
  | watching {deadline looks c seen} (h : ∀ c ∈ looks, c.pending = true)
    (hc : c.pending = true) (hseen : s.Seen c seen) :
    Stands s ⟨deadline, looks ++ [c], .watching seen⟩
  | connected {deadline looks time} :
    Stands s ⟨deadline, looks ++ [.connected], .returned (.ok ()) time⟩
  | closed {deadline looks time} (hclosed : s.actors.backend.state = .closed) :
    Stands s ⟨deadline, looks ++ [.closed], .returned (.error .closed) time⟩
  | failed {deadline looks reason time} (hlost : .connectionLost reason ∈ s.actors.handled) :
    Stands s ⟨deadline, looks ++ [.disconnected],
      .returned (.error (.connectFailed (sanitize (sanitize reason)))) time⟩
  | timedOut {deadline looks c time} (h : ∀ c ∈ looks, c.pending = true)
    (hc : c.pending = true) (htime : deadline ≤ time) :
    Stands s ⟨deadline, looks ++ [c],
      .timedOut (.error s.actors.backend.connectTimeoutError) time⟩

/-- What later states keep of a state, for those who wait. -/
structure Leads (s s' : Waiting) : Prop where
  closed : s.actors.backend.state = .closed → s'.actors.backend.state = .closed
  handled : s.actors.handled <+: s'.actors.handled
  options : s'.actors.backend.options = s.actors.backend.options
  announced : s.announced ≤ s'.announced
  current : s.announced = s'.announced → s'.actors.backend.state = s.actors.backend.state

theorem leads_of_actors (h : s'.actors = s.actors) (hannounced : s'.announced = s.announced) :
    s.Leads s' := by
  constructor <;> simp [h, hannounced]

theorem leads_step (h : s.step a = some s') : s.Leads s' := by
  cases a with
  | actor a =>
    obtain ⟨actors, hactors, rfl⟩ := Option.map_eq_some_iff.1 h
    refine ⟨Actors.closed_step hactors, Actors.handled_step hactors, Actors.options_step hactors,
      ?_, ?_⟩
    · simp only
      split <;> omega
    · simp only
      split
      · omega
      · next hquiet => exact fun _ => eq_of_not_announces hquiet
  | pass ms =>
    cases h
    exact leads_of_actors rfl rfl
  | wait =>
    cases h
    exact leads_of_actors rfl rfl
  | move i m =>
    obtain ⟨w, -, h⟩ := Option.bind_eq_some_iff.1 h
    obtain ⟨w', -, h⟩ := Option.bind_eq_some_iff.1 h
    cases h
    exact leads_of_actors rfl rfl

theorem Seen.leads {c : ConnectionState} {seen : Nat} (h : s.Seen c seen) (hleads : s.Leads s') :
    s'.Seen c seen where
  le := Nat.le_trans h.le hleads.announced
  current := by
    intro heq
    have hsame : seen = s.announced := Nat.le_antisymm h.le (heq ▸ hleads.announced)
    rw [hleads.current (hsame ▸ heq), h.current hsame]

theorem Stands.leads (h : s.Stands w) (hleads : s.Leads s') : s'.Stands w := by
  cases h with
  | looking h => exact .looking h
  | saw h hseen hclosed hlost =>
    refine .saw h (hseen.leads hleads) (fun hc => hleads.closed (hclosed hc)) fun hc => ?_
    obtain ⟨reason, hmem⟩ := hlost hc
    exact ⟨reason, hleads.handled.subset hmem⟩
  | watching h hc hseen => exact .watching h hc (hseen.leads hleads)
  | connected => exact .connected
  | closed hclosed => exact .closed (hleads.closed hclosed)
  | failed hlost => exact .failed (hleads.handled.subset hlost)
  | timedOut h hc htime =>
    have hsame : s.actors.backend.connectTimeoutError = s'.actors.backend.connectTimeoutError := by
      rw [connectTimeoutError, connectTimeoutError, hleads.options]
    rw [hsame]
    exact .timedOut h hc htime

private theorem stands_look (h : s.Stands w) {w' : Waiter} (hmove : w.move s .look = some w')
    (hlost : s.actors.backend.state = .disconnected →
      ∃ reason, .connectionLost reason ∈ s.actors.handled) : s.Stands w' := by
  cases h with
  | looking h =>
    cases hmove
    exact .saw h ⟨Nat.le_refl _, fun _ => rfl⟩ id hlost
  | saw | watching | connected | closed | failed | timedOut => cases hmove

/-- The reason is read after the state, and maybe it is that of a later loss. -/
theorem move_conclude_disconnected (hkeeps : s.actors.KeepsReason)
    (hlost : ∃ reason, .connectionLost reason ∈ s.actors.handled) (deadline : Nat)
    (looks : List ConnectionState) (seen : Nat) :
    ∃ reason, s.actors.latestLoss? = some reason ∧
      s.actors.backend.lastError = some (sanitize reason) ∧
      Waiter.move ⟨deadline, looks, .saw .disconnected seen⟩ s .conclude =
        some ⟨deadline, looks,
          .returned (.error (.connectFailed (sanitize (sanitize reason)))) s.now⟩ := by
  obtain ⟨reason, hlatest, hstored⟩ := hkeeps.stored hlost
  have houtcome := connectionOutcome?_disconnected
    (b := { s.actors.backend with state := .disconnected }) rfl hstored
  exact ⟨reason, hlatest, hstored, by simp only [Waiter.move, houtcome]⟩

theorem stands_conclude (h : s.Stands w) {w' : Waiter} (hmove : w.move s .conclude = some w')
    (hkeeps : s.actors.KeepsReason) : s.Stands w' := by
  cases h with
  | @saw deadline looks c seen h hseen hclosed hlost =>
    cases c with
    | connected =>
      cases hmove
      exact .connected
    | closed =>
      cases hmove
      exact .closed (hclosed rfl)
    | disconnected =>
      obtain ⟨reason, hlatest, -, hmoved⟩ :=
        move_conclude_disconnected hkeeps (hlost rfl) deadline (looks ++ [.disconnected]) seen
      rw [hmoved] at hmove
      cases hmove
      exact .failed (Actors.mem_of_latestLoss? hlatest)
    | connecting | reconnecting =>
      cases hmove
      exact .watching h rfl hseen
  | looking | watching | connected | closed | failed | timedOut => cases hmove

theorem stands_move (h : s.Stands w) {m : Waiter.Move} {w' : Waiter}
    (hmove : w.move s m = some w') (hkeeps : s.actors.KeepsReason)
    (hlost : s.actors.backend.state = .disconnected →
      ∃ reason, .connectionLost reason ∈ s.actors.handled) : s.Stands w' := by
  cases m with
  | look => exact stands_look h hmove hlost
  | conclude => exact stands_conclude h hmove hkeeps
  | wake =>
    cases h with
    | watching h hc =>
      simp only [Waiter.move] at hmove
      split at hmove <;> cases hmove
      exact .looking (List.forall_mem_append.2 ⟨h, List.forall_mem_singleton.2 hc⟩)
    | looking | saw | connected | closed | failed | timedOut => cases hmove
  | expire =>
    cases h with
    | watching h hc =>
      simp only [Waiter.move] at hmove
      split at hmove <;> cases hmove
      exact .timedOut h hc ‹_›
    | looking | saw | connected | closed | failed | timedOut => cases hmove

theorem stands_step (h : ∀ w ∈ s.waiters, s.Stands w) (hstep : s.step a = some s')
    (hkeeps : s.actors.KeepsReason)
    (hlost : s.actors.backend.state = .disconnected →
      ∃ reason, .connectionLost reason ∈ s.actors.handled) : ∀ w ∈ s'.waiters, s'.Stands w := by
  have hleads := leads_step hstep
  cases a with
  | actor a =>
    obtain ⟨actors, -, rfl⟩ := Option.map_eq_some_iff.1 hstep
    exact fun w hw => (h w hw).leads hleads
  | pass ms =>
    cases hstep
    exact fun w hw => (h w hw).leads hleads
  | wait =>
    cases hstep
    intro w hw
    rcases List.mem_append.1 hw with hw | hw
    · exact (h w hw).leads hleads
    · rw [List.mem_singleton.1 hw]
      exact .looking (by simp)
  | move i m =>
    obtain ⟨v, hv, hstep⟩ := Option.bind_eq_some_iff.1 hstep
    obtain ⟨v', hmove, hstep⟩ := Option.bind_eq_some_iff.1 hstep
    cases hstep
    intro w hw
    rcases List.mem_or_eq_of_mem_set hw with hw | rfl
    · exact (h w hw).leads hleads
    · exact (stands_move (h v (List.mem_of_getElem? hv)) hmove hkeeps hlost).leads hleads

variable {topics : Topic.Topics} {options : Options}

structure Reachable (topics : Topic.Topics) (options : Options) (s : Waiting) : Prop where
  actors : ∃ acts, (Actors.start topics options).run acts = some s.actors
  stands : ∀ w ∈ s.waiters, s.Stands w

private theorem reachable_step (h : Reachable topics options s) (hstep : s.step a = some s') :
    Reachable topics options s' := by
  obtain ⟨acts, hacts⟩ := h.actors
  constructor
  · exact ⟨acts ++ a.actor?.toList, Runs.append_eq_some.2 ⟨s.actors, hacts, actors_step hstep⟩⟩
  · exact stands_step h.stands hstep (Actors.keepsReason_run hacts)
      (Actors.lost_of_disconnected hacts)

private theorem reachable_run (h : (start topics options).run acts = some s) :
    Reachable topics options s := by
  have hstart : Reachable topics options (start topics options) := ⟨⟨[], rfl⟩, by simp [start]⟩
  exact Runs.invariant (fun _ _ _ _ hs => reachable_step hs) h hstart

def CanEnd (s : Waiting) (i : Nat) : Prop :=
  ∃ (moves : List Waiter.Move) (s' : Waiting) (w : Waiter),
    s.run (moves.map (.move i)) = some s' ∧ s'.waiters[i]? = some w ∧ w.ended = true

/-- Those who wait are answered as they saw. -/
structure AnswersAsSeen (s : Waiting) : Prop where
  stored : s.actors.backend.state = .disconnected → ∃ reason,
    s.actors.latestLoss? = some reason ∧ s.actors.backend.lastError = some (sanitize reason)
  connected : ∀ w ∈ s.waiters, ∀ time, w.stage = .returned (.ok ()) time →
    w.looks.getLast? = some .connected
  closed : ∀ w ∈ s.waiters, ∀ time, w.stage = .returned (.error .closed) time →
    w.looks.getLast? = some .closed ∧ s.actors.closing ≠ .none
  failed : ∀ w ∈ s.waiters, ∀ e time, w.stage = .returned (.error e) time → e ≠ .closed →
    w.looks.getLast? = some .disconnected ∧ ∃ reason,
      .connectionLost reason ∈ s.actors.handled ∧ e = .connectFailed (sanitize (sanitize reason))
  /-- The reason is the one that is stored when the call returns. -/
  concludes : ∀ i s' w message time, s.step (.move i .conclude) = some s' →
    s'.waiters[i]? = some w → w.stage = .returned (.error (.connectFailed message)) time →
    ∃ reason, s.actors.latestLoss? = some reason ∧
      s.actors.backend.lastError = some (sanitize reason) ∧ message = sanitize (sanitize reason)
  timedOut : ∀ w ∈ s.waiters, ∀ result time, w.stage = .timedOut result time →
    result = .error s.actors.backend.connectTimeoutError ∧ w.deadline ≤ time ∧ w.looks ≠ [] ∧
      ∀ c ∈ w.looks, c = .connecting ∨ c = .reconnecting
  /-- Nobody watches a state that tells the outcome without being woken. -/
  wakes : ∀ i w seen, s.waiters[i]? = some w → w.stage = .watching seen →
    s.actors.backend.state.pending = false → ∃ s', s.step (.move i .wake) = some s'
  ends : ∀ i w, s.waiters[i]? = some w → w.deadline ≤ s.now → s.CanEnd i
  unchanged : ∀ a s', a.actor? = none → s.step a = some s' → s'.actors = s.actors

theorem wakes (hstands : ∀ w ∈ s.waiters, s.Stands w) {i seen : Nat}
    (hw : s.waiters[i]? = some w) (hstage : w.stage = .watching seen)
    (hstate : s.actors.backend.state.pending = false) :
    ∃ s', s.step (.move i .wake) = some s' := by
  have hstand := hstands w (List.mem_of_getElem? hw)
  have hne : seen ≠ s.announced := by
    intro heq
    cases hstand with
    | watching _ hc hseen =>
      cases hstage
      rw [hseen.current heq, hc] at hstate
      cases hstate
    | looking | saw | connected | closed | failed | timedOut => cases hstage
  simp [step, hw, Waiter.move, hstage, hne]

/-- The state that was seen tells the kind of the outcome, and the reason is the one that is
stored. -/
theorem concludes (hstands : ∀ w ∈ s.waiters, s.Stands w) (hkeeps : s.actors.KeepsReason)
    {i time : Nat} {message : String} (hstep : s.step (.move i .conclude) = some s')
    (hw : s'.waiters[i]? = some w)
    (hstage : w.stage = .returned (.error (.connectFailed message)) time) :
    ∃ reason, s.actors.latestLoss? = some reason ∧
      s.actors.backend.lastError = some (sanitize reason) ∧
      message = sanitize (sanitize reason) := by
  obtain ⟨v, hv, hstep⟩ := Option.bind_eq_some_iff.1 hstep
  obtain ⟨v', hmove, hstep⟩ := Option.bind_eq_some_iff.1 hstep
  cases hstep
  have hlt := (List.getElem?_eq_some_iff.1 hv).1
  simp only [List.getElem?_set_self hlt, Option.some.injEq] at hw
  subst hw
  cases hstands v (List.mem_of_getElem? hv) with
  | @saw deadline looks c seen _ _ _ hlost =>
    cases c with
    | disconnected =>
      obtain ⟨reason, hlatest, hstored, hmoved⟩ :=
        move_conclude_disconnected hkeeps (hlost rfl) deadline (looks ++ [.disconnected]) seen
      rw [hmoved] at hmove
      cases hmove
      cases hstage
      exact ⟨reason, hlatest, hstored, rfl⟩
    | connected | closed | connecting | reconnecting =>
      cases hmove
      cases hstage
  | looking | watching | connected | closed | failed | timedOut => cases hmove

private theorem step_move {i : Nat} {m : Waiter.Move} {w' : Waiter} (hw : s.waiters[i]? = some w)
    (hmove : w.move s m = some w') :
    s.step (.move i m) = some { s with waiters := s.waiters.set i w' } := by
  simp [step, hw, hmove]

theorem canEnd_move {i : Nat} {m : Waiter.Move} {w' : Waiter} (hw : s.waiters[i]? = some w)
    (hmove : w.move s m = some w')
    (h : ({ s with waiters := s.waiters.set i w' } : Waiting).CanEnd i) : s.CanEnd i := by
  obtain ⟨moves, s', v, hrun, hv, hended⟩ := h
  refine ⟨m :: moves, s', v, ?_, hv, hended⟩
  rw [List.map_cons, run, Runs.cons, step_move hw hmove]
  exact hrun

theorem canEnd_of_ended {i : Nat} (hw : s.waiters[i]? = some w) (hended : w.ended = true) :
    s.CanEnd i :=
  ⟨[], s, w, rfl, hw, hended⟩

theorem canEnd_watching {i deadline seen : Nat} {looks : List ConnectionState}
    (hw : s.waiters[i]? = some ⟨deadline, looks, .watching seen⟩) (htime : deadline ≤ s.now) :
    s.CanEnd i := by
  have hmove : Waiter.move ⟨deadline, looks, .watching seen⟩ s .expire = some ⟨deadline, looks,
      .timedOut (.error s.actors.backend.connectTimeoutError) s.now⟩ := by
    simp only [Waiter.move, if_pos htime]
  exact canEnd_move hw hmove (canEnd_of_ended (getElem?_set_of_some hw _) rfl)

theorem canEnd_saw {i deadline seen : Nat} {looks : List ConnectionState} {c : ConnectionState}
    (hw : s.waiters[i]? = some ⟨deadline, looks, .saw c seen⟩) (htime : deadline ≤ s.now) :
    s.CanEnd i := by
  cases houtcome : ({ s.actors.backend with state := c } : Backend).connectionOutcome? with
  | some result =>
    have hmove : Waiter.move ⟨deadline, looks, .saw c seen⟩ s .conclude =
        some ⟨deadline, looks, .returned result s.now⟩ := by
      simp only [Waiter.move, houtcome]
    exact canEnd_move hw hmove (canEnd_of_ended (getElem?_set_of_some hw _) rfl)
  | none =>
    have hmove : Waiter.move ⟨deadline, looks, .saw c seen⟩ s .conclude =
        some ⟨deadline, looks, .watching seen⟩ := by
      simp only [Waiter.move, houtcome]
    exact canEnd_move hw hmove (canEnd_watching (getElem?_set_of_some hw _) htime)

theorem canEnd {i : Nat} (hw : s.waiters[i]? = some w) (htime : w.deadline ≤ s.now) :
    s.CanEnd i := by
  obtain ⟨deadline, looks, stage⟩ := w
  cases stage with
  | looking =>
    refine canEnd_move (m := .look) hw rfl ?_
    exact canEnd_saw (getElem?_set_of_some hw _) htime
  | saw c seen => exact canEnd_saw hw htime
  | watching seen => exact canEnd_watching hw htime
  | returned | timedOut => exact canEnd_of_ended hw rfl

/-- Whatever the actors do and however many wait, each of them is answered as it saw. -/
theorem answersAsSeen (h : (start topics options).run acts = some s) :
    s.AnswersAsSeen ∧
      (Actors.start topics options).run (acts.filterMap Act.actor?) = some s.actors := by
  obtain ⟨⟨before, hbefore⟩, hstands⟩ := reachable_run h
  have hkeeps := Actors.keepsReason_run hbefore
  refine ⟨⟨?_, ?_, ?_, ?_, ?_, ?_, ?_, ?_, ?_⟩, actors_run h⟩
  · exact fun hs => hkeeps.stored (Actors.lost_of_disconnected hbefore hs)
  · intro w hw time hstage
    cases hstands w hw with
    | connected => simp
    | looking | saw | watching | closed | failed | timedOut => cases hstage
  · intro w hw time hstage
    cases hstands w hw with
    | closed hclosed =>
      exact ⟨by simp, (Actors.informed_run hbefore).1.state.1 hclosed⟩
    | looking | saw | watching | connected | failed | timedOut => cases hstage
  · intro w hw e time hstage hne
    cases hstands w hw with
    | failed hlost =>
      cases hstage
      exact ⟨by simp, _, hlost, rfl⟩
    | closed =>
      cases hstage
      exact absurd rfl hne
    | looking | saw | watching | connected | timedOut => cases hstage
  · intro i s' w message time hstep hw hstage
    exact concludes hstands hkeeps hstep hw hstage
  · intro w hw result time hstage
    cases hstands w hw with
    | timedOut hpending hc htime =>
      cases hstage
      refine ⟨rfl, htime, by simp, ?_⟩
      intro c hmem
      apply ConnectionState.of_pending
      rcases List.mem_append.1 hmem with hmem | hmem
      · exact hpending c hmem
      · rwa [List.mem_singleton.1 hmem]
    | looking | saw | watching | connected | closed | failed => cases hstage
  · intro i w seen hw hstage hstate
    exact wakes hstands hw hstage hstate
  · exact fun i w hw htime => canEnd hw htime
  · intro a s' hactor hstep
    have hactors := actors_step hstep
    rw [hactor] at hactors
    exact (Option.some.inj hactors).symm

/-- The first attempt fails while one caller waits, and the next one succeeds before it has read
the reason; a second caller finds the connection, and a third one a closed backend. -/
def sampleRun : List Act :=
  [.wait, .move 0 .look, .move 0 .conclude, .actor (.event (.connectionLost "refused")),
    .actor .resume, .move 0 .wake, .move 0 .look, .actor (.event (.connected false)),
    .actor .resume, .move 0 .conclude, .wait, .move 1 .look, .move 1 .conclude, .actor .close,
    .wait, .move 2 .look, .move 2 .conclude]

theorem answersAsSeen_sampleRun : ∃ s,
    (start System.sampleTopics .default).run sampleRun = some s ∧
    s.waiters.map Waiter.stage =
      [.returned (.error (.connectFailed (sanitize (sanitize "refused")))) 0,
        .returned (.ok ()) 0, .returned (.error .closed) 0] ∧ s.AnswersAsSeen := by
  obtain ⟨s, hrun, hstages⟩ : ∃ s,
      (start System.sampleTopics .default).run sampleRun = some s ∧
      s.waiters.map Waiter.stage =
        [.returned (.error (.connectFailed (sanitize (sanitize "refused")))) 0,
          .returned (.ok ()) 0, .returned (.error .closed) 0] := ⟨_, rfl, rfl⟩
  exact ⟨s, hrun, hstages, (answersAsSeen hrun).1⟩

end Waiting

end Backend

end LoraBridge
