import LoraBridge.Proofs.Backend.Ledger
import LoraBridge.Proofs.Backend.System
import LoraBridge.Proofs.Runs

/-! The actors of a backend, and the client that they ask. Each step takes one of them from
a point where it may be suspended to the next one: a call between the check of the state,
the request, the answer and the registry; the call that closes between the state, the
disconnect and the end; the replay between the look at the signal to stop and the snapshot;
a waiting frame between the room for it and the queue. The steps come in any order. Nobody
waits for a replay that was told to stop: where it is about to ask, it may still do so, at any
later time. -/
namespace LoraBridge

namespace Downlink.Channel

def pull (c : Channel) : Received × Channel :=
  match c.buffer with
  | f :: rest => (.frame f, { c with buffer := rest })
  | [] => (if c.hasWriter then .nothing else .ended, c)

def moveUp (c : Channel) : Channel :=
  match c.waiting with
  | d :: more => { c with buffer := c.buffer ++ [d.frame], waiting := more }
  | [] => c

theorem receive_eq {c : Channel} (h : c.buffer = [] → c.waiting = []) :
    c.receive = (c.pull.1, c.pull.2.moveUp) := by
  unfold receive pull
  cases hb : c.buffer with
  | nil => simp [moveUp, h hb]
  | cons f rest => cases c.waiting <;> simp [moveUp]

end Downlink.Channel

namespace Backend

open Transport (Request Answer)
open Envelope (DownlinkFrame)

def markClosed (b : Backend) : Backend :=
  { b with state := .closed, stopping := true }

def stopReplay (b : Backend) : Backend :=
  { b with replay := .none }

theorem beginClose_eq {b : Backend} (h : b.state ≠ .closed) :
    b.beginClose.1 = b.markClosed.stopReplay ∧
      b.beginClose.2.1 = some (.disconnect b.options.disconnectGrace) := by
  rcases b.beginClose_frame with ⟨hc, -⟩ | ⟨-, logs, hb⟩
  · exact absurd hc h
  · simp [hb, markClosed, stopReplay]

/-- Ask for the topics of the registry, without a look at the signal to stop. -/
def ask (b : Backend) : Backend × Option Request :=
  match b.replay with
  | .due n =>
    if b.downlinkTopics = [] then (b.stopReplay, none)
    else ({ b with replay := .asking (n + 1) b.downlinkTopics.length },
      some (.subscribeMany b.downlinkTopics))
  | .none | .asking .. | .sleeping .. => (b, none)

theorem attempt_eq {b : Backend} {n : Nat} (h : b.replay = .due n) :
    (b.attempt.1, b.attempt.2.1) = if b.stopping then (b.stopReplay, none) else b.ask := by
  by_cases ht : b.stopping = true ∨ b.downlinkTopics = []
  · rw [attempt_nothing h ht]
    rcases ht with hs | ht
    · simp [hs, stopReplay]
    · simp [ask, h, ht, stopReplay]
  · rw [not_or, Bool.not_eq_true] at ht
    obtain ⟨logs, hb⟩ := attempt_asking h ht.1 ht.2
    simp [hb, ask, h, ht.1, ht.2]

theorem ask_due (b : Backend) : ({ b with replay := .due 0 } : Backend).ask.2 =
    if b.downlinkTopics = [] then none else some (.subscribeMany b.downlinkTopics) := by
  by_cases ht : b.downlinkTopics = []
  · rw [if_pos ht]
    exact congrArg Prod.snd (if_pos ht)
  · rw [if_neg ht]
    exact congrArg Prod.snd (if_neg ht)

theorem complete_ok (b : Backend) (op : Operation) : b.complete op (.ok ()) =
    ({ b with registry := System.recorded b.registry (.operation op, .ok ()) }, .ok ()) := by
  cases op <;> rfl

inductive Stage where
  | prepared
  | sent
  | answered (a : Answer)

structure Underway where
  number : Nat
  op : Operation
  request : Request
  stage : Stage

structure Returned where
  number : Nat
  op : Operation
  result : Except Error Unit

/-- How far the call is that closes the backend. -/
inductive Closing where
  | none
  | marked
  | disconnecting
  | ended
deriving DecidableEq

structure Actors where
  backend : Backend
  handled : List Transport.Event
  received : List DownlinkFrame
  started : Nat
  calls : List Underway
  /-- The operations whose requests the client accepted, in this order. -/
  accepted : List (Nat × Operation)
  returned : List Returned
  closing : Closing
  /-- Whether the replay has looked at the signal to stop, and goes on to ask. -/
  looked : Bool
  /-- How many replays were told to stop when they were about to ask, and are not gone. -/
  stragglers : Nat
  requests : List Request
  shutDown : Bool

theorem getElem?_set_of_some {α : Type} {l : List α} {i : Nat} {x : α} (h : l[i]? = some x)
    (y : α) : (l.set i y)[i]? = some y :=
  List.getElem?_set_self (List.getElem?_eq_some_iff.1 h).1

namespace Actors

def start (topics : Topic.Topics) (options : Options) : Actors :=
  ⟨(Backend.start topics options).1, [], [], 0, [], [], [], .none, false, 0, [], false⟩

inductive Act where
  | call (op : Operation)
  | send (i : Nat)
  | accept (i : Nat)
  | refuse (i : Nat) (e : Transport.Error)
  | finish (i : Nat)
  | shutDown
  | close
  | disconnect
  | closed (a : Answer)
  | event (e : Transport.Event)
  | resume
  | moveUp
  | halt
  | receive
  | dropReceiver
  | look
  | ask
  | attempted (now : Nat) (a : Answer)
  | awaken
  /-- A replay that was told to stop asks all the same. -/
  | straggle
  | vanish

def step (s : Actors) : Act → Option Actors
  | .call op =>
    let started := s.started + 1
    match s.backend.prepare op with
    | .error e =>
      some { s with started, returned := s.returned ++ [⟨s.started, op, .error e⟩] }
    | .ok (request, _) =>
      some { s with started, calls := s.calls ++ [⟨s.started, op, request, .prepared⟩] }
  | .send i => do
    let c ← s.calls[i]?
    match c.stage with
    | .prepared =>
      let stage := if s.shutDown then .answered (.error .shutdown) else .sent
      some { s with
        calls := s.calls.set i { c with stage }
        requests := s.requests ++ [c.request] }
    | .sent | .answered _ => none
  | .accept i => do
    let c ← s.calls[i]?
    match c.stage, s.shutDown with
    | .sent, false =>
      some { s with
        calls := s.calls.set i { c with stage := .answered (.ok ()) }
        accepted := s.accepted ++ [(c.number, c.op)] }
    | _, _ => none
  | .refuse i e => do
    let c ← s.calls[i]?
    match c.stage with
    | .sent => some { s with calls := s.calls.set i { c with stage := .answered (.error e) } }
    | .prepared | .answered _ => none
  | .finish i => do
    let c ← s.calls[i]?
    match c.stage with
    | .answered a =>
      let (backend, result) := s.backend.complete c.op a
      some { s with
        backend
        calls := s.calls.eraseIdx i
        returned := s.returned ++ [⟨c.number, c.op, result⟩] }
    | .prepared | .sent => none
  | .shutDown => some { s with shutDown := true }
  | .close =>
    if s.backend.state = .closed then some s
    else some { s with backend := s.backend.markClosed, closing := .marked }
  | .disconnect =>
    match s.closing with
    | .marked => some { s with
        backend := s.backend.stopReplay
        closing := .disconnecting
        looked := false
        stragglers := s.stragglers + s.looked.toNat
        requests := s.requests ++ [.disconnect s.backend.options.disconnectGrace] }
    | .none | .disconnecting | .ended => none
  | .closed a =>
    match s.closing with
    | .disconnecting => some { s with backend := (s.backend.finishClose a).1, closing := .ended }
    | .none | .marked | .ended => none
  | .event e =>
    if s.backend.dispatcher = .idle then
      some { s with
        backend := (s.backend.takeEvent s.handled.length e).1
        handled := s.handled ++ [e] }
    else none
  | .resume =>
    match s.backend.dispatcher with
    | .losing => some { s with backend := s.backend.finishEvent.1 }
    | .replaying => some { s with
        backend := s.backend.finishEvent.1
        looked := false
        stragglers := s.stragglers + s.looked.toNat }
    | .idle | .delivering | .stopped => none
  | .moveUp =>
    let c := s.backend.downlinks
    if s.backend.dispatcher = .delivering ∧ c.buffer.length < c.capacity then
      some { s with backend := { s.backend with downlinks := c.moveUp, dispatcher := .idle } }
    else none
  | .halt =>
    if s.backend.dispatcher = .idle then
      some { s with backend := { s.backend with
        downlinks := s.backend.downlinks.dropWriter
        dispatcher := .stopped } }
    else none
  | .receive =>
    let (r, downlinks) := s.backend.downlinks.pull
    let frames := match r with
      | .frame f => [f]
      | .nothing | .ended => []
    some { s with
      backend := { s.backend with downlinks }
      received := s.received ++ frames }
  | .dropReceiver => some { s with backend := s.backend.dropReceiver.1 }
  | .look =>
    match s.looked, s.backend.replay, s.backend.stopping with
    | false, .due _, false => some { s with looked := true }
    | false, .due _, true | false, .sleeping .., true =>
      some { s with backend := s.backend.stopReplay }
    | _, _, _ => none
  | .ask =>
    if s.looked then
      let (backend, request) := s.backend.ask
      some { s with backend, looked := false, requests := s.requests ++ request.toList }
    else none
  | .attempted now a =>
    match s.backend.replay with
    | .asking .. => some { s with backend := (s.backend.attempted now a).1 }
    | .none | .due _ | .sleeping .. => none
  | .awaken =>
    match s.backend.replay with
    | .sleeping .. => some { s with backend := s.backend.awaken }
    | .none | .due _ | .asking .. => none
  | .straggle =>
    match s.stragglers with
    | 0 => none
    | stragglers + 1 =>
      let request := ({ s.backend with replay := .due 0 } : Backend).ask.2
      some { s with stragglers, requests := s.requests ++ request.toList }
  | .vanish =>
    match s.stragglers with
    | 0 => none
    | stragglers + 1 => some { s with stragglers }

def run (s : Actors) (as : List Act) : Option Actors :=
  as.foldlM step s

inductive Steps (s : Actors) : Act → Actors → Prop where
  | refused {op e} (h : s.backend.prepare op = .error e) :
    Steps s (.call op) { s with
      started := s.started + 1
      returned := s.returned ++ [⟨s.started, op, .error e⟩] }
  | called {op request event} (h : s.backend.prepare op = .ok (request, event)) :
    Steps s (.call op) { s with
      started := s.started + 1
      calls := s.calls ++ [⟨s.started, op, request, .prepared⟩] }
  | sent {i c} (h : s.calls[i]? = some c) (hc : c.stage = .prepared) :
    Steps s (.send i) { s with
      calls := s.calls.set i
        { c with stage := if s.shutDown then .answered (.error .shutdown) else .sent }
      requests := s.requests ++ [c.request] }
  | accepted {i c} (h : s.calls[i]? = some c) (hc : c.stage = .sent)
    (hs : s.shutDown = false) :
    Steps s (.accept i) { s with
      calls := s.calls.set i { c with stage := .answered (.ok ()) }
      accepted := s.accepted ++ [(c.number, c.op)] }
  | declined {i c e} (h : s.calls[i]? = some c) (hc : c.stage = .sent) :
    Steps s (.refuse i e) { s with
      calls := s.calls.set i { c with stage := .answered (.error e) } }
  | failed {i c e} (h : s.calls[i]? = some c) (hc : c.stage = .answered (.error e)) :
    Steps s (.finish i) { s with
      calls := s.calls.eraseIdx i
      returned := s.returned ++ [⟨c.number, c.op, .error (.ofTransport e)⟩] }
  | succeeded {i c} (h : s.calls[i]? = some c) (hc : c.stage = .answered (.ok ())) :
    Steps s (.finish i) { s with
      backend := { s.backend with
        registry := System.recorded s.backend.registry (.operation c.op, .ok ()) }
      calls := s.calls.eraseIdx i
      returned := s.returned ++ [⟨c.number, c.op, .ok ()⟩] }
  | shut : Steps s .shutDown { s with shutDown := true }
  | wasClosed (h : s.backend.state = .closed) : Steps s .close s
  | closes (h : s.backend.state ≠ .closed) :
    Steps s .close { s with backend := s.backend.markClosed, closing := .marked }
  | disconnects (h : s.closing = .marked) :
    Steps s .disconnect { s with
      backend := s.backend.stopReplay
      closing := .disconnecting
      looked := false
      stragglers := s.stragglers + s.looked.toNat
      requests := s.requests ++ [.disconnect s.backend.options.disconnectGrace] }
  | closed {a} (h : s.closing = .disconnecting) :
    Steps s (.closed a) { s with backend := s.backend.stopDispatcher, closing := .ended }
  | event {e state lastError dispatcher downlinks} (h : s.backend.dispatcher = .idle)
    (hb : (s.backend.takeEvent s.handled.length e).1 =
      { s.backend with state, lastError, dispatcher, downlinks })
    (hc : state = .closed ↔ s.backend.state = .closed) :
    Steps s (.event e) { s with
      backend := { s.backend with state, lastError, dispatcher, downlinks }
      handled := s.handled ++ [e] }
  | lost {state} (h : s.backend.dispatcher = .losing)
    (hc : state = .closed ↔ s.backend.state = .closed) :
    Steps s .resume { s with backend := { s.backend with state, dispatcher := .idle } }
  | connected (h : s.backend.dispatcher = .replaying) :
    Steps s .resume { s with
      backend := { s.backend with
        dispatcher := .idle
        replay := if s.backend.registry.isEmpty then .none else .due 0 }
      looked := false
      stragglers := s.stragglers + s.looked.toNat }
  | movedUp (h : s.backend.dispatcher = .delivering)
    (hroom : s.backend.downlinks.buffer.length < s.backend.downlinks.capacity) :
    Steps s .moveUp { s with backend := { s.backend with
      downlinks := s.backend.downlinks.moveUp
      dispatcher := .idle } }
  | halted (h : s.backend.dispatcher = .idle) :
    Steps s .halt { s with backend := { s.backend with
      downlinks := s.backend.downlinks.dropWriter
      dispatcher := .stopped } }
  | received {f rest} (h : s.backend.downlinks.buffer = f :: rest) :
    Steps s .receive { s with
      backend := { s.backend with downlinks := { s.backend.downlinks with buffer := rest } }
      received := s.received ++ [f] }
  | nothing (h : s.backend.downlinks.buffer = []) : Steps s .receive s
  | left {dispatcher downlinks}
    (hd : s.backend.dispatcher = .stopped → dispatcher = .stopped) :
    Steps s .dropReceiver { s with backend := { s.backend with dispatcher, downlinks } }
  | stops (h : s.backend.stopping = true) :
    Steps s .look { s with backend := s.backend.stopReplay }
  | looks (h : s.backend.stopping = false) : Steps s .look { s with looked := true }
  | idles (h : s.looked = true) {replay} :
    Steps s .ask { s with backend := { s.backend with replay }, looked := false }
  | asked (h : s.looked = true) (ht : s.backend.downlinkTopics ≠ []) {replay} :
    Steps s .ask { s with
      backend := { s.backend with replay }
      looked := false
      requests := s.requests ++ [.subscribeMany s.backend.downlinkTopics] }
  | attempted {now a replay} :
    Steps s (.attempted now a) { s with backend := { s.backend with replay } }
  | awakened {replay} : Steps s .awaken { s with backend := { s.backend with replay } }
  | straggled {stragglers} (h : s.stragglers = stragglers + 1)
    (ht : s.backend.downlinkTopics ≠ []) :
    Steps s .straggle { s with
      stragglers
      requests := s.requests ++ [.subscribeMany s.backend.downlinkTopics] }
  | faded {stragglers} (h : s.stragglers = stragglers + 1) (ht : s.backend.downlinkTopics = []) :
    Steps s .straggle { s with stragglers }
  | vanished {stragglers} (h : s.stragglers = stragglers + 1) :
    Steps s .vanish { s with stragglers }

theorem steps_finish {s s' : Actors} {i : Nat} (h : s.step (.finish i) = some s') :
    Steps s (.finish i) s' := by
  obtain ⟨c, hc, h⟩ := Option.bind_eq_some_iff.1 h
  cases hstage : c.stage with
  | prepared | sent => simp [hstage] at h
  | answered a =>
    cases a with
    | error e =>
      simp only [hstage, complete, Option.some.injEq] at h
      subst h
      exact .failed hc hstage
    | ok u =>
      cases u
      simp only [hstage, complete_ok, Option.some.injEq] at h
      subst h
      exact .succeeded hc hstage

theorem steps_resume {s s' : Actors} (h : s.step .resume = some s') : Steps s .resume s' := by
  simp only [step] at h
  cases hd : s.backend.dispatcher with
  | idle | delivering | stopped => simp [hd] at h
  | losing =>
    simp only [hd, finishEvent, Option.some.injEq] at h
    subst h
    exact .lost hd (ConnectionState.next_eq_closed_iff s.backend.state (by decide))
  | replaying =>
    simp only [hd, finishEvent, Option.some.injEq] at h
    subst h
    exact .connected hd

theorem steps_look {s s' : Actors} (h : s.step .look = some s') : Steps s .look s' := by
  simp only [step] at h
  split at h
  · next hs =>
    cases h
    exact .looks hs
  · next hs =>
    cases h
    exact .stops hs
  · next hs =>
    cases h
    exact .stops hs
  · cases h

theorem steps_ask {s s' : Actors} (h : s.step .ask = some s') : Steps s .ask s' := by
  simp only [step] at h
  split at h
  · next hl =>
    simp only [Option.some.injEq] at h
    subst h
    unfold Backend.ask
    split
    · split
      · simpa [stopReplay] using Steps.idles hl
      · simpa using Steps.asked hl ‹_›
    all_goals simpa using Steps.idles hl
  · cases h

theorem steps_attempted {s s' : Actors} {now : Nat} {a : Answer}
    (h : s.step (.attempted now a) = some s') : Steps s (.attempted now a) s' := by
  simp only [step] at h
  cases hr : s.backend.replay with
  | none | due | sleeping => simp [hr] at h
  | asking n topics =>
    simp only [hr, Option.some.injEq] at h
    subst h
    cases a with
    | ok u =>
      rw [attempted_ok hr]
      exact .attempted
    | error e =>
      rw [attempted_error hr]
      exact .attempted

theorem steps_straggle {s s' : Actors} (h : s.step .straggle = some s') :
    Steps s .straggle s' := by
  simp only [step, ask_due] at h
  split at h
  · cases h
  · next hs =>
    cases h
    by_cases ht : s.backend.downlinkTopics = []
    · simpa [ht] using Steps.faded hs ht
    · simpa [ht] using Steps.straggled hs ht

theorem steps_of_step {s s' : Actors} {a : Act} (h : s.step a = some s') : Steps s a s' := by
  cases a with
  | call op =>
    simp only [step] at h
    split at h
    · next e he =>
      cases h
      exact .refused he
    · next request event hp =>
      cases h
      exact .called hp
  | send i =>
    obtain ⟨c, hc, h⟩ := Option.bind_eq_some_iff.1 h
    split at h <;> cases h
    exact .sent hc ‹_›
  | accept i =>
    obtain ⟨c, hc, h⟩ := Option.bind_eq_some_iff.1 h
    split at h <;> cases h
    exact .accepted hc ‹_› ‹_›
  | refuse i e =>
    obtain ⟨c, hc, h⟩ := Option.bind_eq_some_iff.1 h
    split at h <;> cases h
    exact .declined hc ‹_›
  | finish i => exact steps_finish h
  | shutDown =>
    cases h
    exact .shut
  | close =>
    simp only [step] at h
    split at h
    · next hc =>
      cases h
      exact .wasClosed hc
    · next hc =>
      cases h
      exact .closes hc
  | disconnect =>
    simp only [step] at h
    split at h <;> cases h
    exact .disconnects ‹_›
  | closed a =>
    simp only [step] at h
    split at h <;> cases h
    exact .closed ‹_›
  | event e =>
    obtain ⟨_, _, _, _, hb, hc, -⟩ := s.backend.takeEvent_frame s.handled.length e
    simp only [step] at h
    split at h
    · next hd =>
      cases h
      rw [hb]
      exact .event hd hb hc
    · cases h
  | resume => exact steps_resume h
  | moveUp =>
    simp only [step] at h
    split at h
    · next hd =>
      cases h
      exact .movedUp hd.1 hd.2
    · cases h
  | halt =>
    simp only [step] at h
    split at h
    · next hd =>
      cases h
      exact .halted hd
    · cases h
  | receive =>
    simp only [step, Downlink.Channel.pull] at h
    cases hb : s.backend.downlinks.buffer with
    | nil =>
      cases hw : s.backend.downlinks.hasWriter <;> simp [hb, hw] at h <;> subst h <;>
        exact .nothing hb
    | cons f rest =>
      simp [hb] at h
      subst h
      exact .received hb
  | dropReceiver =>
    cases h
    refine .left fun hd => ?_
    simp [hd]
  | look => exact steps_look h
  | ask => exact steps_ask h
  | attempted now a => exact steps_attempted h
  | awaken =>
    simp only [step] at h
    cases hr : s.backend.replay with
    | none | due | asking => simp [hr] at h
    | sleeping n wake =>
      simp only [hr, awaken_sleeping hr, Option.some.injEq] at h
      subst h
      exact .awakened
  | straggle => exact steps_straggle h
  | vanish =>
    simp only [step] at h
    split at h <;> cases h
    exact .vanished ‹_›

structure Sound (s : Actors) : Prop where
  state : s.backend.state = .closed ↔ s.closing ≠ .none
  stopping : s.backend.stopping = true ↔ s.closing ≠ .none
  stopped : s.closing = .ended → s.backend.dispatcher = .stopped

theorem sound_start (topics : Topic.Topics) (options : Options) :
    (start topics options).Sound := by
  constructor <;> simp [start, Backend.start, transition, ConnectionState.next]

theorem sound_step {s s' : Actors} {a : Act} (hs : s.Sound) (h : s.step a = some s') :
    s'.Sound := by
  have hstopped : s.backend.dispatcher ≠ .stopped → s.closing ≠ .ended :=
    fun hd ho => hd (hs.stopped ho)
  cases steps_of_step h with
  | refused | called | sent | accepted | declined | failed | succeeded | shut | wasClosed
  | received | nothing | stops | looks | idles | asked | attempted | awakened | straggled
  | faded | vanished => exact ⟨hs.state, hs.stopping, hs.stopped⟩
  | closes => constructor <;> simp [markClosed]
  | disconnects hc =>
    have hstate := hs.state
    have hstop := hs.stopping
    simp only [hc] at hstate hstop
    constructor <;> simp [stopReplay, hstate, hstop]
  | closed hc =>
    have hstate := hs.state
    have hstop := hs.stopping
    simp only [hc] at hstate hstop
    constructor <;> simp [stopDispatcher, hstate, hstop]
  | event hd _ hc | lost hd hc =>
    refine ⟨hc.trans hs.state, hs.stopping, fun ho => ?_⟩
    exact absurd ho (hstopped (by simp [hd]))
  | connected hd | movedUp hd =>
    refine ⟨hs.state, hs.stopping, fun ho => ?_⟩
    exact absurd ho (hstopped (by simp [hd]))
  | halted => exact ⟨hs.state, hs.stopping, fun _ => rfl⟩
  | left hd => exact ⟨hs.state, hs.stopping, fun ho => hd (hs.stopped ho)⟩

theorem sound_run {s s' : Actors} {acts : List Act} (hs : s.Sound) (h : s.run acts = some s') :
    s'.Sound :=
  Runs.invariant (fun _ _ _ _ hs => sound_step hs) h hs

end Actors

end Backend

end LoraBridge
