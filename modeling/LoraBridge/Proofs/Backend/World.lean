import LoraBridge.Proofs.Backend.Ledger
import LoraBridge.Proofs.Backend.System
import LoraBridge.Proofs.Runs

/-! A backend and a broker that accepts everything and starts every connection without
subscriptions. Calls for one gateway do not overlap. A request stays on its way when the
connection is lost, and a batch also when the replay that made it is given up: the broker
may process it later, on another connection. -/
namespace LoraBridge.Backend

structure World where
  sys : System
  events : List Transport.Event
  link : Bool
  subs : List String
  ledger : Ledger

/-- What a backend does without its broker and its registry. -/
def System.Act.inner : System.Act → Bool
  | .receive | .dropReceiver | .awaken | .pass _ => true
  | .call _ | .answer .. | .close | .closed _ | .event _ | .resume | .attempt _ | .attempted _ =>
    false

namespace World

def start (topics : Topic.Topics) (options : Options) : World :=
  ⟨.start topics options, [], false, [], .start⟩

inductive Act where
  | call (op : Operation)
  | process (i : Nat)
  /-- An operation succeeds, and the registry follows. -/
  | finish (i : Nat)
  | fail (i : Nat) (e : Transport.Error)
  | up
  | down (reason : String)
  | message (topic : String) (payload : List UInt8)
  | take
  | resume
  | ask
  | accept
  | refuse (e : Transport.Error)
  /-- The broker processes a batch that nobody waits for. -/
  | adopt (j : Nat)
  | discard (j : Nat)
  | inner (a : System.Act)

def step (w : World) : Act → Option World
  | .call op =>
    if w.sys.pending.any op.clashes then none
    else (w.sys.step (.call op)).map fun sys => { w with sys }
  | .process i => do
    let op ← w.sys.pending[i]?
    let (g, subscribes) ← op.change?
    let topic ← (w.sys.backend.topics.render .downlink g).toOption
    if w.link && (w.ledger.underway g).isNone then
      some { w with
        subs := if subscribes then w.subs.insert topic else w.subs.filter (· != topic)
        ledger := w.ledger.process g subscribes }
    else none
  | .finish i => do
    let op ← w.sys.pending[i]?
    let ledger ← w.ledger.finish? op
    let sys ← w.sys.step (.answer i (.ok ()))
    some { w with sys, ledger }
  | .fail i e => do
    let op ← w.sys.pending[i]?
    let ledger ← w.ledger.fail? op
    let sys ← w.sys.step (.answer i (.error e))
    some { w with sys, ledger }
  | .up =>
    some { w with
      events := w.events ++ [.connected false]
      link := true
      subs := []
      ledger := w.ledger.connect }
  | .down reason =>
    some { w with
      events := w.events ++ [.connectionLost reason]
      link := false
      subs := []
      ledger := w.ledger.connect }
  | .message topic payload => some { w with events := w.events ++ [.message topic payload] }
  | .take =>
    match w.events with
    | [] => none
    | e :: events => (w.sys.step (.event e)).map fun sys => { w with sys, events }
  | .resume => (w.sys.step .resume).map fun sys =>
    if w.sys.backend.dispatcher = .replaying then
      { w with sys, ledger := w.ledger.look w.sys.backend.registry.gateways }
    else { w with sys }
  | .ask => (w.sys.step (.attempt none)).map fun sys =>
    let gateways := w.sys.backend.registry.gateways
    match sys.backend.replay with
    | .asking .. =>
      { w with sys, ledger := w.ledger.ask gateways (w.sys.backend.downlinkTopics.map Prod.fst) }
    | .none | .due _ | .sleeping .. => { w with sys, ledger := w.ledger.look gateways }
  | .accept => do
    let b ← w.ledger.current
    let sys ← w.sys.step (.attempted (.ok ()))
    if w.link then some { w with sys, subs := b.topics ∪ w.subs, ledger := w.ledger.accept b }
    else none
  | .refuse e => (w.sys.step (.attempted (.error e))).map fun sys =>
    { w with sys, ledger := w.ledger.giveUp }
  | .adopt j => do
    let b ← w.ledger.orphans[j]?
    if w.link then some { w with subs := b.topics ∪ w.subs, ledger := w.ledger.adopt b j }
    else none
  | .discard j => some { w with ledger := w.ledger.discard j }
  | .inner a => if a.inner then (w.sys.step a).map fun sys => { w with sys } else none

def run (w : World) (as : List Act) : Option World :=
  as.foldlM step w

inductive Moves (w : World) : World → Prop where
  | rejected {op e} :
    Moves w { w with sys := { w.sys with
      returned := w.sys.returned ++ [(.operation op, .error e)] } }
  | called {op} (h : ∀ o ∈ w.sys.pending, op.clashes o = false) :
    Moves w { w with sys := { w.sys with pending := w.sys.pending ++ [op] } }
  | processed {op g subscribes topic} (hop : op ∈ w.sys.pending)
    (hc : op.change? = some (g, subscribes))
    (ht : w.sys.backend.topics.render .downlink g = .ok topic)
    (hl : w.link = true) (hn : w.ledger.underway g = none) :
    Moves w { w with
      subs := if subscribes then w.subs.insert topic else w.subs.filter (· != topic)
      ledger := w.ledger.process g subscribes }
  | ended {i op returned} (hop : w.sys.pending[i]? = some op)
    (hn : ∀ g s, op.change? = some (g, s) → w.ledger.underway g = none) :
    Moves w { w with sys := { w.sys with pending := w.sys.pending.eraseIdx i, returned } }
  | finished {i op g subscribes c registry returned} (hop : w.sys.pending[i]? = some op)
    (hc : op.change? = some (g, subscribes)) (hu : w.ledger.underway g = some c)
    (hr : ∀ x, x ∈ registry.gateways ↔
      if x = g then subscribes = true else x ∈ w.sys.backend.registry.gateways) :
    Moves w { w with
      sys := { w.sys with
        backend := { w.sys.backend with registry }
        pending := w.sys.pending.eraseIdx i
        returned }
      ledger := w.ledger.finish g { c with subscribes } }
  | dropped {i op g s c returned} (hop : w.sys.pending[i]? = some op)
    (hc : op.change? = some (g, s)) (hu : w.ledger.underway g = some c)
    (hlt : c.time < w.ledger.since) :
    Moves w { w with
      sys := { w.sys with pending := w.sys.pending.eraseIdx i, returned }
      ledger := w.ledger.drop g }
  | up :
    Moves w { w with
      events := w.events ++ [.connected false]
      link := true
      subs := []
      ledger := w.ledger.connect }
  | down {reason} :
    Moves w { w with
      events := w.events ++ [.connectionLost reason]
      link := false
      subs := []
      ledger := w.ledger.connect }
  | message {topic payload} :
    Moves w { w with events := w.events ++ [.message topic payload] }
  | took {e events state lastError dispatcher downlinks taken} (he : w.events = e :: events)
    (hd : w.sys.backend.dispatcher = .idle)
    (hr : e.isConnected = true → w.sys.backend.state ≠ .closed → dispatcher = .replaying) :
    Moves w { w with
      sys := { w.sys with
        backend := { w.sys.backend with state, lastError, dispatcher, downlinks }
        taken }
      events }
  | lost {state} (h : w.sys.backend.dispatcher = .losing) :
    Moves w { w with sys := { w.sys with
      backend := { w.sys.backend with state, dispatcher := .idle } } }
  | connected {handled} (h : w.sys.backend.dispatcher = .replaying) :
    Moves w { w with
      sys := { w.sys with
        backend := { w.sys.backend with
          dispatcher := .idle
          replay := if w.sys.backend.registry.isEmpty then .none else .due 0 }
        handled }
      ledger := w.ledger.look w.sys.backend.registry.gateways }
  | nothing {n attempts} (h : w.sys.backend.replay = .due n)
    (ht : w.sys.backend.stopping = true ∨ w.sys.backend.downlinkTopics = []) :
    Moves w { w with
      sys := { w.sys with backend := { w.sys.backend with replay := .none }, attempts }
      ledger := w.ledger.look w.sys.backend.registry.gateways }
  | asked {n m topics attempts} (h : w.sys.backend.replay = .due n) :
    Moves w { w with
      sys := { w.sys with backend := { w.sys.backend with replay := .asking m topics }, attempts }
      ledger := w.ledger.ask w.sys.backend.registry.gateways
        (w.sys.backend.downlinkTopics.map Prod.fst) }
  | accepted {n topics b} (h : w.sys.backend.replay = .asking n topics)
    (hb : w.ledger.current = some b) (hl : w.link = true) :
    Moves w { w with
      sys := { w.sys with backend := { w.sys.backend with replay := .none } }
      subs := b.topics ∪ w.subs
      ledger := w.ledger.accept b }
  | refused {n topics replay} (h : w.sys.backend.replay = .asking n topics)
    (hr : w.sys.backend.stopping = false → replay ≠ .none) :
    Moves w { w with
      sys := { w.sys with backend := { w.sys.backend with replay } }
      ledger := w.ledger.giveUp }
  | adopted {j b} (hb : w.ledger.orphans[j]? = some b) (hl : w.link = true) :
    Moves w { w with subs := b.topics ∪ w.subs, ledger := w.ledger.adopt b j }
  | discarded {j} :
    Moves w { w with ledger := w.ledger.discard j }
  | received {dispatcher downlinks}
    (hd : dispatcher = w.sys.backend.dispatcher ∨ w.sys.backend.dispatcher = .delivering) :
    Moves w { w with sys := { w.sys with backend := { w.sys.backend with dispatcher, downlinks } } }
  | awakened {n wake} (h : w.sys.backend.replay = .sleeping n wake) :
    Moves w { w with sys := { w.sys with backend := { w.sys.backend with replay := .due n } } }
  | passed {now} :
    Moves w { w with sys := { w.sys with now } }

theorem moves_finish {w w' : World} {i : Nat} (h : w.step (.finish i) = some w') : Moves w w' := by
  obtain ⟨op, hop, h⟩ := Option.bind_eq_some_iff.1 h
  obtain ⟨ledger, hledger, h⟩ := Option.bind_eq_some_iff.1 h
  obtain ⟨sys, hsys, h⟩ := Option.bind_eq_some_iff.1 h
  cases h
  cases System.steps_of_step hsys with
  | @succeeded i o ho =>
    cases hop.symm.trans ho
    unfold Ledger.finish? at hledger
    cases hc : op.change? with
    | none =>
      rw [hc] at hledger
      cases hledger
      cases op with
      | publish => exact .ended hop nofun
      | subscribe | unsubscribe => cases hc
    | some p =>
      obtain ⟨g, s⟩ := p
      rw [hc] at hledger
      obtain ⟨c, hu, rfl⟩ := Option.map_eq_some_iff.1 hledger
      refine .finished hop hc hu fun x => ?_
      cases op with
      | subscribe =>
        cases hc
        rw [System.recorded, Registry.mem_add]
        by_cases hx : x = g <;> simp only [hx, ↓reduceIte, true_or, false_or]
      | unsubscribe =>
        cases hc
        rw [System.recorded, Registry.mem_remove]
        by_cases hx : x = g <;> simp [hx]
      | publish => cases hc

theorem moves_fail {w w' : World} {i : Nat} {e : Transport.Error}
    (h : w.step (.fail i e) = some w') : Moves w w' := by
  obtain ⟨op, hop, h⟩ := Option.bind_eq_some_iff.1 h
  obtain ⟨ledger, hledger, h⟩ := Option.bind_eq_some_iff.1 h
  obtain ⟨sys, hsys, h⟩ := Option.bind_eq_some_iff.1 h
  cases h
  cases System.steps_of_step hsys with
  | @failed i o e ho =>
    cases hop.symm.trans ho
    unfold Ledger.fail? at hledger
    cases hc : op.change? with
    | none =>
      rw [hc] at hledger
      cases hledger
      exact .ended hop fun g s hs => absurd (hc.symm.trans hs) nofun
    | some p =>
      obtain ⟨g, s⟩ := p
      simp only [hc] at hledger
      cases hu : w.ledger.underway g with
      | none =>
        simp only [hu, Option.some.injEq] at hledger
        subst hledger
        refine .ended hop fun g' s' hs => ?_
        cases hc.symm.trans hs
        exact hu
      | some c =>
        simp only [hu] at hledger
        split at hledger
        · next hlt =>
          cases hledger
          exact .dropped hop hc hu hlt
        · cases hledger

theorem moves_of_step {w w' : World} {a : Act} (h : w.step a = some w') : Moves w w' := by
  cases a with
  | call op =>
    simp only [step] at h
    split at h
    · cases h
    next hclash =>
    obtain ⟨sys, hsys, rfl⟩ := Option.map_eq_some_iff.1 h
    cases System.steps_of_step hsys with
    | refused => exact .rejected
    | called =>
      refine .called fun o ho => Bool.not_eq_true _ ▸ fun hc => hclash ?_
      exact List.any_eq_true.2 ⟨o, ho, hc⟩
  | process i =>
    obtain ⟨op, hop, h⟩ := Option.bind_eq_some_iff.1 h
    obtain ⟨⟨g, s⟩, hc, h⟩ := Option.bind_eq_some_iff.1 h
    obtain ⟨topic, ht, h⟩ := Option.bind_eq_some_iff.1 h
    split at h
    · next hand =>
      cases h
      obtain ⟨hl, hn⟩ := Bool.and_eq_true_iff.1 hand
      cases hrender : w.sys.backend.topics.render .downlink g with
      | error e =>
        rw [hrender] at ht
        cases ht
      | ok t =>
        rw [hrender] at ht
        cases ht
        exact .processed (List.mem_of_getElem? hop) hc hrender hl (Option.isNone_iff_eq_none.1 hn)
    · cases h
  | finish i => exact moves_finish h
  | fail i e => exact moves_fail h
  | up =>
    cases h
    exact .up
  | down reason =>
    cases h
    exact .down
  | message topic payload =>
    cases h
    exact .message
  | take =>
    simp only [step] at h
    split at h
    · cases h
    next e events he =>
    obtain ⟨sys, hsys, rfl⟩ := Option.map_eq_some_iff.1 h
    cases System.steps_of_step hsys with
    | event hd _ hr => exact .took he hd hr
  | resume =>
    obtain ⟨sys, hsys, rfl⟩ := Option.map_eq_some_iff.1 h
    cases System.steps_of_step hsys with
    | lost hd =>
      rw [hd, if_neg nofun]
      exact .lost hd
    | connected hd =>
      rw [hd, if_pos rfl]
      exact .connected hd
  | ask =>
    obtain ⟨sys, hsys, rfl⟩ := Option.map_eq_some_iff.1 h
    cases System.steps_of_step hsys with
    | nothing hr ht => exact .nothing hr ht
    | asked hr => exact .asked hr
  | accept =>
    obtain ⟨b, hb, h⟩ := Option.bind_eq_some_iff.1 h
    obtain ⟨sys, hsys, h⟩ := Option.bind_eq_some_iff.1 h
    split at h
    · next hl =>
      cases h
      cases System.steps_of_step hsys with
      | settled hr => exact .accepted hr hb hl
    · cases h
  | refuse e =>
    obtain ⟨sys, hsys, rfl⟩ := Option.map_eq_some_iff.1 h
    cases System.steps_of_step hsys with
    | postponed hr hne => exact .refused hr hne
  | adopt j =>
    obtain ⟨b, hb, h⟩ := Option.bind_eq_some_iff.1 h
    split at h
    · next hl =>
      cases h
      exact .adopted hb hl
    · cases h
  | discard j =>
    cases h
    exact .discarded
  | inner a =>
    simp only [step] at h
    split at h
    · next ha =>
      obtain ⟨sys, hsys, rfl⟩ := Option.map_eq_some_iff.1 h
      cases System.steps_of_step hsys with
      | received hd | left hd => exact .received hd
      | awakened hr => exact .awakened hr
      | passed => exact .passed
      | _ => cases ha
    · cases h

/-- The backend takes a step of its own or none, and is never closed. -/
theorem sys_of_step {w w' : World} {a : Act} (h : w.step a = some w') :
    w'.sys = w.sys ∨ ∃ b, w.sys.step b = some w'.sys ∧ b ≠ .close := by
  cases a with
  | call op =>
    simp only [step] at h
    split at h
    · cases h
    obtain ⟨sys, hsys, rfl⟩ := Option.map_eq_some_iff.1 h
    exact .inr ⟨_, hsys, nofun⟩
  | process i =>
    obtain ⟨op, -, h⟩ := Option.bind_eq_some_iff.1 h
    obtain ⟨⟨g, s⟩, -, h⟩ := Option.bind_eq_some_iff.1 h
    obtain ⟨topic, -, h⟩ := Option.bind_eq_some_iff.1 h
    split at h <;> cases h
    exact .inl rfl
  | finish i | fail i =>
    obtain ⟨op, -, h⟩ := Option.bind_eq_some_iff.1 h
    obtain ⟨ledger, -, h⟩ := Option.bind_eq_some_iff.1 h
    obtain ⟨sys, hsys, h⟩ := Option.bind_eq_some_iff.1 h
    cases h
    exact .inr ⟨_, hsys, nofun⟩
  | up | down reason | message topic payload | discard j =>
    cases h
    exact .inl rfl
  | take =>
    simp only [step] at h
    split at h
    · cases h
    obtain ⟨sys, hsys, rfl⟩ := Option.map_eq_some_iff.1 h
    exact .inr ⟨_, hsys, nofun⟩
  | resume =>
    obtain ⟨sys, hsys, rfl⟩ := Option.map_eq_some_iff.1 h
    split <;> exact .inr ⟨_, hsys, nofun⟩
  | ask =>
    obtain ⟨sys, hsys, rfl⟩ := Option.map_eq_some_iff.1 h
    split <;> exact .inr ⟨_, hsys, nofun⟩
  | accept =>
    obtain ⟨b, -, h⟩ := Option.bind_eq_some_iff.1 h
    obtain ⟨sys, hsys, h⟩ := Option.bind_eq_some_iff.1 h
    split at h <;> cases h
    exact .inr ⟨_, hsys, nofun⟩
  | refuse e =>
    obtain ⟨sys, hsys, rfl⟩ := Option.map_eq_some_iff.1 h
    exact .inr ⟨_, hsys, nofun⟩
  | adopt j =>
    obtain ⟨b, -, h⟩ := Option.bind_eq_some_iff.1 h
    split at h <;> cases h
    exact .inl rfl
  | inner a =>
    simp only [step] at h
    split at h
    · next ha =>
      obtain ⟨sys, hsys, rfl⟩ := Option.map_eq_some_iff.1 h
      refine .inr ⟨a, hsys, fun hclose => ?_⟩
      rw [hclose] at ha
      cases ha
    · cases h

structure Running (topics : Topic.Topics) (w : World) : Prop where
  sound : w.sys.Sound
  opened : w.sys.backend.state ≠ .closed
  topics : w.sys.backend.topics = topics

theorem running_start (topics : Topic.Topics) (options : Options) :
    (start topics options).Running topics :=
  ⟨System.sound_start topics options, nofun, rfl⟩

theorem running_step {topics : Topic.Topics} {w w' : World} {a : Act} (hw : w.Running topics)
    (h : w.step a = some w') : w'.Running topics := by
  rcases sys_of_step h with heq | ⟨b, hstep, hb⟩
  · exact ⟨heq ▸ hw.sound, heq ▸ hw.opened, heq ▸ hw.topics⟩
  · exact ⟨System.sound_step hw.sound hstep, System.open_step hstep hb hw.opened,
      (System.config_step hstep).1.trans hw.topics⟩

end World

end LoraBridge.Backend
