import Mathlib.Data.List.Forall2
import LoraBridge.Backend.Basic
import LoraBridge.Proofs.Runs
import LoraBridge.Transport.Acks

/-! A backend with its callers, its broker and its clock, as a transition system. The
operations of callers, the dispatcher, the replay of the registry and the receiver of
frames take their steps in any order, and the broker answers as it likes. The clock
moves only while nobody has something to do. -/
namespace LoraBridge.Backend

open Transport (Request Answer)

inductive Call where
  | operation (op : Operation)
  | close

structure Attempt where
  time : Nat
  number : Nat
  registry : Registry
  request : Option Request
  answer : Option Answer

structure System where
  backend : Backend
  now : Nat
  taken : Nat
  handled : Nat
  pending : List Operation
  closing : Bool
  returned : List (Call × Except Error Unit)
  attempts : List Attempt

@[simp] theorem mem_downlinkTopics {b : Backend} {t : String} : t ∈ b.downlinkTopics.map Prod.fst ↔
    ∃ g ∈ b.registry.gateways, b.topics.render .downlink g = .ok t := by
  simp only [downlinkTopics, List.mem_map, List.mem_filterMap]
  constructor
  · rintro ⟨p, ⟨g, hg, hp⟩, rfl⟩
    split at hp
    · next topic ht =>
      cases hp
      exact ⟨g, hg, ht⟩
    · cases hp
  · rintro ⟨g, hg, ht⟩
    exact ⟨(t, .atMostOnce), ⟨g, hg, by rw [ht]⟩, rfl⟩

theorem forall₂_downlinkTopics {b : Backend}
    (h : ∀ g ∈ b.registry.gateways, ∃ topic, b.topics.render .downlink g = .ok topic) :
    List.Forall₂ (fun g p => b.topics.render .downlink g = .ok p.1 ∧ p.2 = .atMostOnce)
      b.registry.gateways b.downlinkTopics := by
  unfold downlinkTopics
  generalize b.registry.gateways = gs at h
  induction gs with
  | nil => exact .nil
  | cons g gs ih =>
    obtain ⟨topic, ht⟩ := h g List.mem_cons_self
    rw [List.filterMap_cons_some (b := (topic, .atMostOnce)) (by rw [ht])]
    exact .cons ⟨ht, rfl⟩ (ih fun g hg => h g (List.mem_cons_of_mem _ hg))

theorem gateways_eq_nil_iff {b : Backend}
    (h : ∀ g ∈ b.registry.gateways, ∃ topic, b.topics.render .downlink g = .ok topic) :
    b.registry.gateways = [] ↔ b.downlinkTopics = [] := by
  have hlen := (forall₂_downlinkTopics h).length_eq
  rw [← List.length_eq_zero_iff, ← List.length_eq_zero_iff, hlen]

namespace System

def start (topics : Topic.Topics) (options : Options) : System :=
  ⟨(Backend.start topics options).1, 0, 0, 0, [], false, [], []⟩

def sampleTopics : Topic.Topics where
  uplink := ⟨"gateway/\x7b\x7b .MAC \x7d\x7d/rx", "gateway/", "/rx"⟩
  downlink := ⟨"gateway/\x7b\x7b .MAC \x7d\x7d/tx", "gateway/", "/tx"⟩
  stats := ⟨"gateway/\x7b\x7b .MAC \x7d\x7d/stats", "gateway/", "/stats"⟩
  ack := ⟨"gateway/\x7b\x7b .MAC \x7d\x7d/ack", "gateway/", "/ack"⟩

def quiet (s : System) (time : Nat) : Bool :=
  let handling := match s.backend.dispatcher with
    | .losing | .replaying => true
    | .idle | .delivering | .stopped => false
  !handling && match s.backend.replay with
    | .none | .asking .. => true
    | .due _ => false
    | .sleeping _ wake => time ≤ wake

theorem replay_of_quiet {s : System} {time : Nat} (h : s.quiet time = true) :
    (∀ n, s.backend.replay ≠ .due n) ∧
      ∀ n wake, s.backend.replay = .sleeping n wake → time ≤ wake := by
  have hr := (Bool.and_eq_true_iff.1 h).2
  cases hreplay : s.backend.replay <;> rw [hreplay] at hr
  · exact ⟨nofun, nofun⟩
  · cases hr
  · exact ⟨nofun, nofun⟩
  · refine ⟨nofun, fun n wake heq => ?_⟩
    cases heq
    exact of_decide_eq_true hr

def attempt (s : System) (answer : Option Answer) : Option System :=
  match s.backend.replay with
  | .due n =>
    let (b, request, _) := s.backend.attempt
    let answer := if request.isSome then answer else none
    let b := match answer with
      | some a => (b.attempted s.now a).1
      | none => b
    some { s with
      backend := b
      attempts := s.attempts ++ [⟨s.now, n + 1, s.backend.registry, request, answer⟩] }
  | .none | .asking .. | .sleeping .. => none

inductive Act where
  | call (op : Operation)
  | answer (i : Nat) (a : Answer)
  | close
  | closed (a : Answer)
  | event (e : Transport.Event)
  | resume
  | receive
  | dropReceiver
  | attempt (answer : Option Answer)
  | attempted (a : Answer)
  | awaken
  | pass (millis : Nat)

def step (s : System) : Act → Option System
  | .call op =>
    match s.backend.prepare op with
    | .error e => some { s with returned := s.returned ++ [(.operation op, .error e)] }
    | .ok _ => some { s with pending := s.pending ++ [op] }
  | .answer i a =>
    match s.pending[i]? with
    | none => none
    | some op =>
      let (b, result) := s.backend.complete op a
      some { s with
        backend := b
        pending := s.pending.eraseIdx i
        returned := s.returned ++ [(.operation op, result)] }
  | .close =>
    let (b, request, _) := s.backend.beginClose
    match request with
    | none => some { s with returned := s.returned ++ [(.close, .ok ())] }
    | some _ => some { s with backend := b, closing := true }
  | .closed a =>
    if s.closing then
      let (b, result, _) := s.backend.finishClose a
      some { s with backend := b, closing := false, returned := s.returned ++ [(.close, result)] }
    else none
  | .event e =>
    if s.backend.dispatcher = .idle then
      some { s with backend := (s.backend.takeEvent s.taken e).1, taken := s.taken + 1 }
    else none
  | .resume =>
    match s.backend.dispatcher with
    | .losing => some { s with backend := s.backend.finishEvent.1 }
    | .replaying => some { s with backend := s.backend.finishEvent.1, handled := s.handled + 1 }
    | .idle | .delivering | .stopped => none
  | .receive => some { s with backend := s.backend.receive.2 }
  | .dropReceiver => some { s with backend := s.backend.dropReceiver.1 }
  | .attempt answer => s.attempt answer
  | .attempted a =>
    match s.backend.replay with
    | .asking .. => some { s with backend := (s.backend.attempted s.now a).1 }
    | .none | .due _ | .sleeping .. => none
  | .awaken =>
    match s.backend.wake? with
    | some wake => if wake ≤ s.now then some { s with backend := s.backend.awaken } else none
    | none => none
  | .pass millis => if s.quiet (s.now + millis) then some { s with now := s.now + millis } else none

def run (s : System) (as : List Act) : Option System :=
  as.foldlM step s

def recorded (r : Registry) : Call × Except Error Unit → Registry
  | (.operation (.subscribe gateway), .ok ()) => r.add gateway
  | (.operation (.unsubscribe gateway), .ok ()) => r.remove gateway
  | _ => r

inductive Steps (s : System) : Act → System → Prop where
  | refused {op e} (h : s.backend.prepare op = .error e) :
    Steps s (.call op) { s with returned := s.returned ++ [(.operation op, .error e)] }
  | called {op p} (h : s.backend.prepare op = .ok p) :
    Steps s (.call op) { s with pending := s.pending ++ [op] }
  | failed {i op e} (h : s.pending[i]? = some op) :
    Steps s (.answer i (.error e)) { s with
      pending := s.pending.eraseIdx i
      returned := s.returned ++ [(.operation op, .error (.ofTransport e))] }
  | succeeded {i op} (h : s.pending[i]? = some op) :
    Steps s (.answer i (.ok ())) { s with
      backend := { s.backend with
        registry := recorded s.backend.registry (.operation op, .ok ()) }
      pending := s.pending.eraseIdx i
      returned := s.returned ++ [(.operation op, .ok ())] }
  | wasClosed (h : s.backend.state = .closed) :
    Steps s .close { s with returned := s.returned ++ [(.close, .ok ())] }
  | closes (h : s.backend.state ≠ .closed) :
    Steps s .close { s with
      backend := { s.backend with state := .closed, stopping := true, replay := .none }
      closing := true }
  | closed {a r} (h : s.closing = true) :
    Steps s (.closed a) { s with
      backend := s.backend.stopDispatcher
      closing := false
      returned := s.returned ++ [(.close, r)] }
  | event {e state lastError dispatcher downlinks} (h : s.backend.dispatcher = .idle)
    (hc : state = .closed ↔ s.backend.state = .closed)
    (hr : e.isConnected = true → s.backend.state ≠ .closed → dispatcher = .replaying) :
    Steps s (.event e) { s with
      backend := { s.backend with state, lastError, dispatcher, downlinks }
      taken := s.taken + 1 }
  | lost {state} (h : s.backend.dispatcher = .losing)
    (hc : state = .closed ↔ s.backend.state = .closed) :
    Steps s .resume { s with backend := { s.backend with state, dispatcher := .idle } }
  | connected (h : s.backend.dispatcher = .replaying) :
    Steps s .resume { s with
      backend := { s.backend with
        dispatcher := .idle
        replay := if s.backend.registry.isEmpty then .none else .due 0 }
      handled := s.handled + 1 }
  | received {dispatcher downlinks}
    (hd : dispatcher = s.backend.dispatcher ∨ s.backend.dispatcher = .delivering) :
    Steps s .receive { s with backend := { s.backend with dispatcher, downlinks } }
  | left {dispatcher downlinks}
    (hd : dispatcher = s.backend.dispatcher ∨ s.backend.dispatcher = .delivering) :
    Steps s .dropReceiver { s with backend := { s.backend with dispatcher, downlinks } }
  | nothing {answer n} (h : s.backend.replay = .due n)
    (ht : s.backend.stopping = true ∨ s.backend.downlinkTopics = []) :
    Steps s (.attempt answer) { s with
      backend := { s.backend with replay := .none }
      attempts := s.attempts ++ [⟨s.now, n + 1, s.backend.registry, none, none⟩] }
  | asked {n} (h : s.backend.replay = .due n) (hs : s.backend.stopping = false)
    (ht : s.backend.downlinkTopics ≠ []) :
    Steps s (.attempt none) { s with
      backend := { s.backend with replay := .asking (n + 1) s.backend.downlinkTopics.length }
      attempts := s.attempts ++
        [⟨s.now, n + 1, s.backend.registry, some (.subscribeMany s.backend.downlinkTopics), none⟩] }
  | accepted {n} (h : s.backend.replay = .due n) (hs : s.backend.stopping = false)
    (ht : s.backend.downlinkTopics ≠ []) :
    Steps s (.attempt (some (.ok ()))) { s with
      backend := { s.backend with replay := .none }
      attempts := s.attempts ++ [⟨s.now, n + 1, s.backend.registry,
        some (.subscribeMany s.backend.downlinkTopics), some (.ok ())⟩] }
  | rejected {n e} (h : s.backend.replay = .due n) (hs : s.backend.stopping = false)
    (ht : s.backend.downlinkTopics ≠ []) :
    Steps s (.attempt (some (.error e))) { s with
      backend := { s.backend with
        replay := .sleeping (n + 1) (s.now + s.backend.options.resubscribeDelay.millis) }
      attempts := s.attempts ++ [⟨s.now, n + 1, s.backend.registry,
        some (.subscribeMany s.backend.downlinkTopics), some (.error e)⟩] }
  | settled {n topics} (h : s.backend.replay = .asking n topics) :
    Steps s (.attempted (.ok ())) { s with backend := { s.backend with replay := .none } }
  | postponed {n topics e replay} (h : s.backend.replay = .asking n topics)
    (hr : s.backend.stopping = false → replay ≠ .none)
    (ha : ∀ n topics, replay ≠ .asking n topics) :
    Steps s (.attempted (.error e)) { s with backend := { s.backend with replay } }
  | awakened {n wake} (h : s.backend.replay = .sleeping n wake) (hw : wake ≤ s.now) :
    Steps s .awaken { s with backend := { s.backend with replay := .due n } }
  | passed {millis} (h : s.quiet (s.now + millis) = true) :
    Steps s (.pass millis) { s with now := s.now + millis }

theorem steps_attempt {s s' : System} {answer : Option Answer} (h : s.attempt answer = some s') :
    Steps s (.attempt answer) s' := by
  unfold System.attempt at h
  split at h
  · next n hr =>
    by_cases ht : s.backend.stopping = true ∨ s.backend.downlinkTopics = []
    · rw [attempt_nothing hr ht] at h
      cases h
      exact .nothing hr ht
    · rw [not_or, Bool.not_eq_true] at ht
      obtain ⟨logs, hb⟩ := attempt_asking hr ht.1 ht.2
      rw [hb] at h
      cases answer with
      | none =>
        cases h
        exact .asked hr ht.1 ht.2
      | some a =>
        simp only [Option.isSome_some, ↓reduceIte, Option.some.injEq] at h
        subst h
        cases a with
        | ok u =>
          rw [attempted_ok rfl]
          exact .accepted hr ht.1 ht.2
        | error e =>
          have hs : ¬ s.backend.stopping = true := Bool.not_eq_true _ ▸ ht.1
          rw [attempted_error rfl, if_neg hs]
          exact .rejected hr ht.1 ht.2
  all_goals cases h

theorem steps_of_step {s s' : System} {a : Act} (h : s.step a = some s') : Steps s a s' := by
  cases a with
  | call op =>
    simp only [step] at h
    split at h
    · next e he =>
      cases h
      exact .refused he
    · next p hp =>
      cases h
      exact .called hp
  | answer i answer =>
    simp only [step] at h
    split at h
    · cases h
    next op hop =>
    cases h
    cases answer with
    | error e => exact .failed hop
    | ok u => cases op <;> exact .succeeded hop
  | close =>
    simp only [step] at h
    rcases s.backend.beginClose_frame with ⟨hc, hb⟩ | ⟨hc, logs, hb⟩
    · rw [hb] at h
      cases h
      exact .wasClosed hc
    · rw [hb] at h
      cases h
      exact .closes hc
  | closed answer =>
    simp only [step] at h
    split at h
    · next hc =>
      cases h
      exact .closed hc
    · cases h
  | event e =>
    obtain ⟨_, _, _, _, hb, hc, hr⟩ := s.backend.takeEvent_frame s.taken e
    simp only [step, hb] at h
    split at h
    · next hd =>
      cases h
      exact .event hd hc hr
    · cases h
  | resume =>
    simp only [step] at h
    split at h
    · next hd =>
      cases h
      simp only [finishEvent, hd]
      exact .lost hd (ConnectionState.next_eq_closed_iff s.backend.state nofun)
    · next hd =>
      cases h
      simp only [finishEvent, hd]
      exact .connected hd
    all_goals cases h
  | receive =>
    cases h
    refine .received ?_
    by_cases hd : s.backend.dispatcher = .delivering
    · exact .inr hd
    · simp only [hd, false_and, ↓reduceIte, true_or]
  | dropReceiver =>
    cases h
    refine .left ?_
    by_cases hd : s.backend.dispatcher = .delivering
    · exact .inr hd
    · simp only [hd, ↓reduceIte, true_or]
  | attempt answer => exact steps_attempt h
  | attempted answer =>
    simp only [step] at h
    split at h
    · next n topics hr =>
      cases h
      cases answer with
      | ok u =>
        rw [attempted_ok hr]
        exact .settled hr
      | error e =>
        rw [attempted_error hr]
        refine .postponed hr (fun hs => ?_) fun n topics => ?_
        · rw [if_neg (Bool.not_eq_true _ ▸ hs)]
          nofun
        · split <;> nofun
    all_goals cases h
  | awaken =>
    simp only [step] at h
    unfold wake? at h
    cases hr : s.backend.replay with
    | sleeping n wake =>
      simp only [hr, awaken_sleeping hr] at h
      split at h
      · next hle =>
        cases h
        exact .awakened hr hle
      · cases h
    | none | due | asking =>
      simp only [hr] at h
      cases h
  | pass millis =>
    simp only [step] at h
    split at h
    · next hq =>
      cases h
      exact .passed hq
    · cases h

theorem config_step {s s' : System} {a : Act} (h : s.step a = some s') :
    s'.backend.topics = s.backend.topics ∧ s'.backend.options = s.backend.options := by
  cases steps_of_step h <;> exact ⟨rfl, rfl⟩

theorem config_run {s s' : System} {acts : List Act} (h : s.run acts = some s') :
    s'.backend.topics = s.backend.topics ∧ s'.backend.options = s.backend.options := by
  refine Runs.invariant (P := fun t => t.backend.topics = s.backend.topics ∧
    t.backend.options = s.backend.options) (fun t a t' _ ht hstep => ?_) h ⟨rfl, rfl⟩
  obtain ⟨htopics, hoptions⟩ := config_step hstep
  exact ⟨htopics.trans ht.1, hoptions.trans ht.2⟩

structure Sound (s : System) : Prop where
  stopping : s.backend.stopping = true → s.backend.state = .closed
  closing : s.closing = true → s.backend.state = .closed
  registered : ∀ g ∈ s.backend.registry.gateways,
    ∃ topic, s.backend.topics.render .downlink g = .ok topic
  pending : ∀ op ∈ s.pending, ∃ topic, s.backend.topics.render op.role op.gateway = .ok topic

theorem sound_start (topics : Topic.Topics) (options : Options) : (start topics options).Sound where
  stopping := nofun
  closing := nofun
  registered _ h := absurd h List.not_mem_nil
  pending _ h := absurd h List.not_mem_nil

theorem mem_recorded {r : Registry} {p : Call × Except Error Unit} {g : Eui}
    (h : g ∈ (recorded r p).gateways) :
    g ∈ r.gateways ∨ p = (.operation (.subscribe g), .ok ()) := by
  unfold recorded at h
  split at h
  · rcases Registry.mem_add.1 h with rfl | h
    · exact .inr rfl
    · exact .inl h
  · exact .inl (Registry.mem_remove.1 h).1
  · exact .inl h

theorem sound_step {s s' : System} {a : Act} (hs : s.Sound) (h : s.step a = some s') :
    s'.Sound := by
  have hpending : ∀ i, ∀ op ∈ s.pending.eraseIdx i,
      ∃ topic, s.backend.topics.render op.role op.gateway = .ok topic :=
    fun i op hop => hs.pending op (List.mem_of_mem_eraseIdx hop)
  cases steps_of_step h with
  | refused | wasClosed | passed | nothing | asked | accepted | rejected | settled | postponed
  | awakened | connected | received | left => exact ⟨hs.stopping, hs.closing, hs.registered, hs.pending⟩
  | @called op p hp =>
    refine ⟨hs.stopping, hs.closing, hs.registered, fun o ho => ?_⟩
    rcases List.mem_append.1 ho with ho | ho
    · exact hs.pending o ho
    · rw [List.mem_singleton.1 ho]
      exact rendered_of_prepare hp
  | @failed i => exact ⟨hs.stopping, hs.closing, hs.registered, hpending i⟩
  | @succeeded i op hop =>
    refine ⟨hs.stopping, hs.closing, fun g hg => ?_, hpending i⟩
    rcases mem_recorded hg with hg | hg
    · exact hs.registered g hg
    · have hsub : op = .subscribe g := Call.operation.inj (Prod.mk.inj hg).1
      obtain ⟨topic, ht⟩ := hs.pending op (List.mem_of_getElem? hop)
      rw [hsub] at ht
      exact ⟨topic, ht⟩
  | closes => exact ⟨fun _ => rfl, fun _ => rfl, hs.registered, hs.pending⟩
  | closed => exact ⟨hs.stopping, nofun, hs.registered, hs.pending⟩
  | event _ hc | lost _ hc =>
    exact ⟨fun h => hc.2 (hs.stopping h), fun h => hc.2 (hs.closing h), hs.registered, hs.pending⟩

theorem sound_run {topics : Topic.Topics} {options : Options} {acts : List Act} {s : System}
    (h : (start topics options).run acts = some s) : s.Sound :=
  Runs.invariant (fun _ _ _ _ hs => sound_step hs) h (sound_start topics options)

private theorem closed_step {s s' : System} {a : Act} (h : s.step a = some s')
    (hc : s.backend.state = .closed) : s'.backend.state = .closed := by
  cases steps_of_step h with
  | closes => rfl
  | event _ hiff | lost _ hiff => exact hiff.2 hc
  | refused | called | failed | succeeded | wasClosed | closed | connected | received | left
  | nothing | asked | accepted | rejected | settled | postponed | awakened | passed => exact hc

theorem open_step {s s' : System} {a : Act} (h : s.step a = some s') (ha : a ≠ .close)
    (ho : s.backend.state ≠ .closed) : s'.backend.state ≠ .closed := by
  cases steps_of_step h with
  | closes => exact absurd rfl ha
  | event _ hiff | lost _ hiff => exact fun hc => ho (hiff.1 hc)
  | refused | called | failed | succeeded | wasClosed | closed | connected | received | left
  | nothing | asked | accepted | rejected | settled | postponed | awakened | passed => exact ho

theorem closed_run {s s' : System} {acts : List Act} (h : s.run acts = some s')
    (hc : s.backend.state = .closed) : s'.backend.state = .closed :=
  Runs.invariant (P := fun t => t.backend.state = .closed)
    (fun _ _ _ _ hs hstep => closed_step hstep hs) h hc

theorem handled_step {s s' : System} {a : Act} (h : s.step a = some s') :
    s.handled ≤ s'.handled := by
  cases steps_of_step h <;> first | exact Nat.le_refl _ | exact Nat.le_succ _

theorem handled_run {s s' : System} {acts : List Act} (h : s.run acts = some s') :
    s.handled ≤ s'.handled :=
  Runs.invariant (P := fun t => s.handled ≤ t.handled)
    (fun _ _ _ _ ht hstep => Nat.le_trans ht (handled_step hstep)) h (Nat.le_refl _)

end System

end LoraBridge.Backend
