import LoraBridge.Proofs.Backend.System

/-! The registry follows what calls returned with: a gateway is registered exactly when
the latest subscription or unsubscription of it that succeeded was a subscription. No
failed call, loss, connection, replay, publish or closing adds or removes a gateway. -/
namespace LoraBridge.Backend.System

open Transport (Request Answer)

/-- Whether a call that returned tells a gateway to be subscribed or not; none when it
tells nothing of it. -/
def acknowledged? (g : Eui) : Call × Except Error Unit → Option Bool
  | (.operation (.subscribe gateway), .ok ()) => if gateway = g then some true else none
  | (.operation (.unsubscribe gateway), .ok ()) => if gateway = g then some false else none
  | _ => none

def latest (s : System) (g : Eui) : Option Bool :=
  (s.returned.filterMap (acknowledged? g)).getLast?

private theorem latest_append {s s' : System} {p : Call × Except Error Unit}
    (h : s'.returned = s.returned ++ [p]) (g : Eui) :
    s'.latest g = (acknowledged? g p).or (s.latest g) := by
  unfold latest
  rw [h, List.filterMap_append, List.getLast?_append]
  cases hp : acknowledged? g p with
  | none => rw [List.filterMap_cons_none hp, List.filterMap_nil]; rfl
  | some b => rw [List.filterMap_cons_some hp, List.filterMap_nil]; rfl

theorem mem_recorded_iff (r : Registry) (p : Call × Except Error Unit) (g : Eui) :
    g ∈ (recorded r p).gateways ↔
      acknowledged? g p = some true ∨ acknowledged? g p = none ∧ g ∈ r.gateways := by
  obtain ⟨call, result⟩ := p
  cases call with
  | close => simp only [recorded, acknowledged?, reduceCtorEq, false_or, true_and]
  | operation op =>
    cases result with
    | error e => cases op <;> simp only [recorded, acknowledged?, reduceCtorEq, false_or, true_and]
    | ok u =>
      cases op with
      | subscribe gateway =>
        by_cases hg : gateway = g
        · simp only [recorded, acknowledged?, Registry.mem_add, hg, ↓reduceIte, true_or]
        · simp only [recorded, acknowledged?, Registry.mem_add, hg, Ne.symm hg, ↓reduceIte,
            reduceCtorEq, false_or, true_and]
      | unsubscribe gateway =>
        by_cases hg : gateway = g
        · simp only [recorded, acknowledged?, Registry.mem_remove, hg, ↓reduceIte, ne_eq,
            not_true_eq_false, and_false, Option.some.injEq, Bool.false_eq_true, reduceCtorEq,
            false_and, or_self]
        · simp only [recorded, acknowledged?, Registry.mem_remove, hg, Ne.symm hg, ↓reduceIte,
            ne_eq, not_false_eq_true, and_true, reduceCtorEq, false_or, true_and]
      | publish => simp only [recorded, acknowledged?, reduceCtorEq, false_or, true_and]

/-- A step changes the registry by what it returns, and by nothing else. -/
theorem registry_step {s s' : System} {a : Act} (h : s.step a = some s') :
    (s'.returned = s.returned ∧ s'.backend.registry = s.backend.registry) ∨
      ∃ p, s'.returned = s.returned ++ [p] ∧
        s'.backend.registry = recorded s.backend.registry p := by
  cases steps_of_step h with
  | called | closes | event | lost | connected | received | left | nothing | asked | accepted
  | rejected | settled | postponed | awakened | passed => exact .inl ⟨rfl, rfl⟩
  | @refused op | @failed i op => exact .inr ⟨_, rfl, by cases op <;> rfl⟩
  | succeeded | wasClosed | closed => exact .inr ⟨_, rfl, rfl⟩

/-- What the registry has to do with the calls that returned. -/
structure FollowsHistory (s : System) : Prop where
  /-- A gateway is registered exactly when the latest word on it is a subscription. -/
  registered : ∀ g, g ∈ s.backend.registry.gateways ↔ s.latest g = some true
  begun : ∀ op s', s.step (.call op) = some s' → s'.backend = s.backend
  failed : ∀ a s' op e, s.step a = some s' →
    s'.returned = s.returned ++ [(.operation op, .error e)] → s'.backend = s.backend
  closed : ∀ a s' result, s.step a = some s' → s'.returned = s.returned ++ [(.close, result)] →
    s'.backend.state = .closed
  kept : ∀ a s' g, s.step a = some s' →
    (∀ p, s'.returned = s.returned ++ [p] → acknowledged? g p = none) →
    (g ∈ s'.backend.registry.gateways ↔ g ∈ s.backend.registry.gateways)
  /-- A replay asks for topics of gateways on which the latest word is a subscription. -/
  replayed : ∀ a s' attempt topics, s.step a = some s' → s'.attempts = s.attempts ++ [attempt] →
    attempt.request = some (.subscribeMany topics) →
    ∀ p ∈ topics, ∃ g, s.latest g = some true ∧ s.backend.topics.render .downlink g = .ok p.1

private theorem latest_of_returned_eq {s s' : System} (h : s'.returned = s.returned) (g : Eui) :
    s'.latest g = s.latest g := by
  unfold latest
  rw [h]

theorem registered_step {s s' : System} {a : Act}
    (hs : ∀ g, g ∈ s.backend.registry.gateways ↔ s.latest g = some true)
    (h : s.step a = some s') (g : Eui) :
    g ∈ s'.backend.registry.gateways ↔ s'.latest g = some true := by
  rcases registry_step h with ⟨hret, hreg⟩ | ⟨p, hret, hreg⟩
  · rw [hreg, latest_of_returned_eq hret, hs g]
  · rw [hreg, latest_append hret, mem_recorded_iff, hs g]
    cases hp : acknowledged? g p with
    | none => simp only [reduceCtorEq, false_or, true_and, Option.none_or]
    | some b => simp only [reduceCtorEq, false_and, or_false, Option.some_or]

theorem ne_append_singleton {α : Type} (l : List α) (a : α) : l ≠ l ++ [a] := by
  intro h
  have hlen := congrArg List.length h
  rw [List.length_append, List.length_singleton] at hlen
  omega

theorem backend_of_failed {s s' : System} {a : Act} {op : Operation} {e : Error}
    (h : s.step a = some s') (hr : s'.returned = s.returned ++ [(.operation op, .error e)]) :
    s'.backend = s.backend := by
  cases steps_of_step h with
  | refused | failed | called | wasClosed | passed => rfl
  | succeeded =>
    have hp := List.append_cancel_left hr
    simp only [List.cons.injEq, Prod.mk.injEq, reduceCtorEq, and_false, and_true] at hp
  | closed =>
    have hp := List.append_cancel_left hr
    simp only [List.cons.injEq, Prod.mk.injEq, reduceCtorEq, false_and] at hp
  | closes | event | lost | connected | received | left | nothing | asked | accepted
  | rejected | settled | postponed | awakened => exact absurd hr (ne_append_singleton _ _)

theorem state_of_closed {s s' : System} {a : Act} {result : Except Error Unit} (hs : s.Sound)
    (h : s.step a = some s') (hr : s'.returned = s.returned ++ [(.close, result)]) :
    s'.backend.state = .closed := by
  cases steps_of_step h with
  | wasClosed hc => exact hc
  | closed hc => exact hs.closing hc
  | refused | succeeded | failed =>
    have hp := List.append_cancel_left hr
    simp only [List.cons.injEq, Prod.mk.injEq, reduceCtorEq, false_and] at hp
  | called | closes | event | lost | connected | received | left | nothing | asked | accepted
  | rejected | settled | postponed | awakened | passed => exact absurd hr (ne_append_singleton _ _)

theorem topics_of_replayed {s s' : System} {a : Act} {attempt : Attempt}
    {topics : List (String × Transport.Qos)} (h : s.step a = some s')
    (ha : s'.attempts = s.attempts ++ [attempt])
    (hr : attempt.request = some (.subscribeMany topics)) : topics = s.backend.downlinkTopics := by
  cases steps_of_step h with
  | nothing =>
    rw [← List.singleton_inj.1 (List.append_cancel_left ha)] at hr
    cases hr
  | asked | accepted | rejected =>
    rw [← List.singleton_inj.1 (List.append_cancel_left ha)] at hr
    cases hr
    rfl
  | refused | called | failed | succeeded | wasClosed | closes | closed | event | lost | connected
  | received | left | settled | postponed | awakened | passed =>
    exact absurd ha (ne_append_singleton _ _)

/-- After every run the registry follows the history of the calls. -/
theorem followsHistory {topics : Topic.Topics} {options : Options} {acts : List Act} {s : System}
    (h : (start topics options).run acts = some s) : s.FollowsHistory := by
  have hreg : ∀ g, g ∈ s.backend.registry.gateways ↔ s.latest g = some true :=
    Runs.invariant (P := fun t => ∀ g, g ∈ t.backend.registry.gateways ↔ t.latest g = some true)
      (fun _ _ _ _ hs => registered_step hs) h
      fun g => iff_of_false List.not_mem_nil nofun
  refine ⟨hreg, ?_, ?_, ?_, ?_, ?_⟩
  · intro op s' hstep
    cases steps_of_step hstep with
    | refused | called => rfl
  · intro a s' op e hstep hr
    exact backend_of_failed hstep hr
  · intro a s' result hstep hr
    exact state_of_closed (sound_run h) hstep hr
  · intro a s' g hstep hnone
    rcases registry_step hstep with ⟨hret, heq⟩ | ⟨p, hret, heq⟩
    · rw [heq]
    · rw [heq, mem_recorded_iff, hnone p hret]
      simp only [reduceCtorEq, false_or, true_and]
  · intro a s' attempt asked hstep ha hr p hp
    rw [topics_of_replayed hstep ha hr] at hp
    obtain ⟨g, hg, ht⟩ := mem_downlinkTopics.1 (List.mem_map_of_mem hp)
    exact ⟨g, (hreg g).1 hg, ht⟩

/-- Two gateways are subscribed and one of them is unsubscribed; a second attempt to
unsubscribe fails, the connection is lost and made again, and the replay is refused. -/
theorem followsHistory_reconnect : ∃ s,
    (start sampleTopics .default).run
      [.event (.connected false), .resume, .call (.subscribe (.ofWord 1)), .answer 0 (.ok ()),
        .call (.subscribe (.ofWord 2)), .answer 0 (.ok ()),
        .call (.unsubscribe (.ofWord 1)), .answer 0 (.ok ()),
        .call (.unsubscribe (.ofWord 2)), .answer 0 (.error (.connectionLost "unsubscribe")),
        .event (.connectionLost "reset"), .resume, .event (.connected false), .resume,
        .attempt (some (.error (.rejected "subscription")))] = some s ∧
    s.backend.registry.gateways = [.ofWord 2] ∧ s.FollowsHistory := by
  obtain ⟨s, hrun, hreg⟩ : ∃ s,
      (start sampleTopics .default).run
        [.event (.connected false), .resume, .call (.subscribe (.ofWord 1)), .answer 0 (.ok ()),
          .call (.subscribe (.ofWord 2)), .answer 0 (.ok ()),
          .call (.unsubscribe (.ofWord 1)), .answer 0 (.ok ()),
          .call (.unsubscribe (.ofWord 2)), .answer 0 (.error (.connectionLost "unsubscribe")),
          .event (.connectionLost "reset"), .resume, .event (.connected false), .resume,
          .attempt (some (.error (.rejected "subscription")))] = some s ∧
      s.backend.registry.gateways = [.ofWord 2] := ⟨_, rfl, by decide⟩
  exact ⟨s, hrun, hreg, followsHistory hrun⟩

end LoraBridge.Backend.System
