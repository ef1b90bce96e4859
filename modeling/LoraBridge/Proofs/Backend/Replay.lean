import LoraBridge.Proofs.Backend.System

/-! The replay of the registry after a connection. On a broker that answers at once the
attempts come one delay after the other, each for the whole registry of its moment, until
the broker accepts one or there is nothing to ask for. Nothing that happens meanwhile
stops the attempts or starts them anew, but the next connection and the end. -/
namespace LoraBridge.Backend

open Transport (Request Answer)

/-- Whether an attempt is the last one: there was nothing to ask for, or the broker
accepted. -/
def Attempt.Final (a : Attempt) : Prop :=
  a.request = none ∨ a.answer = some (.ok ())

def Attempt.Whole (topics : Topic.Topics) (a : Attempt) : Prop :=
  match a.request with
  | none => a.registry.gateways = []
  | some request => a.registry.gateways ≠ [] ∧ ∃ asked, request = .subscribeMany asked ∧
    List.Forall₂ (fun g p => topics.render .downlink g = .ok p.1 ∧ p.2 = .atMostOnce)
      a.registry.gateways asked

/-- The attempts that are made from a time on, one every delay. -/
structure Timely (topics : Topic.Topics) (start delay : Nat) (attempts : List Attempt) : Prop where
  time : ∀ i (h : i < attempts.length), attempts[i].time = start + i * delay
  number : ∀ i (h : i < attempts.length), attempts[i].number = i + 1
  whole : ∀ a ∈ attempts, a.Whole topics
  refused : ∀ i (h : i + 1 < attempts.length), ¬ attempts[i].Final

theorem Timely.nil (topics : Topic.Topics) (start delay : Nat) : Timely topics start delay [] where
  time _ h := absurd h (Nat.not_lt_zero _)
  number _ h := absurd h (Nat.not_lt_zero _)
  whole _ h := absurd h List.not_mem_nil
  refused _ h := absurd h (Nat.not_lt_zero _)

theorem Timely.append {topics : Topic.Topics} {start delay : Nat} {attempts : List Attempt}
    {a : Attempt} (h : Timely topics start delay attempts) (ho : ∀ a ∈ attempts, ¬ a.Final)
    (ht : a.time = start + attempts.length * delay) (hn : a.number = attempts.length + 1)
    (hw : a.Whole topics) : Timely topics start delay (attempts ++ [a]) where
  time i hi := by
    rw [List.length_append, List.length_singleton] at hi
    by_cases hlt : i < attempts.length
    · rw [List.getElem_append_left hlt]
      exact h.time i hlt
    · have heq : i = attempts.length := by omega
      subst heq
      rw [List.getElem_concat_length rfl]
      exact ht
  number i hi := by
    rw [List.length_append, List.length_singleton] at hi
    by_cases hlt : i < attempts.length
    · rw [List.getElem_append_left hlt]
      exact h.number i hlt
    · have heq : i = attempts.length := by omega
      subst heq
      rw [List.getElem_concat_length rfl]
      exact hn
  whole b hb := by
    rcases List.mem_append.1 hb with hb | hb
    · exact h.whole b hb
    · rw [List.mem_singleton.1 hb]
      exact hw
  refused i hi := by
    rw [List.length_append, List.length_singleton] at hi
    have hlt : i < attempts.length := by omega
    rw [List.getElem_append_left hlt]
    exact ho _ (List.getElem_mem hlt)

namespace System

/-- Where the replay stands that was started at a time, idle when no gateway was
registered then, after some attempts. -/
def Stands (start delay : Nat) (idle : Bool) (attempts : List Attempt) (now : Nat) :
    Backend.Replay → Prop
  | .none => idle = true ∧ attempts = [] ∨ idle = false ∧ ∃ a ∈ attempts, a.Final
  | .due n => idle = false ∧ n = attempts.length ∧ now = start + n * delay ∧
    ∀ a ∈ attempts, ¬ a.Final
  | .sleeping n wake => idle = false ∧ n = attempts.length ∧ wake = start + n * delay ∧
    now ≤ wake ∧ ∀ a ∈ attempts, ¬ a.Final
  | .asking .. => False

theorem Stands.eq_nil {start delay now : Nat} {attempts : List Attempt} {r : Backend.Replay}
    (h : Stands start delay true attempts now r) : attempts = [] := by
  cases r with
  | none =>
    rcases h with ⟨-, h⟩ | ⟨h, -⟩
    · exact h
    · cases h
  | due | sleeping => cases h.1
  | asking => exact h.elim

theorem Stands.now_le {start delay now : Nat} {attempts : List Attempt} {r : Backend.Replay}
    (h : Stands start delay false attempts now r) (hno : ∀ a ∈ attempts, ¬ a.Final) :
    now ≤ start + attempts.length * delay := by
  cases r with
  | none =>
    rcases h with ⟨h, -⟩ | ⟨-, a, ha, hf⟩
    · cases h
    · exact absurd hf (hno a ha)
  | due n =>
    obtain ⟨-, rfl, hnow, -⟩ := h
    exact Nat.le_of_eq hnow
  | sleeping n wake =>
    obtain ⟨-, rfl, hwake, hle, -⟩ := h
    rwa [hwake] at hle
  | asking => exact h.elim

/-- The attempts after those that were made before, and where the replay stands. -/
structure Progress (s : System) (start : Nat) (idle : Bool) (before attempts : List Attempt) :
    Prop where
  log : s.attempts = before ++ attempts
  timely : Timely s.backend.topics start s.backend.options.resubscribeDelay.millis attempts
  stands : Stands start s.backend.options.resubscribeDelay.millis idle attempts s.now
    s.backend.replay

variable {s s' : System} {start : Nat} {idle : Bool} {before attempts : List Attempt}

theorem Progress.append {n : Nat} {a : Attempt} (h : s.Progress start idle before attempts)
    (hn : s.backend.replay = .due n) (ht : a.time = s.now) (hnum : a.number = n + 1)
    (hw : a.Whole s.backend.topics) :
    Timely s.backend.topics start s.backend.options.resubscribeDelay.millis (attempts ++ [a]) := by
  have hst := h.stands
  rw [hn] at hst
  obtain ⟨-, rfl, hnow, hopen⟩ := hst
  exact h.timely.append hopen (ht.trans hnow) hnum hw

private theorem whole_of_nil (hs : s.Sound) {time number : Nat} {answer : Option Answer}
    (ht : s.backend.downlinkTopics = []) :
    (⟨time, number, s.backend.registry, none, answer⟩ : Attempt).Whole s.backend.topics :=
  (gateways_eq_nil_iff hs.registered).2 ht

private theorem whole_of_topics (hs : s.Sound) {time number : Nat} {answer : Option Answer}
    (ht : s.backend.downlinkTopics ≠ []) :
    (⟨time, number, s.backend.registry, some (.subscribeMany s.backend.downlinkTopics),
      answer⟩ : Attempt).Whole s.backend.topics :=
  ⟨fun h => ht ((gateways_eq_nil_iff hs.registered).1 h), _, rfl,
    forall₂_downlinkTopics hs.registered⟩

theorem progress_step {a : Act} (hs : s.Sound) (h : s.Progress start idle before attempts)
    (hstep : s.step a = some s') (ha : a ≠ .attempt none) (hopen : s'.backend.state ≠ .closed)
    (hsame : s'.handled = s.handled) :
    ∃ more, s'.Progress start idle before (attempts ++ more) := by
  have hst := h.stands
  have hkept : attempts ++ [] = attempts := List.append_nil _
  cases steps_of_step hstep with
  | refused | called | failed | succeeded | wasClosed | closed | event | lost | received | left =>
    exact ⟨[], by rw [hkept]; exact ⟨h.log, h.timely, h.stands⟩⟩
  | closes => exact absurd rfl hopen
  | connected => exact absurd hsame (Nat.succ_ne_self _)
  | @nothing _ n hr hnil =>
    have hnil : s.backend.downlinkTopics = [] :=
      hnil.resolve_left fun hstop => hopen (hs.stopping hstop)
    rw [hr] at hst
    refine ⟨[⟨s.now, n + 1, s.backend.registry, none, none⟩], ?_,
      h.append hr rfl rfl (whole_of_nil hs hnil), .inr ⟨hst.1, _,
      List.mem_append_right _ (List.mem_singleton.2 rfl), .inl rfl⟩⟩
    rw [← List.append_assoc, ← h.log]
  | asked => exact absurd rfl ha
  | accepted hr _ ht =>
    rw [hr] at hst
    refine ⟨[_], ?_, h.append hr rfl rfl (whole_of_topics hs ht), .inr ⟨hst.1, _,
      List.mem_append_right _ (List.mem_singleton.2 rfl), .inr rfl⟩⟩
    rw [← List.append_assoc, ← h.log]
  | @rejected n e hr _ ht =>
    rw [hr] at hst
    obtain ⟨hidle, hn, hnow, hno⟩ := hst
    refine ⟨[⟨s.now, n + 1, s.backend.registry, some (.subscribeMany s.backend.downlinkTopics),
      some (.error e)⟩], ?_, h.append hr rfl rfl (whole_of_topics hs ht), hidle, ?_, ?_, ?_, ?_⟩
    · rw [← List.append_assoc, ← h.log]
    · rw [List.length_append, List.length_singleton, hn]
    · simp only [hnow, Nat.add_mul, Nat.one_mul, Nat.add_assoc]
    · exact Nat.le_add_right _ _
    · intro b hb
      rcases List.mem_append.1 hb with hb | hb
      · exact hno b hb
      · rw [List.mem_singleton.1 hb]
        rintro (hf | hf) <;> cases hf
  | settled hr | postponed hr =>
    rw [hr] at hst
    exact hst.elim
  | awakened hr hw =>
    rw [hr] at hst
    obtain ⟨hidle, hn, hwake, hle, hno⟩ := hst
    refine ⟨[], ?_⟩
    rw [hkept]
    exact ⟨h.log, h.timely, hidle, hn, by rw [← hwake]; exact Nat.le_antisymm hle hw, hno⟩
  | passed hq =>
    refine ⟨[], ?_⟩
    rw [hkept]
    obtain ⟨hdue, hsleep⟩ := replay_of_quiet hq
    refine ⟨h.log, h.timely, ?_⟩
    cases hr : s.backend.replay with
    | none | asking =>
      rw [hr] at hst
      exact hst
    | due n => exact absurd hr (hdue n)
    | sleeping n wake =>
      rw [hr] at hst
      obtain ⟨hidle, hn, hwake, -, hno⟩ := hst
      exact ⟨hidle, hn, hwake, hsleep n wake hr, hno⟩

theorem progress_run {acts : List Act} (hs : s.Sound) (h : s.Progress start idle before attempts)
    (hrun : s.run acts = some s') (hprompt : ∀ a ∈ acts, a ≠ .attempt none)
    (hopen : s'.backend.state ≠ .closed) (hsame : s'.handled = s.handled) :
    ∃ more, s'.Progress start idle before (attempts ++ more) := by
  induction acts generalizing s attempts with
  | nil =>
    cases hrun
    exact ⟨[], by rw [List.append_nil]; exact h⟩
  | cons a acts ih =>
    obtain ⟨t, ht, hrest⟩ := Option.bind_eq_some_iff.1 hrun
    -- Connections are only counted on, so none is handled in between either.
    have hle := handled_step ht
    have hle' := handled_run hrest
    have hopen' : t.backend.state ≠ .closed := fun hc => hopen (closed_run hrest hc)
    obtain ⟨more, hmore⟩ :=
      progress_step hs h ht (hprompt a List.mem_cons_self) hopen' (by omega)
    obtain ⟨rest, hrest⟩ := ih (sound_step hs ht) hmore hrest
      (fun b hb => hprompt b (List.mem_cons_of_mem _ hb)) (by omega)
    exact ⟨more ++ rest, by rw [← List.append_assoc]; exact hrest⟩

theorem progress_resume (h : s.backend.dispatcher = .replaying) (hstep : s.step .resume = some s') :
    s'.Progress s'.now s'.backend.registry.isEmpty s'.attempts [] := by
  cases steps_of_step hstep with
  | lost hl =>
    rw [h] at hl
    cases hl
  | connected =>
    refine ⟨(List.append_nil _).symm, Timely.nil _ _ _, ?_⟩
    cases he : s.backend.registry.isEmpty with
    | true =>
      simp only [↓reduceIte]
      exact .inl ⟨rfl, rfl⟩
    | false =>
      simp only [Bool.false_eq_true, ↓reduceIte]
      exact ⟨rfl, rfl, by rw [Nat.zero_mul]; rfl, fun _ hb => absurd hb List.not_mem_nil⟩

/-- The replay after a handled connection: without gateways there is none, and with them
the attempts come in time, until the broker accepts one or there is nothing to ask for;
before that none is overdue. -/
theorem replayed_after_connection {topics : Topic.Topics} {options : Options}
    {acts acts' : List Act} {s₀ s₁ s : System}
    (h₀ : (System.start topics options).run acts = some s₀)
    (hconn : s₀.backend.dispatcher = .replaying) (h₁ : s₀.step .resume = some s₁)
    (h : s₁.run acts' = some s) (hprompt : ∀ a ∈ acts', a ≠ .attempt none)
    (hsame : s.handled = s₁.handled) (hopen : s.backend.state ≠ .closed) :
    ∃ attempts, s.attempts = s₁.attempts ++ attempts ∧
      Timely topics s₁.now options.resubscribeDelay.millis attempts ∧
      (s₁.backend.registry.isEmpty = true → attempts = []) ∧
      (s₁.backend.registry.isEmpty = false → (∀ a ∈ attempts, ¬ a.Final) →
        s.now ≤ s₁.now + attempts.length * options.resubscribeDelay.millis) := by
  have hs₁ := sound_step (sound_run h₀) h₁
  obtain ⟨attempts, hp⟩ := progress_run hs₁ (progress_resume hconn h₁) h hprompt hopen hsame
  rw [List.nil_append] at hp
  obtain ⟨htopics, hoptions⟩ := config_run h
  obtain ⟨htopics₁, hoptions₁⟩ := config_step h₁
  obtain ⟨htopics₀, hoptions₀⟩ := config_run h₀
  have ht := hp.timely
  have hst := hp.stands
  rw [hoptions, hoptions₁, hoptions₀] at ht hst
  rw [htopics, htopics₁, htopics₀] at ht
  refine ⟨attempts, hp.log, ht, ?_, ?_⟩
  · intro hidle
    rw [hidle] at hst
    exact hst.eq_nil
  · intro hidle hno
    rw [hidle] at hst
    exact hst.now_le hno

/-- The second of two attempts is accepted, while the connection is lost in between and
another gateway is subscribed. -/
theorem replayed_twice : ∃ s₀ s₁ s,
    (System.start sampleTopics .default).run [.event (.connected false), .resume,
      .call (.subscribe (.ofWord 2)), .answer 0 (.ok ()), .event (.connected false)] = some s₀ ∧
    s₀.step .resume = some s₁ ∧
    s₁.run [.attempt (some (.error (.rejected "subscription"))), .call (.subscribe (.ofWord 1)),
      .answer 0 (.ok ()), .event (.connectionLost "reset"), .resume, .pass 1000, .awaken,
      .attempt (some (.ok ())), .pass 5000] = some s ∧
    s.attempts.length = 2 ∧ ∃ attempts, s.attempts = s₁.attempts ++ attempts ∧
      Timely sampleTopics 0 1000 attempts := by
  obtain ⟨s₀, s₁, s, h₀, hconn, h₁, h, hlen, hnow, hsame, hopen⟩ : ∃ s₀ s₁ s,
      (System.start sampleTopics .default).run [.event (.connected false), .resume,
        .call (.subscribe (.ofWord 2)), .answer 0 (.ok ()), .event (.connected false)] = some s₀ ∧
      s₀.backend.dispatcher = .replaying ∧ s₀.step .resume = some s₁ ∧
      s₁.run [.attempt (some (.error (.rejected "subscription"))), .call (.subscribe (.ofWord 1)),
        .answer 0 (.ok ()), .event (.connectionLost "reset"), .resume, .pass 1000, .awaken,
        .attempt (some (.ok ())), .pass 5000] = some s ∧
      s.attempts.length = 2 ∧ s₁.now = 0 ∧ s.handled = s₁.handled ∧ s.backend.state ≠ .closed :=
    ⟨_, _, _, rfl, rfl, rfl, rfl, rfl, rfl, rfl, by decide⟩
  obtain ⟨attempts, hlog, htimely, -⟩ :=
    replayed_after_connection h₀ hconn h₁ h (by simp) hsame hopen
  rw [hnow] at htimely
  exact ⟨s₀, s₁, s, h₀, h₁, h, hlen, attempts, hlog, htimely⟩

end System

end LoraBridge.Backend
