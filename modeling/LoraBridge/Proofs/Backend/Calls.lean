import Mathlib.Data.List.Nodup
import Mathlib.Data.List.Perm.Basic
import LoraBridge.Proofs.Backend.Actors
import LoraBridge.Proofs.Backend.History

/-! Calls that overlap. Every operation that was called is under way or has returned, and a
call succeeds only when the client accepted its request. The registry follows the calls in
the order in which they return, and not in the order in which the client accepted their
requests: where the two orders end with different calls for a gateway, its registration need
not be what the broker has subscribed. -/
namespace LoraBridge.Backend

theorem perm_cons_eraseIdx {α : Type} {l : List α} {i : Nat} {a : α} (h : l[i]? = some a) :
    l.Perm (a :: l.eraseIdx i) := by
  obtain ⟨hi, rfl⟩ := List.getElem?_eq_some_iff.1 h
  exact (List.getElem_cons_eraseIdx_perm hi).symm

theorem set_perm_cons {α : Type} {l : List α} {i : Nat} {a : α} (h : l[i]? = some a) (b : α) :
    (l.set i b).Perm (b :: l.eraseIdx i) :=
  List.set_perm_cons_eraseIdx (List.getElem?_eq_some_iff.1 h).1 b

theorem filterMap_eraseIdx_perm {α β : Type} {l : List α} {i : Nat} {a : α} (h : l[i]? = some a)
    (f : α → Option β) : (l.filterMap f).Perm ((f a).toList ++ (l.eraseIdx i).filterMap f) := by
  have hl := (perm_cons_eraseIdx h).filterMap f
  cases ha : f a <;> simpa [ha] using hl

theorem filterMap_set_perm {α β : Type} {l : List α} {i : Nat} {a : α} (h : l[i]? = some a)
    (b : α) (f : α → Option β) :
    ((l.set i b).filterMap f).Perm ((f b).toList ++ (l.eraseIdx i).filterMap f) := by
  have hset := (set_perm_cons h b).filterMap f
  cases hb : f b <;> simpa [hb] using hset

def Underway.confirmed? (c : Underway) : Option (Nat × Operation) :=
  match c.stage with
  | .answered (.ok ()) => some (c.number, c.op)
  | .prepared | .sent | .answered (.error _) => none

theorem Underway.confirmed?_eq_none {c : Underway} (h : c.stage ≠ .answered (.ok ())) :
    c.confirmed? = none := by
  unfold confirmed?
  split
  · next hc => exact absurd hc h
  all_goals rfl

@[simp] theorem Underway.confirmed?_eq_some_iff {c : Underway} {p : Nat × Operation} :
    c.confirmed? = some p ↔ c.stage = .answered (.ok ()) ∧ (c.number, c.op) = p := by
  unfold confirmed?
  split
  all_goals
    next hc => simp [hc]

def Returned.updated? (r : Returned) : Option (Nat × Operation) :=
  match r.result with
  | .ok () => some (r.number, r.op)
  | .error _ => none

@[simp] theorem Returned.updated?_eq_some_iff {r : Returned} {p : Nat × Operation} :
    r.updated? = some p ↔ r.result = .ok () ∧ (r.number, r.op) = p := by
  unfold updated?
  split
  all_goals
    next hr => simp [hr]

namespace Actors

variable {s s' : Actors} {topics : Topic.Topics} {options : Options} {acts : List Act}

def numbers (s : Actors) : List Nat :=
  s.calls.map (·.number) ++ s.returned.map (·.number)

/-- The operations that succeeded, in the order in which the registry followed them. -/
def updated (s : Actors) : List (Nat × Operation) :=
  s.returned.filterMap Returned.updated?

def confirmed (s : Actors) : List (Nat × Operation) :=
  s.calls.filterMap Underway.confirmed?

variable {i : Nat} {c d : Underway}

private theorem numbers_set (h : s.calls[i]? = some c) (hd : d.number = c.number) :
    ((s.calls.set i d).map (·.number)).Perm (s.calls.map (·.number)) := by
  have hset := (set_perm_cons h d).map (·.number)
  have hcalls := (perm_cons_eraseIdx h).map (·.number)
  rw [List.map_cons] at hset hcalls
  rw [hd] at hset
  exact hset.trans hcalls.symm

private theorem numbers_erase (h : s.calls[i]? = some c) :
    ((s.calls.eraseIdx i).map (·.number) ++ (s.returned.map (·.number) ++ [c.number])).Perm
      s.numbers := by
  have hcalls := (perm_cons_eraseIdx h).map (·.number)
  rw [← List.append_assoc]
  exact (List.perm_append_singleton _ _).trans (hcalls.append_right _).symm

/-- The operations that were called are numbered, and each of them is under way or has
returned, once. -/
theorem numbers_step {a : Act} (hs : s.numbers.Perm (List.range s.started))
    (hstep : s.step a = some s') : s'.numbers.Perm (List.range s'.started) := by
  cases steps_of_step hstep with
  | refused =>
    simp only [numbers, List.map_append, List.map_cons, List.map_nil, ← List.append_assoc,
      List.range_succ]
    exact hs.append_right _
  | called =>
    simp only [numbers, List.map_append, List.map_cons, List.map_nil, List.range_succ]
    rw [List.append_assoc, List.singleton_append]
    refine List.perm_middle.trans ((List.Perm.cons _ hs).trans ?_)
    exact (List.perm_append_singleton _ _).symm
  | sent hc | accepted hc | declined hc =>
    refine List.Perm.trans ?_ hs
    unfold numbers
    apply List.Perm.append_right
    exact numbers_set hc rfl
  | failed hc | succeeded hc =>
    refine List.Perm.trans ?_ hs
    simpa [numbers] using numbers_erase hc
  | shut | wasClosed | closes | disconnects | closed | event | lost | connected | movedUp
  | halted | received | nothing | left | stops | looks | idles | asked | attempted
  | awakened | straggled | faded | vanished => exact hs

theorem confirmed_erase (h : s.calls[i]? = some c) :
    s.confirmed.Perm
      (c.confirmed?.toList ++ (s.calls.eraseIdx i).filterMap Underway.confirmed?) :=
  filterMap_eraseIdx_perm h Underway.confirmed?

private theorem confirmed_set (h : s.calls[i]? = some c) (hc : c.confirmed? = none) (d : Underway) :
    ((s.calls.set i d).filterMap Underway.confirmed?).Perm
      (d.confirmed?.toList ++ s.confirmed) := by
  have hcalls := confirmed_erase h
  rw [hc, Option.toList_none, List.nil_append] at hcalls
  exact (filterMap_set_perm h d Underway.confirmed?).trans (hcalls.symm.append_left _)

/-- What the client accepted has succeeded, or does so when its call goes on. -/
theorem accepted_step {a : Act} (hs : s.accepted.Perm (s.updated ++ s.confirmed))
    (hstep : s.step a = some s') : s'.accepted.Perm (s'.updated ++ s'.confirmed) := by
  cases steps_of_step hstep with
  | refused => simpa [updated, confirmed, Returned.updated?, List.filterMap_cons] using hs
  | called => simpa [updated, confirmed, Underway.confirmed?, List.filterMap_cons] using hs
  | sent hc hstage =>
    have hset := confirmed_set hc (Underway.confirmed?_eq_none (by simp [hstage]))
    refine hs.trans (List.Perm.append_left _ ?_)
    refine (List.Perm.symm ((hset _).trans ?_))
    rw [Underway.confirmed?_eq_none]
    · simp
    · cases s.shutDown <;> simp
  | @accepted _ c hc hstage =>
    -- The operation joins what was accepted and what is confirmed at once.
    have hset := confirmed_set hc (Underway.confirmed?_eq_none (by simp [hstage]))
      { c with stage := .answered (.ok ()) }
    refine (hs.append_right _).trans ?_
    rw [List.append_assoc]
    refine List.Perm.append_left _ ((List.perm_append_singleton _ _).trans ?_)
    exact hset.symm
  | declined hc hstage =>
    have hset := confirmed_set hc (Underway.confirmed?_eq_none (by simp [hstage]))
    refine hs.trans (List.Perm.append_left _ ?_)
    refine (List.Perm.symm ((hset _).trans ?_))
    rw [Underway.confirmed?_eq_none]
    · simp
    · simp
  | @failed _ c _ hc hstage =>
    have herase := confirmed_erase hc
    rw [Underway.confirmed?_eq_none (by simp [hstage])] at herase
    refine hs.trans ?_
    simpa [updated, confirmed, Returned.updated?, List.filterMap_cons] using
      herase.append_left _
  | @succeeded _ c hc hstage =>
    -- The call leaves the confirmed ones and joins those the registry followed.
    have herase := confirmed_erase hc
    have hconfirmed : c.confirmed? = some (c.number, c.op) := by
      simp [Underway.confirmed?, hstage]
    rw [hconfirmed] at herase
    refine hs.trans ?_
    simpa [updated, confirmed, Returned.updated?, List.filterMap_cons] using
      herase.append_left _
  | shut | wasClosed | closes | disconnects | closed | event | lost | connected | movedUp
  | halted | received | nothing | left | stops | looks | idles | asked | attempted
  | awakened | straggled | faded | vanished => exact hs

theorem numbers_run (h : (start topics options).run acts = some s) :
    s.numbers.Perm (List.range s.started) :=
  Runs.invariant (P := fun t => t.numbers.Perm (List.range t.started))
    (fun _ _ _ _ hs => numbers_step hs) h (List.Perm.refl _)

theorem nodup_numbers (h : (start topics options).run acts = some s) : s.numbers.Nodup :=
  (numbers_run h).nodup_iff.2 List.nodup_range

theorem underway_inj (h : (start topics options).run acts = some s) {c d : Underway}
    (hc : c ∈ s.calls) (hd : d ∈ s.calls) (heq : c.number = d.number) : c = d :=
  List.inj_on_of_nodup_map (List.Nodup.of_append_left (nodup_numbers h)) hc hd heq

theorem returned_inj (h : (start topics options).run acts = some s) {r r' : Returned}
    (hr : r ∈ s.returned) (hr' : r' ∈ s.returned) (heq : r.number = r'.number) : r = r' :=
  List.inj_on_of_nodup_map (List.Nodup.of_append_right (nodup_numbers h)) hr hr' heq

theorem not_underway_of_returned (h : (start topics options).run acts = some s) {r : Returned}
    (hr : r ∈ s.returned) : ∀ c ∈ s.calls, c.number ≠ r.number := by
  intro c hc heq
  refine List.disjoint_of_nodup_append (nodup_numbers h) (List.mem_map_of_mem hc) ?_
  rw [heq]
  exact List.mem_map_of_mem hr

theorem number_lt_started (h : (start topics options).run acts = some s) {c : Underway}
    (hc : c ∈ s.calls) : c.number < s.started := by
  have hmem : c.number ∈ s.numbers := List.mem_append_left _ (List.mem_map_of_mem hc)
  exact List.mem_range.1 ((numbers_run h).mem_iff.1 hmem)

theorem accepted_run (h : (start topics options).run acts = some s) :
    s.accepted.Perm (s.updated ++ s.confirmed) :=
  Runs.invariant (P := fun t => t.accepted.Perm (t.updated ++ t.confirmed))
    (fun _ _ _ _ hs => accepted_step hs) h (List.Perm.refl _)

/-- The registry follows a call that succeeds, and nothing else. -/
theorem registry_step {a : Act} (hstep : s.step a = some s') :
    (s'.backend.registry = s.backend.registry ∧ s'.updated = s.updated) ∨
      ∃ r, r.result = .ok () ∧ s'.returned = s.returned ++ [r] ∧
        s'.backend.registry = System.recorded s.backend.registry (.operation r.op, .ok ()) := by
  cases steps_of_step hstep with
  | called | sent | accepted | declined | shut | wasClosed | closes | disconnects | closed
  | event | lost | connected | movedUp | halted | received | nothing | left | stops | looks
  | idles | asked | attempted | awakened | straggled | faded | vanished => exact .inl ⟨rfl, rfl⟩
  | refused | failed =>
    refine .inl ⟨rfl, ?_⟩
    simp [updated, Returned.updated?, List.filterMap_cons]
  | succeeded => exact .inr ⟨_, rfl, rfl, rfl⟩

private theorem updated_append {r : Returned} (hr : r.result = .ok ())
    (h : s'.returned = s.returned ++ [r]) : s'.updated = s.updated ++ [(r.number, r.op)] := by
  have hu : r.updated? = some (r.number, r.op) := by simp [Returned.updated?, hr]
  simp [updated, h, hu]

end Actors

def changes? (g : Eui) (p : Nat × Operation) : Option Bool :=
  System.acknowledged? g (.operation p.2, .ok ())

def lastCall (g : Eui) (ops : List (Nat × Operation)) : Option (Nat × Operation) :=
  (ops.filter fun p => (changes? g p).isSome).getLast?

def lastChange (g : Eui) (ops : List (Nat × Operation)) : Option Bool :=
  (lastCall g ops).bind (changes? g)

variable {g : Eui} {p q : Nat × Operation} {ops : List (Nat × Operation)}

private theorem lastChange_append (g : Eui) (ops : List (Nat × Operation)) (p : Nat × Operation) :
    lastChange g (ops ++ [p]) = (changes? g p).or (lastChange g ops) := by
  unfold lastChange lastCall
  cases hp : changes? g p <;> simp [List.filter_append, hp]

theorem lastCall_eq_some (h : lastCall g ops = some p) :
    ∃ earlier, ops.filter (fun p => (changes? g p).isSome) = earlier ++ [p] :=
  List.getLast?_eq_some_iff.1 h

theorem changes_of_lastCall (h : lastCall g ops = some p) :
    p ∈ ops ∧ (changes? g p).isSome = true := by
  obtain ⟨earlier, hfilter⟩ := lastCall_eq_some h
  apply List.mem_filter.1
  simp [hfilter]

theorem lastChange_eq_none : lastChange g ops = none ↔ ∀ p ∈ ops, changes? g p = none := by
  unfold lastChange
  cases h : lastCall g ops with
  | none =>
    unfold lastCall at h
    simpa using h
  | some p =>
    obtain ⟨hp, hsome⟩ := changes_of_lastCall h
    simp only [Option.bind_some]
    constructor
    · intro hnone
      simp [hnone] at hsome
    · intro hall
      exact hall p hp

theorem sublist_of_lastCall (h : lastCall g ops = some q) (hp : p ∈ ops)
    (hc : (changes? g p).isSome = true) (hne : p ≠ q) : [p, q].Sublist ops := by
  obtain ⟨earlier, hfilter⟩ := lastCall_eq_some h
  have hmem : p ∈ earlier ++ [q] := by
    rw [← hfilter]
    exact List.mem_filter.2 ⟨hp, hc⟩
  have hearlier : p ∈ earlier := by
    simpa [hne] using hmem
  have hsub : [p, q].Sublist (earlier ++ [q]) :=
    (List.singleton_sublist.2 hearlier).append (List.Sublist.refl [q])
  rw [← hfilter] at hsub
  exact hsub.trans List.filter_sublist

namespace Actors

variable {s s' : Actors} {topics : Topic.Topics} {options : Options} {acts : List Act}

private theorem registered_step {a : Act}
    (hs : g ∈ s.backend.registry.gateways ↔ lastChange g s.updated = some true)
    (hstep : s.step a = some s') :
    g ∈ s'.backend.registry.gateways ↔ lastChange g s'.updated = some true := by
  rcases registry_step hstep with ⟨hreg, hup⟩ | ⟨r, hr, hret, hreg⟩
  · rw [hreg, hup, hs]
  · rw [hreg, updated_append hr hret, System.mem_recorded_iff, lastChange_append, hs, changes?]
    cases System.acknowledged? g (.operation r.op, .ok ()) <;> simp

private theorem registered_run (h : (start topics options).run acts = some s) (g : Eui) :
    g ∈ s.backend.registry.gateways ↔ lastChange g s.updated = some true :=
  Runs.invariant
    (P := fun t => g ∈ t.backend.registry.gateways ↔ lastChange g t.updated = some true)
    (fun _ _ _ _ hs => registered_step hs) h
    (iff_of_false List.not_mem_nil nofun)

theorem updated_numbers (s : Actors) :
    (s.updated.map Prod.fst).Sublist (s.returned.map (·.number)) := by
  unfold updated
  induction s.returned with
  | nil => simp
  | cons r rs ih =>
    cases hr : r.result with
    | error e =>
      have hu : r.updated? = none := by simp [Returned.updated?, hr]
      simpa [List.filterMap_cons, hu] using ih.cons r.number
    | ok u =>
      have hu : r.updated? = some (r.number, r.op) := by simp [Returned.updated?, hr]
      simpa [List.filterMap_cons, hu] using ih.cons_cons r.number

/-- What calls leave that overlap, once all of them have returned. -/
structure Settled (s : Actors) : Prop where
  each : s.updated.Perm s.accepted
  once : (s.updated.map Prod.fst).Nodup
  registered : ∀ g, g ∈ s.backend.registry.gateways ↔ lastChange g s.updated = some true
  agrees_iff : ∀ g, (g ∈ s.backend.registry.gateways ↔ lastChange g s.accepted = some true) ↔
    lastChange g s.updated = lastChange g s.accepted
  overtaken : ∀ g p q, lastCall g s.updated = some p → lastCall g s.accepted = some q → p ≠ q →
    [p, q].Sublist s.accepted ∧ [q, p].Sublist s.updated

theorem calls_settled (h : (start topics options).run acts = some s) (hcalls : s.calls = []) :
    s.Settled := by
  have heach : s.updated.Perm s.accepted := by
    have := accepted_run h
    simpa [confirmed, hcalls] using this.symm
  have hnumbers : (s.returned.map (·.number)).Nodup := by
    have := nodup_numbers h
    simpa [numbers, hcalls] using this
  have hnone : ∀ g, lastChange g s.updated = none ↔ lastChange g s.accepted = none := by
    intro g
    rw [lastChange_eq_none, lastChange_eq_none]
    simp only [heach.mem_iff]
  refine ⟨heach, hnumbers.sublist s.updated_numbers, registered_run h, ?_, ?_⟩
  · intro g
    rw [registered_run h]
    have hg := hnone g
    generalize lastChange g s.updated = updated at hg ⊢
    generalize lastChange g s.accepted = accepted at hg ⊢
    rcases updated with _ | _ | _ <;> rcases accepted with _ | _ | _ <;> simp at hg ⊢
  · intro g p q hp hq hne
    obtain ⟨hpmem, hpc⟩ := changes_of_lastCall hp
    obtain ⟨hqmem, hqc⟩ := changes_of_lastCall hq
    constructor
    · exact sublist_of_lastCall hq (heach.mem_iff.1 hpmem) hpc hne
    · exact sublist_of_lastCall hp (heach.mem_iff.2 hqmem) hqc hne.symm

def overlappingCalls : List Act :=
  [.event (.connected false), .resume, .call (.subscribe (.ofWord 1)),
    .call (.unsubscribe (.ofWord 1)), .call (.subscribe (.ofWord 1)), .send 0, .send 1, .send 2,
    .accept 1, .accept 0, .accept 2, .finish 0, .finish 0, .finish 0]

/-- Three calls for one gateway overlap; the last one that the client accepted is the last
one to return. -/
theorem calls_settled_subscribed : ∃ s,
    (start System.sampleTopics .default).run overlappingCalls = some s ∧ s.calls = [] ∧
    s.backend.registry.gateways = [.ofWord 1] ∧ s.Settled := by
  obtain ⟨s, hrun, hcalls, hreg⟩ : ∃ s,
      (start System.sampleTopics .default).run overlappingCalls = some s ∧ s.calls = [] ∧
      s.backend.registry.gateways = [.ofWord 1] := ⟨_, rfl, rfl, by decide⟩
  exact ⟨s, hrun, hcalls, hreg, calls_settled hrun hcalls⟩

/-- The client accepts a subscription and then an unsubscription of one gateway; the answers
are taken up the other way round, and the gateway stays registered. -/
theorem calls_not_settled_as_accepted : ∃ s,
    (start System.sampleTopics .default).run
      [.event (.connected false), .resume, .call (.subscribe (.ofWord 1)),
        .call (.unsubscribe (.ofWord 1)), .send 0, .send 1, .accept 0, .accept 1, .finish 1,
        .finish 0] = some s ∧
    s.backend.state = .connected ∧ s.calls = [] ∧ s.returned.length = 2 ∧
    .ofWord 1 ∈ s.backend.registry.gateways ∧
    lastChange (.ofWord 1) s.accepted = some false :=
  ⟨_, rfl, rfl, rfl, rfl, by decide, rfl⟩

end Actors

end LoraBridge.Backend
