import LoraBridge.Proofs.Backend.Connectivity
import LoraBridge.Proofs.Backend.Shutdown

/-! What calls ask the client for. A call that goes on to the client brings its request there
once, whatever else goes on meanwhile, and succeeds if and only if the client accepts it. A call
that is refused brings nothing. -/
namespace LoraBridge.Backend

open Transport (Request)

/-- The request that a call still has to bring to the client. -/
def Underway.owes? (n : Nat) (c : Underway) : Option Request :=
  match c.stage with
  | .prepared => if c.number = n then some c.request else none
  | .sent | .answered _ => none

@[simp] theorem Underway.owes?_eq_none_iff {n : Nat} {c : Underway} :
    c.owes? n = none ↔ (c.stage = .prepared → c.number ≠ n) := by
  unfold owes?
  split
  all_goals
    next hc => simp [hc]

@[simp] theorem Underway.owes?_eq_some_iff {n : Nat} {c : Underway} {r : Request} :
    c.owes? n = some r ↔ c.stage = .prepared ∧ c.number = n ∧ c.request = r := by
  unfold owes?
  split
  all_goals
    next hc => simp [hc]

namespace Actors

variable {s s' t : Actors} {topics : Topic.Topics} {options : Options} {acts later : List Act}
  {n : Nat}

def owed (s : Actors) (n : Nat) : List Request :=
  s.calls.filterMap (Underway.owes? n)

/-- The request that a step brings to the client for a call, with the number of the call. -/
def sends (s : Actors) : Act → List (Nat × Request)
  | .send i => s.calls[i]?.toList.map fun c => (c.number, c.request)
  | _ => []

def sent (s : Actors) : List Act → List (Nat × Request)
  | [] => []
  | a :: as => s.sends a ++ (s.step a).elim [] fun t => sent t as

def ofCall (n : Nat) (rs : List (Nat × Request)) : List Request :=
  rs.filterMap fun p => if p.1 = n then some p.2 else none

private theorem ofCall_append (n : Nat) (rs rs' : List (Nat × Request)) :
    ofCall n (rs ++ rs') = ofCall n rs ++ ofCall n rs' :=
  List.filterMap_append

theorem sent_cons {a : Act} (h : s.step a = some s') (as : List Act) :
    s.sent (a :: as) = s.sends a ++ s'.sent as := by
  rw [sent, h, Option.elim_some]

private theorem ofCall_sends {i : Nat} {c : Underway} (h : s.calls[i]? = some c)
    (hc : c.stage = .prepared) : ofCall n (s.sends (.send i)) = (c.owes? n).toList := by
  by_cases hn : c.number = n <;> simp [sends, ofCall, h, Underway.owes?, hc, hn]

/-- A step takes from what a call owes the client what it brings there. -/
theorem owed_step {a : Act} (hn : n < s.started) (hstep : s.step a = some s') :
    (s.owed n).Perm (ofCall n (s.sends a) ++ s'.owed n) := by
  cases steps_of_step hstep with
  | called =>
    have hnew : s.started ≠ n := Nat.ne_of_gt hn
    simp [owed, sends, ofCall, Underway.owes?, hnew]
  | @sent i c hc hstage =>
    have hset := filterMap_set_perm hc
      { c with stage := if s.shutDown then .answered (.error .shutdown) else .sent }
      (Underway.owes? n)
    rw [Underway.owes?_eq_none_iff.2 (by cases s.shutDown <;> simp)] at hset
    rw [ofCall_sends hc hstage]
    -- What the call owed is what it brings to the client now.
    exact (filterMap_eraseIdx_perm hc _).trans (hset.symm.append_left _)
  | @accepted _ c hc hstage | @declined _ c _ hc hstage =>
    have herase := filterMap_eraseIdx_perm hc (Underway.owes? n)
    rw [Underway.owes?_eq_none_iff.2 (by simp [hstage])] at herase
    refine herase.trans (List.Perm.symm ((filterMap_set_perm hc _ _).trans ?_))
    rw [Underway.owes?_eq_none_iff.2 (by simp)]
  | failed hc hstage | succeeded hc hstage =>
    have herase := filterMap_eraseIdx_perm hc (Underway.owes? n)
    rwa [Underway.owes?_eq_none_iff.2 (by simp [hstage])] at herase
  | refused | shut | wasClosed | closes | disconnects | closed | event | lost | connected
  | movedUp | halted | received | nothing | left | stops | looks | idles | asked | attempted
  | awakened | straggled | faded | vanished => exact List.Perm.refl _

theorem started_step {a : Act} (hstep : s.step a = some s') : s.started ≤ s'.started := by
  cases steps_of_step hstep with
  | refused | called => exact Nat.le_succ _
  | sent | accepted | declined | failed | succeeded | shut | wasClosed | closes | disconnects
  | closed | event | lost | connected | movedUp | halted | received | nothing | left | stops
  | looks | idles | asked | attempted | awakened | straggled
  | faded | vanished => exact Nat.le_refl _

private theorem started_run (hrun : s.run acts = some t) : s.started ≤ t.started :=
  Runs.invariant (P := fun u => s.started ≤ u.started)
    (fun _ _ _ _ hu hstep => Nat.le_trans hu (started_step hstep)) hrun (Nat.le_refl _)

theorem owed_run (hn : n < s.started) (hrun : s.run acts = some t) :
    (s.owed n).Perm (ofCall n (s.sent acts) ++ t.owed n) := by
  induction acts generalizing s with
  | nil =>
    cases hrun
    exact List.Perm.refl _
  | cons a as ih =>
    obtain ⟨u, hu, hrest⟩ := Option.bind_eq_some_iff.1 hrun
    have hlater := ih (Nat.lt_of_lt_of_le hn (started_step hu)) hrest
    rw [sent_cons hu, ofCall_append, List.append_assoc]
    exact (owed_step hn hu).trans (hlater.append_left _)

@[simp] theorem owed_eq_nil (h : ∀ c ∈ s.calls, c.number ≠ n) : s.owed n = [] :=
  List.filterMap_eq_nil_iff.2 fun c hc => Underway.owes?_eq_none_iff.2 fun _ => h c hc

/-- A call returns with success if and only if the client accepted its request. -/
theorem ok_iff_accepted (h : (start topics options).run acts = some s) {r : Returned}
    (hr : r ∈ s.returned) : r.result = .ok () ↔ r.number ∈ s.accepted.map Prod.fst := by
  constructor
  · intro hok
    exact List.mem_map_of_mem (f := Prod.fst) (accepted_of_ok h hr hok)
  · intro hmem
    obtain ⟨p, hp, hnumber⟩ := List.mem_map.1 hmem
    rcases List.mem_append.1 ((accepted_run h).mem_iff.1 hp) with hp | hp
    · obtain ⟨r', hr', hup⟩ := List.mem_filterMap.1 hp
      obtain ⟨hok, rfl⟩ := Returned.updated?_eq_some_iff.1 hup
      rwa [← returned_inj h hr' hr hnumber]
    -- A call that is only about to succeed has not returned.
    · obtain ⟨c, hc, hconf⟩ := List.mem_filterMap.1 hp
      obtain ⟨-, rfl⟩ := Underway.confirmed?_eq_some_iff.1 hconf
      exact absurd hnumber (not_underway_of_returned h hr c hc)

theorem published_step {a : Act} (hstep : s.step a = some s') : s'.requested .publish =
    s.requested .publish ++ ((s.sends a).map Prod.snd).filter fun r => r.operation = .publish := by
  cases steps_of_step hstep with
  | sent hc => simp [requested, sends, hc]
  | disconnects | asked | straggled => simp [requested, sends, Request.operation]
  | refused | called | accepted | declined | failed | succeeded | shut | wasClosed | closes
  | closed | event | lost | connected | movedUp | halted | received | nothing | left | stops
  | looks | idles | attempted | awakened | faded | vanished =>
    exact (List.append_nil _).symm

theorem published_run (hrun : s.run acts = some t) : t.requested .publish =
    s.requested .publish ++ ((s.sent acts).map Prod.snd).filter fun r => r.operation = .publish := by
  induction acts generalizing s with
  | nil =>
    cases hrun
    exact (List.append_nil _).symm
  | cons a as ih =>
    obtain ⟨u, hu, hrest⟩ := Option.bind_eq_some_iff.1 hrun
    rw [ih hrest, published_step hu, sent_cons hu, List.map_append, List.filter_append,
      List.append_assoc]

/-- What becomes of a call that goes on to the client, and of what it asked for there. -/
structure Outcome (n : Nat) (request : Request) (asked : List Request) (s : Actors) : Prop where
  once : asked = [request] ∨ asked = [] ∧ ∃ c ∈ s.calls, c.number = n ∧ c.stage = .prepared
  returned : ∀ r ∈ s.returned, r.number = n →
    asked = [request] ∧ (r.result = .ok () ↔ n ∈ s.accepted.map Prod.fst)
  /-- Until it returns it goes on, and waits for nothing but the answer. -/
  goesOn : (∀ r ∈ s.returned, r.number ≠ n) → ∃ i c, s.calls[i]? = some c ∧ c.number = n ∧
    (c.stage = .sent ∨ ∃ a ∈ [Act.send i, .finish i], ∃ t, s.step a = some t)

private theorem goesOn_of_underway {i : Nat} {c : Underway} (h : s.calls[i]? = some c) :
    c.stage = .sent ∨ ∃ a ∈ [Act.send i, .finish i], ∃ t, s.step a = some t := by
  cases hstage : c.stage with
  | prepared => exact .inr ⟨.send i, by simp, by simp [step, h, hstage]⟩
  | sent => exact .inl rfl
  | answered a => exact .inr ⟨.finish i, by simp, by simp [step, h, hstage]⟩

theorem started_call {op : Operation} (hu : s.step (.call op) = some t) :
    t.started = s.started + 1 := by
  cases steps_of_step hu with
  | refused | called => rfl

theorem owed_call {op : Operation} {u : Actors} (hu : s.step (.call op) = some u)
    (hrest : u.run later = some t) : (u.owed s.started).Perm
      (ofCall s.started (s.sent (.call op :: later)) ++ t.owed s.started) := by
  have hlt : s.started < u.started := by simp [started_call hu]
  rw [sent_cons hu]
  exact owed_run hlt hrest

theorem asked_or_owed (h : (start topics options).run acts = some s) {op : Operation}
    {request : Request} {event : Log.Event} (hp : s.backend.prepare op = .ok (request, event))
    (hrun : s.run (.call op :: later) = some t) :
    ofCall s.started (s.sent (.call op :: later)) = [] ∧ t.owed s.started = [request] ∨
      ofCall s.started (s.sent (.call op :: later)) = [request] ∧ t.owed s.started = [] := by
  obtain ⟨u, hu, hrest⟩ := Option.bind_eq_some_iff.1 hrun
  have hcalls : u.calls = s.calls ++ [⟨s.started, op, request, .prepared⟩] := by
    simp only [step, hp, Option.some.injEq] at hu
    rw [← hu]
  have howed : u.owed s.started = [request] := by
    have hnone := owed_eq_nil fun c hc => Nat.ne_of_lt (number_lt_started h hc)
    unfold owed at hnone ⊢
    rw [hcalls, List.filterMap_append, hnone]
    simp [Underway.owes?]
  have hperm := owed_call hu hrest
  rw [howed] at hperm
  exact List.append_eq_singleton_iff.1 (List.perm_singleton.1 hperm.symm)

theorem underway_or_returned (h : (start topics options).run acts = some s) (hn : n < s.started) :
    (∃ (i : Nat) (c : Underway), s.calls[i]? = some c ∧ c.number = n) ∨
      ∃ r ∈ s.returned, r.number = n := by
  have hmem := (numbers_run h).mem_iff.2 (List.mem_range.2 hn)
  rcases List.mem_append.1 hmem with hmem | hmem
  · obtain ⟨c, hc, hnumber⟩ := List.mem_map.1 hmem
    obtain ⟨i, hi⟩ := List.mem_iff_getElem?.1 hc
    exact .inl ⟨i, c, hi, hnumber⟩
  · obtain ⟨r, hr, hnumber⟩ := List.mem_map.1 hmem
    exact .inr ⟨r, hr, hnumber⟩

theorem outcome (h : (start topics options).run acts = some s) {op : Operation}
    {request : Request} {event : Log.Event} (hp : s.backend.prepare op = .ok (request, event))
    (hrun : s.run (.call op :: later) = some t) :
    t.Outcome s.started request (ofCall s.started (s.sent (.call op :: later))) := by
  have hwhole : (start topics options).run (acts ++ .call op :: later) = some t :=
    Runs.append_eq_some.2 ⟨s, h, hrun⟩
  refine ⟨?_, ?_, ?_⟩
  · rcases asked_or_owed h hp hrun with ⟨hnone, howed⟩ | ⟨hone, -⟩
    · have hmem : request ∈ t.owed s.started := by simp [howed]
      obtain ⟨c, hc, howes⟩ := List.mem_filterMap.1 hmem
      obtain ⟨hstage, hnumber, -⟩ := Underway.owes?_eq_some_iff.1 howes
      exact .inr ⟨hnone, c, hc, hnumber, hstage⟩
    · exact .inl hone
  · intro r hr hnumber
    have hnone := owed_eq_nil (not_underway_of_returned hwhole hr)
    rw [hnumber] at hnone
    rcases asked_or_owed h hp hrun with ⟨-, howed⟩ | ⟨hone, -⟩
    · simp [hnone] at howed
    · exact ⟨hone, hnumber ▸ ok_iff_accepted hwhole hr⟩
  · intro hnot
    obtain ⟨u, hu, hrest⟩ := Option.bind_eq_some_iff.1 hrun
    have hlt : s.started < t.started := by
      have hmono := started_run hrest
      rw [started_call hu] at hmono
      exact hmono
    rcases underway_or_returned hwhole hlt with ⟨i, c, hi, hnumber⟩ | ⟨r, hr, hnumber⟩
    · exact ⟨i, c, hi, hnumber, goesOn_of_underway hi⟩
    · exact absurd hnumber (hnot r hr)

theorem silent_of_refused (h : (start topics options).run acts = some s) {op : Operation}
    {e : Error} (hp : s.backend.prepare op = .error e)
    (hrun : s.run (.call op :: later) = some t) :
    ofCall s.started (s.sent (.call op :: later)) = [] ∧
      ⟨s.started, op, .error e⟩ ∈ t.returned := by
  obtain ⟨u, hu, hrest⟩ := Option.bind_eq_some_iff.1 hrun
  have hrefused : u = { s with
      started := s.started + 1
      returned := s.returned ++ [⟨s.started, op, .error e⟩] } := by
    simpa [step, hp] using hu.symm
  have howed : u.owed s.started = [] := by
    rw [hrefused]
    exact owed_eq_nil fun c hc => Nat.ne_of_lt (number_lt_started h hc)
  have hperm := owed_call hu hrest
  rw [howed] at hperm
  constructor
  · exact (List.append_eq_nil_iff.1 (List.nil_perm.1 hperm)).1
  · exact (returned_run hrest).subset (by simp [hrefused])

end Actors

end LoraBridge.Backend
