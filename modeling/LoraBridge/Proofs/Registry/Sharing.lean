import Mathlib.Data.List.Induction
import Mathlib.Data.List.Sort
import Mathlib.Logic.Function.Basic
import LoraBridge.Proofs.Eui.Text
import LoraBridge.Proofs.Runs
import LoraBridge.Registry

/-! A registry that tasks share. Every task makes its accesses in its own order, and the tasks
come to their turns in any order. What an access is told can be read off the accesses before it:
the latest addition or removal of a gateway counts. Tasks that name different gateways do not
notice each other, and what was told once does not change any more. -/
namespace LoraBridge

namespace Registry

namespace Access

def gateway? : Access → Option Eui
  | .add gateway | .remove gateway | .contains gateway => some gateway
  | .snapshot | .size | .isEmpty => none

def word? (g : Eui) : Access → Option Bool
  | .add gateway => if gateway = g then some true else none
  | .remove gateway => if gateway = g then some false else none
  | .contains _ | .snapshot | .size | .isEmpty => none

def isChange : Access → Bool
  | .add _ | .remove _ => true
  | .contains _ | .snapshot | .size | .isEmpty => false

@[simp]
theorem word?_eq_none {g : Eui} {a : Access} (h : a.gateway? ≠ some g) : a.word? g = none := by
  cases a with
  | add gateway | remove gateway => exact if_neg fun heq => h (congrArg some heq)
  | contains | snapshot | size | isEmpty => rfl

private theorem word?_of_not_isChange {a : Access} (h : a.isChange = false) (g : Eui) :
    a.word? g = none := by
  cases a with
  | add | remove => cases h
  | contains | snapshot | size | isEmpty => rfl

end Access

/-- Whether a gateway is registered after some accesses: the latest word on it counts. -/
def registered (r : Registry) (history : List Access) (g : Eui) : Bool :=
  (history.filterMap (·.word? g)).getLast?.getD (r.contains g)

structure Lists (r : Registry) (history : List Access) (es : List Eui) : Prop where
  ascending : es.Pairwise (· < ·)
  mem_iff : ∀ g, g ∈ es ↔ r.registered history g = true

inductive Told (r : Registry) (history : List Access) : Access → Answer → Prop where
  | added (g : Eui) : Told r history (.add g) (.flag (!r.registered history g))
  | removed (g : Eui) : Told r history (.remove g) (.flag (r.registered history g))
  | contained (g : Eui) : Told r history (.contains g) (.flag (r.registered history g))
  | listed {es : List Eui} (h : r.Lists history es) : Told r history .snapshot (.listing es)
  | counted {es : List Eui} (h : r.Lists history es) : Told r history .size (.count es.length)
  | asked {es : List Eui} (h : r.Lists history es) : Told r history .isEmpty (.flag es.isEmpty)

section

variable {r r' : Registry} {history more : List Access} {a : Access} {x y : Answer} {g : Eui}
  {es es' : List Eui}

private theorem registered_concat (r : Registry) (history : List Access) (a : Access) (g : Eui) :
    r.registered (history ++ [a]) g = (a.word? g).getD (r.registered history g) := by
  unfold registered
  rw [List.filterMap_append]
  cases ha : a.word? g with
  | none => rw [List.filterMap_cons_none ha, List.filterMap_nil, List.append_nil]; rfl
  | some b => rw [List.filterMap_cons_some ha, List.filterMap_nil, List.getLast?_append]; rfl

theorem registered_append (history : List Access) (h : ∀ a ∈ more, a.word? g = none) :
    r.registered (history ++ more) g = r.registered history g := by
  unfold registered
  rw [List.filterMap_append, List.filterMap_eq_nil_iff.2 h, List.append_nil]

theorem Lists.unique (h : r.Lists history es) (h' : r.Lists history es') : es = es' := by
  apply List.Pairwise.eq_of_mem_iff h.ascending h'.ascending
  intro g
  rw [h.mem_iff, h'.mem_iff]

theorem Told.unique (h : r.Told history a x) (h' : r.Told history a y) : x = y := by
  cases h with
  | added | removed | contained => cases h'; rfl
  | listed hes => cases h' with | listed hes' => rw [hes.unique hes']
  | counted hes => cases h' with | counted hes' => rw [hes.unique hes']
  | asked hes => cases h' with | asked hes' => rw [hes.unique hes']

theorem Told.congr (h : r.Told history a x) (ha : a.gateway? = some g)
    (hg : r.registered history g = r.registered more g) : r.Told more a x := by
  cases h with
  | added | removed | contained =>
    cases ha
    rw [hg]
    constructor
  | listed | counted | asked => cases ha

private theorem eq_of_gateways_eq (h : r.gateways = r'.gateways) : r = r' := by
  cases r
  cases r'
  cases h
  rfl

theorem contains_eq (h : r.Lists history r'.gateways) (g : Eui) :
    r'.contains g = r.registered history g := by
  rw [Bool.eq_iff_iff, contains_iff, h.mem_iff]

theorem told_perform (h : r.Lists history r'.gateways) (a : Access) :
    r.Told history a (r'.perform a).1 := by
  cases a with
  | add g => rw [perform, contains_eq h]; exact .added g
  | remove g => rw [perform, contains_eq h]; exact .removed g
  | contains g => rw [perform, contains_eq h]; exact .contained g
  | snapshot => exact .listed h
  | size => exact .counted h
  | isEmpty => exact .asked h

@[simp] theorem mem_perform (r : Registry) (a : Access) (g : Eui) :
    g ∈ (r.perform a).2.gateways ↔ (a.word? g).getD (r.contains g) = true := by
  cases a with
  | contains | snapshot | size | isEmpty => exact contains_iff.symm
  | add gateway =>
    rw [perform, mem_add, Access.word?]
    split
    · next h => simp [h]
    · next h => simp [Ne.symm h, contains_iff]
  | remove gateway =>
    rw [perform, mem_remove, Access.word?]
    split
    · next h => simp [h]
    · next h => simp [Ne.symm h, contains_iff]

theorem lists_perform (h : r.Lists history r'.gateways) (a : Access) :
    r.Lists (history ++ [a]) (r'.perform a).2.gateways := by
  refine ⟨(r'.perform a).2.sorted, fun g => ?_⟩
  rw [mem_perform, registered_concat, contains_eq h]

private theorem exists_lists (r : Registry) (history : List Access) : ∃ es, r.Lists history es := by
  suffices ∃ r' : Registry, r.Lists history r'.gateways from this.elim fun r' h => ⟨_, h⟩
  induction history using List.reverseRecOn with
  | nil => exact ⟨r, r.sorted, fun g => contains_iff.symm⟩
  | append_singleton history a ih =>
    obtain ⟨r', hr'⟩ := ih
    exact ⟨_, lists_perform hr' a⟩

private theorem lists_append (h : ∀ a ∈ more, a.isChange = false) :
    r.Lists (history ++ more) es ↔ r.Lists history es := by
  have hsame : ∀ g, r.registered (history ++ more) g = r.registered history g := fun g =>
    registered_append history fun a ha => Access.word?_of_not_isChange (h a ha) g
  constructor
  · exact fun hes => ⟨hes.ascending, fun g => by rw [hes.mem_iff, hsame]⟩
  · exact fun hes => ⟨hes.ascending, fun g => by rw [hes.mem_iff, hsame]⟩

end

/-- An access that was made, and what it was told. -/
structure Entry (Task : Type) where
  task : Task
  access : Access
  answer : Answer

structure Shared (Task : Type) where
  registry : Registry
  todo : Task → List Access
  log : List (Entry Task)

/-- Different tasks name different gateways. -/
def Apart {Task : Type} (programs : Task → List Access) : Prop :=
  ∀ t u, t ≠ u → ∀ a ∈ programs t, ∀ b ∈ programs u, ∀ g ∈ a.gateway?, g ∉ b.gateway?

namespace Shared

variable {Task : Type} [DecidableEq Task]

def start (r : Registry) (programs : Task → List Access) : Shared Task :=
  ⟨r, programs, []⟩

def make (s : Shared Task) (t : Task) (a : Access) (rest : List Access) : Shared Task where
  registry := (s.registry.perform a).2
  todo := Function.update s.todo t rest
  log := s.log ++ [⟨t, a, (s.registry.perform a).1⟩]

def step (s : Shared Task) (t : Task) : Option (Shared Task) :=
  match s.todo t with
  | [] => none
  | a :: rest => some (s.make t a rest)

def run (s : Shared Task) (ts : List Task) : Option (Shared Task) :=
  ts.foldlM step s

def Finished (s : Shared Task) : Prop :=
  ∀ t, s.todo t = []

def entries (s : Shared Task) (t : Task) : List (Entry Task) :=
  s.log.filter (·.task = t)

def answer? (s : Shared Task) (t : Task) (i : Nat) : Option Answer :=
  (s.entries t)[i]?.map (·.answer)

section

variable {r : Registry} {programs : Task → List Access} {s s' : Shared Task} {t u : Task}
  {a : Access} {rest : List Access} {schedule : List Task}

@[simp] theorem todo_make_self : (s.make t a rest).todo t = rest :=
  Function.update_self ..

@[simp] theorem todo_make_of_ne (h : u ≠ t) : (s.make t a rest).todo u = s.todo u :=
  Function.update_of_ne h ..

private theorem entries_make_self :
    (s.make t a rest).entries t = s.entries t ++ [⟨t, a, (s.registry.perform a).1⟩] := by
  simp [entries, make]

private theorem entries_make_of_ne (h : u ≠ t) : (s.make t a rest).entries u = s.entries u := by
  simp [entries, make, Ne.symm h]

theorem step_eq_some (h : s.step t = some s') :
    ∃ a rest, s.todo t = a :: rest ∧ s' = s.make t a rest := by
  unfold step at h
  split at h
  · cases h
  · next a rest htodo => exact ⟨a, rest, htodo, (Option.some.inj h).symm⟩

private theorem log_run (h : s.run schedule = some s') : s.log <+: s'.log := by
  refine Runs.invariant (P := fun v => s.log <+: v.log) ?_ h (List.prefix_refl _)
  intro v t v' _ hv hstep
  obtain ⟨a, rest, -, rfl⟩ := step_eq_some hstep
  exact hv.trans (List.prefix_append _ _)

theorem exists_run (h : ∀ t, schedule.count t = (s.todo t).length) :
    ∃ s', s.run schedule = some s' ∧ s'.Finished := by
  induction schedule generalizing s with
  | nil => exact ⟨s, rfl, fun t => List.length_eq_zero_iff.1 (h t).symm⟩
  | cons t ts ih =>
    cases htodo : s.todo t with
    | nil =>
      have hcount := h t
      rw [htodo, List.count_cons_self] at hcount
      cases hcount
    | cons a rest =>
      have hstep : s.step t = some (s.make t a rest) := by
        rw [step, htodo]
      rw [run, Runs.cons, hstep]
      apply ih
      intro u
      have hcount := h u
      by_cases hu : u = t
      · rw [hu, htodo, List.count_cons_self, List.length_cons] at hcount
        rw [hu, todo_make_self]
        exact Nat.succ.inj hcount
      · rw [List.count_cons_of_ne (Ne.symm hu)] at hcount
        rw [todo_make_of_ne hu, hcount]

/-- How a registry stands while tasks use it. -/
structure Recorded (r : Registry) (programs : Task → List Access) (s : Shared Task) : Prop where
  lists : r.Lists (s.log.map (·.access)) s.registry.gateways
  told : ∀ before e after, s.log = before ++ e :: after →
    r.Told (before.map (·.access)) e.access e.answer
  order : ∀ t, (s.entries t).map (·.access) ++ s.todo t = programs t

private theorem recorded_start : Recorded r programs (start r programs) := by
  refine ⟨⟨r.sorted, fun g => contains_iff.symm⟩, ?_, fun t => rfl⟩
  intro before e after h
  cases before <;> cases h

theorem recorded_step (hs : Recorded r programs s) (h : s.step t = some s') :
    Recorded r programs s' := by
  obtain ⟨a, rest, htodo, rfl⟩ := step_eq_some h
  refine ⟨?_, ?_, ?_⟩
  · rw [make, List.map_append]
    exact lists_perform hs.lists a
  · intro before e after hlog
    -- The entry is the new one, or it has stood there before.
    rcases List.eq_nil_or_concat after with rfl | ⟨after, e', rfl⟩
    · obtain ⟨rfl, he⟩ := List.append_inj' hlog rfl
      cases he
      exact told_perform hs.lists a
    · rw [List.concat_eq_append, ← List.cons_append, ← List.append_assoc] at hlog
      exact hs.told before e after (List.append_inj' hlog rfl).1
  · intro u
    rw [← hs.order u]
    by_cases hu : u = t
    · rw [hu, entries_make_self, todo_make_self, htodo, List.map_append, List.append_assoc]
      rfl
    · rw [entries_make_of_ne hu, todo_make_of_ne hu]

theorem recorded_run (h : (start r programs).run schedule = some s) : Recorded r programs s :=
  Runs.invariant (fun _ _ _ _ hs hstep => recorded_step hs hstep) h recorded_start

theorem mem_programs (hs : Recorded r programs s) {e : Entry Task} (he : e ∈ s.log) :
    e.access ∈ programs e.task := by
  rw [← hs.order e.task]
  apply List.mem_append_left
  exact List.mem_map_of_mem (List.mem_filter.2 ⟨he, decide_eq_true rfl⟩)

theorem registered_entries {es : List (Entry Task)} {g : Eui}
    (h : ∀ e ∈ es, e.task ≠ t → e.access.gateway? ≠ some g) :
    r.registered (es.map (·.access)) g =
      r.registered ((es.filter (·.task = t)).map (·.access)) g := by
  unfold registered
  have hwords : (es.map (·.access)).filterMap (·.word? g) =
      ((es.filter (·.task = t)).map (·.access)).filterMap (·.word? g) := by
    induction es with
    | nil => rfl
    | cons e es ih =>
      have hes := ih fun e he => h e (List.mem_cons_of_mem _ he)
      by_cases he : e.task = t
      · rw [List.filter_cons_of_pos (by simpa using he), List.map_cons, List.map_cons,
          List.filterMap_cons, List.filterMap_cons, hes]
      · rw [List.filter_cons_of_neg (by simpa using he), List.map_cons,
          List.filterMap_cons_none (Access.word?_eq_none (h e List.mem_cons_self he)), hes]
  rw [hwords]

theorem map_take_entries (hs : Recorded r programs s) {i : Nat} (hi : i ≤ (s.entries t).length) :
    ((s.entries t).take i).map (·.access) = (programs t).take i := by
  rw [← hs.order t, List.take_append_of_le_length (by rwa [List.length_map]), List.map_take]

theorem map_entries (hs : Recorded r programs s) (hdone : s.Finished) :
    (s.entries t).map (·.access) = programs t := by
  rw [← hs.order t, hdone t, List.append_nil]

theorem log_of_entries {i : Nat} {e : Entry Task} (he : (s.entries t)[i]? = some e) :
    ∃ before after, s.log = before ++ e :: after ∧
      before.filter (·.task = t) = (s.entries t).take i ∧ e.task = t := by
  obtain ⟨hi, rfl⟩ := List.getElem?_eq_some_iff.1 he
  have hsplit : s.entries t = (s.entries t).take i ++ (s.entries t)[i] ::
      (s.entries t).drop (i + 1) := by
    rw [List.getElem_cons_drop, List.take_append_drop]
  obtain ⟨early, late, hlog, hearly, hlate⟩ := List.filter_eq_append_iff.1 hsplit
  obtain ⟨others, after, rfl, hothers, htask, -⟩ := List.filter_eq_cons_iff.1 hlate
  refine ⟨early ++ others, after, ?_, ?_, of_decide_eq_true htask⟩
  · rw [hlog, List.append_assoc]
  · rw [List.filter_append, hearly, List.filter_eq_nil_iff.2 hothers, List.append_nil]

theorem told_alone (hs : Recorded r programs s) (hapart : Apart programs) {i : Nat}
    {e : Entry Task} {g : Eui} (he : (s.entries t)[i]? = some e) (hg : g ∈ e.access.gateway?) :
    r.Told ((programs t).take i) e.access e.answer := by
  obtain ⟨before, after, hlog, hown, rfl⟩ := log_of_entries he
  have hi : i ≤ (s.entries e.task).length := (List.getElem?_eq_some_iff.1 he).1.le
  have hmem : e.access ∈ programs e.task :=
    mem_programs hs (hlog ▸ List.mem_append_right _ List.mem_cons_self)
  apply (hs.told before e after hlog).congr hg
  rw [← map_take_entries hs hi, ← hown]
  apply registered_entries
  intro e' he' hne
  exact hapart e.task e'.task (Ne.symm hne) e.access hmem e'.access
    (mem_programs hs (hlog ▸ List.mem_append_left _ he')) g hg

private theorem registered_of_named (hs : Recorded r programs s) (hapart : Apart programs)
    (hdone : s.Finished) {g : Eui} (ha : a ∈ programs t) (hg : g ∈ a.gateway?) :
    r.registered (s.log.map (·.access)) g = r.registered (programs t) g := by
  rw [← map_entries hs hdone]
  apply registered_entries
  intro e he hne
  exact hapart t e.task (Ne.symm hne) a ha e.access (mem_programs hs he) g hg

private theorem registered_of_unnamed (hs : Recorded r programs s) {g : Eui}
    (h : ∀ t, ∀ a ∈ programs t, g ∉ a.gateway?) :
    r.registered (s.log.map (·.access)) g = r.registered [] g := by
  apply registered_append []
  intro a ha
  obtain ⟨e, he, rfl⟩ := List.mem_map.1 ha
  exact Access.word?_eq_none (h e.task e.access (mem_programs hs he))

/-- Tasks that name different gateways leave the same registry, in whichever order they go. -/
theorem registry_eq (hs : Recorded r programs s) (hs' : Recorded r programs s')
    (hapart : Apart programs) (hdone : s.Finished) (hdone' : s'.Finished) :
    s'.registry = s.registry := by
  have hsame : ∀ g, r.registered (s'.log.map (·.access)) g =
      r.registered (s.log.map (·.access)) g := by
    intro g
    by_cases h : ∃ t, ∃ a ∈ programs t, g ∈ a.gateway?
    · obtain ⟨t, a, ha, hg⟩ := h
      rw [registered_of_named hs hapart hdone ha hg, registered_of_named hs' hapart hdone' ha hg]
    · simp only [not_exists, not_and] at h
      rw [registered_of_unnamed hs h, registered_of_unnamed hs' h]
  have hlists : r.Lists (s.log.map (·.access)) s'.registry.gateways :=
    ⟨s'.registry.sorted, fun g => by rw [hs'.lists.mem_iff, hsame]⟩
  exact eq_of_gateways_eq (hlists.unique hs.lists)

private theorem answer?_of_finished (hs : Recorded r programs s) (hapart : Apart programs)
    (hdone : s.Finished) {i : Nat} {g : Eui} (ha : (programs t)[i]? = some a)
    (hg : g ∈ a.gateway?) : ∃ x, s.answer? t i = some x ∧ r.Told ((programs t).take i) a x := by
  rw [← map_entries hs hdone, List.getElem?_map] at ha
  obtain ⟨e, he, rfl⟩ := Option.map_eq_some_iff.1 ha
  exact ⟨e.answer, congrArg _ he, told_alone hs hapart he hg⟩

/-- What holds of a registry that tasks share, and of what they were told. -/
structure WellShared (r : Registry) (programs : Task → List Access) (s : Shared Task) : Prop where
  told : ∀ before e after, s.log = before ++ e :: after →
    r.Told (before.map (·.access)) e.access e.answer
  kept : ∀ later s', s.run later = some s' → s.log <+: s'.log
  /-- Between two changes there is one list of gateways, in ascending order, that every snapshot
  gives, and by which the registry has its size and is empty or not. -/
  agree : ∀ before between after, s.log = before ++ between ++ after →
    (∀ e ∈ between, e.access.isChange = false) →
    ∃ es, r.Lists (before.map (·.access)) es ∧ ∀ e ∈ between,
      (e.access = .snapshot → e.answer = .listing es) ∧
      (e.access = .size → e.answer = .count es.length) ∧
      (e.access = .isEmpty → e.answer = .flag es.isEmpty)
  /-- What is left to do can be done in any order of the tasks. -/
  ends : ∀ later, (∀ t, later.count t = (s.todo t).length) →
    ∃ s', s.run later = some s' ∧ s'.Finished
  /-- The order does not matter for tasks that name different gateways: the registry is the same
  in the end, and so is what each of their accesses to a gateway is told. -/
  alike : Apart programs → s.Finished → ∀ schedule s', (start r programs).run schedule = some s' →
    s'.Finished → s'.registry = s.registry ∧
      ∀ t i a, (programs t)[i]? = some a → a.gateway?.isSome →
        ∃ x, s.answer? t i = some x ∧ s'.answer? t i = some x

theorem agree_of_recorded (hs : Recorded r programs s) {before between after : List (Entry Task)}
    (hlog : s.log = before ++ between ++ after)
    (hquiet : ∀ e ∈ between, e.access.isChange = false) :
    ∃ es, r.Lists (before.map (·.access)) es ∧ ∀ e ∈ between,
      (e.access = .snapshot → e.answer = .listing es) ∧
      (e.access = .size → e.answer = .count es.length) ∧
      (e.access = .isEmpty → e.answer = .flag es.isEmpty) := by
  obtain ⟨es, hes⟩ := exists_lists r (before.map (·.access))
  refine ⟨es, hes, fun e he => ?_⟩
  obtain ⟨early, late, rfl⟩ := List.append_of_mem he
  have hsplit : s.log = (before ++ early) ++ e :: (late ++ after) := by
    rw [hlog, List.append_assoc, List.append_assoc, List.append_assoc, List.cons_append]
  have htold := hs.told _ e _ hsplit
  have hsame : r.Lists ((before ++ early).map (·.access)) es := by
    rw [List.map_append, lists_append]
    · exact hes
    · intro a ha
      obtain ⟨e', he', rfl⟩ := List.mem_map.1 ha
      exact hquiet e' (List.mem_append_left _ he')
  refine ⟨?_, ?_, ?_⟩
  · intro h
    rw [h] at htold
    exact htold.unique (.listed hsame)
  · intro h
    rw [h] at htold
    exact htold.unique (.counted hsame)
  · intro h
    rw [h] at htold
    exact htold.unique (.asked hsame)

/-- Tasks may share a registry in any order. -/
theorem wellShared (h : (start r programs).run schedule = some s) : WellShared r programs s := by
  have hs := recorded_run h
  refine ⟨hs.told, fun _ _ => log_run, fun _ _ _ => agree_of_recorded hs, fun _ => exists_run, ?_⟩
  intro hapart hdone schedule' s' h' hdone'
  have hs' := recorded_run h'
  refine ⟨registry_eq hs hs' hapart hdone hdone', ?_⟩
  intro t i a ha hnames
  obtain ⟨g, hg⟩ := Option.isSome_iff_exists.1 hnames
  obtain ⟨x, hx, htold⟩ := answer?_of_finished hs hapart hdone ha hg
  obtain ⟨y, hy, htold'⟩ := answer?_of_finished hs' hapart hdone' ha hg
  exact ⟨x, hx, htold.unique htold' ▸ hy⟩

/-- Three tasks for three gateways. -/
def samplePrograms : Fin 3 → List Access
  | 0 => [.add (.ofWord 1), .snapshot, .remove (.ofWord 1)]
  | 1 => [.add (.ofWord 2), .contains (.ofWord 2), .size]
  | 2 => [.contains (.ofWord 3), .add (.ofWord 3)]

/-- The tasks take turns, or they go one after the other: a snapshot tells them apart, but nothing
that names a gateway does. -/
theorem wellShared_interleaved : ∃ s s',
    (start empty samplePrograms).run [2, 0, 1, 0, 1, 2, 0, 1] = some s ∧
    (start empty samplePrograms).run [0, 0, 0, 1, 1, 1, 2, 2] = some s' ∧
    Apart samplePrograms ∧ s.Finished ∧ s'.Finished ∧
    s.answer? 0 1 = some (.listing [.ofWord 1, .ofWord 2]) ∧
    s'.answer? 0 1 = some (.listing [.ofWord 1]) ∧
    s.registry.gateways = [.ofWord 2, .ofWord 3] ∧
    WellShared empty samplePrograms s ∧ s'.registry = s.registry := by
  obtain ⟨s, hrun, hdone, hlisting, hleft⟩ : ∃ s,
      (start empty samplePrograms).run [2, 0, 1, 0, 1, 2, 0, 1] = some s ∧ (∀ t, s.todo t = []) ∧
      s.answer? 0 1 = some (.listing [.ofWord 1, .ofWord 2]) ∧
      s.registry.gateways = [.ofWord 2, .ofWord 3] := ⟨_, rfl, by decide, by decide, by decide⟩
  obtain ⟨s', hrun', hdone', hlisting'⟩ : ∃ s',
      (start empty samplePrograms).run [0, 0, 0, 1, 1, 1, 2, 2] = some s' ∧
      (∀ t, s'.todo t = []) ∧ s'.answer? 0 1 = some (.listing [.ofWord 1]) :=
    ⟨_, rfl, by decide, by decide⟩
  have hapart : Apart samplePrograms := by
    unfold Apart
    decide
  have hshared := wellShared hrun
  exact ⟨s, s', hrun, hrun', hapart, hdone, hdone', hlisting, hlisting', hleft, hshared,
    (hshared.alike hapart hdone _ s' hrun' hdone').1⟩

end

end Shared

end Registry

end LoraBridge
