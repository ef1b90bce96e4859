import Mathlib.Data.List.Nodup
import LoraBridge.Proofs.Runs
import LoraBridge.Transport.Acks

/-! The waiters of calls under any operations. Every waiter that was ever queued is in one place:
in the queue of its kind, bound to one identifier, cancelled or resolved. Waiters of a kind are
bound in the order in which they were queued, whatever happens to the other kind and to the
receivers of their answers. -/
namespace LoraBridge.Transport

def flights (id : Mqtt.PacketId) (k : AckKind) (ws : List Waiter) : List InFlight :=
  ws.map fun w => ⟨id, k, w⟩

@[simp] theorem map_waiter_flights (id : Mqtt.PacketId) (k : AckKind) (ws : List Waiter) :
    (flights id k ws).map (·.waiter) = ws := by
  simp [flights, Function.comp_def]

@[simp] theorem filter_flights (id : Mqtt.PacketId) (k k' : AckKind) (ws : List Waiter) :
    (flights id k ws).filter (fun f => f.kind == k') = if k' = k then flights id k ws else [] := by
  split
  · next h => simp [flights, h]
  · next h => simp [flights, Ne.symm h]

@[simp] theorem head?_append_tail (ws : List Waiter) : ws.head?.toList ++ ws.tail = ws := by
  cases ws <;> rfl

namespace Acks

variable (a : Acks)

theorem count_waiters (v : Waiter) : a.waiters.count v =
    (a.queued .subscribe).count v + (a.queued .unsubscribe).count v +
      (a.inFlight.map (·.waiter)).count v := by
  rw [waiters, List.count_append, List.count_append]
  rfl

private theorem setQueued_queued (k : AckKind) : a.setQueued (a.queued k) k = a := by
  cases k <;> rfl

theorem waiters_enqueue (k : AckKind) (w : Waiter) :
    (a.enqueue k w).waiters.Perm (a.waiters ++ [w]) := by
  apply List.perm_iff_count.2
  intro v
  rw [List.count_append, count_waiters, count_waiters, queued_enqueue, queued_enqueue,
    inFlight_enqueue, List.count_append, List.count_append]
  cases k <;> simp only [reduceCtorEq, ↓reduceIte, List.count_nil] <;> omega

theorem waiters_cancelLast (k : AckKind) :
    ((a.cancelLast k).waiters ++ (a.queued k).getLast?.toList).Perm a.waiters := by
  have hqueue : (a.queued k).dropLast ++ (a.queued k).getLast?.toList = a.queued k := by
    cases h : (a.queued k).getLast? with
    | none => simp [List.getLast?_eq_none_iff.1 h]
    | some w => exact List.dropLast_append_getLast? w h
  apply List.perm_iff_count.2
  intro v
  have hcount := congrArg (List.count v) hqueue
  rw [List.count_append] at hcount
  rw [List.count_append, count_waiters, count_waiters, queued_cancelLast, queued_cancelLast,
    inFlight_cancelLast]
  cases k <;> simp only [reduceCtorEq, ↓reduceIte] <;> omega

private theorem filter_ne_of_notMem {id : Mqtt.PacketId} (h : id ∉ a.inFlight.map (·.id)) :
    a.inFlight.filter (fun f => f.id != id) = a.inFlight := by
  apply List.filter_eq_self.2
  intro f hf
  rw [bne_iff_ne]
  rintro rfl
  exact h (List.mem_map_of_mem hf)

variable {a}

@[simp] theorem answers_sent {k : AckKind} {id : Mqtt.PacketId} (h : id ∉ a.inFlight.map (·.id)) :
    (a.sent k id).2 = [] := by
  cases hq : a.queued k with
  | nil => rw [sent_of_nil hq]
  | cons w ws =>
    simp only [sent, hq, List.partition_eq_filter_filter, List.map_eq_nil_iff]
    apply List.filter_eq_nil_iff.2
    intro f hf heq
    exact h (eq_of_beq heq ▸ List.mem_map_of_mem hf)

@[simp] theorem inFlight_sent {k : AckKind} {id : Mqtt.PacketId} (h : id ∉ a.inFlight.map (·.id)) :
    (a.sent k id).1.inFlight =
      a.inFlight ++ flights id k (a.queued k).head?.toList := by
  cases hq : a.queued k with
  | nil => simp [sent_of_nil hq, flights]
  | cons w ws =>
    rw [inFlight_sent_of_cons hq, a.filter_ne_of_notMem h]
    rfl

theorem waiters_sent {k : AckKind} {id : Mqtt.PacketId} (h : id ∉ a.inFlight.map (·.id)) :
    (a.sent k id).1.waiters.Perm a.waiters := by
  apply List.perm_iff_count.2
  intro v
  have hcount := congrArg (List.count v) (head?_append_tail (a.queued k))
  rw [List.count_append] at hcount
  rw [count_waiters, count_waiters, queued_sent, queued_sent, inFlight_sent h, List.map_append,
    List.count_append, map_waiter_flights]
  cases k <;> simp only [reduceCtorEq, ↓reduceIte] <;> omega

theorem waiters_acknowledge (a : Acks) (id : Mqtt.PacketId) (answer : Answer) :
    ((a.acknowledge id answer).1.waiters ++ (a.acknowledge id answer).2.map Prod.fst).Perm
      a.waiters := by
  apply List.perm_iff_count.2
  intro v
  have hsplit := (List.filter_append_perm (fun f : InFlight => f.id == id) a.inFlight).map
    (·.waiter)
  have hcount := hsplit.count_eq v
  rw [List.map_append, List.count_append] at hcount
  rw [List.count_append, count_waiters, count_waiters, queued_acknowledge, queued_acknowledge,
    inFlight_acknowledge, answers_acknowledge, List.map_map]
  have hne : (fun f : InFlight => f.id != id) = fun f => !(f.id == id) := rfl
  have hfst : Prod.fst ∘ (fun f : InFlight => (f.waiter, answer)) = (·.waiter) := rfl
  rw [hne, hfst]
  omega

theorem waiters_failAll (a : Acks) :
    (a.failAll.1.waiters ++ a.failAll.2.map Prod.fst).Perm a.waiters := by
  rw [map_fst_failAll]
  exact List.Perm.refl _

end Acks

/-- The waiters with what has happened to each of them. -/
structure AckLog where
  acks : Acks
  created : List (Waiter × AckKind)
  bound : List InFlight
  cancelled : List Waiter
  resolved : List (Waiter × Answer)
  /-- The waiters whose receivers do not wait any more. -/
  expired : List Waiter
  received : List (Waiter × Answer)

namespace AckLog

inductive Op where
  | enqueue (k : AckKind) (w : Waiter)
  | cancelLast (k : AckKind)
  | sent (k : AckKind) (id : Mqtt.PacketId)
  | acknowledge (id : Mqtt.PacketId) (answer : Answer)
  | failAll
  | expire (w : Waiter)
deriving DecidableEq

def start : AckLog := ⟨.empty, [], [], [], [], [], []⟩

def bind (l : AckLog) (k : AckKind) (id : Mqtt.PacketId) : AckLog :=
  { l with bound := l.bound ++ flights id k (l.acks.queued k).head?.toList }

def resolve (l : AckLog) (result : Acks × List (Waiter × Answer)) : AckLog :=
  { l with
    acks := result.1
    resolved := l.resolved ++ result.2
    received := l.received ++ result.2.filter fun p => !l.expired.contains p.1 }

/-- One operation; none when a waiter is not new, or an identifier is still in flight. -/
def step (l : AckLog) : Op → Option AckLog
  | .enqueue k w =>
    if w ∈ l.created.map Prod.fst then none
    else some { l with acks := l.acks.enqueue k w, created := l.created ++ [(w, k)] }
  | .cancelLast k =>
    some { l with
      acks := l.acks.cancelLast k
      cancelled := l.cancelled ++ (l.acks.queued k).getLast?.toList }
  | .sent k id =>
    if id ∈ l.acks.inFlight.map (·.id) then none
    else some ((l.bind k id).resolve (l.acks.sent k id))
  | .acknowledge id answer => some (l.resolve (l.acks.acknowledge id answer))
  | .failAll => some (l.resolve l.acks.failAll)
  | .expire w => some { l with expired := l.expired ++ [w] }

def run (l : AckLog) (ops : List Op) : Option AckLog :=
  ops.foldlM step l

def createdOf (l : AckLog) (k : AckKind) : List Waiter :=
  (l.created.filter fun p => p.2 == k).map Prod.fst

def boundOf (l : AckLog) (k : AckKind) : List Waiter :=
  (l.bound.filter fun f => f.kind == k).map (·.waiter)

def places (l : AckLog) : List Waiter :=
  l.acks.waiters ++ l.cancelled ++ l.resolved.map Prod.fst

/-- Every waiter is in one place, and those of a kind keep their order. -/
structure Kept (l : AckLog) : Prop where
  created : (l.created.map Prod.fst).Nodup
  places : (l.created.map Prod.fst).Perm l.places
  ids : (l.acks.inFlight.map (·.id)).Nodup
  ordered : ∀ k, (l.boundOf k ++ l.acks.queued k).Sublist (l.createdOf k)
  bound : l.acks.inFlight ⊆ l.bound

private theorem kept_start : start.Kept where
  created := List.nodup_nil
  places := List.Perm.refl _
  ids := List.nodup_nil
  ordered k := by
    rw [show start.acks.queued k = [] from Acks.queued_empty k]
    exact List.Sublist.refl _
  bound := List.Subset.refl _

theorem count_places (l : AckLog) (v : Waiter) : l.places.count v =
    l.acks.waiters.count v + l.cancelled.count v + (l.resolved.map Prod.fst).count v := by
  rw [places, List.count_append, List.count_append]

variable {l : AckLog}

theorem Kept.placed (h : l.Kept) {a : Acks} {cancelled : List Waiter}
    {resolved : List (Waiter × Answer)} (hcount : ∀ v, a.waiters.count v + cancelled.count v +
      (resolved.map Prod.fst).count v = l.places.count v) :
    (l.created.map Prod.fst).Perm (a.waiters ++ cancelled ++ resolved.map Prod.fst) := by
  apply h.places.trans
  apply List.perm_iff_count.2
  intro v
  rw [List.count_append, List.count_append, hcount]

theorem Kept.enqueue {k : AckKind} {w : Waiter} (h : l.Kept) (hw : w ∉ l.created.map Prod.fst) :
    Kept { l with acks := l.acks.enqueue k w, created := l.created ++ [(w, k)] } where
  created := by
    rw [List.map_append, List.nodup_append_comm]
    exact List.nodup_cons.2 ⟨hw, h.created⟩
  places := by
    apply List.perm_iff_count.2
    intro v
    have hplaces := h.places.count_eq v
    have hwaiters := (l.acks.waiters_enqueue k w).count_eq v
    rw [count_places] at hplaces
    rw [List.count_append] at hwaiters
    simp only [count_places, List.map_append, List.map_singleton, List.count_append]
    omega
  ids := by
    rw [Acks.inFlight_enqueue]
    exact h.ids
  ordered k' := by
    have hcreated : ((l.created ++ [(w, k)]).filter fun p => p.2 == k').map Prod.fst =
        l.createdOf k' ++ if k' = k then [w] else [] := by
      rw [List.filter_append, List.map_append]
      by_cases hk : k' = k
      · simp [createdOf, hk]
      · simp [createdOf, hk, Ne.symm hk]
    rw [createdOf, hcreated, Acks.queued_enqueue, ← List.append_assoc]
    exact (h.ordered k').append_right _
  bound := by
    rw [Acks.inFlight_enqueue]
    exact h.bound

theorem Kept.cancelLast (h : l.Kept) (k : AckKind) :
    Kept { l with
      acks := l.acks.cancelLast k
      cancelled := l.cancelled ++ (l.acks.queued k).getLast?.toList } where
  created := h.created
  places := h.placed fun v => by
    have hwaiters := (l.acks.waiters_cancelLast k).count_eq v
    rw [List.count_append] at hwaiters
    simp only [count_places, List.count_append]
    omega
  ids := by
    rw [Acks.inFlight_cancelLast]
    exact h.ids
  ordered k' := by
    refine List.Sublist.trans (List.Sublist.append_left ?_ _) (h.ordered k')
    rw [Acks.queued_cancelLast]
    split
    · exact List.dropLast_sublist _
    · exact List.Sublist.refl _
  bound := by
    rw [Acks.inFlight_cancelLast]
    exact h.bound

theorem Kept.sent {k : AckKind} {id : Mqtt.PacketId} (h : l.Kept)
    (hid : id ∉ l.acks.inFlight.map (·.id)) :
    ((l.bind k id).resolve (l.acks.sent k id)).Kept where
  created := h.created
  places := h.placed fun v => by
    have hwaiters := (Acks.waiters_sent (k := k) hid).count_eq v
    simp only [resolve, bind, count_places, Acks.answers_sent hid, List.append_nil, hwaiters]
  ids := by
    rw [resolve, Acks.inFlight_sent hid, List.map_append, List.nodup_append_comm]
    cases (l.acks.queued k).head? with
    | none => exact h.ids
    | some w => exact List.nodup_cons.2 ⟨hid, h.ids⟩
  ordered k' := by
    have hord := h.ordered k'
    simp only [resolve, bind, boundOf, List.filter_append, filter_flights, List.map_append,
      Acks.queued_sent, List.append_assoc]
    split
    · next hk =>
      rw [map_waiter_flights, hk, head?_append_tail]
      rwa [hk] at hord
    · exact hord
  bound := by
    rw [resolve, Acks.inFlight_sent hid]
    exact List.append_subset.2 ⟨List.subset_append_of_subset_left _ h.bound,
      List.subset_append_right _ _⟩

theorem Kept.acknowledge (h : l.Kept) (id : Mqtt.PacketId) (answer : Answer) :
    (l.resolve (l.acks.acknowledge id answer)).Kept where
  created := h.created
  places := h.placed fun v => by
    have hwaiters := (l.acks.waiters_acknowledge id answer).count_eq v
    rw [List.count_append] at hwaiters
    simp only [resolve, count_places, List.map_append, List.count_append]
    omega
  ids := by
    rw [resolve, Acks.inFlight_acknowledge]
    exact h.ids.sublist (List.filter_sublist.map _)
  ordered k := by
    rw [resolve, Acks.queued_acknowledge]
    exact h.ordered k
  bound := by
    rw [resolve, Acks.inFlight_acknowledge]
    exact List.Subset.trans List.filter_sublist.subset h.bound

theorem Kept.failAll (h : l.Kept) : (l.resolve l.acks.failAll).Kept where
  created := h.created
  places := h.placed fun v => by
    have hwaiters := l.acks.waiters_failAll.count_eq v
    rw [List.count_append] at hwaiters
    simp only [resolve, count_places, List.map_append, List.count_append]
    omega
  ids := List.nodup_nil
  ordered k := by
    refine List.Sublist.trans (List.Sublist.append_left ?_ _) (h.ordered k)
    rw [show (l.resolve l.acks.failAll).acks.queued k = [] from Acks.queued_empty k]
    exact List.nil_sublist _
  bound := List.nil_subset _

theorem kept_step {op : Op} {m : AckLog} (h : l.Kept) (hs : l.step op = some m) : m.Kept := by
  cases op with
  | enqueue k w =>
    simp only [step] at hs
    split at hs
    · cases hs
    next hw =>
    cases hs
    exact h.enqueue hw
  | cancelLast k =>
    cases hs
    exact h.cancelLast k
  | sent k id =>
    simp only [step] at hs
    split at hs
    · cases hs
    next hid =>
    cases hs
    exact h.sent hid
  | acknowledge id answer =>
    cases hs
    exact h.acknowledge id answer
  | failAll =>
    cases hs
    exact h.failAll
  | expire w =>
    cases hs
    exact ⟨h.created, h.places, h.ids, h.ordered, h.bound⟩

theorem kept_run {ops : List Op} (h : start.run ops = some l) : l.Kept :=
  Runs.invariant (fun _ _ _ _ hl hs => kept_step hl hs) h kept_start

theorem Kept.nodup_places (h : l.Kept) : l.places.Nodup :=
  h.places.nodup_iff.1 h.created

theorem Kept.notMem_resolved (h : l.Kept) {f : InFlight} (hf : f ∈ l.acks.inFlight) :
    f.waiter ∉ l.resolved.map Prod.fst := by
  have hdisjoint := List.disjoint_of_nodup_append h.nodup_places
  apply hdisjoint
  apply List.mem_append_left
  exact List.mem_append_right _ (List.mem_map_of_mem hf)

theorem Kept.answer_eq (h : l.Kept) {w : Waiter} {x y : Answer} (hx : (w, x) ∈ l.resolved)
    (hy : (w, y) ∈ l.resolved) : x = y :=
  congrArg Prod.snd (List.inj_on_of_nodup_map h.nodup_places.of_append_right hx hy rfl)

/-- The answer of a waiter that is bound to an identifier, given what happens next. -/
def outcome (k : AckKind) (id : Mqtt.PacketId) : List Op → Option Answer
  | [] => none
  | .acknowledge id' answer :: ops => if id' = id then some answer else outcome k id ops
  | .failAll :: _ => some (Acks.lost k)
  | .enqueue .. :: ops | .cancelLast _ :: ops | .sent .. :: ops | .expire _ :: ops =>
    outcome k id ops

theorem resolved_step {op : Op} {m : AckLog} (hs : l.step op = some m) :
    l.resolved ⊆ m.resolved := by
  cases op with
  | enqueue k w =>
    simp only [step] at hs
    split at hs <;> cases hs
    exact List.Subset.refl _
  | sent k id =>
    simp only [step] at hs
    split at hs <;> cases hs
    exact List.subset_append_left _ _
  | cancelLast | expire =>
    cases hs
    exact List.Subset.refl _
  | acknowledge | failAll =>
    cases hs
    exact List.subset_append_left _ _

private theorem resolved_run {ops : List Op} {m : AckLog} (hrun : l.run ops = some m) :
    l.resolved ⊆ m.resolved :=
  Runs.invariant (P := fun n => l.resolved ⊆ n.resolved)
    (fun _ _ _ _ hl hs => List.Subset.trans hl (resolved_step hs)) hrun (List.Subset.refl _)

/-- A bound waiter stays bound until its identifier is acknowledged or every waiter fails. -/
theorem outcome_of_flight {ops : List Op} {m : AckLog} {f : InFlight}
    (hf : f ∈ l.acks.inFlight) (hrun : l.run ops = some m) :
    (outcome f.kind f.id ops = none → f ∈ m.acks.inFlight) ∧
      ∀ answer, outcome f.kind f.id ops = some answer → (f.waiter, answer) ∈ m.resolved := by
  -- Only an acknowledgement of its identifier and a failure of all waiters take it away.
  induction ops generalizing l with
  | nil =>
    cases hrun
    exact ⟨fun _ => hf, nofun⟩
  | cons op ops ih =>
    obtain ⟨n, hs, hrest⟩ := Option.bind_eq_some_iff.1 hrun
    cases op with
    | enqueue k w =>
      simp only [step] at hs
      split at hs <;> cases hs
      exact ih (by rwa [Acks.inFlight_enqueue]) hrest
    | cancelLast k =>
      cases hs
      exact ih (by rwa [Acks.inFlight_cancelLast]) hrest
    | sent k id =>
      simp only [step] at hs
      split at hs <;> cases hs
      next hid =>
      apply ih _ hrest
      rw [resolve, Acks.inFlight_sent hid]
      exact List.mem_append_left _ hf
    | expire w =>
      cases hs
      refine ih ?_ hrest
      exact hf
    | failAll =>
      cases hs
      refine ⟨nofun, fun answer hanswer => ?_⟩
      cases hanswer
      apply resolved_run hrest
      apply List.mem_append_right
      exact List.mem_append_right _ (List.mem_map_of_mem hf)
    | acknowledge id answer =>
      cases hs
      rw [outcome]
      split
      · next hid =>
        refine ⟨nofun, fun answer' hanswer => ?_⟩
        cases hanswer
        apply resolved_run hrest
        apply List.mem_append_right
        rw [Acks.answers_acknowledge]
        exact List.mem_map_of_mem (List.mem_filter.2 ⟨hf, beq_iff_eq.2 hid.symm⟩)
      · next hid =>
        apply ih _ hrest
        rw [resolve, Acks.inFlight_acknowledge]
        exact List.mem_filter.2 ⟨hf, bne_iff_ne.2 (Ne.symm hid)⟩

def Op.concerns (k : AckKind) : Op → Bool
  | .enqueue k' _ | .cancelLast k' | .sent k' _ => k' == k
  | .acknowledge .. | .failAll | .expire _ => true

structure OnlyKind (k : AckKind) (l m : AckLog) : Prop where
  queued : m.acks.queued k = l.acks.queued k
  inFlight : m.acks.inFlight = l.acks.inFlight.filter fun f => f.kind == k
  bound : m.bound = l.bound.filter fun f => f.kind == k
  created : m.created = l.created.filter fun p => p.2 == k

theorem onlyKind_other {k : AckKind} {op : Op} {m l' : AckLog} (h : OnlyKind k l m)
    (hop : op.concerns k = false) (hs : l.step op = some l') : OnlyKind k l' m := by
  cases op with
  | enqueue k' w =>
    have hk : k ≠ k' := Ne.symm (beq_eq_false_iff_ne.1 hop)
    simp only [step] at hs
    split at hs <;> cases hs
    refine ⟨?_, ?_, h.bound, ?_⟩
    · rw [Acks.queued_enqueue, if_neg hk, List.append_nil, h.queued]
    · rw [Acks.inFlight_enqueue, h.inFlight]
    · rw [List.filter_append, h.created]
      simp [Ne.symm hk]
  | cancelLast k' =>
    have hk : k ≠ k' := Ne.symm (beq_eq_false_iff_ne.1 hop)
    cases hs
    refine ⟨?_, ?_, h.bound, h.created⟩
    · rw [Acks.queued_cancelLast, if_neg hk, h.queued]
    · rw [Acks.inFlight_cancelLast, h.inFlight]
  | sent k' id =>
    have hk : k ≠ k' := Ne.symm (beq_eq_false_iff_ne.1 hop)
    simp only [step] at hs
    split at hs <;> cases hs
    next hid =>
    refine ⟨?_, ?_, ?_, h.created⟩
    · rw [resolve, Acks.queued_sent, if_neg hk, h.queued]
    · rw [resolve, Acks.inFlight_sent hid, List.filter_append, filter_flights, if_neg hk,
        List.append_nil, h.inFlight]
    · rw [resolve, bind, List.filter_append, filter_flights, if_neg hk, List.append_nil, h.bound]
  | acknowledge | failAll | expire => cases hop

theorem onlyKind_step {k : AckKind} {op : Op} {m l' : AckLog} (h : OnlyKind k l m)
    (hop : op.concerns k = true) (hs : l.step op = some l') :
    ∃ m', m.step op = some m' ∧ OnlyKind k l' m' := by
  cases op with
  | enqueue k' w =>
    obtain rfl : k' = k := eq_of_beq hop
    simp only [step] at hs
    split at hs <;> cases hs
    next hw =>
    have hw' : w ∉ m.created.map Prod.fst := by
      rw [h.created]
      exact fun hmem => hw ((List.filter_sublist.map _).subset hmem)
    refine ⟨_, if_neg hw', ?_, ?_, h.bound, ?_⟩
    · rw [Acks.queued_enqueue, Acks.queued_enqueue, h.queued]
    · rw [Acks.inFlight_enqueue, Acks.inFlight_enqueue, h.inFlight]
    · rw [List.filter_append, h.created]
      simp
  | cancelLast k' =>
    obtain rfl : k' = k := eq_of_beq hop
    cases hs
    refine ⟨_, rfl, ?_, ?_, h.bound, h.created⟩
    · rw [Acks.queued_cancelLast, Acks.queued_cancelLast, h.queued]
    · rw [Acks.inFlight_cancelLast, Acks.inFlight_cancelLast, h.inFlight]
  | sent k' id =>
    obtain rfl : k' = k := eq_of_beq hop
    simp only [step] at hs
    split at hs <;> cases hs
    next hid =>
    have hid' : id ∉ m.acks.inFlight.map (·.id) := by
      rw [h.inFlight]
      exact fun hmem => hid ((List.filter_sublist.map _).subset hmem)
    refine ⟨_, if_neg hid', ?_, ?_, ?_, h.created⟩
    · rw [resolve, resolve, Acks.queued_sent, Acks.queued_sent, h.queued]
    · rw [resolve, resolve, Acks.inFlight_sent hid, Acks.inFlight_sent hid', List.filter_append,
        filter_flights, if_pos rfl, h.inFlight, h.queued]
    · rw [resolve, resolve, bind, bind, List.filter_append, filter_flights, if_pos rfl, h.bound,
        h.queued]
  | acknowledge id answer =>
    cases hs
    refine ⟨_, rfl, ?_, ?_, h.bound, h.created⟩
    · rw [resolve, resolve, Acks.queued_acknowledge, Acks.queued_acknowledge, h.queued]
    · rw [resolve, resolve, Acks.inFlight_acknowledge, Acks.inFlight_acknowledge, h.inFlight,
        List.filter_filter, List.filter_filter]
      simp only [Bool.and_comm]
  | failAll =>
    cases hs
    exact ⟨_, rfl, rfl, rfl, h.bound, h.created⟩
  | expire w =>
    cases hs
    exact ⟨_, rfl, h.queued, h.inFlight, h.bound, h.created⟩

theorem onlyKind_run {k : AckKind} {ops : List Op} {m l' : AckLog} (h : OnlyKind k l m)
    (hrun : l.run ops = some l') :
    ∃ m', m.run (ops.filter (Op.concerns k)) = some m' ∧ OnlyKind k l' m' := by
  induction ops generalizing l m with
  | nil =>
    cases hrun
    exact ⟨m, rfl, h⟩
  | cons op ops ih =>
    obtain ⟨n, hs, hrest⟩ := Option.bind_eq_some_iff.1 hrun
    cases hop : op.concerns k with
    | false =>
      rw [List.filter_cons_of_neg (by simp [hop])]
      exact ih (onlyKind_other h hop hs) hrest
    | true =>
      obtain ⟨m', hs', h'⟩ := onlyKind_step h hop hs
      obtain ⟨m'', hrun', h''⟩ := ih h' hrest
      rw [List.filter_cons_of_pos hop, run, Runs.cons, hs']
      exact ⟨m'', hrun', h''⟩

def Op.isExpire : Op → Bool
  | .expire _ => true
  | .enqueue .. | .cancelLast _ | .sent .. | .acknowledge .. | .failAll => false

/-- The log as it would be if every receiver had waited. -/
def patient (l : AckLog) : AckLog :=
  { l with expired := [], received := l.resolved }

private theorem resolve_patient (result : Acks × List (Waiter × Answer)) :
    l.patient.resolve result = (l.resolve result).patient := by
  simp [resolve, patient]

theorem step_patient {op : Op} {l' : AckLog} (hop : op.isExpire = false)
    (hs : l.step op = some l') : l.patient.step op = some l'.patient := by
  cases op with
  | enqueue k w =>
    simp only [step] at hs
    split at hs <;> cases hs
    next hw => exact if_neg hw
  | cancelLast k =>
    cases hs
    rfl
  | sent k id =>
    simp only [step] at hs
    split at hs <;> cases hs
    next hid => exact (if_neg hid).trans (congrArg some (resolve_patient (l := l.bind k id) _))
  | acknowledge | failAll =>
    cases hs
    exact congrArg some (resolve_patient _)
  | expire w => cases hop

private theorem step_expire {op : Op} {l' : AckLog} (hop : op.isExpire = true)
    (hs : l.step op = some l') : l'.patient = l.patient := by
  cases op <;> cases hop
  cases hs
  rfl

theorem run_patient {ops : List Op} {l' : AckLog} (hrun : l.run ops = some l') :
    l.patient.run (ops.filter fun op => !op.isExpire) = some l'.patient := by
  induction ops generalizing l with
  | nil =>
    cases hrun
    rfl
  | cons op ops ih =>
    obtain ⟨n, hs, hrest⟩ := Option.bind_eq_some_iff.1 hrun
    cases hop : op.isExpire with
    | true =>
      rw [List.filter_cons_of_neg (by simp [hop]), ← step_expire hop hs]
      exact ih hrest
    | false =>
      rw [List.filter_cons_of_pos (by simp [hop]), run, Runs.cons, step_patient hop hs]
      exact ih hrest

/-- Which answers found their receivers: those of waiters that had not expired. -/
structure Delivered (l : AckLog) : Prop where
  received : l.received ⊆ l.resolved
  resolved : ∀ p ∈ l.resolved, p ∈ l.received ∨ p.1 ∈ l.expired

theorem Delivered.resolve (h : l.Delivered) (result : Acks × List (Waiter × Answer)) :
    (l.resolve result).Delivered where
  received := by
    intro p hp
    rcases List.mem_append.1 hp with hp | hp
    · exact List.mem_append_left _ (h.received hp)
    · exact List.mem_append_right _ (List.mem_filter.1 hp).1
  resolved := by
    intro p hp
    rcases List.mem_append.1 hp with hp | hp
    · exact (h.resolved p hp).imp_left (List.mem_append_left _)
    · by_cases hexpired : p.1 ∈ l.expired
      · exact .inr hexpired
      · exact .inl (List.mem_append_right _ (List.mem_filter.2 ⟨hp, by simpa using hexpired⟩))

theorem delivered_step {op : Op} {m : AckLog} (h : l.Delivered) (hs : l.step op = some m) :
    m.Delivered := by
  cases op with
  | enqueue k w =>
    simp only [step] at hs
    split at hs <;> cases hs
    exact ⟨h.received, h.resolved⟩
  | cancelLast k =>
    cases hs
    exact ⟨h.received, h.resolved⟩
  | sent k id =>
    simp only [step] at hs
    split at hs <;> cases hs
    exact Delivered.resolve (l := l.bind k id) ⟨h.received, h.resolved⟩ _
  | acknowledge | failAll =>
    cases hs
    exact h.resolve _
  | expire w =>
    cases hs
    exact ⟨h.received, fun p hp => (h.resolved p hp).imp_right (List.mem_append_left _)⟩

private theorem delivered_run {ops : List Op} (h : start.run ops = some l) : l.Delivered :=
  Runs.invariant (fun _ _ _ _ hl hs => delivered_step hl hs) h ⟨List.Subset.refl _, nofun⟩

def CancelsNewest (l : AckLog) (k : AckKind) : Prop :=
  (l.acks.queued k = [] → l.step (.cancelLast k) = some l) ∧
    ∀ ws w, l.acks.queued k = ws ++ [w] →
      l.step (.cancelLast k) =
        some { l with acks := l.acks.setQueued ws k, cancelled := l.cancelled ++ [w] } ∧
      ∀ v ∈ ws, [v, w].Sublist (l.createdOf k)

theorem Kept.cancelsNewest (h : l.Kept) (k : AckKind) : l.CancelsNewest k := by
  constructor
  · intro hq
    have hacks : l.acks.setQueued [] k = l.acks := by
      rw [← hq]
      exact Acks.setQueued_queued _ k
    simp only [step, Acks.cancelLast, hq, List.dropLast_nil, List.getLast?_nil, hacks]
    exact congrArg some (by simp)
  · intro ws w hq
    constructor
    · simp only [step, Acks.cancelLast, hq, List.dropLast_concat, List.getLast?_concat]
      rfl
    · intro v hv
      have hpair : [v, w].Sublist (ws ++ [w]) :=
        (List.singleton_sublist.2 hv).append (List.Sublist.refl [w])
      rw [← hq] at hpair
      exact hpair.trans ((List.sublist_append_right _ _).trans (h.ordered k))

structure FailsAll (l m : AckLog) : Prop where
  acks : m.acks = .empty
  queued : ∀ k, ∀ w ∈ l.acks.queued k, (w, Acks.lost k) ∈ m.resolved
  bound : ∀ f ∈ l.acks.inFlight, (f.waiter, Acks.lost f.kind) ∈ m.resolved
  count : l.acks.failAll.2.length = (l.acks.queued .subscribe).length +
    (l.acks.queued .unsubscribe).length + l.acks.inFlight.length

theorem failsAll (l : AckLog) : ∃ m, l.step .failAll = some m ∧ l.FailsAll m := by
  refine ⟨_, rfl, rfl, ?_, ?_, ?_⟩
  · intro k w hw
    apply List.mem_append_right
    apply List.mem_append_left
    cases k with
    | subscribe => exact List.mem_append_left _ (List.mem_map_of_mem hw)
    | unsubscribe => exact List.mem_append_right _ (List.mem_map_of_mem hw)
  · intro f hf
    apply List.mem_append_right
    exact List.mem_append_right _ (List.mem_map_of_mem hf)
  · simp [Acks.failAll, Acks.queued, Nat.add_assoc]

theorem mem_created_of_mem_createdOf {k : AckKind} {w : Waiter} (h : w ∈ l.createdOf k) :
    (w, k) ∈ l.created := by
  obtain ⟨p, hp, rfl⟩ := List.mem_map.1 h
  obtain ⟨hmem, hk⟩ := List.mem_filter.1 hp
  rwa [← eq_of_beq hk]

theorem Kept.kind_of_queued (h : l.Kept) {k : AckKind} {w : Waiter} (hw : w ∈ l.acks.queued k) :
    (w, k) ∈ l.created :=
  mem_created_of_mem_createdOf ((h.ordered k).subset (List.mem_append_right _ hw))

theorem Kept.kind_of_flight (h : l.Kept) {f : InFlight} (hf : f ∈ l.acks.inFlight) :
    (f.waiter, f.kind) ∈ l.created := by
  apply mem_created_of_mem_createdOf
  apply (h.ordered f.kind).subset
  apply List.mem_append_left
  exact List.mem_map_of_mem (List.mem_filter.2 ⟨h.bound hf, beq_self_eq_true f.kind⟩)

/-- A waiter that a request binds is resolved as the operations after it say. -/
theorem resolved_iff_outcome {pre post : List Op} {k : AckKind} {id : Mqtt.PacketId} {w : Waiter}
    {ws : List Waiter} {m : AckLog} (hpre : start.run pre = some m)
    (hq : m.acks.queued k = w :: ws) (hrun : m.run (.sent k id :: post) = some l)
    (answer : Answer) : (w, answer) ∈ l.resolved ↔ outcome k id post = some answer := by
  obtain ⟨n, hs, hrest⟩ := Option.bind_eq_some_iff.1 hrun
  have hwhole : start.run (pre ++ .sent k id :: post) = some l :=
    Runs.append_eq_some.2 ⟨m, hpre, hrun⟩
  have hkept := kept_run hwhole
  have hflight : ⟨id, k, w⟩ ∈ n.acks.inFlight := by
    simp only [step] at hs
    split at hs <;> cases hs
    next hid =>
    rw [resolve, Acks.inFlight_sent hid, hq]
    exact List.mem_append_right _ List.mem_cons_self
  obtain ⟨hnone, hsome⟩ := outcome_of_flight hflight hrest
  constructor
  · intro hmem
    cases hout : outcome k id post with
    | none => exact absurd (List.mem_map_of_mem hmem) (hkept.notMem_resolved (hnone hout))
    | some answer' => rw [hkept.answer_eq hmem (hsome answer' hout)]
  · exact hsome answer

theorem Delivered.received_iff (h : l.Delivered) {w : Waiter} (hw : w ∉ l.expired)
    (answer : Answer) : (w, answer) ∈ l.received ↔ (w, answer) ∈ l.resolved :=
  ⟨fun hmem => h.received hmem, fun hmem => (h.resolved _ hmem).resolve_right hw⟩

/-- Every waiter has one place and is resolved once; the waiters of a kind are bound in order,
whatever the other kind and the receivers do; a bound waiter gets the first acknowledgement of its
identifier, or is lost with all others. -/
theorem bookkeeping {ops : List Op} (h : start.run ops = some l) :
    l.Kept ∧
    ((∀ k, ∀ w ∈ l.acks.queued k, (w, k) ∈ l.created) ∧
      ∀ f ∈ l.acks.inFlight, (f.waiter, f.kind) ∈ l.created) ∧
    (∀ k, ∃ m, start.run (ops.filter (Op.concerns k)) = some m ∧ OnlyKind k l m) ∧
    (∀ pre k id post m w ws, ops = pre ++ .sent k id :: post → start.run pre = some m →
      m.acks.queued k = w :: ws →
      ∀ answer, (w, answer) ∈ l.resolved ↔ outcome k id post = some answer) ∧
    (∀ k, l.CancelsNewest k) ∧
    (∃ m, l.step .failAll = some m ∧ l.FailsAll m) ∧
    start.run (ops.filter fun op => !op.isExpire) = some l.patient ∧
    ∀ w answer, w ∉ l.expired → ((w, answer) ∈ l.received ↔ (w, answer) ∈ l.resolved) := by
  have hkept := kept_run h
  refine ⟨hkept, ⟨fun k w => hkept.kind_of_queued, fun f => hkept.kind_of_flight⟩, ?_, ?_,
    hkept.cancelsNewest, failsAll l, run_patient h, ?_⟩
  · intro k
    exact onlyKind_run ⟨rfl, rfl, rfl, rfl⟩ h
  · rintro pre k id post m w ws rfl hpre hq answer
    obtain ⟨m', hpre', h⟩ := Runs.append_eq_some.1 h
    cases hpre.symm.trans hpre'
    exact resolved_iff_outcome hpre hq h answer
  · intro w answer hw
    exact (delivered_run h).received_iff hw answer

/-- Two subscriptions are answered in the other order, the first after its receiver has gone, and
an unsubscription is lost. -/
def reordered : List Op :=
  [.enqueue .subscribe 0, .enqueue .unsubscribe 1, .enqueue .subscribe 2, .sent .subscribe 6,
    .expire 0, .sent .subscribe 7, .enqueue .subscribe 3,
    .acknowledge 7 (.error (.rejected "refused")), .cancelLast .subscribe,
    .acknowledge 6 (.ok ()), .failAll]

theorem bookkeeping_reordered : ∃ l, start.run reordered = some l ∧
    l.resolved = [(2, .error (.rejected "refused")), (0, .ok ()),
      (1, .error (.connectionLost "unsubscribe"))] ∧
    l.received = [(2, .error (.rejected "refused")),
      (1, .error (.connectionLost "unsubscribe"))] ∧
    l.cancelled = [3] ∧ l.Kept ∧
    start.run (reordered.filter fun op => !op.isExpire) = some l.patient := by
  obtain ⟨l, hrun, hresolved, hreceived, hcancelled⟩ : ∃ l, start.run reordered = some l ∧
      l.resolved = [(2, .error (.rejected "refused")), (0, .ok ()),
        (1, .error (.connectionLost "unsubscribe"))] ∧
      l.received = [(2, .error (.rejected "refused")),
        (1, .error (.connectionLost "unsubscribe"))] ∧
      l.cancelled = [3] := ⟨_, rfl, rfl, rfl, rfl⟩
  obtain ⟨hkept, -, -, -, -, -, hpatient, -⟩ := bookkeeping hrun
  exact ⟨l, hrun, hresolved, hreceived, hcancelled, hkept, hpatient⟩

end AckLog

end LoraBridge.Transport
