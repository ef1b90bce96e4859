import LoraBridge.Proofs.Transport.Line

/-! Waiters beside requests when calls are dropped. A call that is dropped in its turn
leaves a waiter without a request, and from then on the waiters of its kind are bound
to the requests of later calls. How far a binding is off is how many such waiters
stand ahead of it. -/
namespace LoraBridge.Transport

section Positions

variable {α : Type} {p : α → Bool} {xs ys xs' ys' : List α} {v c : α}

/-- A member and one of what is left of the list, at the same place, are the same when
all before the member is left. -/
theorem eq_of_left_before (hf : (xs ++ v :: ys).filter p = xs' ++ c :: ys')
    (hlen : xs.length = xs'.length) (hv : p v = true) (hx : ∀ x ∈ xs, p x = true) : c = v := by
  rw [List.filter_append, List.filter_eq_self.2 hx, List.filter_cons_of_pos hv] at hf
  exact (List.cons.inj (List.append_inj hf hlen).2).1.symm

variable [DecidableEq α]

def before (x : α) (l : List α) : List α := l.takeWhile fun y => y != x

@[simp] private theorem before_append_cons {x : α} (h : x ∉ xs) (ys : List α) :
    before x (xs ++ x :: ys) = xs := by
  unfold before
  rw [List.takeWhile_append_of_pos fun y hy => bne_iff_ne.2 (ne_of_mem_of_not_mem hy h)]
  rw [List.takeWhile_cons_of_neg (by simp only [bne_self_eq_false, Bool.false_eq_true,
    not_false_eq_true]), List.append_nil]

@[simp] theorem before_of_nodup {x : α} (h : (xs ++ x :: ys).Nodup) :
    before x (xs ++ x :: ys) = xs :=
  before_append_cons (fun hx => (List.nodup_append.1 h).2.2 x hx x List.mem_cons_self rfl) ys

theorem before_subset (x : α) (l l' : List α) : before x l ⊆ before x (l ++ l') := by
  intro y hy
  unfold before at hy ⊢
  rw [List.takeWhile_append]
  split
  · exact List.mem_append_left _ (List.takeWhile_subset _ hy)
  · exact hy

theorem left_before_of_eq (hn : (xs ++ v :: ys).Nodup)
    (hf : (xs ++ v :: ys).filter p = xs' ++ c :: ys') (hlen : xs.length = xs'.length)
    (heq : c = v) : ∀ x ∈ xs, p x = true := by
  subst heq
  have hc : p c = true := (List.mem_filter.1 (hf ▸ List.mem_append_right _ List.mem_cons_self)).2
  have hn' := hn.filter p
  have hxs := hf
  rw [List.filter_append, List.filter_cons_of_pos hc] at hn' hxs
  have hleft : xs.filter p = xs' := by
    rw [← before_of_nodup hn', hxs, before_of_nodup (hxs ▸ hn')]
  rw [← List.filter_eq_self]
  refine List.filter_sublist.eq_of_length ?_
  rw [hleft, hlen]

theorem eq_of_left_before_left (hn : (xs ++ v :: ys).Nodup)
    (hf : (xs ++ v :: ys).filter p = xs' ++ c :: ys') (hlen : xs.length = xs'.length)
    (hx : ∀ x ∈ before c (xs ++ v :: ys), p x = true) : c = v := by
  have hc := List.mem_filter.1 (hf ▸ List.mem_append_right xs' (List.mem_cons_self (a := c)))
  obtain ⟨ds, es, hsplit⟩ := List.append_of_mem hc.1
  rw [hsplit] at hn hf hx
  rw [before_of_nodup hn] at hx
  have hf' := hf
  rw [List.filter_append, List.filter_eq_self.2 hx, List.filter_cons_of_pos hc.2] at hf'
  -- What stands before the member is left as it is, so it is what is left before it.
  have hds : ds = xs' := by
    have hn' := hn.filter p
    rw [List.filter_append, List.filter_eq_self.2 hx, List.filter_cons_of_pos hc.2] at hn'
    rw [← before_of_nodup hn', hf', before_of_nodup (hf' ▸ hn')]
  rw [← hds] at hlen
  exact (List.cons.inj (List.append_inj hsplit hlen).2).1.symm

end Positions

theorem callsOf_subset {ps qs : List (Waiter × Request)} (h : ps ⊆ qs) (k : AckKind) :
    callsOf k ps ⊆ callsOf k qs :=
  List.map_subset _ (List.filter_subset _ h)

/-- How the waiters of calls stand to the requests when some calls were dropped in their
turn; the bindings are listed by kind, oldest first. -/
structure Shifted (calls waiting turns ahead : List (Waiter × Request))
    (queued : AckKind → List Waiter) (strays : List Waiter) (bound : List Binding)
    (bs : AckKind → List Binding) : Prop where
  nodup : (calls.map (·.1)).Nodup
  order : (turns ++ waiting).Sublist calls
  known : ahead ⊆ turns
  strayed : strays ⊆ turns.map (·.1)
  bound : ∀ b, b ∈ bound ↔ ∃ k, b ∈ bs k
  waiters : ∀ k, (bs k).map (·.waiter) ++ queued k = callsOf k turns
  /-- Every turn left a request, unless its call was dropped. -/
  requests : ∀ k, (bs k).map (·.call) ++ callsOf k ahead =
    (callsOf k turns).filter fun w => w ∉ strays

namespace Shifted

variable {calls waiting turns ahead : List (Waiter × Request)} {queued : AckKind → List Waiter}
  {strays : List Waiter} {bound : List Binding} {bs : AckKind → List Binding}
  {w : Waiter} {r : Request}

theorem start : Shifted [] [] [] [] (fun _ => []) [] [] fun _ => [] where
  nodup := List.nodup_nil
  order := List.Sublist.refl _
  known := List.Subset.refl _
  strayed := List.Subset.refl _
  bound b := by simp only [List.not_mem_nil, exists_false]
  waiters _ := rfl
  requests _ := rfl

theorem turns_nodup (h : Shifted calls waiting turns ahead queued strays bound bs) :
    ((turns ++ waiting).map (·.1)).Nodup :=
  h.nodup.sublist (h.order.map _)

theorem callsOf_nodup (h : Shifted calls waiting turns ahead queued strays bound bs)
    (k : AckKind) : (callsOf k turns).Nodup := by
  refine (h.turns_nodup.sublist ?_).sublist (callsOf_sublist k turns)
  exact (List.sublist_append_left _ _).map _

theorem turns_subset (h : Shifted calls waiting turns ahead queued strays bound bs) :
    turns ⊆ calls :=
  fun _ hp => h.order.subset (List.mem_append_left _ hp)

theorem request_eq (h : Shifted calls waiting turns ahead queued strays bound bs)
    {r' : Request} (hr : (w, r) ∈ calls) (hr' : (w, r') ∈ calls) : r = r' :=
  congrArg Prod.snd (List.inj_on_of_nodup_map h.nodup hr hr' rfl)

theorem kind_eq (h : Shifted calls waiting turns ahead queued strays bound bs) {k k' : AckKind}
    (hk : w ∈ callsOf k calls) (hk' : w ∈ callsOf k' calls) : k = k' := by
  obtain ⟨r, hr, hrk⟩ := exists_of_mem_callsOf hk
  obtain ⟨r', hr', hrk'⟩ := exists_of_mem_callsOf hk'
  rw [h.request_eq hr hr'] at hrk
  exact Option.some.inj (hrk.symm.trans hrk')

theorem call (h : Shifted calls waiting turns ahead queued strays bound bs)
    (hw : w ∉ calls.map (·.1)) :
    Shifted (calls ++ [(w, r)]) (waiting ++ [(w, r)]) turns ahead queued strays bound bs :=
  { h with
    nodup := by
      rw [List.map_append, List.nodup_append_comm]
      exact List.nodup_cons.2 ⟨hw, h.nodup⟩
    order := by
      rw [← List.append_assoc]
      exact h.order.append_right _ }

theorem leave {waiting' : List (Waiter × Request)}
    (h : Shifted calls waiting turns ahead queued strays bound bs)
    (hw : waiting'.Sublist waiting) :
    Shifted calls waiting' turns ahead queued strays bound bs :=
  { h with order := (hw.append_left turns).trans h.order }

theorem turn {queued' : AckKind → List Waiter}
    (h : Shifted calls ((w, r) :: waiting) turns ahead queued strays bound bs)
    (hq : ∀ k, queued' k = queued k ++ if r.ackKind? = some k then [w] else []) :
    Shifted calls waiting (turns ++ [(w, r)]) (ahead ++ [(w, r)]) queued' strays bound bs where
  nodup := h.nodup
  order := by
    rw [List.append_assoc]
    exact h.order
  known p hp := (List.mem_append.1 hp).elim (fun hp => List.mem_append_left _ (h.known hp))
    (List.mem_append_right _)
  strayed v hv := by
    rw [List.map_append]
    exact List.mem_append_left _ (h.strayed hv)
  bound := h.bound
  waiters k := by
    rw [hq, callsOf_append, callsOf_singleton, ← h.waiters, List.append_assoc]
  requests k := by
    -- The call has its first turn, so it was not dropped in one.
    have hw : w ∉ strays := by
      intro hs
      have hn := h.turns_nodup
      rw [List.map_append, List.map_cons, List.nodup_append] at hn
      exact hn.2.2 w (h.strayed hs) w List.mem_cons_self rfl
    rw [callsOf_append, callsOf_append, callsOf_singleton, List.filter_append, ← h.requests,
      List.append_assoc]
    split
    · rw [List.filter_cons_of_pos (by simpa using hw), List.filter_nil]
    · rfl

theorem skip {ahead' : List (Waiter × Request)}
    (h : Shifted calls waiting turns ahead queued strays bound bs) (hsub : ahead' ⊆ ahead)
    (hk : ∀ k, callsOf k ahead' = callsOf k ahead) :
    Shifted calls waiting turns ahead' queued strays bound bs :=
  { h with
    known := List.Subset.trans hsub h.known
    requests := fun k => by rw [hk, h.requests] }

theorem stray (h : Shifted calls waiting turns (ahead ++ [(w, r)]) queued strays bound bs) :
    Shifted calls waiting turns ahead queued (strays ++ [w]) bound bs where
  nodup := h.nodup
  order := h.order
  known := List.Subset.trans (List.subset_append_left _ _) h.known
  strayed := by
    have hmem : (w, r) ∈ turns :=
      h.known (List.mem_append_right _ (List.mem_singleton.2 rfl))
    exact List.append_subset_of_subset_of_subset h.strayed
      (List.cons_subset.2 ⟨List.mem_map_of_mem hmem, List.nil_subset _⟩)
  bound := h.bound
  waiters := h.waiters
  requests k' := by
    have hn := (h.callsOf_nodup k').filter fun v => v ∉ strays
    have hr := h.requests k'
    have hsplit : (callsOf k' turns).filter (fun v => v ∉ strays ++ [w]) =
        ((callsOf k' turns).filter fun v => v ∉ strays).filter fun v => v ≠ w := by
      rw [List.filter_filter]
      refine List.filter_congr fun v _ => ?_
      simp only [List.mem_append, List.mem_singleton, not_or, Bool.decide_and, Bool.and_comm,
        ne_eq]
    rw [hsplit]
    rw [← hr, callsOf_append, callsOf_singleton] at hn ⊢
    by_cases hkind : r.ackKind? = some k'
    · rw [if_pos hkind] at hn ⊢
      rw [← List.append_assoc, List.nodup_append] at hn
      rw [← List.append_assoc, List.filter_append, List.filter_cons_of_neg (by simp),
        List.filter_nil, List.append_nil]
      refine (List.filter_eq_self.2 fun v hv => ?_).symm
      exact decide_eq_true (hn.2.2 v hv w (List.mem_singleton.2 rfl))
    · rw [if_neg hkind, List.append_nil] at hn ⊢
      refine (List.filter_eq_self.2 fun v hv => decide_eq_true ?_).symm
      rintro rfl
      -- A call of another kind has another request.
      have hv' : v ∈ callsOf k' turns := by
        have hv' : v ∈ (bs k').map (·.call) ++ callsOf k' (ahead ++ [(v, r)]) := by
          rw [callsOf_append]
          exact (List.append_assoc _ _ _) ▸ List.mem_append_left _ hv
        rw [hr] at hv'
        exact (List.mem_filter.1 hv').1
      obtain ⟨r', hr', hk'⟩ := exists_of_mem_callsOf hv'
      have hmem : (v, r) ∈ turns :=
        h.known (List.mem_append_right _ (List.mem_singleton.2 rfl))
      rw [h.request_eq (h.turns_subset hmem) (h.turns_subset hr')] at hkind
      exact hkind hk'

theorem queued_ne_nil (h : Shifted calls waiting turns ((w, r) :: ahead) queued strays bound bs)
    {k : AckKind} (hk : r.ackKind? = some k) : queued k ≠ [] := by
  intro hq
  -- As many waiters were bound as requests; a waiter is left for each request that is left.
  have hw := congrArg List.length (h.waiters k)
  have hr := congrArg List.length (h.requests k)
  have hle := List.length_filter_le (fun w => decide (w ∉ strays)) (callsOf k turns)
  rw [callsOf_cons, if_pos hk] at hr
  rw [hq] at hw
  simp only [List.length_append, List.length_map, List.length_cons, List.length_nil] at hw hr
  omega

theorem bind {queued' : AckKind → List Waiter} {k : AckKind} {v : Waiter} {ws : List Waiter}
    (h : Shifted calls waiting turns ((w, r) :: ahead) queued strays bound bs)
    (hk : r.ackKind? = some k) (hv : queued k = v :: ws)
    (hq : ∀ k', queued' k' = if k' = k then (queued k').tail else queued k') (s : Nat) :
    Shifted calls waiting turns ahead queued' strays (bound ++ [⟨v, w, s⟩])
      (fun k' => bs k' ++ if k' = k then [⟨v, w, s⟩] else []) where
  nodup := h.nodup
  order := h.order
  known := List.Subset.trans (List.subset_cons_self _ _) h.known
  strayed := h.strayed
  bound b := by
    simp only [List.mem_append, h.bound, exists_or]
    refine or_congr_right ⟨fun hb => ⟨k, by rwa [if_pos rfl]⟩, ?_⟩
    rintro ⟨k', hb⟩
    split at hb
    · exact hb
    · exact absurd hb List.not_mem_nil
  waiters k' := by
    rw [hq, ← h.waiters]
    split
    · next heq =>
      rw [heq, hv, List.map_append, List.append_assoc]
      rfl
    · rw [List.append_nil]
  requests k' := by
    have hr := h.requests k'
    rw [callsOf_cons, hk] at hr
    rw [← hr]
    split
    · next heq =>
      rw [heq, if_pos rfl, List.map_append, List.append_assoc]
      rfl
    · next hne => rw [if_neg (fun heq => hne (Option.some.inj heq).symm), List.append_nil,
        List.nil_append]

section

variable {b : Binding} {k : AckKind}

/-- A waiter and the request that it is bound to stand at the same place, one among the
calls and one among those that were not dropped. -/
theorem place_eq (h : Shifted calls waiting turns ahead queued strays bound bs) (hb : b ∈ bs k) :
    ∃ xs ys xs' ys', callsOf k turns = xs ++ b.waiter :: ys ∧
      (callsOf k turns).filter (fun w => w ∉ strays) = xs' ++ b.call :: ys' ∧
      xs.length = xs'.length := by
  obtain ⟨ds, es, hsplit⟩ := List.append_of_mem hb
  have hw := h.waiters k
  have hr := h.requests k
  rw [hsplit, List.map_append, List.map_cons, List.append_assoc, List.cons_append] at hw hr
  exact ⟨_, _, _, _, hw.symm, hr.symm, by rw [List.length_map, List.length_map]⟩

theorem mem_callsOf_waiter (h : Shifted calls waiting turns ahead queued strays bound bs)
    (hb : b ∈ bs k) : b.waiter ∈ callsOf k turns := by
  rw [← h.waiters]
  exact List.mem_append_left _ (List.mem_map_of_mem hb)

theorem mem_callsOf_call (h : Shifted calls waiting turns ahead queued strays bound bs)
    (hb : b ∈ bs k) : b.call ∈ callsOf k turns := by
  have hmem : b.call ∈ (bs k).map (·.call) ++ callsOf k ahead :=
    List.mem_append_left _ (List.mem_map_of_mem hb)
  rw [h.requests] at hmem
  exact (List.mem_filter.1 hmem).1

/-- The waiter of a call that was not dropped is bound to the request of the call exactly
when no call was dropped before it. -/
theorem call_eq_iff (h : Shifted calls waiting turns ahead queued strays bound bs)
    (hb : b ∈ bs k) (hw : b.waiter ∉ strays) :
    b.call = b.waiter ↔ ∀ s ∈ before b.waiter (callsOf k turns), s ∉ strays := by
  obtain ⟨xs, ys, xs', ys', hl, hf, hlen⟩ := h.place_eq hb
  have hn := h.callsOf_nodup k
  rw [hl] at hf hn
  rw [hl, before_of_nodup hn]
  constructor
  · intro heq s hs
    exact of_decide_eq_true (left_before_of_eq hn hf hlen heq s hs)
  · intro hs
    exact eq_of_left_before hf hlen (decide_eq_true hw) fun s hmem => decide_eq_true (hs s hmem)

theorem waiter_eq (h : Shifted calls waiting turns ahead queued strays bound bs) (hb : b ∈ bs k)
    (hs : ∀ s ∈ before b.call (callsOf k turns), s ∉ strays) : b.call = b.waiter := by
  obtain ⟨xs, ys, xs', ys', hl, hf, hlen⟩ := h.place_eq hb
  have hn := h.callsOf_nodup k
  rw [hl] at hf hn hs
  exact eq_of_left_before_left hn hf hlen fun s hmem => decide_eq_true (hs s hmem)

end

end Shifted

end LoraBridge.Transport
