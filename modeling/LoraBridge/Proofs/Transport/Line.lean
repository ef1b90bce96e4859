import Mathlib.Data.List.Nodup
import LoraBridge.Proofs.Transport.Network

/-! The waiters of calls beside their requests. Requests stand in one line in the order
in which they were placed, and the waiters of a kind are always those of the last
requests of that kind: a loss of the connection takes the waiters and leaves requests,
and nothing leaves a waiter without its request. -/
namespace LoraBridge.Transport

@[simp] theorem callsOf_append (k : AckKind) (ps qs : List (Waiter × Request)) :
    callsOf k (ps ++ qs) = callsOf k ps ++ callsOf k qs := by
  simp only [callsOf, List.filter_append, List.map_append]

@[simp] theorem callsOf_cons (k : AckKind) (p : Waiter × Request) (ps : List (Waiter × Request)) :
    callsOf k (p :: ps) = (if p.2.ackKind? = some k then [p.1] else []) ++ callsOf k ps := by
  unfold callsOf
  rw [List.filter_cons]
  by_cases h : p.2.ackKind? = some k
  · simp only [h, beq_self_eq_true, ↓reduceIte, List.map_cons, List.singleton_append]
  · simp only [beq_iff_eq, h, ↓reduceIte, List.nil_append]

@[simp] theorem callsOf_singleton (k : AckKind) (p : Waiter × Request) :
    callsOf k [p] = if p.2.ackKind? = some k then [p.1] else [] := by
  rw [callsOf_cons, show callsOf k [] = [] from rfl, List.append_nil]

theorem callsOf_sublist (k : AckKind) (ps : List (Waiter × Request)) :
    (callsOf k ps).Sublist (ps.map (·.1)) :=
  List.filter_sublist.map _

theorem exists_of_mem_callsOf {k : AckKind} {ps : List (Waiter × Request)} {w : Waiter}
    (h : w ∈ callsOf k ps) : ∃ r, (w, r) ∈ ps ∧ r.ackKind? = some k := by
  obtain ⟨p, hp, rfl⟩ := List.mem_map.1 h
  obtain ⟨hmem, hkind⟩ := List.mem_filter.1 hp
  exact ⟨p.2, hmem, eq_of_beq hkind⟩

private theorem dropLast_isSuffix {α : Type} {s l : List α} (h : s <:+ l) :
    s.dropLast <:+ l.dropLast := by
  obtain ⟨t, rfl⟩ := h
  by_cases hs : s = []
  · rw [hs]
    exact List.nil_suffix
  · rw [List.dropLast_append_of_ne_nil hs]
    exact List.suffix_append t _

private theorem tail_isSuffix {α : Type} {s l : List α} {a : α} (h : s <:+ a :: l) :
    s.tail <:+ l := by
  rcases List.suffix_cons_iff.1 h with rfl | h
  · exact List.suffix_rfl
  · exact (List.tail_suffix s).trans h

/-- The oldest waiter is that of the oldest request when none is missing, and only
then. -/
theorem head_eq_iff {α : Type} {v w : α} {ws l : List α} (h : v :: ws <:+ w :: l)
    (hn : (w :: l).Nodup) : w = v ↔ (w :: l).length - (v :: ws).length = 0 := by
  rcases List.suffix_cons_iff.1 h with heq | hl
  · cases heq
    exact ⟨fun _ => Nat.sub_self _, fun _ => rfl⟩
  · have hv : v ∈ l := hl.subset List.mem_cons_self
    have hne : w ≠ v := fun heq => (List.nodup_cons.1 hn).1 (heq ▸ hv)
    have hlen : (v :: ws).length ≤ l.length := hl.length_le
    refine iff_of_false hne ?_
    rw [List.length_cons (a := w)]
    omega

/-- How the waiters of calls stand to the requests. -/
structure Aligned (calls waiting ahead : List (Waiter × Request))
    (queued : AckKind → List Waiter) (bound : List Binding) : Prop where
  latest : ∀ k, queued k <:+ callsOf k ahead
  nodup : (calls.map (·.1)).Nodup
  known : ∀ p ∈ waiting ++ ahead, p ∈ calls
  single : ∀ w, ((waiting ++ ahead).map (·.1)).count w ≤ (calls.map (·.1)).count w
  boundKnown : ∀ b ∈ bound, ∃ r, (b.waiter, r) ∈ calls ∧ r.ackKind? ≠ none
  once : ∀ w, (waiting.map (·.1)).count w + (queued .subscribe).count w +
    (queued .unsubscribe).count w + (bound.map (·.waiter)).count w ≤ (calls.map (·.1)).count w
  exact : ∀ b ∈ bound, b.call = b.waiter ↔ b.surplus = 0

namespace Aligned

variable {calls waiting ahead : List (Waiter × Request)} {queued : AckKind → List Waiter}
  {bound : List Binding} {w : Waiter} {r : Request}

theorem start : Aligned [] [] [] (fun _ => []) [] where
  latest _ := List.nil_suffix
  nodup := List.nodup_nil
  known _ h := h
  single _ := Nat.le_refl _
  boundKnown _ h := absurd h List.not_mem_nil
  once _ := Nat.le_refl _
  exact _ h := absurd h List.not_mem_nil

theorem call (h : Aligned calls waiting ahead queued bound) (hw : w ∉ calls.map (·.1)) :
    Aligned (calls ++ [(w, r)]) (waiting ++ [(w, r)]) ahead queued bound where
  latest := h.latest
  nodup := by
    rw [List.map_append, List.nodup_append_comm]
    exact List.nodup_cons.2 ⟨hw, h.nodup⟩
  known p hp := by
    have hk := h.known p
    simp only [List.mem_append, List.mem_singleton] at hp hk ⊢
    tauto
  single v := by
    have hs := h.single v
    simp only [List.map_append, List.count_append] at hs ⊢
    omega
  boundKnown b hb := by
    obtain ⟨q, hq, hk⟩ := h.boundKnown b hb
    exact ⟨q, List.mem_append_left _ hq, hk⟩
  once v := by
    have ho := h.once v
    simp only [List.map_append, List.count_append] at ho ⊢
    omega
  exact := h.exact

theorem weaken {waiting' ahead' : List (Waiter × Request)} {queued' : AckKind → List Waiter}
    (h : Aligned calls waiting ahead queued bound) (hw : waiting'.Sublist waiting)
    (ha : ahead'.Sublist ahead) (hq : ∀ k, (queued' k).Sublist (queued k))
    (hs : ∀ k, queued' k <:+ callsOf k ahead') :
    Aligned calls waiting' ahead' queued' bound where
  latest := hs
  nodup := h.nodup
  known p hp := h.known p ((hw.append ha).subset hp)
  single v := Nat.le_trans (((hw.append ha).map _).count_le v) (h.single v)
  boundKnown := h.boundKnown
  once v := by
    have ho := h.once v
    have h₁ := (hw.map (·.1)).count_le v
    have h₂ := (hq .subscribe).count_le v
    have h₃ := (hq .unsubscribe).count_le v
    omega
  exact := h.exact

/-- A loss takes the waiters, and of the requests what it takes. -/
theorem cut {ahead' : List (Waiter × Request)} (h : Aligned calls waiting ahead queued bound)
    (ha : ahead'.Sublist ahead) : Aligned calls waiting ahead' (fun _ => []) bound :=
  h.weaken (List.Sublist.refl _) ha (fun _ => List.nil_sublist _) fun _ => List.nil_suffix

theorem turn {queued' : AckKind → List Waiter}
    (h : Aligned calls ((w, r) :: waiting) ahead queued bound)
    (hq : ∀ k, queued' k = queued k ++ if r.ackKind? = some k then [w] else []) :
    Aligned calls waiting (ahead ++ [(w, r)]) queued' bound where
  latest k := by
    obtain ⟨t, ht⟩ := h.latest k
    refine ⟨t, ?_⟩
    rw [hq, callsOf_append, callsOf_singleton, ← ht, List.append_assoc]
  nodup := h.nodup
  known p hp := by
    have hk := h.known p
    simp only [List.mem_append, List.mem_cons, List.not_mem_nil, or_false] at hp hk
    tauto
  single v := by
    have hs := h.single v
    simp only [List.map_append, List.map_cons, List.map_nil, List.count_append, List.count_cons,
      List.count_nil] at hs ⊢
    omega
  boundKnown := h.boundKnown
  once v := by
    have ho := h.once v
    simp only [List.map_cons, List.count_cons] at ho
    rw [hq, hq, List.count_append, List.count_append]
    cases hk : r.ackKind? with
    | none =>
      simp only [reduceCtorEq, ↓reduceIte, List.count_nil]
      omega
    | some k =>
      cases k <;> simp only [Option.some.injEq, reduceCtorEq, ↓reduceIte, List.count_nil,
        List.count_singleton] <;> omega
  exact := h.exact

theorem refuse {queued' : AckKind → List Waiter}
    (h : Aligned calls waiting (ahead ++ [(w, r)]) queued bound)
    (hq : ∀ k, queued' k = if r.ackKind? = some k then (queued k).dropLast else queued k) :
    Aligned calls waiting ahead queued' bound := by
  refine h.weaken (List.Sublist.refl _) (List.sublist_append_left _ _) (fun k => ?_) fun k => ?_
  · rw [hq]
    split
    · exact List.dropLast_sublist _
    · exact List.Sublist.refl _
  · have hl := h.latest k
    rw [callsOf_append, callsOf_singleton] at hl
    rw [hq]
    split
    · next hk =>
      have := dropLast_isSuffix hl
      rwa [if_pos hk, List.dropLast_concat] at this
    · next hk => rwa [if_neg hk, List.append_nil] at hl

/-- The oldest request leaves the line, and the oldest waiter of its kind is bound to
it. -/
theorem bind {queued' : AckKind → List Waiter} {bound' : List Binding}
    (h : Aligned calls waiting ((w, r) :: ahead) queued bound)
    (hq : ∀ k, queued' k = if r.ackKind? = some k then (queued k).tail else queued k)
    (hb : bound' = bound ∨ ∃ k v ws, r.ackKind? = some k ∧ queued k = v :: ws ∧
      bound' = bound ++ [⟨v, w, (callsOf k ((w, r) :: ahead)).length - (queued k).length⟩]) :
    Aligned calls waiting ahead queued' bound' := by
  have hbase : Aligned calls waiting ahead queued' bound := by
    refine h.weaken (List.Sublist.refl _) (List.sublist_cons_self _ _) (fun k => ?_) fun k => ?_
    · rw [hq]
      split
      · exact List.tail_sublist _
      · exact List.Sublist.refl _
    · have hl := h.latest k
      rw [callsOf_cons] at hl
      rw [hq]
      split
      · next hk =>
        rw [if_pos hk] at hl
        exact tail_isSuffix hl
      · next hk => rwa [if_neg hk, List.nil_append] at hl
  rcases hb with rfl | ⟨k, v, ws, hk, hv, rfl⟩
  · exact hbase
  have hline : callsOf k ((w, r) :: ahead) = w :: callsOf k ahead := by
    rw [callsOf_cons, if_pos hk, List.singleton_append]
  have hl := h.latest k
  rw [hline] at hl
  refine { hbase with boundKnown := fun b hb => ?_, once := fun u => ?_, exact := fun b hb => ?_ }
  · rcases List.mem_append.1 hb with hb | hb
    · exact h.boundKnown b hb
    · rw [List.mem_singleton.1 hb]
      have hmem : v ∈ callsOf k ((w, r) :: ahead) := by
        rw [hline]
        exact hl.subset (hv ▸ List.mem_cons_self)
      obtain ⟨q, hq, hkind⟩ := exists_of_mem_callsOf hmem
      exact ⟨q, h.known _ (List.mem_append_right _ hq), by rw [hkind]; exact nofun⟩
  · have ho := h.once u
    rw [List.map_append, List.count_append, List.map_singleton, List.count_singleton, hq, hq]
    cases k <;> simp only [hk, hv, Option.some.injEq, reduceCtorEq, ↓reduceIte, List.tail_cons,
      List.count_cons] at ho ⊢ <;> omega
  · rcases List.mem_append.1 hb with hb | hb
    · exact h.exact b hb
    · rw [List.mem_singleton.1 hb, hline]
      rw [hv] at hl ⊢
      refine head_eq_iff hl ?_
      rw [← hline, List.nodup_iff_count_le_one]
      intro u
      have h₁ := (callsOf_sublist k ((w, r) :: ahead)).count_le u
      have h₂ := h.single u
      have h₃ := List.nodup_iff_count_le_one.1 h.nodup u
      rw [List.map_append, List.count_append] at h₂
      omega

theorem eq_of_waiter_eq (h : Aligned calls waiting ahead queued bound) {b c : Binding}
    (hb : b ∈ bound) (hc : c ∈ bound) (heq : b.waiter = c.waiter) : b = c := by
  have hn : (bound.map (·.waiter)).Nodup := by
    rw [List.nodup_iff_count_le_one]
    intro u
    have h₁ := h.once u
    have h₂ := List.nodup_iff_count_le_one.1 h.nodup u
    omega
  exact List.inj_on_of_nodup_map hn hb hc heq

theorem eq_of_call_eq (h : Aligned calls waiting ahead queued bound) {r' : Request}
    (hr : (w, r) ∈ calls) (hr' : (w, r') ∈ calls) : r = r' :=
  congrArg Prod.snd (List.inj_on_of_nodup_map h.nodup hr hr' rfl)

end Aligned

end LoraBridge.Transport
