import LoraBridge.Json.Value

/-! The members of a map, sorted by name. Each name stands once, so the order in which members
are put in does not matter. -/
namespace LoraBridge.Json.Value

def Ascending (ms : List (String × Value)) : Prop :=
  ms.Pairwise fun m m' => m.1 < m'.1

private theorem gt_of_not_lt {k k' : String} (hlt : ¬ k < k') (hne : k ≠ k') : k' < k := by
  by_cases h : k' < k
  · exact h
  · exact absurd (String.le_antisymm (String.not_lt.1 h) (String.not_lt.1 hlt)) hne

theorem mem_insertMember {k : String} {v : Value} {ms : List (String × Value)}
    {m : String × Value} (h : m ∈ insertMember k v ms) : m = (k, v) ∨ m ∈ ms := by
  induction ms with
  | nil => exact .inl (List.mem_singleton.1 h)
  | cons m' ms ih =>
    rw [insertMember] at h
    split at h
    · exact List.mem_cons.1 h
    split at h
    · exact (List.mem_cons.1 h).imp_right (List.mem_cons_of_mem _)
    · rcases List.mem_cons.1 h with rfl | h
      · exact .inr List.mem_cons_self
      · exact (ih h).imp_right (List.mem_cons_of_mem _)

theorem ascending_insertMember {k : String} {v : Value} {ms : List (String × Value)}
    (h : Ascending ms) : Ascending (insertMember k v ms) := by
  induction ms with
  | nil => exact List.pairwise_singleton _ _
  | cons m ms ih =>
    obtain ⟨hm, hms⟩ := List.pairwise_cons.1 h
    rw [insertMember]
    split
    · next hlt =>
      refine List.pairwise_cons.2 ⟨?_, h⟩
      rintro m' hm'
      rcases List.mem_cons.1 hm' with rfl | hm'
      · exact hlt
      · exact String.lt_trans hlt (hm m' hm')
    split
    · next heq =>
      refine List.pairwise_cons.2 ⟨?_, hms⟩
      intro m' hm'
      exact heq ▸ hm m' hm'
    · next hlt hne =>
      refine List.pairwise_cons.2 ⟨?_, ih hms⟩
      intro m' hm'
      rcases mem_insertMember hm' with rfl | hm'
      · exact gt_of_not_lt hlt hne
      · exact hm m' hm'

theorem perm_insertMember {k : String} {v : Value} {ms : List (String × Value)}
    (h : ∀ m ∈ ms, m.1 ≠ k) : (insertMember k v ms).Perm ((k, v) :: ms) := by
  induction ms with
  | nil => exact .refl _
  | cons m ms ih =>
    obtain ⟨hm, hms⟩ := List.forall_mem_cons.1 h
    rw [insertMember]
    split
    · exact .refl _
    · rw [if_neg (Ne.symm hm)]
      exact ((ih hms).cons m).trans (.swap _ _ _)

private theorem ascending_foldl {ms acc : List (String × Value)} (h : Ascending acc) :
    Ascending (ms.foldl (fun acc m => insertMember m.1 m.2 acc) acc) := by
  induction ms generalizing acc with
  | nil => exact h
  | cons m ms ih => exact ih (ascending_insertMember h)

theorem ascending_sortMembers (ms : List (String × Value)) : Ascending (sortMembers ms) :=
  ascending_foldl .nil

theorem mem_foldl {ms acc : List (String × Value)} {m : String × Value}
    (h : m ∈ ms.foldl (fun acc m => insertMember m.1 m.2 acc) acc) : m ∈ acc ∨ m ∈ ms := by
  induction ms generalizing acc with
  | nil => exact .inl h
  | cons m' ms ih =>
    rcases ih h with h | h
    · rcases mem_insertMember h with rfl | h
      · exact .inr List.mem_cons_self
      · exact .inl h
    · exact .inr (List.mem_cons_of_mem _ h)

theorem mem_of_mem_sortMembers {ms : List (String × Value)} {m : String × Value}
    (h : m ∈ sortMembers ms) : m ∈ ms :=
  (mem_foldl h).resolve_left List.not_mem_nil

theorem perm_foldl {ms acc : List (String × Value)}
    (h : (ms ++ acc).Pairwise fun m m' => m.1 ≠ m'.1) :
    (ms.foldl (fun acc m => insertMember m.1 m.2 acc) acc).Perm (ms ++ acc) := by
  induction ms generalizing acc with
  | nil => exact .refl _
  | cons m ms ih =>
    have hmoved : (ms ++ insertMember m.1 m.2 acc).Perm (m :: ms ++ acc) := by
      obtain ⟨hm, -⟩ := List.pairwise_cons.1 h
      have hnew : (insertMember m.1 m.2 acc).Perm (m :: acc) :=
        perm_insertMember fun m' hm' => Ne.symm (hm m' (List.mem_append_right ms hm'))
      exact (hnew.append_left ms).trans List.perm_middle
    have hdistinct := h.perm hmoved.symm Ne.symm
    exact (ih hdistinct).trans hmoved

private theorem perm_sortMembers {ms : List (String × Value)}
    (h : ms.Pairwise fun m m' => m.1 ≠ m'.1) : (sortMembers ms).Perm ms := by
  rw [← List.append_nil ms] at h
  have hperm := perm_foldl h
  rwa [List.append_nil] at hperm

theorem sortMembers_of_perm {ms ms' : List (String × Value)} (hperm : ms'.Perm ms)
    (h : Ascending ms) : sortMembers ms' = ms := by
  have hdistinct : ms.Pairwise fun m m' => m.1 ≠ m'.1 := h.imp String.ne_of_lt
  have hsorted := (perm_sortMembers (hdistinct.perm hperm.symm Ne.symm)).trans hperm
  refine hsorted.eq_of_pairwise ?_ (ascending_sortMembers ms') h
  intro m m' _ _ hlt hgt
  exact absurd hgt (String.lt_asymm hlt)

end LoraBridge.Json.Value
