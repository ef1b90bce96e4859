import LoraBridge.Sanitize

/-! The scan of a text for a rule, as a relation: what has been written when the scan comes to
stand at a rest of the text. Many texts with one front are scanned alike: the scan comes to
stand where the front ends in all of them, or it passes over that place in all of them. -/
namespace LoraBridge.Sanitize

abbrev Rule := List Char → Option (List Char × List Char)

def Rule.Consumes (rule : Rule) : Prop :=
  ∀ cs out rest, rule cs = some (out, rest) → ∃ used, used ≠ [] ∧ cs = used ++ rest

theorem Rule.Consumes.length_lt {rule : Rule} (hrule : rule.Consumes) {cs out rest : List Char}
    (h : rule cs = some (out, rest)) : rest.length < cs.length := by
  obtain ⟨used, hne, rfl⟩ := hrule cs out rest h
  have hused := List.length_pos_iff.2 hne
  rw [List.length_append]
  omega

inductive Scans (rule : Rule) : List Char → List Char → List Char → Prop
  | here (cs : List Char) : Scans rule cs [] cs
  | keep {c : Char} {cs out rest : List Char} (h : rule (c :: cs) = none)
      (hscan : Scans rule cs out rest) : Scans rule (c :: cs) (c :: out) rest
  | skip {cs out behind more rest : List Char} (h : rule cs = some (out, behind))
      (hscan : Scans rule behind more rest) : Scans rule cs (out ++ more) rest

section

variable {rule : Rule} {cs ds out more rest : List Char} {c : Char}

@[simp] theorem replaceAll_nil (rule : Rule) : replaceAll rule [] = [] := by
  rw [replaceAll]

theorem replaceAll_keep (h : rule (c :: cs) = none) :
    replaceAll rule (c :: cs) = c :: replaceAll rule cs := by
  rw [replaceAll]
  simp only [h]

theorem replaceAll_skip (hrule : rule.Consumes) (h : rule cs = some (out, rest)) :
    replaceAll rule cs = out ++ replaceAll rule rest := by
  have hlen := hrule.length_lt h
  cases cs with
  | nil => exact absurd hlen (Nat.not_lt_zero _)
  | cons c cs =>
    rw [replaceAll]
    simp only [h]
    rw [if_pos (Nat.le_of_lt_succ hlen)]

theorem replaceAll_induction {motive : List Char → Prop} (hrule : rule.Consumes)
    (nil : motive [])
    (keep : ∀ c cs, rule (c :: cs) = none → motive cs → motive (c :: cs))
    (skip : ∀ cs out rest, rule cs = some (out, rest) → motive rest → motive cs)
    (cs : List Char) : motive cs := by
  induction hn : cs.length using Nat.strongRecOn generalizing cs with
  | ind n ih =>
  subst hn
  cases cs with
  | nil => exact nil
  | cons c cs =>
    cases h : rule (c :: cs) with
    | none => exact keep c cs h (ih _ (Nat.lt_succ_self _) cs rfl)
    | some p => exact skip _ p.1 p.2 h (ih _ (hrule.length_lt h) p.2 rfl)

namespace Scans

theorem replaceAll_eq (hrule : rule.Consumes) (h : Scans rule cs out rest) :
    replaceAll rule cs = out ++ replaceAll rule rest := by
  induction h with
  | here => rfl
  | keep h _ ih => rw [replaceAll_keep h, ih, List.cons_append]
  | skip h _ ih => rw [replaceAll_skip hrule h, ih, List.append_assoc]

private theorem length_le (hrule : rule.Consumes) (h : Scans rule cs out rest) :
    rest.length ≤ cs.length := by
  induction h with
  | here => exact Nat.le_refl _
  | keep _ _ ih => exact Nat.le_succ_of_le ih
  | skip h _ ih => exact Nat.le_trans ih (Nat.le_of_lt (hrule.length_lt h))

theorem trans (h : Scans rule cs out ds) (h' : Scans rule ds more rest) :
    Scans rule cs (out ++ more) rest := by
  induction h with
  | here => exact h'
  | keep h _ ih => exact .keep h (ih h')
  | skip h _ ih =>
    rw [List.append_assoc]
    exact .skip h (ih h')

theorem to_end (hrule : rule.Consumes) (cs : List Char) :
    Scans rule cs (replaceAll rule cs) [] := by
  induction cs using replaceAll_induction hrule with
  | nil =>
    rw [replaceAll_nil]
    exact .here []
  | keep c cs h ih =>
    rw [replaceAll_keep h]
    exact .keep h ih
  | skip cs out rest h ih =>
    rw [replaceAll_skip hrule h]
    exact .skip h ih

theorem extend {back : List Char} (hrule : rule.Consumes) (h : Scans rule cs out [])
    (hnone : ∀ s, s ≠ [] → s <:+ cs → rule s = none → rule (s ++ back) = none)
    (hsome : ∀ s o r, rule s = some (o, r) → rule (s ++ back) = some (o, r ++ back)) :
    Scans rule (cs ++ back) out back := by
  generalize hr : ([] : List Char) = r at h
  induction h with
  | here =>
    subst hr
    exact .here back
  | @keep c cs _ _ h _ ih =>
    refine .keep (hnone _ (List.cons_ne_nil c cs) List.suffix_rfl h)
      (ih (fun s hs hsuffix => ?_) hr)
    exact hnone s hs (hsuffix.trans (List.suffix_cons c cs))
  | @skip cs _ behind _ _ h _ ih =>
    obtain ⟨used, -, rfl⟩ := hrule _ _ _ h
    refine .skip (hsome _ _ _ h) (ih (fun s hs hsuffix => ?_) hr)
    exact hnone s hs (hsuffix.trans (List.suffix_append used behind))

theorem kept_of_same {front back : List Char}
    (h : ∀ s, s ≠ [] → s <:+ front → rule (s ++ back) = none ∨
      ∃ used left, used ≠ [] ∧ s = used ++ left ∧ rule (s ++ back) = some (used, left ++ back)) :
    Scans rule (front ++ back) front back := by
  induction hn : front.length using Nat.strongRecOn generalizing front with
  | ind n ih =>
  subst hn
  cases front with
  | nil => exact .here back
  | cons c front =>
    rcases h _ (List.cons_ne_nil c front) List.suffix_rfl with happly | ⟨used, left, hne, heq, happly⟩
    · refine .keep happly (ih _ (Nat.lt_succ_self _) (fun s hs hsuffix => ?_) rfl)
      exact h s hs (hsuffix.trans (List.suffix_cons c front))
    · rw [heq] at h happly ⊢
      refine .skip happly (ih _ ?_ (fun s hs hsuffix => ?_) rfl)
      · have hused := List.length_pos_iff.2 hne
        rw [heq, List.length_append]
        omega
      · exact h s hs (hsuffix.trans (List.suffix_append used left))

theorem kept {front back : List Char}
    (h : ∀ s, s ≠ [] → s <:+ front → rule (s ++ back) = none) :
    Scans rule (front ++ back) front back :=
  kept_of_same fun s hs hsuffix => .inl (h s hs hsuffix)

private theorem of_keep (h : rule (c :: cs) = none) (hscan : Scans rule (c :: cs) out rest)
    (hlen : rest.length < (c :: cs).length) : ∃ out', Scans rule cs out' rest := by
  cases hscan with
  | here => exact absurd hlen (Nat.lt_irrefl _)
  | keep _ hscan => exact ⟨_, hscan⟩
  | skip h' => rw [h] at h'; cases h'

theorem of_skip {behind : List Char} (h : rule cs = some (more, behind))
    (hscan : Scans rule cs out rest) (hlen : rest.length < cs.length) :
    ∃ out', Scans rule behind out' rest := by
  cases hscan with
  | here => exact absurd hlen (Nat.lt_irrefl _)
  | keep h' => rw [h] at h'; cases h'
  | skip h' hscan =>
    rw [h] at h'
    cases h'
    exact ⟨_, hscan⟩

end Scans

end

/-- What a rule does at one front of many texts: it does not apply, or it ends within the front,
or it goes on over the backs to what it leaves of them. -/
inductive Front (rule : Rule) {ι : Type} (back left : ι → List Char) (p : List Char) : Prop
  | none (h : ∀ i, rule (p ++ back i) = none)
  | within (out q : List Char) (hlen : q.length < p.length)
      (h : ∀ i, rule (p ++ back i) = some (out, q ++ back i))
  | through (out : List Char) (h : ∀ i, rule (p ++ back i) = some (out, left i))

section

variable {rule : Rule} {ι : Type} {back left : ι → List Char}

/-- The scan stands at the backs of all texts, or it goes past their starts in all of them. -/
theorem scans_front (hrule : rule.Consumes) (hleft : ∀ i, (left i).length < (back i).length)
    (hfront : ∀ p, p ≠ [] → Front rule back left p) (p : List Char) :
    (∃ out, ∀ i, Scans rule (p ++ back i) out (back i)) ∨
      ∃ out, ∀ i, Scans rule (p ++ back i) out (left i) ∧
        ∀ out', ¬ Scans rule (p ++ back i) out' (back i) := by
  induction hn : p.length using Nat.strongRecOn generalizing p with
  | ind n ih =>
  subst hn
  cases p with
  | nil => exact .inl ⟨[], fun i => .here (back i)⟩
  | cons c p =>
    have hlen : ∀ i, (back i).length < (c :: p ++ back i).length := fun i => by
      rw [List.length_append, List.length_cons]
      omega
    cases hfront (c :: p) (List.cons_ne_nil c p) with
    | none h =>
      rcases ih p.length (Nat.lt_succ_self _) p rfl with ⟨out, hscan⟩ | ⟨out, hscan⟩
      · exact .inl ⟨c :: out, fun i => .keep (h i) (hscan i)⟩
      · refine .inr ⟨c :: out, fun i => ⟨.keep (h i) (hscan i).1, fun out' hstands => ?_⟩⟩
        obtain ⟨out'', hstands⟩ := hstands.of_keep (h i) (hlen i)
        exact (hscan i).2 out'' hstands
    | within more q hq h =>
      rcases ih q.length hq q rfl with ⟨out, hscan⟩ | ⟨out, hscan⟩
      · exact .inl ⟨more ++ out, fun i => .skip (h i) (hscan i)⟩
      · refine .inr ⟨more ++ out, fun i => ⟨.skip (h i) (hscan i).1, fun out' hstands => ?_⟩⟩
        obtain ⟨out'', hstands⟩ := hstands.of_skip (h i) (hlen i)
        exact (hscan i).2 out'' hstands
    | through out h =>
      refine .inr ⟨out ++ [], fun i => ⟨.skip (h i) (.here (left i)), fun out' hstands => ?_⟩⟩
      obtain ⟨out'', hstands⟩ := hstands.of_skip (h i) (hlen i)
      exact absurd (hstands.length_le hrule) (Nat.not_le.2 (hleft i))

/-- Where the rule never ends within the front, the scan keeps the front in all texts, or it goes
past the starts of their backs in all of them. -/
theorem scans_kept_front {p : List Char}
    (hfront : ∀ s, s ≠ [] → s <:+ p →
      (∀ i, rule (s ++ back i) = none) ∨ ∃ out, ∀ i, rule (s ++ back i) = some (out, left i)) :
    (∀ i, Scans rule (p ++ back i) p (back i)) ∨
      ∃ out, ∀ i, Scans rule (p ++ back i) out (left i) := by
  induction p with
  | nil => exact .inl fun i => .here (back i)
  | cons c p ih =>
    rcases hfront (c :: p) (List.cons_ne_nil c p) List.suffix_rfl with h | ⟨out, h⟩
    · rcases ih fun s hs hp => hfront s hs (hp.trans (List.suffix_cons c p)) with
        hscan | ⟨out, hscan⟩
      · exact .inl fun i => .keep (h i) (hscan i)
      · exact .inr ⟨c :: out, fun i => .keep (h i) (hscan i)⟩
    · exact .inr ⟨out ++ [], fun i => .skip (h i) (.here (left i))⟩

end

end LoraBridge.Sanitize
