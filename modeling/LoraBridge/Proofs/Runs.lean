/-! Runs of a system whose steps may be impossible. A run is the fold of the step over a list of
actions; there is none when one of them cannot happen. -/
namespace LoraBridge.Runs

variable {S A : Type} {step : S → A → Option S} {s s' : S} {as bs : List A}

theorem cons (s : S) (a : A) (as : List A) :
    (a :: as).foldlM step s = (step s a).bind fun t => as.foldlM step t :=
  rfl

theorem cons_eq_some {a : A} : (a :: as).foldlM step s = some s' ↔
    ∃ t, step s a = some t ∧ as.foldlM step t = some s' :=
  Option.bind_eq_some_iff

theorem one {a : A} (h : step s a = some s') : [a].foldlM step s = some s' :=
  cons_eq_some.2 ⟨s', h, rfl⟩

theorem two {t : S} {a b : A} (ha : step s a = some t) (hb : step t b = some s') :
    [a, b].foldlM step s = some s' :=
  cons_eq_some.2 ⟨t, ha, one hb⟩

theorem append_eq_some : (as ++ bs).foldlM step s = some s' ↔
    ∃ t, as.foldlM step s = some t ∧ bs.foldlM step t = some s' := by
  rw [List.foldlM_append]
  exact Option.bind_eq_some_iff

/-- What every step of a run keeps holds at its end. -/
theorem invariant {P : S → Prop}
    (hstep : ∀ s a s', a ∈ as → P s → step s a = some s' → P s')
    (hrun : as.foldlM step s = some s') (hs : P s) : P s' := by
  induction as generalizing s with
  | nil =>
    cases hrun
    exact hs
  | cons a as ih =>
    obtain ⟨t, ht, hrest⟩ := cons_eq_some.1 hrun
    apply ih _ hrest (hstep s a t List.mem_cons_self hs ht)
    intro s b s' hb
    exact hstep s b s' (List.mem_cons_of_mem _ hb)

/-- Where every step of a system is a run of another one, every run is. -/
theorem simulates {T B : Type} {step' : T → B → Option T} {R : S → T → Prop}
    (hstep : ∀ s a s' t, R s t → step s a = some s' →
      ∃ (bs : List B) (t' : T), bs.foldlM step' t = some t' ∧ R s' t')
    (hrun : as.foldlM step s = some s') {t : T} (h : R s t) :
    ∃ (bs : List B) (t' : T), bs.foldlM step' t = some t' ∧ R s' t' := by
  induction as generalizing s t with
  | nil =>
    cases hrun
    exact ⟨[], t, rfl, h⟩
  | cons a as ih =>
    obtain ⟨u, hu, hrest⟩ := cons_eq_some.1 hrun
    obtain ⟨bs, t₁, hbs, h₁⟩ := hstep s a u t h hu
    obtain ⟨cs, t₂, hcs, h₂⟩ := ih hrest h₁
    exact ⟨bs ++ cs, t₂, append_eq_some.2 ⟨t₁, hbs, hcs⟩, h₂⟩

end LoraBridge.Runs
