import LoraBridge.Topic.Topics

/-! Different gateways have different topics, whatever the template. -/
namespace LoraBridge

namespace Eui

private theorem hexDigit_inj {m n : Nat} (hm : m < 16) (hn : n < 16) (h : hexDigit m = hexDigit n) :
    m = n := by
  have hall : ∀ a b : Fin 16, hexDigit a = hexDigit b → a = b := by decide
  exact congrArg Fin.val (hall ⟨m, hm⟩ ⟨n, hn⟩ h)

private theorem hexPair_inj {a b : UInt8} (h : hexPair a = hexPair b) : a = b := by
  simp only [hexPair, List.cons.injEq, and_true] at h
  have ha := a.toNat_lt
  have hb := b.toNat_lt
  have hhigh := hexDigit_inj (by omega) (by omega) h.1
  have hlow := hexDigit_inj (Nat.mod_lt _ (by omega)) (Nat.mod_lt _ (by omega)) h.2
  apply UInt8.toNat_inj.1
  omega

theorem flatMap_hexPair_inj {as bs : List UInt8} (h : as.flatMap hexPair = bs.flatMap hexPair) :
    as = bs := by
  induction as generalizing bs with
  | nil =>
    cases bs with
    | nil => rfl
    | cons b bs => simp [hexPair] at h
  | cons a as ih =>
    cases bs with
    | nil => simp [hexPair] at h
    | cons b bs =>
      rw [List.flatMap_cons, List.flatMap_cons] at h
      obtain ⟨hpair, hrest⟩ := List.append_inj h rfl
      rw [hexPair_inj hpair, ih hrest]

private theorem digits_inj {a b : Eui} (h : a.digits = b.digits) : a = b := by
  have hbytes := Vector.toList_inj.1 (flatMap_hexPair_inj h)
  cases a
  cases b
  exact congrArg Eui.mk hbytes

end Eui

namespace Topic

theorem Template.render_inj {t : Template} {g g' : Eui} {topic : String}
    (h : t.render g = .ok topic) (h' : t.render g' = .ok topic) : g = g' := by
  simp only [Template.render] at h h'
  split at h
  · split at h'
    · have heq := (Except.ok.inj h).trans (Except.ok.inj h').symm
      have hlist := congrArg String.toList heq
      simp only [String.toList_append, Eui.text, String.toList_ofList] at hlist
      exact Eui.digits_inj (List.append_cancel_left (List.append_cancel_right hlist))
    · cases h'
  · cases h

theorem Topics.render_inj {t : Topics} {role : Role} {g g' : Eui} {topic : String}
    (h : t.render role g = .ok topic) (h' : t.render role g' = .ok topic) : g = g' := by
  unfold Topics.render at h h'
  cases hr : (t.template role).render g with
  | error e => rw [hr] at h; cases h
  | ok a =>
    cases hr' : (t.template role).render g' with
    | error e => rw [hr'] at h'; cases h'
    | ok b =>
      rw [hr] at h
      rw [hr'] at h'
      cases h
      cases h'
      exact Template.render_inj hr hr'

end Topic

end LoraBridge
