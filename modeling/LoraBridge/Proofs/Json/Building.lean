import LoraBridge.Proofs.Json.Scanning

/-! The texts of a tree. A tree without a fault has the tokens that it was built from, so every text
that is read without a fault is written from its tree. -/
namespace LoraBridge.Json

namespace Tree

private theorem itemTokens_concat (vs : List Tree) (v : Tree) (first : Bool) :
    itemTokens first (vs ++ [v]) =
      itemTokens first vs ++ ((if first && vs.isEmpty then [] else [.comma]) ++ v.tokens) := by
  induction vs generalizing first with
  | nil => cases first <;> simp [itemTokens]
  | cons w vs ih =>
    rw [List.cons_append, itemTokens, itemTokens, ih]
    simp

theorem memberTokens_concat (ms : List (Quoted × Tree)) (k : Quoted) (v : Tree) (first : Bool) :
    memberTokens first (ms ++ [(k, v)]) =
      memberTokens first ms ++
        ((if first && ms.isEmpty then [] else [.comma]) ++ .string k :: .colon :: v.tokens) := by
  induction ms generalizing first with
  | nil => cases first <;> simp [memberTokens]
  | cons m ms ih =>
    rw [List.cons_append, memberTokens, memberTokens, ih]
    simp

def comma {α : Type} : List α → List Token
  | [] => []
  | _ :: _ => [.comma]

def opened : List Frame → List Token
  | [] => []
  | .array items :: outer =>
    opened outer ++ .openArray :: (itemTokens true items.reverse ++ comma items)
  | .object ms k :: outer =>
    opened outer ++
      .openObject :: (memberTokens true ms.reverse ++ (comma ms ++ [.string k, .colon]))

def inside : List Frame → List Token
  | [] => []
  | .array items :: outer => opened outer ++ .openArray :: itemTokens true items.reverse
  | .object ms _ :: outer => opened outer ++ .openObject :: memberTokens true ms.reverse

/-- The tokens that have been read where the builder stands. -/
def before : Focus → List Frame → List Token
  | .value, frames => opened frames
  | .key, .object ms k :: outer => inside (.object ms k :: outer) ++ comma ms
  | .colon, .object ms k :: outer => inside (.object ms k :: outer) ++ (comma ms ++ [.string k])
  | _, frames => inside frames

section

variable (items : List Tree) (ms : List (Quoted × Tree)) (k : Quoted) (frames outer : List Frame)

@[simp] private theorem comma_nil {α : Type} : comma ([] : List α) = [] := rfl

@[simp] private theorem comma_cons {α : Type} (x : α) (xs : List α) : comma (x :: xs) = [.comma] :=
  rfl

private theorem opened_array : opened (.array items :: outer) =
    inside (.array items :: outer) ++ comma items := by
  simp [opened, inside]

private theorem opened_object : opened (.object ms k :: outer) =
    inside (.object ms k :: outer) ++ (comma ms ++ [.string k, .colon]) := by
  simp [opened, inside]

@[simp] private theorem inside_array : inside (.array items :: outer) =
    opened outer ++ .openArray :: itemTokens true items.reverse := rfl

@[simp] private theorem inside_object : inside (.object ms k :: outer) =
    opened outer ++ .openObject :: memberTokens true ms.reverse := rfl

@[simp] private theorem before_value : before .value frames = opened frames := rfl

@[simp] private theorem before_firstItem : before .firstItem frames = inside frames := rfl

@[simp] private theorem before_firstKey : before .firstKey frames = inside frames := rfl

@[simp] private theorem before_key : before .key (.object ms k :: outer) =
    inside (.object ms k :: outer) ++ comma ms := rfl

@[simp] private theorem before_colon : before .colon (.object ms k :: outer) =
    inside (.object ms k :: outer) ++ (comma ms ++ [.string k]) := rfl

@[simp] private theorem before_next : before .next frames = inside frames := rfl

end

/-- The containers that are open where the builder stands. -/
def Fits : Focus → List Frame → Prop
  | .firstItem, frames => ∃ outer, frames = .array [] :: outer
  | .firstKey, frames => ∃ outer, frames = .object [] noKey :: outer
  | .colon, frames => ∃ ms k outer, frames = .object ms k :: outer
  | .next, .array items :: _ => items ≠ []
  | .next, .object ms _ :: _ => ms ≠ []
  | _, _ => True

end Tree

structure Document.Whole (d : Document) : Prop where
  root : d.root.skip? = none
  trailing : d.trailing = false

namespace Tree

theorem not_whole_unwind {v : Tree} (hv : v.skip? ≠ none) (f : Fault) (frames : List Frame) :
    ¬ (unwind v f frames).Whole := by
  induction frames generalizing v with
  | nil => exact fun h => hv h.root
  | cons frame outer ih =>
    cases frame with
    | array items => exact ih (by simp [skip?])
    | object ms k => exact ih (by simp [skip?])

theorem not_whole_abandon (f : Fault) (frames : List Frame) : ¬ (abandon f frames).Whole := by
  cases frames with
  | nil => exact fun h => absurd h.root (by simp [abandon, skip?])
  | cons frame outer =>
    cases frame with
    | array items => exact not_whole_unwind (by simp [skip?]) f outer
    | object ms k => exact not_whole_unwind (by simp [skip?]) f outer

/-- A document is built from the tokens that were read and those that follow, which are whole. -/
structure Built (d : Document) (front rest : List Token) : Prop where
  tokens : d.root.tokens = front ++ rest
  sound : ∀ t ∈ rest, t.isSound = true

theorem Built.cons {d : Document} {front front' rest : List Token} {t : Token}
    (h : Built d front' rest) (hfront : front' = front ++ [t]) (ht : t.isSound = true) :
    Built d front (t :: rest) where
  tokens := by rw [h.tokens, hfront, List.append_assoc, List.singleton_append]
  sound := List.forall_mem_cons.2 ⟨ht, h.sound⟩

/-- Every whole document that comes from the tokens is built from them. -/
def Builds (rest : List Token) : Prop :=
  ∀ focus frames, Fits focus frames → (build rest focus frames).Whole →
    Built (build rest focus frames) (before focus frames) rest

section

variable {rest : List Token} (hrest : Builds rest)

include hrest

theorem built_place {v : Tree} {frames : List Frame}
    (h : (place v rest (build rest) frames).Whole) :
    Built (place v rest (build rest) frames) (opened frames ++ v.tokens) rest := by
  cases frames with
  | nil =>
    have hnil : rest = [] := by simpa [place] using h.trailing
    exact ⟨by simp [place, opened, hnil], by simp [hnil]⟩
  | cons frame outer =>
    cases frame with
    | array items =>
      have hbuilt := hrest .next (.array (v :: items) :: outer) (List.cons_ne_nil v items) h
      have hfront : before .next (.array (v :: items) :: outer) =
          opened (.array items :: outer) ++ v.tokens := by
        rw [before_next, opened_array, inside_array, inside_array, List.reverse_cons,
          itemTokens_concat]
        cases items <;> simp
      rwa [hfront] at hbuilt
    | object ms k =>
      have hbuilt :=
        hrest .next (.object ((k, v) :: ms) noKey :: outer) (List.cons_ne_nil (k, v) ms) h
      have hfront : before .next (.object ((k, v) :: ms) noKey :: outer) =
          opened (.object ms k :: outer) ++ v.tokens := by
        rw [before_next, opened_object, inside_object, inside_object, List.reverse_cons,
          memberTokens_concat]
        cases ms <;> simp
      rwa [hfront] at hbuilt

theorem built_value {t : Token} {frames : List Frame}
    (h : (value t rest (build rest) frames).Whole) :
    Built (value t rest (build rest) frames) (opened frames) (t :: rest) := by
  cases t with
  | null => exact (built_place hrest h).cons (by rw [tokens]) rfl
  | bool b => exact (built_place hrest h).cons (by rw [tokens]) rfl
  | number n => exact (built_place hrest h).cons (by rw [tokens]) rfl
  | cutNumber => exact absurd h (not_whole_unwind (by simp [skip?]) _ _)
  | string s =>
    obtain ⟨ps, fault⟩ := s
    cases fault with
    | none => exact (built_place hrest h).cons (by rw [tokens]) rfl
    | some f => exact absurd h (not_whole_unwind (by simp [skip?]) _ _)
  | openArray =>
    refine (hrest .firstItem (.array [] :: frames) ⟨frames, rfl⟩ h).cons ?_ rfl
    simp [itemTokens]
  | openObject =>
    refine (hrest .firstKey (.object [] noKey :: frames) ⟨frames, rfl⟩ h).cons ?_ rfl
    simp [memberTokens]
  | fault f => exact absurd h (not_whole_unwind (by simp [skip?]) _ _)
  | closeArray | closeObject | comma | colon =>
    exact absurd h (not_whole_unwind (by simp [skip?]) _ _)

theorem built_key {t : Token} {ms : List (Quoted × Tree)} {k : Quoted} {outer : List Frame}
    (h : (key t (build rest) (.object ms k :: outer)).Whole) :
    Built (key t (build rest) (.object ms k :: outer)) (before .key (.object ms k :: outer))
      (t :: rest) := by
  cases t with
  | string s =>
    obtain ⟨ps, fault⟩ := s
    cases fault with
    | none =>
      refine (hrest .colon (.object ms ⟨ps, none⟩ :: outer) ⟨ms, _, outer, rfl⟩ h).cons ?_ rfl
      simp
    | some f => exact absurd h (not_whole_unwind (by simp [skip?]) _ _)
  | null | bool | number | cutNumber | openArray | closeArray | openObject | closeObject | comma
  | colon | fault => exact absurd h (not_whole_abandon .malformed (.object ms noKey :: outer))

theorem built_closeArray {items : List Tree} {outer : List Frame}
    (h : (close rest (build rest) (.array items :: outer)).Whole) :
    Built (close rest (build rest) (.array items :: outer)) (inside (.array items :: outer))
      (.closeArray :: rest) := by
  refine (built_place hrest h).cons ?_ rfl
  rw [tokens]
  simp [closing]

theorem built_closeObject {ms : List (Quoted × Tree)} {k : Quoted} {outer : List Frame}
    (h : (close rest (build rest) (.object ms k :: outer)).Whole) :
    Built (close rest (build rest) (.object ms k :: outer)) (inside (.object ms k :: outer))
      (.closeObject :: rest) := by
  refine (built_place hrest h).cons ?_ rfl
  rw [tokens]
  simp [closing]

theorem built_firstItem {t : Token} {outer : List Frame}
    (h : (build (t :: rest) .firstItem (.array [] :: outer)).Whole) :
    Built (build (t :: rest) .firstItem (.array [] :: outer))
      (before .firstItem (.array [] :: outer)) (t :: rest) := by
  by_cases ht : t = .closeArray
  · subst ht
    exact built_closeArray hrest h
  · have hbuild : build (t :: rest) .firstItem (.array [] :: outer) =
        value t rest (build rest) (.array [] :: outer) := by
      cases t <;> first | rfl | exact absurd rfl ht
    rw [hbuild] at h ⊢
    have hbuilt := built_value hrest h
    rwa [opened_array, comma_nil, List.append_nil] at hbuilt

theorem built_firstKey {t : Token} {outer : List Frame}
    (h : (build (t :: rest) .firstKey (.object [] noKey :: outer)).Whole) :
    Built (build (t :: rest) .firstKey (.object [] noKey :: outer))
      (before .firstKey (.object [] noKey :: outer)) (t :: rest) := by
  by_cases ht : t = .closeObject
  · subst ht
    exact built_closeObject (k := noKey) hrest h
  · have hbuild : build (t :: rest) .firstKey (.object [] noKey :: outer) =
        key t (build rest) (.object [] noKey :: outer) := by
      cases t <;> first | rfl | exact absurd rfl ht
    rw [hbuild] at h ⊢
    have hbuilt := built_key hrest h
    rwa [before_key, comma_nil, List.append_nil] at hbuilt

theorem built_colon {t : Token} {ms : List (Quoted × Tree)} {k : Quoted} {outer : List Frame}
    (h : (build (t :: rest) .colon (.object ms k :: outer)).Whole) :
    Built (build (t :: rest) .colon (.object ms k :: outer))
      (before .colon (.object ms k :: outer)) (t :: rest) := by
  by_cases ht : t = .colon
  · subst ht
    refine (hrest .value (.object ms k :: outer) trivial h).cons ?_ rfl
    simp [opened_object]
  · have hbuild : build (t :: rest) .colon (.object ms k :: outer) =
        unwind (.fault .malformed) .malformed (.object ms k :: outer) := by
      cases t <;> first | rfl | exact absurd rfl ht
    rw [hbuild] at h
    exact absurd h (not_whole_unwind (by simp [skip?]) _ _)

theorem built_nextItem {token : Token} {v : Tree} {items : List Tree} {outer : List Frame}
    (h : (build (token :: rest) .next (.array (v :: items) :: outer)).Whole) :
    Built (build (token :: rest) .next (.array (v :: items) :: outer))
      (before .next (.array (v :: items) :: outer)) (token :: rest) := by
  cases token with
  | comma =>
    refine (hrest .value (.array (v :: items) :: outer) trivial h).cons ?_ rfl
    simp [opened_array]
  | closeArray => exact built_closeArray hrest h
  | null | bool | number | cutNumber | string | openArray | openObject | closeObject | colon
  | fault => exact absurd h (not_whole_abandon .malformed (.array (v :: items) :: outer))

theorem built_nextMember {token : Token} {m : Quoted × Tree} {ms : List (Quoted × Tree)}
    {k : Quoted} {outer : List Frame}
    (h : (build (token :: rest) .next (.object (m :: ms) k :: outer)).Whole) :
    Built (build (token :: rest) .next (.object (m :: ms) k :: outer))
      (before .next (.object (m :: ms) k :: outer)) (token :: rest) := by
  cases token with
  | comma =>
    refine (hrest .key (.object (m :: ms) k :: outer) trivial h).cons ?_ rfl
    simp
  | closeObject => exact built_closeObject (k := k) hrest h
  | null | bool | number | cutNumber | string | openArray | closeArray | openObject | colon
  | fault => exact absurd h (not_whole_abandon .malformed (.object (m :: ms) k :: outer))

end

-- The induction is on the tokens, in every focus: one token more, and the builder stands at the
-- next one.
theorem builds (ts : List Token) : Builds ts := by
  induction ts with
  | nil =>
    intro focus frames _ h
    cases focus with
    | value | colon => exact absurd h (not_whole_unwind (by simp [skip?]) _ _)
    | firstItem | firstKey | key | next => exact absurd h (not_whole_abandon _ _)
  | cons t rest ih =>
    intro focus frames hfits h
    cases focus with
    | value => exact built_value ih h
    | firstItem =>
      obtain ⟨outer, rfl⟩ := hfits
      exact built_firstItem ih h
    | firstKey =>
      obtain ⟨outer, rfl⟩ := hfits
      exact built_firstKey ih h
    | key =>
      rcases frames with _ | ⟨items | ⟨ms, k⟩, outer⟩
      · exact absurd h (not_whole_abandon .malformed [])
      · exact absurd h (not_whole_abandon .malformed (.array items :: outer))
      · exact built_key ih h
    | colon =>
      obtain ⟨ms, k, outer, rfl⟩ := hfits
      exact built_colon ih h
    | next =>
      rcases frames with _ | ⟨items | ⟨ms, k⟩, outer⟩
      · cases t <;> exact absurd h (not_whole_abandon .malformed [])
      · obtain ⟨v, items, rfl⟩ := List.exists_cons_of_ne_nil hfits
        exact built_nextItem ih h
      · obtain ⟨m, ms, rfl⟩ := List.exists_cons_of_ne_nil hfits
        exact built_nextMember ih h

end Tree

/-- A text that is read without a fault is written from its tree. -/
theorem Document.Whole.writtenAs {bytes : List UInt8} (h : (ofBytes bytes).Whole) :
    (ofBytes bytes).root.WrittenAs bytes := by
  have hbuilt := Tree.builds (tokens bytes) .value [] trivial h
  have htokens : (ofBytes bytes).root.tokens = tokens bytes := hbuilt.tokens
  rw [Tree.WrittenAs, htokens]
  exact laid_tokens hbuilt.sound

end LoraBridge.Json
