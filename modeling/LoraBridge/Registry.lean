import LoraBridge.Eui

/-! The gateways that are to receive downlinks. The registry records intent: it
changes with acknowledged requests only, never with the connection. -/
namespace LoraBridge

/-- A set of gateways, listed in ascending order. -/
structure Registry where
  gateways : List Eui
  sorted : gateways.Pairwise (· < ·) := by exact .nil

namespace Registry

def empty : Registry := ⟨[], .nil⟩

def insertSorted (e : Eui) : List Eui → List Eui
  | [] => [e]
  | x :: xs => if e < x then e :: x :: xs else if e = x then x :: xs else x :: insertSorted e xs

@[simp] theorem mem_insertSorted {e x : Eui} {xs : List Eui} :
    x ∈ insertSorted e xs ↔ x = e ∨ x ∈ xs := by
  induction xs with
  | nil => simp [insertSorted]
  | cons y ys ih =>
    unfold insertSorted
    split
    · simp
    · split
      · simp_all
      · simp [ih]
        constructor <;> (intro h; rcases h with h | h | h <;> simp [h])

theorem sorted_insertSorted {e : Eui} {xs : List Eui} (h : xs.Pairwise (· < ·)) :
    (insertSorted e xs).Pairwise (· < ·) := by
  induction xs with
  | nil => simp [insertSorted]
  | cons y ys ih =>
    have hy := List.pairwise_cons.1 h
    unfold insertSorted
    split
    · rename_i hlt
      refine List.pairwise_cons.2 ⟨fun z hz => ?_, h⟩
      rcases List.mem_cons.1 hz with rfl | hz
      · exact hlt
      · exact Eui.lt_trans hlt (hy.1 z hz)
    · split
      · exact h
      · rename_i h1 h2
        refine List.pairwise_cons.2 ⟨fun z hz => ?_, ih hy.2⟩
        rcases mem_insertSorted.1 hz with rfl | hz
        · rcases Eui.lt_or_eq_or_gt z y with h' | h' | h'
          · exact absurd h' h1
          · exact absurd h' h2
          · exact h'
        · exact hy.1 z hz

def contains (r : Registry) (e : Eui) : Bool :=
  r.gateways.contains e

def add (r : Registry) (e : Eui) : Registry :=
  ⟨insertSorted e r.gateways, sorted_insertSorted r.sorted⟩

def remove (r : Registry) (e : Eui) : Registry :=
  ⟨r.gateways.filter (· != e), r.sorted.sublist List.filter_sublist⟩

def size (r : Registry) : Nat := r.gateways.length

def isEmpty (r : Registry) : Bool := r.gateways.isEmpty

def ofList (es : List Eui) : Registry :=
  es.foldl add empty

/-- One use of a registry that tasks share; nothing comes in between while it is made. -/
inductive Access where
  | add (gateway : Eui)
  | remove (gateway : Eui)
  | contains (gateway : Eui)
  | snapshot
  | size
  | isEmpty
deriving DecidableEq

inductive Answer where
  | flag (b : Bool)
  | count (n : Nat)
  | listing (es : List Eui)
deriving DecidableEq

/-- Make an access. It is told whether a gateway that is added was new, and whether one that is
removed was there. -/
def perform (r : Registry) : Access → Answer × Registry
  | .add gateway => (.flag (!r.contains gateway), r.add gateway)
  | .remove gateway => (.flag (r.contains gateway), r.remove gateway)
  | .contains gateway => (.flag (r.contains gateway), r)
  | .snapshot => (.listing r.gateways, r)
  | .size => (.count r.size, r)
  | .isEmpty => (.flag r.isEmpty, r)

@[simp] theorem contains_iff {r : Registry} {e : Eui} : r.contains e = true ↔ e ∈ r.gateways :=
  List.contains_iff_mem

@[simp]
theorem mem_add {r : Registry} {e x : Eui} : x ∈ (r.add e).gateways ↔ x = e ∨ x ∈ r.gateways :=
  mem_insertSorted

@[simp] theorem mem_remove {r : Registry} {e x : Eui} :
    x ∈ (r.remove e).gateways ↔ x ∈ r.gateways ∧ x ≠ e := by
  simp [remove]

end Registry

end LoraBridge
