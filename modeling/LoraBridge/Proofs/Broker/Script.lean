import Mathlib.Data.List.Induction
import Mathlib.Data.List.TakeWhile
import LoraBridge.Broker.Memory

/-! What the broker in memory answers in any course of its use. Its answers can be read off the
steps that were taken: the latest script of an operation, the calls of the operation since then,
and whether there was a disconnect. -/
namespace LoraBridge.Broker

open Transport (Operation Request)

inductive Step where
  | call (now : Nat) (r : Request)
  | failNext (op : Operation) (count : Nat)
  | clearHistory
deriving DecidableEq

namespace Step

def called? : Step → Option Operation
  | .call _ r => some r.operation
  | .failNext .. | .clearHistory => none

def script? : Step → Option (Operation × Nat)
  | .failNext op count => some (op, count)
  | .call .. | .clearHistory => none

def concerns (op : Operation) (s : Step) : Bool :=
  s.called? == some op || s.script?.map Prod.fst == some op

def scripts (op : Operation) (s : Step) : Bool :=
  s.script?.map Prod.fst == some op

end Step

def scripted (op : Operation) (steps : List Step) : Nat :=
  (((steps.filterMap Step.script?).filter fun s => s.1 == op).getLast?.map Prod.snd).getD 0

def callsSince (op : Operation) (steps : List Step) : Nat :=
  (steps.reverse.takeWhile fun s => !s.scripts op).countP fun s => s.called? == some op

def disconnected (steps : List Step) : Bool :=
  steps.any fun s => s.called? == some .disconnect

def refuses (steps : List Step) (op : Operation) : Bool :=
  callsSince op steps < scripted op steps

/-- What is recorded of a step after others: a call before the disconnect, with its outcome. -/
def recordedAfter (before : List Step) : Step → List Recorded
  | .call now r => if disconnected before then [] else [⟨now, r, !refuses before r.operation⟩]
  | .failNext .. | .clearHistory => []

def recordedOf (before : List Step) : List Step → List Recorded
  | [] => []
  | s :: rest => recordedAfter before s ++ recordedOf (before ++ [s]) rest

namespace Memory

def step (b : Memory) : Step → Memory
  | .call now r => (b.serve now r).2
  | .failNext op count => b.failNext op count
  | .clearHistory => b.clearHistory

def run (b : Memory) (steps : List Step) : Memory :=
  steps.foldl step b

def answer? (b : Memory) : Step → Option (Except Transport.Error Unit)
  | .call now r => some (b.serve now r).1
  | .failNext .. | .clearHistory => none

def answers (b : Memory) : List Step → List (Except Transport.Error Unit)
  | [] => []
  | s :: rest => (b.answer? s).toList ++ answers (b.step s) rest

end Memory

section

variable (steps : List Step) (op : Operation)

theorem scripted_concat (s : Step) : scripted op (steps ++ [s]) =
    match s.script? with
    | some (o, count) => if o = op then count else scripted op steps
    | none => scripted op steps := by
  unfold scripted
  rw [List.filterMap_append]
  cases hs : s.script? with
  | none => simp [hs]
  | some p =>
    by_cases hop : p.1 = op
    · simp [hs, hop]
    · simp [hs, hop]

@[simp] theorem callsSince_concat (s : Step) : callsSince op (steps ++ [s]) =
    if s.scripts op then 0 else callsSince op steps + if s.called? = some op then 1 else 0 := by
  unfold callsSince
  rw [List.reverse_append, List.reverse_singleton, List.singleton_append, List.takeWhile_cons]
  cases s.scripts op with
  | true => rfl
  | false => simp [List.countP_cons]

private theorem disconnected_concat (s : Step) : disconnected (steps ++ [s]) =
    (disconnected steps || s.called? == some .disconnect) := by
  simp [disconnected]

private theorem recordedOf_concat (before : List Step) (s : Step) :
    recordedOf before (steps ++ [s]) =
      recordedOf before steps ++ recordedAfter (before ++ steps) s := by
  induction steps generalizing before with
  | nil => simp [recordedOf]
  | cons t rest ih =>
    rw [List.cons_append, recordedOf, ih, recordedOf, List.append_assoc, List.append_assoc]
    rfl

theorem scripted_eq {steps late : List Step} {op : Operation}
    (hlate : ∀ s ∈ late, s.scripts op = false) :
    scripted op (steps ++ late) = scripted op steps := by
  induction late using List.reverseRecOn with
  | nil => rw [List.append_nil]
  | append_singleton late s ih =>
    have hs : s.scripts op = false := hlate s (List.mem_append_right _ (List.mem_singleton.2 rfl))
    rw [← List.append_assoc, scripted_concat,
      ih fun t ht => hlate t (List.mem_append_left _ ht)]
    unfold Step.scripts at hs
    cases hp : s.script? with
    | none => rfl
    | some p =>
      rw [hp] at hs
      exact if_neg (by simpa using hs)

theorem callsSince_eq {steps late : List Step} {op : Operation}
    (hlate : ∀ s ∈ late, s.scripts op = false) :
    callsSince op (steps ++ late) =
      callsSince op steps + late.countP fun s => s.called? == some op := by
  induction late using List.reverseRecOn with
  | nil => rw [List.append_nil]; rfl
  | append_singleton late s ih =>
    have hs : s.scripts op = false := hlate s (List.mem_append_right _ (List.mem_singleton.2 rfl))
    rw [← List.append_assoc, callsSince_concat,
      ih fun t ht => hlate t (List.mem_append_left _ ht), hs, List.countP_append,
      List.countP_singleton]
    simp [Nat.add_assoc]

/-- Nothing but its own scripts and calls decides about an operation. -/
theorem refuses_filter (steps : List Step) (op : Operation) :
    scripted op (steps.filter (·.concerns op)) = scripted op steps ∧
      callsSince op (steps.filter (·.concerns op)) = callsSince op steps := by
  induction steps using List.reverseRecOn with
  | nil => exact ⟨rfl, rfl⟩
  | append_singleton steps s ih =>
    rw [List.filter_append, scripted_concat, callsSince_concat]
    by_cases hs : s.concerns op
    · rw [List.filter_cons_of_pos hs, List.filter_nil, scripted_concat, callsSince_concat, ih.1,
        ih.2]
      exact ⟨rfl, rfl⟩
    · rw [List.filter_cons_of_neg hs, List.filter_nil, List.append_nil, ih.1, ih.2]
      cases s with
      | clearHistory => exact ⟨rfl, rfl⟩
      | call now r =>
        refine ⟨rfl, ?_⟩
        have hop : r.operation ≠ op := by simpa [Step.concerns, Step.called?, Step.script?] using hs
        simp [Step.scripts, Step.script?, Step.called?, hop]
      | failNext o count =>
        have hop : o ≠ op := by simpa [Step.concerns, Step.called?, Step.script?] using hs
        simp [Step.scripts, Step.script?, Step.called?, hop]

end

namespace Memory

@[simp] theorem run_concat (b : Memory) (steps : List Step) (s : Step) :
    b.run (steps ++ [s]) = (b.run steps).step s := by
  simp [run]

/-- How a broker stands after some steps. -/
structure Scripted (steps : List Step) (b : Memory) : Prop where
  shutDown : b.shutDown = disconnected steps
  refusals : disconnected steps = false →
    ∀ op, b.refusals op = scripted op steps - callsSince op steps

variable {steps : List Step} {b : Memory}

theorem Scripted.refuses_eq (h : Scripted steps b) (hd : disconnected steps = false)
    (op : Operation) : (b.refusals op == 0) = !refuses steps op := by
  rw [h.refusals hd, refuses, Bool.eq_iff_iff, beq_iff_eq, Bool.not_eq_true',
    decide_eq_false_iff_not]
  omega

theorem Scripted.serve_eq (h : Scripted steps b) (now : Nat) (r : Request) :
    (disconnected steps = false → (b.serve now r).1 =
      if refuses steps r.operation then .error (.failed s!"scripted {r.operation.name} failure")
      else .ok ()) ∧
    (b.serve now r).2.history = b.history ++ recordedAfter steps (.call now r) := by
  unfold recordedAfter
  cases hd : disconnected steps with
  | true => simp [serve_of_shutDown (h.shutDown.trans hd)]
  | false =>
    have hopen : b.shutDown = false := h.shutDown.trans hd
    simp only [serve, hopen, h.refuses_eq hd, Bool.false_eq_true, ↓reduceIte, history,
      List.reverse_cons]
    cases refuses steps r.operation <;> simp

theorem Scripted.step (h : Scripted steps b) (s : Step) : Scripted (steps ++ [s]) (b.step s) := by
  refine ⟨?_, fun hd op => ?_⟩
  · rw [disconnected_concat, ← h.shutDown]
    cases s with
    | failNext | clearHistory => exact (Bool.or_false _).symm
    | call now r =>
      cases hshut : b.shutDown with
      | true => simp [Memory.step, serve, hshut]
      | false => simp [Memory.step, serve, hshut, Step.called?]
  · rw [disconnected_concat, Bool.or_eq_false_iff] at hd
    have hop := h.refusals hd.1
    rw [scripted_concat, callsSince_concat]
    cases s with
    | clearHistory => exact hop op
    | failNext o count =>
      by_cases ho : op = o
      · simp [Memory.step, failNext, Step.scripts, Step.script?, ho]
      · simp [Memory.step, failNext, Step.scripts, Step.script?, Step.called?, ho, Ne.symm ho, hop]
    | call now r =>
      have hopen : b.shutDown = false := h.shutDown.trans hd.1
      by_cases ho : op = r.operation
      · simp only [Memory.step, serve, hopen, hop, Step.scripts, Step.script?, Step.called?, ho]
        simp
        omega
      · simp [Memory.step, serve, hopen, hop, Step.scripts, Step.script?, Step.called?, ho,
          Ne.symm ho]

theorem scripted_run (steps : List Step) : Scripted steps (new.run steps) := by
  induction steps using List.reverseRecOn with
  | nil => exact ⟨rfl, fun _ _ => rfl⟩
  | append_singleton steps s ih =>
    rw [run_concat]
    exact ih.step s

theorem step_recorded (b : Memory) (recorded : List Recorded) (s : Step) :
    { b with recorded }.answer? s = b.answer? s ∧
      ∃ recorded', { b with recorded }.step s = { b.step s with recorded := recorded' } := by
  cases s with
  | failNext | clearHistory => exact ⟨rfl, _, rfl⟩
  | call now r =>
    obtain ⟨old, refusals, shutDown⟩ := b
    cases shutDown with
    | true => exact ⟨rfl, recorded, rfl⟩
    | false => exact ⟨rfl, _, rfl⟩

private theorem answers_recorded (b : Memory) (recorded : List Recorded) (steps : List Step) :
    { b with recorded }.answers steps = b.answers steps := by
  induction steps generalizing b recorded with
  | nil => rfl
  | cons s rest ih =>
    obtain ⟨hanswer, recorded', hstep⟩ := b.step_recorded recorded s
    simp only [answers, hanswer, hstep, ih]

theorem history_run {early late : List Step}
    (hearly : early = [] ∨ early.getLast? = some .clearHistory) (hlate : .clearHistory ∉ late) :
    (new.run (early ++ late)).history = recordedOf early late := by
  induction late using List.reverseRecOn with
  | nil =>
    rw [List.append_nil]
    rcases hearly with rfl | hlast
    · rfl
    · obtain ⟨steps, rfl⟩ := List.getLast?_eq_some_iff.1 hlast
      rw [run_concat]
      rfl
  | append_singleton late s ih =>
    rw [List.mem_append, not_or] at hlate
    rw [← List.append_assoc, run_concat, recordedOf_concat, ← ih hlate.1]
    cases s with
    | clearHistory => exact absurd (List.mem_singleton.2 rfl) hlate.2
    | failNext op count => exact (List.append_nil _).symm
    | call now r => exact ((scripted_run (early ++ late)).serve_eq now r).2

/-- What holds after some steps. -/
structure FollowsScript (steps : List Step) : Prop where
  /-- A call is refused while fewer calls of its operation than its latest script is for were made
  since. -/
  scripted : disconnected steps = false → ∀ early op count late,
    steps = early ++ .failNext op count :: late → (∀ s ∈ late, s.scripts op = false) →
    ∀ now r, r.operation = op → ((new.run steps).serve now r).1 =
      if late.countP (fun s => s.called? == some op) < count then
        .error (.failed s!"scripted {op.name} failure")
      else .ok ()
  unscripted : disconnected steps = false → ∀ now r,
    (∀ s ∈ steps, s.scripts r.operation = false) → ((new.run steps).serve now r).1 = .ok ()
  independent : ∀ others r, disconnected others = disconnected steps →
    others.filter (·.concerns r.operation) = steps.filter (·.concerns r.operation) →
    ∀ now, ((new.run others).serve now r).1 = ((new.run steps).serve now r).1
  history : ∀ early late, steps = early ++ late →
    (early = [] ∨ early.getLast? = some .clearHistory) → .clearHistory ∉ late →
    (new.run steps).history = recordedOf early late
  cleared : ∀ later, (new.run (steps ++ [.clearHistory])).answers later =
    (new.run steps).answers later
  /-- After a disconnect, whatever its outcome was, calls change nothing. -/
  gone : disconnected steps = true → ∀ now r,
    (new.run steps).serve now r = (.error .shutdown, new.run steps)

theorem followsScript (steps : List Step) : FollowsScript steps := by
  have hrun := scripted_run steps
  refine ⟨?_, ?_, ?_, ?_, ?_, ?_⟩
  · rintro hd early op count late rfl hlate now r rfl
    rw [(hrun.serve_eq now r).1 hd]
    have hsplit : early ++ Step.failNext r.operation count :: late =
        (early ++ [.failNext r.operation count]) ++ late := by simp
    have hcount :
        Broker.scripted r.operation (early ++ .failNext r.operation count :: late) = count := by
      rw [hsplit, scripted_eq hlate, scripted_concat]
      exact if_pos rfl
    have hcalls : callsSince r.operation (early ++ .failNext r.operation count :: late) =
        late.countP fun s => s.called? == some r.operation := by
      rw [hsplit, callsSince_eq hlate, callsSince_concat]
      simp [Step.scripts, Step.script?]
    simp [refuses, hcount, hcalls]
  · intro hd now r hnone
    rw [(hrun.serve_eq now r).1 hd]
    have hcount : Broker.scripted r.operation ([] ++ steps) = 0 := scripted_eq hnone
    rw [List.nil_append] at hcount
    simp [refuses, hcount]
  · intro others r hd hsame now
    have hothers := scripted_run others
    cases hdown : disconnected steps with
    | true =>
      rw [serve_of_shutDown (hothers.shutDown.trans (hd.trans hdown)),
        serve_of_shutDown (hrun.shutDown.trans hdown)]
    | false =>
      have hrefuses : refuses others r.operation = refuses steps r.operation := by
        unfold refuses
        rw [← (refuses_filter others _).1, ← (refuses_filter others _).2, hsame,
          (refuses_filter steps _).1, (refuses_filter steps _).2]
      rw [(hothers.serve_eq now r).1 (hd.trans hdown), (hrun.serve_eq now r).1 hdown, hrefuses]
  · rintro early late rfl hearly hlate
    exact history_run hearly hlate
  · intro later
    rw [run_concat]
    exact answers_recorded _ _ _
  · intro hd now r
    exact serve_of_shutDown (hrun.shutDown.trans hd) now r

end Memory

end LoraBridge.Broker
