import Mathlib.Logic.Function.Basic
import LoraBridge.Backend.Basic

/-! What happened when between a backend and its broker. A call takes two steps: the broker
processes its request, and the registry follows. A replay takes two steps as well: a
snapshot of the registry is taken, and the broker processes the batch that was made of it.
The ledger notes the times of all of them. -/
namespace LoraBridge.Backend

namespace Operation

def change? : Operation → Option (Eui × Bool)
  | .subscribe g => some (g, true)
  | .unsubscribe g => some (g, false)
  | .publish .. => none

def clashes (a b : Operation) : Bool :=
  match a.change?, b.change? with
  | some (g, _), some (g', _) => g == g'
  | _, _ => false

theorem clashes_iff {a b : Operation} :
    a.clashes b = true ↔ ∃ g s s', a.change? = some (g, s) ∧ b.change? = some (g, s') := by
  unfold clashes
  constructor
  · intro h
    split at h
    · next g s g' s' ha hb =>
      rw [eq_of_beq h] at ha
      exact ⟨g', s, s', ha, hb⟩
    · cases h
  · rintro ⟨g, s, s', ha, hb⟩
    rw [ha, hb]
    exact beq_self_eq_true g

theorem clashes_comm (a b : Operation) : a.clashes b = b.clashes a := by
  rw [Bool.eq_iff_iff, clashes_iff, clashes_iff]
  constructor
  · rintro ⟨g, s, s', ha, hb⟩
    exact ⟨g, s', s, hb, ha⟩
  · rintro ⟨g, s, s', hb, ha⟩
    exact ⟨g, s', s, ha, hb⟩

end Operation

structure Processed where
  subscribes : Bool
  time : Nat

structure Finished extends Processed where
  updated : Nat

/-- The topics of the gateways that were registered at a time. -/
structure Batch where
  gateways : List Eui
  topics : List String
  taken : Nat

structure Landed extends Batch where
  time : Nat

structure Ledger where
  clock : Nat
  since : Nat
  /-- The call for a gateway that the broker processed and the registry is to follow. -/
  underway : Eui → Option Processed
  /-- The latest call for a gateway that the registry followed. -/
  finished : Eui → Option Finished
  snapshot : List Eui
  looked : Nat
  current : Option Batch
  /-- Batches that nobody waits for any more; the broker may still process them. -/
  orphans : List Batch
  landed : List Landed

namespace Ledger

def start : Ledger :=
  ⟨1, 0, fun _ => none, fun _ => none, [], 0, none, [], []⟩

def process (l : Ledger) (g : Eui) (subscribes : Bool) : Ledger :=
  { l with
    clock := l.clock + 1
    underway := Function.update l.underway g (some ⟨subscribes, l.clock⟩) }

def finish (l : Ledger) (g : Eui) (c : Processed) : Ledger :=
  { l with
    clock := l.clock + 1
    underway := Function.update l.underway g none
    finished := Function.update l.finished g (some ⟨c, l.clock⟩) }

/-- An operation succeeds; none when the broker has not processed it. -/
def finish? (l : Ledger) (op : Operation) : Option Ledger :=
  match op.change? with
  | none => some l
  | some (g, subscribes) => (l.underway g).map fun c => l.finish g { c with subscribes }

def drop (l : Ledger) (g : Eui) : Ledger :=
  { l with underway := Function.update l.underway g none }

/-- An operation fails; one that the broker processed does so only with the connection. -/
def fail? (l : Ledger) (op : Operation) : Option Ledger :=
  match op.change? with
  | none => some l
  | some (g, _) =>
    match l.underway g with
    | none => some l
    | some c =>
      if c.time < l.since then some (l.drop g) else none

def connect (l : Ledger) : Ledger :=
  { l with clock := l.clock + 1, since := l.clock }

def giveUp (l : Ledger) : Ledger :=
  { l with current := none, orphans := l.current.toList ++ l.orphans }

def look (l : Ledger) (gateways : List Eui) : Ledger :=
  { l.giveUp with clock := l.clock + 1, snapshot := gateways, looked := l.clock }

def ask (l : Ledger) (gateways : List Eui) (topics : List String) : Ledger :=
  { l.look gateways with current := some ⟨gateways, topics, l.clock⟩ }

def land (l : Ledger) (b : Batch) : Ledger :=
  { l with clock := l.clock + 1, landed := ⟨b, l.clock⟩ :: l.landed }

def accept (l : Ledger) (b : Batch) : Ledger :=
  { l.land b with current := none }

/-- The broker processes a batch that nobody waits for. -/
def adopt (l : Ledger) (b : Batch) (j : Nat) : Ledger :=
  { l.land b with orphans := l.orphans.eraseIdx j }

def discard (l : Ledger) (j : Nat) : Ledger :=
  { l with orphans := l.orphans.eraseIdx j }

def batches (l : Ledger) : List Batch :=
  l.current.toList ++ l.orphans ++ l.landed.map Landed.toBatch

def latest (l : Ledger) (g : Eui) : Option Processed :=
  match l.underway g with
  | some c => some c
  | none => (l.finished g).map Finished.toProcessed

/-- Whether the topic of a gateway was subscribed on the connection and has not been
unsubscribed since. -/
def Added (l : Ledger) (g : Eui) : Prop :=
  (∃ c, l.latest g = some c ∧ c.subscribes = true ∧ l.since < c.time) ∨
  ∃ b ∈ l.landed, g ∈ b.gateways ∧ l.since < b.time ∧
    ∀ c, l.latest g = some c → c.subscribes = false → c.time < b.time

/-- Whether the latest call for a gateway unsubscribed it while the registry was replayed:
the snapshot was taken before the registry followed the call, and the broker processed the
batch after the call. -/
def Undone (l : Ledger) (g : Eui) : Prop :=
  ∃ c, l.finished g = some c ∧ c.subscribes = false ∧
    ∃ b ∈ l.landed, g ∈ b.gateways ∧ l.since < b.time ∧ c.time < b.time ∧ b.taken < c.updated

/-- Whether the latest call for a gateway subscribed it on an earlier connection, and the
registry followed after it was looked at for this one. -/
def Missed (l : Ledger) (g : Eui) : Prop :=
  ∃ c, l.finished g = some c ∧ c.subscribes = true ∧ c.time ≤ l.since ∧ l.since < l.looked ∧
    l.looked < c.updated ∧ ∀ b ∈ l.landed, l.since < b.time → g ∉ b.gateways

structure Sound (l : Ledger) (registered : List Eui) : Prop where
  since : l.since < l.clock
  looked : l.looked < l.clock
  underway : ∀ g c, l.underway g = some c → c.time < l.clock
  apart : ∀ g c c', l.underway g = some c → l.finished g = some c' → c'.updated < c.time
  finished : ∀ g c, l.finished g = some c → c.time < c.updated ∧ c.updated < l.clock
  registered : ∀ g, g ∈ registered ↔ ∃ c, l.finished g = some c ∧ c.subscribes = true
  landed : ∀ b ∈ l.landed, b.time < l.clock
  taken : ∀ b ∈ l.batches, b.taken < l.clock
  known : ∀ b ∈ l.batches, ∀ g ∈ b.gateways,
    ∃ c, l.finished g = some c ∧ (c.subscribes = false → b.taken < c.updated)
  late : ∀ g c, l.finished g = some c → c.subscribes = true → g ∉ l.snapshot →
    l.looked < c.updated

theorem sound_start : start.Sound [] where
  since := by decide
  looked := by decide
  underway _ _ h := nomatch h
  apart _ _ _ h := nomatch h
  finished _ _ h := nomatch h
  registered g := ⟨fun h => absurd h List.not_mem_nil, fun ⟨_, h, _⟩ => nomatch h⟩
  landed _ h := absurd h List.not_mem_nil
  taken _ h := absurd h List.not_mem_nil
  known _ h := absurd h List.not_mem_nil
  late _ _ h := nomatch h

variable {l l' : Ledger} {registered registered' : List Eui} {g : Eui} {op : Operation}

theorem Sound.frame (h : l.Sound registered) (hclock : l.clock ≤ l'.clock)
    (hsince : l'.since < l'.clock) (hunderway : l'.underway = l.underway)
    (hfinished : l'.finished = l.finished) (hsnapshot : l'.snapshot = l.snapshot)
    (hlooked : l'.looked = l.looked) (hlanded : ∀ b ∈ l'.landed, b.time < l'.clock)
    (hbatches : ∀ b ∈ l'.batches, b ∈ l.batches) : l'.Sound registered where
  since := hsince
  looked := by
    have := h.looked
    omega
  underway g c hc := by
    rw [hunderway] at hc
    have := h.underway g c hc
    omega
  apart g c c' hc hc' := by
    rw [hunderway] at hc
    rw [hfinished] at hc'
    exact h.apart g c c' hc hc'
  finished g c hc := by
    rw [hfinished] at hc
    have := h.finished g c hc
    omega
  registered g := by
    rw [hfinished]
    exact h.registered g
  landed := hlanded
  taken b hb := by
    have := h.taken b (hbatches b hb)
    omega
  known b hb g hg := by
    rw [hfinished]
    exact h.known b (hbatches b hb) g hg
  late g c hc hs hg := by
    rw [hfinished] at hc
    rw [hsnapshot] at hg
    rw [hlooked]
    exact h.late g c hc hs hg

theorem sound_connect (h : l.Sound registered) : l.connect.Sound registered :=
  h.frame (Nat.le_succ _) (Nat.lt_succ_self _) rfl rfl rfl rfl
    (fun b hb => Nat.lt_succ_of_lt (h.landed b hb)) fun _ hb => hb

@[simp] theorem mem_batches_giveUp {b : Batch} : b ∈ l.giveUp.batches ↔ b ∈ l.batches := by
  simp only [giveUp, batches, Option.toList_none, List.nil_append]

theorem mem_batches_discard {j : Nat} {b : Batch} (h : b ∈ (l.discard j).batches) :
    b ∈ l.batches := by
  simp only [discard, batches, List.mem_append] at h ⊢
  rcases h with (h | h) | h
  · exact .inl (.inl h)
  · exact .inl (.inr (List.mem_of_mem_eraseIdx h))
  · exact .inr h

theorem mem_batches_ask {gateways : List Eui} {topics : List String} {b : Batch}
    (h : b ∈ (l.ask gateways topics).batches) :
    b = ⟨gateways, topics, l.clock⟩ ∨ b ∈ l.batches :=
  (List.mem_cons.1 h).imp_right mem_batches_giveUp.1

theorem mem_batches_land {b x : Batch} (hb : b ∈ l.batches) (h : x ∈ (l.land b).batches) :
    x ∈ l.batches := by
  simp only [land, batches, List.map_cons, List.mem_append, List.mem_cons] at h
  rcases h with (h | h) | rfl | h
  · exact List.mem_append_left _ (List.mem_append_left _ h)
  · exact List.mem_append_left _ (List.mem_append_right _ h)
  · exact hb
  · exact List.mem_append_right _ h

theorem mem_batches_of_current {b : Batch} (h : l.current = some b) : b ∈ l.batches := by
  simp only [batches, h, Option.toList_some, List.cons_append, List.mem_cons, true_or]

theorem mem_batches_of_orphan {j : Nat} {b : Batch} (h : l.orphans[j]? = some b) :
    b ∈ l.batches :=
  List.mem_append_left _ (List.mem_append_right _ (List.mem_of_getElem? h))

theorem mem_batches_accept {b x : Batch} (hb : l.current = some b)
    (h : x ∈ (l.accept b).batches) : x ∈ l.batches := by
  refine mem_batches_land (mem_batches_of_current hb) ?_
  simp only [accept, batches, List.mem_append, Option.toList_none, List.not_mem_nil, false_or] at h
  exact List.mem_append.2 (h.imp_left (List.mem_append_right _))

theorem mem_batches_adopt {j : Nat} {b x : Batch} (hb : l.orphans[j]? = some b)
    (h : x ∈ (l.adopt b j).batches) : x ∈ l.batches :=
  mem_batches_land (mem_batches_of_orphan hb) (mem_batches_discard (l := l.land b) h)

theorem sound_giveUp (h : l.Sound registered) : l.giveUp.Sound registered :=
  h.frame (Nat.le_refl _) h.since rfl rfl rfl rfl h.landed fun _ => mem_batches_giveUp.1

theorem sound_discard (h : l.Sound registered) (j : Nat) : (l.discard j).Sound registered :=
  h.frame (Nat.le_refl _) h.since rfl rfl rfl rfl h.landed fun _ => mem_batches_discard

theorem landed_lt (h : l.Sound registered) (b : Batch) :
    ∀ x ∈ (l.land b).landed, x.time < (l.land b).clock := by
  intro x hx
  rcases List.mem_cons.1 hx with rfl | hx
  · exact Nat.lt_succ_self _
  · exact Nat.lt_succ_of_lt (h.landed x hx)

theorem sound_accept (h : l.Sound registered) {b : Batch} (hb : l.current = some b) :
    (l.accept b).Sound registered :=
  h.frame (Nat.le_succ _) (Nat.lt_succ_of_lt h.since) rfl rfl rfl rfl (landed_lt h b)
    fun _ => mem_batches_accept hb

theorem sound_adopt (h : l.Sound registered) {b : Batch} {j : Nat} (hb : l.orphans[j]? = some b) :
    (l.adopt b j).Sound registered :=
  h.frame (Nat.le_succ _) (Nat.lt_succ_of_lt h.since) rfl rfl rfl rfl (landed_lt h b)
    fun _ => mem_batches_adopt hb

theorem sound_look (h : l.Sound registered) : (l.look registered).Sound registered where
  since := Nat.lt_succ_of_lt h.since
  looked := Nat.lt_succ_self _
  underway g c hc := Nat.lt_succ_of_lt (h.underway g c hc)
  apart := h.apart
  finished g c hc := ⟨(h.finished g c hc).1, Nat.lt_succ_of_lt (h.finished g c hc).2⟩
  registered := h.registered
  landed b hb := Nat.lt_succ_of_lt (h.landed b hb)
  taken b hb := Nat.lt_succ_of_lt (h.taken b (mem_batches_giveUp.1 hb))
  known b hb := h.known b (mem_batches_giveUp.1 hb)
  late g c hc hs hg := absurd ((h.registered g).2 ⟨c, hc, hs⟩) hg

theorem sound_ask (h : l.Sound registered) (topics : List String) :
    (l.ask registered topics).Sound registered := by
  have hl := sound_look h
  refine ⟨hl.since, hl.looked, hl.underway, hl.apart, hl.finished, hl.registered, hl.landed,
    fun b hb => ?_, fun b hb g hg => ?_, hl.late⟩
  · rcases mem_batches_ask hb with rfl | hb
    · exact Nat.lt_succ_self _
    · exact Nat.lt_succ_of_lt (h.taken b hb)
  · rcases mem_batches_ask hb with rfl | hb
    · obtain ⟨c, hc, hs⟩ := (h.registered g).1 hg
      exact ⟨c, hc, fun hf => absurd (hs.symm.trans hf) nofun⟩
    · exact h.known b hb g hg

theorem sound_process (h : l.Sound registered) (g : Eui) (s : Bool) :
    (l.process g s).Sound registered where
  since := Nat.lt_succ_of_lt h.since
  looked := Nat.lt_succ_of_lt h.looked
  underway x c hc := by
    by_cases hx : x = g
    · simp only [process, hx, Function.update_self, Option.some.injEq] at hc
      subst hc
      exact Nat.lt_succ_self _
    · simp only [process, Function.update_of_ne hx] at hc
      exact Nat.lt_succ_of_lt (h.underway x c hc)
  apart x c c' hc hc' := by
    by_cases hx : x = g
    · simp only [process, hx, Function.update_self, Option.some.injEq] at hc
      subst hc
      exact (h.finished x c' hc').2
    · simp only [process, Function.update_of_ne hx] at hc
      exact h.apart x c c' hc hc'
  finished g c hc := ⟨(h.finished g c hc).1, Nat.lt_succ_of_lt (h.finished g c hc).2⟩
  registered := h.registered
  landed b hb := Nat.lt_succ_of_lt (h.landed b hb)
  taken b hb := Nat.lt_succ_of_lt (h.taken b hb)
  known := h.known
  late := h.late

theorem underway_of_update {x : Eui} {c : Processed}
    (h : Function.update l.underway g none x = some c) : x ≠ g ∧ l.underway x = some c := by
  by_cases hx : x = g
  · rw [hx, Function.update_self] at h
    cases h
  · rw [Function.update_of_ne hx] at h
    exact ⟨hx, h⟩

theorem sound_drop (h : l.Sound registered) (g : Eui) : (l.drop g).Sound registered where
  since := h.since
  looked := h.looked
  underway x c hc := h.underway x c (underway_of_update hc).2
  apart x c c' hc := h.apart x c c' (underway_of_update hc).2
  finished := h.finished
  registered := h.registered
  landed := h.landed
  taken := h.taken
  known := h.known
  late := h.late

private theorem finished_of_finish {c : Processed} {x : Eui} {d : Finished}
    (h : (l.finish g c).finished x = some d) :
    x = g ∧ d = ⟨c, l.clock⟩ ∨ x ≠ g ∧ l.finished x = some d := by
  by_cases hx : x = g
  · simp only [finish, hx, Function.update_self, Option.some.injEq] at h
    exact .inl ⟨hx, h.symm⟩
  · simp only [finish, Function.update_of_ne hx] at h
    exact .inr ⟨hx, h⟩

theorem sound_finish (h : l.Sound registered) {c : Processed} (hc : l.underway g = some c)
    {s : Bool} (hr : ∀ x, x ∈ registered' ↔ if x = g then s = true else x ∈ registered) :
    (l.finish g { c with subscribes := s }).Sound registered' where
  since := Nat.lt_succ_of_lt h.since
  looked := Nat.lt_succ_of_lt h.looked
  underway x d hd := Nat.lt_succ_of_lt (h.underway x d (underway_of_update hd).2)
  apart x d d' hd hd' := by
    obtain ⟨hne, hd⟩ := underway_of_update hd
    rcases finished_of_finish hd' with ⟨hx, -⟩ | ⟨-, hd'⟩
    · exact absurd hx hne
    · exact h.apart x d d' hd hd'
  finished x d hd := by
    rcases finished_of_finish hd with ⟨-, rfl⟩ | ⟨-, hd⟩
    · exact ⟨h.underway g c hc, Nat.lt_succ_self _⟩
    · exact ⟨(h.finished x d hd).1, Nat.lt_succ_of_lt (h.finished x d hd).2⟩
  registered x := by
    rw [hr x]
    by_cases hx : x = g
    · rw [if_pos hx, hx]
      simp only [finish, Function.update_self, Option.some.injEq, exists_eq_left']
    · rw [if_neg hx, h.registered x]
      simp only [finish, Function.update_of_ne hx]
  landed b hb := Nat.lt_succ_of_lt (h.landed b hb)
  taken b hb := Nat.lt_succ_of_lt (h.taken b hb)
  known b hb x hx := by
    by_cases hg : x = g
    · rw [hg]
      simp only [finish, Function.update_self, Option.some.injEq, exists_eq_left']
      exact fun _ => h.taken b hb
    · simp only [finish, Function.update_of_ne hg]
      exact h.known b hb x hx
  late x d hd hs hx := by
    rcases finished_of_finish hd with ⟨-, rfl⟩ | ⟨-, hd⟩
    · exact h.looked
    · exact h.late x d hd hs hx

theorem added_process (h : l.Sound registered) (g x : Eui) (s : Bool) :
    (l.process g s).Added x ↔ if x = g then s = true else l.Added x := by
  by_cases hx : x = g
  · rw [if_pos hx, hx]
    have hlatest : (l.process g s).latest g = some ⟨s, l.clock⟩ := by
      simp only [latest, process, Function.update_self]
    simp only [Added, hlatest, Option.some.injEq, forall_eq', exists_eq_left']
    constructor
    · rintro (⟨hs, -⟩ | ⟨b, hb, -, -, hlt⟩)
      · exact hs
      · by_contra hs
        have := hlt (Bool.not_eq_true _ ▸ hs)
        have := h.landed b hb
        omega
    · exact fun hs => .inl ⟨hs, h.since⟩
  · rw [if_neg hx]
    have hlatest : (l.process g s).latest x = l.latest x := by
      simp only [latest, process, Function.update_of_ne hx]
    simp only [Added, hlatest]
    exact Iff.rfl

theorem added_finish {c : Processed} (hc : l.underway g = some c) (x : Eui) :
    (l.finish g c).Added x ↔ l.Added x := by
  have hlatest : (l.finish g c).latest x = l.latest x := by
    by_cases hx : x = g
    · simp only [latest, finish, hx, Function.update_self, hc, Option.map_some]
    · simp only [latest, finish, Function.update_of_ne hx]
  simp only [Added, hlatest]
  exact Iff.rfl

private theorem added_of_latest_le (h : ∀ c, l.latest g = some c → c.time ≤ l.since) :
    l.Added g ↔ ∃ b ∈ l.landed, g ∈ b.gateways ∧ l.since < b.time := by
  constructor
  · rintro (⟨c, hc, -, hlt⟩ | ⟨b, hb, hg, hlt, -⟩)
    · exact absurd (h c hc) (Nat.not_le.2 hlt)
    · exact ⟨b, hb, hg, hlt⟩
  · rintro ⟨b, hb, hg, hlt⟩
    exact .inr ⟨b, hb, hg, hlt, fun c hc _ => Nat.lt_of_le_of_lt (h c hc) hlt⟩

theorem added_drop (h : l.Sound registered) {c : Processed} (hc : l.underway g = some c)
    (hlt : c.time < l.since) (x : Eui) : (l.drop g).Added x ↔ l.Added x := by
  by_cases hx : x = g
  · rw [hx, added_of_latest_le (l := l.drop g), added_of_latest_le (l := l)]
    · exact Iff.rfl
    · intro d hd
      simp only [latest, hc, Option.some.injEq] at hd
      rw [← hd]
      exact Nat.le_of_lt hlt
    · intro d hd
      simp only [latest, drop, Function.update_self, Option.map_eq_some_iff] at hd
      obtain ⟨d, hd, rfl⟩ := hd
      -- The call before was over before this one was processed.
      have hbefore := h.apart g c d hc hd
      have htime := (h.finished g d hd).1
      simp only [drop]
      omega
  · have hlatest : (l.drop g).latest x = l.latest x := by
      simp only [latest, drop, Function.update_of_ne hx]
    simp only [Added, hlatest]
    exact Iff.rfl

theorem latest_lt (h : l.Sound registered) {c : Processed} (hc : l.latest g = some c) :
    c.time < l.clock := by
  unfold latest at hc
  split at hc
  · next d hd =>
    cases hc
    exact h.underway g _ hd
  · obtain ⟨d, hd, rfl⟩ := Option.map_eq_some_iff.1 hc
    exact Nat.lt_trans (h.finished g d hd).1 (h.finished g d hd).2

theorem not_added_connect (h : l.Sound registered) (x : Eui) : ¬ l.connect.Added x := by
  rintro (⟨c, hc, -, hlt⟩ | ⟨b, hb, -, hlt, -⟩)
  · exact absurd hlt (Nat.lt_asymm (latest_lt h hc))
  · exact absurd hlt (Nat.lt_asymm (h.landed b hb))

theorem added_land (h : l.Sound registered) (b : Batch) (x : Eui) :
    (l.land b).Added x ↔ x ∈ b.gateways ∨ l.Added x := by
  constructor
  · rintro (hc | ⟨d, hd, hx, hlt, hu⟩)
    · exact .inr (.inl hc)
    · rcases List.mem_cons.1 hd with rfl | hd
      · exact .inl hx
      · exact .inr (.inr ⟨d, hd, hx, hlt, hu⟩)
  · rintro (hx | hc | ⟨d, hd, hx, hlt, hu⟩)
    · exact .inr ⟨_, List.mem_cons_self, hx, h.since, fun c hc _ => latest_lt h hc⟩
    · exact .inl hc
    · exact .inr ⟨d, List.mem_cons_of_mem _ hd, hx, hlt, hu⟩

theorem latest_of_finished {c : Finished} (hn : l.underway g = none)
    (hc : l.finished g = some c) : l.latest g = some c.toProcessed := by
  simp only [latest, hn, hc, Option.map_some]

theorem added_unregistered_iff (h : l.Sound registered) (hn : l.underway g = none) :
    l.Added g ∧ g ∉ registered ↔ l.Undone g := by
  constructor
  · rintro ⟨hadded, hg⟩
    rw [h.registered g] at hg
    rcases hadded with ⟨c, hc, hs, -⟩ | ⟨b, hb, hx, hlt, hu⟩
    · simp only [latest, hn, Option.map_eq_some_iff] at hc
      obtain ⟨d, hd, rfl⟩ := hc
      exact absurd ⟨d, hd, hs⟩ hg
    · obtain ⟨c, hc, htaken⟩ := h.known b.toBatch
        (List.mem_append_right _ (List.mem_map_of_mem hb)) g hx
      have hs : c.subscribes = false := Bool.not_eq_true _ ▸ fun hs => hg ⟨c, hc, hs⟩
      exact ⟨c, hc, hs, b, hb, hx, hlt, hu _ (latest_of_finished hn hc) hs, htaken hs⟩
  · rintro ⟨c, hc, hs, b, hb, hx, hlt, htime, -⟩
    have hlatest := latest_of_finished hn hc
    refine ⟨.inr ⟨b, hb, hx, hlt, fun d hd _ => ?_⟩, fun hg => ?_⟩
    · rw [hlatest, Option.some.injEq] at hd
      rw [← hd]
      exact htime
    · obtain ⟨d, hd, hsd⟩ := (h.registered g).1 hg
      rw [hc, Option.some.injEq] at hd
      rw [← hd, hs] at hsd
      cases hsd

/-- The replay looked at the registry on this connection, and the broker processed a batch of
every gateway that was registered. -/
def Replayed (l : Ledger) : Prop :=
  l.since < l.looked ∧ ∀ g ∈ l.snapshot, ∃ b ∈ l.landed, g ∈ b.gateways ∧ l.since < b.time

theorem registered_not_added_iff (h : l.Sound registered) (hr : l.Replayed)
    (hn : l.underway g = none) : g ∈ registered ∧ ¬ l.Added g ↔ l.Missed g := by
  constructor
  · rintro ⟨hg, hadded⟩
    obtain ⟨c, hc, hs⟩ := (h.registered g).1 hg
    have hlatest := latest_of_finished hn hc
    have hle : c.time ≤ l.since := by
      by_contra hlt
      exact hadded (.inl ⟨_, hlatest, hs, Nat.not_le.1 hlt⟩)
    have hnone : ∀ b ∈ l.landed, l.since < b.time → g ∉ b.gateways := by
      intro b hb hlt hx
      refine hadded (.inr ⟨b, hb, hx, hlt, fun d hd hf => ?_⟩)
      rw [hlatest, Option.some.injEq] at hd
      rw [← hd, hs] at hf
      cases hf
    have hsnap : g ∉ l.snapshot := by
      intro hx
      obtain ⟨b, hb, hxb, hlt⟩ := hr.2 g hx
      exact hnone b hb hlt hxb
    exact ⟨c, hc, hs, hle, hr.1, h.late g c hc hs hsnap, hnone⟩
  · rintro ⟨c, hc, hs, hle, -, -, hnone⟩
    refine ⟨(h.registered g).2 ⟨c, hc, hs⟩, ?_⟩
    have hlatest := latest_of_finished hn hc
    rintro (⟨d, hd, -, hlt⟩ | ⟨b, hb, hx, hlt, -⟩)
    · rw [hlatest, Option.some.injEq] at hd
      rw [← hd] at hlt
      exact absurd hlt (Nat.not_lt.2 hle)
    · exact hnone b hb hlt hx

end Ledger

end LoraBridge.Backend
