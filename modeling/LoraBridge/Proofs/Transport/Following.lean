import Mathlib.Data.List.TakeWhile
import LoraBridge.Proofs.Runs
import LoraBridge.Proofs.Transport.Pending

/-! What the user of a transport is told in a whole course of its connection. Callers take their
steps between those of the event loop in any order, and what they do has no part in it: the
events and the delays between attempts to connect depend on the steps of the connection only. -/
namespace LoraBridge.Transport

def Action.event? : Action → Option Event
  | .forward e => some e
  | .resolve .. | .sleep _ | .stop => none

namespace Polled

def ends : Polled → Bool
  | .notice (.sent .disconnect) => true
  | .notice _ | .failed _ => false

def connects : Polled → Bool
  | .notice (.received (.connAck _)) => true
  | .notice _ | .failed _ => false

def fails : Polled → Bool
  | .failed _ => true
  | .notice _ => false

def event? : Polled → Option Event
  | .notice (.received (.connAck sessionPresent)) => some (.connected sessionPresent)
  | .notice (.received (.publish topic payload)) => some (.message topic payload)
  | .notice _ => none
  | .failed reason => some (.connectionLost reason)

def failures (ps : List Polled) : Nat :=
  (ps.reverse.takeWhile fun p => !p.connects).countP fails

/-- What comes before the event loop ends. -/
def followed (ps : List Polled) : List Polled :=
  ps.takeWhile fun p => !p.ends

/-- Something that concerns the waiters only, or nobody. -/
structure Silent (p : Polled) : Prop where
  event : p.event? = none
  ends : p.ends = false
  connects : p.connects = false
  fails : p.fails = false

@[simp] theorem failures_concat (ps : List Polled) (p : Polled) :
    failures (ps ++ [p]) =
      if p.connects then 0 else failures ps + if p.fails then 1 else 0 := by
  unfold failures
  rw [List.reverse_append, List.reverse_singleton, List.singleton_append, List.takeWhile_cons]
  cases p.connects with
  | true => rfl
  | false =>
    simp only [Bool.not_false, ↓reduceIte, Bool.false_eq_true]
    exact List.countP_cons

theorem followed_append {ps : List Polled} (qs : List Polled) (h : ∀ q ∈ ps, q.ends = false) :
    followed (ps ++ qs) = ps ++ followed qs :=
  List.takeWhile_append_of_pos fun q hq => by rw [h q hq]; rfl

@[simp] theorem filterMap_followed_singleton (p : Polled) :
    (followed [p]).filterMap event? = p.event?.toList := by
  unfold followed
  rw [List.takeWhile_cons]
  cases hends : p.ends with
  | false => cases h : p.event? <;> simp [h]
  | true =>
    have hevent : p.event? = none := by
      unfold ends at hends
      split at hends
      · rfl
      · cases hends
      · cases hends
    rw [hevent]
    rfl

theorem followed_concat_of_ends {ps : List Polled} (p : Polled) (h : ∃ q ∈ ps, q.ends = true) :
    followed (ps ++ [p]) = followed ps := by
  obtain ⟨q, hq, hends⟩ := h
  unfold followed
  rw [List.takeWhile_append, if_neg]
  intro hlen
  have hall := (List.takeWhile_prefix (fun p : Polled => !p.ends) (l := ps)).eq_of_length hlen
  rw [← hall] at hq
  have hnot := List.mem_takeWhile_imp hq
  rw [hends] at hnot
  cases hnot

end Polled

namespace EventLoop

/-- What the event loop does in a step: what each kind of step is good for. -/
inductive Handled (l : EventLoop) : Polled → EventLoop × List Action → Prop
  | waiters {p : Polled} (change : Acks → Acks × List (Waiter × Answer)) (h : p.Silent)
      (hcount : ∀ a v, (change a).1.waiters.count v + ((change a).2.map Prod.fst).count v ≤
        a.waiters.count v) : Handled l p (l.withAcks change)
  | quiet {p : Polled} (h : p.Silent) : Handled l p (l, [])
  | connected (sessionPresent : Bool) :
      Handled l (.notice (.received (.connAck sessionPresent)))
        ({ l with failures := 0 }, [.forward (.connected sessionPresent)])
  | message (topic : String) (payload : List UInt8) :
      Handled l (.notice (.received (.publish topic payload)))
        (l, [.forward (.message topic payload)])
  | ended : Handled l (.notice (.sent .disconnect)) (l, [.stop])
  | failed (reason : String) : Handled l (.failed reason) (l.recover reason)

theorem handled_handle (l : EventLoop) (p : Polled) : Handled l p (l.handle p) := by
  have hsent : ∀ k id a v, (Acks.sent a k id).1.waiters.count v +
      ((Acks.sent a k id).2.map Prod.fst).count v ≤ a.waiters.count v :=
    fun k id a v => Nat.le_of_eq (a.count_waiters_sent k id v)
  have hacknowledge : ∀ id answer a v, (Acks.acknowledge a id answer).1.waiters.count v +
      ((Acks.acknowledge a id answer).2.map Prod.fst).count v ≤ a.waiters.count v := by
    intro id answer a v
    rw [← List.count_append]
    exact Nat.le_of_eq ((a.waiters_acknowledge id answer).count_eq v)
  match p with
  | .failed reason => exact .failed reason
  | .notice (.received x) =>
    cases x with
    | connAck sessionPresent => exact .connected sessionPresent
    | publish topic payload => exact .message topic payload
    | subAck id grants => exact .waiters _ ⟨rfl, rfl, rfl, rfl⟩ (hacknowledge id _)
    | unsubAck id => exact .waiters _ ⟨rfl, rfl, rfl, rfl⟩ (hacknowledge id _)
    | pubAck | pubRec | pubRel | pubComp | pingReq | pingResp | disconnect | «foreign» =>
      exact .quiet ⟨rfl, rfl, rfl, rfl⟩
  | .notice (.sent x) =>
    cases x with
    | disconnect => exact .ended
    | subscribe id => exact .waiters _ ⟨rfl, rfl, rfl, rfl⟩ (hsent .subscribe id)
    | unsubscribe id => exact .waiters _ ⟨rfl, rfl, rfl, rfl⟩ (hsent .unsubscribe id)
    | publish | pubAck | pubRec | pubRel | pubComp | pingReq | pingResp | awaitAck =>
      exact .quiet ⟨rfl, rfl, rfl, rfl⟩

section

variable {l : EventLoop} {p : Polled} {out : EventLoop × List Action}

private theorem event?_resolutions (answers : List (Waiter × Answer)) :
    (resolutions answers).filterMap Action.event? = [] := by
  refine List.filterMap_eq_nil_iff.2 fun x hx => ?_
  obtain ⟨q, -, rfl⟩ := List.mem_map.1 hx
  rfl

namespace Handled

theorem events (h : Handled l p out) : out.2.filterMap Action.event? = p.event?.toList := by
  cases h with
  | waiters change h => rw [h.event]; exact event?_resolutions _
  | quiet h => rw [h.event]; rfl
  | connected | message | ended => rfl
  | failed reason =>
    show (resolutions _ ++ _).filterMap Action.event? = _
    rw [List.filterMap_append, event?_resolutions]
    rfl

theorem stop_mem (h : Handled l p out) : .stop ∈ out.2 ↔ p.ends = true := by
  cases h with
  | waiters change h =>
    rw [h.ends]
    exact iff_of_false (Network.stop_notMem_resolutions _) Bool.false_ne_true
  | quiet h =>
    rw [h.ends]
    exact iff_of_false List.not_mem_nil Bool.false_ne_true
  | connected | message | ended => simp [Polled.ends]
  | failed reason =>
    refine iff_of_false (fun hmem => ?_) Bool.false_ne_true
    rcases List.mem_append.1 hmem with hmem | hmem
    · exact Network.stop_notMem_resolutions _ hmem
    · simp at hmem

private theorem failures (h : Handled l p out) : out.1.failures =
    if p.connects then 0 else l.failures + if p.fails then 1 else 0 := by
  cases h with
  | waiters change h => rw [h.connects, h.fails]; exact (UInt32.add_zero _).symm
  | quiet h => rw [h.connects, h.fails]; exact (UInt32.add_zero _).symm
  | connected => rfl
  | message | ended => exact (UInt32.add_zero _).symm
  | failed reason => rfl

private theorem backoff (h : Handled l p out) : out.1.backoff = l.backoff := by
  cases h <;> rfl

theorem count_pending (h : Handled l p out) (v : Waiter) :
    out.1.client.pending.count v ≤ l.client.pending.count v := by
  cases h with
  | waiters change h hcount => exact l.client.count_pending_hand v (hcount l.client.acks v)
  | quiet | connected | message | ended => exact Nat.le_refl _
  | failed reason =>
    refine l.client.count_pending_hand v ?_
    rw [← List.count_append]
    exact Nat.le_of_eq (l.client.acks.waiters_failAll.count_eq v)

end Handled

end

private theorem run_cons (l : EventLoop) (p : Polled) (ps : List Polled) : l.run (p :: ps) =
    if .stop ∈ (l.handle p).2 then l.handle p
    else (((l.handle p).1.run ps).1, (l.handle p).2 ++ ((l.handle p).1.run ps).2) := by
  rw [run]
  simp only [List.contains_iff_mem]

end EventLoop

structure Backoff.IsDelay (b : Backoff) (attempt : Nat) (millis : UInt64) : Prop where
  entry : attempt ≤ b.pattern.length → b.pattern[attempt - 1]? = some millis
  sustained : b.pattern.length < attempt → millis = b.sustained

theorem Backoff.isDelay_delay (b : Backoff) {attempt : Nat} (h : 0 < attempt) :
    b.IsDelay attempt (b.delay attempt) where
  entry hle := by
    have hlt : attempt - 1 < b.pattern.length := by omega
    rw [delay, List.getElem?_eq_getElem hlt, Option.getD_some]
  sustained hlt := by
    have hle : b.pattern.length ≤ attempt - 1 := by omega
    rw [delay, List.getElem?_eq_none hle, Option.getD_none]

/-- A transport in use: what its event loop has done so far, among the steps of callers. -/
structure Following where
  loop : EventLoop
  calls : List Waiter
  actions : List Action

inductive Move where
  | call (w : Waiter) (r : Request)
  | turn
  | place
  | take
  | drop (w : Waiter)
  | poll (p : Polled)
deriving DecidableEq

def Move.polled? : Move → Option Polled
  | .poll p => some p
  | .call .. | .turn | .place | .take | .drop _ => none

def polls (moves : List Move) : List Polled :=
  moves.filterMap Move.polled?

namespace Following

def start (backoff : Backoff) : Following := ⟨.start backoff, [], []⟩

def client (f : Following) : Client := f.loop.client

def setClient (f : Following) (client : Client) : Following :=
  { f with loop := { f.loop with client } }

def poll (f : Following) (p : Polled) : Following :=
  if .stop ∈ f.actions then f
  else { f with loop := (f.loop.handle p).1, actions := f.actions ++ (f.loop.handle p).2 }

def step (f : Following) : Move → Option Following
  | .call w r =>
    if w ∈ f.calls then none
    else some ({ f with calls := f.calls ++ [w] }.setClient (f.client.begin w r).1)
  | .turn => some (f.setClient f.client.giveTurn)
  | .place => some (f.setClient f.client.place.1)
  | .take => f.client.take?.map fun p => f.setClient p.2
  | .drop w => some (f.setClient (f.client.abandon w))
  | .poll p => some (f.poll p)

def run (f : Following) (ms : List Move) : Option Following :=
  ms.foldlM step f

@[simp] theorem run_poll (f : Following) (p : Polled) (ms : List Move) :
    f.run (.poll p :: ms) = (f.poll p).run ms :=
  rfl

private theorem run_polls_of_stop {f : Following} (h : .stop ∈ f.actions) (ps : List Polled) :
    f.run (ps.map .poll) = some f := by
  induction ps with
  | nil => rfl
  | cons p ps ih =>
    have hpoll : f.poll p = f := if_pos h
    rw [List.map_cons, run_poll, hpoll]
    exact ih

/-- Without steps of callers it is the event loop that runs. -/
theorem run_polls {f : Following} (h : .stop ∉ f.actions) (ps : List Polled) :
    f.run (ps.map .poll) = some { f with
      loop := (f.loop.run ps).1
      actions := f.actions ++ (f.loop.run ps).2 } := by
  induction ps generalizing f with
  | nil =>
    rw [EventLoop.run, List.append_nil]
    rfl
  | cons p ps ih =>
    have hpoll : f.poll p = { f with
        loop := (f.loop.handle p).1
        actions := f.actions ++ (f.loop.handle p).2 } := if_neg h
    rw [List.map_cons, run_poll, hpoll, EventLoop.run_cons]
    by_cases hstop : .stop ∈ (f.loop.handle p).2
    · rw [run_polls_of_stop (List.mem_append_right _ hstop), if_pos hstop]
    · rw [ih fun hmem => (List.mem_append.1 hmem).elim h hstop, if_neg hstop, List.append_assoc]

structure Follows (backoff : Backoff) (ps : List Polled) (f : Following) : Prop where
  backoff : f.loop.backoff = backoff
  events : f.actions.filterMap Action.event? = (Polled.followed ps).filterMap Polled.event?
  stopped : .stop ∈ f.actions ↔ ∃ p ∈ ps, p.ends = true
  failures : .stop ∉ f.actions → f.loop.failures = .ofNat (Polled.failures ps)
  nodup : f.calls.Nodup
  known : ∀ v, f.client.pending.count v ≤ f.calls.count v

variable {backoff : Backoff} {ps : List Polled} {f f' : Following} {w : Waiter} {r : Request}

private theorem follows_start (backoff : Backoff) : Follows backoff [] (start backoff) where
  backoff := rfl
  events := rfl
  stopped := by simp [start]
  failures _ := rfl
  nodup := List.nodup_nil
  known _ := Nat.le_refl _

theorem Follows.one (h : Follows backoff ps f) (v : Waiter) : f.client.pending.count v ≤ 1 :=
  Nat.le_trans (h.known v) (List.nodup_iff_count_le_one.1 h.nodup v)

theorem Follows.setClient {client : Client} (h : Follows backoff ps f)
    (hc : ∀ v, client.pending.count v ≤ f.client.pending.count v) :
    Follows backoff ps (f.setClient client) where
  backoff := h.backoff
  events := h.events
  stopped := h.stopped
  failures := h.failures
  nodup := h.nodup
  known v := Nat.le_trans (hc v) (h.known v)

theorem Follows.call (h : Follows backoff ps f) (hw : w ∉ f.calls) :
    Follows backoff ps ({ f with calls := f.calls ++ [w] }.setClient (f.client.begin w r).1) where
  backoff := h.backoff
  events := h.events
  stopped := h.stopped
  failures := h.failures
  nodup := by
    show (f.calls ++ [w]).Nodup
    rw [List.nodup_append_comm]
    exact List.nodup_cons.2 ⟨hw, h.nodup⟩
  known v := by
    have hb := f.client.count_pending_begin v w r
    have hk := h.known v
    show (f.client.begin w r).1.pending.count v ≤ (f.calls ++ [w]).count v
    rw [List.count_append]
    omega

theorem Follows.poll (h : Follows backoff ps f) (p : Polled) :
    Follows backoff (ps ++ [p]) (f.poll p) := by
  unfold Following.poll
  split
  · next hstop =>
    have hends := h.stopped.1 hstop
    refine { h with events := ?_, stopped := ?_, failures := fun hn => absurd hstop hn }
    · rw [Polled.followed_concat_of_ends p hends]
      exact h.events
    · refine iff_of_true hstop ?_
      obtain ⟨q, hq, hend⟩ := hends
      exact ⟨q, List.mem_append_left _ hq, hend⟩
  · next hstop =>
    have hgoes : ∀ q ∈ ps, q.ends = false := fun q hq =>
      Bool.not_eq_true _ ▸ fun hend => hstop (h.stopped.2 ⟨q, hq, hend⟩)
    have hhandled := f.loop.handled_handle p
    refine ⟨hhandled.backoff.trans h.backoff, ?_, ?_, fun _ => ?_, h.nodup, fun v => ?_⟩
    · have hall := Polled.followed_append [] hgoes
      rw [List.append_nil] at hall
      show (f.actions ++ (f.loop.handle p).2).filterMap Action.event? = _
      rw [List.filterMap_append, h.events, hhandled.events, hall, Polled.followed_append [p] hgoes,
        List.filterMap_append, List.filterMap_append, Polled.filterMap_followed_singleton]
      exact congrArg (· ++ _) (List.append_nil _)
    · show .stop ∈ f.actions ++ (f.loop.handle p).2 ↔ _
      rw [List.mem_append, or_iff_right hstop, hhandled.stop_mem]
      constructor
      · intro hend
        exact ⟨p, List.mem_append_right _ (List.mem_singleton.2 rfl), hend⟩
      · rintro ⟨q, hq, hend⟩
        rcases List.mem_append.1 hq with hq | hq
        · rw [hgoes q hq] at hend
          cases hend
        · rw [← List.mem_singleton.1 hq]
          exact hend
    · show (f.loop.handle p).1.failures = _
      rw [hhandled.failures, h.failures hstop, Polled.failures_concat]
      cases p.connects with
      | true => rfl
      | false =>
        cases p.fails with
        | true => exact (UInt32.ofNat_add _ 1).symm
        | false => exact UInt32.add_zero _
    · exact Nat.le_trans (hhandled.count_pending v) (h.known v)

theorem Follows.idle {m : Move} (h : Follows backoff ps f) (hs : f.step m = some f')
    (hm : m.polled? = none) : Follows backoff ps f' := by
  cases m with
  | poll p => cases hm
  | call w r =>
    simp only [Following.step] at hs
    split at hs
    · cases hs
    · next hw =>
      cases hs
      exact h.call hw
  | turn =>
    cases hs
    exact h.setClient f.client.count_pending_giveTurn
  | place =>
    cases hs
    exact h.setClient f.client.count_pending_place
  | take =>
    obtain ⟨p, hp, rfl⟩ := Option.map_eq_some_iff.1 hs
    refine h.setClient fun v => ?_
    unfold Client.take? at hp
    split at hp
    · cases hp
    · cases hp
      exact Nat.le_refl _
  | drop w =>
    cases hs
    exact h.setClient fun v => f.client.count_pending_abandon v w

theorem Follows.step {m : Move} (h : Follows backoff ps f) (hs : f.step m = some f') :
    Follows backoff (ps ++ m.polled?.toList) f' := by
  cases hm : m.polled? with
  | none =>
    rw [Option.toList_none, List.append_nil]
    exact h.idle hs hm
  | some p =>
    cases m with
    | poll q =>
      cases hm
      cases hs
      exact h.poll p
    | call | turn | place | take | drop => cases hm

theorem follows_run {moves : List Move} (h : Follows backoff ps f) (hrun : f.run moves = some f') :
    Follows backoff (ps ++ polls moves) f' := by
  induction moves generalizing f ps with
  | nil =>
    cases hrun
    rw [polls, List.filterMap_nil, List.append_nil]
    exact h
  | cons m ms ih =>
    obtain ⟨g, hg, hrest⟩ := Option.bind_eq_some_iff.1 hrun
    have htail := ih (h.step hg) hrest
    have hpolls : ps ++ polls (m :: ms) = ps ++ m.polled?.toList ++ polls ms := by
      rw [polls, List.filterMap_cons, List.append_assoc]
      cases m.polled? <;> rfl
    rw [hpolls]
    exact htail

/-- An error answers every waiter, then the user is told, and then there is a delay by the number
of errors since the last connection. -/
theorem Follows.poll_failed (h : Follows backoff ps f) (hgoes : ∀ p ∈ ps, p.ends = false)
    (reason : String) : ∃ answers delay,
      (f.poll (.failed reason)).actions = f.actions ++ EventLoop.resolutions answers ++
        [.forward (.connectionLost reason), .sleep delay] ∧
      (∀ k w, f.client.acks.Awaits k w → (w, Acks.lost k) ∈ answers ∨
        (f.poll (.failed reason)).client.held = some (w, Acks.lost k)) ∧
      (Polled.failures (ps ++ [.failed reason]) < UInt32.size →
        backoff.IsDelay (Polled.failures (ps ++ [.failed reason])) delay) := by
  have hstop : .stop ∉ f.actions := by
    intro hstop
    obtain ⟨p, hp, hend⟩ := h.stopped.1 hstop
    rw [hgoes p hp] at hend
    cases hend
  have hfailures : Polled.failures (ps ++ [.failed reason]) = Polled.failures ps + 1 :=
    Polled.failures_concat ps _
  rw [Following.poll, if_neg hstop]
  refine ⟨f.client.failWaiters.2, f.loop.backoff.delay (f.loop.failures + 1).toNat, ?_, ?_, ?_⟩
  · exact (List.append_assoc ..).symm
  · exact fun k w => Client.answered_failWaiters h.one
  · intro hlt
    have hcount : (f.loop.failures + 1).toNat = Polled.failures ps + 1 := by
      rw [h.failures hstop]
      exact (congrArg UInt32.toNat (UInt32.ofNat_add _ 1).symm).trans
        (UInt32.toNat_ofNat_of_lt' (hfailures ▸ hlt))
    rw [hcount, h.backoff, hfailures]
    exact backoff.isDelay_delay (Nat.succ_pos _)

/-- What the user is told of a whole course of the connection, and what becomes of every waiter
when there is an error. -/
theorem follows_connection {moves : List Move} (h : (start backoff).run moves = some f) :
    f.actions.filterMap Action.event? = (Polled.followed (polls moves)).filterMap Polled.event? ∧
      ∀ before reason after, moves = before ++ .poll (.failed reason) :: after →
        (∀ p ∈ polls before, p.ends = false) →
        ∃ f₀ f₁ answers delay, (start backoff).run before = some f₀ ∧
          f₀.step (.poll (.failed reason)) = some f₁ ∧ f₁.run after = some f ∧
          f₁.actions = f₀.actions ++ EventLoop.resolutions answers ++
            [.forward (.connectionLost reason), .sleep delay] ∧
          (∀ k w, f₀.client.acks.Awaits k w →
            (w, Acks.lost k) ∈ answers ∨ f₁.client.held = some (w, Acks.lost k)) ∧
          (Polled.failures (polls before ++ [.failed reason]) < UInt32.size →
            backoff.IsDelay (Polled.failures (polls before ++ [.failed reason])) delay) := by
  refine ⟨(follows_run (follows_start backoff) h).events, ?_⟩
  rintro before reason after rfl hgoes
  obtain ⟨f₀, hbefore, hrest⟩ := Runs.append_eq_some.1 h
  have hfollows : Follows backoff (polls before) f₀ := follows_run (follows_start backoff) hbefore
  obtain ⟨answers, delay, hactions, hanswers, hdelay⟩ := hfollows.poll_failed hgoes reason
  exact ⟨f₀, f₀.poll (.failed reason), answers, delay, hbefore, rfl, hrest, hactions, hanswers,
    hdelay⟩

/-- The connection cannot be made while a call is in its turn; then there is a connection, and
another call waits for its acknowledgement. -/
def reconnecting : List Move :=
  [.call 0 (.subscribe "a" .atMostOnce), .turn, .poll (.failed "refused"), .place, .take,
    .poll (.notice (.received (.connAck false))), .poll (.notice (.sent (.subscribe 1))),
    .call 1 (.unsubscribe "b"), .turn, .place, .take, .poll (.notice (.sent (.unsubscribe 2)))]

/-- The connection is lost while the call waits. -/
theorem follows_connection_reconnecting : ∃ (f f₀ f₁ : Following)
    (answers : List (Waiter × Answer)) (delay : UInt64),
    (start .default).run (reconnecting ++ .poll (.failed "gone") ::
      [.poll (.notice (.sent .disconnect)), .poll (.failed "late")]) = some f ∧
    f.actions.filterMap Action.event? =
      [.connectionLost "refused", .connected false, .connectionLost "gone"] ∧
    (start .default).run reconnecting = some f₀ ∧
    f₁.actions = f₀.actions ++ EventLoop.resolutions answers ++
      [.forward (.connectionLost "gone"), .sleep delay] ∧
    ((1, Acks.lost .unsubscribe) ∈ answers ∨
      f₁.client.held = some (1, Acks.lost .unsubscribe)) ∧
    Backoff.default.IsDelay 1 delay := by
  obtain ⟨f, hrun⟩ : ∃ f, (start .default).run (reconnecting ++ .poll (.failed "gone") ::
      [.poll (.notice (.sent .disconnect)), .poll (.failed "late")]) = some f := ⟨_, rfl⟩
  obtain ⟨hevents, herrors⟩ := follows_connection hrun
  obtain ⟨f₀, f₁, answers, delay, hbefore, -, -, hactions, hanswers, hdelay⟩ :=
    herrors reconnecting "gone" _ rfl (by decide)
  have hawaits : f₀.client.acks.Awaits .unsubscribe 1 := by
    have hflights : ((start .default).run reconnecting).map (·.client.acks.inFlight) =
      some [⟨2, .unsubscribe, 1⟩] := rfl
    rw [hbefore, Option.map_some, Option.some.injEq] at hflights
    exact .inr ⟨⟨2, .unsubscribe, 1⟩, hflights ▸ List.mem_singleton.2 rfl, rfl, rfl⟩
  exact ⟨f, f₀, f₁, answers, delay, hrun, hevents.trans rfl, hbefore, hactions,
    hanswers _ _ hawaits, hdelay (by decide)⟩

end Following

end LoraBridge.Transport
