import Mathlib.Data.List.Lattice
import Mathlib.Data.List.Pairwise
import LoraBridge.Proofs.Backend.World
import LoraBridge.Proofs.Topic.Injective

/-! Whether the broker has subscribed what is registered. Once no call and no replay is under
way they agree, but for the gateways whose latest call overlapped a replay: an unsubscription
is undone by a batch whose snapshot is older, and a subscription of an earlier connection is
missed by a snapshot that is taken before the registry follows it. -/
namespace LoraBridge.Backend.World

def Handled (w : World) : Prop :=
  (∀ e ∈ w.events, e.isConnected = false) ∧ w.sys.backend.dispatcher ≠ .replaying

/-- The backend is connected, and neither a call nor a replay is under way. -/
structure Quiet (w : World) : Prop where
  link : w.link = true
  state : w.sys.backend.state = .connected
  pending : w.sys.pending = []
  replay : w.sys.backend.replay = .none
  handled : w.Handled

/-- Calls for one gateway do not overlap, and what the broker processed still waits. -/
structure Calls (w : World) : Prop where
  apart : w.sys.pending.Pairwise fun a b => a.clashes b = false
  underway : ∀ g c, w.ledger.underway g = some c →
    ∃ op ∈ w.sys.pending, op.change? = some (g, c.subscribes)

structure Covered (w : World) : Prop where
  current : ∀ b, w.ledger.current = some b →
    b.gateways = w.ledger.snapshot ∧ ∃ n topics, w.sys.backend.replay = .asking n topics
  looked : w.link = true → w.Handled → w.ledger.since < w.ledger.looked
  replayed : w.link = true → w.Handled → w.sys.backend.replay = .none →
    ∀ g ∈ w.ledger.snapshot, ∃ b ∈ w.ledger.landed, g ∈ b.gateways ∧ w.ledger.since < b.time

structure Told (topics : Topic.Topics) (w : World) : Prop where
  batches : ∀ b ∈ w.ledger.batches, ∀ t,
    t ∈ b.topics ↔ ∃ g ∈ b.gateways, topics.render .downlink g = .ok t
  added : ∀ g t, topics.render .downlink g = .ok t → (t ∈ w.subs ↔ w.ledger.Added g)
  rendered : ∀ t ∈ w.subs, ∃ g, topics.render .downlink g = .ok t

variable {topics : Topic.Topics} {w w' : World}

private theorem mem_eraseIdx_of_ne {ops : List Operation} {i : Nat} {a b : Operation}
    (ha : ops[i]? = some a) (hb : b ∈ ops) (hne : b ≠ a) : b ∈ ops.eraseIdx i := by
  obtain ⟨j, hj⟩ := List.mem_iff_getElem?.1 hb
  refine List.mem_eraseIdx_iff_getElem?.2 ⟨j, fun hij => hne ?_, hj⟩
  rw [hij, ha, Option.some.injEq] at hj
  exact hj.symm

theorem Calls.erase {i : Nat} {op : Operation} {ledger : Ledger} {sys : System} (h : w.Calls)
    (hop : w.sys.pending[i]? = some op) (hp : sys.pending = w.sys.pending.eraseIdx i)
    (hold : ∀ x c, ledger.underway x = some c → w.ledger.underway x = some c)
    (hover : ∀ x s, op.change? = some (x, s) → ledger.underway x = none) :
    Calls { w with sys, ledger } where
  apart := by
    rw [hp]
    exact h.apart.sublist (List.eraseIdx_sublist _ _)
  underway x c hc := by
    obtain ⟨o, ho, hchange⟩ := h.underway x c (hold x c hc)
    refine ⟨o, ?_, hchange⟩
    rw [hp]
    refine mem_eraseIdx_of_ne hop ho fun heq => ?_
    rw [heq] at hchange
    rw [hover x _ hchange] at hc
    cases hc

theorem Calls.subscribes_eq {op : Operation} {g : Eui} {s : Bool} {c : Processed} (h : w.Calls)
    (hop : op ∈ w.sys.pending) (hc : op.change? = some (g, s))
    (hu : w.ledger.underway g = some c) : c.subscribes = s := by
  obtain ⟨o, ho, hchange⟩ := h.underway g c hu
  by_cases heq : o = op
  · rw [heq, hc, Option.some.injEq, Prod.mk.injEq] at hchange
    exact hchange.2.symm
  · have : Std.Symm fun a b : Operation => a.clashes b = false :=
      ⟨fun a b hab => (b.clashes_comm a).trans hab⟩
    have hapart := h.apart.forall ho hop heq
    rw [Operation.clashes_iff.2 ⟨g, _, _, hchange, hc⟩] at hapart
    cases hapart

theorem calls_move (h : w.Calls) (hm : Moves w w') : w'.Calls := by
  cases hm with
  | rejected | up | down | message | took | lost | connected | nothing | asked | accepted
  | refused | adopted | discarded | received | awakened | passed => exact ⟨h.apart, h.underway⟩
  | @called op hop =>
    refine ⟨List.pairwise_append.2 ⟨h.apart, List.pairwise_singleton _ _, ?_⟩, fun g c hc => ?_⟩
    · intro a ha b hb
      rw [List.mem_singleton.1 hb, Operation.clashes_comm]
      exact hop a ha
    · obtain ⟨o, ho, hchange⟩ := h.underway g c hc
      exact ⟨o, List.mem_append_left _ ho, hchange⟩
  | @processed op g s topic hop hc =>
    refine ⟨h.apart, fun x c hx => ?_⟩
    by_cases heq : x = g
    · simp only [Ledger.process, heq, Function.update_self, Option.some.injEq] at hx
      rw [heq, ← hx]
      exact ⟨op, hop, hc⟩
    · simp only [Ledger.process, Function.update_of_ne heq] at hx
      exact h.underway x c hx
  | ended hop hn => exact h.erase hop rfl (fun _ _ hc => hc) hn
  | finished hop hc hu | dropped hop hc hu =>
    refine h.erase hop rfl (fun x d hd => (Ledger.underway_of_update hd).2) fun x s hs => ?_
    cases hc.symm.trans hs
    exact Function.update_self _ _ _

theorem ledger_move (h : w.ledger.Sound w.sys.backend.registry.gateways)
    (hm : Moves w w') : w'.ledger.Sound w'.sys.backend.registry.gateways := by
  cases hm with
  | rejected | called | ended | message | took | lost | received | awakened | passed => exact h
  | processed => exact Ledger.sound_process h _ _
  | finished _ _ hu hreg => exact Ledger.sound_finish h hu hreg
  | dropped => exact Ledger.sound_drop h _
  | up | down => exact Ledger.sound_connect h
  | connected | nothing => exact Ledger.sound_look h
  | asked => exact Ledger.sound_ask h _
  | accepted _ hb => exact Ledger.sound_accept h hb
  | refused => exact Ledger.sound_giveUp h
  | adopted hb => exact Ledger.sound_adopt h hb
  | discarded => exact Ledger.sound_discard h _

theorem Covered.of_handled (h : w.Covered) (hledger : w'.ledger = w.ledger)
    (hlink : w'.link = w.link) (hreplay : w'.sys.backend.replay = w.sys.backend.replay)
    (hh : w'.Handled → w.Handled) : w'.Covered where
  current := by
    rw [hledger, hreplay]
    exact h.current
  looked hl hw := by
    rw [hledger]
    exact h.looked (hlink ▸ hl) (hh hw)
  replayed hl hw hnone := by
    rw [hledger]
    exact h.replayed (hlink ▸ hl) (hh hw) (hreplay ▸ hnone)

theorem covered_move (hr : w.Running topics) (hl : w.ledger.Sound w.sys.backend.registry.gateways)
    (h : w.Covered) (hm : Moves w w') : w'.Covered := by
  have hstop : w.sys.backend.stopping = false :=
    Bool.not_eq_true _ ▸ fun hs => hr.opened (hr.sound.stopping hs)
  cases hm with
  | rejected | called | processed | ended | finished | dropped | discarded | passed =>
    exact ⟨h.current, h.looked, h.replayed⟩
  | up =>
    have hnot : ¬ ∀ e ∈ w.events ++ [.connected false], e.isConnected = false :=
      fun hall => absurd (hall _ (List.mem_append_right _ List.mem_cons_self)) nofun
    exact ⟨h.current, fun _ hh => absurd hh.1 hnot, fun _ hh => absurd hh.1 hnot⟩
  | down => exact ⟨h.current, nofun, nofun⟩
  | message =>
    refine h.of_handled rfl rfl rfl fun hh => ⟨fun e he => ?_, hh.2⟩
    exact hh.1 e (List.mem_append_left _ he)
  | @took e events state lastError dispatcher downlinks taken he hd hconn =>
    -- A connection that is taken up is not handled before the replay is started.
    refine h.of_handled rfl rfl rfl fun hh => ⟨fun x hx => ?_, by rw [hd]; nofun⟩
    rw [he] at hx
    rcases List.mem_cons.1 hx with rfl | hx
    · exact Bool.not_eq_true _ ▸ fun hc => hh.2 (hconn hc hr.opened)
    · exact hh.1 x hx
  | lost hd => exact h.of_handled rfl rfl rfl fun hh => ⟨hh.1, by rw [hd]; nofun⟩
  | connected hd =>
    refine ⟨nofun, fun _ _ => hl.since, fun _ _ hnone g hg => ?_⟩
    cases hempty : w.sys.backend.registry.isEmpty with
    | true =>
      rw [List.isEmpty_iff.1 hempty] at hg
      cases hg
    | false =>
      rw [hempty] at hnone
      cases hnone
  | nothing _ ht =>
    refine ⟨nofun, fun _ _ => hl.since, fun _ _ _ g hg => ?_⟩
    have hnil := ht.resolve_left fun hs => absurd (hs.symm.trans hstop) nofun
    rw [(gateways_eq_nil_iff hr.sound.registered).2 hnil] at hg
    cases hg
  | asked =>
    refine ⟨fun b hb => ?_, fun _ _ => hl.since, fun _ _ hnone => nomatch hnone⟩
    cases hb
    exact ⟨rfl, _, _, rfl⟩
  | accepted _ hb =>
    refine ⟨nofun, h.looked, fun _ _ _ g hg => ⟨_, List.mem_cons_self, ?_, hl.since⟩⟩
    rw [(h.current _ hb).1]
    exact hg
  | refused _ hne => exact ⟨nofun, h.looked, fun _ _ hnone => absurd hnone (hne hstop)⟩
  | adopted =>
    refine ⟨h.current, h.looked, fun hl hh hnone g hg => ?_⟩
    obtain ⟨b, hb, hmem⟩ := h.replayed hl hh hnone g hg
    exact ⟨b, List.mem_cons_of_mem _ hb, hmem⟩
  | received hd =>
    refine h.of_handled rfl rfl rfl fun hh => ⟨hh.1, ?_⟩
    rcases hd with rfl | hdel
    · exact hh.2
    · rw [hdel]
      nofun
  | awakened hsleep =>
    refine ⟨fun b hb => ?_, h.looked, fun _ _ hnone => nomatch hnone⟩
    obtain ⟨-, n, topics, hask⟩ := h.current b hb
    cases hsleep.symm.trans hask

theorem Told.land {ledger : Ledger} {sys : System} {b : Batch} (h : w.Told topics)
    (hb : b ∈ w.ledger.batches) (hbatches : ∀ x ∈ ledger.batches, x ∈ w.ledger.batches)
    (hadded : ∀ g, ledger.Added g ↔ g ∈ b.gateways ∨ w.ledger.Added g) :
    Told topics { w with sys, subs := b.topics ∪ w.subs, ledger } where
  batches x hx := h.batches x (hbatches x hx)
  added g t ht := by
    rw [List.mem_union_iff, h.batches b hb t, h.added g t ht, hadded g]
    refine or_congr_left ⟨?_, fun hg => ⟨g, hg, ht⟩⟩
    rintro ⟨g', hg, ht'⟩
    rw [Topic.Topics.render_inj ht ht']
    exact hg
  rendered t ht := by
    rcases List.mem_union_iff.1 ht with ht | ht
    · obtain ⟨g, -, ht⟩ := (h.batches b hb t).1 ht
      exact ⟨g, ht⟩
    · exact h.rendered t ht

theorem Told.process {ledger : Ledger} {g : Eui} {s : Bool} {topic : String} (h : w.Told topics)
    (ht : topics.render .downlink g = .ok topic) (hbatches : ledger.batches = w.ledger.batches)
    (hadded : ∀ x, ledger.Added x ↔ if x = g then s = true else w.ledger.Added x) :
    Told topics { w with
      subs := if s then w.subs.insert topic else w.subs.filter (· != topic)
      ledger } where
  batches := by
    rw [hbatches]
    exact h.batches
  added x t hx := by
    rw [hadded x]
    by_cases heq : x = g
    · rw [heq, ht] at hx
      cases hx
      rw [if_pos heq]
      cases s <;> simp
    · have hne : t ≠ topic := by
        rintro rfl
        exact heq (Topic.Topics.render_inj hx ht)
      rw [if_neg heq, ← h.added x t hx]
      cases s <;> simp [hne]
  rendered t hmem := by
    cases s with
    | true =>
      rcases List.mem_insert_iff.1 hmem with rfl | hmem
      · exact ⟨g, ht⟩
      · exact h.rendered t hmem
    | false => exact h.rendered t (List.mem_of_mem_filter hmem)

theorem told_move (hr : w.Running topics) (hl : w.ledger.Sound w.sys.backend.registry.gateways)
    (hc : w.Calls) (h : w.Told topics) (hm : Moves w w') : w'.Told topics := by
  cases hm with
  | rejected | called | ended | message | took | lost | received | awakened | passed =>
    exact ⟨h.batches, h.added, h.rendered⟩
  | @processed op g s topic _ _ ht =>
    rw [hr.topics] at ht
    exact h.process ht rfl fun x => Ledger.added_process hl g x s
  | finished hop hchange hu =>
    cases hc.subscribes_eq (List.mem_of_getElem? hop) hchange hu
    exact ⟨h.batches, fun g t ht => (h.added g t ht).trans (Ledger.added_finish hu g).symm,
      h.rendered⟩
  | dropped _ _ hu hlt =>
    exact ⟨h.batches, fun g t ht => (h.added g t ht).trans (Ledger.added_drop hl hu hlt g).symm,
      h.rendered⟩
  | up | down =>
    exact ⟨h.batches, fun g t _ => iff_of_false List.not_mem_nil (Ledger.not_added_connect hl g),
      fun t ht => absurd ht List.not_mem_nil⟩
  | connected | nothing | refused =>
    exact ⟨fun b hb => h.batches b (Ledger.mem_batches_giveUp.1 hb), h.added, h.rendered⟩
  | asked =>
    refine ⟨fun b hb t => ?_, h.added, h.rendered⟩
    rcases Ledger.mem_batches_ask hb with rfl | hb
    · rw [← hr.topics]
      exact mem_downlinkTopics
    · exact h.batches b hb t
  | accepted _ hb =>
    exact h.land (Ledger.mem_batches_of_current hb) (fun _ => Ledger.mem_batches_accept hb)
      (Ledger.added_land hl _)
  | adopted hb =>
    exact h.land (Ledger.mem_batches_of_orphan hb) (fun _ => Ledger.mem_batches_adopt hb)
      (Ledger.added_land hl _)
  | discarded =>
    exact ⟨fun b hb => h.batches b (Ledger.mem_batches_discard hb), h.added, h.rendered⟩

structure Sound (topics : Topic.Topics) (w : World) : Prop where
  running : w.Running topics
  ledger : w.ledger.Sound w.sys.backend.registry.gateways
  calls : w.Calls
  covered : w.Covered
  told : w.Told topics

theorem sound_start (topics : Topic.Topics) (options : Options) :
    (start topics options).Sound topics where
  running := running_start topics options
  ledger := Ledger.sound_start
  calls := ⟨.nil, nofun⟩
  covered := ⟨nofun, nofun, nofun⟩
  told := by
    refine ⟨nofun, fun g t _ => iff_of_false List.not_mem_nil ?_, nofun⟩
    rintro (⟨c, hc, -⟩ | ⟨b, hb, -⟩)
    · cases hc
    · cases hb

theorem sound_step {a : Act} (hs : w.Sound topics) (h : w.step a = some w') : w'.Sound topics := by
  have hm := moves_of_step h
  exact ⟨running_step hs.running h, ledger_move hs.ledger hm, calls_move hs.calls hm,
    covered_move hs.running hs.ledger hs.covered hm,
    told_move hs.running hs.ledger hs.calls hs.told hm⟩

/-- In a quiet state the broker has subscribed the topics of the registered gateways, without
those that a snapshot missed, and of those that a batch undid. -/
theorem agreement {topics : Topic.Topics} {options : Options} {acts : List Act} {w : World}
    (hrun : (start topics options).run acts = some w) (hq : w.Quiet) :
    (∀ t, t ∈ w.subs ↔ ∃ g, topics.render .downlink g = .ok t ∧
      (g ∈ w.sys.backend.registry.gateways ∧ ¬ w.ledger.Missed g ∨ w.ledger.Undone g)) ∧
    (∀ g ∈ w.sys.backend.registry.gateways, ∃ t, topics.render .downlink g = .ok t) ∧
    (∀ g, w.ledger.Missed g → g ∈ w.sys.backend.registry.gateways) ∧
    ∀ g, w.ledger.Undone g → g ∉ w.sys.backend.registry.gateways := by
  have hs := Runs.invariant (fun _ _ _ _ hs => sound_step hs) hrun (sound_start topics options)
  have hover : ∀ g, w.ledger.underway g = none := by
    intro g
    cases hu : w.ledger.underway g with
    | none => rfl
    | some c =>
      obtain ⟨op, hop, -⟩ := hs.calls.underway g c hu
      rw [hq.pending] at hop
      cases hop
  have hreplayed : w.ledger.Replayed :=
    ⟨hs.covered.looked hq.link hq.handled, hs.covered.replayed hq.link hq.handled hq.replay⟩
  have hmissed := fun g => Ledger.registered_not_added_iff hs.ledger hreplayed (hover g)
  have hundone := fun g => Ledger.added_unregistered_iff hs.ledger (hover g)
  refine ⟨fun t => ⟨fun ht => ?_, ?_⟩, hs.running.topics ▸ hs.running.sound.registered,
    fun g h => ((hmissed g).2 h).1, fun g h => ((hundone g).2 h).2⟩
  · obtain ⟨g, hg⟩ := hs.told.rendered t ht
    have hadded := (hs.told.added g t hg).1 ht
    refine ⟨g, hg, ?_⟩
    by_cases hreg : g ∈ w.sys.backend.registry.gateways
    · exact .inl ⟨hreg, fun h => ((hmissed g).2 h).2 hadded⟩
    · exact .inr ((hundone g).1 ⟨hadded, hreg⟩)
  · rintro ⟨g, hg, ⟨hreg, hnot⟩ | hu⟩
    · rw [hs.told.added g t hg]
      by_contra hadded
      exact hnot ((hmissed g).1 ⟨hreg, hadded⟩)
    · exact (hs.told.added g t hg).2 ((hundone g).2 hu).1

/-- A gateway is subscribed again after the connection was lost. -/
theorem agreement_reconnect : ∃ w, (start System.sampleTopics .default).run [.up, .take, .resume,
      .call (.subscribe (.ofWord 1)), .process 0, .finish 0, .down "reset", .up, .take, .resume,
      .take, .resume, .ask, .accept] = some w ∧ w.Quiet ∧
    w.sys.backend.registry.gateways = [.ofWord 1] ∧ w.subs = ["gateway/0000000000000001/tx"] ∧
    ∀ t, t ∈ w.subs ↔ ∃ g, System.sampleTopics.render .downlink g = .ok t ∧
      (g ∈ w.sys.backend.registry.gateways ∧ ¬ w.ledger.Missed g ∨ w.ledger.Undone g) := by
  obtain ⟨w, hrun, hq, hreg, hsubs⟩ : ∃ w, (start System.sampleTopics .default).run [.up, .take,
      .resume, .call (.subscribe (.ofWord 1)), .process 0, .finish 0, .down "reset", .up, .take,
      .resume, .take, .resume, .ask, .accept] = some w ∧ w.Quiet ∧
      w.sys.backend.registry.gateways = [.ofWord 1] ∧ w.subs = ["gateway/0000000000000001/tx"] :=
    ⟨_, rfl, ⟨rfl, rfl, rfl, rfl, nofun, nofun⟩, rfl, by decide⟩
  exact ⟨w, hrun, hq, hreg, hsubs, (agreement hrun hq).1⟩

/-- The broker has subscribed what is registered, and nothing else. -/
def Agrees (w : World) : Prop :=
  ∀ t, t ∈ w.subs ↔
    ∃ g ∈ w.sys.backend.registry.gateways, w.sys.backend.topics.render .downlink g = .ok t

/-- A gateway is unsubscribed while it is subscribed again: the broker processes the batch
last, and the topic stays without a registration. Another one is registered only after the
replay for a new connection has looked at the registry, and its topic is not subscribed. -/
theorem not_agrees_overlapping :
    (∃ w, (start System.sampleTopics .default).run [.up, .take, .resume,
      .call (.subscribe (.ofWord 1)), .process 0, .finish 0, .down "reset", .up, .take, .resume,
      .take, .call (.unsubscribe (.ofWord 1)), .resume, .ask, .process 0, .accept, .finish 0] =
        some w ∧ w.Quiet ∧ w.sys.backend.registry.gateways = [] ∧ ¬ w.Agrees) ∧
    ∃ w, (start System.sampleTopics .default).run [.up, .take, .resume,
      .call (.subscribe (.ofWord 1)), .process 0, .down "reset", .up, .take, .resume, .take,
      .resume, .finish 0] = some w ∧ w.Quiet ∧ w.subs = [] ∧ ¬ w.Agrees := by
  constructor
  · refine ⟨_, rfl, ⟨rfl, rfl, rfl, rfl, nofun, nofun⟩, rfl, fun hall => ?_⟩
    obtain ⟨g, hg, -⟩ := (hall "gateway/0000000000000001/tx").1 (by decide)
    exact absurd hg List.not_mem_nil
  · refine ⟨_, rfl, ⟨rfl, rfl, rfl, rfl, nofun, nofun⟩, rfl, fun hall => ?_⟩
    have hmem := (hall "gateway/0000000000000001/tx").2 ⟨.ofWord 1, by decide, by rfl⟩
    exact absurd hmem List.not_mem_nil

end LoraBridge.Backend.World
