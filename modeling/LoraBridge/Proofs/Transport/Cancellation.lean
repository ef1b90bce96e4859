import LoraBridge.Proofs.Transport.Bookkeeping
import LoraBridge.Proofs.Transport.Correlation
import LoraBridge.Proofs.Transport.Dropping
import LoraBridge.Proofs.Transport.Opening

/-! What a dropped call does to the others. A call that is dropped while it waits for its
turn or for its acknowledgement does nothing to them. One that is dropped in its turn
leaves its waiter behind, and every later call of its kind gets the acknowledgement of
another request. -/
namespace LoraBridge.Transport.Crowd

def Settled (c : Crowd) (w : Waiter) : Prop :=
  w ∈ c.net.returned.map (·.1) ∨ (∃ a, c.net.client.held = some (w, a)) ∨ w ∈ c.dropped

/-- A reason for the answer of a call: its request needs no acknowledgement, or the call
timed out, or the broker gave this outcome to the request to which the waiter of the
call was bound. -/
def Explained (c : Crowd) (w : Waiter) (a : Answer) : Prop :=
  (∃ r, (w, r) ∈ c.net.calls ∧ r.ackKind? = none) ∨ a.inTime = false ∨
    ∃ b ∈ c.net.bound, b.waiter = w ∧ (w, b.call) ∈ c.net.resolved ∧ (b.call, a) ∈ c.outcomes

/-- A call of the kind was dropped in its turn before a call had its own. -/
def Preceded (c : Crowd) (w : Waiter) : Prop :=
  ∃ k, w ∈ callsOf k c.turns ∧ ∃ s ∈ c.earlier k w, s ∈ c.strays

structure Told (c : Crowd) : Prop where
  unanswered : ∀ o ∈ c.net.unanswered, o.request.ackKind? ≠ none
  answered : ∀ id w r grants, .answered id w r grants ∈ c.net.notices →
    r.ackKind? ≠ none ∧ (w, r.verdict id grants) ∈ c.outcomes
  reason : ∀ w a, (w, a) ∈ c.net.returned ∨ c.net.client.held = some (w, a) → c.Explained w a
  overdue : ∀ w ∈ c.overdue, c.Preceded w
  strays : c.strays ⊆ c.dropped
  accepting : c.net.client.shutDown = false
  running : c.net.client.running = true
  peaceful : ∀ p ∈ c.net.calls, p.2.disconnects = false

/-- The waiters of some queues stand to the requests as the calls that were dropped let
them. -/
def Lined (c : Crowd) (queued : AckKind → List Waiter) : Prop :=
  ∃ bs, Shifted c.net.calls c.net.client.waiting c.turns c.net.ahead queued c.strays c.net.bound bs

/-- The waiters that are bound to identifiers are those that the event loop has to
resolve. -/
def Attuned (c : Crowd) (flights : List InFlight) : Prop :=
  ∃ now, Leads c.net.marks now (opened c.net.unanswered) ∧
    Heard now flights c.net.bound c.net.resolved c.handled

structure Inv (c : Crowd) : Prop where
  lined : c.Lined c.net.client.acks.queued
  attuned : c.Attuned c.net.client.acks.inFlight
  told : c.Told
  settled : ∀ p ∈ c.net.resolved, c.Settled p.1

theorem inv_start (backoff : Backoff) : (start backoff).Inv where
  lined := by
    have hq : (start backoff).net.client.acks.queued = fun _ => [] := funext Acks.queued_empty
    rw [hq]
    exact ⟨_, Shifted.start⟩
  attuned := ⟨fun _ => none, rfl, Heard.start⟩
  told := {
    unanswered := fun _ h => absurd h List.not_mem_nil
    answered := fun _ _ _ _ h => absurd h List.not_mem_nil
    reason := fun _ _ h => by rcases h with h | h <;> cases h
    overdue := fun _ h => absurd h List.not_mem_nil
    strays := List.Subset.refl _
    accepting := rfl
    running := rfl
    peaceful := fun _ h => absurd h List.not_mem_nil }
  settled _ h := absurd h List.not_mem_nil

variable {c c' : Crowd} {w : Waiter} {a : Answer}

theorem Explained.mono (h : c.Explained w a) (hc : c.net.calls ⊆ c'.net.calls)
    (hb : c.net.bound ⊆ c'.net.bound) (hr : c.net.resolved ⊆ c'.net.resolved)
    (ho : c.outcomes ⊆ c'.outcomes) : c'.Explained w a := by
  rcases h with ⟨r, hmem, hk⟩ | ha | ⟨b, hmem, hw, hres, hout⟩
  · exact .inl ⟨r, hc hmem, hk⟩
  · exact .inr (.inl ha)
  · exact .inr (.inr ⟨b, hb hmem, hw, hr hres, ho hout⟩)

theorem Preceded.mono {ts : List (Waiter × Request)} (h : c.Preceded w)
    (ht : c'.turns = c.turns ++ ts) (hs : c.strays ⊆ c'.strays) : c'.Preceded w := by
  obtain ⟨k, hw, s, hbefore, hmem⟩ := h
  have hturns : callsOf k c'.turns = callsOf k c.turns ++ callsOf k ts := by
    rw [ht, callsOf_append]
  refine ⟨k, hturns ▸ List.mem_append_left _ hw, s, ?_, hs hmem⟩
  unfold earlier
  rw [hturns]
  exact before_subset w _ _ hbefore

theorem Settled.mono (h : c.Settled w)
    (hr : c.net.returned.map (·.1) ⊆ c'.net.returned.map (·.1))
    (hh : ∀ a, c.net.client.held = some (w, a) → c'.Settled w) (hd : c.dropped ⊆ c'.dropped) :
    c'.Settled w := by
  rcases h with h | ⟨a, ha⟩ | h
  · exact .inl (hr h)
  · exact hh a ha
  · exact .inr (.inr (hd h))

theorem Inv.record {answers : List (Waiter × Answer)} (h : c.Inv)
    (hj : ∀ p ∈ answers, c.Explained p.1 p.2) : Inv { c with net := c.net.record answers } where
  lined := h.lined
  attuned := h.attuned
  told := { h.told with
    reason := fun w a hw => by
      rcases hw with hw | hw
      · rcases Network.mem_of_record hw with hw | hw
        · exact h.told.reason w a (.inl hw)
        · exact hj _ hw
      · exact h.told.reason w a (.inr hw) }
  settled p hp := (h.settled p hp).mono (Network.map_returned_subset_record _ _)
    (fun a ha => .inr (.inl ⟨a, ha⟩)) (List.Subset.refl _)

theorem Inv.resolve {change : Acks → Acks × List (Waiter × Answer)}
    (hl : c.Lined (change c.net.client.acks).1.queued)
    (ha : c.Attuned (change c.net.client.acks).1.inFlight) (ht : c.Told)
    (hs : ∀ p ∈ c.net.resolved, c.Settled p.1 ∨ ∃ a, (p.1, a) ∈ (change c.net.client.acks).2)
    (hj : ∀ p ∈ (change c.net.client.acks).2, c.Explained p.1 p.2) :
    Inv { c with net := c.net.resolve change } where
  lined := by
    unfold Lined
    simp only [Network.acks_resolve, Network.waiting_resolve, Network.ahead_resolve]
    exact hl
  attuned := by
    rw [Network.acks_resolve]
    exact ha
  told := { ht with
    reason := fun w a hw => by
      rcases Network.mem_of_resolve hw with hw | hw
      · exact ht.reason w a hw
      · exact hj _ hw
    accepting := (Client.hand_shutDown _ _).trans ht.accepting
    running := (Client.hand_running _ _).trans ht.running }
  settled p hp := by
    rcases hs p hp with h | ⟨a, h⟩
    · exact h.mono (Network.map_returned_subset_record _ _)
        (fun a ha => .inr (.inl ⟨a, Network.held_resolve ha⟩)) (List.Subset.refl _)
    · rcases Network.given_resolve h with h | h
      · exact .inl h
      · exact .inr (.inl h)

theorem Inv.call {r : Request} {net : Network} (h : c.Inv) (hr : r.disconnects = false)
    (hs : c.net.step (.call w r) = some net) : Inv { c with net } := by
  simp only [Network.step] at hs
  split at hs
  · cases hs
  next hw =>
  have hbegin : c.net.client.begin w r =
      ({ c.net.client with waiting := c.net.client.waiting ++ [(w, r)] }, []) := by
    unfold Client.begin
    rw [if_neg (by rw [h.told.accepting]; exact Bool.false_ne_true)]
  simp only [hbegin, Network.record_nil, Option.some.injEq] at hs
  subst hs
  obtain ⟨bs, hl⟩ := h.lined
  refine ⟨⟨bs, hl.call hw⟩, h.attuned, ?_, h.settled⟩
  exact { h.told with
    reason := fun v a hv => (h.told.reason v a hv).mono (List.subset_append_left _ _)
      (List.Subset.refl _) (List.Subset.refl _) (List.Subset.refl _)
    peaceful := fun p hp => by
      rcases List.mem_append.1 hp with hp | hp
      · exact h.told.peaceful p hp
      · rw [List.mem_singleton.1 hp]
        exact hr }

theorem Inv.turn (h : c.Inv) :
    Inv { c.note .turn with net := c.net.setClient c.net.client.giveTurn } := by
  unfold Client.giveTurn
  split
  · next w r rest he hw =>
    have hnote : c.note .turn = { c with turns := c.turns ++ [(w, r)] } := by
      simp only [note, he, hw, Option.isSome_none, Bool.false_eq_true, ↓reduceIte,
        List.take_succ_cons, List.take_zero]
    have hahead : c.net.ahead = c.net.notices.filterMap Noticed.sent? ++ c.net.client.queue := by
      unfold Network.ahead Network.placing
      rw [he]
      exact List.append_nil _
    obtain ⟨bs, hl⟩ := h.lined
    rw [hw, hahead] at hl
    rw [hnote]
    refine ⟨⟨bs, hl.turn fun k' => ?_⟩, ?_, ?_, fun p hp => ?_⟩
    · cases hk : r.ackKind? with
      | none => simp only [Network.setClient, Network.client, reduceCtorEq, ↓reduceIte,
          List.append_nil]
      | some k => simp only [Network.setClient, Network.client, Option.some.injEq,
          Acks.queued_enqueue, eq_comm]
    · have ha := h.attuned
      cases hk : r.ackKind? with
      | none => exact ha
      | some k =>
        simp only [Network.setClient, Network.client, Acks.inFlight_enqueue]
        exact ha
    · exact { h.told with
        reason := fun v a hv => h.told.reason v a (hv.imp_right fun hheld => by cases hheld)
        overdue := fun v hv => (h.told.overdue v hv).mono rfl (List.Subset.refl _) }
    · refine (h.settled p hp).mono (List.Subset.refl _) (fun a ha => ?_) (List.Subset.refl _)
      obtain ⟨e, he', -⟩ := Client.held_eq_some_iff.1 ha
      rw [he] at he'
      cases he'
  · next hnext =>
    have hnote : c.note .turn = c := by
      unfold note
      cases he : c.net.client.entering with
      | some e => rfl
      | none =>
        cases hw : c.net.client.waiting with
        | nil =>
          simp only [Option.isSome_none, Bool.false_eq_true, ↓reduceIte, List.take_nil,
            List.append_nil]
        | cons p rest => exact absurd hw (hnext p.1 p.2 rest he)
    rw [hnote]
    exact h

theorem Inv.endTurn {queue : List (Waiter × Request)} {answers : List (Waiter × Answer)}
    (h : c.Inv)
    (hl : ∃ bs, Shifted c.net.calls c.net.client.waiting c.turns
      (c.net.notices.filterMap Noticed.sent? ++ queue) c.net.client.acks.queued c.strays
      c.net.bound bs)
    (hj : ∀ p ∈ answers, c.Explained p.1 p.2)
    (hh : ∀ p, c.net.client.held = some p → ∃ a, (p.1, a) ∈ answers) :
    Inv { c with
      net := (c.net.setClient { c.net.client with entering := none, queue }).record answers } := by
  have hbase := h.record hj
  obtain ⟨bs, hl⟩ := hl
  rw [← List.append_nil (_ ++ _)] at hl
  refine ⟨⟨bs, hl⟩, hbase.attuned, { hbase.told with
    reason := fun w a hw => hbase.told.reason w a (hw.imp_right fun hheld => by cases hheld) },
    fun p hp => ?_⟩
  refine (hbase.settled p hp).mono (List.Subset.refl _) (fun a ha => .inl ?_) (List.Subset.refl _)
  obtain ⟨b, hb⟩ := hh _ ha
  exact Network.mem_returned_record hb

theorem ackKind?_of_not_placeable {r : Request} (h : r.placeable = false) : r.ackKind? = none := by
  cases r <;> first | rfl | cases h

theorem Inv.place (h : c.Inv) :
    Inv { c with net := (c.net.setClient c.net.client.place.1).record c.net.client.place.2 } := by
  obtain ⟨bs, hl⟩ := h.lined
  unfold Client.place
  split
  · rw [Network.record_nil]
    exact h
  next e he =>
  rw [Network.ahead_of_entering he] at hl
  have hcall : (e.waiter, e.request) ∈ c.net.calls :=
    hl.turns_subset (hl.known (List.mem_append_right _ (List.mem_singleton.2 rfl)))
  have hrefused : (!c.net.client.running || !e.request.placeable) = !e.request.placeable := by
    rw [h.told.running, Bool.not_true, Bool.false_or]
  rw [hrefused]
  split
  · next hplace =>
    have hk : e.request.ackKind? = none :=
      ackKind?_of_not_placeable (Bool.not_eq_true' _ ▸ hplace)
    have hrefuse : c.net.client.refuse e = ({ c.net.client with entering := none },
        [(e.waiter, .error Client.placeError)]) := by
      unfold Client.refuse
      rw [hk]
      cases hr : e.request <;> first | rfl | (rw [hr] at hplace; cases hplace)
    rw [hrefuse]
    refine h.endTurn ⟨bs, hl.skip (List.subset_append_left _ _) fun k => ?_⟩ ?_ ?_
    · rw [callsOf_append k (_ ++ _), callsOf_singleton, hk]
      exact (List.append_nil _).symm
    · intro p hp
      rw [List.mem_singleton.1 hp]
      exact .inl ⟨e.request, hcall, hk⟩
    · intro p hp
      rw [← (Client.waiter_of_held hp he).1]
      exact ⟨_, List.mem_singleton.2 rfl⟩
  split
  · rw [Network.record_nil]
    exact h
  rw [List.append_assoc] at hl
  refine h.endTurn ⟨bs, hl⟩ (fun p hp => ?_) fun p hp => ?_
  · obtain ⟨a, hans, rfl⟩ := Option.map_eq_some_iff.1 (Option.mem_toList.1 hp)
    cases hplaced : e.request.placed? with
    | some b =>
      refine .inl ⟨e.request, hcall, ?_⟩
      cases hr : e.request <;> first | rfl | (rw [hr] at hplaced; cases hplaced)
    | none =>
      rw [hplaced, Option.none_or] at hans
      exact h.told.reason e.waiter a (.inr (Client.held_eq_some_iff.2 ⟨e, he, rfl, hans⟩))
  · obtain ⟨hw, ha⟩ := Client.waiter_of_held hp he
    rw [← hw, ha]
    cases e.request.placed? with
    | none => exact ⟨p.2, List.mem_singleton.2 rfl⟩
    | some b => exact ⟨b, List.mem_singleton.2 rfl⟩

/-- A call whose answer was handled while the call goes on waiting has no waiter under the
identifier of its own request. -/
theorem Inv.preceded_of_handled (h : c.Inv) (hw : w ∈ c.handled) (hs : ¬ c.Settled w) :
    c.Preceded w := by
  obtain ⟨now, -, hheard⟩ := h.attuned
  obtain ⟨bs, hl⟩ := h.lined
  -- The answer resolved a waiter, which is that of the call unless one was left before it.
  obtain ⟨v, hv⟩ := hheard.resolution w hw
  obtain ⟨b, hb, rfl, rfl⟩ := hheard.binding _ hv
  obtain ⟨k, hk⟩ := (hl.bound b).1 hb
  by_contra hp
  have hown : b.call = b.waiter := hl.waiter_eq hk fun s hbefore hstray =>
    hp ⟨k, hl.mem_callsOf_call hk, s, hbefore, hstray⟩
  exact hs (hown ▸ h.settled _ hv)

private theorem mem_placing_of_held (h : c.net.client.held = some (w, a)) :
    w ∈ c.net.placing.map (·.1) := by
  obtain ⟨e, he, hw, -⟩ := Client.held_eq_some_iff.1 h
  unfold Network.placing
  rw [he]
  exact List.mem_singleton.2 hw.symm

theorem Inv.timeOut {time : Duration} {net : Network} (h : c.Inv) (hw : w ∉ c.dropped)
    (hs : c.net.step (.timeOut w time) = some net) : Inv { c.note (.timeOut w time) with net } := by
  simp only [Network.step] at hs
  split at hs
  · cases hs
  split at hs
  · cases hs
  split at hs
  · cases hs
  next k _ hturn =>
  cases hs
  have hbase : Inv { c with net := c.net.record [(w, .error (.ackTimeout k.name time))] } :=
    h.record fun p hp => by
      rw [List.mem_singleton.1 hp]
      exact .inr (.inl rfl)
  by_cases hlate : w ∈ c.handled ∧ w ∉ c.net.returned.map (·.1)
  · have hnote : c.note (.timeOut w time) = { c with overdue := c.overdue ++ [w] } := by
      simp only [note, if_pos hlate]
    rw [hnote]
    refine ⟨hbase.lined, hbase.attuned, { hbase.told with overdue := fun v hv => ?_ }, hbase.settled⟩
    rcases List.mem_append.1 hv with hv | hv
    · exact hbase.told.overdue v hv
    · rw [List.mem_singleton.1 hv]
      refine (h.preceded_of_handled hlate.1 ?_).mono (List.append_nil _).symm
        (List.Subset.refl _)
      rintro (hret | ⟨a, hheld⟩ | hdrop)
      · exact hlate.2 hret
      · refine hturn ?_
        rw [List.map_append]
        exact List.mem_append_left _ (mem_placing_of_held hheld)
      · exact hw hdrop
  · have hnote : c.note (.timeOut w time) = c := by
      simp only [note, if_neg hlate]
    rw [hnote]
    exact hbase

theorem Inv.send {id : Mqtt.PacketId} {net : Network} (h : c.Inv)
    (hs : c.net.step (.send id) = some net) : Inv { c with net } := by
  simp only [Network.step] at hs
  split at hs
  · cases hs
  next hfree =>
  split at hs
  · cases hs
  next w r rest hq =>
  have hahead : (c.net.notices ++ [Noticed.sent id w r]).filterMap Noticed.sent? ++ rest ++
      c.net.placing = c.net.ahead := by
    unfold Network.ahead
    rw [hq, List.filterMap_append, List.append_assoc (c.net.notices.filterMap Noticed.sent?)]
    rfl
  have hanswered : ∀ id' w' r' grants,
      .answered id' w' r' grants ∈ c.net.notices ++ [.sent id w r] →
      r'.ackKind? ≠ none ∧ (w', r'.verdict id' grants) ∈ c.outcomes := by
    intro id' w' r' grants hm
    rcases List.mem_append.1 hm with hm | hm
    · exact h.told.answered _ _ _ _ hm
    · cases List.mem_singleton.1 hm
  obtain ⟨bs, hl⟩ := h.lined
  obtain ⟨now, hleads, hheard⟩ := h.attuned
  rw [← hahead] at hl
  cases hk : r.ackKind? with
  | none =>
    simp only [hk, Option.some.injEq] at hs
    subst hs
    have hmarks : (c.net.notices ++ [Noticed.sent id w r]).filterMap Noticed.mark? =
        c.net.marks := by
      rw [List.filterMap_append, List.filterMap_cons_none (mark?_sent_of_none hk id w)]
      exact List.append_nil _
    rw [← hmarks] at hleads
    exact ⟨⟨bs, hl⟩, ⟨now, hleads, hheard⟩, { h.told with answered := hanswered }, h.settled⟩
  | some k =>
    simp only [hk, Option.some.injEq] at hs
    subst hs
    have hids : ∀ o ∈ c.net.unanswered, o.id ≠ id := by
      intro o ho heq
      refine hfree ?_
      rw [Bool.or_eq_true, List.any_eq_true]
      exact .inr ⟨o, ho, beq_iff_eq.2 heq⟩
    have hmarks : (c.net.notices ++ [Noticed.sent id w r]).filterMap Noticed.mark? =
        c.net.marks ++ [⟨id, w, false⟩] := by
      rw [List.filterMap_append, List.filterMap_cons_some (mark?_sent_of_some hk id w)]
      rfl
    have hpush : Leads (c.net.marks ++ [⟨id, w, false⟩]) now
        (Function.update (opened c.net.unanswered) id (some w)) :=
      hleads.push (opened_eq_none hids)
    rw [← hmarks, ← opened_send hids w r] at hpush
    refine ⟨⟨bs, hl⟩, ⟨now, hpush, hheard⟩, { h.told with
      unanswered := fun o ho => ?_
      answered := hanswered }, h.settled⟩
    rcases List.mem_append.1 ho with ho | ho
    · exact h.told.unanswered o ho
    · rw [List.mem_singleton.1 ho, hk]
      exact Option.some_ne_none k

theorem Inv.answer {id : Mqtt.PacketId} {grants : List Mqtt.Grant} {net : Network} (h : c.Inv)
    (hs : c.net.step (.answer id grants) = some net) :
    Inv { c.note (.answer id grants) with net } := by
  simp only [Network.step] at hs
  split at hs
  · cases hs
  next o ho =>
  split at hs
  · cases hs
  cases hs
  have hnote : c.note (.answer id grants) =
      { c with outcomes := c.outcomes ++ [(o.call, o.request.verdict id grants)] } := by
    simp only [note, ho]
  have houtcomes : c.outcomes ⊆ c.outcomes ++ [(o.call, o.request.verdict id grants)] :=
    List.subset_append_left _ _
  have hmem := List.mem_of_find?_eq_some ho
  have hid : o.id = id := by
    have := List.find?_some ho
    rwa [beq_iff_eq] at this
  have hahead : (c.net.notices ++ [Noticed.answered id o.call o.request grants]).filterMap
      Noticed.sent? ++ c.net.client.queue ++ c.net.placing = c.net.ahead := by
    rw [List.filterMap_append]
    exact congrArg (· ++ c.net.client.queue ++ c.net.placing) (List.append_nil _)
  have hmarks : (c.net.notices ++ [Noticed.answered id o.call o.request grants]).filterMap
      Noticed.mark? = c.net.marks ++ [⟨id, o.call, true⟩] := by
    rw [List.filterMap_append]
    rfl
  have hopen : opened c.net.unanswered id = some o.call := by
    unfold opened
    rw [ho]
    rfl
  obtain ⟨bs, hl⟩ := h.lined
  obtain ⟨now, hleads, hheard⟩ := h.attuned
  have hpush : Leads (c.net.marks ++ [⟨id, o.call, true⟩]) now
      (Function.update (opened c.net.unanswered) id none) := hleads.push hopen
  rw [← hahead] at hl
  rw [← hmarks, ← opened_answer] at hpush
  rw [hnote]
  refine ⟨⟨bs, hl⟩, ⟨now, hpush, hheard⟩, { h.told with
    unanswered := fun x hx => h.told.unanswered x (List.mem_filter.1 hx).1
    answered := fun id' w' r' grants' hm => ?_
    reason := fun v a hv => (h.told.reason v a hv).mono (List.Subset.refl _) (List.Subset.refl _)
      (List.Subset.refl _) houtcomes }, h.settled⟩
  rcases List.mem_append.1 hm with hm | hm
  · obtain ⟨hk, hout⟩ := h.told.answered _ _ _ _ hm
    exact ⟨hk, houtcomes hout⟩
  · cases List.mem_singleton.1 hm
    exact ⟨h.told.unanswered o hmem, List.mem_append_right _ (List.mem_singleton.2 rfl)⟩

theorem Inv.push {x : Noticed} {connected : Bool} (h : c.Inv) (hsent : x.sent? = none)
    (hmark : x.mark? = none) :
    Inv { c with net := { c.net with connected, notices := c.net.notices ++ [x] } } := by
  obtain ⟨bs, hl⟩ := h.lined
  obtain ⟨now, hleads, hheard⟩ := h.attuned
  have hahead : (c.net.notices ++ [x]).filterMap Noticed.sent? ++ c.net.client.queue ++
      c.net.placing = c.net.ahead := by
    rw [List.filterMap_append, List.filterMap_cons_none hsent]
    exact congrArg (· ++ c.net.client.queue ++ c.net.placing) (List.append_nil _)
  have hmarks : (c.net.notices ++ [x]).filterMap Noticed.mark? = c.net.marks := by
    rw [List.filterMap_append, List.filterMap_cons_none hmark]
    exact List.append_nil _
  rw [← hahead] at hl
  rw [← hmarks] at hleads
  refine ⟨⟨bs, hl⟩, ⟨now, hleads, hheard⟩, { h.told with
    answered := fun id w r grants hm => ?_ }, h.settled⟩
  rcases List.mem_append.1 hm with hm | hm
  · exact h.told.answered _ _ _ _ hm
  · rw [← List.mem_singleton.1 hm] at hmark
    cases hmark

theorem Inv.pop {x : Noticed} {rest : List Noticed} (h : c.Inv) (hx : c.net.notices = x :: rest)
    (hmark : x.mark? = none) : Inv { c with net := { c.net with notices := rest } } := by
  obtain ⟨bs, hl⟩ := h.lined
  obtain ⟨now, hleads, hheard⟩ := h.attuned
  have hmarks : rest.filterMap Noticed.mark? = c.net.marks := by
    unfold Network.marks
    rw [hx, List.filterMap_cons_none hmark]
  rw [← hmarks] at hleads
  refine ⟨⟨bs, ?_⟩, ⟨now, hleads, hheard⟩, { h.told with
    answered := fun _ _ _ _ hm => h.told.answered _ _ _ _ (hx ▸ List.mem_cons_of_mem _ hm) },
    h.settled⟩
  unfold Network.ahead at hl
  rw [hx] at hl
  cases x with
  | sent id w r =>
    cases hk : r.ackKind? with
    | none =>
      have htail : ∀ k,
          callsOf k (rest.filterMap Noticed.sent? ++ c.net.client.queue ++ c.net.placing) =
            callsOf k ((w, r) ::
              (rest.filterMap Noticed.sent? ++ c.net.client.queue ++ c.net.placing)) := by
        intro k
        rw [callsOf_cons, hk]
        rfl
      exact hl.skip (List.subset_cons_self _ _) htail
    | some k =>
      rw [mark?_sent_of_some hk] at hmark
      cases hmark
  | answered => cases hmark
  | message | connected => exact hl

theorem Inv.setFailures (h : c.Inv) (failures : UInt32) :
    Inv { c with net := { c.net with loop := { c.net.loop with failures } } } :=
  ⟨h.lined, h.attuned, { h.told with }, h.settled⟩

theorem Inv.handle_sent {id : Mqtt.PacketId} {r : Request} {k : AckKind} {rest : List Noticed}
    (h : c.Inv) (hx : c.net.notices = .sent id w r :: rest) (hk : r.ackKind? = some k) :
    Inv { c with
      net := Network.resolve { c.net.note (.sent id w r) with notices := rest } (·.sent k id) } := by
  obtain ⟨bs, hl⟩ := h.lined
  obtain ⟨now, hleads, hheard⟩ := h.attuned
  have hahead : c.net.ahead =
      (w, r) :: (rest.filterMap Noticed.sent? ++ c.net.client.queue ++ c.net.placing) := by
    unfold Network.ahead
    rw [hx]
    rfl
  have hmarks : c.net.marks = ⟨id, w, false⟩ :: rest.filterMap Noticed.mark? := by
    unfold Network.marks
    rw [hx, List.filterMap_cons_some (mark?_sent_of_some hk id w)]
  rw [hahead] at hl
  rw [hmarks] at hleads
  obtain ⟨hclosed, hleads⟩ := hleads
  obtain ⟨v, ws, hq⟩ := List.exists_cons_of_ne_nil (hl.queued_ne_nil hk)
  have hnote : c.net.note (.sent id w r) =
      { c.net with bound := c.net.bound ++ [⟨v, w, c.net.surplus k⟩] } := by
    simp only [Network.note, hk, hq]
  have hbound : c.net.bound ⊆ c.net.bound ++ [⟨v, w, c.net.surplus k⟩] :=
    List.subset_append_left _ _
  -- The identifier was closed, so nobody loses it.
  have hanswers : (c.net.client.acks.sent k id).2 = [] := by
    refine Acks.answers_sent fun hmem => ?_
    obtain ⟨f, hf, hid⟩ := List.mem_map.1 hmem
    exact hheard.id_ne hclosed hf hid
  rw [hnote]
  refine Inv.resolve (c := { c with
      net := { c.net with
        bound := c.net.bound ++ [⟨v, w, c.net.surplus k⟩]
        notices := rest } })
    ⟨_, hl.bind hk hq (fun k' => Acks.queued_sent _ _ k' id) (c.net.surplus k)⟩ ⟨_, hleads, ?_⟩ ?_
    (fun p hp => .inl (h.settled p hp)) fun p hp => ?_
  · have hbind := hheard.bind id w k v (c.net.surplus k)
    rw [← Acks.inFlight_sent_of_cons hq] at hbind
    exact hbind
  · exact { h.told with
      answered := fun _ _ _ _ hm => h.told.answered _ _ _ _ (hx ▸ List.mem_cons_of_mem _ hm)
      reason := fun v a hv => (h.told.reason v a hv).mono (List.Subset.refl _) hbound
        (List.Subset.refl _) (List.Subset.refl _) }
  · have hp' : p ∈ (c.net.client.acks.sent k id).2 := hp
    rw [hanswers] at hp'
    cases hp'

theorem Inv.handle_answered {id : Mqtt.PacketId} {r : Request} {grants : List Mqtt.Grant}
    {rest : List Noticed} (h : c.Inv) (hx : c.net.notices = .answered id w r grants :: rest) :
    Inv { c with
      handled := c.handled ++ [w]
      net := Network.resolve { c.net.note (.answered id w r grants) with notices := rest }
        (·.acknowledge id (r.verdict id grants)) } := by
  obtain ⟨bs, hl⟩ := h.lined
  obtain ⟨now, hleads, hheard⟩ := h.attuned
  have hahead : c.net.ahead =
      rest.filterMap Noticed.sent? ++ c.net.client.queue ++ c.net.placing := by
    unfold Network.ahead
    rw [hx]
    rfl
  have hmarks : c.net.marks = ⟨id, w, true⟩ :: rest.filterMap Noticed.mark? := by
    unfold Network.marks
    rw [hx]
    rfl
  have hqueued : (c.net.client.acks.acknowledge id (r.verdict id grants)).1.queued =
      c.net.client.acks.queued := funext (Acks.queued_acknowledge _ _ _)
  have hout := (h.told.answered id w r grants (hx ▸ List.mem_cons_self)).2
  rw [hahead, ← hqueued] at hl
  rw [hmarks] at hleads
  obtain ⟨hopen, hleads⟩ := hleads
  have hresolved : c.net.resolved ⊆ (c.net.note (.answered id w r grants)).resolved :=
    List.subset_append_left _ _
  have hanswers := Acks.answers_acknowledge c.net.client.acks id (r.verdict id grants)
  refine Inv.resolve (c := { c with
      handled := c.handled ++ [w]
      net := { c.net.note (.answered id w r grants) with notices := rest } })
    ⟨bs, hl⟩ ⟨_, hleads, ?_⟩ ?_ (fun p hp => ?_) fun p hp => ?_
  · have hanswer := hheard.answer hopen
    rw [← Acks.inFlight_acknowledge _ _ (r.verdict id grants)] at hanswer
    exact hanswer
  · exact { h.told with
      answered := fun _ _ _ _ hm => h.told.answered _ _ _ _ (hx ▸ List.mem_cons_of_mem _ hm)
      reason := fun v a hv => (h.told.reason v a hv).mono (List.Subset.refl _)
        (List.Subset.refl _) hresolved (List.Subset.refl _) }
  · rcases List.mem_append.1 hp with hp | hp
    · exact .inl (h.settled p hp)
    · obtain ⟨f, hf, rfl⟩ := List.mem_map.1 hp
      have hgiven : (f.waiter, r.verdict id grants) ∈
          (c.net.client.acks.acknowledge id (r.verdict id grants)).2 := by
        rw [hanswers]
        exact List.mem_map.2 ⟨f, hf, rfl⟩
      exact .inr ⟨_, hgiven⟩
  · have hp' : p ∈ (c.net.client.acks.acknowledge id (r.verdict id grants)).2 := hp
    rw [hanswers] at hp'
    obtain ⟨f, hf, rfl⟩ := List.mem_map.1 hp'
    obtain ⟨hmem, hid⟩ := List.mem_filter.1 hf
    obtain ⟨b, hb, hbw, hbc⟩ := hheard.call_eq hopen hmem (eq_of_beq hid)
    refine .inr (.inr ⟨b, hb, hbw, ?_, ?_⟩)
    · rw [hbc]
      exact List.mem_append_right _ (List.mem_map_of_mem hf)
    · rw [hbc]
      exact hout

theorem Inv.handle {x : Noticed} {rest : List Noticed} (h : c.Inv)
    (hx : c.net.notices = x :: rest) :
    Inv { c.note .handle with
      net := Network.follow { c.net.note x with notices := rest } (.notice x.notice) } := by
  cases x with
  | sent id w r =>
    have hnote : c.note .handle = c := by
      simp only [note, hx]
    rw [hnote]
    cases hk : r.ackKind? with
    | none =>
      have hpop := h.pop hx (mark?_sent_of_none hk id w)
      have hnet : c.net.note (.sent id w r) = c.net := by
        simp only [Network.note, hk]
      rw [hnet]
      cases r with
      | publish => exact hpop.record fun _ hp => absurd hp List.not_mem_nil
      | disconnect grace =>
        obtain ⟨bs, hl⟩ := h.lined
        have hahead : (w, .disconnect grace) ∈ c.net.ahead := by
          unfold Network.ahead
          rw [hx]
          exact List.mem_cons_self
        cases h.told.peaceful _ (hl.turns_subset (hl.known hahead))
      | subscribe | subscribeMany | unsubscribe => cases hk
    | some k =>
      rw [Network.follow_sent _ hk]
      exact h.handle_sent hx hk
  | answered id w r grants =>
    have hnote : c.note .handle = { c with handled := c.handled ++ [w] } := by
      simp only [note, hx]
    have hk := (h.told.answered id w r grants (hx ▸ List.mem_cons_self)).1
    rw [hnote, Network.follow_verdict _ hk]
    exact h.handle_answered hx
  | message topic payload =>
    have hnote : c.note .handle = c := by
      simp only [note, hx]
    rw [hnote]
    exact (h.pop hx rfl).record fun _ hp => absurd hp List.not_mem_nil
  | connected sessionPresent =>
    have hnote : c.note .handle = c := by
      simp only [note, hx]
    rw [hnote]
    exact ((h.pop hx rfl).setFailures 0).record fun _ hp => absurd hp List.not_mem_nil

theorem Inv.go {act : Network.Act} (h : c.Inv) (hs : c.step (.go act) = some c') : c'.Inv := by
  simp only [step] at hs
  split at hs
  · next hpermits =>
    obtain ⟨net, hnet, rfl⟩ := Option.map_eq_some_iff.1 hs
    cases act with
    | call w r => exact h.call (by simpa [permits, Network.Act.peaceful] using hpermits) hnet
    | turn =>
      cases hnet
      exact h.turn
    | place =>
      cases hnet
      exact h.place
    | timeOut w time => exact h.timeOut (of_decide_eq_true hpermits) hnet
    | send id => exact h.send hnet
    | answer id grants => exact h.answer hnet
    | message topic payload =>
      simp only [Network.step] at hnet
      split at hnet
      · cases hnet
        exact h.push rfl rfl
      · cases hnet
    | handle =>
      simp only [Network.step] at hnet
      split at hnet
      · cases hnet
      next x rest hx =>
      cases hnet
      exact h.handle hx
    | connect sessionPresent =>
      simp only [Network.step] at hnet
      split at hnet
      · cases hnet
      cases hnet
      exact h.push rfl rfl
    | fail | lose | halt | shut => cases hpermits
  · cases hs

/-- The waiter of a call that is dropped in its turn stays without a request. -/
theorem Inv.dropTurn {e : Entering} (h : c.Inv) (he : c.net.client.entering = some e) :
    Inv { c with
      net := c.net.setClient (c.net.client.abandon e.waiter)
      dropped := c.dropped ++ [e.waiter]
      strays := c.strays ++ [e.waiter] } := by
  have habandon : c.net.client.abandon e.waiter = { c.net.client with
      waiting := c.net.client.waiting.filter fun p => p.1 != e.waiter
      entering := none } := by
    unfold Client.abandon
    rw [he, Option.filter_some, bne_self_eq_false]
    rfl
  obtain ⟨bs, hl⟩ := h.lined
  rw [Network.ahead_of_entering he] at hl
  have hstray := (hl.stray).leave (List.filter_sublist (p := fun p => p.1 != e.waiter))
  rw [← List.append_nil (_ ++ c.net.client.queue)] at hstray
  rw [habandon]
  refine ⟨⟨bs, hstray⟩, h.attuned, { h.told with
    reason := fun v a hv => h.told.reason v a (hv.imp_right fun hheld => by cases hheld)
    overdue := fun v hv => (h.told.overdue v hv).mono (List.append_nil _).symm
      (List.subset_append_left _ _)
    strays := List.append_subset_of_subset_of_subset
      (List.Subset.trans h.told.strays (List.subset_append_left _ _))
      (List.subset_append_right _ _) },
    fun p hp => ?_⟩
  refine (h.settled p hp).mono (List.Subset.refl _) (fun a ha => .inr (.inr ?_))
    (List.subset_append_left _ _)
  rw [← (Client.waiter_of_held ha he).1]
  exact List.mem_append_right _ (List.mem_singleton.2 rfl)

theorem Inv.drop (h : c.Inv) (hs : c.step (.drop w) = some c') : c'.Inv := by
  simp only [step] at hs
  split at hs
  · cases hs
    by_cases hturn : w ∈ c.net.placing.map (·.1)
    · obtain ⟨p, hp, rfl⟩ := List.mem_map.1 hturn
      obtain ⟨e, he, rfl⟩ := List.mem_map.1 hp
      rw [if_pos hturn]
      exact h.dropTurn (Option.mem_toList.1 he)
    · rw [if_neg hturn]
      have hkeep : c.net.client.entering.filter (fun e => e.waiter != w) =
          c.net.client.entering := by
        cases he : c.net.client.entering with
        | none => rfl
        | some e =>
          have hne : e.waiter ≠ w := by
            rintro rfl
            refine hturn ?_
            unfold Network.placing
            rw [he]
            exact List.mem_singleton.2 rfl
          rw [Option.filter_some, if_pos (bne_iff_ne.2 hne)]
      have habandon : c.net.client.abandon w =
          { c.net.client with waiting := c.net.client.waiting.filter fun p => p.1 != w } := by
        unfold Client.abandon
        rw [hkeep]
      obtain ⟨bs, hl⟩ := h.lined
      rw [habandon]
      refine ⟨⟨bs, hl.leave List.filter_sublist⟩, h.attuned, { h.told with
        strays := List.Subset.trans h.told.strays (List.subset_append_left _ _) }, fun p hp => ?_⟩
      exact (h.settled p hp).mono (List.Subset.refl _) (fun a ha => .inr (.inl ⟨a, ha⟩))
        (List.subset_append_left _ _)
  · cases hs

theorem inv_run {backoff : Backoff} {acts : List Act} (h : (start backoff).run acts = some c) :
    c.Inv := by
  refine Runs.invariant (fun _ a _ _ hc hs => ?_) h (inv_start backoff)
  cases a with
  | go => exact hc.go hs
  | drop => exact hc.drop hs

/-- Calls that are not dropped are left alone exactly when none of those that returned in
time, or timed out after their answers, had its turn after a call of its kind that was
dropped in its own turn. -/
theorem undisturbed_iff {backoff : Backoff} {acts : List Act}
    (h : (start backoff).run acts = some c) :
    c.Undisturbed ↔ ∀ k, ∀ w ∈ callsOf k c.net.calls, w ∉ c.dropped →
      (∃ a, (w, a) ∈ c.net.returned ∧ a.inTime = true) ∨ w ∈ c.overdue →
      ∀ s ∈ c.earlier k w, s ∉ c.strays := by
  have hinv := inv_run h
  obtain ⟨bs, hl⟩ := hinv.lined
  obtain ⟨now, -, hheard⟩ := hinv.attuned
  -- A call has one kind, whether it is seen among the calls or among the turns.
  have hkind : ∀ {k k' w}, w ∈ callsOf k c.net.calls → w ∈ callsOf k' c.turns → k = k' :=
    fun hw hw' => hl.kind_eq hw (callsOf_subset hl.turns_subset _ hw')
  constructor
  · rintro hund k w hw hd (⟨a, ha, htime⟩ | hlate) s hs
    · -- Its own acknowledgement resolved it, so its waiter was bound to its own request.
      obtain ⟨b, hb, rfl, hown⟩ := hheard.binding _ ((hund k w hw hd).1 a ha htime).1
      obtain ⟨k', hk'⟩ := (hl.bound b).1 hb
      obtain rfl := hkind hw (hl.mem_callsOf_waiter hk')
      exact (hl.call_eq_iff hk' fun hmem => hd (hinv.told.strays hmem)).1 hown s hs
    · exact absurd hlate (hund k w hw hd).2
  · intro hclear k w hw hd
    refine ⟨fun a ha htime => ?_, fun hlate => ?_⟩
    · rcases hinv.told.reason w a (.inl ha) with ⟨r, hr, hnone⟩ | hlost | ⟨b, hb, rfl, hres, hout⟩
      · obtain ⟨r', hr', hk⟩ := exists_of_mem_callsOf hw
        rw [hl.request_eq hr hr', hk] at hnone
        cases hnone
      · rw [hlost] at htime
        cases htime
      · obtain ⟨k', hk'⟩ := (hl.bound b).1 hb
        obtain rfl := hkind hw (hl.mem_callsOf_waiter hk')
        have hown : b.call = b.waiter :=
          (hl.call_eq_iff hk' fun hmem => hd (hinv.told.strays hmem)).2
            (hclear k b.waiter hw hd (.inl ⟨a, ha, htime⟩))
        rw [hown] at hres hout
        exact ⟨hres, hout⟩
    · obtain ⟨k', hk', s, hs, hstray⟩ := hinv.told.overdue w hlate
      obtain rfl := hkind hw hk'
      exact hclear k w hw hd (.inr hlate) s hs hstray

/-- A call is dropped while its subscription waits for the acknowledgement, and the next
one is refused by the broker. -/
theorem undisturbed_refusal : ∃ c,
    (start .default).run [.go (.call 0 (.subscribe "a" .atMostOnce)), .go .turn, .go .place,
      .drop 0, .go (.call 1 (.subscribe "b" .atMostOnce)), .go .turn, .go .place,
      .go (.connect false), .go .handle, .go (.send 1), .go .handle, .go (.send 2), .go .handle,
      .go (.answer 1 [.granted .atMostOnce]), .go .handle, .go (.answer 2 [.refused]),
      .go .handle] = some c ∧
    (1, EventLoop.subscribeAnswer 2 false) ∈ c.net.returned ∧ c.Undisturbed := by
  obtain ⟨c, hrun, hret, hstrays⟩ : ∃ c,
      (start .default).run [.go (.call 0 (.subscribe "a" .atMostOnce)), .go .turn, .go .place,
        .drop 0, .go (.call 1 (.subscribe "b" .atMostOnce)), .go .turn, .go .place,
        .go (.connect false), .go .handle, .go (.send 1), .go .handle, .go (.send 2), .go .handle,
        .go (.answer 1 [.granted .atMostOnce]), .go .handle, .go (.answer 2 [.refused]),
        .go .handle] = some c ∧
      c.net.returned = [(0, .ok ()), (1, EventLoop.subscribeAnswer 2 false)] ∧
      c.strays = [] := ⟨_, rfl, rfl, rfl⟩
  refine ⟨c, hrun, hret ▸ List.mem_cons_of_mem _ List.mem_cons_self,
    (undisturbed_iff hrun).2 fun k w hw hd hdone s hs => ?_⟩
  rw [hstrays]
  exact List.not_mem_nil

def filling : List Act :=
  (List.range Client.queueCapacity).flatMap fun w =>
    [.go (.call w (.subscribe "a" .atMostOnce)), .go .turn, .go .place]

def draining : List Act :=
  (List.range (Client.queueCapacity - 1)).flatMap fun w =>
    [.go (.send (.ofNat (w + 2))), .go .handle]

/-- A call is dropped while it waits for room in the full queue, the subscription of the
next one is refused, and that of a third one is granted. -/
def crowding : List Act :=
  filling ++
    ([.go (.call 10 (.subscribe "b" .atMostOnce)), .go .turn, .drop 10,
      .go (.call 11 (.subscribe "c" .atMostOnce)), .go .turn, .go (.connect false), .go .handle,
      .go (.send 1), .go .handle, .go .place] : List Act) ++ draining ++
    ([.go (.send 11), .go .handle, .go (.answer 11 [.refused]), .go .handle,
      .go (.call 12 (.subscribe "d" .atMostOnce)), .go .turn, .go .place, .go (.send 12),
      .go .handle, .go (.answer 12 [.granted .atMostOnce]), .go .handle,
      .go (.timeOut 12 (.ofMillis 10))] : List Act)

/-- The call that is refused returns with the grant of the third one, which times out. -/
theorem disturbed_after_drop : ∃ c,
    (start .default).run crowding = some c ∧ c.dropped = [10] ∧
    c.net.returned = [(10, EventLoop.subscribeAnswer 11 false), (11, .ok ()),
      (12, .error (.ackTimeout "subscribe" (.ofMillis 10)))] ∧
    c.outcomes = [(11, EventLoop.subscribeAnswer 11 false), (12, .ok ())] ∧
    c.overdue = [12] ∧ ¬ c.Undisturbed := by
  obtain ⟨c, hrun, hcalls, hdropped, hreturned, houtcomes, hoverdue⟩ : ∃ c,
      (start .default).run crowding = some c ∧
      callsOf .subscribe c.net.calls = List.range 13 ∧ c.dropped = [10] ∧
      c.net.returned = [(10, EventLoop.subscribeAnswer 11 false), (11, .ok ()),
        (12, .error (.ackTimeout "subscribe" (.ofMillis 10)))] ∧
      c.outcomes = [(11, EventLoop.subscribeAnswer 11 false), (12, .ok ())] ∧
      c.overdue = [12] := ⟨_, rfl, rfl, rfl, rfl, rfl, rfl⟩
  refine ⟨c, hrun, hdropped, hreturned, houtcomes, hoverdue, fun h => ?_⟩
  have hcall : 11 ∈ callsOf .subscribe c.net.calls := by
    rw [hcalls]
    decide
  have hkept : 11 ∉ c.dropped := by
    rw [hdropped]
    decide
  have hok : (11, .ok ()) ∈ c.net.returned := by
    rw [hreturned]
    exact List.mem_cons_of_mem _ List.mem_cons_self
  have hown := ((h .subscribe 11 hcall hkept).1 _ hok rfl).2
  rw [houtcomes] at hown
  rcases List.mem_cons.1 hown with heq | hrest
  · cases (Prod.mk.inj heq).2
  · exact absurd (congrArg Prod.fst (List.mem_singleton.1 hrest)) (by decide)

end LoraBridge.Transport.Crowd
