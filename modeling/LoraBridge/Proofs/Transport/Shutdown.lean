import LoraBridge.Proofs.Transport.Answering

/-! How a transport is shut down. A call that disconnects goes through its stages in one order,
whatever the event loop and the other callers do in between; when it returns, nobody is left who
waits. -/
namespace LoraBridge.Transport

def Request.refusal : Request → Answer
  | .disconnect _ => .ok ()
  | .publish .. | .subscribe .. | .subscribeMany _ | .unsubscribe _ => .error .shutdown

namespace Books

variable {b : Books} {l : EventLoop} {w : Waiter} {r : Request} {g : Duration}

theorem Answering.known (h : b.Answering) {p : Waiter × Answer} (hp : p ∈ b.returned) :
    p.1 ∈ b.calls.map (·.1) := by
  rcases h.returned p hp with ⟨r, hr, -⟩ | ⟨-, g, hg⟩
  · exact List.mem_map_of_mem hr
  · exact List.mem_map_of_mem hg

theorem Answering.ok {a : Answer} (h : b.Answering) (hs : b.Standing)
    (hg : (w, .disconnect g) ∈ b.calls) (ha : (w, a) ∈ b.returned) : a = .ok () := by
  rcases h.returned _ ha with ⟨r, hr, hd, -⟩ | ⟨hok, -⟩
  · rw [hs.request_eq hr hg] at hd
    cases hd
  · exact hok

theorem call_of_shutDown (h : b.Answering) (hshut : b.client.shutDown = true)
    (hw : w ∉ b.calls.map (·.1)) : b.call w r =
      { b with calls := b.calls ++ [(w, r)], returned := b.returned ++ [(w, r.refusal)] } := by
  have hbegin : b.client.begin w r = (b.client, [(w, r.refusal)]) := by
    unfold Client.begin
    rw [if_pos hshut]
    cases r <;> rfl
  have hreturned : (b.returned.any fun q => q.1 == w) = false :=
    List.any_eq_false.2 fun q hq heq => hw (eq_of_beq heq ▸ h.known hq)
  have hdropped : b.dropped.contains w = false := by
    simpa using fun hd => hw (h.dropped w hd)
  unfold call record
  rw [hbegin, List.filter_singleton, hreturned, hdropped]
  rfl

theorem moves_acknowledge {packet : Mqtt.Packet} {k : AckKind} {id : Mqtt.PacketId}
    (hk : packet.acknowledged? = some (k, id)) :
    b.Moves ((b.note (.notice (.received packet))).settle
      (b.client.acks.acknowledge id packet.outcome)) := by
  simp only [note, hk]
  refine .settle (b.client.acks.change_acknowledge id packet.outcome) (fun q hq => ?_)
    fun p hp hok => ?_
  · obtain ⟨f, hf, rfl⟩ := List.mem_map.1 hq
    exact List.mem_append_right _ (List.mem_map_of_mem (List.mem_filter.1 hf).1)
  · rw [Acks.answers_acknowledge] at hp
    obtain ⟨f, hf, rfl⟩ := List.mem_map.1 hp
    exact ⟨packet, List.mem_map_of_mem (f := fun f => (f.waiter, packet)) hf, hok⟩

theorem poll_withAcks (hl : l.client = b.client)
    (change : Acks → Acks × List (Waiter × Answer)) :
    b.poll (l.withAcks change) = b.settle (change b.client.acks) := by
  have hall (answers : List (Waiter × Answer)) :
      (EventLoop.resolutions answers).filterMap Action.resolution? = answers := by
    rw [EventLoop.resolutions, List.filterMap_map]
    exact List.filterMap_some
  unfold poll EventLoop.withAcks
  rw [hl, hall]
  rfl

theorem handle_acknowledgement {packet : Mqtt.Packet} {k : AckKind} {id : Mqtt.PacketId}
    (hk : packet.acknowledged? = some (k, id)) :
    l.handle (.notice (.received packet)) = l.withAcks (·.acknowledge id packet.outcome) := by
  cases packet with
  | subAck | unsubAck =>
    cases hk
    rfl
  | connAck | publish | pubAck | pubRec | pubRel | pubComp | pingReq | pingResp | disconnect
  | «foreign» => cases hk

theorem mem_of_lookup (h : b.calls.lookup w = some r) :
    (w, r) ∈ b.calls := by
  obtain ⟨l₁, l₂, heq, -⟩ := List.lookup_eq_some_iff.1 h
  rw [heq]
  exact List.mem_append_right _ (List.mem_cons_self ..)

theorem Standing.lookup_eq (h : b.Standing) (hr : (w, r) ∈ b.calls) :
    b.calls.lookup w = some r := by
  cases hl : b.calls.lookup w with
  | none => exact absurd rfl (bne_iff_ne.1 (List.lookup_eq_none_iff.1 hl _ hr))
  | some r' =>
    rw [h.request_eq (mem_of_lookup hl) hr]

theorem note_eq (b : Books) (p : Polled) : ∃ completed, b.note p = { b with completed } := by
  match p with
  | .failed _ | .notice (.sent _) => exact ⟨_, rfl⟩
  | .notice (.received packet) =>
    cases hk : packet.acknowledged? with
    | none | some q =>
      simp only [note, hk]
      exact ⟨_, rfl⟩

theorem moves_handle (hl : l.client = b.client) (p : Polled) :
    b.Moves ((b.note p).poll (l.handle p)) := by
  have hquiet {out : EventLoop × List Action} (hout : out.1.client = b.client)
      (hnone : out.2.filterMap Action.resolution? = []) : b.Moves (b.poll out) := by
    rw [poll, hnone, record_nil, hout]
    exact .quiet rfl rfl rfl id
  match p with
  | .failed reason =>
    have hfail : b.poll (l.recover reason) = b.poll (l.withAcks Acks.failAll) := by
      unfold poll EventLoop.recover
      rw [List.filterMap_append]
      exact congrArg _ (List.append_nil _)
    show b.Moves (b.poll (l.recover reason))
    rw [hfail, poll_withAcks hl]
    exact b.moves_failAll
  | .notice (.sent x) =>
    cases x with
    | subscribe id | unsubscribe id =>
      show b.Moves (b.poll (l.withAcks _))
      rw [poll_withAcks hl]
      exact moves_settle (b.client.acks.change_sent _ id) fun _ => Acks.error_of_mem_sent
    | publish | pubAck | pubRec | pubRel | pubComp | pingReq | pingResp | awaitAck | disconnect =>
      exact hquiet hl rfl
  | .notice (.received packet) =>
    cases hk : packet.acknowledged? with
    | none =>
      simp only [note, hk]
      cases packet with
      | subAck | unsubAck => cases hk
      | connAck | publish | pubAck | pubRec | pubRel | pubComp | pingReq | pingResp | disconnect
      | «foreign» => exact hquiet hl rfl
    | some q =>
      obtain ⟨k, id⟩ := q
      have hclient : (b.note (.notice (.received packet))).client = b.client := by
        simp only [note, hk]
      rw [handle_acknowledgement hk, poll_withAcks (hl.trans hclient.symm), hclient]
      exact moves_acknowledge hk

end Books

namespace Service

variable {s s' : Service} {w v : Waiter} {p : Parting}

structure Parts (s : Service) (w : Waiter) (p : Parting) : Prop where
  kept : w ∉ s.books.dropped
  shut : p = .stopped → s.client.shutDown = true
  call : ∃ g, (w, .disconnect g) ∈ s.books.calls ∧ ∀ d ∈ p.deadline?, d ≤ s.now + g.nanos

structure Inv (s : Service) : Prop where
  standing : s.books.Standing
  answering : s.books.Answering
  parting : ∀ w p, s.partings w = some p → s.Parts w p
  underway : ∀ w g, (w, .disconnect g) ∈ s.books.calls →
    (w, .ok ()) ∈ s.books.returned ∨ w ∈ s.books.dropped ∨ s.partings w ≠ none

structure Leads (s s' : Service) : Prop where
  moves : s.books.Moves s'.books
  inv : s'.Inv

private theorem inv_start (backoff : Backoff) : (start backoff).Inv where
  standing := Books.standing_start
  answering := Books.answering_start
  parting _ _ h := by cases h
  underway _ _ h := absurd h List.not_mem_nil

theorem Parts.mono (h : s.Parts w p) (hmoves : s.books.Moves s'.books)
    (hdropped : w ∈ s'.books.dropped → w ∈ s.books.dropped) (hnow : s.now ≤ s'.now) :
    s'.Parts w p where
  kept hw := h.kept (hdropped hw)
  shut hp := hmoves.shutDown (h.shut hp)
  call := by
    obtain ⟨g, hg, hd⟩ := h.call
    exact ⟨g, hmoves.extends.calls hg, fun d hp => Nat.le_trans (hd d hp) (by omega)⟩

theorem grace_eq {g : Duration} (h : s.books.Standing) (hg : (w, .disconnect g) ∈ s.books.calls) :
    s.grace w = g.nanos := by
  rw [grace, h.lookup_eq hg]

theorem Inv.keep (h : s.Inv) (hmoves : s.books.Moves s'.books)
    (hcalls : ∀ w g, (w, .disconnect g) ∈ s'.books.calls → (w, .disconnect g) ∈ s.books.calls ∨
      (w, .ok ()) ∈ s'.books.returned ∨ s'.partings w ≠ none)
    (hdropped : s'.books.dropped = s.books.dropped) (hnow : s.now ≤ s'.now)
    (hparts : ∀ w p, s'.partings w = some p → s.partings w = some p ∨ s'.Parts w p)
    (hleft : ∀ w, s'.partings w = none → s.partings w = none) :
    s.Leads s' := by
  refine ⟨hmoves, ⟨hmoves.standing h.standing, hmoves.answering h.standing h.answering,
    fun w p hp => ?_, fun w g hg => ?_⟩⟩
  · rcases hparts w p hp with hp | hp
    · exact (h.parting w p hp).mono hmoves (fun hw => hdropped ▸ hw) hnow
    · exact hp
  · rcases hcalls w g hg with hg | hr | hp
    · rcases h.underway w g hg with hr | hd | hp
      · exact .inl (hmoves.extends.returned hr)
      · exact .inr (.inl (hmoves.extends.dropped hd))
      · exact .inr (.inr fun hnone => hp (hleft w hnone))
    · exact .inl hr
    · exact .inr (.inr hp)

theorem Inv.advance {b : Books} {p q : Parting} (h : s.Inv) (hp : s.partings w = some p)
    (hmoves : s.books.Moves b) (hcalls : b.calls = s.books.calls)
    (hdropped : b.dropped = s.books.dropped) (hshut : q = .stopped → b.client.shutDown = true)
    (hdeadline : ∀ d ∈ q.deadline?, d ≤ s.now + s.grace w) :
    s.Leads ((s.setBooks b).setParting w (some q)) := by
  obtain ⟨hkept, -, g, hg, -⟩ := h.parting w p hp
  rw [grace_eq h.standing hg] at hdeadline
  refine h.keep hmoves (fun _ _ hg => .inl (hcalls ▸ hg)) hdropped (Nat.le_refl _)
    (fun v p' hp' => ?_) fun v hv => ?_
  · rw [partings_setParting] at hp'
    split at hp'
    · next hvw =>
      rw [Option.some.injEq] at hp'
      rw [hvw, ← hp']
      rw [← hcalls] at hg
      exact .inr ⟨fun hw => hkept (hdropped ▸ hw), hshut, g, hg, hdeadline⟩
    · exact .inl hp'
  · rw [partings_setParting] at hv
    split at hv
    · cases hv
    · exact hv

theorem Inv.call {r : Request} (h : s.Inv) (hs : s.step (.call w r) = some s') :
    s.Leads s' := by
  simp only [step] at hs
  split at hs
  · cases hs
  next hw =>
  have hmoves : s.books.Moves (s.books.call w r) := .call hw
  have hcalls {v : Waiter} {g : Duration} (hg : (v, .disconnect g) ∈ (s.books.call w r).calls) :
      (v, .disconnect g) ∈ s.books.calls ∨ v = w ∧ r = .disconnect g := by
    rcases List.mem_append.1 hg with hg | hg
    · exact .inl hg
    · obtain ⟨rfl, rfl⟩ := Prod.mk.inj (List.mem_singleton.1 hg)
      exact .inr ⟨rfl, rfl⟩
  -- The books are the same whatever comes of the call; only who disconnects is on its way.
  have hquiet (hnone : ∀ g, r = .disconnect g → (w, .ok ()) ∈ (s.books.call w r).returned) :
      s.Leads (s.setBooks (s.books.call w r)) := by
    refine h.keep hmoves (fun v g hg => ?_) rfl (Nat.le_refl _) (fun _ _ hp => .inl hp)
      fun _ hv => hv
    rcases hcalls hg with hg | ⟨rfl, hr⟩
    · exact .inl hg
    · exact .inr (.inl (hnone g hr))
  cases r with
  | disconnect g =>
    dsimp only at hs
    split at hs
    · next hshut =>
      cases hs
      refine hquiet fun _ _ => ?_
      rw [Books.call_of_shutDown h.answering hshut hw]
      exact List.mem_append_right _ (List.mem_singleton.2 rfl)
    · cases hs
      refine h.keep hmoves (fun v g' hg => ?_) rfl (Nat.le_refl _) (fun v p hp => ?_) fun v hv => ?_
      · rcases hcalls hg with hg | ⟨rfl, -⟩
        · exact .inl hg
        · exact .inr (.inr (by simp))
      · rw [partings_setParting] at hp
        split at hp
        · next hvw =>
          cases hp
          subst hvw
          exact .inr ⟨fun hd => hw (h.answering.dropped _ hd), nofun, g,
            List.mem_append_right _ (List.mem_singleton.2 rfl),
            fun d hd => Nat.le_of_eq (Option.some.inj hd).symm⟩
        · exact .inl hp
      · rw [partings_setParting] at hv
        split at hv
        · cases hv
        · exact hv
  | publish | subscribe | subscribeMany | unsubscribe =>
    cases hs
    exact hquiet nofun

theorem Inv.drop (h : s.Inv) (hs : s.step (.drop w) = some s') :
    s.Leads s' := by
  simp only [step] at hs
  split at hs
  · next hw =>
    cases hs
    have hmoves : s.books.Moves (s.books.drop w) := .drop hw.1
    refine ⟨hmoves, ⟨hmoves.standing h.standing, hmoves.answering h.standing h.answering,
      fun v p hp => ?_, fun v g hg => ?_⟩⟩
    · rw [partings_setParting] at hp
      split at hp
      · cases hp
      next hvw =>
      refine (h.parting v p hp).mono hmoves (fun hd => ?_) (Nat.le_refl _)
      rcases List.mem_append.1 hd with hd | hd
      · exact hd
      · exact absurd (List.mem_singleton.1 hd) hvw
    · by_cases hvw : v = w
      · exact .inr (.inl (List.mem_append_right _ (List.mem_singleton.2 hvw)))
      · rw [partings_setParting, if_neg hvw]
        exact (h.underway v g hg).imp_right (.imp_left (List.mem_append_left _))
  · cases hs

theorem Inv.conclude (h : s.Inv) (hs : s.step (.conclude w) = some s') :
    s.Leads s' := by
  simp only [step] at hs
  split at hs
  · next hp =>
    cases hs
    obtain ⟨hkept, hshut, g, hg, -⟩ := h.parting w _ hp
    have hmoves := Books.Moves.part hg (hshut rfl)
    have hstanding := hmoves.standing h.standing
    have hanswering := hmoves.answering h.standing h.answering
    refine ⟨hmoves, ⟨hstanding, hanswering, fun v p hp => ?_, fun v g' hg' => ?_⟩⟩
    · rw [partings_setParting] at hp
      split at hp
      · cases hp
      · exact (h.parting v p hp).mono hmoves id (Nat.le_refl _)
    · by_cases hvw : v = w
      · subst hvw
        have htold : v ∈ [(v, (.ok () : Answer))].map Prod.fst := List.mem_singleton.2 rfl
        rcases Books.done_record (b := s.books.settle s.client.acks.failAll) htold with hr | hd
        · obtain ⟨⟨v, a⟩, ha, rfl⟩ := List.mem_map.1 hr
          rw [hanswering.ok hstanding hg ha] at ha
          exact .inl ha
        · exact absurd hd hkept
      · rw [partings_setParting, if_neg hvw]
        exact (h.underway v g' hg').imp_left fun hr => hmoves.extends.returned hr
  · cases hs

theorem Inv.quiet (h : s.Inv) (hmoves : s.books.Moves s'.books)
    (hcalls : s'.books.calls = s.books.calls) (hdropped : s'.books.dropped = s.books.dropped)
    (hnow : s.now ≤ s'.now) (hpartings : s'.partings = s.partings) :
    s.Leads s' :=
  h.keep hmoves (fun _ _ hg => .inl (hcalls ▸ hg)) hdropped hnow
    (fun _ _ hp => .inl (hpartings ▸ hp)) fun _ hw => hpartings ▸ hw

theorem moves_refl : s.books.Moves s.books := .quiet rfl rfl rfl id

theorem Inv.place (h : s.Inv) (hs : s.step .place = some s') : s.Leads s' := by
  simp only [step] at hs
  split at hs
  · cases hs
    exact h.quiet .place rfl rfl (Nat.le_refl _) rfl
  next e he =>
  split at hs
  · cases hs
    exact h.quiet .place rfl rfl (Nat.le_refl _) rfl
  next hparts =>
  obtain ⟨p, hp⟩ : ∃ p, s.partings e.waiter = some p := by
    rw [Bool.or_eq_true, not_or] at hparts
    exact Option.ne_none_iff_exists'.1 fun hnone => hparts.2 (Option.isNone_iff_eq_none.2 hnone)
  split at hs
  · cases hs
    exact h.advance hp .place rfl rfl nofun fun d hd => Nat.le_of_eq (Option.some.inj hd).symm
  · cases hs
    exact h.advance hp .place rfl rfl nofun nofun

theorem Inv.timeOut {time : Duration} (h : s.Inv) (hs : s.step (.timeOut w time) = some s') :
    s.Leads s' := by
  simp only [step] at hs
  split at hs
  · cases hs
  next k hk =>
  split at hs
  · cases hs
  cases hs
  obtain ⟨r, hr, hk⟩ := Option.bind_eq_some_iff.1 hk
  exact h.quiet (.timeOut (Books.mem_of_lookup hr) (hk ▸ Option.some_ne_none k)) rfl rfl
    (Nat.le_refl _) rfl

theorem Inv.take (h : s.Inv) (hs : s.step .take = some s') : s.Leads s' := by
  simp only [step] at hs
  split at hs
  · obtain ⟨⟨r, c⟩, hc, rfl⟩ := Option.map_eq_some_iff.1 hs
    unfold Client.take? at hc
    split at hc
    · cases hc
    · cases hc
      exact h.quiet (.quiet rfl rfl rfl id) rfl rfl (Nat.le_refl _) rfl
  · cases hs

theorem Inv.poll {p : Polled} (h : s.Inv) (hs : s.step (.poll p) = some s') : s.Leads s' := by
  simp only [step] at hs
  split at hs
  · cases hs
    obtain ⟨completed, hnote⟩ := Books.note_eq s.books p
    refine h.quiet (Books.moves_handle rfl p) ?_ ?_ (Nat.le_refl _) rfl
    · rw [hnote]; rfl
    · rw [hnote]; rfl
  · cases hs

theorem Inv.giveUp (h : s.Inv) (hs : s.step (.giveUp w) = some s') : s.Leads s' := by
  simp only [step] at hs
  split at hs
  · next hp =>
    obtain ⟨-, -, g, hg, -⟩ := h.parting w _ hp
    split at hs
    · cases hs
      exact h.advance hp (.giveUp hg) rfl rfl nofun nofun
    · cases hs
  · next hp =>
    split at hs
    · cases hs
      exact h.advance hp moves_refl rfl rfl nofun nofun
    · cases hs
  · cases hs

/-- What a step does to the books, and what it leaves. -/
theorem leads_step {a : Act} (h : s.Inv) (hs : s.step a = some s') :
    s.Leads s' := by
  cases a with
  | call w r => exact h.call hs
  | drop w => exact h.drop hs
  | conclude w => exact h.conclude hs
  | place => exact h.place hs
  | timeOut w time => exact h.timeOut hs
  | take => exact h.take hs
  | poll p => exact h.poll hs
  | giveUp w => exact h.giveUp hs
  | turn =>
    cases hs
    exact h.quiet .turn rfl rfl (Nat.le_refl _) rfl
  | leave =>
    simp only [step] at hs
    split at hs
    · cases hs
      exact h.quiet moves_refl rfl rfl (Nat.le_refl _) rfl
    · cases hs
  | finish =>
    simp only [step] at hs
    split at hs
    · cases hs
      exact h.quiet s.books.moves_failAll rfl rfl (Nat.le_refl _) rfl
    · cases hs
  | vanish =>
    cases hs
    exact h.quiet (.quiet rfl rfl rfl id) rfl rfl (Nat.le_refl _) rfl
  | pass nanos =>
    cases hs
    exact h.quiet moves_refl rfl rfl (Nat.le_add_right _ _) rfl
  | see w =>
    simp only [step] at hs
    split at hs
    · next hp =>
      split at hs
      · cases hs
        exact h.advance hp moves_refl rfl rfl nofun nofun
      · cases hs
    · cases hs
  | shut w =>
    simp only [step] at hs
    split at hs
    · next hp =>
      cases hs
      exact h.advance hp (.quiet rfl rfl rfl fun _ => rfl) rfl rfl (fun _ => rfl) nofun
    · cases hs

private theorem inv_run {as : List Act} (h : s.Inv) (hrun : s.run as = some s') : s'.Inv :=
  Runs.invariant (fun _ _ _ _ h hs => (leads_step h hs).inv) hrun h

/-- Everyone who was registered has an answer, or was dropped. From now on nobody of them returns
well whom no packet has accepted. -/
structure Settled (s : Service) : Prop where
  shut : s.client.shutDown = true
  untracked : s.client.acks = .empty
  done : ∀ v ∈ s.books.registered, s.books.Done v
  accepted : ∀ as s', s.run as = some s' → ∀ v ∈ s.books.registered,
    (v, .ok ()) ∈ s'.books.returned → s.books.Accepted v

/-- A waiter that was registered and is tracked no more was accepted by then, or never is. -/
theorem accepted_of_untracked {as : List Act} (h : s.Inv) (hrun : s.run as = some s')
    (hv : v ∈ s.books.registered) (hnot : v ∉ s.client.acks.waiters)
    (hok : (v, .ok ()) ∈ s'.books.returned) : s.books.Accepted v := by
  obtain ⟨hinv, hregistered, -, hcompleted⟩ := Runs.invariant
    (P := fun t => t.Inv ∧ v ∈ t.books.registered ∧ v ∉ t.client.acks.waiters ∧
      ∀ packet, (v, packet) ∈ t.books.completed → (v, packet) ∈ s.books.completed)
    (fun t a t' _ ht hs => by
      obtain ⟨hinv, hregistered, hnot, hcompleted⟩ := ht
      obtain ⟨hmoves, hinv'⟩ := leads_step hinv hs
      obtain ⟨hnot', hmore⟩ := hmoves.untracked hinv.standing hregistered hnot
      exact ⟨hinv', hmoves.extends.registered hregistered, hnot',
        fun packet hp => hcompleted packet (hmore packet hp)⟩)
    hrun ⟨h, hv, hnot, fun _ hp => hp⟩
  rcases hinv.answering.returned _ hok with ⟨r, hr, -, hacc⟩ | ⟨-, g, hg⟩
  · rcases hacc rfl with hk | ⟨packet, hp, hout⟩
    · exact absurd hk (Books.ackKind_of_registered hinv.standing hregistered hr)
    · exact ⟨packet, hcompleted packet hp, hout⟩
  · exact absurd rfl (Books.ackKind_of_registered hinv.standing hregistered hg)

/-- When a call that disconnects returns, everything is settled. -/
theorem settled_of_returned {a : Act} {g : Duration} (h : s.Inv) (hs : s.step a = some s')
    (hg : (w, .disconnect g) ∈ s.books.calls) (hnot : w ∉ s.books.returned.map (·.1))
    (hw : w ∈ s'.books.returned.map (·.1)) : s'.Settled := by
  obtain ⟨hmoves, hinv⟩ := leads_step h hs
  obtain ⟨p, hp, rfl⟩ := List.mem_map.1 hw
  rcases hmoves.returned_of_disconnect h.standing h.answering hg hp with hp | ⟨hshut, hbooks⟩
  · exact absurd (List.mem_map_of_mem hp) hnot
  have hempty : s'.client.acks = .empty := by
    rw [client, hbooks]
    exact Client.hand_acks _ _
  have huntracked (v : Waiter) : v ∉ s'.client.acks.waiters := by
    rw [hempty]
    exact List.not_mem_nil
  exact ⟨hmoves.shutDown hshut, hempty,
    fun v hv => (hinv.answering.answered v hv).resolve_left (huntracked v),
    fun as t hrun v hv hok => accepted_of_untracked hinv hrun hv (huntracked v) hok⟩

private theorem shutDown_run {as : List Act} (h : s.Inv) (hrun : s.run as = some s')
    (hshut : s.client.shutDown = true) : s'.Inv ∧ s'.client.shutDown = true :=
  Runs.invariant (P := fun t => t.Inv ∧ t.client.shutDown = true)
    (fun _ _ _ _ ht hs => ⟨(leads_step ht.1 hs).inv, (leads_step ht.1 hs).moves.shutDown ht.2⟩)
    hrun ⟨h, hshut⟩

private theorem refused_call {r : Request} (h : s.Inv) (hshut : s.client.shutDown = true)
    (hw : w ∉ s.books.calls.map (·.1)) :
    s.step (.call w r) = some (s.setBooks { s.books with
      calls := s.books.calls ++ [(w, r)]
      returned := s.books.returned ++ [(w, r.refusal)] }) := by
  have hcall := Books.call_of_shutDown (r := r) h.answering hshut hw
  simp only [step, if_neg hw, if_pos hshut, hcall]
  cases r <;> rfl

def Act.ownedBy (w : Waiter) : Act → Bool
  | .giveUp v | .see v | .shut v | .conclude v => v == w
  | .pass _ => true
  | .call .. | .turn | .place | .timeOut .. | .drop _ | .take | .poll _ | .leave | .finish
  | .vanish => false

def Act.nanos : Act → Nat
  | .pass nanos => nanos
  | .call .. | .turn | .place | .timeOut .. | .drop _ | .take | .poll _ | .leave | .finish
  | .vanish | .giveUp _ | .see _ | .shut _ | .conclude _ => 0

def Act.elapsed : List Act → Nat
  | [] => 0
  | a :: as => a.nanos + elapsed as

/-- A call that disconnects can return well within some time, whatever the others do not do. -/
def ReturnsWithin (s : Service) (w : Waiter) (nanos : Nat) : Prop :=
  ∃ as s', s.run as = some s' ∧ (∀ a ∈ as, a.ownedBy w = true) ∧ Act.elapsed as ≤ nanos ∧
    (w, .ok ()) ∈ s'.books.returned

theorem ReturnsWithin.cons {a : Act} {nanos : Nat} (h : s'.ReturnsWithin w nanos)
    (hs : s.step a = some s') (ha : a.ownedBy w = true) :
    s.ReturnsWithin w (a.nanos + nanos) := by
  obtain ⟨as, t, hrun, hown, hwait, hok⟩ := h
  refine ⟨a :: as, t, ?_, List.forall_mem_cons.2 ⟨ha, hown⟩, Nat.add_le_add_left hwait _, hok⟩
  rw [run, Runs.cons, hs]
  exact hrun

theorem returnsWithin_of_stopped (h : s.Inv) (hp : s.partings w = some .stopped) :
    s.ReturnsWithin w 0 := by
  have hs : s.step (.conclude w) = some ((s.setBooks
      ((s.books.settle s.client.acks.failAll).record [(w, .ok ())])).setParting w none) := by
    simp only [step, hp]
  obtain ⟨hkept, -, g, hg, -⟩ := h.parting w _ hp
  have hinv := (leads_step h hs).inv
  refine ⟨[.conclude w], _, by rw [run, Runs.cons, hs]; rfl, by simp [Act.ownedBy], Nat.le_refl _, ?_⟩
  rcases hinv.underway w g hg with hok | hd | hsome
  · exact hok
  · exact absurd hd hkept
  · exact absurd (if_pos rfl) hsome

theorem returnsWithin_of_stopping (h : s.Inv) (hp : s.partings w = some .stopping) :
    s.ReturnsWithin w 0 := by
  have hs : s.step (.shut w) = some ((s.setBooks
      { s.books with client := { s.client with shutDown := true } }).setParting w
        (some .stopped)) := by
    simp only [step, hp]
  exact (returnsWithin_of_stopped (leads_step h hs).inv (if_pos rfl)).cons hs (beq_self_eq_true w)

/-- A call that waits gives up in the end. -/
theorem returnsWithin_of_deadline {d : Nat} (h : s.Inv) (hp : s.partings w = some p)
    (hd : p.deadline? = some d) : s.ReturnsWithin w (d - s.now) := by
  have hpass : s.step (.pass (d - s.now)) = some { s with now := s.now + (d - s.now) } := rfl
  have hdue : d ≤ s.now + (d - s.now) := by omega
  have hinv := (leads_step h hpass).inv
  obtain ⟨t, hgive, hstopping⟩ : ∃ t,
      { s with now := s.now + (d - s.now) }.step (.giveUp w) = some t ∧
        t.partings w = some .stopping := by
    cases p with
    | queueing | flushing =>
      cases hd
      simp only [step, hp, if_pos hdue, Option.some.injEq, exists_eq_left', partings_setParting,
        if_pos]
    | stopping | stopped => cases hd
  have hstop := returnsWithin_of_stopping (leads_step hinv hgive).inv hstopping
  exact (hstop.cons hgive (beq_self_eq_true w)).cons hpass rfl

theorem returnsWithin {g : Duration} (h : s.Inv) (hg : (w, .disconnect g) ∈ s.books.calls)
    (hw : w ∉ s.books.dropped) : s.ReturnsWithin w g.nanos := by
  have hmono {n : Nat} (hn : n ≤ g.nanos) (hr : s.ReturnsWithin w n) :
      s.ReturnsWithin w g.nanos := by
    obtain ⟨as, t, hrun, hown, hwait, hok⟩ := hr
    exact ⟨as, t, hrun, hown, Nat.le_trans hwait hn, hok⟩
  rcases h.underway w g hg with hok | hd | hsome
  · exact ⟨[], s, rfl, nofun, Nat.zero_le _, hok⟩
  · exact absurd hd hw
  obtain ⟨p, hp⟩ := Option.ne_none_iff_exists'.1 hsome
  cases hd : p.deadline? with
  | some d =>
    obtain ⟨-, -, g', hg', hdue⟩ := h.parting w p hp
    have hsame := h.standing.request_eq hg' hg
    rw [Request.disconnect.injEq] at hsame
    have hle := hdue d hd
    rw [hsame] at hle
    exact hmono (by omega) (returnsWithin_of_deadline h hp hd)
  | none =>
    cases p with
    | queueing | flushing => cases hd
    | stopping => exact hmono (Nat.zero_le _) (returnsWithin_of_stopping h hp)
    | stopped => exact hmono (Nat.zero_le _) (returnsWithin_of_stopped h hp)

/-- How a transport is shut down. After the flag is set, a call that begins returns at once, and
nothing else changes. When a call returns that disconnects, unless it had just begun, everything
is settled. A call that disconnects returns well only, and it can return within its grace, whether
its request can be placed and whether the event loop ends or not. -/
structure ShutsDown (s : Service) : Prop where
  refused : s.client.shutDown = true → ∀ as s', s.run as = some s' →
    ∀ w r, w ∉ s'.books.calls.map (·.1) → s'.step (.call w r) = some (s'.setBooks { s'.books with
      calls := s'.books.calls ++ [(w, r)]
      returned := s'.books.returned ++ [(w, r.refusal)] })
  settled : ∀ a s', s.step a = some s' → ∀ w g, (w, .disconnect g) ∈ s.books.calls →
    w ∉ s.books.returned.map (·.1) → w ∈ s'.books.returned.map (·.1) → s'.Settled
  ok : ∀ w g a, (w, .disconnect g) ∈ s.books.calls → (w, a) ∈ s.books.returned → a = .ok ()
  returns : ∀ w g, (w, .disconnect g) ∈ s.books.calls → w ∉ s.books.dropped →
    s.ReturnsWithin w g.nanos

theorem shutsDown {backoff : Backoff} {as : List Act} (hrun : (start backoff).run as = some s) :
    s.ShutsDown := by
  have h := inv_run (inv_start backoff) hrun
  exact {
    refused hshut bs t ht w r hw := by
      obtain ⟨hinv, hflag⟩ := shutDown_run h ht hshut
      exact refused_call hinv hflag hw
    settled a t ht w g hg hnot hw := settled_of_returned h ht hg hnot hw
    ok w g a hg ha := h.answering.ok h.standing hg ha
    returns w g hg hw := returnsWithin h hg hw }

/-- A subscription goes out, and another one and a call that disconnects are placed; the event loop
does not end. Then the call that disconnects gives up, and sets the flag. -/
def closing : List Act :=
  [.call 0 (.subscribe "a" .atMostOnce), .turn, .place, .take,
    .poll (.notice (.sent (.subscribe 1))), .call 1 (.unsubscribe "b"), .turn, .place,
    .call 2 (.disconnect (.ofSeconds 1)), .turn, .place, .pass 1000000000, .giveUp 2, .shut 2]

/-- The call that disconnects returns, and the two waiters have failed. -/
theorem shutsDown_closing : ∃ s s', (start .default).run closing = some s ∧ s.ShutsDown ∧
    s.step (.conclude 2) = some s' ∧ s'.Settled ∧ s'.books.returned =
      [(1, Acks.lost .unsubscribe), (0, Acks.lost .subscribe), (2, .ok ())] := by
  obtain ⟨s, hrun⟩ : ∃ s, (start .default).run closing = some s := ⟨_, rfl⟩
  have h := shutsDown hrun
  obtain ⟨s', hs, hreturned⟩ : ∃ s', s.step (.conclude 2) = some s' ∧ s'.books.returned =
      [(1, Acks.lost .unsubscribe), (0, Acks.lost .subscribe), (2, .ok ())] := by
    cases hrun
    exact ⟨_, rfl, rfl⟩
  refine ⟨s, s', hrun, h, hs, h.settled _ _ hs 2 (.ofSeconds 1) ?_ ?_ ?_, hreturned⟩
  · cases hrun
    decide
  · cases hrun
    decide
  · rw [hreturned]
    decide

end Service

end LoraBridge.Transport
