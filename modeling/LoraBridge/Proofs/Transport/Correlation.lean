import LoraBridge.Proofs.Transport.Outlook
import LoraBridge.Proofs.Transport.Standing

/-! Which acknowledgement lets a call return. Calls get the acknowledgements of their own
requests as long as no request has lost its waiter; a request that goes out without its
waiter takes the one of a later call. -/
namespace LoraBridge.Transport.Network

/-- Who returns well was acknowledged, and returned because the broker accepted the
call's own request, unless there is nothing to acknowledge. -/
def Correlated (n : Network) : Prop :=
  ∀ w r, (w, r) ∈ n.calls → r.ackKind? ≠ none → (w, .ok ()) ∈ n.returned →
    (w, w) ∈ n.resolved ∧ w ∈ n.accepted ∧ ∀ c, (w, c) ∈ n.resolved → c = w

/-- A reason for a call to return well: its request needs no acknowledgement, or the
broker accepted the request to which the waiter of the call was bound. -/
def Justified (n : Network) (w : Waiter) : Prop :=
  (∃ r, (w, r) ∈ n.calls ∧ r.ackKind? = none) ∨
    ∃ b ∈ n.bound, b.waiter = w ∧ (w, b.call) ∈ n.resolved ∧ b.call ∈ n.accepted

/-- What the logs of a network say of each other. -/
structure Sound (n : Network) : Prop where
  unanswered : ∀ o ∈ n.unanswered, o.request.ackKind? ≠ none
  answered : ∀ id w r grants, .answered id w r grants ∈ n.notices →
    r.ackKind? ≠ none ∧ (r.acceptedBy grants = true → w ∈ n.accepted)
  resolved : ∀ p ∈ n.resolved, ∃ b ∈ n.bound, b.waiter = p.1 ∧ b.call = p.2
  justified : ∀ w, (w, .ok ()) ∈ n.returned ∨ n.client.held = some (w, .ok ()) → n.Justified w

def marks (n : Network) : List Mark := n.notices.filterMap Noticed.mark?

/-- The answers that the broker has still to give. -/
def outlook (n : Network) : List Mark := n.unanswered.map Unanswered.mark

structure Inv (n : Network) : Prop where
  aligned : Aligned n.calls n.client.waiting n.ahead n.client.acks.queued n.bound
  tracked : Tracked n.marks n.outlook n.client.acks.inFlight n.bound
  sound : n.Sound

theorem inv_start (backoff : Backoff) : (start backoff).Inv where
  aligned := by
    have hq : (start backoff).client.acks.queued = fun _ => [] := funext Acks.queued_empty
    rw [hq]
    exact Aligned.start
  tracked := ⟨trivial, fun _ h => absurd h List.not_mem_nil⟩
  sound := {
    unanswered := fun _ h => absurd h List.not_mem_nil
    answered := fun _ _ _ _ h => absurd h List.not_mem_nil
    resolved := fun _ h => absurd h List.not_mem_nil
    justified := fun _ h => by rcases h with h | h <;> cases h }

variable {n : Network}

theorem Justified.mono {m : Network} {w : Waiter} (h : n.Justified w) (hc : n.calls ⊆ m.calls)
    (hb : n.bound ⊆ m.bound) (hr : n.resolved ⊆ m.resolved) (ha : n.accepted ⊆ m.accepted) :
    m.Justified w := by
  rcases h with ⟨r, hmem, hk⟩ | ⟨b, hmem, hw, hres, hacc⟩
  · exact .inl ⟨r, hc hmem, hk⟩
  · exact .inr ⟨b, hb hmem, hw, hr hres, ha hacc⟩

theorem Sound.record {answers : List (Waiter × Answer)} (h : n.Sound)
    (hj : ∀ w, (w, .ok ()) ∈ answers → n.Justified w) : (n.record answers).Sound where
  unanswered := h.unanswered
  answered := h.answered
  resolved := h.resolved
  justified w hw := by
    rcases hw with hw | hw
    · rcases mem_of_record hw with hw | hw
      · exact h.justified w (.inl hw)
      · exact hj w hw
    · exact h.justified w (.inr hw)

theorem Inv.record {answers : List (Waiter × Answer)} (h : n.Inv)
    (hj : ∀ w, (w, .ok ()) ∈ answers → n.Justified w) : (n.record answers).Inv where
  aligned := h.aligned
  tracked := h.tracked
  sound := h.sound.record hj

theorem Inv.resolve {change : Acks → Acks × List (Waiter × Answer)}
    (ha : Aligned n.calls n.client.waiting n.ahead (change n.client.acks).1.queued n.bound)
    (ht : Tracked n.marks n.outlook (change n.client.acks).1.inFlight n.bound) (hs : n.Sound)
    (hj : ∀ w, (w, .ok ()) ∈ (change n.client.acks).2 → n.Justified w) :
    (n.resolve change).Inv where
  aligned := by
    rw [acks_resolve, waiting_resolve, ahead_resolve]
    exact ha
  tracked := by
    rw [acks_resolve]
    exact ht
  sound := {
    unanswered := hs.unanswered
    answered := hs.answered
    resolved := hs.resolved
    justified := fun w hw => by
      rcases mem_of_resolve hw with hw | hw
      · exact hs.justified w hw
      · exact hj w hw }

theorem Inv.stands (h : n.Inv) :
    n.Stands (n.notices.filterMap Noticed.sent?) n.bound fun w =>
      ∃ b ∈ n.bound, b.waiter = w ∧ (w, b.call) ∈ n.resolved ∧ b.call ∈ n.accepted :=
  ⟨h.aligned, h.sound.justified⟩

theorem Inv.keep {m : Network} (h : n.Inv) (hnotices : m.notices = n.notices)
    (hunanswered : m.unanswered = n.unanswered) (hresolved : m.resolved = n.resolved)
    (haccepted : m.accepted = n.accepted) (hbound : m.bound = n.bound)
    (hs : m.Stands (n.notices.filterMap Noticed.sent?) n.bound fun w =>
      ∃ b ∈ n.bound, b.waiter = w ∧ (w, b.call) ∈ n.resolved ∧ b.call ∈ n.accepted)
    (hf : m.client.acks.inFlight = n.client.acks.inFlight) : m.Inv where
  aligned := by
    rw [← hnotices, ← hbound] at hs
    exact hs.line
  tracked := by
    unfold marks outlook
    rw [hnotices, hunanswered, hbound, hf]
    exact h.tracked
  sound := {
    unanswered := hunanswered ▸ h.sound.unanswered
    answered := by
      rw [hnotices, haccepted]
      exact h.sound.answered
    resolved := by
      rw [hresolved, hbound]
      exact h.sound.resolved
    justified := by
      unfold Justified
      rw [hbound, hresolved, haccepted]
      exact hs.reasoned }

theorem Inv.failAll (h : n.Inv) : (n.resolve Acks.failAll).Inv := by
  have hstands := h.stands.failAll (m := n) rfl rfl rfl rfl (List.Sublist.refl _)
    (List.Sublist.refl _)
  refine ⟨hstands.line, ⟨h.tracked.paired, fun f hf => ?_⟩,
    { h.sound with justified := hstands.reasoned }⟩
  have hacks : (n.resolve Acks.failAll).client.acks = Acks.empty := acks_resolve _ _
  rw [hacks] at hf
  cases hf

/-- A loss of the connection fails every waiter, and leaves some requests that were not
taken. -/
theorem Inv.lost {c : Client} (h : n.Inv) (hw : c.waiting = n.client.waiting)
    (he : c.entering = n.client.entering) (hq : c.queue.Sublist n.client.queue) :
    ((n.disconnect.setClient c).resolve Acks.failAll).Inv := by
  have hstands := h.stands.failAll (m := n.disconnect.setClient c) rfl rfl hw he hq
    (List.nil_sublist _)
  have hacks : ((n.disconnect.setClient c).resolve Acks.failAll).client.acks = Acks.empty :=
    acks_resolve _ _
  refine ⟨hstands.line, ⟨trivial, fun f hf => ?_⟩, ?_⟩
  · rw [hacks] at hf
    cases hf
  · exact {
      unanswered := fun _ hm => absurd hm List.not_mem_nil
      answered := fun _ _ _ _ hm => absurd hm List.not_mem_nil
      resolved := h.sound.resolved
      justified := hstands.reasoned }

theorem Inv.halt (h : n.Inv) : n.halt.Inv :=
  Inv.lost (c := { n.client with running := false, queue := [] }) h rfl rfl
    (List.nil_sublist _)

theorem Inv.setFailures (h : n.Inv) (failures : UInt32) :
    Inv { n with loop := { n.loop with failures } } :=
  ⟨h.aligned, h.tracked,
    ⟨h.sound.unanswered, h.sound.answered, h.sound.resolved, h.sound.justified⟩⟩

theorem Inv.follow_failed {reason : String} (h : (n.resolve Acks.failAll).Inv) :
    (n.follow (.failed reason)).Inv := by
  obtain ⟨failures, heq⟩ := Network.follow_failed n reason
  rw [heq]
  exact h.setFailures failures

theorem ahead_of_entering {e : Entering} (he : n.client.entering = some e) :
    n.ahead = n.notices.filterMap Noticed.sent? ++ n.client.queue ++ [(e.waiter, e.request)] := by
  rw [ahead, placing_of_entering he]

theorem Inv.caller {a : Act} {n' : Network} (h : n.Inv) (ha : a.ofCaller = true)
    (hs : n.step a = some n') : n'.Inv := by
  obtain ⟨hstands, hflights⟩ := h.stands.caller ha hs
  cases a with
  | call w r =>
    simp only [step] at hs
    split at hs
    · cases hs
    cases hs
    exact h.keep rfl rfl rfl rfl rfl hstands hflights
  | turn | place =>
    cases hs
    exact h.keep rfl rfl rfl rfl rfl hstands hflights
  | timeOut w time =>
    simp only [step] at hs
    split at hs
    · cases hs
    split at hs
    · cases hs
    split at hs
    · cases hs
    cases hs
    exact h.keep rfl rfl rfl rfl rfl hstands hflights
  | send | answer | message | handle | connect | fail | lose | halt | shut => cases ha

theorem Inv.send {n' : Network} {id : Mqtt.PacketId} (h : n.Inv)
    (hs : n.step (.send id) = some n') : n'.Inv := by
  simp only [step] at hs
  split at hs
  · cases hs
  next hfree =>
  split at hs
  · cases hs
  next w r rest hq =>
  have hahead : (n.notices ++ [Noticed.sent id w r]).filterMap Noticed.sent? ++ rest ++ n.placing =
      n.ahead := by
    unfold ahead
    rw [hq, List.filterMap_append, List.append_assoc (n.notices.filterMap Noticed.sent?)]
    rfl
  have ha := h.aligned
  have ht := h.tracked
  rw [← hahead] at ha
  have hanswered : ∀ id' w' r' grants,
      .answered id' w' r' grants ∈ n.notices ++ [.sent id w r] →
      r'.ackKind? ≠ none ∧ (r'.acceptedBy grants = true → w' ∈ n.accepted) := by
    intro id' w' r' grants hm
    rcases List.mem_append.1 hm with hm | hm
    · exact h.sound.answered _ _ _ _ hm
    · cases List.mem_singleton.1 hm
  cases hk : r.ackKind? with
  | none =>
    simp only [hk, Option.some.injEq] at hs
    subst hs
    refine ⟨ha, ?_, { h.sound with answered := hanswered }⟩
    · have hmarks : (n.notices ++ [Noticed.sent id w r]).filterMap Noticed.mark? = n.marks := by
        rw [List.filterMap_append, List.filterMap_cons_none (mark?_sent_of_none hk id w)]
        exact List.append_nil _
      rw [← hmarks] at ht
      exact ht
  | some k =>
    simp only [hk, Option.some.injEq] at hs
    subst hs
    have hids : ∀ m ∈ n.outlook, m.id ≠ id := by
      intro m hm heq
      obtain ⟨o, ho, rfl⟩ := List.mem_map.1 hm
      refine hfree ?_
      rw [Bool.or_eq_true, List.any_eq_true]
      exact .inr ⟨o, ho, beq_iff_eq.2 heq⟩
    refine ⟨ha, ?_, { h.sound with unanswered := fun o ho => ?_, answered := hanswered }⟩
    · have hmarks : (n.notices ++ [Noticed.sent id w r]).filterMap Noticed.mark? =
          n.marks ++ [⟨id, w, false⟩] := by
        rw [List.filterMap_append, List.filterMap_cons_some (mark?_sent_of_some hk id w)]
        rfl
      have houtlook : (n.unanswered ++ [Unanswered.mk id w r]).map Unanswered.mark =
          n.outlook ++ [⟨id, w, true⟩] := List.map_append
      have hpush := ht.push (continues_sent w hids) fun _ => by
        rw [next_append, next_eq_none hids, Option.none_or, next_cons, if_pos rfl]
      rw [← hmarks, ← houtlook] at hpush
      exact hpush
    · rcases List.mem_append.1 ho with ho | ho
      · exact h.sound.unanswered o ho
      · rw [List.mem_singleton.1 ho, hk]
        exact Option.some_ne_none k

theorem Inv.answer {n' : Network} {id : Mqtt.PacketId} {grants : List Mqtt.Grant} (h : n.Inv)
    (hs : n.step (.answer id grants) = some n') : n'.Inv := by
  simp only [step] at hs
  split at hs
  · cases hs
  next o ho =>
  split at hs
  · cases hs
  cases hs
  have hmem := List.mem_of_find?_eq_some ho
  have haccepted : n.accepted ⊆
      if o.request.acceptedBy grants then n.accepted ++ [o.call] else n.accepted := by
    split
    · exact List.subset_append_left _ _
    · exact List.Subset.refl _
  refine ⟨?_, ?_, ?_⟩
  · have hahead : (n.notices ++ [Noticed.answered id o.call o.request grants]).filterMap
        Noticed.sent? ++ n.client.queue ++ n.placing = n.ahead := by
      rw [List.filterMap_append]
      exact congrArg (· ++ n.client.queue ++ n.placing) (List.append_nil _)
    have ha := h.aligned
    rw [← hahead] at ha
    exact ha
  · have hid : o.id = id := by
      have := List.find?_some ho
      rwa [beq_iff_eq] at this
    have hnext : next n.outlook id = some o.mark := by
      unfold next outlook
      rw [List.find?_map]
      exact congrArg (Option.map Unanswered.mark) ho
    have hmarks : (n.notices ++ [Noticed.answered id o.call o.request grants]).filterMap
        Noticed.mark? = n.marks ++ [o.mark] := by
      rw [List.filterMap_append, ← hid]
      rfl
    have houtlook : (n.unanswered.filter fun o => o.id != id).map Unanswered.mark =
        n.outlook.filter fun m => m.id != id := by
      unfold outlook
      rw [List.filter_map]
      rfl
    have hpush := h.tracked.push (continues_answered hnext) fun hopen =>
      absurd hopen.symm Bool.false_ne_true
    rw [← hmarks, ← houtlook] at hpush
    exact hpush
  · exact {
      unanswered := fun o' ho' => h.sound.unanswered o' (List.mem_filter.1 ho').1
      answered := fun id' w' r' grants' hm => by
        rcases List.mem_append.1 hm with hm | hm
        · obtain ⟨hk, hacc⟩ := h.sound.answered _ _ _ _ hm
          exact ⟨hk, fun hg => haccepted (hacc hg)⟩
        · cases List.mem_singleton.1 hm
          refine ⟨h.sound.unanswered o hmem, fun hg => ?_⟩
          simp only [hg, ↓reduceIte, List.mem_append, List.mem_singleton, or_true]
      resolved := h.sound.resolved
      justified := fun w hw => (h.sound.justified w hw).mono (List.Subset.refl _)
        (List.Subset.refl _) (List.Subset.refl _) haccepted }

theorem Inv.setNotices {xs : List Noticed} {connected : Bool} (h : n.Inv)
    (hsent : xs.filterMap Noticed.sent? = n.notices.filterMap Noticed.sent?)
    (hmark : xs.filterMap Noticed.mark? = n.marks)
    (hxs : ∀ x ∈ xs, x.mark? ≠ none → x ∈ n.notices) :
    Inv { n with notices := xs, connected } where
  aligned := by
    have hahead : Network.ahead { n with notices := xs, connected } = n.ahead :=
      congrArg (· ++ n.client.queue ++ n.placing) hsent
    rw [hahead]
    exact h.aligned
  tracked := by
    have ht := h.tracked
    rw [← hmark] at ht
    exact ht
  sound := { h.sound with
    answered := fun _ _ _ _ hm => h.sound.answered _ _ _ _ (hxs _ hm nofun) }

theorem Inv.push {x : Noticed} {connected : Bool} (h : n.Inv) (hsent : x.sent? = none)
    (hmark : x.mark? = none) : Inv { n with notices := n.notices ++ [x], connected } := by
  refine h.setNotices ?_ ?_ fun y hy hne => ?_
  · rw [List.filterMap_append, List.filterMap_cons_none hsent]
    exact List.append_nil _
  · rw [List.filterMap_append, List.filterMap_cons_none hmark]
    exact List.append_nil _
  · rcases List.mem_append.1 hy with hy | hy
    · exact hy
    · rw [List.mem_singleton.1 hy] at hne
      exact absurd hmark hne

theorem Inv.pop {x : Noticed} {rest : List Noticed} (h : n.Inv) (hx : n.notices = x :: rest)
    (hsent : x.sent? = none) (hmark : x.mark? = none) : Inv { n with notices := rest } := by
  refine h.setNotices ?_ ?_ fun y hy _ => hx ▸ List.mem_cons_of_mem _ hy
  · rw [hx, List.filterMap_cons_none hsent]
  · unfold marks
    rw [hx, List.filterMap_cons_none hmark]

theorem Inv.pop_unacknowledged {id : Mqtt.PacketId} {w : Waiter} {r : Request}
    {rest : List Noticed} (h : n.Inv) (hx : n.notices = .sent id w r :: rest)
    (hk : r.ackKind? = none) : Inv { n with notices := rest } where
  aligned := by
    have ha := h.aligned
    have hahead : n.ahead =
        (w, r) :: (rest.filterMap Noticed.sent? ++ n.client.queue ++ n.placing) := by
      unfold ahead
      rw [hx]
      rfl
    rw [hahead] at ha
    refine ha.bind (fun k => ?_) (.inl rfl)
    rw [hk]
    rfl
  tracked := by
    have hmarks : n.marks = rest.filterMap Noticed.mark? := by
      unfold marks
      rw [hx, List.filterMap_cons_none (mark?_sent_of_none hk id w)]
    have ht := h.tracked
    rw [hmarks] at ht
    exact ht
  sound := { h.sound with
    answered := fun _ _ _ _ hm => h.sound.answered _ _ _ _ (hx ▸ List.mem_cons_of_mem _ hm) }

theorem Inv.handle_sent {id : Mqtt.PacketId} {w : Waiter} {r : Request} {k : AckKind}
    {rest : List Noticed} (h : n.Inv) (hx : n.notices = .sent id w r :: rest)
    (hk : r.ackKind? = some k) :
    (Network.resolve { n.note (.sent id w r) with notices := rest } (·.sent k id)).Inv := by
  have hahead : n.ahead =
      (w, r) :: (rest.filterMap Noticed.sent? ++ n.client.queue ++ n.placing) := by
    unfold ahead
    rw [hx]
    rfl
  have hmarks : n.marks = ⟨id, w, false⟩ :: rest.filterMap Noticed.mark? := by
    unfold marks
    rw [hx, List.filterMap_cons_some (mark?_sent_of_some hk id w)]
  have hqueued : ∀ k', (n.client.acks.sent k id).1.queued k' =
      if r.ackKind? = some k' then (n.client.acks.queued k').tail else n.client.acks.queued k' := by
    intro k'
    rw [Acks.queued_sent]
    simp only [hk, Option.some.injEq, eq_comm]
  have hanswered : ∀ id' w' r' grants, .answered id' w' r' grants ∈ rest →
      r'.ackKind? ≠ none ∧ (r'.acceptedBy grants = true → w' ∈ n.accepted) :=
    fun _ _ _ _ hm => h.sound.answered _ _ _ _ (hx ▸ List.mem_cons_of_mem _ hm)
  have ha := h.aligned
  have ht := h.tracked
  rw [hahead] at ha
  rw [hmarks] at ht
  cases hq : n.client.acks.queued k with
  | nil =>
    have hnote : n.note (.sent id w r) = n := by
      simp only [note, hk, hq]
    rw [hnote]
    refine Inv.resolve (ha.bind hqueued (.inl rfl)) ?_ { h.sound with answered := hanswered }
      fun v hv => absurd rfl (Acks.error_of_mem_sent hv)
    have hacks : (n.client.acks.sent k id).1 = n.client.acks := by
      rw [Acks.sent_of_nil hq]
    rw [show (Network.client { n with notices := rest }) = n.client from rfl, hacks]
    exact ht.pop_sent rfl
  | cons v ws =>
    have hnote : n.note (.sent id w r) =
        { n with bound := n.bound ++ [⟨v, w, n.surplus k⟩] } := by
      simp only [note, hk, hq]
    have hbound : n.bound ⊆ n.bound ++ [⟨v, w, n.surplus k⟩] := List.subset_append_left _ _
    rw [hnote]
    refine Inv.resolve (ha.bind hqueued (.inr ⟨k, v, ws, hk, hq, ?_⟩)) ?_ ?_
      fun v hv => absurd rfl (Acks.error_of_mem_sent hv)
    · rw [← hahead]
      rfl
    · have hbind := ht.bind rfl k v (n.surplus k)
      rw [← Acks.inFlight_sent_of_cons hq] at hbind
      exact hbind
    · exact {
        unanswered := h.sound.unanswered
        answered := hanswered
        resolved := fun p hp => by
          obtain ⟨b, hb, heq⟩ := h.sound.resolved p hp
          exact ⟨b, hbound hb, heq⟩
        justified := fun u hu => (h.sound.justified u hu).mono (List.Subset.refl _) hbound
          (List.Subset.refl _) (List.Subset.refl _) }

theorem Inv.handle_answered {id : Mqtt.PacketId} {w : Waiter} {r : Request}
    {grants : List Mqtt.Grant} {rest : List Noticed} {answer : Answer} (h : n.Inv)
    (hx : n.notices = .answered id w r grants :: rest)
    (hanswer : answer = .ok () → r.acceptedBy grants = true) :
    (Network.resolve { n.note (.answered id w r grants) with notices := rest }
      (·.acknowledge id answer)).Inv := by
  have hahead : n.ahead = rest.filterMap Noticed.sent? ++ n.client.queue ++ n.placing := by
    unfold ahead
    rw [hx]
    rfl
  have hmarks : n.marks = ⟨id, w, true⟩ :: rest.filterMap Noticed.mark? := by
    unfold marks
    rw [hx]
    rfl
  have ha := h.aligned
  have ht := h.tracked
  rw [hahead] at ha
  rw [hmarks] at ht
  have hcall : ∀ f ∈ n.client.acks.inFlight.filter fun f => f.id == id,
      ∃ b ∈ n.bound, b.waiter = f.waiter ∧ b.call = w := by
    intro f hf
    obtain ⟨hmem, hid⟩ := List.mem_filter.1 hf
    exact ht.call_eq hmem (eq_of_beq hid)
  have hresolved : n.resolved ⊆ (n.note (.answered id w r grants)).resolved :=
    List.subset_append_left _ _
  refine Inv.resolve ?_ ?_ ?_ fun v hv => ?_
  · have hqueued : (n.client.acks.acknowledge id answer).1.queued = n.client.acks.queued :=
      funext (Acks.queued_acknowledge _ _ _)
    rw [← hqueued] at ha
    exact ha
  · have hpop := ht.pop
    rw [← Acks.inFlight_acknowledge _ _ answer] at hpop
    exact hpop
  · exact {
      unanswered := h.sound.unanswered
      answered := fun _ _ _ _ hm => h.sound.answered _ _ _ _ (hx ▸ List.mem_cons_of_mem _ hm)
      resolved := fun p hp => by
        rcases List.mem_append.1 hp with hp | hp
        · exact h.sound.resolved p hp
        · obtain ⟨f, hf, rfl⟩ := List.mem_map.1 hp
          exact hcall f hf
      justified := fun u hu => (h.sound.justified u hu).mono (List.Subset.refl _)
        (List.Subset.refl _) hresolved (List.Subset.refl _) }
  · have hv' : (v, .ok ()) ∈ (n.client.acks.acknowledge id answer).2 := hv
    rw [Acks.answers_acknowledge] at hv'
    obtain ⟨f, hf, heq⟩ := List.mem_map.1 hv'
    obtain ⟨rfl, rfl⟩ := Prod.mk.inj heq
    obtain ⟨b, hb, hbw, hbc⟩ := hcall f hf
    refine .inr ⟨b, hb, hbw, ?_, ?_⟩
    · rw [hbc]
      exact List.mem_append_right _ (List.mem_map_of_mem hf)
    · rw [hbc]
      exact (h.sound.answered id w r grants (hx ▸ List.mem_cons_self)).2 (hanswer rfl)

theorem Inv.handle {x : Noticed} {rest : List Noticed} (h : n.Inv) (hx : n.notices = x :: rest) :
    (Network.follow { n.note x with notices := rest } (.notice x.notice)).Inv := by
  cases x with
  | sent id w r =>
    cases hk : r.ackKind? with
    | none =>
      have hpop := h.pop_unacknowledged hx hk
      have hnote : n.note (.sent id w r) = n := by
        simp only [note, hk]
      rw [hnote]
      cases r with
      | publish => exact hpop.record fun _ hv => absurd hv List.not_mem_nil
      | disconnect => exact (hpop.record fun _ hv => absurd hv List.not_mem_nil).halt
      | subscribe | subscribeMany | unsubscribe => cases hk
    | some k =>
      rw [follow_sent _ hk]
      exact h.handle_sent hx hk
  | answered id w r grants =>
    have hk := (h.sound.answered id w r grants (hx ▸ List.mem_cons_self)).1
    obtain ⟨answer, hanswer, heq⟩ := follow_answered _ hk id w grants
    rw [heq]
    exact h.handle_answered hx hanswer
  | message topic payload =>
    exact (h.pop hx rfl rfl).record fun _ hv => absurd hv List.not_mem_nil
  | connected sessionPresent =>
    exact ((h.pop hx rfl rfl).setFailures 0).record fun _ hv => absurd hv List.not_mem_nil

theorem inv_step {a : Act} {n' : Network} (h : n.Inv) (hs : n.step a = some n') : n'.Inv := by
  cases a with
  | call | turn | place | timeOut => exact h.caller rfl hs
  | send id => exact h.send hs
  | answer id grants => exact h.answer hs
  | message topic payload =>
    simp only [step] at hs
    split at hs
    · cases hs
      exact h.push rfl rfl
    · cases hs
  | handle =>
    simp only [step] at hs
    split at hs
    · cases hs
    next x rest hx =>
    cases hs
    exact h.handle hx
  | connect sessionPresent =>
    simp only [step] at hs
    split at hs
    · cases hs
    cases hs
    exact h.push rfl rfl
  | fail reason =>
    simp only [step] at hs
    split at hs
    · cases hs
    cases hs
    exact h.failAll.follow_failed
  | lose reason left =>
    simp only [step] at hs
    split at hs
    · next hleft =>
      cases hs
      exact (Inv.lost (c := { n.client with queue := left }) h rfl rfl hleft.2).follow_failed
    · cases hs
  | halt =>
    cases hs
    exact h.halt
  | shut =>
    cases hs
    exact Inv.lost (c := { n.client with shutDown := true, running := false, queue := [] }) h rfl
      rfl (List.nil_sublist _)

theorem inv_run {backoff : Backoff} {acts : List Act} (h : (start backoff).run acts = some n) :
    n.Inv :=
  Runs.invariant (fun _ _ _ _ hn hs => inv_step hn hs) h (inv_start backoff)

/-- Calls return with the acknowledgements of their own requests exactly when no waiter
that returned well was bound while requests without waiters of their own were ahead. -/
theorem correlated_iff {backoff : Backoff} {acts : List Act}
    (h : (start backoff).run acts = some n) :
    n.Correlated ↔ ∀ b ∈ n.bound, (b.waiter, .ok ()) ∈ n.returned → b.surplus = 0 := by
  have hinv := inv_run h
  -- A call that needs an acknowledgement has one reason to return well: its one binding.
  have hreason : ∀ w r, (w, r) ∈ n.calls → r.ackKind? ≠ none → (w, .ok ()) ∈ n.returned →
      ∃ b ∈ n.bound, b.waiter = w ∧ (w, b.call) ∈ n.resolved ∧ b.call ∈ n.accepted := by
    intro w r hr hk hret
    rcases hinv.sound.justified w (.inl hret) with ⟨r', hr', hk'⟩ | hb
    · rw [hinv.aligned.eq_of_call_eq hr hr'] at hk
      exact absurd hk' hk
    · exact hb
  constructor
  · intro hcor b hb hret
    obtain ⟨r, hr, hk⟩ := hinv.aligned.boundKnown b hb
    obtain ⟨c, hc, hw, hres, -⟩ := hreason b.waiter r hr hk hret
    rw [hinv.aligned.eq_of_waiter_eq hc hb hw] at hres
    exact (hinv.aligned.exact b hb).1 ((hcor b.waiter r hr hk hret).2.2 b.call hres)
  · intro hzero w r hr hk hret
    obtain ⟨b, hb, rfl, hres, hacc⟩ := hreason w r hr hk hret
    have hcall : b.call = b.waiter := (hinv.aligned.exact b hb).2 (hzero b hb hret)
    rw [hcall] at hres hacc
    refine ⟨hres, hacc, fun c hc => ?_⟩
    obtain ⟨d, hd, hdw, rfl⟩ := hinv.sound.resolved _ hc
    rw [hinv.aligned.eq_of_waiter_eq hd hb hdw]
    exact hcall

/-- A subscription that is made before there is a connection, and accepted. -/
theorem correlated_subscription : ∃ n,
    (start .default).run [.call 0 (.subscribe "a" .atMostOnce), .turn, .place, .connect false,
      .handle, .send 1, .handle, .answer 1 [.granted .atMostOnce], .handle] = some n ∧
    n.returned = [(0, .ok ())] ∧ n.Correlated := by
  obtain ⟨n, hrun, hret, hbound⟩ : ∃ n,
      (start .default).run [.call 0 (.subscribe "a" .atMostOnce), .turn, .place, .connect false,
        .handle, .send 1, .handle, .answer 1 [.granted .atMostOnce], .handle] = some n ∧
      n.returned = [(0, .ok ())] ∧ n.bound = [⟨0, 0, 0⟩] := ⟨_, rfl, rfl, rfl⟩
  refine ⟨n, hrun, hret, (correlated_iff hrun).2 fun b hb _ => ?_⟩
  rw [hbound] at hb
  rw [List.mem_singleton.1 hb]

/-- A subscription is placed while there is no connection, and the attempt to connect
fails. The next one gets its acknowledgement, and the broker refuses its own request. -/
theorem not_correlated_after_failure : ∃ n,
    (start .default).run [.call 0 (.subscribe "a" .atMostOnce), .turn, .place, .fail "refused",
      .call 1 (.subscribe "b" .atMostOnce), .turn, .place, .connect false, .handle,
      .send 1, .handle, .answer 1 [.granted .atMostOnce], .handle,
      .send 2, .handle, .answer 2 [.refused], .handle] = some n ∧
    n.returned = [(0, .error (.connectionLost "subscribe")), (1, .ok ())] ∧ n.accepted = [0] ∧
    ¬ n.Correlated := by
  refine ⟨_, rfl, rfl, rfl, fun h => ?_⟩
  have hacc := (h 1 (.subscribe "b" .atMostOnce) (List.mem_cons_of_mem _ List.mem_cons_self)
    nofun (List.mem_cons_of_mem _ List.mem_cons_self)).2.1
  exact absurd (List.mem_singleton.1 hacc) (by decide)

end LoraBridge.Transport.Network
