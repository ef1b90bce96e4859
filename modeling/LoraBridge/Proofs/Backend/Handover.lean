import LoraBridge.Proofs.Backend.Actors

/-! The hand-off of downlink frames. What the receiver got, what is in the queue and what
waits for room are, one after the other, the frames of the messages that were taken up, until
the call that closes returns; then the receiver gets what is left in the queue. The queue is
bounded, and while a frame waits no event is taken up. -/
namespace LoraBridge

open Envelope (DownlinkFrame)

namespace Downlink.Channel

def frames (c : Channel) : List DownlinkFrame :=
  c.buffer ++ c.waiting.map (·.frame)

theorem deliver_eq {c : Channel} (d : Delivery) (hr : c.hasReader = true) (hw : c.waiting = []) :
    c.deliver d = if c.buffer.length < c.capacity then
        (.delivered, { c with buffer := c.buffer ++ [d.frame] })
      else (.waiting, { c with waiting := [d] }) := by
  simp [deliver, hr, hw]

private theorem frames_moveUp (c : Channel) : c.moveUp.frames = c.frames := by
  unfold moveUp frames
  cases hw : c.waiting <;> simp [hw]

private theorem pull_eq {c : Channel} (h : c.hasWriter = false) : c.pull.1 =
    match c.buffer with
    | f :: _ => .frame f
    | [] => .ended := by
  unfold pull
  cases c.buffer <;> simp [h]

end Downlink.Channel

namespace Backend

def frameOf? : Transport.Event → Option DownlinkFrame
  | .message _ payload => (Downlink.decode payload).toOption
  | .connected _ | .connectionLost _ => none

structure Queued (size : Nat) (b : Backend) : Prop where
  reader : b.downlinks.hasReader = true
  capacity : b.downlinks.capacity = size
  room : b.downlinks.buffer.length ≤ size
  single : b.downlinks.waiting.length ≤ 1
  waiting : b.dispatcher ≠ .delivering → b.downlinks.waiting = []
  writer : b.dispatcher = .stopped → b.downlinks.hasWriter = false

variable {size : Nat} {b : Backend}

theorem Queued.frame {b' : Backend} (h : b.Queued size) (hd : b'.dispatcher = b.dispatcher)
    (hc : b'.downlinks = b.downlinks) : b'.Queued size := by
  constructor <;> simp only [hd, hc]
  exacts [h.reader, h.capacity, h.room, h.single, h.waiting, h.writer]

theorem Queued.idle (h : b.Queued size) {state : ConnectionState} {lastError : Option String}
    {dispatcher : Dispatcher} (hd : b.dispatcher = .idle) (hs : dispatcher ≠ .stopped) :
    { b with state, lastError, dispatcher }.Queued size := by
  refine ⟨h.reader, h.capacity, h.room, h.single, ?_, fun hstop => absurd hstop hs⟩
  intro _
  apply h.waiting
  simp [hd]

theorem takeEvent_queued (h : b.Queued size) (hd : b.dispatcher = .idle) (ticket : Nat)
    (e : Transport.Event) :
    (b.takeEvent ticket e).1.Queued size ∧
      (b.takeEvent ticket e).1.downlinks.frames = b.downlinks.frames ++ (frameOf? e).toList := by
  have hw : b.downlinks.waiting = [] := h.waiting (by simp [hd])
  cases e with
  | connected sessionPresent =>
    simp only [takeEvent, frameOf?, Option.toList_none, List.append_nil]
    split
    · exact ⟨h.idle hd (by decide), rfl⟩
    · refine ⟨h.idle hd ?_, rfl⟩
      simp [hd]
  | connectionLost reason =>
    refine ⟨h.idle hd (by decide), ?_⟩
    simp [takeEvent, frameOf?]
  | message topic payload =>
    simp only [takeEvent, frameOf?]
    cases hp : Downlink.decode payload with
    | error e =>
      refine ⟨h, ?_⟩
      simp [Except.toOption]
    | ok frame =>
      simp only [Downlink.Channel.deliver_eq _ h.reader hw]
      by_cases hroom : b.downlinks.buffer.length < b.downlinks.capacity
      · simp only [hroom, ↓reduceIte]
        refine ⟨⟨h.reader, h.capacity, ?_, h.single, fun _ => hw, ?_⟩, ?_⟩
        · have := h.capacity
          simp
          omega
        · simp [hd]
        · simp [Downlink.Channel.frames, Except.toOption, hw]
      · simp only [hroom, ↓reduceIte]
        refine ⟨⟨h.reader, h.capacity, h.room, ?_, ?_, ?_⟩, ?_⟩
        · simp
        · simp
        · simp
        · simp [Downlink.Channel.frames, Except.toOption, hw]

theorem moveUp_queued (h : b.Queued size)
    (hroom : b.downlinks.buffer.length < b.downlinks.capacity) :
    { b with downlinks := b.downlinks.moveUp, dispatcher := .idle }.Queued size := by
  have hcap := h.capacity
  have hsingle := h.single
  unfold Downlink.Channel.moveUp
  cases hw : b.downlinks.waiting with
  | nil => exact ⟨h.reader, h.capacity, h.room, h.single, fun _ => hw, nofun⟩
  | cons d more =>
    have hmore : more = [] := by
      rw [hw] at hsingle
      simpa using hsingle
    refine ⟨h.reader, h.capacity, ?_, ?_, fun _ => hmore, nofun⟩
    · simp
      omega
    · simp [hmore]

namespace Actors

/-- What holds while the receiver is kept. -/
structure Flowing (size : Nat) (s : Actors) : Prop where
  queued : s.backend.Queued size
  complete : s.closing ≠ .ended →
    s.received ++ s.backend.downlinks.frames = s.handled.filterMap frameOf?

variable {s s' : Actors} {topics : Topic.Topics} {options : Options} {acts : List Act}

private theorem flowing_start (topics : Topic.Topics) (options : Options) :
    (start topics options).Flowing (max 1 options.downlinkBuffer) where
  queued := ⟨rfl, rfl, Nat.zero_le _, Nat.zero_le _, fun _ => rfl, nofun⟩
  complete _ := rfl

theorem flowing_step {a : Act} (hs : s.Sound) (h : s.Flowing size) (ha : a ≠ .dropReceiver)
    (hstep : s.step a = some s') : s'.Flowing size := by
  obtain ⟨hq, hall⟩ := h
  have hopen : s.backend.dispatcher ≠ .stopped → s.closing ≠ .ended :=
    fun hd ho => hd (hs.stopped ho)
  cases steps_of_step hstep with
  | refused | called | sent | accepted | declined | failed | shut | wasClosed | nothing
  | looks => exact ⟨hq, hall⟩
  | succeeded | stops | idles | asked | attempted | awakened | straggled | faded | vanished =>
    exact ⟨hq.frame rfl rfl, hall⟩
  | closes hc =>
    refine ⟨hq.frame rfl rfl, ?_⟩
    intro _
    apply hall
    intro ho
    exact hc (hs.state.2 (by simp [ho]))
  | disconnects hc =>
    refine ⟨hq.frame rfl rfl, ?_⟩
    intro _
    exact hall (by simp [hc])
  | closed =>
    refine ⟨⟨hq.reader, hq.capacity, hq.room, Nat.zero_le _, fun _ => rfl, fun _ => rfl⟩, ?_⟩
    intro ho
    exact absurd rfl ho
  | @event e _ _ _ _ hd hb =>
    -- The dispatcher was idle, so nothing waits, and a frame goes behind the queue.
    obtain ⟨hq', hframes⟩ := takeEvent_queued hq hd s.handled.length e
    rw [hb] at hq' hframes
    refine ⟨hq', fun ho => ?_⟩
    rw [hframes, ← List.append_assoc, hall ho, List.filterMap_append]
    cases hf : frameOf? e <;> simp [hf]
  | lost hd | connected hd =>
    have hw : s.backend.downlinks.waiting = [] := hq.waiting (by simp [hd])
    exact ⟨⟨hq.reader, hq.capacity, hq.room, hq.single, fun _ => hw, nofun⟩, hall⟩
  | movedUp hd hroom =>
    refine ⟨moveUp_queued hq hroom, fun ho => ?_⟩
    rw [← hall ho]
    simp only [Downlink.Channel.frames_moveUp]
  | halted hd =>
    have hw : s.backend.downlinks.waiting = [] := hq.waiting (by simp [hd])
    exact ⟨⟨hq.reader, hq.capacity, hq.room, hq.single, fun _ => hw, fun _ => rfl⟩, hall⟩
  | received hb =>
    refine ⟨⟨hq.reader, hq.capacity, ?_, hq.single, hq.waiting, hq.writer⟩, fun ho => ?_⟩
    · have hroom := hq.room
      rw [hb] at hroom
      simp at hroom ⊢
      omega
    · rw [← hall ho]
      simp [Downlink.Channel.frames, hb]
  | left => exact absurd rfl ha

theorem flowing_run (hs : s.Sound) (hf : s.Flowing size) (hkeep : ∀ a ∈ acts, a ≠ .dropReceiver)
    (h : s.run acts = some s') : s'.Flowing size := by
  refine (Runs.invariant (P := fun t => t.Sound ∧ t.Flowing size) ?_ h ⟨hs, hf⟩).2
  intro t a t' ha ht hstep
  exact ⟨sound_step ht.1 hstep, flowing_step ht.1 ht.2 (hkeep a ha) hstep⟩

/-- After the call that closes only the receiver moves frames. -/
theorem buffer_step {a : Act} (hs : s.Sound) (ho : s.closing = .ended) (ha : a ≠ .dropReceiver)
    (hstep : s.step a = some s') :
    s'.closing = .ended ∧
      s'.received ++ s'.backend.downlinks.buffer = s.received ++ s.backend.downlinks.buffer := by
  have hd := hs.stopped ho
  cases steps_of_step hstep with
  | refused | called | sent | accepted | declined | failed | succeeded | shut | wasClosed
  | nothing | stops | looks | idles | asked | attempted | awakened | straggled
  | faded | vanished => exact ⟨ho, rfl⟩
  | received hb =>
    refine ⟨ho, ?_⟩
    simp [hb]
  | closes hc => exact absurd (hs.state.2 (by simp [ho])) hc
  | disconnects hc | closed hc => simp [ho] at hc
  | event h | lost h | connected h | movedUp h | halted h => simp [hd] at h
  | left => exact absurd rfl ha

theorem buffer_run (hs : s.Sound) (ho : s.closing = .ended)
    (hkeep : ∀ a ∈ acts, a ≠ .dropReceiver) (h : s.run acts = some s') :
    s'.closing = .ended ∧
      s'.received ++ s'.backend.downlinks.buffer = s.received ++ s.backend.downlinks.buffer := by
  refine (Runs.invariant (P := fun t => t.Sound ∧ t.closing = .ended ∧
    t.received ++ t.backend.downlinks.buffer = s.received ++ s.backend.downlinks.buffer)
    ?_ h ⟨hs, ho, rfl⟩).2
  intro t a t' ha ht hstep
  obtain ⟨hended, hsame⟩ := buffer_step ht.1 ht.2.1 (hkeep a ha) hstep
  exact ⟨sound_step ht.1 hstep, hended, hsame.trans ht.2.2⟩

/-- What becomes of the frames of the messages that were taken up. -/
structure HandsOver (options : Options) (s : Actors) : Prop where
  /-- Nothing is lost, doubled or put into another order. -/
  complete : s.closing ≠ .ended →
    s.received ++ s.backend.downlinks.buffer ++ s.backend.downlinks.waiting.map (·.frame) =
      s.handled.filterMap frameOf?
  malformed : ∀ topic payload e s', Downlink.decode payload = .error e →
    s.step (.event (.message topic payload)) = some s' → s'.backend = s.backend
  bounded : s.backend.downlinks.buffer.length ≤ max 1 options.downlinkBuffer
  single : s.backend.downlinks.waiting.length ≤ 1
  blocked : s.backend.downlinks.waiting ≠ [] → ∀ e, s.step (.event e) = none
  /-- A frame that waits gets into the queue once there is room, and events are taken up
  again. -/
  proceeds : s.backend.downlinks.waiting ≠ [] →
    s.backend.downlinks.buffer.length < max 1 options.downlinkBuffer →
    ∃ s', s.step .moveUp = some s' ∧ ∀ e, (s'.step (.event e)).isSome = true
  /-- After the end the receiver gets the frames in the queue, and then learns that there
  are no more. -/
  drained : s.closing = .ended → ∀ acts s', (∀ a ∈ acts, a ≠ .dropReceiver) →
    s.run acts = some s' →
    s'.received ++ s'.backend.downlinks.buffer = s.received ++ s.backend.downlinks.buffer ∧
      s'.backend.downlinks.pull.1 =
        match s'.backend.downlinks.buffer with
        | f :: _ => .frame f
        | [] => .ended

theorem handsOver (h : (start topics options).run acts = some s)
    (hkeep : ∀ a ∈ acts, a ≠ .dropReceiver) : s.HandsOver options := by
  have hs := sound_run (sound_start topics options) h
  have hflow := flowing_run (sound_start topics options) (flowing_start topics options) hkeep h
  obtain ⟨hq, hall⟩ := hflow
  have hdelivering : s.backend.downlinks.waiting ≠ [] → s.backend.dispatcher = .delivering := by
    intro hw
    by_contra hne
    exact hw (hq.waiting hne)
  refine ⟨fun ho => ?_, ?_, hq.room, hq.single, ?_, ?_, ?_⟩
  · rw [← hall ho, Downlink.Channel.frames, List.append_assoc]
  · intro topic payload e s' he hstep
    simp only [step, takeEvent, he] at hstep
    split at hstep
    · cases hstep
      rfl
    · cases hstep
  · intro hw e
    simp [step, hdelivering hw]
  · intro hw hroom
    rw [← hq.capacity] at hroom
    simp [step, hdelivering hw, hroom]
  · intro ho acts' s' hkeep' hrun
    obtain ⟨hended, hsame⟩ := buffer_run hs ho hkeep' hrun
    refine ⟨hsame, Downlink.Channel.pull_eq ?_⟩
    apply (flowing_run hs ⟨hq, hall⟩ hkeep' hrun).queued.writer
    exact (sound_run hs hrun).stopped hended

def sampleMessage (token : String) : Transport.Event :=
  .message "gateway/0102030405060708/tx" ("[" ++ token ++
    ",[\"0102030405060708\",true,0,868100000,14,[\"LORA\"],\"4/5\"],\"AQID\"]").toUTF8.toList

/-- A queue gets room for one frame also where none is asked for. -/
def unbuffered : Options :=
  { Options.default with downlinkBuffer := 0 }

def busyDispatcher : List Act :=
  [.event (.connected false), .resume, .event (sampleMessage "7"), .receive,
    .event (sampleMessage "seven"), .event (sampleMessage "8"), .event (sampleMessage "9")]

/-- Of three frames one was received, one is in the queue, and one waits; the message between
them was malformed. -/
theorem handsOver_busy : ∃ s,
    (start System.sampleTopics unbuffered).run busyDispatcher = some s ∧
    s.received.map (·.token) = [7] ∧ s.backend.downlinks.buffer.map (·.token) = [8] ∧
    s.backend.downlinks.waiting.map (·.frame.token) = [9] ∧ s.HandsOver unbuffered := by
  have hview : ((start System.sampleTopics unbuffered).run busyDispatcher).map
      (fun s => (s.received.map (·.token), s.backend.downlinks.buffer.map (·.token),
        s.backend.downlinks.waiting.map (·.frame.token))) = some ([7], [8], [9]) := by
    decide +kernel
  obtain ⟨s, hrun, hv⟩ := Option.map_eq_some_iff.1 hview
  simp only [Prod.mk.injEq] at hv
  exact ⟨s, hrun, hv.1, hv.2.1, hv.2.2, handsOver hrun (by simp [busyDispatcher])⟩

end Actors

end Backend

end LoraBridge
