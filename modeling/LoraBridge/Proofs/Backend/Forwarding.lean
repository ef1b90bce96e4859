import LoraBridge.Proofs.Backend.Requests
import LoraBridge.Proofs.Envelope.RoundTrip
import LoraBridge.Proofs.Topic.Compiled

/-! Forwarding. What a gateway reports becomes one request to the client, on the topic of its
kind and its gateway and with a payload that is read back. Nothing is asked for without a
connection, or without a payload. -/
namespace LoraBridge.Backend

open Envelope (DownlinkAck GatewayStats UplinkFrame sampleStats sampleStats_fits
  sampleStats_readsBack)
open Json (decode)
open Topic (Role Topics)

inductive Report where
  | uplink (f : UplinkFrame)
  | stats (s : GatewayStats)
  | ack (a : DownlinkAck)

namespace Report

def role : Report → Role
  | .uplink _ => .uplink
  | .stats _ => .stats
  | .ack _ => .ack

def gateway : Report → Eui
  | .uplink f => f.rxInfo.mac
  | .stats s => s.mac
  | .ack a => a.mac

/-- The numbers and times of a report read back, and its custom values are not too deep. -/
def ReadsBack : Report → Prop
  | .uplink f => f.rxInfo.ReadsBack
  | .stats s => s.ReadsBack ∧ s.Fits
  | .ack _ => True

def DecodedFrom (payload : List UInt8) : Report → Prop
  | .uplink f => decode UplinkFrame.read payload = .ok f
  | .stats s => decode GatewayStats.read payload = .ok s
  | .ack a => decode DownlinkAck.read payload = .ok a

inductive Forwards : Report → Operation → Prop where
  | uplink (f : UplinkFrame) : Forwards (.uplink f) (forwardUplink f)
  | stats (s : GatewayStats) : Forwards (.stats s) (forwardStats s)
  | reordered (s : GatewayStats) {v : Json.Value} (h : s.Written v) :
    Forwards (.stats s) (.publish .stats s.mac (.ok (payloadOf v)))
  | ack (a : DownlinkAck) : Forwards (.ack a) (forwardAck a)

private theorem decode_payloadOf {α : Type} {read : Json.Reader α} {v : Json.Value} {a : α}
    (h : read Json.maxDepth v.tree = .ok a) : decode read (payloadOf v) = .ok a := by
  have hread := Json.reread_eq read v
  rwa [h] at hread

/-- A report goes out for its own role and gateway, in a payload that is read back. -/
theorem publish_of_forwards {r : Report} {op : Operation} (h : r.Forwards op)
    (hr : r.ReadsBack) : ∃ payload, op = .publish r.role r.gateway (.ok payload) ∧
      r.DecodedFrom payload := by
  cases h with
  | uplink f => exact ⟨_, rfl, decode_payloadOf (UplinkFrame.read_value 124 hr)⟩
  | stats s => exact ⟨_, rfl, GatewayStats.roundTrips.encoded s _ hr.1 hr.2 s.written_value⟩
  | reordered s hv => exact ⟨_, rfl, GatewayStats.roundTrips.encoded s _ hr.1 hr.2 hv⟩
  | ack a => exact ⟨_, rfl, decode_payloadOf (DownlinkAck.read_value 126 a)⟩

end Report

theorem prepare_publish {b : Backend} (hs : b.state = .connected) {role : Role} {gateway : Eui}
    {topic : String} (ht : b.topics.render role gateway = .ok topic) (payload : List UInt8) :
    b.prepare (.publish role gateway (.ok payload)) =
      .ok (.publish topic .atMostOnce false payload,
        topicEvent "backend: publishing packet" topic) := by
  simp only [prepare, ensureConnected_eq_ok hs, ok_bind, render, ht, mapError_ok]

theorem prepare_eq_error {b : Backend} (role : Role) (gateway : Eui)
    {payload : Except EncodeError (List UInt8)}
    (h : b.state ≠ .connected ∨ ∃ e, payload = .error e) :
    ∃ e, b.prepare (.publish role gateway payload) = .error e := by
  cases hp : b.prepare (.publish role gateway payload) with
  | error e => exact ⟨e, rfl⟩
  | ok p =>
    rcases h with hs | ⟨e, rfl⟩
    · exact absurd (connected_of_prepare hp) hs
    · obtain ⟨topic, ht⟩ := rendered_of_prepare hp
      simp only [Operation.role, Operation.gateway] at ht
      simp only [prepare, ensureConnected_eq_ok (connected_of_prepare hp), ok_bind, render, ht,
        mapError_ok, mapError_error, error_bind] at hp
      cases hp

namespace Actors

variable {s t : Actors} {topics : Topics} {options : Options} {acts : List Act}

private theorem topics_run (hrun : s.run acts = some t) : t.backend.topics = s.backend.topics := by
  refine Runs.invariant (P := fun u => u.backend.topics = s.backend.topics) ?_ hrun rfl
  intro u a u' _ hu hstep
  cases steps_of_step hstep <;> exact hu

/-- What a backend does with what its gateways report. -/
structure Forwarding (topics : Topics) (s : Actors) : Prop where
  called : ∀ op, ∃ t, s.step (.call op) = some t
  /-- A report makes one request on the topic of its role and gateway, and its call succeeds
  if and only if the client accepts that. -/
  forwards : s.backend.state = .connected → ∀ r op, Report.ReadsBack r → r.Forwards op →
    ∃ topic payload, topics.render r.role r.gateway = .ok topic ∧ r.DecodedFrom payload ∧
      ∀ later t, s.run (.call op :: later) = some t → t.Outcome s.started
        (.publish topic .atMostOnce false payload) (ofCall s.started (s.sent (.call op :: later)))
  distinct : ∀ r r' topic topic', Report.role r = Report.role r' →
    topics.render r.role r.gateway = .ok topic → topics.render r'.role r'.gateway = .ok topic' →
    (topic = topic' ↔ r.gateway = r'.gateway)
  silent : ∀ role gateway payload,
    s.backend.state ≠ .connected ∨ (∃ e, payload = .error e) →
    ∃ e, ∀ later t, s.run (.call (.publish role gateway payload) :: later) = some t →
      ofCall s.started (s.sent (.call (.publish role gateway payload) :: later)) = [] ∧
        ⟨s.started, .publish role gateway payload, .error e⟩ ∈ t.returned
  published : ∀ later t, s.run later = some t → t.requested .publish =
    s.requested .publish ++ ((s.sent later).map Prod.snd).filter fun r => r.operation = .publish

theorem forwardsReports {source : Role → String} (hc : Topics.ofSources source = .ok topics)
    (h : (start topics options).run acts = some s) : s.Forwarding topics := by
  have husable := Topics.usable_of_ofSources hc
  have htopics : s.backend.topics = topics := topics_run h
  refine ⟨?_, ?_, ?_, ?_, fun _ _ => published_run⟩
  · intro op
    simp only [step]
    split <;> exact ⟨_, rfl⟩
  · intro hs r op hr hf
    obtain ⟨topic, ht, -⟩ := husable.rendered r.role r.gateway
    obtain ⟨payload, rfl, hpayload⟩ := Report.publish_of_forwards hf hr
    refine ⟨topic, payload, ht, hpayload, fun later t => ?_⟩
    exact outcome h (prepare_publish hs (htopics ▸ ht) payload)
  · intro r r' topic topic' hrole ht ht'
    rw [← hrole] at ht'
    constructor
    · rintro rfl
      exact husable.distinct r.role _ _ (ht.trans ht'.symm)
    · intro hgateway
      rw [hgateway, ht'] at ht
      exact (Except.ok.inj ht).symm
  · intro role gateway payload hnot
    obtain ⟨e, he⟩ := prepare_eq_error role gateway hnot
    exact ⟨e, fun later t => silent_of_refused h he⟩

/-- Statistics with a nested map are forwarded, and the client accepts them. -/
theorem forwardsReports_stats : ∃ s t,
    Topics.ofSources (fun role => (System.sampleTopics.template role).source) =
      .ok System.sampleTopics ∧
    (start System.sampleTopics .default).run [.event (.connected false), .resume] = some s ∧
    s.Forwarding System.sampleTopics ∧ s.backend.state = .connected ∧
    s.run [.call (forwardStats sampleStats), .send 0, .accept 0, .finish 0] = some t ∧
    t.returned = [⟨0, forwardStats sampleStats, .ok ()⟩] ∧
    ∃ topic payload, System.sampleTopics.render .stats sampleStats.mac = .ok topic ∧
      decode GatewayStats.read payload = .ok sampleStats ∧
      ofCall 0 (s.sent [.call (forwardStats sampleStats), .send 0, .accept 0, .finish 0]) =
        [.publish topic .atMostOnce false payload] := by
  obtain ⟨s, t, hrun, hs, hnumber, hcall, hreturned⟩ : ∃ s t,
      (start System.sampleTopics .default).run [.event (.connected false), .resume] = some s ∧
      s.backend.state = .connected ∧ s.started = 0 ∧
      s.run [.call (forwardStats sampleStats), .send 0, .accept 0, .finish 0] = some t ∧
      t.returned = [⟨0, forwardStats sampleStats, .ok ()⟩] := ⟨_, _, rfl, rfl, rfl, rfl, rfl⟩
  have hforwarding := forwardsReports System.ofSources_sampleTopics hrun
  obtain ⟨topic, payload, htopic, hpayload, houtcome⟩ := hforwarding.forwards hs
    (.stats sampleStats) (forwardStats sampleStats) ⟨sampleStats_readsBack, sampleStats_fits⟩
    (.stats sampleStats)
  have hasked := ((houtcome _ t hcall).returned ⟨0, forwardStats sampleStats, .ok ()⟩
    (by simp [hreturned]) hnumber.symm).1
  rw [hnumber] at hasked
  exact ⟨s, t, System.ofSources_sampleTopics, hrun, hforwarding, hs, hcall, hreturned, topic,
    payload, htopic, hpayload, hasked⟩

end Actors

end LoraBridge.Backend
