import LoraBridge.Proofs.Backend.System
import LoraBridge.Proofs.Eui.Text
import LoraBridge.Proofs.Results
import LoraBridge.Proofs.Topic.Injective

/-! Compiled topics. A template that was compiled renders for every gateway, as all its topics
have one length, and different gateways have different topics. So the replay of a registry
names every gateway once, with the topic that its own calls use. -/
namespace LoraBridge

theorem Text.utf8ByteSize_ofList {cs : List Char} (h : ∀ c ∈ cs, c.utf8Size = 1) :
    (String.ofList cs).utf8ByteSize = cs.length := by
  rw [← String.size_toByteArray, String.toByteArray_ofList]
  induction cs with
  | nil => rfl
  | cons c cs ih =>
    have hc := h c List.mem_cons_self
    have hcs := ih fun d hd => h d (List.mem_cons_of_mem _ hd)
    rw [List.utf8Encode_cons, List.utf8Encode_singleton, ByteArray.size_append, hcs,
      List.size_toByteArray, String.length_utf8EncodeChar, hc, List.length_cons]
    omega

@[simp] theorem Eui.utf8ByteSize_text (e : Eui) : e.text.utf8ByteSize = 16 := by
  rw [text, Text.utf8ByteSize_ofList, length_digits]
  intro c hc
  obtain ⟨n, hn, rfl⟩ := mem_digits hc
  exact utf8Size_hexDigit hn

namespace Topic

theorem eq_of_closing? {cs inner rest : List Char} (h : closing? cs = some (inner, rest)) :
    cs = inner ++ '\x7d' :: '\x7d' :: rest := by
  fun_induction closing? cs generalizing inner with
  | case1 => cases h
  | case2 => cases h
  | case3 c d r hc =>
    obtain ⟨rfl, rfl⟩ := Prod.mk.inj (Option.some.inj h)
    rw [hc.1, hc.2]
    rfl
  | case4 => cases h
  | case5 c d r _ _ ih =>
    obtain ⟨p, hp, he⟩ := Option.map_eq_some_iff.1 h
    cases he
    rw [ih hp]
    rfl

def join (pieces : List Char × List (List Char × List Char)) : List Char :=
  pieces.1 ++ pieces.2.flatMap fun a => '\x7b' :: '\x7b' :: a.1 ++ '\x7d' :: '\x7d' :: a.2

@[simp] theorem join_split (cs : List Char) : join (split cs) = cs := by
  fun_induction split cs with
  | case1 => rfl
  | case2 => rfl
  | case3 c d r hc inner rest h literal more hs ih =>
    rw [hs] at ih
    rw [hc.1, hc.2, eq_of_closing? h, ← ih]
    simp [join]
  | case4 c d r hc h literal more hs ih =>
    rw [hs] at ih
    rw [← ih]
    rfl
  | case5 c d r hc literal more hs ih =>
    rw [hs] at ih
    rw [← ih]
    rfl

namespace Template

theorem isWildcard_of_parse {source : String} {t : Template} (h : parse source = .ok t) :
    (∀ c ∈ t.before.toList, isWildcard c = false) ∧
      ∀ c ∈ t.after.toList, isWildcard c = false := by
  simp only [parse] at h
  split at h
  · cases h
  split at h
  · cases h
  split at h
  · cases h
  split at h
  · next inner after hactions =>
    split at h
    · cases h
    · next hnone =>
      cases h
      have hjoin := join_split source.toList
      rw [join, hactions] at hjoin
      have hall : ∀ c ∈ source.toList, isWildcard c = false := by
        simpa using hnone
      rw [← hjoin] at hall
      simp only [String.toList_ofList]
      constructor
      · intro c hc
        exact hall c (List.mem_append_left _ hc)
      · intro c hc
        exact hall c (by simp [hc])
  · cases h

@[simp]
theorem isWildcard_hexDigit {n : Nat} (h : n < 16) : isWildcard (Eui.hexDigit n) = false := by
  have hall : ∀ a : Fin 16, isWildcard (Eui.hexDigit a) = false := by decide
  exact hall ⟨n, h⟩

theorem isWildcard_of_mem_topic {source : String} {t : Template} (h : parse source = .ok t)
    (gateway : Eui) {c : Char} (hc : c ∈ (t.before ++ gateway.text ++ t.after).toList) :
    isWildcard c = false := by
  obtain ⟨hbefore, hafter⟩ := isWildcard_of_parse h
  simp only [String.toList_append, List.mem_append, Eui.text, String.toList_ofList] at hc
  rcases hc with (hc | hc) | hc
  · exact hbefore c hc
  · obtain ⟨n, hn, rfl⟩ := Eui.mem_digits hc
    exact isWildcard_hexDigit hn
  · exact hafter c hc

def bytes (t : Template) : Nat :=
  t.before.utf8ByteSize + 16 + t.after.utf8ByteSize

@[simp] theorem utf8ByteSize_topic (t : Template) (gateway : Eui) :
    (t.before ++ gateway.text ++ t.after).utf8ByteSize = t.bytes := by
  simp [bytes, Eui.utf8ByteSize_text]

theorem render_eq (t : Template) (gateway : Eui) : t.render gateway =
    if t.bytes ≤ maxBytes then .ok (t.before ++ gateway.text ++ t.after)
    else .error (.tooLong t.bytes) := by
  simp only [render, utf8ByteSize_topic]

private theorem render_eq_ok {t : Template} (h : t.bytes ≤ maxBytes) (gateway : Eui) :
    t.render gateway = .ok (t.before ++ gateway.text ++ t.after) := by
  rw [render_eq, if_pos h]

/-- Why a template is of no use for any gateway: it is refused, or its topics are too long. -/
inductive Refused (source : String) : TemplateError → Prop where
  | rejected {e : TemplateError} (h : parse source = .error e) : Refused source e
  | tooLong {t : Template} (h : parse source = .ok t) (gateway : Eui)
    (hlong : maxBytes < (t.before ++ gateway.text ++ t.after).utf8ByteSize) :
    Refused source (.tooLong (t.before ++ gateway.text ++ t.after).utf8ByteSize)

end Template

namespace Topics

theorem compile_eq_error_iff {role : Role} {source : String} {e : RoleError} :
    compile role source = .error e ↔ e.role = role ∧ Template.Refused source e.cause := by
  obtain ⟨r, cause⟩ := e
  constructor
  · intro h
    unfold compile at h
    split at h
    · next e he =>
      cases h
      exact ⟨rfl, .rejected he⟩
    · next t ht =>
      split at h
      · next e he =>
        cases h
        rw [Template.render] at he
        split at he
        · cases he
        · next hlong =>
          cases he
          exact ⟨rfl, .tooLong ht default (Nat.lt_of_not_le hlong)⟩
      · cases h
  · rintro ⟨rfl, hrefused⟩
    cases hrefused with
    | rejected h => simp [compile, h]
    | @tooLong t h gateway hlong =>
      rw [Template.utf8ByteSize_topic] at hlong ⊢
      simp [compile, h, Template.render_eq, Nat.not_le_of_lt hlong]

theorem compile_eq_ok {role : Role} {source : String} {t : Template}
    (h : compile role source = .ok t) :
    Template.parse source = .ok t ∧ t.bytes ≤ maxBytes := by
  unfold compile at h
  split at h
  · cases h
  · next t' ht =>
    split at h
    · cases h
    · next topic htopic =>
      cases h
      refine ⟨ht, ?_⟩
      by_contra hlong
      rw [Template.render_eq, if_neg hlong] at htopic
      cases htopic

theorem compile_eq_ok_iff {role : Role} {source : String} :
    (∃ t, compile role source = .ok t) ↔ ∀ cause, ¬ Template.Refused source cause := by
  cases hc : compile role source with
  | ok t =>
    refine iff_of_true ⟨t, rfl⟩ fun cause hrefused => ?_
    rw [compile_eq_error_iff (e := ⟨role, cause⟩).2 ⟨rfl, hrefused⟩] at hc
    cases hc
  | error e =>
    refine iff_of_false nofun fun hnot => ?_
    exact hnot _ (compile_eq_error_iff.1 hc).2

variable {source : Role → String}

def ofSources (source : Role → String) : Except RoleError Topics :=
  parse (source .uplink) (source .downlink) (source .stats) (source .ack)

theorem ofSources_eq_ok {t : Topics} (h : ofSources source = .ok t) (role : Role) :
    compile role (source role) = .ok (t.template role) := by
  unfold ofSources parse at h
  obtain ⟨uplink, hu, h⟩ := bind_eq_ok.1 h
  obtain ⟨downlink, hd, h⟩ := bind_eq_ok.1 h
  obtain ⟨stats, hs, h⟩ := bind_eq_ok.1 h
  obtain ⟨ack, ha, h⟩ := bind_eq_ok.1 h
  cases h
  cases role with
  | uplink => exact hu
  | downlink => exact hd
  | stats => exact hs
  | ack => exact ha

/-- The first role whose template is refused gives its name to the error. -/
theorem ofSources_eq_error_iff {e : RoleError} : ofSources source = .error e ↔
    Template.Refused (source e.role) e.cause ∧
      ∀ r ∈ Role.all.takeWhile (· ≠ e.role), ∀ cause, ¬ Template.Refused (source r) cause := by
  obtain ⟨role, cause⟩ := e
  unfold ofSources parse
  simp only [bind_eq_error, reduceCtorEq, and_false, exists_false, or_false, exists_and_right,
    compile_eq_ok_iff, compile_eq_error_iff]
  cases role <;> simp [Role.all, and_comm, and_assoc, and_left_comm]

private theorem ofSources_eq_error {role : Role} {cause : TemplateError}
    (h : Template.Refused (source role) cause) : ∃ e, ofSources source = .error e := by
  cases ht : ofSources source with
  | error e => exact ⟨e, rfl⟩
  | ok t => exact absurd h (compile_eq_ok_iff.1 ⟨_, ofSources_eq_ok ht role⟩ cause)

structure Usable (t : Topics) : Prop where
  rendered : ∀ role gateway, ∃ topic, t.render role gateway = .ok topic ∧ topic ≠ "" ∧
    topic.utf8ByteSize ≤ 65535 ∧ '+' ∉ topic.toList ∧ '#' ∉ topic.toList
  distinct : ∀ role g g', t.render role g = t.render role g' → g = g'

theorem usable_of_ofSources {t : Topics} (h : ofSources source = .ok t) : t.Usable := by
  have hrender : ∀ role gateway, t.render role gateway =
      .ok ((t.template role).before ++ gateway.text ++ (t.template role).after) := by
    intro role gateway
    obtain ⟨-, hbytes⟩ := compile_eq_ok (ofSources_eq_ok h role)
    rw [render, Template.render_eq_ok hbytes, mapError_ok]
  constructor
  · intro role gateway
    obtain ⟨hparse, hbytes⟩ := compile_eq_ok (ofSources_eq_ok h role)
    have hsize := (t.template role).utf8ByteSize_topic gateway
    have hwild := fun c => Template.isWildcard_of_mem_topic hparse gateway (c := c)
    refine ⟨_, hrender role gateway, ?_, ?_, ?_, ?_⟩
    · intro hempty
      rw [hempty, Template.bytes, String.utf8ByteSize_empty] at hsize
      omega
    · rwa [hsize]
    · intro hmem
      exact absurd (hwild _ hmem) (by decide)
    · intro hmem
      exact absurd (hwild _ hmem) (by decide)
  · intro role g g' heq
    exact render_inj (hrender role g) (heq ▸ hrender role g)

end Topics

end Topic

namespace Backend

open Topic (Topics)

structure Entry (t : Topics) (gateway : Eui) (entry : String × Transport.Qos) : Prop where
  topic : t.render .downlink gateway = .ok entry.1
  qos : entry.2 = .atMostOnce
  subscribes : ∀ b : Backend, b.topics = t → b.state = .connected →
    ∃ event, b.prepare (.subscribe gateway) = .ok (.subscribe entry.1 entry.2, event)
  unsubscribes : ∀ b : Backend, b.topics = t → b.state = .connected →
    ∃ event, b.prepare (.unsubscribe gateway) = .ok (.unsubscribe entry.1, event)

@[simp] theorem ensureConnected_eq_ok {b : Backend} (h : b.state = .connected) :
    b.ensureConnected = .ok () := by
  unfold ensureConnected
  rw [h]
  rfl

theorem entry_of_render {t : Topics} {gateway : Eui} {entry : String × Transport.Qos}
    (h : t.render .downlink gateway = .ok entry.1) (hq : entry.2 = .atMostOnce) :
    Entry t gateway entry := by
  refine ⟨h, hq, ?_, ?_⟩
  · rintro b rfl hs
    refine ⟨topicEvent "backend: subscribing to topic" entry.1, ?_⟩
    simp only [prepare, ensureConnected_eq_ok hs, ok_bind, render, h, mapError_ok, hq]
  · rintro b rfl hs
    refine ⟨topicEvent "backend: unsubscribing from topic" entry.1, ?_⟩
    simp only [prepare, ensureConnected_eq_ok hs, ok_bind, render, h, mapError_ok]

/-- The replay of a registry has one entry for each gateway, in ascending order. -/
structure FullBatch (t : Topics) (b : Backend) : Prop where
  entries : List.Forall₂ (Entry t) b.registry.gateways b.downlinkTopics
  ascending : b.registry.gateways.Pairwise (· < ·)
  nodup : (b.downlinkTopics.map Prod.fst).Nodup

theorem pairwise_of_forall₂ {α β : Type} {R : α → β → Prop} {S : α → α → Prop}
    {T : β → β → Prop} {l : List α} {l' : List β} (h : List.Forall₂ R l l') (hl : l.Pairwise S)
    (hT : ∀ a a' b b', S a a' → R a b → R a' b' → T b b') : l'.Pairwise T := by
  have hlen := h.length_eq
  rw [List.pairwise_iff_getElem] at hl ⊢
  intro i j hi hj hlt
  have hi' : i < l.length := by omega
  have hj' : j < l.length := by omega
  exact hT _ _ _ _ (hl i j hi' hj' hlt) (h.get hi' hi) (h.get hj' hj)

theorem batch_of_usable {b : Backend} (h : b.topics.Usable) : FullBatch b.topics b := by
  have hrendered : ∀ g ∈ b.registry.gateways, ∃ topic, b.topics.render .downlink g = .ok topic := by
    intro g _
    obtain ⟨topic, ht, -⟩ := h.rendered .downlink g
    exact ⟨topic, ht⟩
  have hentries := forall₂_downlinkTopics hrendered
  refine ⟨?_, b.registry.sorted, ?_⟩
  · exact hentries.imp fun _ _ hp => entry_of_render hp.1 hp.2
  · rw [List.nodup_iff_pairwise_ne, List.pairwise_map]
    apply pairwise_of_forall₂ hentries b.registry.sorted
    intro g g' p p' hlt hp hp' heq
    have hsame := h.distinct .downlink g g' (by rw [hp.1, hp'.1, heq])
    exact Eui.lt_irrefl g' (hsame ▸ hlt)

theorem System.ofSources_sampleTopics :
    Topics.ofSources (fun role => (sampleTopics.template role).source) = .ok sampleTopics := by
  decide +kernel

end Backend

open Topic in
/-- Compiling fails for the first template that is of no use for any gateway, and topics that
were compiled serve every gateway and every registry. -/
theorem Topic.Topics.compiles (source : Role → String) :
    ((∃ e, Topics.ofSources source = .error e) ↔
      ∃ role cause, Template.Refused (source role) cause) ∧
    (∀ e, Topics.ofSources source = .error e ↔ Template.Refused (source e.role) e.cause ∧
      ∀ r ∈ Role.all.takeWhile (· ≠ e.role), ∀ cause, ¬ Template.Refused (source r) cause) ∧
    ∀ t, Topics.ofSources source = .ok t →
      t.Usable ∧ ∀ b : Backend, b.topics = t → Backend.FullBatch t b := by
  refine ⟨⟨?_, ?_⟩, fun e => Topics.ofSources_eq_error_iff, ?_⟩
  · rintro ⟨e, he⟩
    exact ⟨e.role, e.cause, (Topics.ofSources_eq_error_iff.1 he).1⟩
  · rintro ⟨role, cause, h⟩
    exact Topics.ofSources_eq_error h
  · intro t ht
    have husable := Topics.usable_of_ofSources ht
    refine ⟨husable, ?_⟩
    rintro b rfl
    exact Backend.batch_of_usable husable

open Backend in
theorem Topic.Topics.compiles_sample :
    Topics.ofSources (fun role => (System.sampleTopics.template role).source) =
      .ok System.sampleTopics ∧
    System.sampleTopics.Usable ∧
      ∀ b : Backend, b.topics = System.sampleTopics → FullBatch System.sampleTopics b :=
  ⟨System.ofSources_sampleTopics, (Topics.compiles _).2.2 _ System.ofSources_sampleTopics⟩

end LoraBridge
