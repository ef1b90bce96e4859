import Mathlib.Control.Monad.Basic
import LoraBridge.Bridge.Program
import LoraBridge.Config.Validate
import LoraBridge.Proofs.Results

/-! Checking a configuration and connecting with it. Both go over the same settings, each in
an order of its own: what the check accepts fails to connect only for the contents of the
files that it names, and what connects was fit to be accepted. -/
namespace LoraBridge

namespace Tls

inductive CertificatesFault (lib : Library) (files : Files) (path : String) : Error → Prop where
  | unreadable {cause} (h : files path = .error cause) :
    CertificatesFault lib files path (.read path cause)
  | malformed {text cause} (h : files path = .ok text) (ht : lib.certificates text = .error cause) :
    CertificatesFault lib files path (.read path cause)
  | empty {text} (h : files path = .ok text) (ht : lib.certificates text = .ok []) :
    CertificatesFault lib files path (.noCertificates path)

inductive KeyFault (lib : Library) (files : Files) (path : String) : Error → Prop where
  | unreadable {cause} (h : files path = .error cause) : KeyFault lib files path (.read path cause)
  | malformed {text cause} (h : files path = .ok text) (ht : lib.privateKey text = .error cause) :
    KeyFault lib files path (.read path cause)
  | empty {text} (h : files path = .ok text) (ht : lib.privateKey text = .ok none) :
    KeyFault lib files path (.noPrivateKey path)

/-- What can be wrong with the files that are named. -/
inductive Fault (lib : Library) (files : Files) (ca cert key : String) : Error → Prop where
  | ca {e} (hnamed : ca.isEmpty = false) (h : CertificatesFault lib files ca e) :
    Fault lib files ca cert key e
  | untrusted {text certs c reason} (hnamed : ca.isEmpty = false) (h : files ca = .ok text)
    (hcerts : lib.certificates text = .ok certs) (hc : c ∈ certs)
    (ht : lib.trust c = .error reason) : Fault lib files ca cert key (.invalidCa ca reason)
  | cert {e} (hnamed : cert.isEmpty = false) (h : CertificatesFault lib files cert e) :
    Fault lib files ca cert key e
  | key {e} (hnamed : key.isEmpty = false) (h : KeyFault lib files key e) :
    Fault lib files ca cert key e
  | unfit {text text' certs k reason} (hcert : cert.isEmpty = false) (hkey : key.isEmpty = false)
    (h : files cert = .ok text) (hcerts : lib.certificates text = .ok certs)
    (h' : files key = .ok text') (hk : lib.privateKey text' = .ok (some k))
    (hi : lib.identify certs k = .error reason) :
    Fault lib files ca cert key (.invalidClientAuth reason)

variable {lib : Library} {files : Files} {path ca cert key : String} {e : Error}

theorem Fault.ne_incomplete (h : Fault lib files ca cert key e) : e ≠ .incompleteClientAuth := by
  rintro rfl
  cases h with
  | ca _ h => cases h
  | cert _ h => cases h
  | key _ h => cases h

@[simp] theorem readFile_eq_ok {text : List UInt8} :
    readFile files path = .ok text ↔ files path = .ok text :=
  mapError_eq_ok

theorem certificates_eq_ok {certs : List (List UInt8)}
    (h : certificates lib files path = .ok certs) :
    ∃ text, files path = .ok text ∧ lib.certificates text = .ok certs := by
  obtain ⟨text, htext, h⟩ := bind_eq_ok.1 h
  obtain ⟨certs', hcerts, h⟩ := bind_eq_ok.1 h
  split at h
  · cases h
  · cases h
    exact ⟨text, readFile_eq_ok.1 htext, mapError_eq_ok.1 hcerts⟩

theorem certificates_eq_error (h : certificates lib files path = .error e) :
    CertificatesFault lib files path e := by
  rcases bind_eq_error.1 h with h | ⟨text, htext, h⟩
  · obtain ⟨cause, hcause, rfl⟩ := mapError_eq_error.1 h
    exact .unreadable hcause
  · rw [readFile_eq_ok] at htext
    rcases bind_eq_error.1 h with h | ⟨certs, hcerts, h⟩
    · obtain ⟨cause, hcause, rfl⟩ := mapError_eq_error.1 h
      exact .malformed htext hcause
    · split at h
      · next hempty =>
        cases h
        rw [mapError_eq_ok, List.isEmpty_iff.1 hempty] at hcerts
        exact .empty htext hcerts
      · cases h

theorem privateKey_eq_ok {k : Key} (h : privateKey lib files path = .ok k) :
    ∃ text, files path = .ok text ∧ lib.privateKey text = .ok (some k) := by
  obtain ⟨text, htext, h⟩ := bind_eq_ok.1 h
  obtain ⟨found, hfound, h⟩ := bind_eq_ok.1 h
  cases found with
  | none => cases h
  | some k' =>
    cases h
    exact ⟨text, readFile_eq_ok.1 htext, mapError_eq_ok.1 hfound⟩

theorem privateKey_eq_error (h : privateKey lib files path = .error e) :
    KeyFault lib files path e := by
  rcases bind_eq_error.1 h with h | ⟨text, htext, h⟩
  · obtain ⟨cause, hcause, rfl⟩ := mapError_eq_error.1 h
    exact .unreadable hcause
  · rw [readFile_eq_ok] at htext
    rcases bind_eq_error.1 h with h | ⟨found, hfound, h⟩
    · obtain ⟨cause, hcause, rfl⟩ := mapError_eq_error.1 h
      exact .malformed htext hcause
    · cases found with
      | some k => cases h
      | none =>
        cases h
        exact .empty htext (mapError_eq_ok.1 hfound)

theorem fault_of_trusted (hnamed : ca.isEmpty = false) (h : trusted lib files ca = .error e) :
    Fault lib files ca cert key e := by
  rcases bind_eq_error.1 h with h | ⟨certs, hcerts, h⟩
  · exact .ca hnamed (certificates_eq_error h)
  · rcases bind_eq_error.1 h with h | ⟨-, -, h⟩
    · obtain ⟨text, htext, hcerts⟩ := certificates_eq_ok hcerts
      obtain ⟨c, hc, h⟩ := forM_eq_error h
      obtain ⟨reason, hreason, rfl⟩ := mapError_eq_error.1 h
      exact .untrusted hnamed htext hcerts hc hreason
    · cases h

theorem fault_of_clientAuth (hcert : cert.isEmpty = false) (hkey : key.isEmpty = false)
    (h : clientAuth lib files cert key = .error e) : Fault lib files ca cert key e := by
  rcases bind_eq_error.1 h with h | ⟨certs, hcerts, h⟩
  · exact .cert hcert (certificates_eq_error h)
  · rcases bind_eq_error.1 h with h | ⟨k, hk, h⟩
    · exact .key hkey (privateKey_eq_error h)
    · rcases bind_eq_error.1 h with h | ⟨-, -, h⟩
      · obtain ⟨text, htext, hcerts⟩ := certificates_eq_ok hcerts
        obtain ⟨text', htext', hk⟩ := privateKey_eq_ok hk
        obtain ⟨reason, hreason, rfl⟩ := mapError_eq_error.1 h
        exact .unfit hcert hkey htext hcerts htext' hk hreason
      · cases h

theorem material_eq (lib : Library) (files : Files) (ca cert key : String) :
    material lib files ca cert key =
      if ca.isEmpty && cert.isEmpty && key.isEmpty then .ok none
      else if cert.isEmpty != key.isEmpty then .error .incompleteClientAuth
      else
        (if ca.isEmpty then .ok none else (trusted lib files ca).map some) >>= fun roots =>
          (if cert.isEmpty then .ok none else (clientAuth lib files cert key).map some) >>=
            fun auth => .ok (some ⟨roots, auth⟩) := by
  unfold material
  cases ca.isEmpty <;> cases cert.isEmpty <;> cases key.isEmpty <;> rfl

/-- Material whose certificate and key belong together fails only for what is wrong with the
files that are named. -/
theorem fault_of_material (hpair : cert.isEmpty = key.isEmpty)
    (h : material lib files ca cert key = .error e) : Fault lib files ca cert key e := by
  simp only [material_eq, hpair, bne_self_eq_false, Bool.false_eq_true, ↓reduceIte] at h
  split at h
  · cases h
  · rcases bind_eq_error.1 h with h | ⟨roots, -, h⟩
    · split at h
      · cases h
      · next hca => exact fault_of_trusted (by simpa using hca) (map_eq_error.1 h)
    · rcases bind_eq_error.1 h with h | ⟨auth, -, h⟩
      · split at h
        · cases h
        · next hkey =>
          rw [Bool.not_eq_true] at hkey
          exact fault_of_clientAuth (hpair.trans hkey) hkey (map_eq_error.1 h)
      · cases h

theorem material_eq_ok {m : Option Material} (h : material lib files ca cert key = .ok m) :
    cert.isEmpty = key.isEmpty ∧ m.isSome = !(ca.isEmpty && cert.isEmpty && key.isEmpty) := by
  rw [material_eq] at h
  split at h
  · next hempty =>
    cases h
    simp only [Bool.and_eq_true] at hempty
    simp [hempty]
  · next hnamed =>
    split at h
    · cases h
    · next hpair =>
      obtain ⟨roots, -, h⟩ := bind_eq_ok.1 h
      obtain ⟨auth, -, h⟩ := bind_eq_ok.1 h
      cases h
      rw [Bool.not_eq_true] at hnamed
      exact ⟨by simpa using hpair, by simp [hnamed]⟩

/-- The trusted certificates are logged as soon as they are loaded, even if the certificate of
the client is of no use then. -/
theorem mem_logs {event : Log.Event} : event ∈ logs lib files ca cert key ↔
    ca.isEmpty = false ∧ cert.isEmpty = key.isEmpty ∧
      ∃ certs, trusted lib files ca = .ok certs ∧ event = trustedEvent ca certs := by
  unfold logs
  cases ca.isEmpty <;> cases cert.isEmpty <;> cases key.isEmpty <;>
    cases trusted lib files ca <;> simp

end Tls

theorem BrokerAddress.tlsOfScheme?_eq_some {scheme : List Char} {tls : Bool}
    (h : tlsOfScheme? scheme = some tls) :
    tls = true ↔ String.ofList scheme ∈ ["ssl", "tls", "mqtts"] := by
  unfold tlsOfScheme? at h
  split at h
  · next hplain =>
    cases h
    simp only [List.contains_iff_mem, List.mem_cons, List.not_mem_nil, or_false] at hplain
    rcases hplain with hplain | hplain <;> simp [hplain]
  · split at h
    · next htls =>
      cases h
      simpa using htls
    · cases h

theorem BrokerAddress.tls_iff {server : String} {address : BrokerAddress}
    (h : parse server = .ok address) : address.tls = true ↔
      ∃ url, Address.Url.parse? server.toList = some url ∧
        String.ofList url.scheme ∈ ["ssl", "tls", "mqtts"] := by
  unfold parse at h
  split at h
  · cases h
  · next url hurl =>
    split at h
    · cases h
    · next tls htls =>
      split at h
      · cases h
      · cases h
        rw [tlsOfScheme?_eq_some htls]
        simp [hurl]

namespace Transport.Options

variable {m : Config.Mqtt} {env : Config.Environment} {hasTls : Bool}
  {platform : Except String Unit}

private theorem securityOf_eq_ok {address : BrokerAddress} :
    (∃ security, securityOf m address hasTls platform = .ok security) ↔
      (hasTls = true → address.tls = true) ∧
        (hasTls = false → address.tls = true → platform = .ok ()) := by
  unfold securityOf
  cases hasTls <;> cases address.tls <;> cases platform <;> simp [Except.map, Except.mapError]

theorem isTls_of_securityOf {address : BrokerAddress} {security : Security}
    (h : securityOf m address hasTls platform = .ok security) :
    security.isTls = address.tls := by
  unfold securityOf at h
  split at h
  · cases h
  · next htls =>
    cases h
    simp [Security.isTls, htls]
  · next htls =>
    obtain ⟨-, -, rfl⟩ := map_eq_ok.1 h
    simp [Security.isTls, htls]
  · next htls =>
    cases h
    simp [Security.isTls, htls]

theorem ofConfig_eq_ok : (∃ options, ofConfig m env hasTls platform = .ok options) ↔
    ∃ address, BrokerAddress.parse m.server = .ok address ∧
      (hasTls = true → address.tls = true) ∧
        (hasTls = false → address.tls = true → platform = .ok ()) := by
  constructor
  · rintro ⟨options, h⟩
    obtain ⟨address, haddress, h⟩ := bind_eq_ok.1 h
    obtain ⟨security, hsecurity, -⟩ := bind_eq_ok.1 h
    exact ⟨address, mapError_eq_ok.1 haddress, securityOf_eq_ok.1 ⟨security, hsecurity⟩⟩
  · rintro ⟨address, haddress, htls⟩
    obtain ⟨security, hsecurity⟩ := securityOf_eq_ok (m := m).2 htls
    simp only [ofConfig, haddress, mapError_ok, ok_bind, hsecurity]
    exact ⟨_, rfl⟩

theorem isTls_iff {options : Options} (h : ofConfig m env hasTls platform = .ok options) :
    options.security.isTls = true ↔ ∃ url, Address.Url.parse? m.server.toList = some url ∧
      String.ofList url.scheme ∈ ["ssl", "tls", "mqtts"] := by
  obtain ⟨address, haddress, h⟩ := bind_eq_ok.1 h
  obtain ⟨security, hsecurity, h⟩ := bind_eq_ok.1 h
  cases h
  rw [isTls_of_securityOf hsecurity, BrokerAddress.tls_iff (mapError_eq_ok.1 haddress)]

end Transport.Options

namespace Config

variable {c : Config}

theorem validate_eq_ok : c.validate = .ok () ↔ c.logLevel ≤ 5 ∧
    (∃ address, BrokerAddress.parse c.mqtt.server = .ok address ∧
      (c.mqtt.hasTlsMaterial = true → address.tls = true)) ∧
    (∃ topics, c.mqtt.topics = .ok topics) ∧
    c.mqtt.tlsCert.isEmpty = c.mqtt.tlsKey.isEmpty ∧ c.mqtt.downlinkBuffer ≠ 0 := by
  unfold validate
  by_cases hlevel : 5 < c.logLevel
  · simp [hlevel, UInt8.not_le.2 hlevel]
  simp only [hlevel, UInt8.not_lt.1 hlevel, ↓reduceIte, true_and]
  cases BrokerAddress.parse c.mqtt.server with
  | error e => simp
  | ok address =>
    simp only [mapError_ok, ok_bind, Except.ok.injEq, exists_eq_left']
    cases c.mqtt.topics with
    | error e => cases c.mqtt.hasTlsMaterial <;> cases address.tls <;> simp
    | ok topics =>
      by_cases hpair : c.mqtt.tlsCert.isEmpty = c.mqtt.tlsKey.isEmpty
      · by_cases hbuffer : c.mqtt.downlinkBuffer = 0
        · cases c.mqtt.hasTlsMaterial <;> cases address.tls <;> simp [hpair, hbuffer]
        · cases c.mqtt.hasTlsMaterial <;> cases address.tls <;>
            simp [hpair, hbuffer, pure, Except.pure]
      · cases c.mqtt.hasTlsMaterial <;> cases address.tls <;> simp [hpair]

theorem Mqtt.isSome_of_material {m : Mqtt} {lib : Tls.Library} {files : Files}
    {material : Option Tls.Material} (h : m.material lib files = .ok material) :
    m.tlsCert.isEmpty = m.tlsKey.isEmpty ∧ material.isSome = m.hasTlsMaterial :=
  Tls.material_eq_ok h

end Config

namespace Bridge

open Transport (Options)

def tlsRecords (w : World) (m : Config.Mqtt) : List Log.Record :=
  (Tls.logs w.tls w.files m.caCert m.tlsCert m.tlsKey).map (.of · [connectSpan])

/-- What the check of a configuration tells of connecting with it. -/
structure ConnectsAsChecked (w : World) (c : Config) : Prop where
  topics : c.validate = .ok () → ∃ topics, c.mqtt.topics = .ok topics
  material : c.validate = .ok () → ∀ e, c.mqtt.material w.tls w.files = .error e →
    e ≠ .incompleteClientAuth ∧
      Tls.Fault w.tls w.files c.mqtt.caCert c.mqtt.tlsCert c.mqtt.tlsKey e
  /-- Without material an address that asks for TLS needs the certificates of the platform. -/
  options : c.validate = .ok () → ∀ material, c.mqtt.material w.tls w.files = .ok material →
    (∀ address, material = none → BrokerAddress.parse c.mqtt.server = .ok address →
      address.tls = true → w.tls.platform = .ok ()) →
    ∃ options, Options.ofConfig c.mqtt w.env material.isSome w.tls.platform = .ok options
  valid : ∀ topics material options, c.mqtt.topics = .ok topics →
    c.mqtt.material w.tls w.files = .ok material →
    Options.ofConfig c.mqtt w.env material.isSome w.tls.platform = .ok options →
    c.logLevel ≤ 5 → 0 < c.mqtt.downlinkBuffer → c.validate = .ok ()
  encrypted : ∀ hasTls options,
    Options.ofConfig c.mqtt w.env hasTls w.tls.platform = .ok options →
    (options.security.isTls = true ↔ ∃ url, Address.Url.parse? c.mqtt.server.toList = some url ∧
      String.ofList url.scheme ∈ ["ssl", "tls", "mqtts"])
  /-- An error leaves nothing behind of a transport, not even the record of its start. -/
  topicError : ∀ e, c.mqtt.topics = .error e → connect w c = (.error (.error (.topic e)), [])
  tlsError : ∀ topics e, c.mqtt.topics = .ok topics →
    c.mqtt.material w.tls w.files = .error e →
    connect w c = (.error (.error (.tls e)), tlsRecords w c.mqtt)
  optionsError : ∀ topics material e, c.mqtt.topics = .ok topics →
    c.mqtt.material w.tls w.files = .ok material →
    Options.ofConfig c.mqtt w.env material.isSome w.tls.platform = .error e →
    connect w c = (.error (e.map .invalidServer), tlsRecords w c.mqtt)
  started : ∀ plan, Backend.plan c.mqtt w.tls w.files w.env = .ok plan →
    ∃ rest, (connect w c).2 =
      tlsRecords w c.mqtt ++ .of (Backend.connectingEvent c.mqtt.server) [connectSpan] :: rest

section

variable {w : World} {c : Config}

private theorem topics_of_plan {plan : Backend.Plan}
    (h : Backend.plan c.mqtt w.tls w.files w.env = .ok plan) :
    c.mqtt.topics = .ok plan.topics := by
  obtain ⟨topics, htopics, h⟩ := bind_eq_ok.1 h
  obtain ⟨material, -, h⟩ := bind_eq_ok.1 h
  obtain ⟨transport, -, h⟩ := bind_eq_ok.1 h
  cases h
  exact mapError_eq_ok.1 htopics

theorem connect_of_topics {topics : Topic.Topics} (h : c.mqtt.topics = .ok topics) :
    (∀ e, Backend.plan c.mqtt w.tls w.files w.env = .error e →
      connect w c = (.error e, tlsRecords w c.mqtt)) ∧
    ∀ plan, Backend.plan c.mqtt w.tls w.files w.env = .ok plan →
      (connect w c).2 = tlsRecords w c.mqtt ++
        (Backend.connect plan c.mqtt.server (w.opening plan) [connectSpan]).2 := by
  have hlogs : Backend.planLogs c.mqtt w.tls w.files =
      Tls.logs w.tls w.files c.mqtt.caCert c.mqtt.tlsCert c.mqtt.tlsKey := by
    simp [Backend.planLogs, h]
  constructor
  · intro e he
    simp [connect, he, hlogs, tlsRecords]
  · intro plan hplan
    simp [connect, hplan, hlogs, tlsRecords]

end

private theorem head_connect (plan : Backend.Plan) (server : String) (events : List Transport.Event)
    (spans : List Log.Span) : ∃ rest, (Backend.connect plan server events spans).2 =
      .of (Backend.connectingEvent server) spans :: rest := by
  unfold Backend.connect
  simp only
  split <;> simp

theorem connectsAsChecked (w : World) (c : Config) : ConnectsAsChecked w c := by
  refine ⟨?_, ?_, ?_, ?_, ?_, ?_, ?_, ?_, ?_⟩
  · intro h
    exact (Config.validate_eq_ok.1 h).2.2.1
  · intro h e he
    have hpair := (Config.validate_eq_ok.1 h).2.2.2.1
    have hfault := Tls.fault_of_material hpair he
    exact ⟨hfault.ne_incomplete, hfault⟩
  · intro h material hmaterial hplatform
    obtain ⟨address, haddress, htls⟩ := (Config.validate_eq_ok.1 h).2.1
    rw [Options.ofConfig_eq_ok]
    refine ⟨address, haddress, ?_, ?_⟩
    · rwa [(Config.Mqtt.isSome_of_material hmaterial).2]
    · intro hnone
      rw [Option.isSome_eq_false_iff, Option.isNone_iff_eq_none] at hnone
      exact hplatform address hnone haddress
  · intro topics material options htopics hmaterial hoptions hlevel hbuffer
    obtain ⟨hpair, hsome⟩ := Config.Mqtt.isSome_of_material hmaterial
    obtain ⟨address, haddress, htls, -⟩ := Options.ofConfig_eq_ok.1 ⟨options, hoptions⟩
    rw [hsome] at htls
    apply Config.validate_eq_ok.2
    refine ⟨hlevel, ⟨address, haddress, htls⟩, ⟨topics, htopics⟩, hpair, ?_⟩
    intro hzero
    simp [hzero] at hbuffer
  · intro hasTls options h
    exact Options.isTls_iff h
  · intro e htopics
    simp [connect, Backend.plan, Backend.planLogs, htopics]
  · intro topics e htopics hmaterial
    apply (connect_of_topics htopics).1
    simp [Backend.plan, htopics, hmaterial]
  · intro topics material e htopics hmaterial hoptions
    apply (connect_of_topics htopics).1
    simp [Backend.plan, htopics, hmaterial, hoptions]
  · intro plan hplan
    obtain ⟨rest, hrest⟩ :=
      head_connect plan c.mqtt.server (w.opening plan) [connectSpan]
    refine ⟨rest, ?_⟩
    rw [(connect_of_topics (topics_of_plan hplan)).2 plan hplan, hrest]

def secured (caCert : String) : Config :=
  { Config.default with mqtt := { Config.Mqtt.default with server := "ssl://broker", caCert } }

def unsigned : World :=
  .offline (fun _ => .ok "this is not a certificate\n".toUTF8.toList) fun _ => none

/-- The platform is trusted, and a file is only when there are certificates in it. -/
theorem connectsAsChecked_secured :
    (∃ options, Options.ofConfig (secured "").mqtt unsigned.env false unsigned.tls.platform =
      .ok options ∧ options.security.isTls = true) ∧
    connect unsigned (secured "ca.pem") =
      (.error (.error (.tls (.noCertificates "ca.pem"))), []) := by
  constructor
  · have checked := connectsAsChecked unsigned (secured "")
    obtain ⟨options, hoptions⟩ :=
      checked.options (by decide +kernel) none rfl fun _ _ _ _ => rfl
    refine ⟨options, hoptions, (checked.encrypted false options hoptions).2 ?_⟩
    exact ⟨⟨"ssl".toList, "broker".toList, none⟩, by decide, by decide⟩
  · have checked := connectsAsChecked unsigned (secured "ca.pem")
    obtain ⟨topics, htopics⟩ := checked.topics (by decide +kernel)
    have hlogs : tlsRecords unsigned (secured "ca.pem").mqtt = [] := by decide +kernel
    rw [← hlogs]
    exact checked.tlsError topics (.noCertificates "ca.pem") htopics (by decide +kernel)

end Bridge

end LoraBridge
