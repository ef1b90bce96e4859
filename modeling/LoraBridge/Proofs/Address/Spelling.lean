import Mathlib.Data.List.DropRight
import Mathlib.Data.List.TakeWhile
import LoraBridge.Address.Broker

/-! The addresses of brokers as they are written: a scheme, an optional user, a host, an optional
port with any leading zeros, and an optional path. Reading one gives back its host and its port;
the scheme decides about encryption. -/
namespace LoraBridge.Address

def isPlain (c : Char) : Bool :=
  c.isAlphanum || c == '.' || c == '-' || c == '_'

def specialSchemes : List String := ["ftp", "file", "http", "https", "ws", "wss"]

structure WrittenPort where
  zeros : Nat
  number : Nat

def WrittenPort.chars (p : WrittenPort) : List Char :=
  List.replicate p.zeros '0' ++ Nat.toDigits 10 p.number

def IsPath (cs : List Char) : Prop :=
  cs = [] ∨ ∃ rest, cs = '/' :: rest

theorem IsPath.of_prefix {path kept : List Char} (h : IsPath path) (hkept : kept <+: path) :
    IsPath kept := by
  rcases h with rfl | ⟨rest, rfl⟩
  · exact .inl (List.prefix_nil.1 hkept)
  · cases kept with
    | nil => exact .inl rfl
    | cons c kept => exact .inr ⟨kept, by rw [(List.cons_prefix_cons.1 hkept).1]⟩

theorem IsPath.filter {path : List Char} {keep : Char → Bool} (h : IsPath path)
    (hslash : keep '/' = true) : IsPath (path.filter keep) := by
  rcases h with rfl | ⟨rest, rfl⟩
  · exact .inl rfl
  · exact .inr ⟨_, List.filter_cons_of_pos hslash⟩

structure Spelling where
  scheme : List Char
  user : Option (List Char)
  host : List Char
  port : Option WrittenPort
  path : List Char
  scheme_head : ∃ c ∈ scheme.head?, c.isAlpha = true
  scheme_chars : ∀ c ∈ scheme, Url.isSchemeChar c = true
  user_chars : ∀ u ∈ user, ∀ c ∈ u, c.isAlphanum = true
  host_ne_nil : host ≠ []
  host_chars : ∀ c ∈ host, isPlain c = true
  isPath : IsPath path

namespace Spelling

variable (s : Spelling)

def userChars : List Char :=
  match s.user with
  | some u => u ++ ['@']
  | none => []

def portChars : List Char :=
  match s.port with
  | some p => ':' :: p.chars
  | none => []

def server : List Char :=
  s.userChars ++ s.host ++ s.portChars

def url : String :=
  String.ofList (s.scheme ++ [':', '/', '/'] ++ s.server ++ s.path)

def kind : String :=
  String.ofList (s.scheme.map Char.toLower)

def number? : Option Nat :=
  s.port.map (·.number)

def fits : Bool :=
  s.number?.all (· ≤ 65535)

end Spelling

theorem toNat_of_isPlain {c : Char} (h : isPlain c = true) : 45 ≤ c.toNat ∧ c.toNat ≤ 122 := by
  have hupper : c.isUpper = true ↔ 65 ≤ c.toNat ∧ c.toNat ≤ 90 :=
    decide_eq_true_iff.trans (and_congr UInt32.le_iff_toNat_le UInt32.le_iff_toNat_le)
  have hlower : c.isLower = true ↔ 97 ≤ c.toNat ∧ c.toNat ≤ 122 :=
    Bool.and_eq_true_iff.trans (and_congr (decide_eq_true_iff.trans UInt32.le_iff_toNat_le)
      (decide_eq_true_iff.trans UInt32.le_iff_toNat_le))
  have hdigit : c.isDigit = true ↔ 48 ≤ c.toNat ∧ c.toNat ≤ 57 := Char.isDigit_iff_toNat
  change (((((c.isUpper || c.isLower) || c.isDigit) || c == '.') || c == '-') || c == '_') = true
    at h
  simp only [Bool.or_eq_true, hupper, hlower, hdigit, beq_iff_eq] at h
  rcases h with ((((h | h) | h) | rfl) | rfl) | rfl
  · omega
  · omega
  · omega
  · decide
  · decide
  · decide

theorem isPlain_of_isAlphanum {c : Char} (h : c.isAlphanum = true) : isPlain c = true := by
  simp [isPlain, h]

theorem isPlain_of_isDigit {c : Char} (h : c.isDigit = true) : isPlain c = true :=
  isPlain_of_isAlphanum (by rw [Char.isAlphanum, h, Bool.or_true])

theorem ne_of_isPlain {c d : Char} (h : isPlain c = true) (hd : isPlain d = false) : c ≠ d := by
  rintro rfl
  rw [h] at hd
  cases hd

namespace Url

@[simp] theorem not_endsServer {c : Char} (h : isPlain c = true) : endsServer false c = false := by
  simp [endsServer, ne_of_isPlain h (d := '/') rfl, ne_of_isPlain h (d := '?') rfl,
    ne_of_isPlain h (d := '#') rfl]

theorem not_isForbiddenInHost {c : Char} (h : isPlain c = true) : isForbiddenInHost c = false := by
  have hcode := toNat_of_isPlain h
  have hne : ∀ d ∈ " #/:<>?@[\\]^|".toList, c ≠ d := by
    have hall : " #/:<>?@[\\]^|".toList.all fun d => !isPlain d := by decide
    exact fun d hd => ne_of_isPlain h (by simpa using List.all_eq_true.1 hall d hd)
  unfold isForbiddenInHost
  rw [Bool.or_eq_false_iff]
  constructor
  · simp
    omega
  · simp only [List.contains_eq_mem, decide_eq_false_iff_not]
    exact fun hmem => hne c hmem rfl

@[simp]
theorem percentEncode_of_isPlain {c : Char} (h : isPlain c = true) : percentEncode c = [c] := by
  have hcode := toNat_of_isPlain h
  unfold percentEncode
  rw [if_neg]
  simp
  omega

theorem opaqueHost?_plain {host : List Char} (h : ∀ c ∈ host, isPlain c = true) :
    opaqueHost? host = some host := by
  have hbracket : host.head? ≠ some '[' := fun hhead =>
    ne_of_isPlain (h _ (List.mem_of_head? hhead)) (d := '[') rfl rfl
  have hforbidden : host.any isForbiddenInHost = false := by
    rw [List.any_eq_false]
    intro c hc
    rw [not_isForbiddenInHost (h c hc)]
    exact Bool.false_ne_true
  have hencode : host.flatMap percentEncode = host := by
    rw [List.flatMap_congr fun c hc => percentEncode_of_isPlain (h c hc)]
    exact List.flatMap_singleton' host
  unfold opaqueHost?
  rw [if_neg hbracket, hforbidden, hencode]
  rfl

theorem splitHost_plain {host rest : List Char} (h : ∀ c ∈ host, isPlain c = true)
    (hrest : ∀ c ∈ rest.head?, c = ':' ∨ c = '/') :
    splitHost false false (host ++ rest) = (host, rest) := by
  induction host with
  | nil =>
    cases rest with
    | nil => rfl
    | cons c rest =>
      rcases hrest c rfl with rfl | rfl <;> rfl
  | cons c host ih =>
    have hc := h c (List.mem_cons_self ..)
    rw [List.cons_append, splitHost, if_neg]
    · simp [ne_of_isPlain hc (d := '[') rfl, ne_of_isPlain hc (d := ']') rfl,
        ih fun d hd => h d (List.mem_cons_of_mem _ hd)]
    · simp [not_endsServer hc, ne_of_isPlain hc (d := ':') rfl]

private theorem takeWhile_server {server path : List Char}
    (h : ∀ c ∈ server, endsServer false c = false) (hpath : IsPath path) :
    (server ++ path).takeWhile (fun c => !endsServer false c) = server := by
  rw [List.takeWhile_append_of_pos fun c hc => by rw [h c hc]; rfl]
  rcases hpath with rfl | ⟨rest, rfl⟩ <;> exact List.append_nil _

end Url

theorem WrittenPort.isDigit_chars (p : WrittenPort) : ∀ c ∈ p.chars, c.isDigit = true := by
  intro c hc
  rcases List.mem_append.1 hc with hc | hc
  · rw [List.eq_of_mem_replicate hc]
    rfl
  · exact Nat.isDigit_of_mem_toDigits (by decide) (by decide) hc

@[simp] theorem WrittenPort.ofDigitChars_chars (p : WrittenPort) :
    Nat.ofDigitChars 10 p.chars 0 = p.number := by
  rw [chars, Nat.ofDigitChars_append, Nat.ofDigitChars_replicate_zero, Nat.mul_zero,
    Nat.ofDigitChars_ten_toDigits]

theorem WrittenPort.chars_ne_nil (p : WrittenPort) : p.chars ≠ [] := by
  simp [chars]

namespace Spelling

variable {s : Spelling} {path : List Char}

theorem port?_portChars (hpath : IsPath path) :
    Url.port? (s.portChars ++ path) = if s.fits then some s.number? else none := by
  unfold portChars fits number?
  cases s.port with
  | none => rcases hpath with rfl | ⟨rest, rfl⟩ <;> rfl
  | some p =>
    have hdigits : (p.chars ++ path).takeWhile Char.isDigit = p.chars := by
      rw [List.takeWhile_append_of_pos p.isDigit_chars]
      rcases hpath with rfl | ⟨rest, rfl⟩ <;> exact List.append_nil _
    have hvalue : p.chars.foldl (fun n c => 10 * n + (c.toNat - 48)) 0 = p.number :=
      p.ofDigitChars_chars
    simp only [List.cons_append, Url.port?, hdigits, hvalue, List.drop_left, List.isEmpty_iff,
      p.chars_ne_nil, ↓reduceIte, Option.map_some, Option.all_some, ← Nat.lt_succ_iff]
    rcases hpath with rfl | ⟨rest, rfl⟩ <;> rfl

theorem host_port_chars :
    ∀ c ∈ s.host ++ s.portChars, c ≠ '@' ∧ Url.endsServer false c = false := by
  intro c hc
  rcases List.mem_append.1 hc with hc | hc
  · have hplain := s.host_chars c hc
    exact ⟨ne_of_isPlain hplain rfl, Url.not_endsServer hplain⟩
  · unfold portChars at hc
    split at hc
    · rcases List.mem_cons.1 hc with rfl | hc
      · decide
      · have hplain := isPlain_of_isDigit (WrittenPort.isDigit_chars _ c hc)
        exact ⟨ne_of_isPlain hplain rfl, Url.not_endsServer hplain⟩
    · cases hc

theorem not_endsServer_server : ∀ c ∈ s.server, Url.endsServer false c = false := by
  intro c hc
  unfold server userChars at hc
  rw [List.append_assoc, List.mem_append] at hc
  rcases hc with hc | hc
  · split at hc
    · next u hu =>
      rcases List.mem_append.1 hc with hc | hc
      · exact Url.not_endsServer (isPlain_of_isAlphanum (s.user_chars u hu c hc))
      · rw [List.mem_singleton.1 hc]
        rfl
    · cases hc
  · exact (host_port_chars c hc).2

theorem behind_user :
    (s.server.reverse.takeWhile (· != '@')).reverse = s.host ++ s.portChars := by
  have hnone : ∀ c ∈ (s.host ++ s.portChars).reverse, (c != '@') = true := by
    intro c hc
    rw [bne_iff_ne]
    exact (host_port_chars c (List.mem_reverse.1 hc)).1
  unfold server userChars
  rw [List.append_assoc, List.reverse_append, List.takeWhile_append_of_pos hnone]
  cases s.user with
  | none => simp
  | some u => simp

theorem dropUser?_server (hpath : IsPath path) :
    ∃ hasUser, Url.dropUser? false (s.server ++ path) =
      some (hasUser, s.host ++ s.portChars ++ path) := by
  have hserver := Url.takeWhile_server s.not_endsServer_server hpath
  unfold Url.dropUser?
  simp only [hserver, behind_user, List.drop_left]
  split
  · next hlength =>
    have huser : s.userChars = [] := by
      rw [← List.length_eq_zero_iff]
      simp only [server, List.length_append] at hlength
      omega
    exact ⟨false, by simp [server, huser]⟩
  · simp [s.host_ne_nil]

theorem server?_server (scheme : List Char) (hpath : IsPath path) :
    Url.server? false scheme (s.server ++ path) =
      if s.fits then some ⟨scheme, s.host, s.number?⟩ else none := by
  obtain ⟨hasUser, huser⟩ := s.dropUser?_server hpath
  have hrest : ∀ c ∈ (s.portChars ++ path).head?, c = ':' ∨ c = '/' := by
    unfold portChars
    cases s.port with
    | none => rcases hpath with rfl | ⟨rest, rfl⟩ <;> simp
    | some p => simp
  have hempty : s.host.isEmpty = false := by
    simp [s.host_ne_nil]
  unfold Url.server?
  rw [huser, List.append_assoc]
  simp only [Option.bind_eq_bind, Option.bind_some, Url.splitHost_plain s.host_chars hrest,
    Url.opaqueHost?_plain s.host_chars, port?_portChars hpath, hempty, Bool.false_and,
    Bool.false_eq_true, ↓reduceIte]
  cases s.fits <;> rfl

end Spelling

namespace Url

theorem rdropWhile_append {front path : List Char} (h : ∀ c ∈ front, isTrimmed c = false) :
    ∃ kept, kept <+: path ∧ (front ++ path).rdropWhile isTrimmed = front ++ kept := by
  induction path using List.reverseRecOn with
  | nil =>
    refine ⟨[], List.prefix_refl _, ?_⟩
    rw [List.append_nil, List.rdropWhile_eq_self_iff]
    intro hne
    rw [h _ (List.getLast_mem hne)]
    exact Bool.false_ne_true
  | append_singleton path c ih =>
    obtain ⟨kept, hkept, heq⟩ := ih
    rw [← List.append_assoc, List.rdropWhile_concat]
    split
    · exact ⟨kept, hkept.trans (List.prefix_append _ _), heq⟩
    · exact ⟨path ++ [c], List.prefix_refl _, List.append_assoc ..⟩

theorem clean_append {front path : List Char} (h : ∀ c ∈ front, 32 < c.toNat)
    (hpath : IsPath path) :
    ∃ path', IsPath path' ∧ clean (front ++ path) = front ++ path' := by
  have htrim : ∀ c ∈ front, isTrimmed c = false := by
    intro c hc
    simp [isTrimmed, h c hc]
  have hkeep : ∀ c ∈ front, (c != '\t' && c != '\n' && c != '\r') = true := by
    intro c hc
    have hcode := h c hc
    simp only [Bool.and_eq_true, bne_iff_ne, ne_eq]
    refine ⟨⟨?_, ?_⟩, ?_⟩ <;> rintro rfl <;> revert hcode <;> decide
  have hfront : (front ++ path).dropWhile isTrimmed = front ++ path := by
    cases front with
    | nil => rcases hpath with rfl | ⟨rest, rfl⟩ <;> rfl
    | cons c front =>
      rw [List.cons_append, List.dropWhile_cons_of_neg]
      rw [htrim c (List.mem_cons_self ..)]
      exact Bool.false_ne_true
  obtain ⟨kept, hkept, hdropped⟩ := @rdropWhile_append front path htrim
  refine ⟨kept.filter fun c => c != '\t' && c != '\n' && c != '\r',
    (hpath.of_prefix hkept).filter rfl, ?_⟩
  unfold clean
  rw [hfront, ← List.rdropWhile, hdropped, List.filter_append, List.filter_eq_self.2 hkeep]

theorem lt_of_isSchemeChar {c : Char} (h : isSchemeChar c = true) :
    32 < c.toNat ∧ c ≠ ':' := by
  simp only [isSchemeChar, Bool.or_eq_true, beq_iff_eq] at h
  rcases h with ((h | rfl) | rfl) | rfl
  · have hplain := isPlain_of_isAlphanum h
    have hcode := toNat_of_isPlain hplain
    exact ⟨by omega, ne_of_isPlain hplain rfl⟩
  · decide
  · decide
  · decide

end Url

namespace Spelling

variable {s : Spelling}

@[simp] theorem scheme?_front (rest : List Char) :
    Url.scheme? (s.scheme ++ ':' :: rest) = some (s.scheme.map Char.toLower, rest) := by
  have htake : (s.scheme ++ ':' :: rest).takeWhile Url.isSchemeChar = s.scheme := by
    rw [List.takeWhile_append_of_pos s.scheme_chars]
    exact List.append_nil _
  have hdrop : (s.scheme ++ ':' :: rest).dropWhile Url.isSchemeChar = ':' :: rest := by
    rw [List.dropWhile_append_of_pos s.scheme_chars]
    rfl
  obtain ⟨c, hc, halpha⟩ := s.scheme_head
  obtain ⟨tail, hscheme⟩ := List.head?_eq_some_iff.1 hc
  unfold Url.scheme?
  rw [hdrop, htake, hscheme]
  simp [halpha]

theorem printable_server : ∀ c ∈ s.server, 32 < c.toNat := by
  intro c hc
  have hlt : ∀ d, isPlain d = true → 32 < d.toNat := fun d hd => by
    have hcode := toNat_of_isPlain hd
    omega
  unfold server userChars portChars at hc
  simp only [List.mem_append] at hc
  rcases hc with (hc | hc) | hc
  · split at hc
    · next u hu =>
      rcases List.mem_append.1 hc with hc | hc
      · exact hlt c (isPlain_of_isAlphanum (s.user_chars u hu c hc))
      · rw [List.mem_singleton.1 hc]
        decide
    · cases hc
  · exact hlt c (s.host_chars c hc)
  · split at hc
    · rcases List.mem_cons.1 hc with rfl | hc
      · decide
      · exact hlt c (isPlain_of_isDigit (WrittenPort.isDigit_chars _ c hc))
    · cases hc

theorem parse?_url (h : s.kind ∉ specialSchemes) :
    Url.parse? s.url.toList =
      if s.fits then some ⟨s.scheme.map Char.toLower, s.host, s.number?⟩ else none := by
  have hfront : ∀ c ∈ s.scheme ++ [':', '/', '/'] ++ s.server, 32 < c.toNat := by
    intro c hc
    simp only [List.mem_append] at hc
    rcases hc with (hc | hc) | hc
    · exact (Url.lt_of_isSchemeChar (s.scheme_chars c hc)).1
    · have hall : [':', '/', '/'].all fun c => decide (32 < c.toNat) := by decide
      exact of_decide_eq_true (List.all_eq_true.1 hall c hc)
    · exact s.printable_server c hc
  obtain ⟨path, hpath, hclean⟩ := Url.clean_append hfront s.isPath
  have hscheme : Url.scheme? (Url.clean s.url.toList) =
      some (s.scheme.map Char.toLower, '/' :: '/' :: (s.server ++ path)) := by
    rw [url, String.toList_ofList, hclean, ← s.scheme?_front]
    simp
  have hnot : ∀ name : String, name ∈ specialSchemes → s.scheme.map Char.toLower ≠ name.toList := by
    intro name hname heq
    rw [kind, heq, String.ofList_toList] at h
    exact h hname
  have hspecial : ["http", "https", "ws", "wss", "ftp"] ⊆ specialSchemes := by decide
  have hweb : Url.webSchemes.contains (s.scheme.map Char.toLower) = false := by
    rw [Url.webSchemes, ← Bool.not_eq_true, List.contains_iff_mem, List.mem_map]
    rintro ⟨name, hname, heq⟩
    exact hnot name (hspecial hname) heq.symm
  unfold Url.parse?
  rw [hscheme]
  simp only [Option.bind_eq_bind, Option.bind_some, hnot "file" (by decide), hweb,
    Bool.false_eq_true, ↓reduceIte]
  exact s.server?_server _ hpath

/-- What an address is read as. -/
structure Understood (s : Spelling) : Prop where
  plain : s.kind ∈ ["tcp", "mqtt"] → BrokerAddress.parse s.url =
    if s.fits then .ok ⟨String.ofList s.host, s.number?.getD 1883, false⟩
    else .error (.invalidUrl s.url)
  secure : s.kind ∈ ["ssl", "tls", "mqtts"] → BrokerAddress.parse s.url =
    if s.fits then .ok ⟨String.ofList s.host, s.number?.getD 8883, true⟩
    else .error (.invalidUrl s.url)
  other : s.kind ∉ ["tcp", "mqtt", "ssl", "tls", "mqtts"] → s.kind ∉ specialSchemes →
    BrokerAddress.parse s.url =
      if s.fits then .error (.unsupportedScheme s.kind) else .error (.invalidUrl s.url)

theorem parse_eq {tls : Option Bool} (h : s.kind ∉ specialSchemes)
    (htls : BrokerAddress.tlsOfScheme? (s.scheme.map Char.toLower) = tls) :
    BrokerAddress.parse s.url =
      if s.fits then
        match tls with
        | some tls =>
          .ok ⟨String.ofList s.host, s.number?.getD (BrokerAddress.defaultPort tls), tls⟩
        | none => .error (.unsupportedScheme s.kind)
      else .error (.invalidUrl s.url) := by
  have hempty : s.host.isEmpty = false := by
    simp [s.host_ne_nil]
  unfold BrokerAddress.parse
  rw [s.parse?_url h]
  cases s.fits with
  | false => rfl
  | true =>
    simp only [↓reduceIte, htls, hempty]
    cases tls <;> rfl

theorem understood (s : Spelling) : s.Understood := by
  refine ⟨fun h => ?_, fun h => ?_, fun h hspecial => ?_⟩
  · refine parse_eq ?_ (if_pos (List.contains_iff_mem.2 h))
    rcases List.mem_pair.1 h with h | h <;> rw [h] <;> decide
  · have hplain : s.kind ∉ ["tcp", "mqtt"] ∧ s.kind ∉ specialSchemes := by
      simp only [List.mem_cons, List.not_mem_nil, or_false] at h
      rcases h with h | h | h <;> rw [h] <;> decide
    exact parse_eq hplain.2 ((if_neg (mt List.contains_iff_mem.1 hplain.1)).trans
      (if_pos (List.contains_iff_mem.2 h)))
  · have hplain : s.kind ∉ ["tcp", "mqtt"] := fun hmem =>
      h (List.mem_append_left ["ssl", "tls", "mqtts"] hmem)
    have hsecure : s.kind ∉ ["ssl", "tls", "mqtts"] := fun hmem =>
      h (List.mem_append_right ["tcp", "mqtt"] hmem)
    exact parse_eq hspecial ((if_neg (mt List.contains_iff_mem.1 hplain)).trans
      (if_neg (mt List.contains_iff_mem.1 hsecure)))

/-- An address with a port that is too large. -/
def largePort : Spelling where
  scheme := ['f', 'o', 'o']
  user := none
  host := ['h']
  port := some ⟨0, 65536⟩
  path := []
  scheme_head := ⟨'f', rfl, rfl⟩
  scheme_chars := List.all_eq_true.1 (by decide)
  user_chars := nofun
  host_ne_nil := by decide
  host_chars := List.all_eq_true.1 (by decide)
  isPath := .inl rfl

/-- A URL whose port is too large is none, so that nothing is said of its scheme. -/
theorem not_unsupported_largePort : ∃ s : Spelling,
    s.kind ∉ ["tcp", "mqtt", "ssl", "tls", "mqtts"] ∧ s.kind ∉ specialSchemes ∧
      BrokerAddress.parse s.url ≠ .error (.unsupportedScheme s.kind) := by
  refine ⟨largePort, by decide, by decide, ?_⟩
  decide

end Spelling

end LoraBridge.Address
