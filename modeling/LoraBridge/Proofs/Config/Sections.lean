import LoraBridge.Config.Print
import LoraBridge.Config.Read
import LoraBridge.Proofs.Toml.Lines

/-! What a section takes over from the settings that are written in it, and what it leaves. -/
namespace LoraBridge.Config

open Toml (Value)

def Scalar.value : Scalar → Value
  | .text s => .string s
  | .number n => .integer n
  | .flag b => .boolean b

@[simp] theorem text?_value (s : String) : text? (Scalar.text s).value = some s := rfl

@[simp] theorem bool?_value (b : Bool) : bool? (Scalar.flag b).value = some b := rfl

@[simp] theorem nat?_value {bound n : Nat} (h : n < bound) :
    nat? bound (Scalar.number n).value = some n := by
  rw [Scalar.value, nat?, Int.toNat_natCast, if_pos ⟨Int.natCast_nonneg n, h⟩]

@[simp]
private theorem word8?_value (n : UInt8) : word8? (Scalar.number n.toNat).value = some n := by
  rw [word8?, nat?_value n.toNat_lt, Option.map_some, UInt8.ofNat_toNat]

@[simp]
private theorem word64?_value (n : UInt64) : word64? (Scalar.number n.toNat).value = some n := by
  rw [word64?, nat?_value n.toNat_lt, Option.map_some, UInt64.ofNat_toNat]

section Lookup

variable {κ : Type} [DecidableEq κ]

def valueAt? (es : List (κ × Option Scalar)) (k : κ) : Option Scalar := (es.lookup k).join

def put (es : List (κ × Option Scalar)) (k : κ) (v : Scalar) : List (κ × Option Scalar) :=
  es.map fun e => (e.1, if e.1 = k then some v else e.2)

@[simp] theorem valueAt?_cons (e : κ × Option Scalar) (es : List (κ × Option Scalar)) (k : κ) :
    valueAt? (e :: es) k = if k = e.1 then e.2 else valueAt? es k := by
  obtain ⟨k', v⟩ := e
  rw [valueAt?, List.lookup_cons]
  by_cases h : k = k'
  · rw [if_pos h, h, BEq.rfl]
    rfl
  · rw [if_neg h, beq_false_of_ne h]
    rfl

theorem mem_of_valueAt? {es : List (κ × Option Scalar)} {k : κ} {v : Scalar}
    (h : valueAt? es k = some v) : (k, some v) ∈ es := by
  induction es with
  | nil => cases h
  | cons e es ih =>
    rw [valueAt?_cons] at h
    split at h
    · next heq => exact List.mem_cons.2 (.inl (by rw [heq, ← h]))
    · exact List.mem_cons_of_mem _ (ih h)

@[simp] theorem valueAt?_put (es : List (κ × Option Scalar)) (k : κ) (v : Scalar) (k' : κ) :
    valueAt? (put es k v) k' =
      if k' = k ∧ k' ∈ es.map Prod.fst then some v else valueAt? es k' := by
  induction es with
  | nil => rw [if_neg (by simp)]; rfl
  | cons e es ih =>
    have hput : put (e :: es) k v = (e.1, if e.1 = k then some v else e.2) :: put es k v := rfl
    rw [hput, valueAt?_cons, valueAt?_cons, ih]
    by_cases hk : k' = e.1
    · simp [hk]
    · simp only [List.map_cons, List.mem_cons, hk, false_or, if_false]

end Lookup

structure Overlay {κ : Type} (keys : List κ) (new old all : κ → Option Scalar) : Prop where
  within : ∀ k ∈ keys, all k = new k
  beyond : ∀ k, k ∉ keys → all k = old k

namespace Overlay

variable {κ : Type} {keys keys' : List κ} {new old next all : κ → Option Scalar}

theorem nil (new old : κ → Option Scalar) : Overlay [] new old old := ⟨nofun, fun _ _ => rfl⟩

theorem append (h : Overlay keys new old next) (h' : Overlay keys' new next all) :
    Overlay (keys ++ keys') new old all where
  within k hk := by
    by_cases hlate : k ∈ keys'
    · exact h'.within k hlate
    · exact (h'.beyond k hlate).trans (h.within k ((List.mem_append.1 hk).resolve_right hlate))
  beyond k hk := by
    obtain ⟨hearly, hlate⟩ := not_or.1 (mt List.mem_append.2 hk)
    exact (h'.beyond k hlate).trans (h.beyond k hearly)

theorem of_ne {k : κ} (hk : all k = new k) (h : ∀ k', k' ≠ k → all k' = old k') :
    Overlay [k] new old all :=
  ⟨fun _ hmem => List.mem_singleton.1 hmem ▸ hk, fun k' hmem => h k' (mt List.mem_singleton.2 hmem)⟩

end Overlay

section Reading

variable {σ κ : Type} {settings : List (Setting σ)}

def takeOver (settings : List (Setting σ)) (acc : σ) (e : String × Value) : Option σ :=
  match settings.find? fun s => s.name == e.1 with
  | some s => s.read e.2 acc
  | none => some acc

theorem readSection_table (settings : List (Setting σ)) (acc : σ) (form : Toml.Form)
    (es : Toml.Entries) :
    readSection settings acc (.table form es) = es.foldlM (takeOver settings) acc := rfl

/-- Settings that serve some keys of a record: a value that one of them has somewhere is taken
over, and no other key changes. -/
def Serves (settings : List (Setting σ)) (view : σ → κ → Option Scalar) (key : String → κ) : Prop :=
  ∀ (c acc : σ) (name : String) (v : Scalar), view c (key name) = some v →
    ∃ acc', takeOver settings acc (name, v.value) = some acc' ∧
      Overlay [key name] (view c) (view acc) (view acc')

def written (es : List (String × Scalar)) : Toml.Entries := es.map fun e => (e.1, e.2.value)

theorem Serves.read {view : σ → κ → Option Scalar} {key : String → κ}
    (h : Serves settings view key) (c : σ) {es : List (String × Scalar)}
    (hes : ∀ e ∈ es, view c (key e.1) = some e.2) (form : Toml.Form) (acc : σ) :
    ∃ acc', readSection settings acc (.table form (written es)) = some acc' ∧
      Overlay (es.map fun e => key e.1) (view c) (view acc) (view acc') := by
  rw [readSection_table]
  induction es generalizing acc with
  | nil => exact ⟨acc, rfl, .nil _ _⟩
  | cons e es ih =>
    obtain ⟨he, hes⟩ := List.forall_mem_cons.1 hes
    obtain ⟨next, hnext, hfirst⟩ := h c acc e.1 e.2 he
    obtain ⟨acc', hacc', hmore⟩ := ih hes next
    refine ⟨acc', ?_, hfirst.append hmore⟩
    rw [written, List.map_cons, List.foldlM_cons, hnext]
    exact hacc'

end Reading

namespace Mqtt

theorem entries_names (m m' : Mqtt) : m.entries.map Prod.fst = m'.entries.map Prod.fst := rfl

theorem takeOver_entry {c : Mqtt} (acc : Mqtt) {name : String} {v : Scalar}
    (h : (name, some v) ∈ c.entries) :
    ∃ acc', takeOver mqttSettings acc (name, v.value) = some acc' ∧
      acc'.entries = put acc.entries name v := by
  simp only [entries, List.mem_cons, Prod.mk.injEq, List.not_mem_nil, or_false] at h
  rcases h with ⟨rfl, h⟩ | ⟨rfl, h⟩ | ⟨rfl, h⟩ | ⟨rfl, h⟩ | ⟨rfl, h⟩ | ⟨rfl, h⟩ | ⟨rfl, h⟩ |
    ⟨rfl, h⟩ | ⟨rfl, h⟩ | ⟨rfl, h⟩ | ⟨rfl, h⟩ | ⟨rfl, h⟩ | ⟨rfl, h⟩ | ⟨rfl, h⟩ | ⟨rfl, h⟩ |
    ⟨rfl, h⟩ | ⟨rfl, h⟩ | ⟨rfl, h⟩ | ⟨rfl, h⟩
  -- Three of the settings are optional; one of these is taken over only where it is set.
  all_goals first
    | obtain rfl := Option.some.inj h
    | obtain ⟨s, -, rfl⟩ := Option.map_eq_some_iff.1 h.symm
  all_goals simp [takeOver, mqttSettings, setting, text?_value, word64?_value, put, entries]

theorem serves : Serves mqttSettings (fun m => valueAt? m.entries) id := by
  intro c acc name v hv
  have hmem := mem_of_valueAt? hv
  obtain ⟨acc', hread, hentries⟩ := takeOver_entry acc hmem
  have hname : name ∈ acc.entries.map Prod.fst :=
    entries_names c acc ▸ List.mem_map_of_mem (f := Prod.fst) hmem
  refine ⟨acc', hread, .of_ne ?_ fun k hk => ?_⟩
  · show valueAt? acc'.entries name = valueAt? c.entries name
    rw [hentries, id, valueAt?_put, if_pos ⟨rfl, hname⟩]
    exact hv.symm
  · show valueAt? acc'.entries k = valueAt? acc.entries k
    rw [hentries, id, valueAt?_put, if_neg fun hboth => hk hboth.1]

end Mqtt

/-- The tables of a file. -/
inductive Section where
  | general
  | packetForwarder
  | mqtt
deriving DecidableEq

namespace Section

def all : List Section := [general, packetForwarder, mqtt]

theorem nodup_all : all.Nodup := by decide

theorem mem_all (s : Section) : s ∈ all := by
  cases s <;> decide

def outer : Section → List String
  | general => []
  | packetForwarder => []
  | mqtt => ["backend"]

def name : Section → String
  | general => "general"
  | packetForwarder => "packet_forwarder"
  | mqtt => "mqtt"

def path (s : Section) : List String := s.outer ++ [s.name]

def entries (c : Config) : Section → Entries
  | general => [("log_level", some (.number c.logLevel.toNat))]
  | packetForwarder =>
    [("udp_bind", some (.text c.udpBind)), ("skip_crc_check", some (.flag c.skipCrcCheck))]
  | mqtt => c.mqtt.entries

end Section

theorem tables_eq (c : Config) : c.tables = Section.all.map fun s => (s.path, s.entries c) := rfl

def value? (c : Config) (k : Section × String) : Option Scalar := valueAt? (k.1.entries c) k.2

theorem serves_general : Serves generalSettings value? fun name => (.general, name) := by
  intro c acc name v hv
  obtain ⟨rfl, rfl⟩ : name = "log_level" ∧ v = .number c.logLevel.toNat := by
    simpa [Section.entries] using mem_of_valueAt? hv
  refine ⟨{ acc with logLevel := c.logLevel }, ?_, .of_ne rfl ?_⟩
  · simp [takeOver, generalSettings, setting, word8?_value]
  · rintro ⟨_ | _ | _, n⟩ hk
    · have hn : n ≠ "log_level" := by simpa using hk
      simp [value?, Section.entries, valueAt?_cons, hn]
    · rfl
    · rfl

theorem serves_packetForwarder :
    Serves packetForwarderSettings value? fun name => (.packetForwarder, name) := by
  intro c acc name v hv
  have hmem : name = "udp_bind" ∧ v = .text c.udpBind ∨
      name = "skip_crc_check" ∧ v = .flag c.skipCrcCheck := by
    simpa [Section.entries] using mem_of_valueAt? hv
  rcases hmem with ⟨rfl, rfl⟩ | ⟨rfl, rfl⟩
  · refine ⟨{ acc with udpBind := c.udpBind }, ?_, .of_ne rfl ?_⟩
    · simp [takeOver, packetForwarderSettings, setting, text?_value]
    · rintro ⟨_ | _ | _, n⟩ hk
      · rfl
      · have hn : n ≠ "udp_bind" := by simpa using hk
        simp [value?, Section.entries, valueAt?_cons, hn]
      · rfl
  · refine ⟨{ acc with skipCrcCheck := c.skipCrcCheck }, ?_, .of_ne rfl ?_⟩
    · simp [takeOver, packetForwarderSettings, setting, bool?_value]
    · rintro ⟨_ | _ | _, n⟩ hk
      · rfl
      · have hn : n ≠ "skip_crc_check" := by simpa using hk
        simp [value?, Section.entries, valueAt?_cons, hn]
      · rfl

theorem takeOver_table (c : Config) {s : Section} {es : List (String × Scalar)}
    (hes : ∀ e ∈ es, c.value? (s, e.1) = some e.2) {acc : Config}
    (hacc : ∀ name, acc.value? (s, name) = default.value? (s, name)) :
    ∃ acc', takeOver sections acc (Toml.tableAt s.outer s.name (written es)) = some acc' ∧
      Overlay (es.map fun e => (s, e.1)) c.value? acc.value? acc'.value? := by
  cases s with
  | general =>
    have htable : takeOver sections acc (Toml.tableAt [] "general" (written es)) =
        readSection generalSettings acc (.table .header (written es)) := by
      simp [takeOver, sections, Toml.tableAt, Toml.nest]
    rw [Section.outer, Section.name, htable]
    exact serves_general.read c hes .header acc
  | packetForwarder =>
    have htable : takeOver sections acc (Toml.tableAt [] "packet_forwarder" (written es)) =
        readSection packetForwarderSettings acc (.table .header (written es)) := by
      simp [takeOver, sections, Toml.tableAt, Toml.nest]
    rw [Section.outer, Section.name, htable]
    exact serves_packetForwarder.read c hes .header acc
  -- These settings are read over their defaults and not over what was there before.
  | mqtt =>
    have htable : takeOver sections acc (Toml.tableAt ["backend"] "mqtt" (written es)) =
        (readSection mqttSettings Mqtt.default (.table .header (written es))).map fun m =>
          { acc with mqtt := m } := by
      simp [takeOver, sections, Toml.tableAt, Toml.nest, readSection_table, backendSettings,
        setting]
    obtain ⟨m, hm, hview⟩ := Mqtt.serves.read c.mqtt hes .header Mqtt.default
    rw [Section.outer, Section.name, htable, hm]
    refine ⟨{ acc with mqtt := m }, rfl, ⟨?_, ?_⟩⟩
    · intro k hk
      obtain ⟨e, he, rfl⟩ := List.mem_map.1 hk
      exact hview.within e.1 (List.mem_map.2 ⟨e, he, rfl⟩)
    · rintro ⟨_ | _ | _, n⟩ hk
      · rfl
      · rfl
      · refine (hview.beyond n fun hn => hk ?_).trans (hacc n).symm
        obtain ⟨e, he, rfl⟩ := List.mem_map.1 hn
        exact List.mem_map.2 ⟨e, he, rfl⟩

/-- A file of tables has what is written in it, and defaults for the rest. -/
theorem readSection_tables (c : Config) {ts : List (Section × List (String × Scalar))}
    (hnodup : (ts.map Prod.fst).Nodup)
    (hvalues : ∀ t ∈ ts, ∀ e ∈ t.2, c.value? (t.1, e.1) = some e.2) {acc : Config}
    (hacc : ∀ t ∈ ts, ∀ name, acc.value? (t.1, name) = default.value? (t.1, name)) :
    ∃ acc', readSection sections acc (.table .header
        (ts.map fun t => Toml.tableAt t.1.outer t.1.name (written t.2))) = some acc' ∧
      Overlay (ts.flatMap fun t => t.2.map fun e => (t.1, e.1)) c.value? acc.value?
        acc'.value? := by
  rw [readSection_table]
  induction ts generalizing acc with
  | nil => exact ⟨acc, rfl, .nil _ _⟩
  | cons t ts ih =>
    rw [List.map_cons, List.nodup_cons] at hnodup
    obtain ⟨hhere, hvalues⟩ := List.forall_mem_cons.1 hvalues
    -- The other tables still have their defaults, as they are other sections.
    obtain ⟨next, hnext, hfirst⟩ := takeOver_table c hhere (hacc t (List.mem_cons_self ..))
    obtain ⟨acc', hacc', hmore⟩ := ih hnodup.2 hvalues fun t' ht' name => by
      refine (hfirst.beyond _ fun hmem => ?_).trans (hacc t' (List.mem_cons_of_mem _ ht') name)
      obtain ⟨e, -, he⟩ := List.mem_map.1 hmem
      exact hnodup.1 (List.mem_map.2 ⟨t', ht', (congrArg Prod.fst he).symm⟩)
    refine ⟨acc', ?_, hfirst.append hmore⟩
    rw [List.map_cons, List.foldlM_cons, hnext]
    exact hacc'

end LoraBridge.Config
