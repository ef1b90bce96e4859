import Mathlib.Data.List.Forall2
import LoraBridge.Proofs.Config.Sections

/-! Configurations that are written to a file and read from it: a whole configuration comes back,
and of a part of its settings the rest has defaults. -/
namespace LoraBridge.Config

def Scalar.Fits : Scalar → Prop
  | .number n => n < 0x8000000000000000
  | _ => True

theorem Scalar.denotes {v : Scalar} (h : v.Fits) : Toml.Denotes v.chars v.value := by
  cases v with
  | text s =>
    have hquoted := Toml.denotes_quoted s.toList
    rwa [String.ofList_toList] at hquoted
  | number n => exact Toml.denotes_toDigits h
  | flag b => exact Toml.denotes_boolean b

instance : DecidablePred Scalar.Fits
  | .number n => inferInstanceAs (Decidable (n < 0x8000000000000000))
  | .text _ => inferInstanceAs (Decidable True)
  | .flag _ => inferInstanceAs (Decidable True)

def Fits (c : Config) : Prop := ∀ t ∈ c.tables, ∀ e ∈ t.2, ∀ v ∈ e.2, v.Fits

instance (c : Config) : Decidable c.Fits :=
  decidable_of_iff
    (c.tables.all fun t => t.2.all fun e => e.2.all fun v => decide v.Fits)
    (by simp [Fits, Option.all_eq_true])

theorem Fits.of_value? {c : Config} (h : c.Fits) {k : Section × String} {v : Scalar}
    (hv : c.value? k = some v) : v.Fits := by
  have htable : (k.1.path, k.1.entries c) ∈ c.tables :=
    c.tables_eq ▸ List.mem_map_of_mem (f := fun s => (s.path, s.entries c)) k.1.mem_all
  exact h _ htable (k.2, some v) (mem_of_valueAt? hv) v rfl

theorem map_pmap_eq {α β γ : Type} {P : α → Prop} {f : (a : α) → P a → β} {g : β → γ} {k : α → γ}
    (h : ∀ a ha, g (f a ha) = k a) (l : List α) (hl : ∀ a ∈ l, P a) :
    (l.pmap f hl).map g = l.map k := by
  rw [List.map_pmap]
  exact (List.pmap_congr_left l fun a _ ha _ => h a ha).trans (List.pmap_eq_map hl)

section Lookup

variable {κ : Type} [DecidableEq κ] {es es' : List (κ × Option Scalar)}

theorem valueAt?_of_mem {e : κ × Option Scalar} (hnodup : (es.map Prod.fst).Nodup)
    (h : e ∈ es) : valueAt? es e.1 = e.2 := by
  induction es with
  | nil => cases h
  | cons d es ih =>
    rw [List.map_cons, List.nodup_cons] at hnodup
    rw [valueAt?_cons]
    rcases List.mem_cons.1 h with rfl | h
    · exact if_pos rfl
    · have hne : e.1 ≠ d.1 := fun heq => hnodup.1 (heq ▸ List.mem_map_of_mem h)
      rw [if_neg hne, ih hnodup.2 h]

private theorem eq_map_valueAt? (hnodup : (es.map Prod.fst).Nodup) :
    es = (es.map Prod.fst).map fun k => (k, valueAt? es k) := by
  rw [List.map_map]
  refine (List.map_id es).symm.trans (List.map_congr_left fun e he => ?_)
  exact Prod.ext rfl (valueAt?_of_mem hnodup he).symm

theorem ext_valueAt? (hnodup : (es.map Prod.fst).Nodup) (hkeys : es.map Prod.fst = es'.map Prod.fst)
    (h : ∀ k, valueAt? es k = valueAt? es' k) : es = es' := by
  refine (eq_map_valueAt? hnodup).trans (Eq.trans ?_ (eq_map_valueAt? (hkeys ▸ hnodup)).symm)
  rw [hkeys]
  exact List.map_congr_left fun k _ => by rw [h]

theorem valueAt?_eq_none
    (h : List.Forall₂ (fun d e => d.1 = e.1 ∧ (e.2 = none → d.2 = none)) es es') {k : κ}
    (hk : valueAt? es' k = none) : valueAt? es k = none := by
  induction h with
  | nil => exact hk
  | @cons d e ds es hhead _ ih =>
    rw [valueAt?_cons] at hk ⊢
    rw [hhead.1]
    split at hk
    · next heq => rw [if_pos heq]; exact hhead.2 hk
    · next hne => rw [if_neg hne]; exact ih hk

end Lookup

namespace Section

theorem entries_names (s : Section) (c c' : Config) :
    (s.entries c).map Prod.fst = (s.entries c').map Prod.fst := by
  cases s <;> rfl

theorem nodup_names (s : Section) (c : Config) : ((s.entries c).map Prod.fst).Nodup := by
  rw [entries_names s c default]
  cases s <;> decide

private theorem isBare_names (s : Section) (c : Config) :
    ∀ name ∈ (s.entries c).map Prod.fst, Toml.IsBare name := by
  have hbare : ((s.entries default).map Prod.fst).all fun name => decide (Toml.IsBare name) := by
    cases s <;> decide
  intro name h
  rw [entries_names s c default] at h
  exact of_decide_eq_true (List.all_eq_true.1 hbare name h)

private theorem isBare_path (s : Section) : ∀ k ∈ s.outer ++ [s.name], Toml.IsBare k := by
  have hbare : (s.outer ++ [s.name]).all fun k => decide (Toml.IsBare k) := by
    cases s <;> decide
  exact fun k h => of_decide_eq_true (List.all_eq_true.1 hbare k h)

private theorem top_injective {s s' : Section} {es es' : Toml.Entries}
    (h : (Toml.tableAt s.outer s.name es).1 = (Toml.tableAt s'.outer s'.name es').1) : s = s' := by
  rw [Toml.tableAt_fst _ _ es [], Toml.tableAt_fst _ _ es' []] at h
  cases s <;> cases s' <;> first | rfl | exact absurd h (by decide)

private theorem path_text (s : Section) : (".".intercalate s.path).toList = Toml.joined s.path := by
  cases s <;> rfl

end Section

private theorem mem_names {c : Config} {s : Section} {name : String} {v : Scalar}
    (h : c.value? (s, name) = some v) : name ∈ (s.entries c).map Prod.fst :=
  List.mem_map_of_mem (f := Prod.fst) (mem_of_valueAt? h)

theorem Mqtt.entries_injective {m m' : Mqtt} (h : m.entries = m'.entries) : m = m' := by
  have htext (a b : Option String) : a.map Scalar.text = b.map Scalar.text ↔ a = b :=
    (Option.map_injective fun _ _ => Scalar.text.inj).eq_iff
  cases m
  cases m'
  simpa [entries, UInt64.toNat_inj, htext] using h

theorem ext_value? {c c' : Config} (h : ∀ k, c.value? k = c'.value? k) : c = c' := by
  have hentries (s : Section) : s.entries c = s.entries c' :=
    ext_valueAt? (s.nodup_names c) (s.entries_names c c') fun name => h (s, name)
  have hgeneral := hentries .general
  have hforwarder := hentries .packetForwarder
  have hmqtt := Mqtt.entries_injective (hentries .mqtt)
  cases c
  cases c'
  simp_all [Section.entries, UInt8.toNat_inj]

private theorem default_value?_eq_none {c : Config} {k : Section × String} (h : c.value? k = none) :
    default.value? k = none := by
  obtain ⟨s, name⟩ := k
  refine valueAt?_eq_none ?_ h
  cases s with
  | general => simp [Section.entries]
  | packetForwarder => simp [Section.entries]
  | mqtt => simp [Section.entries, Mqtt.entries, default, Mqtt.default]

/-- What a file has of the settings of a configuration: some tables, with some settings in each. -/
structure Selection (c : Config) where
  tables : List (Section × List (String × Scalar))
  sections : (tables.map Prod.fst).Nodup
  names : ∀ t ∈ tables, (t.2.map Prod.fst).Nodup
  values : ∀ t ∈ tables, ∀ e ∈ t.2, c.value? (t.1, e.1) = some e.2

namespace Selection

variable {c : Config}

def lines (t : Section × List (String × Scalar)) : List Char :=
  tableLines (t.1.path, t.2.map fun e => (e.1, some e.2))

def text (s : c.Selection) : String := String.ofList (['\n'].intercalate (s.tables.map lines))

def keys (s : c.Selection) : List (Section × String) :=
  s.tables.flatMap fun t => t.2.map fun e => (t.1, e.1)

def line (h : c.Fits) {s : Section} (e : String × Scalar) (he : c.value? (s, e.1) = some e.2) :
    Toml.Line where
  name := e.1
  text := e.2.chars
  value := e.2.value
  bare := s.isBare_names c e.1 (mem_names he)
  denotes := Scalar.denotes (h.of_value? he)

def table (s : c.Selection) (h : c.Fits) (t : Section × List (String × Scalar))
    (ht : t ∈ s.tables) : Toml.Table where
  path := t.1.outer
  key := t.1.name
  lines := t.2.pmap (line h) (s.values t ht)
  bare := t.1.isBare_path
  depth := by cases t.1 <;> decide
  nodup := by
    have hnames : (t.2.pmap (line h) (s.values t ht)).map Toml.Line.name = t.2.map Prod.fst :=
      map_pmap_eq (fun e he => show (line h e he).name = e.1 from rfl) t.2 (s.values t ht)
    rw [hnames]
    exact s.names t ht

private theorem table_entry (s : c.Selection) (h : c.Fits) {t : Section × List (String × Scalar)}
    (ht : t ∈ s.tables) :
    (s.table h t ht).entry = Toml.tableAt t.1.outer t.1.name (written t.2) := by
  have hlines : (t.2.pmap (line h) (s.values t ht)).map Toml.Line.entry = written t.2 :=
    map_pmap_eq (fun e he => show (line h e he).entry = (e.1, e.2.value) from rfl) t.2
      (s.values t ht)
  rw [← hlines]
  rfl

theorem table_chars (s : c.Selection) (h : c.Fits) {t : Section × List (String × Scalar)}
    (ht : t ∈ s.tables) : (s.table h t ht).chars = lines t := by
  have hlines : (t.2.pmap (line h) (s.values t ht)).map Toml.Line.chars =
      t.2.map fun e => entryLine (e.1, some e.2) :=
    map_pmap_eq (fun e he => show (line h e he).chars = entryLine (e.1, some e.2) from rfl) t.2
      (s.values t ht)
  rw [lines, tableLines, t.1.path_text, List.flatMap_map, List.flatMap_def, ← hlines,
    ← List.flatMap_def]
  rfl

theorem parse?_text (s : c.Selection) (h : c.Fits) :
    Toml.parse? s.text.toList =
      some (s.tables.map fun t => Toml.tableAt t.1.outer t.1.name (written t.2)) := by
  have hself : ∀ t ∈ s.tables, t ∈ s.tables := fun _ => id
  have hentries := map_pmap_eq (fun _ ht => s.table_entry h ht) s.tables hself
  have hchars := map_pmap_eq (fun _ ht => s.table_chars h ht) s.tables hself
  have hnodup : ((s.tables.pmap (s.table h) hself).map fun t => t.entry.1).Nodup := by
    have htops := congrArg (List.map Prod.fst) hentries
    rw [List.map_map, List.map_map] at htops
    refine htops ▸ ?_
    exact List.Pairwise.map _ (fun t t' hne => mt Section.top_injective hne)
      (List.pairwise_map.1 s.sections)
  rw [text, String.toList_ofList, ← hchars, Toml.parse?_tables hnodup, hentries]

theorem ofToml?_text (s : c.Selection) (h : c.Fits) :
    ∃ c', ofToml? s.text = some c' ∧ Overlay s.keys c.value? default.value? c'.value? := by
  obtain ⟨c', hread, hvalues⟩ :=
    @readSection_tables c s.tables s.sections s.values default fun _ _ _ => rfl
  refine ⟨c', ?_, hvalues⟩
  rw [ofToml?, s.parse?_text h]
  exact hread

end Selection

def given (es : Entries) : List (String × Scalar) :=
  es.filterMap fun e => e.2.map fun v => (e.1, v)

@[simp]
theorem mem_given {es : Entries} {e : String × Scalar} : e ∈ given es ↔ (e.1, some e.2) ∈ es := by
  rw [given, List.mem_filterMap]
  constructor
  · rintro ⟨⟨name, v⟩, hmem, hv⟩
    obtain ⟨v', rfl, rfl⟩ := Option.map_eq_some_iff.1 hv
    exact hmem
  · exact fun hmem => ⟨_, hmem, rfl⟩

theorem given_names_sublist (es : Entries) :
    ((given es).map Prod.fst).Sublist (es.map Prod.fst) := by
  induction es with
  | nil => exact List.Sublist.refl _
  | cons e es ih =>
    obtain ⟨name, v⟩ := e
    cases v with
    | none => exact ih.cons _
    | some v => exact ih.cons_cons _

theorem flatMap_given (es : Entries) :
    ((given es).map fun e => (e.1, some e.2)).flatMap entryLine = es.flatMap entryLine := by
  induction es with
  | nil => rfl
  | cons e es ih =>
    obtain ⟨name, v⟩ := e
    cases v with
    | none => exact ih
    | some v => exact congrArg (entryLine (name, some v) ++ ·) ih

def Selection.whole (c : Config) : c.Selection where
  tables := Section.all.map fun s => (s, given (s.entries c))
  sections := Section.nodup_all
  names t ht := by
    obtain ⟨s, -, rfl⟩ := List.mem_map.1 ht
    exact (s.nodup_names c).sublist (given_names_sublist _)
  values t ht e he := by
    obtain ⟨s, -, rfl⟩ := List.mem_map.1 ht
    exact valueAt?_of_mem (s.nodup_names c) (mem_given.1 he)

@[simp] theorem Selection.whole_text (c : Config) : (whole c).text = c.toToml := by
  rw [text, toToml, chars, tables_eq, whole, List.map_map, List.map_map]
  have hlines (s : Section) :
      lines (s, given (s.entries c)) = tableLines (s.path, s.entries c) := by
    rw [lines, tableLines, tableLines, flatMap_given]
  exact congrArg (fun ls => String.ofList (['\n'].intercalate ls))
    (List.map_congr_left fun s _ => hlines s)

theorem Selection.mem_whole_keys {c : Config} {k : Section × String} {v : Scalar}
    (h : c.value? k = some v) : k ∈ (whole c).keys := by
  obtain ⟨s, name⟩ := k
  refine List.mem_flatMap.2 ⟨_, List.mem_map_of_mem s.mem_all, List.mem_map.2 ⟨(name, v), ?_, rfl⟩⟩
  exact mem_given.2 (mem_of_valueAt? h)

/-- What reading makes of what was written. -/
structure ReadsBack (c : Config) : Prop where
  /-- The configuration itself, when it is printed as a whole. -/
  whole : ofToml? c.toToml = some c
  /-- Some of its settings, in any order: they are read as they were, and the rest by default. -/
  selected : ∀ s : c.Selection, ∃ c', ofToml? s.text = some c' ∧
    Overlay s.keys c.value? default.value? c'.value?

theorem ofToml?_toToml {c : Config} (h : c.Fits) : ofToml? c.toToml = some c := by
  obtain ⟨c', hread, hvalues⟩ := (Selection.whole c).ofToml?_text h
  rw [Selection.whole_text] at hread
  have hsame : c' = c := ext_value? fun k => by
    by_cases hk : k ∈ (Selection.whole c).keys
    · exact hvalues.within k hk
    · have hnone : c.value? k = none :=
        Option.eq_none_iff_forall_ne_some.2 fun v hv => hk (Selection.mem_whole_keys hv)
      rw [hvalues.beyond k hk, hnone, default_value?_eq_none hnone]
  rw [hread, hsame]

theorem readsBack {c : Config} (h : c.Fits) : c.ReadsBack :=
  ⟨ofToml?_toToml h, fun s => s.ofToml?_text h⟩

def quoting : Config :=
  { default with
    mqtt := { Mqtt.default with
      username := "\"bridge\""
      password := "'\"\\\n\"\"\"\u0000"
      clientId := some ""
      keepAliveSecs := 0 } }

theorem readsBack_quoting : quoting.Fits ∧ quoting.ReadsBack :=
  ⟨by decide, readsBack (by decide)⟩

end LoraBridge.Config
