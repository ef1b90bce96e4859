import LoraBridge.Proofs.Json.Building
import LoraBridge.Proofs.Json.Records
import Mathlib.Logic.Relation

/-! Objects that a record reads alike. The members of an object may stand in any order, a name may
be escaped, members of other names may be added, and a field that is left out may be written with
its default. -/
namespace LoraBridge.Json

def Token.Spellable (t : Token) : Prop :=
  ∃ bs, t.Spelled bs

def Tree.Writable (t : Tree) : Prop :=
  ∃ bytes, t.WrittenAs bytes

theorem Tree.writable_iff {t : Tree} : t.Writable ↔ ∀ token ∈ t.tokens, token.Spellable :=
  ⟨fun ⟨_, h⟩ _ ht => h.exists_spelled ht, exists_laid⟩

theorem Token.not_spellable_fault (f : Fault) : ¬ (Token.fault f).Spellable := by
  rintro ⟨bs, h⟩
  cases h with
  | fixed h => cases h

theorem Tree.Writable.skip? {t : Tree} (h : t.Writable) : t.skip? = none := by
  rw [writable_iff] at h
  cases t with
  | null | bool | number => rfl
  | cutNumber =>
    obtain ⟨bs, hspelled⟩ := h .cutNumber (by simp [tokens])
    cases hspelled with
    | fixed hfixed => cases hfixed
  | string s =>
    obtain ⟨bs, hspelled⟩ := h (.string s) (by simp [tokens])
    cases hspelled with
    | fixed hfixed => cases hfixed
    | string => rfl
  | array items stop =>
    cases stop with
    | none => rfl
    | some f =>
      exact absurd (h (.fault f) (by simp [tokens, closing])) (Token.not_spellable_fault f)
  | object ms stop =>
    cases stop with
    | none => rfl
    | some f =>
      exact absurd (h (.fault f) (by simp [tokens, closing])) (Token.not_spellable_fault f)
  | fault f => exact absurd (h (.fault f) (by simp [tokens])) (Token.not_spellable_fault f)

theorem Token.spellable_of_fixed? {t : Token} {cs : List Char} (h : t.fixed? = some cs) :
    t.Spellable :=
  ⟨_, .fixed h⟩

structure Tree.MemberWritable (m : Quoted × Tree) : Prop where
  key : (Token.string m.1).Spellable
  value : m.2.Writable

theorem Tree.spellable_memberTokens {ms : List (Quoted × Tree)} (first : Bool) :
    (∀ token ∈ memberTokens first ms, token.Spellable) ↔ ∀ m ∈ ms, MemberWritable m := by
  induction ms generalizing first with
  | nil => simp [memberTokens]
  | cons m ms ih =>
    obtain ⟨k, v⟩ := m
    have hcomma : ∀ token ∈ (if first then [] else [Token.comma]), token.Spellable := by
      cases first with
      | true => simp
      | false => simpa using Token.spellable_of_fixed? (t := .comma) rfl
    have hcolon : (Token.colon).Spellable := Token.spellable_of_fixed? rfl
    have hmember : MemberWritable (k, v) ↔
        (Token.string k).Spellable ∧ ∀ token ∈ v.tokens, token.Spellable := by
      rw [← writable_iff]
      exact ⟨fun h => ⟨h.key, h.value⟩, fun h => ⟨h.1, h.2⟩⟩
    rw [memberTokens, List.forall_mem_append, List.forall_mem_append, List.forall_mem_cons,
      List.forall_mem_cons, ih, List.forall_mem_cons, hmember]
    tauto

@[simp] theorem Tree.writable_object {ms : List (Quoted × Tree)} :
    (Tree.object ms none).Writable ↔ ∀ m ∈ ms, MemberWritable m := by
  have hopen : (Token.openObject).Spellable := Token.spellable_of_fixed? rfl
  have hclose : (Token.closeObject).Spellable := Token.spellable_of_fixed? rfl
  rw [writable_iff, tokens, closing, List.forall_mem_cons, List.forall_mem_append,
    List.forall_mem_singleton, spellable_memberTokens]
  tauto

variable {σ α : Type}

def RecordField.Sets (f : RecordField σ) : Prop :=
  ∀ d v acc next, f.read d v acc = .ok next → f.isSet next = true

/-- Two fields do not meet: reading the first leaves the second as it is, and it can be read
after the second as well. -/
structure RecordField.Apart (f g : RecordField σ) : Prop where
  kept : ∀ {d : Nat} {v : Tree} {acc next : σ}, f.read d v acc = .ok next →
    g.isSet next = g.isSet acc
  swap : ∀ {d : Nat} {v w : Tree} {acc mid next : σ}, f.read d v acc = .ok mid →
    g.read d w mid = .ok next → ∃ mid', g.read d w acc = .ok mid' ∧ f.read d v mid' = .ok next

structure Independent (fields : List (RecordField σ)) : Prop where
  sets : ∀ f ∈ fields, f.Sets
  apart : ∀ f ∈ fields, ∀ g ∈ fields, f.name ≠ g.name → f.Apart g

theorem Independent.of_pairwise {fields : List (RecordField σ)} (hsets : ∀ f ∈ fields, f.Sets)
    (hapart : fields.Pairwise fun f g => f.Apart g ∧ g.Apart f) : Independent fields where
  sets := hsets
  apart := by
    intro f hf g hg hne
    have : Std.Symm fun f g : RecordField σ => f.Apart g ∧ g.Apart f := ⟨fun _ _ h => ⟨h.2, h.1⟩⟩
    exact (hapart.forall hf hg fun heq => hne (congrArg _ heq)).1

section

variable {fields : List (RecordField σ)} {d : Nat} {ms ms' : List (Quoted × Tree)} {acc acc' : σ}

theorem name_of_find? {f : RecordField σ} {name : String}
    (h : fields.find? (fun f => f.name == name) = some f) : f ∈ fields ∧ f.name = name :=
  ⟨List.mem_of_find?_eq_some h, by simpa using List.find?_some h⟩

theorem readFields_swap (h : Independent fields) {m m' : Quoted × Tree}
    (hread : readFields fields d (m :: m' :: ms) acc = .ok acc') :
    readFields fields d (m' :: m :: ms) acc = .ok acc' := by
  obtain ⟨k, v⟩ := m
  obtain ⟨k', v'⟩ := m'
  obtain ⟨name, hname, hread⟩ := readFields_cons_iff.1 hread
  rcases hread with ⟨f, hf, hset, mid, hmid, hread⟩ | ⟨hnone, hskip, hread⟩
  · obtain ⟨name', hname', hread⟩ := readFields_cons_iff.1 hread
    rcases hread with ⟨g, hg, hset', next, hnext, hread⟩ | ⟨hnone', hskip', hread⟩
    · obtain ⟨hfmem, rfl⟩ := name_of_find? hf
      obtain ⟨hgmem, rfl⟩ := name_of_find? hg
      have hne : f.name ≠ g.name := by
        -- One name would be one field, which the first member has set.
        intro heq
        rw [heq, hg] at hf
        rw [Option.some.inj hf, h.sets f hfmem _ _ _ _ hmid] at hset'
        cases hset'
      obtain ⟨mid', hmid', hnext'⟩ := (h.apart f hfmem g hgmem hne).swap hmid hnext
      have hgfree : g.isSet acc = false := by
        rw [← (h.apart f hfmem g hgmem hne).kept hmid, hset']
      have hffree : f.isSet mid' = false := by
        rw [(h.apart g hgmem f hfmem hne.symm).kept hmid', hset]
      exact readFields_cons_iff.2 ⟨_, hname', .inl ⟨g, hg, hgfree, mid', hmid',
        readFields_cons_iff.2 ⟨_, hname, .inl ⟨f, hf, hffree, next, hnext', hread⟩⟩⟩⟩
    · exact readFields_cons_iff.2 ⟨name', hname', .inr ⟨hnone', hskip',
        readFields_cons_iff.2 ⟨name, hname, .inl ⟨f, hf, hset, mid, hmid, hread⟩⟩⟩⟩
  · obtain ⟨name', hname', hread⟩ := readFields_cons_iff.1 hread
    rcases hread with ⟨g, hg, hset', next, hnext, hread⟩ | ⟨hnone', hskip', hread⟩
    · exact readFields_cons_iff.2 ⟨name', hname', .inl ⟨g, hg, hset', next, hnext,
        readFields_cons_iff.2 ⟨name, hname, .inr ⟨hnone, hskip, hread⟩⟩⟩⟩
    · exact readFields_cons_iff.2 ⟨name', hname', .inr ⟨hnone', hskip',
        readFields_cons_iff.2 ⟨name, hname, .inr ⟨hnone, hskip, hread⟩⟩⟩⟩

theorem readFields_perm (h : Independent fields) (hperm : ms.Perm ms')
    (hread : readFields fields d ms acc = .ok acc') :
    readFields fields d ms' acc = .ok acc' := by
  induction hperm generalizing acc with
  | nil => exact hread
  | cons m _ ih =>
    obtain ⟨name, hname, hread⟩ := readFields_cons_iff.1 hread
    refine readFields_cons_iff.2 ⟨name, hname, ?_⟩
    rcases hread with ⟨f, hf, hset, next, hnext, hread⟩ | ⟨hnone, hskip, hread⟩
    · exact .inl ⟨f, hf, hset, next, hnext, ih hread⟩
    · exact .inr ⟨hnone, hskip, ih hread⟩
  | swap m m' ms => exact readFields_swap h hread
  | trans _ _ ih ih' => exact ih' (ih hread)

theorem isSet_of_absent (h : Independent fields) {f : RecordField σ} (hf : f ∈ fields)
    (habsent : ∀ m ∈ ms, m.1.read ≠ .ok f.name)
    (hread : readFields fields d ms acc = .ok acc') : f.isSet acc' = f.isSet acc := by
  induction ms generalizing acc with
  | nil =>
    cases hread
    rfl
  | cons m ms ih =>
    obtain ⟨hm, hms⟩ := List.forall_mem_cons.1 habsent
    obtain ⟨name, hname, hread⟩ := readFields_cons_iff.1 hread
    rcases hread with ⟨g, hg, -, next, hnext, hread⟩ | ⟨-, -, hread⟩
    · obtain ⟨hgmem, rfl⟩ := name_of_find? hg
      have hne : g.name ≠ f.name := by
        intro heq
        exact hm (by rw [hname, heq])
      rw [ih hms hread, (h.apart g hgmem f hf hne).kept hnext]
    · exact ih hms hread

end

def Record.names (r : Record σ α) : List String :=
  r.fields.map (·.name)

/-- One change of the members of an object. The known names are those of the fields, some of which
have a default, and the values of some may be changed in their turn. -/
inductive MemberChange (known : List String) (defaults : List (String × Value))
    (inner : String → Tree → Tree → Prop) :
    List (Quoted × Tree) → List (Quoted × Tree) → Prop
  | permute {ms ms' : List (Quoted × Tree)} (h : ms.Perm ms') :
    MemberChange known defaults inner ms ms'
  /-- Anything may stand under a name that is not known. -/
  | insert {front back : List (Quoted × Tree)} {k : Quoted} {name : String} {v : Tree}
      (hk : k.read = .ok name) (hname : name ∉ known) (hm : Tree.MemberWritable (k, v)) :
    MemberChange known defaults inner (front ++ back) (front ++ (k, v) :: back)
  | replace {front back : List (Quoted × Tree)} {k : Quoted} {name : String} {v v' : Tree}
      (hk : k.read = .ok name) (hname : name ∉ known) (hv : v'.Writable) :
    MemberChange known defaults inner (front ++ (k, v) :: back) (front ++ (k, v') :: back)
  /-- A name is written in another way, as with escapes. -/
  | respell {front back : List (Quoted × Tree)} {k k' : Quoted} {v : Tree}
      (hk : k'.read = k.read) (hspelled : (Token.string k').Spellable) :
    MemberChange known defaults inner (front ++ (k, v) :: back) (front ++ (k', v) :: back)
  /-- A field that is left out is written with its default. -/
  | complete {front back : List (Quoted × Tree)} {k : Quoted} {name : String} {v : Value}
      (hk : k.read = .ok name) (hspelled : (Token.string k).Spellable)
      (habsent : ∀ m ∈ front ++ back, m.1.read ≠ .ok name) (hdefault : (name, v) ∈ defaults) :
    MemberChange known defaults inner (front ++ back) (front ++ (k, v.tree) :: back)
  | within {front back : List (Quoted × Tree)} {k : Quoted} {name : String} {v v' : Tree}
      (hk : k.read = .ok name) (h : inner name v v') :
    MemberChange known defaults inner (front ++ (k, v) :: back) (front ++ (k, v') :: back)

inductive Variant (known : List String) (defaults : List (String × Value))
    (inner : String → Tree → Tree → Prop) : Tree → Tree → Prop
  | object {ms ms' : List (Quoted × Tree)} (h : MemberChange known defaults inner ms ms') :
    Variant known defaults inner (.object ms none) (.object ms' none)

/-- A default is what a field that was left out has. -/
def Record.Completes (r : Record σ α) (m : String × Value) : Prop :=
  ∃ f, r.fields.find? (fun f => f.name == m.1) = some f ∧
    ∀ d acc, f.isSet acc = false → ∃ next, f.read d m.2.tree acc = .ok next ∧
      r.finish next = r.finish acc

/-- A record that does not notice a change: its fields are independent of each other, a default is
what a field that was left out has, and a change of a value is not noticed by its field. -/
structure Record.Lenient (r : Record σ α) (defaults : List (String × Value))
    (inner : String → Tree → Tree → Prop) : Prop where
  independent : Independent r.fields
  unset : ∀ f ∈ r.fields, f.isSet r.empty = false
  completed : ∀ m ∈ defaults, r.Completes m
  within : ∀ {name v v'}, inner name v v' →
    ∃ f, r.fields.find? (fun f => f.name == name) = some f ∧
      ∀ d acc next, f.read d v acc = .ok next → f.read d v' acc = .ok next
  writable : ∀ {name v v'}, inner name v v' → v.Writable → v'.Writable

section

variable {r : Record σ α} {defaults : List (String × Value)} {inner : String → Tree → Tree → Prop}

private theorem find?_of_not_mem_names {name : String} (h : name ∉ r.names) :
    r.fields.find? (fun f => f.name == name) = none := by
  rw [List.find?_eq_none]
  intro f hf heq
  exact h (List.mem_map.2 ⟨f, hf, by simpa using heq⟩)

private theorem readFields_behind {fields : List (RecordField σ)} {d : Nat}
    {front ms ms' : List (Quoted × Tree)} {acc acc' : σ}
    (h : ∀ mid, readFields fields d ms mid = .ok acc' → readFields fields d ms' mid = .ok acc')
    (hread : readFields fields d (front ++ ms) acc = .ok acc') :
    readFields fields d (front ++ ms') acc = .ok acc' := by
  rw [readFields_append, bind_eq_ok] at hread ⊢
  obtain ⟨mid, hmid, hread⟩ := hread
  exact ⟨mid, hmid, h mid hread⟩

/-- The step: a change of the members leaves what the record makes of them. -/
theorem Record.Lenient.finish_of_change (h : r.Lenient defaults inner) {d : Nat}
    {ms ms' : List (Quoted × Tree)} (hchange : MemberChange r.names defaults inner ms ms') {acc : σ}
    (hread : readFields r.fields d ms r.empty = .ok acc) :
    ∃ acc', readFields r.fields d ms' r.empty = .ok acc' ∧ r.finish acc' = r.finish acc := by
  cases hchange with
  | permute hperm => exact ⟨acc, readFields_perm h.independent hperm hread, rfl⟩
  | insert hk hname hm =>
    refine ⟨acc, readFields_behind (fun mid hmid => ?_) hread, rfl⟩
    exact readFields_cons_iff.2
      ⟨_, hk, .inr ⟨find?_of_not_mem_names hname, hm.value.skip?, hmid⟩⟩
  | replace hk hname hv =>
    refine ⟨acc, readFields_behind (fun mid hmid => ?_) hread, rfl⟩
    have hnone := find?_of_not_mem_names hname
    obtain ⟨name, hk', hmid⟩ := readFields_cons_iff.1 hmid
    rw [hk] at hk'
    cases hk'
    rw [hnone] at hmid
    rcases hmid with ⟨f, hf, -⟩ | ⟨-, -, hmid⟩
    · cases hf
    · exact readFields_cons_iff.2 ⟨_, hk, .inr ⟨hnone, hv.skip?, hmid⟩⟩
  | respell hk hspelled =>
    refine ⟨acc, readFields_behind (fun mid hmid => ?_) hread, rfl⟩
    obtain ⟨name, hname, hmid⟩ := readFields_cons_iff.1 hmid
    exact readFields_cons_iff.2 ⟨name, hk.trans hname, hmid⟩
  | @complete front back k name v hk hspelled habsent hdefault =>
    -- The new member is read last, when its field is still as it was at first.
    obtain ⟨f, hf, hcompleted⟩ := h.completed _ hdefault
    obtain ⟨hmem, rfl⟩ := name_of_find? hf
    have hunset : f.isSet acc = false := by
      rw [isSet_of_absent h.independent hmem habsent hread, h.unset f hmem]
    obtain ⟨next, hnext, hfinish⟩ := hcompleted d acc hunset
    have hlast : readFields r.fields d (front ++ back ++ [(k, v.tree)]) r.empty = .ok next := by
      rw [readFields_append, hread, ok_bind]
      exact readFields_cons_iff.2 ⟨_, hk, .inl ⟨f, hf, hunset, next, hnext, rfl⟩⟩
    have hperm : (front ++ back ++ [(k, v.tree)]).Perm (front ++ (k, v.tree) :: back) := by
      rw [List.append_assoc]
      exact (List.perm_append_singleton _ back).append_left front
    exact ⟨next, readFields_perm h.independent hperm hlast, hfinish⟩
  | within hk hinner =>
    refine ⟨acc, readFields_behind (fun mid hmid => ?_) hread, rfl⟩
    obtain ⟨f, hf, hsame⟩ := h.within hinner
    obtain ⟨name, hk', hmid⟩ := readFields_cons_iff.1 hmid
    rw [hk] at hk'
    cases hk'
    rw [hf] at hmid
    rcases hmid with ⟨f, ⟨⟩, hset, next, hnext, hmid⟩ | ⟨hnone, -⟩
    · exact readFields_cons_iff.2 ⟨_, hk, .inl ⟨f, hf, hset, next, hsame _ _ _ hnext, hmid⟩⟩
    · cases hnone

theorem Record.Lenient.read_of_variant (h : r.Lenient defaults inner) {t t' : Tree}
    (hvariant : Variant r.names defaults inner t t') {d : Nat} {a : α}
    (hread : r.read d t = .ok a) : r.read d t' = .ok a := by
  cases hvariant with
  | object hchange =>
    cases d with
    | zero => cases hread
    | succ d =>
      obtain ⟨acc, hacc, hfinish⟩ := bind_eq_ok.1 hread
      obtain ⟨acc', hacc', hsame⟩ := h.finish_of_change hchange hacc
      refine bind_eq_ok.2 ⟨acc', hacc', ?_⟩
      rw [hsame]
      exact hfinish

theorem Record.Lenient.writable_of_variant (h : r.Lenient defaults inner) {t t' : Tree}
    (hvariant : Variant r.names defaults inner t t') (ht : t.Writable) : t'.Writable := by
  cases hvariant with
  | object hchange =>
    rw [Tree.writable_object] at ht ⊢
    cases hchange with
    | permute hperm => exact fun m hm => ht m (hperm.mem_iff.2 hm)
    | insert hk hname hm =>
      simp only [List.forall_mem_append, List.forall_mem_cons] at ht ⊢
      exact ⟨ht.1, hm, ht.2⟩
    | replace hk hname hv =>
      simp only [List.forall_mem_append, List.forall_mem_cons] at ht ⊢
      exact ⟨ht.1, ⟨ht.2.1.key, hv⟩, ht.2.2⟩
    | respell hk hspelled =>
      simp only [List.forall_mem_append, List.forall_mem_cons] at ht ⊢
      exact ⟨ht.1, ⟨hspelled, ht.2.1.value⟩, ht.2.2⟩
    | complete hk hspelled habsent hdefault =>
      simp only [List.forall_mem_append, List.forall_mem_cons] at ht ⊢
      exact ⟨ht.1, ⟨hspelled, _, laid_chars _⟩, ht.2⟩
    | within hk hinner =>
      simp only [List.forall_mem_append, List.forall_mem_cons] at ht ⊢
      exact ⟨ht.1, ⟨ht.2.1.key, h.writable hinner ht.2.1.value⟩, ht.2.2⟩

end

theorem stop_of_readItems {fields : List (RecordField σ)} {expected : String} {d i : Nat}
    {stop : Option Fault} {items : List Tree} {acc acc' : σ}
    (h : readItems expected d stop i fields items acc = .ok acc') : stop = none := by
  fun_induction readItems expected d stop i fields items acc with
  | case1 i acc =>
    cases stop with
    | none => rfl
    | some f => cases h
  | case2 => cases h
  | case3 i f fields v items acc ih =>
    obtain ⟨next, -, h⟩ := bind_eq_ok.1 h
    exact ih next h
  | case4 i f fields acc ih =>
    cases stop with
    | none => rfl
    | some f => cases h

theorem Record.skip?_of_read {r : Record σ α} {d : Nat} {t : Tree} {a : α}
    (h : r.read d t = .ok a) : t.skip? = none := by
  cases d with
  | zero =>
    cases t with
    | object | array => cases h
    | null | bool | number | cutNumber | string | fault =>
      exact absurd h (Tree.refuse_ne_ok _ _ _)
  | succ d =>
    cases t with
    | object ms stop =>
      obtain ⟨acc, -, h⟩ := bind_eq_ok.1 h
      cases stop with
      | none => rfl
      | some f => cases h
    | array items stop =>
      obtain ⟨acc, hacc, -⟩ := bind_eq_ok.1 h
      exact stop_of_readItems hacc
    | null | bool | number | cutNumber | string | fault =>
      exact absurd h (Tree.refuse_ne_ok _ _ _)

theorem Record.whole_of_decode {r : Record σ α} {bytes : List UInt8} {a : α}
    (h : decode r.read bytes = .ok a) : (Document.ofBytes bytes).Whole := by
  obtain ⟨b, hb, h⟩ := bind_eq_ok.1 h
  refine ⟨Record.skip?_of_read hb, ?_⟩
  split at h
  · cases h
  · next htrailing => simpa using htrailing

end LoraBridge.Json
