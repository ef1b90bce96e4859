import LoraBridge.Proofs.Json.Reading

/-! Records in texts. A field of a record is read from the member that has its name, or from the
item in its place, and from nothing else. -/
namespace LoraBridge.Json

variable {σ α β : Type}

theorem readFields_cons (fields : List (RecordField σ)) (d : Nat) (name : String) (v : Value)
    (ms : List (String × Value)) (acc : σ) :
    readFields fields d (Value.memberTrees ((name, v) :: ms)) acc =
      match fields.find? fun f => f.name == name with
      | some f =>
        if f.isSet acc then .error (.mismatch (.duplicateField name))
        else f.read d v.tree acc >>= fun acc => readFields fields d (Value.memberTrees ms) acc
      | none => Fault.check v.tree.skip? >>= fun _ =>
        readFields fields d (Value.memberTrees ms) acc := by
  rw [Value.memberTrees, readFields, Quoted.read_ofText]
  rfl

@[simp] theorem readFields_nil (fields : List (RecordField σ)) (d : Nat) (acc : σ) :
    readFields fields d (Value.memberTrees []) acc = .ok acc := by
  rw [Value.memberTrees, readFields]

theorem readFields_append (fields : List (RecordField σ)) (d : Nat)
    (ms ms' : List (Quoted × Tree)) (acc : σ) :
    readFields fields d (ms ++ ms') acc =
      readFields fields d ms acc >>= readFields fields d ms' := by
  induction ms generalizing acc with
  | nil => rw [List.nil_append, readFields, ok_bind]
  | cons m ms ih =>
    obtain ⟨k, v⟩ := m
    rw [List.cons_append, readFields, readFields, bind_assoc]
    congr 1
    funext name
    split
    · split
      · rfl
      · simp only [ih, bind_assoc]
    · simp only [ih, bind_assoc]

@[simp] theorem Value.memberTrees_append (ms ms' : List (String × Value)) :
    Value.memberTrees (ms ++ ms') = Value.memberTrees ms ++ Value.memberTrees ms' := by
  simp only [Value.memberTrees_eq, List.map_append]

theorem Record.read_object (r : Record σ α) (d : Nat) (ms : List (String × Value)) :
    r.read (d + 1) (Value.object ms).tree =
      readFields r.fields d (Value.memberTrees ms) r.empty >>= r.finish := by
  rw [Value.tree, Record.read]
  rfl

theorem eq_some_of_required {name : String} {o : Option α} {a : α}
    (h : required name o = .ok a) : o = some a := by
  cases o with
  | none => cases h
  | some b =>
    cases h
    rfl

/-- The tree that a text has for a field: the member of its name, or the item in its place. -/
def Record.carried? (r : Record σ α) (name : String) : Tree → Option Tree
  | .object ms _ => (ms.find? fun m => m.1.read.toOption == some name).map (·.2)
  | .array items _ => ((r.fields.map (·.name)).zip items).lookup name
  | _ => none

/-- What the first member of an object does: it sets a field that was not set, or it is
passed over. -/
theorem readFields_cons_iff {fields : List (RecordField σ)} {d : Nat} {k : Quoted} {t : Tree}
    {ms : List (Quoted × Tree)} {acc acc' : σ} :
    readFields fields d ((k, t) :: ms) acc = .ok acc' ↔ ∃ key, k.read = .ok key ∧
      ((∃ f, fields.find? (fun f => f.name == key) = some f ∧ f.isSet acc = false ∧
          ∃ next, f.read d t acc = .ok next ∧ readFields fields d ms next = .ok acc') ∨
        (fields.find? (fun f => f.name == key) = none ∧ t.skip? = none ∧
          readFields fields d ms acc = .ok acc')) := by
  rw [readFields, bind_eq_ok]
  refine exists_congr fun key => and_congr_right fun _ => ?_
  cases fields.find? fun f => f.name == key with
  | none => cases h : t.skip? <;> simp [Fault.check]
  | some f => cases h : f.isSet acc <;> simp [bind_eq_ok, h]

theorem readFields_cons_eq_ok {fields : List (RecordField σ)} {d : Nat} {k : Quoted} {t : Tree}
    {ms : List (Quoted × Tree)} {acc acc' : σ}
    (h : readFields fields d ((k, t) :: ms) acc = .ok acc') :
    ∃ key, k.read = .ok key ∧
      ((∃ f ∈ fields, f.name = key ∧ f.isSet acc = false ∧
          ∃ next, f.read d t acc = .ok next ∧ readFields fields d ms next = .ok acc') ∨
        ((∀ f ∈ fields, f.name ≠ key) ∧ readFields fields d ms acc = .ok acc')) := by
  obtain ⟨key, hkey, ⟨f, hf, hset, hread⟩ | ⟨hf, -, hread⟩⟩ := readFields_cons_iff.1 h
  · have hname : f.name = key := by
      simpa using List.find?_some hf
    exact ⟨key, hkey, .inl ⟨f, List.mem_of_find?_eq_some hf, hname, hset, hread⟩⟩
  · refine ⟨key, hkey, .inr ⟨fun f hmem => ?_, hread⟩⟩
    simpa using List.find?_eq_none.1 hf f hmem

/-- A place of the draft that the field of one name writes, and no other. -/
structure Writes (fields : List (RecordField σ)) (name : String) (read : Reader β)
    (get : σ → Option β) : Prop where
  known : ∃ f ∈ fields, f.name = name
  isSet : ∀ f ∈ fields, f.name = name → ∀ acc, f.isSet acc = (get acc).isSome
  own : ∀ f ∈ fields, f.name = name → ∀ d t acc acc', f.read d t acc = .ok acc' →
    ∃ b, read d t = .ok b ∧ get acc' = some b
  others : ∀ f ∈ fields, f.name ≠ name → ∀ d t acc acc', f.read d t acc = .ok acc' →
    get acc' = get acc

variable {fields : List (RecordField σ)} {name : String} {read : Reader β} {get : σ → Option β}

theorem get_kept (h : Writes fields name read get) {d : Nat} {ms : List (Quoted × Tree)}
    {acc acc' : σ} (hread : readFields fields d ms acc = .ok acc') {b : β}
    (hb : get acc = some b) : get acc' = some b := by
  induction ms generalizing acc with
  | nil =>
    cases hread
    exact hb
  | cons m ms ih =>
    obtain ⟨key, -, hread⟩ := readFields_cons_eq_ok hread
    rcases hread with ⟨f, hf, hname, hset, next, hnext, hread⟩ | ⟨-, hread⟩
    · refine ih hread ?_
      have hne : f.name ≠ name := by
        intro heq
        rw [h.isSet f hf heq, hb] at hset
        cases hset
      rw [h.others f hf hne _ _ _ _ hnext, hb]
    · exact ih hread hb

theorem find?_of_readFields (h : Writes fields name read get) {d : Nat}
    {ms : List (Quoted × Tree)} {acc acc' : σ} (hread : readFields fields d ms acc = .ok acc')
    (hnone : get acc = none) {b : β} (hb : get acc' = some b) :
    ∃ t, (ms.find? fun m => m.1.read.toOption == some name).map (·.2) = some t ∧
      read d t = .ok b := by
  induction ms generalizing acc with
  | nil =>
    cases hread
    rw [hnone] at hb
    cases hb
  | cons m ms ih =>
    obtain ⟨key, hkey, hread⟩ := readFields_cons_eq_ok hread
    rw [List.find?_cons, hkey]
    -- The first member of the name sets the field for good, and no other member sets it.
    by_cases hname : key = name
    · rcases hread with ⟨f, hf, rfl, -, next, hnext, hread⟩ | ⟨hunknown, -⟩
      · obtain ⟨b', hb', hget⟩ := h.own f hf hname _ _ _ _ hnext
        rw [get_kept h hread hget] at hb
        cases hb
        exact ⟨m.2, by simp [Except.toOption, hname], hb'⟩
      · obtain ⟨f, hf, heq⟩ := h.known
        exact absurd (heq.trans hname.symm) (hunknown f hf)
    · have hskip :
          (Except.toOption (Except.ok key : Except Error String) == some name) = false := by
        simpa [Except.toOption] using hname
      rw [hskip]
      rcases hread with ⟨f, hf, rfl, -, next, hnext, hread⟩ | ⟨-, hread⟩
      · exact ih hread (by rw [h.others f hf hname _ _ _ _ hnext, hnone])
      · exact ih hread hnone

theorem get_of_readItems {all : List (RecordField σ)} (h : Writes all name read get)
    {expected : String} {d i : Nat} {stop : Option Fault} {items : List Tree} {acc acc' : σ}
    (hsub : ∀ f ∈ fields, f ∈ all) (hname : ∀ f ∈ fields, f.name ≠ name)
    (hread : readItems expected d stop i fields items acc = .ok acc') : get acc' = get acc := by
  fun_induction readItems expected d stop i fields items acc with
  | case1 i acc =>
    obtain ⟨-, -, hread⟩ := bind_eq_ok.1 hread
    cases hread
    rfl
  | case2 => cases hread
  | case3 i f fields v items acc ih =>
    obtain ⟨hf, hfields⟩ := List.forall_mem_cons.1 hsub
    obtain ⟨hne, hrest⟩ := List.forall_mem_cons.1 hname
    obtain ⟨next, hnext, hread⟩ := bind_eq_ok.1 hread
    rw [ih next hfields hrest hread, h.others f hf hne _ _ _ _ hnext]
  | case4 i f fields acc ih =>
    obtain ⟨-, -, hread⟩ := bind_eq_ok.1 hread
    split at hread
    · exact ih (fun f hf => hsub f (List.mem_cons_of_mem _ hf))
        (fun f hf => hname f (List.mem_cons_of_mem _ hf)) hread
    · cases hread

theorem lookup_of_readItems {all : List (RecordField σ)} (h : Writes all name read get)
    {expected : String} {d i : Nat} {stop : Option Fault} {items : List Tree} {acc acc' : σ}
    (hsub : ∀ f ∈ fields, f ∈ all) (hnodup : (fields.map (·.name)).Nodup)
    (hread : readItems expected d stop i fields items acc = .ok acc')
    (hnone : get acc = none) {b : β} (hb : get acc' = some b) :
    ∃ t, ((fields.map (·.name)).zip items).lookup name = some t ∧ read d t = .ok b := by
  fun_induction readItems expected d stop i fields items acc with
  | case1 i acc =>
    obtain ⟨-, -, hread⟩ := bind_eq_ok.1 hread
    cases hread
    rw [hnone] at hb
    cases hb
  | case2 => cases hread
  | case3 i f fields v items acc ih =>
    obtain ⟨hf, hfields⟩ := List.forall_mem_cons.1 hsub
    obtain ⟨hfresh, hrest⟩ := List.nodup_cons.1 hnodup
    obtain ⟨next, hnext, hread⟩ := bind_eq_ok.1 hread
    rw [List.map_cons, List.zip_cons_cons, List.lookup_cons]
    by_cases hname : f.name = name
    · obtain ⟨b', hb', hget⟩ := h.own f hf hname _ _ _ _ hnext
      have hothers : ∀ f' ∈ fields, f'.name ≠ name := by
        intro f' hf' heq
        refine hfresh (List.mem_map.2 ⟨f', hf', heq.trans hname.symm⟩)
      rw [get_of_readItems h hfields hothers hread, hget] at hb
      cases hb
      exact ⟨v, by simp [hname], hb'⟩
    · have hskip : (name == f.name) = false := by
        simpa using Ne.symm hname
      rw [hskip]
      exact ih next hfields hrest hread (by rw [h.others f hf hname _ _ _ _ hnext, hnone])
  | case4 i f fields acc ih =>
    obtain ⟨-, -, hread⟩ := bind_eq_ok.1 hread
    split at hread
    · obtain ⟨t, ht, -⟩ := ih (fun f hf => hsub f (List.mem_cons_of_mem _ hf))
        (List.nodup_cons.1 hnodup).2 hread hnone
      simp at ht
    · cases hread

theorem carried_of_read {r : Record σ α} (h : Writes r.fields name read get)
    (hempty : get r.empty = none) (hnodup : (r.fields.map (·.name)).Nodup) {d : Nat} {t : Tree}
    {a : α} (hread : r.read (d + 1) t = .ok a) :
    ∃ acc, r.finish acc = .ok a ∧
      ∀ b, get acc = some b → ∃ u, r.carried? name t = some u ∧ read d u = .ok b := by
  cases t with
  | object ms stop =>
    obtain ⟨acc, hacc, hread⟩ := bind_eq_ok.1 hread
    obtain ⟨-, -, hfinish⟩ := bind_eq_ok.1 hread
    exact ⟨acc, hfinish, fun b hb => find?_of_readFields h hacc hempty hb⟩
  | array items stop =>
    obtain ⟨acc, hacc, hfinish⟩ := bind_eq_ok.1 hread
    refine ⟨acc, hfinish, fun b hb => ?_⟩
    exact lookup_of_readItems h (fun _ hf => hf) hnodup hacc hempty hb
  | null | bool | number | cutNumber | string | fault =>
    rw [Record.read] at hread
    · exact absurd hread (Tree.refuse_ne_ok _ _ _)
    all_goals nofun

end LoraBridge.Json
