import LoraBridge.Proofs.Toml.Words

/-! Documents that are written line by line: tables under headers, and keys with their values. A
document that is read grows as its text does. -/
namespace LoraBridge.Toml

variable {rest : List Char}

structure IsBare (name : String) : Prop where
  ne_nil : name.toList ≠ []
  bare : ∀ c ∈ name.toList, isBareKey c = true

instance (name : String) : Decidable (IsBare name) :=
  decidable_of_iff (name.toList ≠ [] ∧ name.toList.all isBareKey = true)
    ⟨fun h => ⟨h.1, List.all_eq_true.1 h.2⟩, fun h => ⟨h.ne_nil, List.all_eq_true.2 h.bare⟩⟩

def joined (path : List String) : List Char := ['.'].intercalate (path.map String.toList)

private theorem isBlank_of_isBareKey {c : Char} (h : isBareKey c = true) : isBlank c = false := by
  rw [← Bool.not_eq_true, isBlank, Bool.or_eq_true, beq_iff_eq, beq_iff_eq]
  rintro (rfl | rfl) <;> cases h

@[simp] theorem skipBlank_eq_self {text : List Char} (h : ∀ c ∈ text.head?, isBlank c = false) :
    skipBlank text = text := by
  cases text with
  | nil => rfl
  | cons c text => exact List.dropWhile_cons_of_neg (by rw [h c rfl]; exact Bool.false_ne_true)

theorem keyPart?_bare {name : String} (h : IsBare name)
    (hrest : ∀ c ∈ rest.head?, isBareKey c = false) :
    keyPart? (name.toList ++ rest) = some (name, rest) := by
  have htake : (name.toList ++ rest).takeWhile isBareKey = name.toList := by
    rw [List.takeWhile_append_of_pos h.bare]
    cases rest with
    | nil => exact List.append_nil _
    | cons c rest =>
      rw [List.takeWhile_cons_of_neg (by rw [hrest c rfl]; exact Bool.false_ne_true),
        List.append_nil]
  have hdrop : (name.toList ++ rest).dropWhile isBareKey = rest := by
    rw [List.dropWhile_append_of_pos h.bare]
    cases rest with
    | nil => rfl
    | cons c rest =>
      exact List.dropWhile_cons_of_neg (by rw [hrest c rfl]; exact Bool.false_ne_true)
  have hempty : name.toList.isEmpty = false := List.isEmpty_eq_false_iff.2 h.ne_nil
  have hhead : ∀ c more, name.toList ++ rest = c :: more → isBareKey c = true := by
    intro c more heq
    cases hname : name.toList with
    | nil => exact absurd hname h.ne_nil
    | cons d ds =>
      rw [hname] at heq
      exact (List.cons.inj heq).1 ▸ h.bare d (hname ▸ List.mem_cons_self ..)
  unfold keyPart?
  split
  · next heq => cases hhead _ _ heq
  · next heq => cases hhead _ _ heq
  · simp only [htake, hdrop, hempty, String.ofList_toList]
    rfl

@[simp] theorem skipBlank_bare {name : String} (h : IsBare name) (rest : List Char) :
    skipBlank (name.toList ++ rest) = name.toList ++ rest := by
  refine skipBlank_eq_self fun c hc => ?_
  cases hname : name.toList with
  | nil => exact absurd hname h.ne_nil
  | cons d ds =>
    rw [hname] at hc
    obtain rfl : d = c := Option.some.inj hc
    exact isBlank_of_isBareKey (h.bare d (hname ▸ List.mem_cons_self ..))

theorem keyParts?_joined {path : List String} (hpath : path ≠ []) (hbare : ∀ k ∈ path, IsBare k)
    {fuel : Nat} (hfuel : path.length ≤ fuel) (hrest : ∀ c ∈ rest.head?, isBareKey c = false)
    (hdot : ∀ more, skipBlank rest ≠ '.' :: more) :
    keyParts? fuel (joined path ++ rest) = some (path, skipBlank rest) := by
  induction path generalizing fuel with
  | nil => exact absurd rfl hpath
  | cons k ks ih =>
    obtain ⟨hk, hks⟩ := List.forall_mem_cons.1 hbare
    obtain ⟨fuel, rfl⟩ := Nat.exists_eq_succ_of_ne_zero (Nat.ne_of_gt (Nat.zero_lt_of_lt hfuel))
    cases ks with
    | nil =>
      have htext : joined [k] = k.toList := List.intercalate_singleton
      rw [htext, keyParts?, skipBlank_bare hk, keyPart?_bare hk hrest]
      simp only [Option.bind_eq_bind, Option.bind_some]
    | cons k' ks =>
      have htext : joined (k :: k' :: ks) ++ rest =
          k.toList ++ '.' :: (joined (k' :: ks) ++ rest) := by
        simp [joined, List.intercalate_cons_cons]
      have hmore := ih (List.cons_ne_nil _ _) hks (Nat.le_of_succ_le_succ hfuel)
      have hstop : ∀ c ∈ ('.' :: (joined (k' :: ks) ++ rest)).head?, isBareKey c = false := by
        rintro _ ⟨⟩
        rfl
      have hskip : skipBlank ('.' :: (joined (k' :: ks) ++ rest)) =
          '.' :: (joined (k' :: ks) ++ rest) := rfl
      rw [htext, keyParts?, skipBlank_bare hk, keyPart?_bare hk hstop]
      simp only [Option.bind_eq_bind, Option.bind_some, hskip, hmore]

theorem length_le_joined {path : List String} (hbare : ∀ k ∈ path, IsBare k) :
    path.length ≤ (joined path).length := by
  induction path with
  | nil => exact Nat.le_refl _
  | cons k ks ih =>
    obtain ⟨hk, hks⟩ := List.forall_mem_cons.1 hbare
    have hpos := List.length_pos_of_ne_nil hk.ne_nil
    cases ks with
    | nil =>
      have htext : joined [k] = k.toList := List.intercalate_singleton
      rw [htext]
      exact hpos
    | cons k' ks =>
      have htext : joined (k :: k' :: ks) = k.toList ++ '.' :: joined (k' :: ks) := by
        simp [joined, List.intercalate_cons_cons]
      have hmore := ih hks
      simp only [htext, List.length_append, List.length_cons] at hmore ⊢
      omega

theorem exists_joined_eq_cons {path : List String} (hpath : path ≠ [])
    (hbare : ∀ k ∈ path, IsBare k) :
    ∃ c more, joined path = c :: more ∧ isBareKey c = true := by
  cases path with
  | nil => exact absurd rfl hpath
  | cons k ks =>
    have hk := hbare k (List.mem_cons_self ..)
    obtain ⟨c, cs, hname⟩ := List.exists_cons_of_ne_nil hk.ne_nil
    refine ⟨c, ?_⟩
    have hc := hk.bare c (hname ▸ List.mem_cons_self ..)
    cases ks with
    | nil =>
      have htext : joined [k] = k.toList := List.intercalate_singleton
      exact ⟨cs, htext.trans hname, hc⟩
    | cons k' ks =>
      have htext : joined (k :: k' :: ks) = k.toList ++ '.' :: joined (k' :: ks) := by
        simp [joined, List.intercalate_cons_cons]
      exact ⟨_, by rw [htext, hname]; rfl, hc⟩

theorem key?_joined {path : List String} {k : String} (hbare : ∀ k' ∈ path ++ [k], IsBare k')
    (hdepth : path.length < maxDepth) (hrest : ∀ c ∈ rest.head?, isBareKey c = false)
    (hdot : ∀ more, skipBlank rest ≠ '.' :: more) :
    key? (joined (path ++ [k]) ++ rest) = some (path, k, skipBlank rest) := by
  have hlength := length_le_joined hbare
  have hparts := keyParts?_joined (List.concat_ne_nil k path) hbare
    (Nat.le_succ_of_le (Nat.le_trans hlength (List.sublist_append_left _ rest).length_le))
    hrest hdot
  unfold key?
  rw [hparts]
  simp only [Option.bind_eq_bind, Option.bind_some, List.getLast?_concat, List.dropLast_concat]
  exact if_pos (by rw [List.length_append]; exact hdepth)

def nest : List String → Entries → Value
  | [], es => .table .header es
  | k :: path, es => .table .implicit [(k, nest path es)]

/-- The entry of a document with the table at a path: the table itself, or the first of the tables
around it. -/
def tableAt (path : List String) (k : String) (es : Entries) : String × Value :=
  match path with
  | [] => (k, nest [] es)
  | k' :: path => (k', nest (path ++ [k]) es)

namespace Entries

variable {front es : Entries} {k : String} {v : Value}

@[simp] theorem get?_eq_none (h : ∀ e ∈ front, e.1 ≠ k) : front.get? k = none := by
  rw [get?, List.find?_eq_none.2 fun e he => by simpa using h e he]
  rfl

@[simp] private theorem get?_concat (h : ∀ e ∈ front, e.1 ≠ k) (v : Value) :
    get? (front ++ [(k, v)]) k = some v := by
  rw [get?, List.find?_append, List.find?_eq_none.2 fun e he => by simpa using h e he]
  simp

private theorem set_concat (h : ∀ e ∈ front, e.1 ≠ k) (v w : Value) :
    set (front ++ [(k, v)]) k w = front ++ [(k, w)] := by
  have hfront : front.map (fun e => if e.1 == k then (k, w) else e) = front := by
    refine (List.map_congr_left fun e he => ?_).trans (List.map_id _)
    exact if_neg (by simpa using h e he)
  rw [set, List.map_append, hfront]
  simp

theorem modifyAt_concat {f : Form → Entries → Option (Form × Entries)} {es' : Entries}
    (hf : f .header es = some (.header, es')) (path : List String) (form : Form)
    (h : ∀ e ∈ front, e.1 ≠ k) :
    modifyAt false f (k :: path) form (front ++ [(k, nest path es)]) =
      some (form, front ++ [(k, nest path es')]) := by
  induction path generalizing k front form with
  | nil =>
    rw [modifyAt, get?_concat h]
    simp [nest, modifyAt, hf, set_concat h]
  | cons k' path ih =>
    have hinner : modifyAt false f (k' :: path) .implicit ([] ++ [(k', nest path es)]) =
        some (.implicit, [] ++ [(k', nest path es')]) := ih .implicit nofun
    rw [List.nil_append, List.nil_append] at hinner
    rw [modifyAt, get?_concat h]
    simp [nest, hinner, set_concat h]

theorem modifyAt_new {f : Form → Entries → Option (Form × Entries)}
    (hf : ∀ form es, (∀ e ∈ es, e.1 ≠ k) → f form es = some (form, es ++ [(k, nest [] [])]))
    (path : List String) (form : Form) (h : ∀ e ∈ front, e.1 ≠ (tableAt path k []).1) :
    modifyAt false f path form front = some (form, front ++ [tableAt path k []]) := by
  induction path generalizing front form with
  | nil => exact hf form front h
  | cons k' path ih =>
    have hinner : modifyAt false f path .implicit [] = some (.implicit, [tableAt path k []]) :=
      ih .implicit nofun
    have hnest : .table .implicit [tableAt path k []] = nest (path ++ [k]) [] := by
      cases path <;> rfl
    have hnone : front.get? k' = none := get?_eq_none h
    rw [modifyAt, hnone]
    show ((modifyAt false f path .implicit []).bind fun p =>
      some (form, front ++ [(k', .table p.1 p.2)])) = _
    rw [hinner, Option.bind_some, hnest]
    rfl

end Entries

namespace Document

variable {d : Document} {front es : Entries} {path : List String} {k name : String} {v : Value}

private theorem openTable?_new (h : ∀ e ∈ d.entries, e.1 ≠ (tableAt path k []).1) :
    d.openTable? path k = some ⟨d.entries ++ [tableAt path k []], path ++ [k]⟩ := by
  unfold openTable?
  rw [Entries.modifyAt_new (fun form es hes => ?_) path .header h]
  · rfl
  · rw [Entries.get?_eq_none hes]
    rfl

theorem insert?_new (h : ∀ e ∈ front, e.1 ≠ (tableAt path k es).1) (hname : ∀ e ∈ es, e.1 ≠ name) :
    insert? ⟨front ++ [tableAt path k es], path ++ [k]⟩ [] name v =
      some ⟨front ++ [tableAt path k (es ++ [(name, v)])], path ++ [k]⟩ := by
  have hadd : Entries.insert? es .header [] name v = some (.header, es ++ [(name, v)]) := by
    simp [Entries.insert?, Entries.modifyAt, Entries.add?, Entries.get?_eq_none hname]
  have hmodify : Entries.modifyAt false (fun form es => es.insert? form [] name v) (path ++ [k])
      .header (front ++ [tableAt path k es]) =
        some (.header, front ++ [tableAt path k (es ++ [(name, v)])]) := by
    cases path with
    | nil => exact Entries.modifyAt_concat hadd [] .header h
    | cons k' path => exact Entries.modifyAt_concat hadd (path ++ [k]) .header h
  simp [insert?, hmodify]

end Document

/-- A text takes a document to another one, in no more steps than it has characters. -/
def Reads (text : List Char) (d d' : Document) : Prop :=
  ∃ steps ≤ text.length, ∀ fuel rest, lines? (fuel + steps) d (text ++ rest) = lines? fuel d' rest

theorem Reads.append {x y : List Char} {d d' d'' : Document} (hx : Reads x d d')
    (hy : Reads y d' d'') : Reads (x ++ y) d d'' := by
  obtain ⟨m, hm, hx⟩ := hx
  obtain ⟨n, hn, hy⟩ := hy
  refine ⟨n + m, by rw [List.length_append]; omega, fun fuel rest => ?_⟩
  rw [List.append_assoc, ← Nat.add_assoc, hx, hy]

theorem reads_nil (d : Document) : Reads [] d d := ⟨0, Nat.le_refl _, fun _ _ => rfl⟩

theorem reads_newline (d : Document) : Reads ['\n'] d d := ⟨1, Nat.le_refl _, fun _ _ => rfl⟩

theorem parse?_of_reads {text : List Char} {d : Document} (h : Reads text .empty d)
    (hmark : ∀ c ∈ text.head?, c ≠ '\ufeff') : parse? text = some d.entries := by
  obtain ⟨steps, hsteps, hread⟩ := h
  obtain ⟨fuel, hfuel⟩ : ∃ fuel, text.length + 1 = fuel + 1 + steps :=
    ⟨text.length - steps, by omega⟩
  have hlines := hread (fuel + 1) []
  rw [List.append_nil, ← hfuel] at hlines
  unfold parse?
  split
  · exact absurd rfl (hmark _ rfl)
  · show (lines? (text.length + 1) .empty text).map _ = _
    rw [hlines]
    rfl

@[simp] theorem lineEnd?_newline (rest : List Char) : lineEnd? ('\n' :: rest) = some rest := rfl

theorem reads_header {d : Document} {path : List String} {k : String}
    (hbare : ∀ k' ∈ path ++ [k], IsBare k') (hdepth : path.length < maxDepth)
    (h : ∀ e ∈ d.entries, e.1 ≠ (tableAt path k []).1) :
    Reads (['['] ++ joined (path ++ [k]) ++ [']', '\n']) d
      ⟨d.entries ++ [tableAt path k []], path ++ [k]⟩ := by
  refine ⟨1, by simp, fun fuel rest => ?_⟩
  have hskip : skipBlank (']' :: '\n' :: rest) = ']' :: '\n' :: rest := rfl
  have hkey : key? (joined (path ++ [k]) ++ ']' :: '\n' :: rest) =
      some (path, k, skipBlank (']' :: '\n' :: rest)) :=
    key?_joined hbare hdepth (by rintro _ ⟨⟩; rfl) nofun
  have htext : ['['] ++ joined (path ++ [k]) ++ [']', '\n'] ++ rest =
      '[' :: (joined (path ++ [k]) ++ ']' :: '\n' :: rest) := by simp
  have hheader : header? d ('[' :: (joined (path ++ [k]) ++ ']' :: '\n' :: rest)) =
      some (⟨d.entries ++ [tableAt path k []], path ++ [k]⟩, rest) := by
    obtain ⟨c, more, hhead, hc⟩ := exists_joined_eq_cons (List.concat_ne_nil k path) hbare
    rw [header?]
    · rw [hkey, hskip]
      simp [char?, Document.openTable?_new h, lineEnd?_newline]
    · rw [hhead]
      rintro r heq
      obtain ⟨rfl, -⟩ := List.cons.inj heq
      cases hc
  rw [htext]
  show (header? d _).bind (fun p => lines? fuel p.1 p.2) = _
  rw [hheader]
  rfl

theorem keyLine?_eq_some {d d' : Document} {name : String} {text : List Char} {v : Value}
    (hbare : IsBare name) (hv : Denotes text v) (hd : d.insert? [] name v = some d')
    (rest : List Char) :
    keyLine? d (name.toList ++ ' ' :: '=' :: ' ' :: (text ++ '\n' :: rest)) = some (d', rest) := by
  have hjoined : joined ([] ++ [name]) = name.toList := List.intercalate_singleton
  have hkey : key? (joined ([] ++ [name]) ++ ' ' :: '=' :: ' ' :: (text ++ '\n' :: rest)) =
      some ([], name, skipBlank (' ' :: '=' :: ' ' :: (text ++ '\n' :: rest))) :=
    key?_joined (by simpa using hbare) (by decide) (by rintro _ ⟨⟩; rfl) nofun
  have hskip : skipBlank (' ' :: '=' :: ' ' :: (text ++ '\n' :: rest)) =
      '=' :: ' ' :: (text ++ '\n' :: rest) := rfl
  have hsolid : skipBlank (' ' :: (text ++ '\n' :: rest)) = text ++ '\n' :: rest := by
    show skipBlank (text ++ '\n' :: rest) = _
    refine skipBlank_eq_self fun c hc => ?_
    cases text with
    | nil =>
      cases hc
      rfl
    | cons d ds => exact hv.solid c hc
  rw [hjoined, hskip] at hkey
  rw [keyLine?, hkey]
  simp [char?, hsolid, hv.read, lineEnd?_newline, hd]

theorem reads_entry {front es : Entries} {path : List String} {k name : String}
    {text : List Char} {v : Value} (hbare : IsBare name) (hv : Denotes text v)
    (h : ∀ e ∈ front, e.1 ≠ (tableAt path k es).1) (hname : ∀ e ∈ es, e.1 ≠ name) :
    Reads (name.toList ++ [' ', '=', ' '] ++ text ++ ['\n'])
      ⟨front ++ [tableAt path k es], path ++ [k]⟩
      ⟨front ++ [tableAt path k (es ++ [(name, v)])], path ++ [k]⟩ := by
  refine ⟨1, by simp; omega, fun fuel rest => ?_⟩
  have hline := keyLine?_eq_some hbare hv (Document.insert?_new h hname) rest
  have htext : name.toList ++ [' ', '=', ' '] ++ text ++ ['\n'] ++ rest =
      name.toList ++ ' ' :: '=' :: ' ' :: (text ++ '\n' :: rest) := by simp
  have hskip := skipBlank_bare hbare (' ' :: '=' :: ' ' :: (text ++ '\n' :: rest))
  obtain ⟨c, cs, hhead⟩ := List.exists_cons_of_ne_nil hbare.ne_nil
  have hc := hbare.bare c (hhead ▸ List.mem_cons_self ..)
  have hne (d : Char) (hd : isBareKey d = false) : c ≠ d := by
    rintro rfl
    rw [hc] at hd
    cases hd
  rw [htext]
  rw [hhead, List.cons_append] at hline hskip ⊢
  rw [lines?, hskip]
  split
  · next heq => cases heq
  · next heq => exact absurd (List.cons.inj heq).1 (hne '[' rfl)
  · next heq =>
    obtain ⟨rfl, rfl⟩ := List.cons.inj heq
    rw [if_neg (by simp [hne '#' rfl, hne '\n' rfl, hne '\r' rfl])]
    show (keyLine? _ _).bind (fun p => lines? fuel p.1 p.2) = _
    rw [hline]
    rfl

structure Line where
  name : String
  text : List Char
  value : Value
  bare : IsBare name
  denotes : Denotes text value

namespace Line

def chars (l : Line) : List Char := l.name.toList ++ [' ', '=', ' '] ++ l.text ++ ['\n']

def entry (l : Line) : String × Value := (l.name, l.value)

end Line

structure Table where
  path : List String
  key : String
  lines : List Line
  bare : ∀ k ∈ path ++ [key], IsBare k
  depth : path.length < maxDepth
  nodup : (lines.map Line.name).Nodup

namespace Table

def header (t : Table) : List Char := ['['] ++ joined (t.path ++ [t.key]) ++ [']', '\n']

def chars (t : Table) : List Char := t.header ++ t.lines.flatMap Line.chars

def entry (t : Table) : String × Value := tableAt t.path t.key (t.lines.map Line.entry)

end Table

theorem tableAt_fst (path : List String) (k : String) (es es' : Entries) :
    (tableAt path k es).1 = (tableAt path k es').1 := by
  cases path <;> rfl

theorem reads_lines {front es : Entries} {path : List String} {k : String} {ls : List Line}
    (h : ∀ e ∈ front, e.1 ≠ (tableAt path k []).1) (hnodup : (ls.map Line.name).Nodup)
    (hnew : ∀ e ∈ es, ∀ l ∈ ls, e.1 ≠ l.name) :
    Reads (ls.flatMap Line.chars) ⟨front ++ [tableAt path k es], path ++ [k]⟩
      ⟨front ++ [tableAt path k (es ++ ls.map Line.entry)], path ++ [k]⟩ := by
  induction ls generalizing es with
  | nil =>
    rw [List.map_nil, List.append_nil]
    exact reads_nil _
  | cons l ls ih =>
    rw [List.map_cons, List.nodup_cons] at hnodup
    have hline : Reads l.chars _ _ :=
      reads_entry l.bare l.denotes (fun e he => tableAt_fst path k es [] ▸ h e he)
        fun e he => hnew e he l (List.mem_cons_self ..)
    have hmore := @ih (es ++ [l.entry]) hnodup.2 fun e he l' hl' => by
      rcases List.mem_append.1 he with he | he
      · exact hnew e he l' (List.mem_cons_of_mem _ hl')
      · obtain rfl := List.mem_singleton.1 he
        exact fun heq => hnodup.1 (List.mem_map.2 ⟨l', hl', heq.symm⟩)
    rw [List.append_assoc] at hmore
    exact hline.append hmore

private theorem reads_table (t : Table) {d : Document} (h : ∀ e ∈ d.entries, e.1 ≠ t.entry.1) :
    Reads t.chars d ⟨d.entries ++ [t.entry], t.path ++ [t.key]⟩ := by
  have hnew : ∀ e ∈ d.entries, e.1 ≠ (tableAt t.path t.key []).1 := fun e he =>
    tableAt_fst t.path t.key (t.lines.map Line.entry) [] ▸ h e he
  exact (reads_header t.bare t.depth hnew).append (reads_lines hnew t.nodup nofun)

theorem reads_tables {ts : List Table} {d : Document}
    (hnodup : (ts.map fun t => t.entry.1).Nodup)
    (h : ∀ e ∈ d.entries, ∀ t ∈ ts, e.1 ≠ t.entry.1) :
    ∃ d', Reads (['\n'].intercalate (ts.map Table.chars)) d d' ∧
      d'.entries = d.entries ++ ts.map Table.entry := by
  induction ts generalizing d with
  | nil => exact ⟨d, reads_nil d, (List.append_nil _).symm⟩
  | cons t ts ih =>
    rw [List.map_cons, List.nodup_cons] at hnodup
    have htable := reads_table t fun e he => h e he t (List.mem_cons_self ..)
    obtain ⟨d', hreads, hentries⟩ := @ih ⟨d.entries ++ [t.entry], t.path ++ [t.key]⟩ hnodup.2
      fun e he t' ht' => by
        rcases List.mem_append.1 he with he | he
        · exact h e he t' (List.mem_cons_of_mem _ ht')
        · obtain rfl := List.mem_singleton.1 he
          exact fun heq => hnodup.1 (List.mem_map.2 ⟨t', ht', heq.symm⟩)
    rw [List.append_assoc] at hentries
    cases ts with
    | nil =>
      have htext : ['\n'].intercalate ([t].map Table.chars) = t.chars := List.intercalate_singleton
      exact ⟨_, htext ▸ htable, rfl⟩
    | cons t' ts =>
      refine ⟨d', ?_, hentries⟩
      have htext : ['\n'].intercalate ((t :: t' :: ts).map Table.chars) =
          t.chars ++ (['\n'] ++ ['\n'].intercalate ((t' :: ts).map Table.chars)) := by
        rw [List.map_cons, List.map_cons, List.intercalate_cons_cons, List.append_assoc]
      rw [htext]
      exact htable.append ((reads_newline _).append hreads)

/-- A document of tables is read as it stands. -/
theorem parse?_tables {ts : List Table} (h : (ts.map fun t => t.entry.1).Nodup) :
    parse? (['\n'].intercalate (ts.map Table.chars)) = some (ts.map Table.entry) := by
  obtain ⟨d, hreads, hentries⟩ := @reads_tables ts .empty h nofun
  have hparse := parse?_of_reads hreads fun c hc => ?_
  · rw [hparse, hentries]
    rfl
  · cases ts with
    | nil => cases hc
    | cons t ts =>
      have hhead : (['\n'].intercalate ((t :: ts).map Table.chars)).head? = some '[' := by
        cases ts with
        | nil => exact congrArg List.head? List.intercalate_singleton
        | cons t' ts => exact congrArg List.head? List.intercalate_cons_cons
      rw [hhead] at hc
      obtain rfl := Option.some.inj hc
      decide

end LoraBridge.Toml
