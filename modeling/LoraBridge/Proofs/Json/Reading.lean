import LoraBridge.Json.Read
import LoraBridge.Proofs.Json.Members
import LoraBridge.Proofs.Json.Printing
import LoraBridge.Proofs.Results

/-! Reading printed values back. -/
namespace LoraBridge

namespace Json

theorem pieceBytes_bytes (fault : Option Fault) (bs : List UInt8) (ps : List Piece) :
    pieceBytes fault (bs.map .byte ++ ps) = (pieceBytes fault ps).map (bs ++ ·) := by
  induction bs with
  | nil =>
    rw [List.map_nil, List.nil_append]
    cases pieceBytes fault ps <;> rfl
  | cons b bs ih =>
    rw [List.map_cons, List.cons_append, pieceBytes, ih]
    cases pieceBytes fault ps <;> rfl

@[simp] theorem pieceBytes_charPieces (fault : Option Fault) (c : Char) (ps : List Piece) :
    pieceBytes fault (charPieces c ++ ps) =
      (pieceBytes fault ps).map (String.utf8EncodeChar c ++ ·) := by
  unfold charPieces
  split
  · next h =>
    have hlow : (c.toNat < 0xd800 || 0xdfff < c.toNat) = true := by
      simp only [Bool.or_eq_true, decide_eq_true_eq]
      omega
    rw [List.singleton_append, pieceBytes.eq_def]
    simp only [hlow, if_true, Char.ofNat_toNat]
    rfl
  · exact pieceBytes_bytes fault _ ps

private theorem pieceBytes_text (cs : List Char) :
    pieceBytes none (cs.flatMap charPieces) = .ok (Text.utf8 cs) := by
  induction cs with
  | nil => rfl
  | cons c cs ih => rw [List.flatMap_cons, pieceBytes_charPieces, ih, map_ok, Text.utf8_cons]

@[simp] theorem utf8?_text (s : String) : utf8? (Text.utf8 s.toList) = some s := by
  have hbytes : (⟨(Text.utf8 s.toList).toArray⟩ : ByteArray) = s.toByteArray := by
    rw [← Text.toUTF8_toList, Text.toList_eq_data]
    rfl
  rw [utf8?, hbytes, String.fromUTF8?, dif_pos s.isValidUTF8]
  rfl

@[simp] theorem Quoted.read_ofText (s : String) : (Quoted.ofText s).read = .ok s := by
  simp only [Quoted.read, Quoted.ofText, pieceBytes_text, ok_bind, utf8?_text]

@[simp] theorem readString_tree (d : Nat) (s : String) :
    readString d (Value.string s).tree = .ok s := by
  rw [Value.tree, readString, Quoted.read_ofText]

@[simp] theorem readText_tree {α : Type} {parse : String → Except Mismatch α} {s : String} {a : α}
    (h : parse s = .ok a) (d : Nat) : readText parse d (Value.string s).tree = .ok a := by
  simp only [readText, readString_tree, ok_bind, h]

@[simp]
theorem Numeral.read_ofInt (n : WideInt) : (Numeral.ofInt n.val).read = .ok (.integer n) := by
  rw [Numeral.read, number?_ofInt]

@[simp] theorem readInt_tree {low high : Int} {n : WideInt} (h : low ≤ n.val ∧ n.val ≤ high)
    (expected : String) (d : Nat) :
    readInt low high expected d (Value.integer n).tree = .ok n.val := by
  simp only [Value.tree, readInt, Numeral.read_ofInt, ok_bind, if_pos h]

@[simp] theorem readBool_tree (d : Nat) (b : Bool) : readBool d (Value.bool b).tree = .ok b := by
  rw [Value.tree, readBool]

theorem readOption_some {α : Type} {read : Reader α} {d : Nat} {t : Tree} {a : α}
    (h : read d t = .ok a) (hnull : t ≠ .null) : readOption read d t = .ok (some a) := by
  rw [readOption, h, map_ok]
  exact hnull

def reread {α : Type} (read : Reader α) (v : Value) : Except Error α :=
  decode read v.text.toUTF8.toList

@[simp] theorem reread_eq {α : Type} (read : Reader α) (v : Value) :
    reread read v = read maxDepth v.tree := by
  rw [reread, decode, Document.ofBytes_text]
  cases read maxDepth v.tree <;> rfl

end Json

def Double.ReadsBack (x : Double) : Prop :=
  Json.reread Json.readDouble (.float x) = .ok x

namespace Json

@[simp] theorem Numeral.read_ofDouble {x : Double} (h : x.ReadsBack) :
    (Numeral.ofDouble x).read = .ok (.float x) := by
  have hreads : readDouble maxDepth (Value.float x).tree = .ok x := by
    rw [← reread_eq readDouble]
    exact h
  rw [Value.tree, readDouble] at hreads
  obtain ⟨n, hn, hx⟩ := bind_eq_ok.1 hreads
  cases n with
  | integer i =>
    have hnumber : (Numeral.ofDouble x).number? = some (.integer i) := by
      rw [Numeral.read] at hn
      split at hn <;> cases hn
      assumption
    exact absurd hnumber (Numeral.number?_ne_integer (Numeral.fraction_or_exponent_ofDouble x) i)
  | float y =>
    cases hx
    exact hn

@[simp] theorem readDouble_tree {x : Double} (h : x.ReadsBack) (d : Nat) :
    readDouble d (Value.float x).tree = .ok x := by
  rw [Value.tree, readDouble, Numeral.read_ofDouble h, ok_bind]

theorem Tree.refuse_ne_ok {α : Type} (t : Tree) (expected : String) (a : α) :
    t.refuse expected ≠ .ok a := by
  rw [refuse]
  cases t.found <;> nofun

namespace Value

/-- Values with at most a number of containers around each other, and with maps for objects. -/
inductive Fits : Nat → Value → Prop where
  | null (d : Nat) : Fits d .null
  | bool (d : Nat) (b : Bool) : Fits d (.bool b)
  | integer (d : Nat) (n : WideInt) : Fits d (.integer n)
  | float (d : Nat) (x : Double) : Fits d (.float x)
  | string (d : Nat) (s : String) : Fits d (.string s)
  | array {d : Nat} {items : List Value} (h : ∀ v ∈ items, Fits d v) : Fits (d + 1) (.array items)
  | object {d : Nat} {ms : List (String × Value)} (h : ∀ m ∈ ms, Fits d m.2)
    (ascending : Ascending ms) : Fits (d + 1) (.object ms)

inductive EachFloat (p : Double → Prop) : Value → Prop where
  | null : EachFloat p .null
  | bool (b : Bool) : EachFloat p (.bool b)
  | integer (n : WideInt) : EachFloat p (.integer n)
  | float {x : Double} (h : p x) : EachFloat p (.float x)
  | string (s : String) : EachFloat p (.string s)
  | array {items : List Value} (h : ∀ v ∈ items, EachFloat p v) : EachFloat p (.array items)
  | object {ms : List (String × Value)} (h : ∀ m ∈ ms, EachFloat p m.2) : EachFloat p (.object ms)

end Value

theorem mapM_map_eq_ok {α β ε : Type} {f : α → β} {g : β → Except ε α} {xs : List α}
    (h : ∀ x ∈ xs, g (f x) = .ok x) : (xs.map f).mapM g = .ok xs := by
  induction xs with
  | nil => rfl
  | cons x xs ih =>
    obtain ⟨hx, hxs⟩ := List.forall_mem_cons.1 h
    rw [List.map_cons, List.mapM_cons, hx, ih hxs]
    rfl

theorem mem_of_mapM_eq_ok {α β ε : Type} {g : α → Except ε β} {xs : List α} {ys : List β}
    (h : xs.mapM g = .ok ys) : ∀ y ∈ ys, ∃ x ∈ xs, g x = .ok y := by
  induction xs generalizing ys with
  | nil =>
    cases h
    nofun
  | cons x xs ih =>
    rw [List.mapM_cons] at h
    obtain ⟨z, hz, h⟩ := bind_eq_ok.1 h
    obtain ⟨zs, hzs, h⟩ := bind_eq_ok.1 h
    cases h
    intro y hy
    rcases List.mem_cons.1 hy with rfl | hy
    · exact ⟨x, List.mem_cons_self, hz⟩
    · obtain ⟨w, hw, hwy⟩ := ih hzs y hy
      exact ⟨w, List.mem_cons_of_mem _ hw, hwy⟩

theorem readValue_object {d : Nat} {ms ms' : List (String × Value)} (hperm : ms'.Perm ms)
    (hascending : Value.Ascending ms) (h : ∀ m ∈ ms, readValue d m.2.tree = .ok m.2) :
    readValue (d + 1) (Value.object ms').tree = .ok (.object ms) := by
  have hms : ∀ m ∈ ms', (do
      let k ← (Quoted.ofText m.1).read
      let v ← readValue d m.2.tree
      .ok (k, v) : Except Error (String × Value)) = .ok m := by
    intro m hm
    rw [Quoted.read_ofText, ok_bind, h m (hperm.subset hm), ok_bind]
  rw [Value.tree, Value.memberTrees_eq, readValue, mapM_map_eq_ok hms, ok_bind, Fault.check,
    ok_bind, Value.sortMembers_of_perm hperm hascending]

theorem readValue_tree {d : Nat} {v : Value} (hfits : v.Fits d)
    (hfloat : v.EachFloat Double.ReadsBack) : readValue d v.tree = .ok v := by
  induction hfits with
  | null d => rw [Value.tree, readValue]
  | bool d b => rw [Value.tree, readValue]
  | integer d n =>
    rw [Value.tree, readValue, Numeral.read_ofInt]
    rfl
  | float d x =>
    cases hfloat with
    | float hx =>
      rw [Value.tree, readValue, Numeral.read_ofDouble hx]
      rfl
  | string d s =>
    rw [Value.tree, readValue, Quoted.read_ofText]
    rfl
  | @array d items _ ih =>
    cases hfloat with
    | array hitems =>
      have hread := mapM_map_eq_ok fun v hv => ih v hv (hitems v hv)
      rw [Value.tree, Value.itemTrees_eq, readValue, hread]
      rfl
  | object _ hascending ih =>
    cases hfloat with
    | object hms => exact readValue_object (.refl _) hascending fun m hm => ih m hm (hms m hm)

theorem Numeral.fits_of_read {d : Nat} {n : Numeral} {v : Value}
    (h : n.read.map Number.value = .ok v) : v.Fits d := by
  obtain ⟨x, -, rfl⟩ := map_eq_ok.1 h
  cases x with
  | integer i => exact .integer d i
  | float x => exact .float d x

theorem fits_of_readValue {d : Nat} {t : Tree} {v : Value} (h : readValue d t = .ok v) :
    v.Fits d := by
  cases t with
  | null =>
    rw [readValue] at h
    cases h
    exact .null d
  | bool b =>
    rw [readValue] at h
    cases h
    exact .bool d b
  | number n =>
    rw [readValue] at h
    exact Numeral.fits_of_read h
  | string s =>
    rw [readValue] at h
    obtain ⟨s, -, rfl⟩ := map_eq_ok.1 h
    exact .string d s
  | cutNumber | fault =>
    rw [readValue] at h
    cases h
  | array items stop =>
    cases d with
    | zero => cases h
    | succ d =>
      obtain ⟨vs, hvs, h⟩ := bind_eq_ok.1 h
      obtain ⟨-, -, h⟩ := bind_eq_ok.1 h
      cases h
      refine .array fun v hv => ?_
      obtain ⟨t, -, ht⟩ := mem_of_mapM_eq_ok hvs v hv
      exact fits_of_readValue ht
  | object members stop =>
    cases d with
    | zero => cases h
    | succ d =>
      obtain ⟨ms, hms, h⟩ := bind_eq_ok.1 h
      obtain ⟨-, -, h⟩ := bind_eq_ok.1 h
      cases h
      refine .object (fun m hm => ?_) (Value.ascending_sortMembers ms)
      obtain ⟨t, -, ht⟩ := mem_of_mapM_eq_ok hms m (Value.mem_of_mem_sortMembers hm)
      obtain ⟨k, -, ht⟩ := bind_eq_ok.1 ht
      obtain ⟨v, hv, ht⟩ := bind_eq_ok.1 ht
      cases ht
      exact fits_of_readValue hv

theorem fits_of_readMembers {d : Nat} {t : Tree} {ms : List (String × Value)}
    (h : readMembers d t = .ok ms) : (Value.object ms).Fits d := by
  cases t with
  | object members stop =>
    obtain ⟨v, hv, h⟩ := bind_eq_ok.1 h
    split at h
    · cases h
      exact fits_of_readValue hv
    · cases h
  | _ => exact absurd h (Tree.refuse_ne_ok _ _ _)

end Json

end LoraBridge
