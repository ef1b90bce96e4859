/-! The bytes of a text: a character below 128 is one byte, and all bytes of any other are
above those. -/
namespace LoraBridge.Text

theorem toList_loop (bs : ByteArray) (i : Nat) (r : List UInt8) :
    ByteArray.toList.loop bs i r = r.reverse ++ bs.data.toList.drop i := by
  fun_induction ByteArray.toList.loop bs i r with
  | case1 i r hlt ih =>
    have hlen : i < bs.data.toList.length := by
      simpa using hlt
    have hget : bs.get! i = bs.data.toList[i] := by
      rw [Array.getElem_toList, ← getElem!_pos bs.data i hlt]
      rfl
    rw [ih, List.drop_eq_getElem_cons hlen, hget]
    simp
  | case2 i r hge =>
    rw [List.drop_eq_nil_of_le (by simpa using Nat.le_of_not_lt hge), List.append_nil]

@[simp] theorem toList_eq_data (bs : ByteArray) : bs.toList = bs.data.toList := by
  rw [ByteArray.toList, toList_loop]
  rfl

def utf8 (cs : List Char) : List UInt8 :=
  cs.flatMap String.utf8EncodeChar

@[simp] theorem utf8_nil : utf8 [] = [] := rfl

@[simp] theorem utf8_cons (c : Char) (cs : List Char) :
    utf8 (c :: cs) = String.utf8EncodeChar c ++ utf8 cs :=
  List.flatMap_cons

@[simp] theorem utf8_append (cs ds : List Char) : utf8 (cs ++ ds) = utf8 cs ++ utf8 ds :=
  List.flatMap_append

theorem toUTF8_toList (s : String) : s.toUTF8.toList = utf8 s.toList := by
  obtain ⟨cs, rfl⟩ : ∃ cs, s = String.ofList cs := ⟨s.toList, String.ofList_toList.symm⟩
  rw [toList_eq_data, String.toUTF8_eq_toByteArray, String.toByteArray_ofList, List.utf8Encode,
    List.toList_data_toByteArray, String.toList_ofList, utf8]

theorem utf8_inj {s t : String} (h : utf8 s.toList = utf8 t.toList) : s = t := by
  rw [← toUTF8_toList, ← toUTF8_toList, toList_eq_data, toList_eq_data] at h
  apply String.toByteArray_inj.1
  exact ByteArray.ext (Array.toList_inj.1 h)

@[simp] theorem utf8EncodeChar_ascii {c : Char} (h : c.toNat < 128) :
    String.utf8EncodeChar c = [UInt8.ofNat c.toNat] :=
  if_pos (Nat.le_of_lt_succ h)

theorem le_of_mem_utf8EncodeChar {c : Char} {b : UInt8} (h : 128 ≤ c.toNat)
    (hb : b ∈ String.utf8EncodeChar c) : 128 ≤ b.toNat := by
  have hbyte : ∀ n : Nat, 128 ≤ n → n < 256 → 128 ≤ (UInt8.ofNat n).toNat := by
    intro n hn hlt
    rw [UInt8.toNat_ofNat_of_lt' hlt]
    exact hn
  have hc : ¬ c.val.toNat ≤ 0x7f := Nat.not_le.2 h
  rw [String.utf8EncodeChar, if_neg hc] at hb
  split at hb
  · simp only [List.mem_cons, List.not_mem_nil, or_false] at hb
    rcases hb with rfl | rfl <;> apply hbyte <;> omega
  split at hb
  · simp only [List.mem_cons, List.not_mem_nil, or_false] at hb
    rcases hb with rfl | rfl | rfl <;> apply hbyte <;> omega
  · simp only [List.mem_cons, List.not_mem_nil, or_false] at hb
    rcases hb with rfl | rfl | rfl | rfl <;> apply hbyte <;> omega

@[simp] theorem toNat_charOfNat (b : UInt8) : (Char.ofNat b.toNat).toNat = b.toNat := by
  have hall : ∀ m : Fin 256, (Char.ofNat m).toNat = m := by decide +kernel
  exact hall ⟨b.toNat, b.toNat_lt⟩

theorem eq_of_charOfNat {b : UInt8} {c : Char} (h : Char.ofNat b.toNat = c) :
    b = UInt8.ofNat c.toNat := by
  rw [← h, toNat_charOfNat, UInt8.ofNat_toNat]

@[simp] theorem utf8_map_ofNat {bs : List UInt8} (h : ∀ b ∈ bs, b.toNat < 128) :
    utf8 (bs.map fun b => Char.ofNat b.toNat) = bs := by
  induction bs with
  | nil => rfl
  | cons b bs ih =>
    have hb := toNat_charOfNat b
    rw [List.map_cons, utf8_cons, ih fun c hc => h c (List.mem_cons_of_mem _ hc),
      utf8EncodeChar_ascii (by rw [hb]; exact h b List.mem_cons_self), hb, UInt8.ofNat_toNat]
    rfl

end LoraBridge.Text
