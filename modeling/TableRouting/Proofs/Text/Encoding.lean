import Mathlib.Data.String.Basic

/-!
# Texts as bytes

A text is its UTF-8 bytes and is read from no others.  A character of ASCII is one byte,
and the bytes of every other character lie above those.
-/

namespace TableRouting.Text

variable {text : String} {bytes : List UInt8} {b : UInt8} {c : Char}

def encode (text : String) : List UInt8 := text.toUTF8.data.toList

theorem encode_eq_flatMap (text : String) :
    encode text = text.toList.flatMap String.utf8EncodeChar := by
  rw [encode, String.toUTF8, ← String.utf8Encode_toList, List.utf8Encode, List.data_toByteArray]

/-- Bytes are read as the text that they are the bytes of. -/
theorem fromUTF8?_eq_some_iff :
    String.fromUTF8? ⟨bytes.toArray⟩ = some text ↔ encode text = bytes := by
  constructor
  · intro hread
    rw [String.fromUTF8?] at hread
    split at hread
    · rw [← Option.some.inj hread]
      rfl
    · exact nomatch hread
  · rintro rfl
    rw [String.fromUTF8?]
    exact dif_pos text.isValidUTF8

theorem encode_injective {first second : String} (hsame : encode first = encode second) :
    first = second :=
  Option.some.inj ((fromUTF8?_eq_some_iff.mpr rfl).symm.trans
    (fromUTF8?_eq_some_iff.mpr hsame.symm))

/-- A byte of ASCII stands for its character alone. -/
theorem utf8EncodeChar_of_mem (hb : b < 0x80) (hmem : b ∈ String.utf8EncodeChar c) :
    c.toNat = b.toNat ∧ String.utf8EncodeChar c = [b] := by
  have hascii : b.toNat < 128 := UInt8.lt_iff_toNat_lt.mp hb
  have hlarge (n : Nat) (hn : 128 ≤ n) (hsmall : n < 256) : b ≠ UInt8.ofNat n := by
    rintro rfl
    rw [UInt8.toNat_ofNat_of_lt' hsmall] at hascii
    omega
  unfold String.utf8EncodeChar at hmem ⊢
  simp only at hmem ⊢
  split at hmem
  · rename_i hc
    rw [if_pos hc]
    obtain rfl := List.mem_singleton.mp hmem
    exact ⟨(UInt8.toNat_ofNat_of_lt' (Nat.lt_of_le_of_lt hc (by decide))).symm, rfl⟩
  · exfalso
    split at hmem
    · simp only [List.mem_cons, List.not_mem_nil, or_false] at hmem
      rcases hmem with hmem | hmem <;> exact hlarge _ (by omega) (by omega) hmem
    · split at hmem
      · simp only [List.mem_cons, List.not_mem_nil, or_false] at hmem
        rcases hmem with hmem | hmem | hmem <;> exact hlarge _ (by omega) (by omega) hmem
      · simp only [List.mem_cons, List.not_mem_nil, or_false] at hmem
        rcases hmem with hmem | hmem | hmem | hmem <;> exact hlarge _ (by omega) (by omega) hmem

theorem utf8EncodeChar_ne_nil (c : Char) : String.utf8EncodeChar c ≠ [] := by
  unfold String.utf8EncodeChar
  simp only
  repeat' split
  all_goals exact List.cons_ne_nil _ _

/-- A byte of ASCII is among the bytes of a text only if its character is in the text. -/
theorem mem_of_mem_encode (hb : b < 0x80) (hmem : b ∈ encode text) :
    ∃ c ∈ text.toList, c.toNat = b.toNat := by
  rw [encode_eq_flatMap] at hmem
  obtain ⟨c, hc, hbyte⟩ := List.mem_flatMap.mp hmem
  exact ⟨c, hc, (utf8EncodeChar_of_mem hb hbyte).1⟩

/-- A text that ends with a byte of ASCII ends with its character. -/
theorem getLast?_of_encode (hb : b < 0x80) (hlast : (encode text).getLast? = some b) :
    ∃ front c, text.toList = front ++ [c] ∧ c.toNat = b.toNat ∧
      encode text = encode (String.ofList front) ++ [b] := by
  rw [encode_eq_flatMap] at hlast ⊢
  rcases List.eq_nil_or_concat' text.toList with hnil | ⟨front, c, hchars⟩
  · simp [hnil] at hlast
  · rw [hchars, List.flatMap_append, List.flatMap_singleton] at hlast ⊢
    rw [List.getLast?_append_of_ne_nil _ (utf8EncodeChar_ne_nil c)] at hlast
    obtain ⟨hc, hone⟩ := utf8EncodeChar_of_mem hb (List.mem_of_getLast? hlast)
    refine ⟨front, c, rfl, hc, ?_⟩
    rw [hone, encode_eq_flatMap, String.toList_ofList]

theorem toList_loop_eq (bytes : ByteArray) (i : Nat) (before : List UInt8) :
    ByteArray.toList.loop bytes i before = before.reverse ++ bytes.data.toList.drop i := by
  fun_induction ByteArray.toList.loop bytes i before with
  | case1 i before hi ih =>
      have hget : bytes.get! i = bytes.data.toList[i] := getElem!_pos bytes.data i hi
      rw [ih, List.drop_eq_getElem_cons hi, hget, List.reverse_cons, List.append_assoc,
        List.singleton_append]
  | case2 i before hi =>
      rw [List.drop_eq_nil_of_le (Nat.le_of_not_lt hi), List.append_nil]

/-- The bytes of an array, one after the other. -/
theorem toList_eq_data (bytes : ByteArray) : bytes.toList = bytes.data.toList := by
  rw [ByteArray.toList, toList_loop_eq, List.reverse_nil, List.nil_append, List.drop_zero]

end TableRouting.Text
