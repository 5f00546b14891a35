import CommandPool.Text.Utf8

/-!
# The order of texts is that of their bytes

Texts are compared by their characters, and these by their numbers.  UTF-8 is made so that the
bytes of two characters compare as the characters do (`encodeChar_lt`), and so the bytes of two
texts compare as the texts do (`encode_lt`).
-/

namespace CommandPool.Text.Utf8

/-! ## The bytes of a text -/

theorem toList_loop (bytes : ByteArray) (i : Nat) (read : List UInt8) :
    ByteArray.toList.loop bytes i read = read.reverse ++ bytes.data.toList.drop i := by
  fun_induction ByteArray.toList.loop bytes i read with
  | case1 i read inside ih =>
    have inside' : i < bytes.data.toList.length := by simpa using inside
    rw [ih, List.drop_eq_getElem_cons inside']
    simp [ByteArray.get!, inside]
  | case2 i read outside =>
    rw [List.drop_eq_nil_of_le (by simpa using Nat.le_of_not_lt outside), List.append_nil]

/-- The bytes of a text are those of its characters. -/
theorem encode_eq (s : String) : encode s = s.toList.flatMap String.utf8EncodeChar := by
  have whole : s.toByteArray = (s.toList.flatMap String.utf8EncodeChar).toByteArray := by
    rw [← String.ofList_toList (s := s), String.toByteArray_ofList, List.utf8Encode,
      String.toList_ofList]
  rw [encode, String.toUTF8_eq_toByteArray, whole, ByteArray.toList, toList_loop,
    List.toList_data_toByteArray, List.reverse_nil, List.nil_append, List.drop_zero]

/-! ## Characters -/

/-- A smaller character has smaller bytes, whatever follows. -/
theorem encodeChar_lt {c d : Char} (less : c < d) (cs ds : List UInt8) :
    String.utf8EncodeChar c ++ cs < String.utf8EncodeChar d ++ ds := by
  have numbers : c.val.toNat < d.val.toNat := less
  have limit : d.val.toNat < 0x110000 := by
    rcases d.valid with below | ⟨_, below⟩
    · exact Nat.lt_trans below (by decide)
    · exact below
  have two (n : Nat) : n / 4096 = n / 64 / 64 := by omega
  have three (n : Nat) : n / 262144 = n / 64 / 64 / 64 := by omega
  -- One to four bytes for each of them; each byte after the first one holds six bits.
  fun_cases String.utf8EncodeChar c
  all_goals fun_cases String.utf8EncodeChar d
  all_goals
    simp only [List.cons_append, List.nil_append, List.cons_lt_cons_iff, UInt8.lt_iff_toNat_lt,
      ← UInt8.toNat_inj, UInt8.toNat_ofNat', two, three]
    omega

/-! ## Texts -/

theorem flatMap_encodeChar_lt {cs ds : List Char} (less : cs < ds) :
    cs.flatMap String.utf8EncodeChar < ds.flatMap String.utf8EncodeChar := by
  induction less with
  | @nil d ds =>
    cases bytes : (d :: ds).flatMap String.utf8EncodeChar with
    | nil => simp [String.utf8EncodeChar_ne_nil] at bytes
    | cons b bs => exact List.nil_lt_cons b bs
  | @rel c cs d ds less => exact encodeChar_lt less _ _
  | @cons c cs ds less ih =>
    rw [List.flatMap_cons, List.flatMap_cons]
    exact List.append_left_lt ih

/-- A smaller text has smaller bytes. -/
theorem encode_lt {s t : String} (less : s < t) : encode s < encode t := by
  rw [encode_eq, encode_eq]
  exact flatMap_encodeChar_lt (String.lt_iff.mp less)

end CommandPool.Text.Utf8
