import TypeLineage.Json.Reader

/-!
# Texts as bytes

The bytes of a text are those of its characters, one after the other, and a text is read back from
them.
-/

namespace TypeLineage

open Json

/-- The bytes of a text in UTF-8. -/
def encoded (text : List Char) : List UInt8 :=
  text.flatMap bytesOf

@[simp] theorem encoded_nil : encoded [] = [] :=
  rfl

@[simp] theorem encoded_cons (c : Char) (text : List Char) :
    encoded (c :: text) = bytesOf c ++ encoded text :=
  List.flatMap_cons

@[simp] theorem encoded_append (text more : List Char) :
    encoded (text ++ more) = encoded text ++ encoded more :=
  List.flatMap_append

/-- The bytes of an array are listed in their order. -/
theorem toList_eq_data (bytes : ByteArray) : bytes.toList = bytes.data.toList := by
  have loop : ∀ i taken, ByteArray.toList.loop bytes i taken =
      taken.reverse ++ bytes.data.toList.drop i := by
    intro i taken
    fun_induction ByteArray.toList.loop bytes i taken with
    | case1 i taken inside ih =>
      have inside' : i < bytes.data.toList.length := by simpa using inside
      rw [ih, List.drop_eq_getElem_cons inside']
      simp [ByteArray.get!, inside]
    | case2 i taken outside =>
      have outside' : bytes.data.toList.length ≤ i := by simpa using outside
      simp [List.drop_eq_nil_of_le outside']
  exact (loop 0 []).trans (by simp)

theorem bytesOf_eq_utf8EncodeChar (c : Char) : bytesOf c = String.utf8EncodeChar c := by
  rw [bytesOf, String.singleton_eq_ofList, toList_eq_data, String.toUTF8,
    String.toByteArray_ofList, List.utf8Encode, List.toList_data_toByteArray, List.flatMap_singleton]

theorem encoded_eq_flatMap (text : List Char) :
    encoded text = text.flatMap String.utf8EncodeChar := by
  rw [encoded, funext bytesOf_eq_utf8EncodeChar]

/-- The bytes of a text are those of its characters. -/
theorem toUTF8_ofList (text : List Char) :
    (String.ofList text).toUTF8.toList = encoded text := by
  rw [encoded_eq_flatMap, toList_eq_data, String.toUTF8, String.toByteArray_ofList,
    List.utf8Encode, List.toList_data_toByteArray]

theorem toList_toUTF8 (text : String) : text.toUTF8.toList = encoded text.toList := by
  rw [← toUTF8_ofList, String.ofList_toList]

/-- What has been written as text is read as this text. -/
theorem fromUTF8?_toUTF8 (text : String) : String.fromUTF8? text.toUTF8 = some text := by
  rw [String.fromUTF8?, dif_pos]
  rfl

/-- Bytes are read as a text exactly if they are the bytes of that text. -/
theorem fromUTF8?_eq_some_iff {bytes : ByteArray} {text : String} :
    String.fromUTF8? bytes = some text ↔ bytes = text.toUTF8 := by
  constructor
  · intro read
    rw [String.fromUTF8?] at read
    split at read
    · exact congrArg String.toByteArray (Option.some.inj read)
    · cases read
  · rintro rfl
    exact fromUTF8?_toUTF8 text

/-- The bytes of a text are read as this text. -/
theorem fromUTF8?_encoded (text : List Char) :
    String.fromUTF8? ⟨(encoded text).toArray⟩ = some (String.ofList text) := by
  have same : (⟨(encoded text).toArray⟩ : ByteArray) = (String.ofList text).toUTF8 := by
    refine ByteArray.ext ?_
    rw [← toUTF8_ofList, toList_eq_data]
  rw [same, fromUTF8?_toUTF8]

/-- Characters have numbers up to a bound. -/
theorem toNat_lt (c : Char) : c.toNat < 0x110000 := by
  rcases c.valid with low | ⟨-, high⟩
  · exact Nat.lt_trans low (by decide)
  · exact high

/-- A character of one byte. -/
theorem bytesOf_ascii {c : Char} (ascii : c.toNat < 128) : bytesOf c = [UInt8.ofNat c.toNat] := by
  rw [bytesOf_eq_utf8EncodeChar, String.utf8EncodeChar]
  exact if_pos (Nat.le_of_lt_succ ascii)

/-- The bytes of all other characters are none of those. -/
theorem le_of_mem_bytesOf {c : Char} (wide : 128 ≤ c.toNat) {byte : UInt8}
    (member : byte ∈ bytesOf c) : 128 ≤ byte.toNat := by
  have wide : 128 ≤ c.val.toNat := wide
  simp only [bytesOf_eq_utf8EncodeChar, String.utf8EncodeChar] at member
  split at member
  case isTrue narrow => omega
  case isFalse =>
    split at member
    · simp only [List.mem_cons, List.not_mem_nil, or_false] at member
      rcases member with rfl | rfl <;> rw [UInt8.toNat_ofNat'] <;> omega
    · split at member
      · simp only [List.mem_cons, List.not_mem_nil, or_false] at member
        rcases member with rfl | rfl | rfl <;> rw [UInt8.toNat_ofNat'] <;> omega
      · simp only [List.mem_cons, List.not_mem_nil, or_false] at member
        rcases member with rfl | rfl | rfl | rfl <;> rw [UInt8.toNat_ofNat'] <;> omega

end TypeLineage
