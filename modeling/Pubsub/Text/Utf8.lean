/-!
# UTF-8

Text leaves and enters the program as bytes in UTF-8. Reading is strict: overlong forms, surrogates
and code points past the last one are no text. `ofUtf8?_utf8Bytes` says that what is written is read
back, and `utf8Bytes_eq_flatMap` that the bytes of a text are those of its characters, one after the
other.
-/

namespace Pubsub

/-- A sequence of bytes, as a list because it is taken apart from the front. -/
abbrev Bytes := List UInt8

/-- The bytes of a text in UTF-8. -/
def utf8Bytes (s : String) : Bytes :=
  s.toByteArray.data.toList

/-- The text whose UTF-8 form the bytes are. -/
def ofUtf8? (bytes : Bytes) : Option String :=
  String.fromUTF8? ⟨⟨bytes⟩⟩

/-- **The bytes of a text read back as that text.** -/
theorem ofUtf8?_utf8Bytes (s : String) : ofUtf8? (utf8Bytes s) = some s := by
  have h : (⟨⟨s.toByteArray.data.toList⟩⟩ : ByteArray) = s.toByteArray := rfl
  simp [ofUtf8?, utf8Bytes, h, String.fromUTF8?, s.isValidUTF8, String.fromUTF8]

/-- The bytes of a text are those of its characters in order. -/
theorem utf8Bytes_eq_flatMap (s : String) :
    utf8Bytes s = s.toList.flatMap String.utf8EncodeChar := by
  have h : s.toByteArray = s.toList.utf8Encode := String.utf8Encode_toList.symm
  rw [utf8Bytes, h, List.utf8Encode, List.data_toByteArray]

end Pubsub
