/-!
# UTF-8

The bytes of a text and back. Not all bytes are a text.
-/

namespace WireSchema.Text

/-- The UTF-8 bytes of a text. -/
def utf8 (s : String) : List UInt8 := s.toUTF8.data.toList

def ofUtf8? (bytes : List UInt8) : Option String := String.fromUTF8? ⟨bytes.toArray⟩

@[simp] theorem ofUtf8?_utf8 (s : String) : ofUtf8? (utf8 s) = some s := by
  have valid : (⟨(utf8 s).toArray⟩ : ByteArray).IsValidUTF8 := by
    simpa [utf8] using s.isValidUTF8
  simp only [ofUtf8?, String.fromUTF8?, valid, dif_pos]
  simp [utf8, String.fromUTF8]

end WireSchema.Text
