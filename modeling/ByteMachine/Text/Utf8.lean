/-!
# Text as bytes

A text and the bytes of its UTF-8 form. Main statement: decoding gives back what was encoded.
-/

namespace ByteMachine.Text

def utf8Encode (text : String) : List UInt8 := text.toList.flatMap String.utf8EncodeChar

/-- The text that bytes stand for, if they are well-formed. -/
def utf8Decode? (bytes : List UInt8) : Option String := String.fromUTF8? bytes.toByteArray

@[simp] theorem utf8Encode_append (s t : String) :
    utf8Encode (s ++ t) = utf8Encode s ++ utf8Encode t := by
  simp [utf8Encode]

theorem toByteArray_utf8Encode (text : String) :
    (utf8Encode text).toByteArray = text.toByteArray := by
  rw [← String.utf8Encode_toList]
  rfl

theorem utf8Decode?_utf8Encode (text : String) : utf8Decode? (utf8Encode text) = some text := by
  simp only [utf8Decode?, toByteArray_utf8Encode, String.fromUTF8?, dif_pos text.isValidUTF8]
  rfl

/-- Nothing but its own bytes is decoded to a text. -/
theorem utf8Decode?_eq_some_iff {bytes : List UInt8} {text : String} :
    utf8Decode? bytes = some text ↔ utf8Encode text = bytes := by
  constructor
  · intro decoded
    unfold utf8Decode? String.fromUTF8? at decoded
    split at decoded
    case isTrue wellFormed =>
      cases decoded
      have same : (utf8Encode (String.fromUTF8 _ wellFormed)).toByteArray = bytes.toByteArray :=
        toByteArray_utf8Encode _
      simpa using congrArg ByteArray.data same
    case isFalse => cases decoded
  · rintro rfl
    exact utf8Decode?_utf8Encode text

end ByteMachine.Text
