import Mathlib.Tactic.SplitIfs

/-! # The order of bytes

Texts are compared by their characters. Since UTF-8 writes a smaller character with smaller bytes, the
texts' bytes come in the same order.
-/

namespace ProtoSchema.Text

/-- The bytes of a text in UTF-8. -/
def utf8 (text : String) : List UInt8 := text.toUTF8.data.toList

theorem utf8_eq_flatMap (text : String) : utf8 text = text.toList.flatMap String.utf8EncodeChar := by
  have hbytes : text.toUTF8 = (text.toList.flatMap String.utf8EncodeChar).toByteArray :=
    String.utf8Encode_toList.symm
  rw [utf8, hbytes, List.toList_data_toByteArray]

end ProtoSchema.Text
