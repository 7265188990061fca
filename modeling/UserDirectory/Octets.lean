/-!
# Octets

Payloads are lists of octets. A text becomes octets by UTF-8, and octets that are UTF-8 become
text again; `text?_ofText` says that the second undoes the first.
-/

namespace UserDirectory

/-- A payload: what travels over the bus, in request bodies and in frames. -/
abbrev Octets := List UInt8

namespace Octets

/-- The UTF-8 form of a text. -/
def ofText (s : String) : Octets := s.toByteArray.data.toList

/-- The text that the octets spell, if they are well-formed UTF-8. -/
def text? (octets : Octets) : Option String := String.fromUTF8? ⟨octets.toArray⟩

@[simp] theorem text?_ofText (s : String) : text? (ofText s) = some s := by
  have h : (⟨(ofText s).toArray⟩ : ByteArray) = s.toByteArray := by simp [ofText]
  unfold text? String.fromUTF8?
  rw [h, dif_pos s.isValidUTF8]
  rfl

end Octets

end UserDirectory
