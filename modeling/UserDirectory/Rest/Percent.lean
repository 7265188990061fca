import UserDirectory.Octets
import UserDirectory.Text.Hex

/-!
# Percent encoding

A percent sign with two hexadecimal digits stands for one octet; any other percent sign stands
for itself.
-/

namespace UserDirectory.Rest.Percent

/-- The octet of two hexadecimal digits, if they are. -/
def octet? (a b : Char) : Option UInt8 := do
  let high ← Text.hexValue? a
  let low ← Text.hexValue? b
  return UInt8.ofNat (16 * high.val + low.val)

/-- The octets that an encoded text stands for. -/
def decode : List Char → Octets
  | [] => []
  | '%' :: a :: b :: rest =>
    match octet? a b with
    | some o => o :: decode rest
    | none => String.utf8EncodeChar '%' ++ decode (a :: b :: rest)
  | c :: rest => String.utf8EncodeChar c ++ decode rest

/-- The text that an encoded text stands for, if its octets spell one. -/
def text? (cs : List Char) : Option String := Octets.text? (decode cs)

end UserDirectory.Rest.Percent
