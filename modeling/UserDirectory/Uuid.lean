import UserDirectory.Text.Hex

/-!
# Universally unique identifiers

An identifier is thirty-two hexadecimal digits. It is written hyphenated in lower case and read
in four spellings: hyphenated, plain, hyphenated in braces, and hyphenated after `urn:uuid:`, with
all letters in either case.
-/

namespace UserDirectory

structure Uuid where
  digits : List (Fin 16)
  length_digits : digits.length = 32
  deriving DecidableEq

namespace Uuid

/-- The identifier with the given digits. -/
def ofDigits? (ds : List (Fin 16)) : Option Uuid :=
  if h : ds.length = 32 then some ⟨ds, h⟩ else none

/-- The lengths of the groups between the hyphens. -/
def groups : List Nat := [8, 4, 4, 4, 12]

/-- Characters cut into groups, with a hyphen before each group but the first. -/
def hyphenate : Bool → List Nat → List Char → List Char
  | _, [], cs => cs
  | first, n :: ns, cs =>
    (if first then [] else ['-']) ++ cs.take n ++ hyphenate false ns (cs.drop n)

/-- The hyphenated spelling in lower case. -/
def text (u : Uuid) : String :=
  String.ofList (hyphenate true groups (u.digits.map Text.hexDigit))

/-- Characters with the hyphens between the groups taken out; none if one is missing. -/
def unhyphenate? : Bool → List Nat → List Char → Option (List Char)
  | _, [], cs => if cs.isEmpty then some [] else none
  | first, n :: ns, cs =>
    let body? := if first then some cs else
      match cs with
      | '-' :: rest => some rest
      | _ => none
    body?.bind fun body =>
      if body.length < n then none
      else (unhyphenate? false ns (body.drop n)).map (body.take n ++ ·)

/-- The identifier that thirty-two hexadecimal digits spell. -/
def ofPlain? (cs : List Char) : Option Uuid := (cs.mapM Text.hexValue?).bind ofDigits?

/-- The identifier that a hyphenated spelling gives. -/
def ofHyphenated? (cs : List Char) : Option Uuid := (unhyphenate? true groups cs).bind ofPlain?

/-- What stands before the hyphenated digits in the spelling as a resource name. -/
def urnLead : List Char := "urn:uuid:".toList

/-- The identifier that a spelling gives. -/
def parse? (s : String) : Option Uuid :=
  let cs := s.toList
  match cs.length with
  | 32 => ofPlain? cs
  | 36 => ofHyphenated? cs
  | 38 =>
    if cs.head? = some '{' && cs.getLast? = some '}' then ofHyphenated? ((cs.drop 1).take 36)
    else none
  | 45 => if (cs.take 9).map Char.toLower = urnLead then ofHyphenated? (cs.drop 9) else none
  | _ => none

/-- The identifier of version 4 whose last fifteen digits are a serial number. -/
def ofSerial (n : Nat) : Uuid :=
  ⟨[5, 14, 14, 13] ++ List.replicate 8 0 ++ [4, 0, 0, 0] ++ [8] ++
    (List.range 15).map (fun k => Fin.ofNat 16 (n / Nat.pow 16 (14 - k))), by simp⟩

end Uuid

end UserDirectory
