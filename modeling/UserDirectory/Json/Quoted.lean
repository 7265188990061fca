import UserDirectory.Octets
import UserDirectory.Text.Hex

/-!
# Quoted strings

What stands between the quotation marks of a string: octets in which a backslash starts an
escape. `escape` writes a text, `text?` reads one, and `skip` finds the closing mark of a string
that nobody reads. Skipping asks less than reading: a lone surrogate escape or octets that are not
UTF-8 end no string, but they spell no text either.
-/

namespace UserDirectory.Json.Quoted

/-! ## Writing -/

/-- The octet of an ASCII character. -/
def octet (c : Char) : UInt8 := UInt8.ofNat c.toNat

/-- The octet of a hexadecimal digit. -/
def hexOctet (n : Nat) : UInt8 := octet (Text.hexDigit (Fin.ofNat 16 n))

/-- The escaped form of one character: quotation mark, backslash and control characters are
escaped, all others stand for themselves. -/
def escapeChar (c : Char) : Octets :=
  if c = '"' then [0x5C, 0x22]
  else if c = '\\' then [0x5C, 0x5C]
  else if c = '\x08' then [0x5C, 0x62]
  else if c = '\x0c' then [0x5C, 0x66]
  else if c = '\n' then [0x5C, 0x6E]
  else if c = '\r' then [0x5C, 0x72]
  else if c = '\t' then [0x5C, 0x74]
  else if c.toNat < 0x20 then
    [0x5C, 0x75, 0x30, 0x30, hexOctet (c.toNat / 16), hexOctet (c.toNat % 16)]
  else String.utf8EncodeChar c

def escape (s : String) : Octets := s.toList.flatMap escapeChar

/-! ## Finding the end -/

/-- Splits the octets after an opening quotation mark at the closing one. Every escape must be one
of the eight short ones or `\u` with four hexadecimal digits, and no control character may stand
unescaped. The first argument holds what was read, in reverse. -/
def skip (read : Octets) : Octets → Option (Octets × Octets)
  | [] => none
  | b :: rest =>
    if b = 0x22 then some (read.reverse, rest)
    else if b = 0x5C then
      match rest with
      | [] => none
      | e :: rest =>
        if e = 0x75 then
          match rest with
          | h₁ :: h₂ :: h₃ :: h₄ :: rest =>
            if [h₁, h₂, h₃, h₄].all fun h => (Text.hexValue? (Char.ofUInt8 h)).isSome then
              skip (h₄ :: h₃ :: h₂ :: h₁ :: e :: b :: read) rest
            else none
          | _ => none
        else if [0x22, 0x5C, 0x2F, 0x62, 0x66, 0x6E, 0x72, 0x74].contains e then
          skip (e :: b :: read) rest
        else none
    else if b < 0x20 then none
    else skip (b :: read) rest

theorem length_lt_of_skip {read s raw rest : Octets} (h : skip read s = some (raw, rest)) :
    rest.length < s.length := by
  fun_induction skip read s <;> simp_all <;> omega

/-! ## Reading -/

/-- The number that four hexadecimal digits spell. -/
def hexQuad? (h₁ h₂ h₃ h₄ : UInt8) : Option Nat := do
  let a ← Text.hexValue? (Char.ofUInt8 h₁)
  let b ← Text.hexValue? (Char.ofUInt8 h₂)
  let c ← Text.hexValue? (Char.ofUInt8 h₃)
  let d ← Text.hexValue? (Char.ofUInt8 h₄)
  return ((a.val * 16 + b.val) * 16 + c.val) * 16 + d.val

/-- Whether a code unit opens a surrogate pair. -/
def isHighSurrogate (n : Nat) : Bool := 0xD800 ≤ n && n < 0xDC00

/-- Whether a code unit closes a surrogate pair. -/
def isLowSurrogate (n : Nat) : Bool := 0xDC00 ≤ n && n < 0xE000

/-- The octet that a short escape stands for. -/
def shortEscape? (e : UInt8) : Option UInt8 :=
  if e = 0x22 || e = 0x5C || e = 0x2F then some e
  else if e = 0x62 then some 0x08
  else if e = 0x66 then some 0x0C
  else if e = 0x6E then some 0x0A
  else if e = 0x72 then some 0x0D
  else if e = 0x74 then some 0x09
  else none

/-- The octets that the escaped octets stand for; `\u` escapes outside the basic plane come in
surrogate pairs. The first argument holds what was read, in reverse. -/
def unescape (read : Octets) : Octets → Option Octets
  | [] => some read.reverse
  | b :: rest =>
    if b = 0x5C then
      match rest with
      | [] => none
      | e :: rest =>
        if e = 0x75 then
          match rest with
          | h₁ :: h₂ :: h₃ :: h₄ :: rest =>
            match hexQuad? h₁ h₂ h₃ h₄ with
            | none => none
            | some n =>
              if isHighSurrogate n then
                match rest with
                | b' :: e' :: l₁ :: l₂ :: l₃ :: l₄ :: rest =>
                  match hexQuad? l₁ l₂ l₃ l₄ with
                  | none => none
                  | some m =>
                    if b' = 0x5C && e' = 0x75 && isLowSurrogate m then
                      let c := Char.ofNat (0x10000 + (n - 0xD800) * 0x400 + (m - 0xDC00))
                      unescape ((String.utf8EncodeChar c).reverse ++ read) rest
                    else none
                | _ => none
              else if isLowSurrogate n then none
              else unescape ((String.utf8EncodeChar (Char.ofNat n)).reverse ++ read) rest
          | _ => none
        else
          match shortEscape? e with
          | none => none
          | some o => unescape (o :: read) rest
    else unescape (b :: read) rest

/-- The text that the escaped octets spell. -/
def text? (raw : Octets) : Option String := (unescape [] raw).bind Octets.text?

end UserDirectory.Json.Quoted
