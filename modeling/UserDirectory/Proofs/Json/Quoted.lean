import UserDirectory.Json.Quoted

/-!
# Escaped texts are found and read back

`Quoted.escape` writes a text between quotation marks. Two readers meet what it wrote: `skip`, which
only looks for the closing mark, and `unescape`, which gives the octets back. Both go character by
character, so both follow from one description of the escape of a single character, `Escape`: the
UTF-8 form itself, a short escape, or `\u` with four digits.

Main results: `closed_escape`, `text?_escape`.
-/

namespace UserDirectory.Json.Quoted

/-! ## The escape of one character -/

/-- The UTF-8 form of a character outside ASCII consists of octets from `0x80` on. -/
theorem le_of_mem_utf8EncodeChar {c : Char} (h : 0x80 ≤ c.toNat) {b : UInt8}
    (hb : b ∈ String.utf8EncodeChar c) : 0x80 ≤ b.toNat := by
  have hv : ¬ c.val.toNat ≤ 0x7f := by
    show ¬ c.toNat ≤ 0x7f
    omega
  unfold String.utf8EncodeChar at hb
  simp only [hv, if_false] at hb
  split at hb
  · simp only [List.mem_cons, List.not_mem_nil, or_false] at hb
    rcases hb with rfl | rfl <;> simp only [UInt8.toNat_ofNat'] <;> omega
  · split at hb
    · simp only [List.mem_cons, List.not_mem_nil, or_false] at hb
      rcases hb with rfl | rfl | rfl <;> simp only [UInt8.toNat_ofNat'] <;> omega
    · simp only [List.mem_cons, List.not_mem_nil, or_false] at hb
      rcases hb with rfl | rfl | rfl | rfl <;> simp only [UInt8.toNat_ofNat'] <;> omega

/-- The UTF-8 form of an ASCII character is its code point. -/
theorem utf8EncodeChar_ascii {c : Char} (h : c.toNat < 0x80) :
    String.utf8EncodeChar c = [octet c] := by
  have hv : c.val.toNat ≤ 0x7f := by
    show c.toNat ≤ 0x7f
    omega
  unfold String.utf8EncodeChar
  rw [if_pos hv]
  rfl

/-- An octet that stands for itself between quotation marks. -/
def IsPlain (b : UInt8) : Prop := b ≠ 0x22 ∧ b ≠ 0x5C ∧ ¬ b < 0x20

/-- The three shapes that the escape of a character has. -/
inductive Escape (c : Char) : Octets → Prop
  | plain : (∀ b ∈ String.utf8EncodeChar c, IsPlain b) → Escape c (String.utf8EncodeChar c)
  | short {e o : UInt8} : e ≠ 0x75 → [0x22, 0x5C, 0x2F, 0x62, 0x66, 0x6E, 0x72, 0x74].contains e →
      shortEscape? e = some o → String.utf8EncodeChar c = [o] → Escape c [0x5C, e]
  | code {h₁ h₂ h₃ h₄ : UInt8} :
      ([h₁, h₂, h₃, h₄].all fun h => (Text.hexValue? (Char.ofUInt8 h)).isSome) →
      hexQuad? h₁ h₂ h₃ h₄ = some c.toNat → c.toNat < 0x20 →
      Escape c [0x5C, 0x75, h₁, h₂, h₃, h₄]

theorem isPlain_of_le {b : UInt8} (h : 0x80 ≤ b.toNat) : IsPlain b := by
  refine ⟨?_, ?_, ?_⟩
  · rintro rfl
    exact absurd h (by decide)
  · rintro rfl
    exact absurd h (by decide)
  · rw [UInt8.lt_iff_toNat_lt]
    simp only [UInt8.reduceToNat]
    omega

/-- The digits that a control character is escaped with. -/
theorem hexQuad?_control : ∀ k < 0x20,
    ([0x30, 0x30, hexOctet (k / 16), hexOctet (k % 16)].all fun h =>
      (Text.hexValue? (Char.ofUInt8 h)).isSome) ∧
    hexQuad? 0x30 0x30 (hexOctet (k / 16)) (hexOctet (k % 16)) = some k := by
  decide

instance (b : UInt8) : Decidable (IsPlain b) := inferInstanceAs (Decidable (_ ∧ _ ∧ _))

/-- Printable ASCII characters other than the two marks are plain. -/
theorem isPlain_octet : ∀ k < 0x80, 0x20 ≤ k → Char.ofNat k ≠ '"' → Char.ofNat k ≠ '\\' →
    IsPlain (octet (Char.ofNat k)) := by
  decide

theorem escape_escapeChar (c : Char) : Escape c (escapeChar c) := by
  unfold escapeChar
  -- the two marks and five control characters have short escapes
  split
  · subst_vars; exact .short (by decide) (by decide) rfl rfl
  split
  · subst_vars; exact .short (by decide) (by decide) rfl rfl
  split
  · subst_vars; exact .short (by decide) (by decide) rfl rfl
  split
  · subst_vars; exact .short (by decide) (by decide) rfl rfl
  split
  · subst_vars; exact .short (by decide) (by decide) rfl rfl
  split
  · subst_vars; exact .short (by decide) (by decide) rfl rfl
  split
  · subst_vars; exact .short (by decide) (by decide) rfl rfl
  split
  · rename_i hlt
    obtain ⟨hdigits, hvalue⟩ := hexQuad?_control c.toNat hlt
    exact .code hdigits hvalue hlt
  · rename_i hquote hbackslash _ _ _ _ _ hlt
    refine .plain fun b hb => ?_
    by_cases hascii : c.toNat < 0x80
    · rw [utf8EncodeChar_ascii hascii, List.mem_singleton] at hb
      have hp := isPlain_octet c.toNat hascii (by omega)
      rw [Char.ofNat_toNat] at hp
      exact hb ▸ hp hquote hbackslash
    · exact isPlain_of_le (le_of_mem_utf8EncodeChar (by omega) hb)

/-! ## Finding the closing mark -/

/-- The closing mark ends the search. -/
theorem skip_quote (read rest : Octets) :
    skip read (0x22 :: rest) = some (read.reverse, rest) := by
  rw [skip.eq_def]
  rfl

theorem skip_cons_plain {b : UInt8} (h : IsPlain b) (read rest : Octets) :
    skip read (b :: rest) = skip (b :: read) rest := by
  rw [skip.eq_def]
  simp only [if_neg h.1, if_neg h.2.1, if_neg h.2.2]

theorem skip_cons_short {e : UInt8} (hcode : e ≠ 0x75)
    (h : [0x22, 0x5C, 0x2F, 0x62, 0x66, 0x6E, 0x72, 0x74].contains e) (read rest : Octets) :
    skip read (0x5C :: e :: rest) = skip (e :: 0x5C :: read) rest := by
  rw [skip.eq_def]
  simp only [if_neg hcode, if_pos h]
  rfl

theorem skip_cons_code {h₁ h₂ h₃ h₄ : UInt8}
    (h : [h₁, h₂, h₃, h₄].all fun h => (Text.hexValue? (Char.ofUInt8 h)).isSome)
    (read rest : Octets) :
    skip read (0x5C :: 0x75 :: h₁ :: h₂ :: h₃ :: h₄ :: rest) =
      skip (h₄ :: h₃ :: h₂ :: h₁ :: 0x75 :: 0x5C :: read) rest := by
  rw [skip.eq_def]
  simp only [if_pos h]
  rfl

/-- Plain octets are passed over. -/
theorem skip_plain {octets : Octets} (h : ∀ b ∈ octets, IsPlain b) (read rest : Octets) :
    skip read (octets ++ rest) = skip (octets.reverse ++ read) rest := by
  induction octets generalizing read with
  | nil => rfl
  | cons b octets ih =>
    have ih := ih (fun b' hb' => h b' (List.mem_cons_of_mem _ hb')) (b :: read)
    rw [List.cons_append, skip_cons_plain (h b List.mem_cons_self), ih]
    simp

theorem skip_of_escape {c : Char} {octets : Octets} (h : Escape c octets) (read rest : Octets) :
    skip read (octets ++ rest) = skip (octets.reverse ++ read) rest := by
  cases h with
  | plain hplain => exact skip_plain hplain read rest
  | short hcode hshort _ _ => exact skip_cons_short hcode hshort read rest
  | code hdigits _ _ => exact skip_cons_code hdigits read rest

/-- The closing mark of an escaped text is the one after it. -/
theorem skip_escapeChars (cs : List Char) (read rest : Octets) :
    skip read (cs.flatMap escapeChar ++ 0x22 :: rest) =
      some (read.reverse ++ cs.flatMap escapeChar, rest) := by
  induction cs generalizing read with
  | nil => simpa using skip_quote read rest
  | cons c cs ih =>
    rw [List.flatMap_cons, List.append_assoc, skip_of_escape (escape_escapeChar c), ih]
    simp

/-- Escaped octets that end at the first mark after them. -/
def Closed (raw : Octets) : Prop := ∀ rest, skip [] (raw ++ 0x22 :: rest) = some (raw, rest)

theorem closed_escape (s : String) : Closed (escape s) := skip_escapeChars s.toList []

/-! ## Reading the text -/

theorem unescape_cons_plain {b : UInt8} (h : IsPlain b) (read rest : Octets) :
    unescape read (b :: rest) = unescape (b :: read) rest := by
  rw [unescape.eq_def]
  simp only [if_neg h.2.1]

theorem unescape_cons_short {e o : UInt8} (hcode : e ≠ 0x75) (h : shortEscape? e = some o)
    (read rest : Octets) : unescape read (0x5C :: e :: rest) = unescape (o :: read) rest := by
  rw [unescape.eq_def]
  simp only [if_neg hcode, h]
  rfl

/-- A code below the surrogates stands for its character. -/
theorem unescape_cons_code {h₁ h₂ h₃ h₄ : UInt8} {n : Nat} (h : hexQuad? h₁ h₂ h₃ h₄ = some n)
    (hn : n < 0xD800) (read rest : Octets) :
    unescape read (0x5C :: 0x75 :: h₁ :: h₂ :: h₃ :: h₄ :: rest) =
      unescape ((String.utf8EncodeChar (Char.ofNat n)).reverse ++ read) rest := by
  have hhigh : isHighSurrogate n = false := by
    simp only [isHighSurrogate, Bool.and_eq_false_iff, decide_eq_false_iff_not]
    omega
  have hlow : isLowSurrogate n = false := by
    simp only [isLowSurrogate, Bool.and_eq_false_iff, decide_eq_false_iff_not]
    omega
  rw [unescape.eq_def]
  simp only [h, hhigh, hlow]
  rfl

theorem unescape_plain {octets : Octets} (h : ∀ b ∈ octets, IsPlain b) (read rest : Octets) :
    unescape read (octets ++ rest) = unescape (octets.reverse ++ read) rest := by
  induction octets generalizing read with
  | nil => rfl
  | cons b octets ih =>
    have ih := ih (fun b' hb' => h b' (List.mem_cons_of_mem _ hb')) (b :: read)
    rw [List.cons_append, unescape_cons_plain (h b List.mem_cons_self), ih]
    simp

/-- The escape of a character is read as its UTF-8 form. -/
theorem unescape_of_escape {c : Char} {octets : Octets} (h : Escape c octets)
    (read rest : Octets) :
    unescape read (octets ++ rest) =
      unescape ((String.utf8EncodeChar c).reverse ++ read) rest := by
  cases h with
  | plain hplain => exact unescape_plain hplain read rest
  | short hcode _ hshort hutf8 =>
    rw [hutf8]
    exact unescape_cons_short hcode hshort read rest
  | code _ hvalue hlt =>
    have h := unescape_cons_code hvalue (by omega) read rest
    rwa [Char.ofNat_toNat] at h

theorem unescape_escapeChars (cs : List Char) (read : Octets) :
    unescape read (cs.flatMap escapeChar) =
      some (read.reverse ++ cs.flatMap String.utf8EncodeChar) := by
  induction cs generalizing read with
  | nil => simp [unescape.eq_def]
  | cons c cs ih =>
    rw [List.flatMap_cons, unescape_of_escape (escape_escapeChar c), ih]
    simp

/-- The UTF-8 form of a text is that of its characters in a row. -/
theorem ofText_eq_flatMap (s : String) :
    Octets.ofText s = s.toList.flatMap String.utf8EncodeChar := by
  unfold Octets.ofText
  rw [← String.utf8Encode_toList]
  simp [List.utf8Encode]

/-- What was escaped is read back. -/
@[simp] theorem text?_escape (s : String) : text? (escape s) = some s := by
  unfold text? escape
  rw [unescape_escapeChars]
  simp [← ofText_eq_flatMap]

end UserDirectory.Json.Quoted
