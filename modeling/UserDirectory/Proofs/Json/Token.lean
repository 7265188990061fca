import UserDirectory.Json.Token
import UserDirectory.Proofs.Decimal.Digits
import UserDirectory.Proofs.Json.Quoted

/-!
# Written tokens are read back

A token that is written and followed by something else is read as itself, up to where it ends:
`scanFrom_text`. Strings end at their closing mark. Numbers have no mark of their own: a number ends
where something follows that cannot belong to it, so the octets after one must be `Delimited`.
Everything that follows a value in a document is.
-/

namespace UserDirectory.Json

open Decimal (Digit)

/-! ## Number literals -/

/-- A number literal as the grammar has it. -/
structure Numeral.WellFormed (x : Numeral) : Prop where
  whole_ne_nil : x.whole ≠ []
  /-- a zero stands in front only if it stands alone -/
  whole_zero : ∀ ds, x.whole = 0 :: ds → ds = []
  fraction_ne_nil : ∀ ds, x.fraction = some ds → ds ≠ []
  exponent_ne_nil : ∀ e, x.exponent = some e → e.digits ≠ []

theorem Numeral.wellFormed_ofInt (n : Int) : (Numeral.ofInt n).WellFormed :=
  ⟨Decimal.digits_ne_nil _, fun _ h => Decimal.eq_nil_of_digits_eq h, fun _ h => absurd h (by simp [ofInt]),
    fun _ h => absurd h (by simp [ofInt])⟩

/-- The literal of an integer spells it. -/
@[simp] theorem Numeral.int?_ofInt (n : Int) : (Numeral.ofInt n).int? = some n := by
  simp only [Numeral.int?, Numeral.ofInt, Decimal.value_digits, decide_eq_true_eq]
  split
  · rw [if_neg (by omega)]
    simp only [Option.some.injEq]
    omega
  · simp only [Option.some.injEq]
    omega

namespace Token

/-- The octets do not start with a digit. -/
def EndsDigits (s : Octets) : Prop := ∀ b ∈ s.head?, isDigit b = false

/-- The octets start with nothing that could continue a number. -/
def Delimited (s : Octets) : Prop :=
  ∀ b ∈ s.head?, isDigit b = false ∧ b ≠ 0x2E ∧ b ≠ 0x65 ∧ b ≠ 0x45

theorem Delimited.endsDigits {s : Octets} (h : Delimited s) : EndsDigits s :=
  fun b hb => (h b hb).1

theorem delimited_nil : Delimited [] := by
  intro b hb
  simp at hb

theorem delimited_cons {b : UInt8} {s : Octets}
    (h : isDigit b = false ∧ b ≠ 0x2E ∧ b ≠ 0x65 ∧ b ≠ 0x45) : Delimited (b :: s) := by
  intro b' hb'
  simp only [List.head?_cons, Option.mem_def, Option.some.injEq] at hb'
  exact hb' ▸ h

theorem endsDigits_cons {b : UInt8} {s : Octets} (h : isDigit b = false) : EndsDigits (b :: s) := by
  intro b' hb'
  simp only [List.head?_cons, Option.mem_def, Option.some.injEq] at hb'
  exact hb' ▸ h

@[simp] theorem digit?_digitOctet (d : Digit) : digit? (digitOctet d) = some d := by
  revert d
  decide

@[simp] theorem isDigit_digitOctet (d : Digit) : isDigit (digitOctet d) = true := by
  simp [isDigit]

/-- Digits end where something else starts. -/
theorem takeDigits_map (ds : List Digit) {s : Octets} (h : EndsDigits s) :
    takeDigits (ds.map digitOctet ++ s) = (ds, s) := by
  have hsplit : s.takeWhile isDigit = [] ∧ s.dropWhile isDigit = s := by
    cases s with
    | nil => exact ⟨rfl, rfl⟩
    | cons b s =>
      have hb : isDigit b = false := h b rfl
      simp [hb]
  have hread : digit? ∘ digitOctet = some := funext digit?_digitOctet
  have hkept : (ds.map digitOctet).filterMap digit? = ds := by
    rw [List.filterMap_map, hread, List.filterMap_some]
  have hall : ∀ b ∈ ds.map digitOctet, isDigit b = true := by simp
  rw [takeDigits, List.takeWhile_append_of_pos hall, List.dropWhile_append_of_pos hall, hsplit.1,
    hsplit.2, List.append_nil, hkept]

theorem takeWhole_map {ds : List Digit} (hne : ds ≠ []) (hzero : ∀ ds', ds = 0 :: ds' → ds' = [])
    {s : Octets} (h : EndsDigits s) : takeWhole (ds.map digitOctet ++ s) = some (ds, s) := by
  cases ds with
  | nil => exact absurd rfl hne
  | cons d ds =>
    by_cases hd : d = 0
    · -- nothing is taken after a zero in front
      subst hd
      rw [hzero ds rfl]
      rfl
    · have hoctet : ∀ d : Digit, d ≠ 0 → digitOctet d ≠ 0x30 := by decide
      have htaken := takeDigits_map (d :: ds) h
      rw [List.map_cons, List.cons_append] at htaken ⊢
      rw [takeWhole, if_neg (hoctet d hd), if_pos (isDigit_digitOctet d), htaken]

/-- The octets of the fraction of a literal. -/
def fractionText : Option (List Digit) → Octets
  | none => []
  | some ds => 0x2E :: ds.map digitOctet

/-- The octets of the exponent of a literal. -/
def exponentText : Option Exponent → Octets
  | none => []
  | some e => 0x65 :: (if e.negative then 0x2D else 0x2B) :: e.digits.map digitOctet

theorem numeralText_eq (x : Numeral) :
    numeralText x = (if x.negative then [0x2D] else []) ++
      (x.whole.map digitOctet ++ (fractionText x.fraction ++ exponentText x.exponent)) := by
  obtain ⟨negative, whole, fraction, exponent⟩ := x
  cases fraction <;> cases exponent <;> simp [numeralText, fractionText, exponentText]

theorem takeFraction_text {fraction : Option (List Digit)}
    (hne : ∀ ds, fraction = some ds → ds ≠ []) {s : Octets}
    (hs : ∀ b ∈ s.head?, isDigit b = false ∧ b ≠ 0x2E) :
    takeFraction (fractionText fraction ++ s) = some (fraction, s) := by
  cases fraction with
  | none =>
    cases s with
    | nil => rfl
    | cons b s => simp [fractionText, takeFraction, (hs b rfl).2]
  | some ds =>
    have htaken := takeDigits_map ds (s := s) (fun b hb => (hs b hb).1)
    simp [fractionText, takeFraction, htaken, hne ds rfl]

theorem takeExponent_text {exponent : Option Exponent}
    (hne : ∀ e, exponent = some e → e.digits ≠ []) {s : Octets} (hs : Delimited s) :
    takeExponent (exponentText exponent ++ s) = some (exponent, s) := by
  cases exponent with
  | none =>
    cases s with
    | nil => rfl
    | cons b s => simp [exponentText, takeExponent, (hs b rfl).2.2]
  | some e =>
    obtain ⟨negative, ds⟩ := e
    have htaken := takeDigits_map ds hs.endsDigits
    have hds : ds ≠ [] := hne _ rfl
    cases negative <;> simp [exponentText, takeExponent, takeSign, htaken, hds]

/-- After the fraction comes the exponent, which starts with a letter, or what follows. -/
theorem head?_exponentText_append (exponent : Option Exponent) {s : Octets} (hs : Delimited s) :
    ∀ b ∈ (exponentText exponent ++ s).head?, isDigit b = false ∧ b ≠ 0x2E := by
  cases exponent with
  | none => exact fun b hb => ⟨(hs b hb).1, (hs b hb).2.1⟩
  | some e =>
    intro b hb
    simp only [exponentText, List.cons_append, List.head?_cons, Option.mem_def,
      Option.some.injEq] at hb
    subst hb
    decide

theorem endsDigits_fractionText_append (fraction : Option (List Digit)) {s : Octets}
    (hs : EndsDigits s) : EndsDigits (fractionText fraction ++ s) := by
  cases fraction with
  | none => exact hs
  | some ds => exact endsDigits_cons (by decide)

/-- A literal of the grammar is read back up to where it ends. -/
theorem takeUnsigned_text {x : Numeral} (hx : x.WellFormed) {s : Octets} (hs : Delimited s) :
    takeUnsigned x.negative
        (x.whole.map digitOctet ++ (fractionText x.fraction ++ exponentText x.exponent) ++ s) =
      some (x, s) := by
  have hexponent := head?_exponentText_append x.exponent hs
  have hwhole := takeWhole_map hx.whole_ne_nil hx.whole_zero
    (endsDigits_fractionText_append x.fraction fun b hb => (hexponent b hb).1)
  simp only [List.append_assoc, takeUnsigned, hwhole, Option.bind_eq_bind, Option.bind_some,
    takeFraction_text hx.fraction_ne_nil hexponent, takeExponent_text hx.exponent_ne_nil hs]
  rfl

/-! ## Single tokens -/

/-- A token that is found again when it is written. -/
def WellFormed : Token → Prop
  | number x => x.WellFormed
  | string raw => Quoted.Closed raw
  | _ => True

theorem next?_digit (d : Digit) (rest : Octets) :
    next? (digitOctet d) rest =
      (takeUnsigned false (digitOctet d :: rest)).map fun (x, rest) => (number x, rest) := by
  have hp : ∀ d : Digit, punctuation? (digitOctet d) = none ∧ digitOctet d ≠ 0x22 ∧
      digitOctet d ≠ 0x2D := by decide
  obtain ⟨hpunctuation, hquote, hminus⟩ := hp d
  rw [next?, hpunctuation]
  simp only [if_neg hquote, if_neg hminus, isDigit_digitOctet, if_true]

theorem scanFrom_cons {b : UInt8} {rest after : Octets} {t : Token} (hb : isBlank b = false)
    (h : next? b rest = some (t, after)) (read : List Token) :
    scanFrom read (b :: rest) = scanFrom (t :: read) after := by
  rw [scanFrom, hb]
  simp only [Bool.false_eq_true, if_false]
  split
  · rename_i hnone
    rw [h] at hnone
    exact absurd hnone (by simp)
  · rename_i t' after' hsome
    rw [h] at hsome
    simp only [Option.some.injEq, Prod.mk.injEq] at hsome
    rw [hsome.1, hsome.2]

/-- A token that is written is read, whatever was read before it. -/
theorem scanFrom_text {t : Token} (ht : t.WellFormed) {s : Octets}
    (hs : ∀ x, t = number x → Delimited s) (read : List Token) :
    scanFrom read (t.text ++ s) = scanFrom (t :: read) s := by
  cases t with
  | number x =>
    have htaken := takeUnsigned_text ht (hs x rfl)
    cases hnegative : x.negative with
    | true =>
      have htext : (number x).text ++ s = 0x2D :: (x.whole.map digitOctet ++
          (fractionText x.fraction ++ exponentText x.exponent) ++ s) := by
        simp [text, numeralText_eq, hnegative]
      rw [hnegative] at htaken
      rw [htext]
      refine scanFrom_cons (by decide) ?_ read
      show (takeUnsigned true _).map _ = _
      rw [htaken]
      rfl
    | false =>
      -- without a sign the token starts with the first digit
      cases hwhole : x.whole with
      | nil => exact absurd hwhole ht.whole_ne_nil
      | cons d ds =>
        have hblank : ∀ d : Digit, isBlank (digitOctet d) = false := by decide
        have htext : (number x).text ++ s = digitOctet d :: (ds.map digitOctet ++
            (fractionText x.fraction ++ exponentText x.exponent) ++ s) := by
          simp [text, numeralText_eq, hnegative, hwhole]
        rw [hnegative, hwhole, List.map_cons, List.cons_append, List.cons_append] at htaken
        rw [htext]
        refine scanFrom_cons (hblank d) ?_ read
        rw [next?_digit, htaken]
        rfl
  | string raw =>
    refine scanFrom_cons (by decide) ?_ read
    show (Quoted.skip [] (raw ++ [0x22] ++ s)).map _ = _
    rw [List.append_assoc, List.singleton_append, ht]
    rfl
  | bool b => cases b <;> exact scanFrom_cons (by decide) rfl read
  | _ => exact scanFrom_cons (by decide) rfl read

end Token

end UserDirectory.Json
