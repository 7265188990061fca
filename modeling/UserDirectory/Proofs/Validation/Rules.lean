import UserDirectory.Proofs.Server.Names

/-!
# The rules, said without their checks

Each rule is stated here as a property of texts and numbers: what an e-mail address looks like
(`IsAddress`), what a phone number looks like (`IsPhoneNumber`), what a name is (`SpacedName`). A
check is then right if it decides the property of its rule, and the two validators are right if they
go through the rules in their order and stop at the first that is broken (`FirstBroken`).

The checks of an address cut it at the first `@` and the rest at the first point.
`splitAt?_eq_some_iff` says what a cut gives, and the properties follow from it.
-/

namespace UserDirectory.Validation

/-! ## Addresses -/

/-- The part of an address after the `@`: it contains a point and has none at its ends. -/
structure IsDomain (cs : List Char) : Prop where
  point : '.' ∈ cs
  first : cs.head? ≠ some '.'
  last : cs.getLast? ≠ some '.'

/-- An e-mail address: no blanks, and one `@`, which is not first and has a domain after it. -/
structure IsAddress (s : String) : Prop where
  noBlank : ∀ c ∈ s.toList, Text.isBlank c = false
  oneAt : s.toList.count '@' = 1
  notFirst : s.toList.head? ≠ some '@'
  domain : ∀ mailbox domain, s.toList = mailbox ++ '@' :: domain → IsDomain domain

/-- A text is cut at the first occurrence of the character. -/
theorem splitAt?_eq_some_iff {c : Char} {cs before after : List Char} :
    splitAt? c cs = some (before, after) ↔ cs = before ++ c :: after ∧ c ∉ before := by
  constructor
  · intro h
    unfold splitAt? at h
    split at h
    · cases h
    · rename_i d rest hrest
      cases h
      have hd : d = c := by simpa using Text.head_dropWhile (· != c) cs d (by rw [hrest]; rfl)
      refine ⟨?_, fun hmem => ?_⟩
      · rw [← hd, ← hrest, hd, List.takeWhile_append_dropWhile]
      · simpa using List.all_eq_true.mp List.all_takeWhile c hmem
  · rintro ⟨rfl, hbefore⟩
    have hne : ∀ d ∈ before, (d != c) = true :=
      fun d hd => bne_iff_ne.mpr fun heq => hbefore (heq ▸ hd)
    simp [splitAt?, List.dropWhile_append_of_pos hne, List.takeWhile_append_of_pos hne]

theorem splitAt?_eq_none_iff {c : Char} {cs : List Char} : splitAt? c cs = none ↔ c ∉ cs := by
  rw [Option.eq_none_iff_forall_ne_some]
  refine ⟨fun h hmem => ?_, fun h parts hparts => ?_⟩
  · obtain ⟨before, after, hcs, hbefore⟩ := List.eq_append_cons_of_mem hmem
    exact h (before, after) (splitAt?_eq_some_iff.mpr ⟨hcs, hbefore⟩)
  · have hcs := (splitAt?_eq_some_iff.mp hparts).1
    exact h (hcs ▸ List.mem_append_right _ List.mem_cons_self)

/-- A text with a cut does not start with the character if something is before the cut. -/
theorem head?_ne_iff {c : Char} {before after : List Char} (h : c ∉ before) :
    (before ++ c :: after).head? ≠ some c ↔ before ≠ [] := by
  cases before with
  | nil => simp
  | cons d ds =>
    simp only [List.mem_cons, not_or] at h
    simp [Ne.symm h.1]

theorem isDomain_iff {cs : List Char} : isDomain cs = true ↔ IsDomain cs := by
  cases hsplit : splitAt? '.' cs with
  | none =>
    have hpoint := splitAt?_eq_none_iff.mp hsplit
    rw [isDomain, hsplit]
    exact iff_of_false Bool.false_ne_true fun h => hpoint h.point
  | some parts =>
    obtain ⟨host, rest⟩ := parts
    obtain ⟨rfl, hhost⟩ := splitAt?_eq_some_iff.mp hsplit
    -- a domain that ends in its only point has nothing after it
    have hlast : (host ++ '.' :: rest).getLast? ≠ some '.' → rest ≠ [] := by
      rintro h rfl
      simp at h
    rw [isDomain, hsplit]
    simp only [Bool.and_eq_true, Bool.not_eq_true', List.isEmpty_eq_false_iff, bne_iff_ne]
    constructor
    · rintro ⟨⟨hne, -⟩, hend⟩
      exact ⟨List.mem_append_right _ List.mem_cons_self, (head?_ne_iff hhost).mpr hne, hend⟩
    · intro h
      exact ⟨⟨(head?_ne_iff hhost).mp h.first, hlast h.last⟩, h.last⟩

/-- **The check of an address decides its rule.** -/
theorem isEmail_iff {s : String} : isEmail s = true ↔ IsAddress s := by
  cases hsplit : splitAt? '@' s.toList with
  | none =>
    have hnone := splitAt?_eq_none_iff.mp hsplit
    rw [isEmail, hsplit]
    refine iff_of_false Bool.false_ne_true fun h => ?_
    have hcount := h.oneAt
    rw [List.count_eq_zero_of_not_mem hnone] at hcount
    omega
  | some parts =>
    obtain ⟨mailbox, domain⟩ := parts
    obtain ⟨htext, hmailbox⟩ := splitAt?_eq_some_iff.mp hsplit
    have hfirst : s.toList.head? ≠ some '@' ↔ mailbox ≠ [] := htext ▸ head?_ne_iff hmailbox
    have hone : s.toList.count '@' = 1 ↔ '@' ∉ domain := by
      rw [htext, List.count_append, List.count_eq_zero_of_not_mem hmailbox, List.count_cons_self,
        ← List.count_eq_zero]
      omega
    have hblank : s.toList.any Text.isBlank = false ↔ ∀ c ∈ s.toList, Text.isBlank c = false := by
      simp
    rw [isEmail, hsplit]
    simp only [Bool.and_eq_true, Bool.not_eq_true', List.isEmpty_eq_false_iff, hblank,
      isDomain_iff, List.contains_eq_mem, decide_eq_false_iff_not]
    constructor
    · rintro ⟨⟨⟨hne, hat⟩, hblanks⟩, hdomain⟩
      refine ⟨hblanks, hone.mpr hat, hfirst.mpr hne, fun mailbox' domain' htext' => ?_⟩
      -- there is one place only where the address can be cut
      have hmailbox' : '@' ∉ mailbox' := by
        have hcount := hone.mpr hat
        rw [htext', List.count_append, List.count_cons_self] at hcount
        exact List.count_eq_zero.mp (by omega)
      have hparts := splitAt?_eq_some_iff.mpr ⟨htext', hmailbox'⟩
      rw [hsplit] at hparts
      cases hparts
      exact hdomain
    · intro h
      exact ⟨⟨⟨hfirst.mp h.notFirst, hone.mp h.oneAt⟩, h.noBlank⟩, h.domain _ _ htext⟩

/-! ## Phone numbers -/

/-- One of the ten digits of ASCII. -/
def IsDigit (c : Char) : Prop := '0' ≤ c ∧ c ≤ '9'

/-- A digit after an optional plus sign, and six to nineteen digits, blanks, hyphens and parentheses
after it. -/
def IsPhoneNumber (s : String) : Prop :=
  ∃ plus digit rest, s.toList = plus ++ digit :: rest ∧ (plus = [] ∨ plus = ['+']) ∧
    IsDigit digit ∧ 6 ≤ rest.length ∧ rest.length ≤ 19 ∧
    ∀ c ∈ rest, IsDigit c ∨ Text.isBlank c = true ∨ c = '-' ∨ c = '(' ∨ c = ')'

theorem isSome_digit?_iff {c : Char} : (Decimal.digit? c).isSome = true ↔ IsDigit c := by
  have hbounds : IsDigit c ↔ 48 ≤ c.toNat ∧ c.toNat < 58 := by
    refine and_congr Iff.rfl ?_
    show c.toNat ≤ 57 ↔ c.toNat < 58
    omega
  rw [hbounds, Decimal.digit?]
  split <;> simp_all

theorem isPhoneChar_iff {c : Char} : isPhoneChar c = true ↔
    IsDigit c ∨ Text.isBlank c = true ∨ c = '-' ∨ c = '(' ∨ c = ')' := by
  simp only [isPhoneChar, Bool.or_eq_true, decide_eq_true_eq, isSome_digit?_iff, or_assoc]

theorem isDialled_iff {cs : List Char} : isDialled cs = true ↔
    ∃ digit rest, cs = digit :: rest ∧ IsDigit digit ∧ 6 ≤ rest.length ∧ rest.length ≤ 19 ∧
      ∀ c ∈ rest, IsDigit c ∨ Text.isBlank c = true ∨ c = '-' ∨ c = '(' ∨ c = ')' := by
  cases cs with
  | nil => exact iff_of_false (by decide) fun ⟨_, _, h, _⟩ => nomatch h
  | cons d rest =>
    simp only [isDialled, Bool.and_eq_true, isSome_digit?_iff, List.all_eq_true, isPhoneChar_iff,
      decide_eq_true_eq, List.cons.injEq]
    constructor
    · rintro ⟨⟨⟨hd, hrest⟩, hleast⟩, hmost⟩
      exact ⟨d, rest, ⟨rfl, rfl⟩, hd, hleast, hmost, hrest⟩
    · rintro ⟨_, _, ⟨rfl, rfl⟩, hd, hleast, hmost, hrest⟩
      exact ⟨⟨⟨hd, hrest⟩, hleast⟩, hmost⟩

/-- **The check of a phone number decides its rule.** -/
theorem isPhone_iff {s : String} : isPhone s = true ↔ s = "" ∨ IsPhoneNumber s := by
  have hempty : s = "" ↔ s.toList = [] := by simp
  rw [hempty, isPhone, IsPhoneNumber]
  split
  · next h => simp [h]
  · next rest h =>
    -- a plus sign is no digit, so it stands before one
    rw [h, isDialled_iff]
    simp only [reduceCtorEq, false_or]
    constructor
    · rintro ⟨digit, rest, rfl, hrest⟩
      exact ⟨['+'], digit, rest, rfl, .inr rfl, hrest⟩
    · rintro ⟨plus, digit, rest', htext, hplus | hplus, hdigit, hrest⟩
      · subst hplus
        cases htext
        exact absurd hdigit.1 (by decide)
      · subst hplus
        cases htext
        exact ⟨digit, rest', rfl, hdigit, hrest⟩
  · next hne hplus =>
    rw [isDialled_iff, or_iff_right hne]
    constructor
    · rintro ⟨digit, rest, htext, hrest⟩
      exact ⟨[], digit, rest, htext, .inl rfl, hrest⟩
    · rintro ⟨plus, digit, rest, htext, rfl | rfl, hrest⟩
      · exact ⟨digit, rest, htext, hrest⟩
      · exact absurd htext (hplus _)

theorem isName_iff_spaced {s : String} : isName s = true ↔ SpacedName s :=
  isName_iff.trans spacedName_iff.symm

/-! ## What it means to keep a rule -/

/-- The input of a creation keeps a rule. -/
def Keeps (u : NewUser) : Rule → Prop
  | .firstName => SpacedName u.firstName
  | .lastName => SpacedName u.lastName
  | .email => IsAddress u.email
  | .phone => ∀ phone ∈ u.phone, phone = "" ∨ IsPhoneNumber phone
  | .age => ∀ age ∈ u.age, 0 < age
  | .someField | .id => True

/-- Some field of an update is set. -/
def SetsField (c : UserChanges) : Prop :=
  c.firstName.isSome ∨ c.lastName.isSome ∨ c.email.isSome ∨ c.phone.isSome ∨ c.age.isSome ∨
    c.status.isSome

/-- The changes of an update keep a rule: what they do not set breaks none. -/
def ChangesKeep (c : UserChanges) : Rule → Prop
  | .firstName => ∀ name ∈ c.firstName, SpacedName name
  | .lastName => ∀ name ∈ c.lastName, SpacedName name
  | .email => ∀ email ∈ c.email, IsAddress email
  | .phone => ∀ phone ∈ c.phone, phone = "" ∨ IsPhoneNumber phone
  | .age => ∀ age ∈ c.age, 0 < age
  | .someField => SetsField c
  | .id => True

/-- The rules for fields, in the order in which they are checked. -/
def fieldRules : List Rule := [.firstName, .lastName, .email, .phone, .age]

/-- The first of the rules that is not kept. -/
def FirstBroken (keeps : Rule → Prop) (rules : List Rule) (broken : Rule) : Prop :=
  ∃ before after, rules = before ++ broken :: after ∧ (∀ rule ∈ before, keeps rule) ∧ ¬keeps broken

theorem firstBroken_cons {keeps : Rule → Prop} {rule broken : Rule} {rules : List Rule} :
    FirstBroken keeps (rule :: rules) broken ↔
      (¬keeps rule ∧ rule = broken) ∨ (keeps rule ∧ FirstBroken keeps rules broken) := by
  constructor
  · rintro ⟨before, after, hrules, hbefore, hbroken⟩
    cases before with
    | nil =>
      cases hrules
      exact .inl ⟨hbroken, rfl⟩
    | cons _ before =>
      cases hrules
      obtain ⟨hrule, hbefore⟩ := List.forall_mem_cons.mp hbefore
      exact .inr ⟨hrule, before, after, rfl, hbefore, hbroken⟩
  · rintro (⟨hbroken, rfl⟩ | ⟨hrule, before, after, rfl, hbefore, hbroken⟩)
    · exact ⟨[], rules, rfl, fun _ h => (nomatch h), hbroken⟩
    · exact ⟨rule :: before, after, rfl, List.forall_mem_cons.mpr ⟨hrule, hbefore⟩, hbroken⟩

/-- A check that goes through the rules in their order: it succeeds if all are kept, and otherwise
answers with the first that is broken. -/
structure Decides (checked : Except Rule Unit) (keeps : Rule → Prop) (rules : List Rule) :
    Prop where
  ok : checked = .ok () ↔ ∀ rule ∈ rules, keeps rule
  error : ∀ rule, checked = .error rule ↔ FirstBroken keeps rules rule

theorem decides_nil (keeps : Rule → Prop) : Decides (.ok ()) keeps [] := by
  refine ⟨iff_of_true rfl fun _ h => (nomatch h), fun rule => iff_of_false (fun h => nomatch h) ?_⟩
  rintro ⟨before, after, hrules, -⟩
  exact absurd hrules (by simp)

/-- One more rule in front. -/
theorem Decides.cons {checked : Except Rule Unit} {keeps : Rule → Prop} {rules : List Rule}
    (h : Decides checked keeps rules) {rule : Rule} {kept : Bool}
    (hkept : kept = true ↔ keeps rule) :
    Decides (check rule kept >>= fun _ => checked) keeps (rule :: rules) := by
  cases kept with
  | true =>
    have hkeeps := hkept.mp rfl
    refine ⟨?_, fun broken => ?_⟩
    · rw [List.forall_mem_cons, ← h.ok]
      exact (and_iff_right hkeeps).symm
    · rw [firstBroken_cons, ← h.error]
      simp only [hkeeps, not_true, false_and, false_or, true_and]
      exact Iff.rfl
  | false =>
    have hbroken : ¬keeps rule := fun hkeeps => Bool.false_ne_true (hkept.mpr hkeeps)
    have herror : (check rule false >>= fun _ => checked) = .error rule := rfl
    rw [herror]
    refine ⟨iff_of_false (fun h => nomatch h) fun hall => ?_, fun broken => ?_⟩
    · exact hbroken (hall rule List.mem_cons_self)
    · rw [firstBroken_cons]
      simp only [hbroken, not_false_eq_true, true_and, false_and, or_false, Except.error.injEq]

/-- A rule in front that is kept makes no difference. -/
theorem Decides.drop {checked : Except Rule Unit} {keeps : Rule → Prop} {rule : Rule}
    {rules : List Rule} (h : Decides checked keeps (rule :: rules)) (hkeeps : keeps rule) :
    Decides checked keeps rules := by
  refine ⟨?_, fun broken => ?_⟩
  · rw [h.ok, List.forall_mem_cons, and_iff_right hkeeps]
  · rw [h.error, firstBroken_cons, and_iff_right hkeeps,
      or_iff_right fun hbroken => hbroken.1 hkeeps]

/-- A rule that is checked last. -/
theorem decides_single {keeps : Rule → Prop} {rule : Rule} {kept : Bool}
    (hkept : kept = true ↔ keeps rule) : Decides (check rule kept) keeps [rule] := by
  have hlast : check rule kept = (check rule kept >>= fun _ => .ok ()) := by cases kept <;> rfl
  rw [hlast]
  exact (decides_nil keeps).cons hkept

/-- What is set obeys a rule if its check says so. -/
theorem all_iff {α : Type} {p : α → Bool} {P : α → Prop} (h : ∀ a, p a = true ↔ P a)
    (a? : Option α) : a?.all p = true ↔ ∀ a ∈ a?, P a := by
  simp only [Option.all_eq_true, h, Option.mem_def]

theorem isAge_iff (age : Age) : isAge age = true ↔ 0 < age := decide_eq_true_iff

theorem isEmpty_iff {c : UserChanges} : (!c.isEmpty) = true ↔ SetsField c := by
  simp only [UserChanges.isEmpty, SetsField, Bool.not_eq_true', Bool.and_eq_false_iff,
    Option.isNone_eq_false_iff, or_assoc]

/-- **The check of a creation goes through the rules for fields.** -/
theorem decides_checkNew (u : NewUser) : Decides (checkNew u) (Keeps u) fieldRules :=
  (((((decides_single (all_iff isAge_iff u.age)).cons
    (all_iff (fun _ => isPhone_iff) u.phone)).cons isEmail_iff).cons isName_iff_spaced).cons
    isName_iff_spaced)

/-- **The check of an update first asks for a field, and then goes through the rules for
fields.** -/
theorem decides_checkChanges (c : UserChanges) :
    Decides (checkChanges c) (ChangesKeep c) (.someField :: fieldRules) := by
  have hname : ∀ name, isName name = true ↔ SpacedName name := fun _ => isName_iff_spaced
  exact ((((((decides_single (all_iff isAge_iff c.age)).cons
    (all_iff (fun _ => isPhone_iff) c.phone)).cons (all_iff (fun _ => isEmail_iff) c.email)).cons
    (all_iff hname c.lastName)).cons (all_iff hname c.firstName)).cons isEmpty_iff)

/-! ## Input with some fields replaced -/

/-- An input with the fields that the changes set in place of its own. -/
def replaced (u : NewUser) (c : UserChanges) : NewUser where
  firstName := c.firstName.getD u.firstName
  lastName := c.lastName.getD u.lastName
  email := c.email.getD u.email
  phone := c.phone.or u.phone
  age := c.age.or u.age
  status := c.status.or u.status

/-- Every field of an update is set. -/
structure SetsAll (c : UserChanges) : Prop where
  firstName : c.firstName.isSome
  lastName : c.lastName.isSome
  email : c.email.isSome
  phone : c.phone.isSome
  age : c.age.isSome
  status : c.status.isSome

/-- What holds of a field that is set, and of the one that it replaces, holds of the one that is
kept. -/
theorem forall_mem_or {α : Type} {p : α → Prop} {new old : Option α} (hnew : ∀ a ∈ new, p a)
    (hold : ∀ a ∈ old, p a) : ∀ a ∈ new.or old, p a := by
  cases new with
  | none => exact hold
  | some a => exact hnew

/-- Rules that the input and the changes keep are kept when the fields are replaced. -/
theorem keeps_replaced {u : NewUser} {c : UserChanges} {rule : Rule} (hu : Keeps u rule)
    (hc : ChangesKeep c rule) : Keeps (replaced u c) rule := by
  cases rule with
  | firstName | lastName => exact Store.kept_getD (p := SpacedName) hu hc
  | email => exact Store.kept_getD (p := IsAddress) hu hc
  | phone | age => exact forall_mem_or hc hu
  | someField | id => trivial

/-- If every field is set, a rule is kept by the changes if and only if it is by the input that they
make. -/
theorem changesKeep_iff {u : NewUser} {c : UserChanges} (hall : SetsAll c) {rule : Rule}
    (hrule : rule ∈ fieldRules) : ChangesKeep c rule ↔ Keeps (replaced u c) rule := by
  obtain ⟨firstName, lastName, email, phone, age, status⟩ := c
  obtain ⟨firstName, rfl⟩ := Option.isSome_iff_exists.mp hall.firstName
  obtain ⟨lastName, rfl⟩ := Option.isSome_iff_exists.mp hall.lastName
  obtain ⟨email, rfl⟩ := Option.isSome_iff_exists.mp hall.email
  obtain ⟨phone, rfl⟩ := Option.isSome_iff_exists.mp hall.phone
  obtain ⟨age, rfl⟩ := Option.isSome_iff_exists.mp hall.age
  cases rule with
  | firstName | lastName | email => simp [ChangesKeep, Keeps, replaced]
  | phone | age => exact Iff.rfl
  | someField | id => exact absurd hrule (by decide)

/-- The first broken rule depends only on which of the rules are kept. -/
theorem FirstBroken.congr {keeps keeps' : Rule → Prop} {rules : List Rule}
    (h : ∀ rule ∈ rules, keeps rule ↔ keeps' rule) {broken : Rule} :
    FirstBroken keeps rules broken ↔ FirstBroken keeps' rules broken := by
  induction rules with
  | nil => exact iff_of_false (fun ⟨_, _, h, _⟩ => by simp at h) (fun ⟨_, _, h, _⟩ => by simp at h)
  | cons rule rules ih =>
    obtain ⟨hrule, hrules⟩ := List.forall_mem_cons.mp h
    rw [firstBroken_cons, firstBroken_cons, hrule, ih hrules]

/-- Two checks that decide the same properties in the same order are one. -/
theorem Decides.unique {checked checked' : Except Rule Unit} {keeps keeps' : Rule → Prop}
    {rules : List Rule} (h : Decides checked keeps rules) (h' : Decides checked' keeps' rules)
    (hsame : ∀ rule ∈ rules, keeps rule ↔ keeps' rule) : checked = checked' := by
  cases hchecked : checked with
  | ok =>
    have hall := h.ok.mp hchecked
    exact (h'.ok.mpr fun rule hrule => (hsame rule hrule).mp (hall rule hrule)).symm
  | error rule =>
    exact ((h'.error rule).mpr ((FirstBroken.congr hsame).mp ((h.error rule).mp hchecked))).symm

/-- **The validators decide exactly the rules.** A creation passes if its input keeps each rule for
fields, an update if it sets a field and what it sets keeps each of them, and otherwise the first
broken rule is reported. So a valid input stays valid when changes that pass replace fields of it,
and changes of all fields are judged as the input that they make. -/
theorem validators_decide_rules (u : NewUser) (c : UserChanges) :
    Decides (checkNew u) (Keeps u) fieldRules ∧
      Decides (checkChanges c) (ChangesKeep c) (.someField :: fieldRules) ∧
      (checkNew u = .ok () → checkChanges c = .ok () → checkNew (replaced u c) = .ok ()) ∧
      (SetsAll c → checkChanges c = checkNew (replaced u c)) := by
  have hnew := decides_checkNew u
  have hchanges := decides_checkChanges c
  have hreplaced := decides_checkNew (replaced u c)
  refine ⟨hnew, hchanges, fun hu hc => ?_, fun hall => ?_⟩
  · rw [hreplaced.ok]
    intro rule hrule
    exact keeps_replaced (hnew.ok.mp hu rule hrule)
      (hchanges.ok.mp hc rule (List.mem_cons_of_mem _ hrule))
  · have hfield : ChangesKeep c .someField := .inl hall.firstName
    exact (hchanges.drop hfield).unique hreplaced fun rule hrule => changesKeep_iff hall hrule

/-- Someone whose names, address and phone number are at the edge of their rules. -/
def edgeCase : NewUser where
  firstName := "\u3000Jo "
  lastName := String.ofList (List.replicate 50 'y')
  email := "a@b..c"
  phone := some "+1 (\u3000-23"
  age := some 1

/-- The last name, the phone number and the age of the person, all of them now just beyond. -/
def beyondEdge : UserChanges where
  firstName := some "Jo"
  lastName := some (String.ofList (List.replicate 51 'y'))
  email := some "a@b.c"
  phone := some "+1 (-23"
  age := some 0
  status := some .active

/-- A phone number is taken away from the person at the edge; and of the three rules that are
broken beyond it, the first is reported in an update as in a creation. -/
theorem validators_decide_rules_edge :
    checkNew edgeCase = .ok () ∧ checkChanges { phone := some "" } = .ok () ∧
      checkNew (replaced edgeCase { phone := some "" }) = .ok () ∧
      SetsAll beyondEdge ∧ checkChanges beyondEdge = checkNew (replaced edgeCase beyondEdge) ∧
      checkChanges beyondEdge = .error .lastName := by
  have hnew : checkNew edgeCase = .ok () := by decide +kernel
  have hchanges : checkChanges { phone := some "" } = .ok () := by decide +kernel
  have hall : SetsAll beyondEdge := ⟨rfl, rfl, rfl, rfl, rfl, rfl⟩
  exact ⟨hnew, hchanges, (validators_decide_rules edgeCase _).2.2.1 hnew hchanges, hall,
    (validators_decide_rules edgeCase beyondEdge).2.2.2 hall, by decide +kernel⟩

end UserDirectory.Validation
