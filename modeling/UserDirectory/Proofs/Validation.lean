import UserDirectory.Store
import UserDirectory.Validation

/-!
# What has passed the checks is stored in good order

A check that succeeds has checked every rule: `checkNew_eq_ok` and `checkChanges_eq_ok` list them.
A user made from checked input, or changed by checked changes, is `Valid`. The two differ from what
was checked in one place only: an empty phone passes its rule and is stored as none.
-/

namespace UserDirectory

namespace Validation

theorem check_eq_ok {rule : Rule} {kept : Bool} : check rule kept = .ok () ↔ kept = true := by
  cases kept <;> simp [check]

theorem check_bind_eq_ok {c : Except Rule Unit} {f : Unit → Except Rule Unit} :
    (c >>= f) = .ok () ↔ c = .ok () ∧ f () = .ok () := by
  cases c with
  | ok u => exact ⟨fun h => ⟨rfl, h⟩, fun h => h.2⟩
  | error rule => exact ⟨fun h => (nomatch h), fun h => (nomatch h.1)⟩

/-- The input of a creation passes if it keeps all rules. -/
theorem checkNew_eq_ok {u : NewUser} :
    checkNew u = .ok () ↔ isName u.firstName ∧ isName u.lastName ∧ isEmail u.email ∧
      u.phone.all isPhone ∧ u.age.all isAge := by
  simp only [checkNew, check_bind_eq_ok, check_eq_ok]

/-- The changes of an update pass if they set a field and all that they set keeps its rule. -/
theorem checkChanges_eq_ok {c : UserChanges} :
    checkChanges c = .ok () ↔ c.isEmpty = false ∧ c.firstName.all isName ∧
      c.lastName.all isName ∧ c.email.all isEmail ∧ c.phone.all isPhone ∧ c.age.all isAge := by
  simp only [checkChanges, check_bind_eq_ok, check_eq_ok, Bool.not_eq_true']

/-- A name of two to fifty characters, blanks at its ends not counted. -/
def IsName (s : String) : Prop :=
  2 ≤ (Text.trim s.toList).length ∧ (Text.trim s.toList).length ≤ 50

theorem isName_iff {s : String} : isName s = true ↔ IsName s := by
  rw [isName, Bool.and_eq_true, decide_eq_true_iff, decide_eq_true_iff]
  exact Iff.rfl

end Validation

open Validation

/-- A user who keeps the rules. -/
structure User.Valid (u : User) : Prop where
  firstName : IsName u.firstName
  lastName : IsName u.lastName
  email : isEmail u.email = true
  phone : ∀ phone ∈ u.phone, phone ≠ "" ∧ isPhone phone = true
  age : ∀ age ∈ u.age, 0 < age

namespace Store

theorem storedPhone_eq_some_iff {phone : Option String} {p : String} :
    storedPhone phone = some p ↔ phone = some p ∧ p ≠ "" := by
  simp [storedPhone, Option.filter_eq_some_iff]

theorem valid_phone {phone : Option String} (h : phone.all isPhone) :
    ∀ p ∈ storedPhone phone, p ≠ "" ∧ isPhone p = true := by
  intro p hp
  obtain ⟨hmem, hne⟩ := storedPhone_eq_some_iff.mp hp
  exact ⟨hne, (Option.all_eq_true ..).mp h p hmem⟩

/-- **A user made from checked input is valid.** -/
theorem valid_newUser {input : NewUser} (h : checkNew input = .ok ()) (id : UserId)
    (now : Time.Instant) : (newUser input id now).Valid := by
  obtain ⟨hfirst, hlast, hemail, hphone, hage⟩ := checkNew_eq_ok.mp h
  refine ⟨isName_iff.mp hfirst, isName_iff.mp hlast, hemail, valid_phone hphone, fun age hmem => ?_⟩
  simpa [isAge] using (Option.all_eq_true ..).mp hage age hmem

/-- What holds of the old value and of the new one, if there is one, holds of what is kept. -/
theorem kept_getD {α : Type} {p : α → Prop} {new : Option α} {old : α} (hold : p old)
    (hnew : ∀ a ∈ new, p a) : p (new.getD old) := by
  cases new with
  | none => exact hold
  | some a => exact hnew a rfl

/-- **Checked changes leave a valid user valid.** -/
theorem valid_changed {u : User} {changes : UserChanges} (hu : u.Valid)
    (h : checkChanges changes = .ok ()) (now : Time.Instant) : (changed u changes now).Valid := by
  obtain ⟨-, hfirst, hlast, hemail, hphone, hage⟩ := checkChanges_eq_ok.mp h
  -- each field is the one that was set, which was checked, or the old one
  constructor
  · exact kept_getD hu.firstName fun s hs => isName_iff.mp ((Option.all_eq_true ..).mp hfirst s hs)
  · exact kept_getD hu.lastName fun s hs => isName_iff.mp ((Option.all_eq_true ..).mp hlast s hs)
  · exact kept_getD (p := (isEmail · = true)) hu.email ((Option.all_eq_true ..).mp hemail)
  · -- a phone that is given replaces the old one even when it is empty
    cases hgiven : changes.phone with
    | none =>
      rw [changed, hgiven]
      exact hu.phone
    | some p =>
      rw [changed, hgiven]
      exact valid_phone (hgiven ▸ hphone)
  · intro age hmem
    cases hgiven : changes.age with
    | none =>
      rw [changed, hgiven] at hmem
      exact hu.age age hmem
    | some a =>
      rw [changed, hgiven] at hmem
      obtain rfl := Option.some.inj hmem
      simpa [isAge] using (Option.all_eq_true ..).mp hage a hgiven

end Store

end UserDirectory
