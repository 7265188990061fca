import Mathlib.Algebra.GroupWithZero.Nat

/-!
# A list in which one element changes

What becomes of a sum, of an image and of a bound when one element of a list is modified.
-/

namespace UserDirectory

/-- Setting an element to what a function makes of it is to modify it. -/
theorem set_eq_modify {α : Type} {l : List α} {i : Nat} {x : α} (h : l[i]? = some x) (f : α → α) :
    l.set i (f x) = l.modify i f := by
  refine List.ext_getElem? fun j => ?_
  by_cases hij : i = j
  · subst hij
    obtain ⟨hlt, rfl⟩ := List.getElem?_eq_some_iff.mp h
    simp [hlt]
  · simp [hij]

/-- When one element changes, the sum changes by what that element does. -/
theorem sum_map_modify {α : Type} (w : α → Nat) (f : α → α) {l : List α} {i : Nat} {x : α}
    (h : l[i]? = some x) : ((l.modify i f).map w).sum + w x = (l.map w).sum + w (f x) := by
  induction l generalizing i with
  | nil => simp at h
  | cons y ys ih =>
    cases i with
    | zero =>
      obtain rfl : y = x := by simpa using h
      simp only [List.modify_zero_cons, List.map_cons, List.sum_cons]
      omega
    | succ i =>
      have hrest := ih (i := i) (by simpa using h)
      simp only [List.modify_succ_cons, List.map_cons, List.sum_cons]
      omega

theorem sum_map_modify_add_le {α : Type} {w : α → Nat} {f : α → α} {l : List α} {i k m : Nat}
    {x : α} (h : l[i]? = some x) (hle : w (f x) + k ≤ w x + m) :
    ((l.modify i f).map w).sum + k ≤ (l.map w).sum + m := by
  have hsum := sum_map_modify w f h
  omega

theorem sum_map_modify_le {α : Type} {w : α → Nat} {f : α → α} (hf : ∀ x, w (f x) ≤ w x)
    (l : List α) (i : Nat) : ((l.modify i f).map w).sum ≤ (l.map w).sum := by
  cases h : l[i]? with
  | none =>
    have hsame : l.modify i f = l := List.modify_eq_self (List.getElem?_eq_none_iff.mp h)
    exact Nat.le_of_eq (by rw [hsame])
  | some x => exact sum_map_modify_add_le h (k := 0) (m := 0) (hf x)

theorem map_modify_of_eq {α β : Type} {w : α → β} {f : α → α} (hf : ∀ x, w (f x) = w x)
    (l : List α) (i : Nat) : (l.modify i f).map w = l.map w := by
  refine List.ext_getElem? fun j => ?_
  by_cases hij : i = j <;> simp [hij, Function.comp_def, hf]

end UserDirectory
