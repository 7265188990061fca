import UserDirectory.Proofs.Json.Kept

/-!
# The members of a document at every depth

`HasMember` finds the members of the objects in a document, however deep they lie, and `Every` says
of all of them what holds. In an object or an array it holds if it holds of each part. What is kept
of a document has no members but those of the document, so there it goes on to hold
(`every_toTree`).
-/

namespace UserDirectory.Json

namespace Tree

/-- A member of an object in the document, at any depth, has this name and this value. A name is a
text, in whatever way it is escaped. -/
inductive HasMember (name : String) (u : Tree) : Tree → Prop
  | here {ms : List (Octets × Tree)} {key : Octets} (hmem : (key, u) ∈ ms)
      (hkey : Quoted.text? key = some name) : HasMember name u (.object ms)
  | member {ms : List (Octets × Tree)} {key : Octets} {t : Tree} (hmem : (key, t) ∈ ms)
      (h : HasMember name u t) : HasMember name u (.object ms)
  | item {ts : List Tree} {t : Tree} (hmem : t ∈ ts) (h : HasMember name u t) :
      HasMember name u (.array ts)

/-- What holds of the name and the value of every member. -/
def Every (P : String → Tree → Prop) (t : Tree) : Prop := ∀ name u, HasMember name u t → P name u

variable {P : String → Tree → Prop}

theorem every_object {ms : List (Octets × Tree)}
    (h : ∀ m ∈ ms, m.2.Every P ∧ ∀ name, Quoted.text? m.1 = some name → P name m.2) :
    (object ms).Every P := by
  intro name u hu
  cases hu with
  | here hmem hkey => exact (h _ hmem).2 name hkey
  | member hmem hu => exact (h _ hmem).1 name u hu

theorem every_array {ts : List Tree} (h : ∀ t ∈ ts, t.Every P) : (array ts).Every P := by
  intro name u hu
  cases hu with
  | item hmem hu => exact h _ hmem name u hu

end Tree

/-- **What holds of every member of a document holds of every member that was kept of it**, if
keeping a value does not end it. -/
theorem Value.every_toTree {P : String → Tree → Prop}
    (hP : ∀ {name room t v}, P name t → ofTree? room t = some v → P name v.toTree)
    {room : Nat} {t : Tree} {v : Value} (h : ofTree? room t = some v) (ht : t.Every P) :
    v.toTree.Every P := by
  induction room using Nat.strongRecOn generalizing t v with
  | ind room ih =>
    cases keptAs_of_ofTree? h with
    | null | bool _ | number _ | string _ =>
      rw [toTree]
      intro name u hu
      cases hu
    | @array inner items vs hroom hvs =>
      rw [toTree, itemTrees_eq]
      refine Tree.every_array fun u hu => ?_
      obtain ⟨w, hw, rfl⟩ := List.mem_map.mp hu
      obtain ⟨t, hmem, hread⟩ := exists_of_forall₂ hvs hw
      exact ih inner (by omega) hread fun name u hu => ht name u (.item hmem hu)
    | @object inner ms read hroom hread =>
      rw [toTree, memberTrees_eq]
      refine Tree.every_object fun u hu => ?_
      obtain ⟨e, he, rfl⟩ := List.mem_map.mp hu
      have hmem : e ∈ read := (mem_of_mem_foldl he).resolve_right List.not_mem_nil
      obtain ⟨m, hm, hkey, hvalue⟩ := exists_of_forall₂ hread hmem
      refine ⟨ih inner (by omega) hvalue fun name u hu => ht name u (.member hm hu), ?_⟩
      intro name hname
      rw [Quoted.text?_escape] at hname
      exact hP (ht name m.2 (.here hm (hkey.trans hname))) hvalue

end UserDirectory.Json
