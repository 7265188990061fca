import UserDirectory.Proofs.Server.Run

/-!
# Who has an e-mail address

An input gives an address to a user by creating the user with it or by changing the user's address
to it. Whoever has an address keeps it until an input takes it away, and as long as somebody has it
nobody else is given it. The one exception that remains is by design: an update looks at the
addresses of all other users, so a user may be given again what it has.
-/

namespace UserDirectory.Server

open Store (Outcome Made changed newUser mem_of_find?)
open Text (foldCase)

/-- Whether an operation says which e-mail address a user has. -/
def setsEmail : Call → Bool
  | .create _ => true
  | .update _ changes => changes.email.isSome
  | .list | .get _ | .delete _ => false

namespace Input

/-- An input that succeeds in giving a user its e-mail address. -/
def Gives (i : Input) (s : Store) (u : User) : Prop :=
  ∃ call, accept i.command i.payload = .ok call ∧ setsEmail call = true ∧
    ((i.result s).1 = .ok (.created u) ∨ (i.result s).1 = .ok (.updated u))

/-- An input that takes an e-mail address away from a user: it removes the user, or gives it an
address that is not the same up to case. -/
def TakesAway (i : Input) (s : Store) (id : UserId) (email : String) : Prop :=
  (i.result s).1 = .ok (.deleted id) ∨
    ∃ u, (i.result s).1 = .ok (.updated u) ∧ u.id = id ∧ foldCase u.email ≠ foldCase email

/-- The operation that an input came to, and the store that it left. -/
theorem made_of_result {i : Input} {s : Store} {outcome : Outcome}
    (h : (i.result s).1 = .ok outcome) :
    ∃ call s', accept i.command i.payload = .ok call ∧ (i.dispatch s).2 = s' ∧
      Made s i.fresh.userId i.fresh.storedAt call outcome s' := by
  rw [dispatch_eq]
  unfold result at h ⊢
  obtain ⟨e, hresult, -⟩ | ⟨call, outcome', s', haccept, hresult, hmade⟩ :=
    result_cases i.command i.payload i.fresh s
  · rw [hresult] at h
    cases h
  · rw [hresult] at h ⊢
    cases h
    exact ⟨call, s', haccept, rfl, hmade⟩

/-- Whoever is given an address has it afterwards. -/
theorem Gives.mem {i : Input} {s : Store} {u : User} (h : i.Gives s u) :
    u ∈ (i.dispatch s).2.users := by
  obtain ⟨_, -, -, hresult | hresult⟩ := h
  · obtain ⟨call, s', -, hs', hmade⟩ := made_of_result hresult
    rw [hs']
    cases hmade with
    | created => exact List.mem_append_right _ (List.mem_singleton_self _)
  · obtain ⟨call, s', -, hs', hmade⟩ := made_of_result hresult
    rw [hs']
    cases hmade with
    | updated changes hold _ => exact List.mem_map.mpr ⟨_, mem_of_find? hold, if_pos rfl⟩

/-- **Nobody is given an address that somebody else has**, and nobody is created with it. -/
theorem Gives.only {i : Input} {s : Store} {u : User} (h : i.Gives s u) {v : User}
    (hv : v ∈ s.users) (heq : foldCase v.email = foldCase u.email) :
    v.id = u.id ∧ i.command ≠ .create := by
  obtain ⟨call, haccept, hsets, hresult⟩ := h
  obtain ⟨hcommand, -⟩ := accept_eq_ok haccept
  rcases hresult with hresult | hresult
  · obtain ⟨call', s', -, -, hmade⟩ := made_of_result hresult
    cases hmade with
    | created input hfree => exact absurd ⟨v, hv, Option.some_ne_none _, heq⟩ hfree
  · obtain ⟨call', s', haccept', -, hmade⟩ := made_of_result hresult
    obtain rfl := Except.ok.inj (haccept.symm.trans haccept')
    cases hmade with
    | updated changes hold hfree =>
      -- the address that is set was compared with those of all other users
      obtain ⟨email, hemail⟩ := Option.isSome_iff_exists.mp hsets
      refine ⟨Classical.byContradiction fun hne => ?_, hcommand ▸ (fun h => nomatch h)⟩
      refine hfree email hemail ⟨v, hv, fun h => hne (Option.some.inj h), ?_⟩
      rw [heq, changed, hemail]
      rfl

/-- Whoever has an address keeps it, unless it is taken away. -/
theorem kept_or_takesAway (i : Input) {s : Store} {u : User} {email : String} (hu : u ∈ s.users)
    (heq : foldCase u.email = foldCase email) :
    (∃ v ∈ (i.dispatch s).2.users, v.id = u.id ∧ foldCase v.email = foldCase email) ∨
      i.TakesAway s u.id email := by
  unfold TakesAway
  rw [dispatch_eq]
  unfold result
  obtain ⟨e, hresult, -⟩ | ⟨call, outcome, s', haccept, hresult, hmade⟩ :=
    result_cases i.command i.payload i.fresh s
  · rw [hresult]
    exact .inl ⟨u, hu, rfl, heq⟩
  · rw [hresult]
    cases hmade with
    | created input _ => exact .inl ⟨u, List.mem_append_left _ hu, rfl, heq⟩
    | listed | found _ => exact .inl ⟨u, hu, rfl, heq⟩
    | @updated old changes hold _ =>
      by_cases hid : u.id = old.id
      · -- the user itself is changed, so its new address decides
        by_cases hsame : foldCase (changed old changes i.fresh.storedAt).email = foldCase email
        · refine .inl ⟨_, List.mem_map.mpr ⟨u, hu, if_pos hid⟩, hid.symm, hsame⟩
        · exact .inr (.inr ⟨_, rfl, hid.symm, hsame⟩)
      · exact .inl ⟨u, List.mem_map.mpr ⟨u, hu, if_neg hid⟩, rfl, heq⟩
    | @deleted old _ =>
      by_cases hid : u.id = old.id
      · exact .inr (.inl (by rw [hid]))
      · exact .inl ⟨u, List.mem_filter.mpr ⟨hu, by simpa using hid⟩, rfl, heq⟩

end Input

/-- Whoever has an address has it after a run, unless it is taken away in between. -/
theorem kept_or_takesAway_run {s : Store} {u : User} {email : String} (inputs : List Input)
    (hu : u ∈ s.users) (heq : foldCase u.email = foldCase email) :
    (∃ v ∈ (after s inputs).users, v.id = u.id ∧ foldCase v.email = foldCase email) ∨
      ∃ pre k post, inputs = pre ++ k :: post ∧ k.TakesAway (after s pre) u.id email := by
  induction inputs generalizing s u with
  | nil => exact .inl ⟨u, hu, rfl, heq⟩
  | cons i inputs ih =>
    -- the user may have been changed, so it is its identifier that is followed
    rcases i.kept_or_takesAway hu heq with ⟨v, hv, hid, hveq⟩ | htaken
    · rcases ih hv hveq with ⟨w, hw, hwid, hweq⟩ | ⟨pre, k, post, rfl, htaken⟩
      · exact .inl ⟨w, hw, hwid.trans hid, hweq⟩
      · exact .inr ⟨i :: pre, k, post, rfl, hid ▸ htaken⟩
    · exact .inr ⟨[], i, inputs, rfl, htaken⟩

/-- **An address is given once.** If it is given again, it was taken away in between, or it is the
same user who is given it and not a new one. -/
theorem given_again {s : Store} {i j : Input} {mid : List Input} {u v : User}
    (hi : i.Gives s u) (hj : j.Gives (after s (i :: mid)) v)
    (heq : foldCase u.email = foldCase v.email) :
    (u.id = v.id ∧ j.command ≠ .create) ∨
      ∃ pre k post, mid = pre ++ k :: post ∧
        k.TakesAway (after s (i :: pre)) u.id u.email := by
  rcases kept_or_takesAway_run mid hi.mem rfl with ⟨w, hw, hid, hweq⟩ | htaken
  · obtain ⟨hsame, hcommand⟩ := hj.only hw (hweq.trans heq)
    exact .inl ⟨hid.symm.trans hsame, hcommand⟩
  · exact .inr htaken

/-- In a run no address is given twice, up to case. -/
def NoAddressTwice (s : Store) (inputs : List Input) : Prop :=
  ∀ (pre mid post : List Input) (i j : Input) (u v : User),
    inputs = pre ++ i :: (mid ++ j :: post) →
    i.Gives (after s pre) u → j.Gives (after s (pre ++ i :: mid)) v →
    foldCase u.email ≠ foldCase v.email

/-- In a run an address is given twice, up to case, only to a user who has it already and is not
created by it, or after it was taken away. -/
def AddressesInTurn (s : Store) (inputs : List Input) : Prop :=
  ∀ (pre mid post : List Input) (i j : Input) (u v : User),
    inputs = pre ++ i :: (mid ++ j :: post) →
    i.Gives (after s pre) u → j.Gives (after s (pre ++ i :: mid)) v →
    foldCase u.email = foldCase v.email →
    (u.id = v.id ∧ j.command ≠ .create) ∨
      ∃ before k behind, mid = before ++ k :: behind ∧
        k.TakesAway (after s (pre ++ i :: before)) u.id u.email

theorem addresses_in_turn (s : Store) (inputs : List Input) : AddressesInTurn s inputs := by
  intro pre mid post i j u v _ hi hj heq
  rw [after_append] at hj
  rcases given_again hi hj heq with hsame | ⟨before, k, behind, hmid, htaken⟩
  · exact .inl hsame
  · rw [← after_append] at htaken
    exact .inr ⟨before, k, behind, hmid, htaken⟩

end UserDirectory.Server
