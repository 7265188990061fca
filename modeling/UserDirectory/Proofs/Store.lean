import UserDirectory.Store

/-!
# What the operations of the store do

`Made` says once what a successful operation finds and leaves behind; `perform_cases` says that
every operation either does that or fails and leaves the store alone. What holds of a store along
its whole life is read off `Made`, operation by operation.

Two things hold so. No two users have one identifier, as long as the identifiers given to new
users are unused (`DistinctIds`). No two users have e-mail addresses that are equal up to case
(`DistinctEmails`); this needs the first, because an update looks at all users but the one with
the identifier it was given.
-/

namespace UserDirectory.Store

open Text (foldCase sameIgnoringCase_iff)

/-! ## The operations, by what they do -/

/-- A user other than those with the identifier `except` has the e-mail address, up to case. -/
def Holds (s : Store) (email : String) (except : Option UserId) : Prop :=
  ∃ u ∈ s.users, some u.id ≠ except ∧ foldCase u.email = foldCase email

theorem hasEmail_iff {s : Store} {email : String} {except : Option UserId} :
    s.hasEmail email except = true ↔ s.Holds email except := by
  simp [hasEmail, Holds, List.any_eq_true, sameIgnoringCase_iff]

/-- The users with one of them replaced wherever it stands. -/
def replace (s : Store) (u : User) : Store :=
  { users := s.users.map fun v => if v.id = u.id then u else v }

/-- The users without those of an identifier. -/
def without (s : Store) (id : UserId) : Store := { users := s.users.filter (·.id != id) }

/-- What a successful operation does: what it answers and what it leaves behind. -/
inductive Made (s : Store) (freshId : UserId) (now : Time.Instant) : Call → Outcome → Store → Prop
  | created (input : NewUser) (hfree : ¬ s.Holds input.email none) :
      Made s freshId now (.create input) (.created (newUser input freshId now))
        { users := s.users ++ [newUser input freshId now] }
  | listed : Made s freshId now .list (.listed s.users) s
  | found {u : User} (hu : s.find? u.id = some u) : Made s freshId now (.get u.id) (.found u) s
  | updated {u : User} (changes : UserChanges) (hu : s.find? u.id = some u)
      (hfree : ∀ email ∈ changes.email, ¬ s.Holds email (some u.id)) :
      Made s freshId now (.update u.id changes) (.updated (changed u changes now))
        (s.replace (changed u changes now))
  | deleted {u : User} (hu : s.find? u.id = some u) :
      Made s freshId now (.delete u.id) (.deleted u.id) (s.without u.id)

theorem id_of_find? {s : Store} {id : UserId} {u : User} (h : s.find? id = some u) : u.id = id := by
  have := List.find?_some h
  simpa using this

theorem mem_of_find? {s : Store} {id : UserId} {u : User} (h : s.find? id = some u) :
    u ∈ s.users := List.mem_of_find?_eq_some h

/-- **An operation does its work or fails without a trace.** -/
theorem perform_cases (s : Store) (call : Call) (freshId : UserId) (now : Time.Instant) :
    (∃ outcome s', s.perform call freshId now = (.ok outcome, s') ∧
        Made s freshId now call outcome s') ∨
      ∃ e, s.perform call freshId now = (.error e, s) ∧ (e = .notFound ∨ e = emailTaken) := by
  cases call with
  | create input =>
    by_cases htaken : s.hasEmail input.email none
    · exact .inr ⟨_, by simp [perform, create, htaken], .inr rfl⟩
    · -- nobody has the address, whoever they are
      refine .inl ⟨_, _, by simp [perform, create, htaken], .created input ?_⟩
      rwa [hasEmail_iff] at htaken
  | list => exact .inl ⟨_, _, rfl, .listed⟩
  | get id =>
    cases hfind : s.find? id with
    | none => exact .inr ⟨_, by simp only [perform, get, hfind]; rfl, .inl rfl⟩
    | some u =>
      obtain rfl := id_of_find? hfind
      exact .inl ⟨_, _, by simp only [perform, get, hfind]; rfl, .found hfind⟩
  | update id changes =>
    cases hfind : s.find? id with
    | none => exact .inr ⟨_, by simp [perform, update, hfind], .inl rfl⟩
    | some u =>
      obtain rfl := id_of_find? hfind
      -- only an address that is given anew is looked for, and only among the other users
      by_cases htaken : changes.email.any fun email => s.hasEmail email (some u.id)
      · exact .inr ⟨_, by simp only [perform, update, hfind, htaken, if_true], .inr rfl⟩
      · refine .inl ⟨_, _, by simp only [perform, update, hfind, htaken]; rfl,
          .updated changes hfind ?_⟩
        intro email hemail hheld
        refine htaken ?_
        rw [Option.any_eq_true]
        exact ⟨email, hemail, hasEmail_iff.mpr hheld⟩
  | delete id =>
    cases hfind : s.find? id with
    | none => exact .inr ⟨_, by simp [perform, delete, hfind], .inl rfl⟩
    | some u =>
      obtain rfl := id_of_find? hfind
      exact .inl ⟨_, _, by simp [perform, delete, hfind]; rfl, .deleted hfind⟩

/-! ## Identifiers -/

/-- No two users have one identifier. -/
def DistinctIds (s : Store) : Prop := s.users.Pairwise fun u v => u.id ≠ v.id

/-- A user splits the users into those before and those after, all with other identifiers. -/
theorem exists_split {s : Store} {u : User} (hids : s.DistinctIds) (hu : u ∈ s.users) :
    ∃ pre post, s.users = pre ++ u :: post ∧ ∀ v ∈ pre ++ post, v.id ≠ u.id := by
  obtain ⟨pre, post, hsplit⟩ := List.append_of_mem hu
  refine ⟨pre, post, hsplit, fun v hv => ?_⟩
  unfold DistinctIds at hids
  rw [hsplit, List.pairwise_append, List.pairwise_cons] at hids
  obtain ⟨-, ⟨hpost, -⟩, hpre⟩ := hids
  rcases List.mem_append.mp hv with hv | hv
  · exact hpre v hv u List.mem_cons_self
  · exact (hpost v hv).symm

/-- Each user is the one that is found by its identifier. -/
theorem find?_of_mem {s : Store} {u : User} (hids : s.DistinctIds) (hu : u ∈ s.users) :
    s.find? u.id = some u := by
  obtain ⟨pre, post, hsplit, hne⟩ := exists_split hids hu
  rw [find?, List.find?_eq_some_iff_append]
  refine ⟨beq_self_eq_true _, pre, post, hsplit, fun v hv => ?_⟩
  simpa using hne v (List.mem_append_left _ hv)

section Split

variable {s : Store} {u v : User} {pre post : List User}

/-- Only the user at its place is replaced. -/
theorem users_replace (hsplit : s.users = pre ++ u :: post)
    (hne : ∀ v ∈ pre ++ post, v.id ≠ u.id) (hid : v.id = u.id) :
    (s.replace v).users = pre ++ v :: post := by
  have keep : ∀ us : List User, (∀ w ∈ us, w.id ≠ u.id) →
      us.map (fun w => if w.id = v.id then v else w) = us := by
    intro us hus
    refine (List.map_congr_left fun w hw => ?_).trans us.map_id
    rw [if_neg (hid ▸ hus w hw), id]
  rw [replace, hsplit, List.map_append, List.map_cons, if_pos hid.symm,
    keep pre fun w hw => hne w (List.mem_append_left _ hw),
    keep post fun w hw => hne w (List.mem_append_right _ hw)]

/-- Only the user at its place is removed. -/
theorem users_without (hsplit : s.users = pre ++ u :: post)
    (hne : ∀ v ∈ pre ++ post, v.id ≠ u.id) : (s.without u.id).users = pre ++ post := by
  have keep : ∀ us : List User, (∀ w ∈ us, w.id ≠ u.id) → us.filter (·.id != u.id) = us := by
    intro us hus
    rw [List.filter_eq_self]
    intro w hw
    simpa using hus w hw
  rw [without, hsplit, List.filter_append, List.filter_cons_of_neg (by simp),
    keep pre fun w hw => hne w (List.mem_append_left _ hw),
    keep post fun w hw => hne w (List.mem_append_right _ hw)]

end Split

/-- A relation along the users is kept if the new user stands to the others as the one before. -/
theorem pairwise_replace {R : User → User → Prop} {s : Store} {u v : User} (hids : s.DistinctIds)
    (hu : u ∈ s.users) (hid : v.id = u.id) (hs : s.users.Pairwise R)
    (hleft : ∀ w ∈ s.users, w.id ≠ u.id → R u w → R v w)
    (hright : ∀ w ∈ s.users, w.id ≠ u.id → R w u → R w v) :
    (s.replace v).users.Pairwise R := by
  obtain ⟨pre, post, hsplit, hne⟩ := exists_split hids hu
  rw [users_replace hsplit hne hid]
  rw [hsplit] at hs hleft hright
  rw [List.pairwise_append, List.pairwise_cons] at hs ⊢
  -- only the pairs with the user at its place are new
  obtain ⟨hpre, ⟨hupost, hpost⟩, hcross⟩ := hs
  refine ⟨hpre, ⟨fun w hw => ?_, hpost⟩, fun w hw x hx => ?_⟩
  · exact hleft w (by simp [hw]) (hne w (List.mem_append_right _ hw)) (hupost w hw)
  · rcases List.mem_cons.mp hx with rfl | hx
    · exact hright w (by simp [hw]) (hne w (List.mem_append_left _ hw))
        (hcross w hw u List.mem_cons_self)
    · exact hcross w hw x (List.mem_cons_of_mem _ hx)

theorem pairwise_without {R : User → User → Prop} {s : Store} (id : UserId)
    (hs : s.users.Pairwise R) : (s.without id).users.Pairwise R := hs.filter _

/-- A new user at the end keeps what holds of it and each user before it. -/
theorem pairwise_append_new {R : User → User → Prop} {us : List User} {u : User}
    (hs : us.Pairwise R) (hnew : ∀ v ∈ us, R v u) : (us ++ [u]).Pairwise R := by
  rw [List.pairwise_append]
  refine ⟨hs, List.pairwise_singleton .., fun v hv w hw => ?_⟩
  obtain rfl := List.mem_singleton.mp hw
  exact hnew v hv

theorem Made.distinctIds {s s' : Store} {freshId : UserId} {now : Time.Instant} {call : Call}
    {outcome : Outcome} (hmade : Made s freshId now call outcome s') (hids : s.DistinctIds)
    (hfresh : ∀ u ∈ s.users, u.id ≠ freshId) : s'.DistinctIds := by
  cases hmade with
  | created input _ => exact pairwise_append_new hids hfresh
  | listed | found _ => exact hids
  | updated changes hu _ =>
    exact pairwise_replace hids (mem_of_find? hu) rfl hids (fun _ _ _ h => h) fun _ _ _ h => h
  | deleted _ => exact pairwise_without _ hids

/-- The stores that come of an empty one by operations; each is given an identifier that no user
has at that moment. -/
inductive Reachable : Store → Prop
  | empty : Reachable empty
  | perform {s : Store} (call : Call) (freshId : UserId) (now : Time.Instant) :
      Reachable s → (∀ u ∈ s.users, u.id ≠ freshId) →
      Reachable (s.perform call freshId now).2

theorem Reachable.distinctIds {s : Store} (h : s.Reachable) : s.DistinctIds := by
  induction h with
  | empty => exact .nil
  | @perform s call freshId now _ hfresh ih =>
    obtain ⟨_, s', hs', hmade⟩ | ⟨_, hs', _⟩ := s.perform_cases call freshId now
    · rw [hs']
      exact hmade.distinctIds ih hfresh
    · rwa [hs']

/-! ## E-mail addresses -/

/-- No two users have e-mail addresses that are equal up to case. -/
def DistinctEmails (s : Store) : Prop :=
  s.users.Pairwise fun u v => foldCase u.email ≠ foldCase v.email

theorem Made.distinctEmails {s s' : Store} {freshId : UserId} {now : Time.Instant} {call : Call}
    {outcome : Outcome} (hmade : Made s freshId now call outcome s') (hids : s.DistinctIds)
    (hemails : s.DistinctEmails) : s'.DistinctEmails := by
  cases hmade with
  | created input hfree =>
    refine pairwise_append_new hemails fun v hv heq => hfree ⟨v, hv, ?_, heq⟩
    exact Option.some_ne_none v.id
  | listed | found _ => exact hemails
  | @updated u changes hu hfree =>
    -- the new address is the old one, or no other user has it
    have hother : ∀ v ∈ s.users, v.id ≠ u.id → foldCase v.email ≠ foldCase u.email →
        foldCase v.email ≠ foldCase (changed u changes now).email := by
      intro v hv hne hold heq
      cases hemail : changes.email with
      | none =>
        rw [changed, hemail] at heq
        exact hold heq
      | some email =>
        rw [changed, hemail] at heq
        exact hfree email hemail ⟨v, hv, fun h => hne (Option.some.inj h), heq⟩
    exact pairwise_replace hids (mem_of_find? hu) rfl hemails
      (fun v hv hne h => (hother v hv hne h.symm).symm) hother
  | deleted _ => exact pairwise_without _ hemails

end UserDirectory.Store
