import Mathlib.Data.List.Induction
import Mathlib.Data.List.Nodup
import UserDirectory.Proofs.Store

/-!
# The store as told by its history

A history is a list of calls, each with what came of it. It says on its own which users there are,
and what each of them is: a user is a creation that was not removed since (`survivors`), and each
field is the one that was set last since then, or else the one it was created with
(`Creation.user`). Nothing of this mentions a store.

`users_journal` is the invariant, by induction along the calls: the users of the store are the
survivors of its history, in the order of their creation. The step is split where the data is: what
one more entry means for the creations (`survivors_concat`) and for the fields of one of them
(`user_followedBy`). What the calls answer is then read off the history (`AnswersAs`).
-/

namespace UserDirectory.Store

open Text (foldCase)

/-! ## Histories -/

/-- A call with what it may use up: an identifier for a new user and a reading of the clock. -/
structure Step where
  call : Call
  freshId : UserId
  now : Time.Instant

/-- A call and what came of it. -/
structure Entry extends Step where
  result : Except Failure Outcome

/-- The call of an entry, if it succeeded. -/
def Entry.done? (e : Entry) : Option Call := e.result.toOption.map fun _ => e.call

/-- A store and all that was asked of it so far. -/
structure Journal where
  history : List Entry := []
  store : Store := empty

namespace Journal

/-- Carries out a call and writes down what came of it. -/
def record (j : Journal) (step : Step) : Journal :=
  let (result, store) := j.store.perform step.call step.freshId step.now
  { history := j.history ++ [{ step with result }], store }

end Journal

/-- The journal of a store without users after calls one after another. -/
def journal (steps : List Step) : Journal := steps.foldl Journal.record {}

theorem journal_concat (steps : List Step) (step : Step) :
    journal (steps ++ [step]) = (journal steps).record step := by
  rw [journal, List.foldl_append]
  rfl

/-! ## Users as a history tells them -/

/-- A creation that succeeded: what it was given, and all that was asked for since. -/
structure Creation where
  id : UserId
  input : NewUser
  time : Time.Instant
  since : List Entry := []

/-- The creation that an entry is. -/
def Entry.creation? (e : Entry) : Option Creation :=
  match e.done? with
  | some (.create input) => some { id := e.freshId, input, time := e.now }
  | _ => none

/-- The changes that an entry makes to a user, with the reading of the clock. -/
def Entry.changes? (id : UserId) (e : Entry) : Option (UserChanges × Time.Instant) :=
  match e.done? with
  | some (.update id' changes) => if id' = id then some (changes, e.now) else none
  | _ => none

/-- Whether an entry removes a user. -/
def Entry.removes (id : UserId) (e : Entry) : Bool := e.done? = some (.delete id)

namespace Creation

/-- A creation with one more thing asked for since. -/
def followedBy (e : Entry) (c : Creation) : Creation := { c with since := c.since ++ [e] }

/-- Whether the user was removed since. -/
def removed (c : Creation) : Bool := c.since.any (Entry.removes c.id)

/-- The successful updates since, each with its reading of the clock. -/
def updates (c : Creation) : List (UserChanges × Time.Instant) :=
  c.since.filterMap (Entry.changes? c.id)

/-- What the latest update that sets a field sets it to. -/
def latest {α : Type} (field : UserChanges → Option α) (c : Creation) : Option α :=
  (c.updates.filterMap fun update => field update.1).getLast?

/-- The user as of now: each field is as it was last given. -/
def user (c : Creation) : User where
  id := c.id
  firstName := (c.latest (·.firstName)).getD c.input.firstName
  lastName := (c.latest (·.lastName)).getD c.input.lastName
  email := (c.latest (·.email)).getD c.input.email
  phone := ((c.latest (·.phone)).or c.input.phone).filter (!·.isEmpty)
  age := (c.latest (·.age)).or c.input.age
  status := ((c.latest (·.status)).or c.input.status).getD .active
  createdAt := c.time
  updatedAt := (c.updates.getLast?.map (·.2)).getD c.time

end Creation

/-- The creations of a history, the oldest first. -/
def creations : List Entry → List Creation
  | [] => []
  | e :: history =>
    (e.creation?.map fun c => { c with since := history }).toList ++ creations history

/-- The creations that were not removed since. -/
def survivors (history : List Entry) : List Creation := (creations history).filter (!·.removed)

/-- No identifier was given to two users, whether they are still there or not. -/
def FreshIds (history : List Entry) : Prop := ((creations history).map Creation.id).Nodup

/-! ## One more entry -/

section Concat

variable (history : List Entry) (e : Entry)

theorem creations_concat :
    creations (history ++ [e]) =
      (creations history).map (Creation.followedBy e) ++ e.creation?.toList := by
  induction history with
  | nil =>
    -- nothing was asked for since the last entry
    cases hc : e.creation? with
    | none => simp [creations, hc]
    | some c =>
      have hsince : c.since = [] := by
        unfold Entry.creation? at hc
        split at hc
        · rw [← Option.some.inj hc]
        · cases hc
      simp only [List.nil_append, creations, hc, Option.map_some, Option.toList_some,
        List.append_nil, List.map_nil]
      rw [← hsince]
  | cons e' history ih =>
    rw [List.cons_append, creations, creations, ih, List.map_append, ← List.append_assoc]
    cases e'.creation? <;> rfl

theorem removed_followedBy (c : Creation) :
    (c.followedBy e).removed = (c.removed || e.removes c.id) := by
  show (c.since ++ [e]).any _ = _
  rw [List.any_append, List.any_cons, List.any_nil, Bool.or_false]
  rfl

theorem Entry.creation?_not_removed {e : Entry} {c : Creation} (hc : e.creation? = some c) :
    c.removed = false := by
  unfold creation? at hc
  split at hc
  · obtain rfl := Option.some.inj hc
    rfl
  · cases hc

/-- **One more entry takes away whom it removes and adds whom it creates.** -/
theorem survivors_concat :
    survivors (history ++ [e]) =
      ((survivors history).filter fun c => !e.removes c.id).map (Creation.followedBy e) ++
        e.creation?.toList := by
  rw [survivors, creations_concat, List.filter_append, survivors, List.filter_map,
    List.filter_filter]
  refine congrArg₂ (· ++ ·) (congrArg _ (List.filter_congr fun c _ => ?_)) ?_
  · rw [Function.comp_apply, removed_followedBy, Bool.not_or, Bool.and_comm]
  · cases hc : e.creation? with
    | none => rfl
    | some c =>
      have hkept := Entry.creation?_not_removed hc
      simp [hkept]

end Concat

/-- A creation stays one, and what is asked for later is added to it. -/
theorem mem_creations_append {history : List Entry} {c : Creation} (hc : c ∈ creations history)
    (more : List Entry) : { c with since := c.since ++ more } ∈ creations (history ++ more) := by
  induction history with
  | nil => cases hc
  | cons e history ih =>
    rw [creations] at hc
    rw [List.cons_append, creations]
    rcases List.mem_append.mp hc with hc | hc
    · refine List.mem_append_left _ ?_
      rw [Option.mem_toList, Option.map_eq_some_iff] at hc ⊢
      obtain ⟨first, hfirst, rfl⟩ := hc
      exact ⟨first, hfirst, rfl⟩
    · exact List.mem_append_right _ (ih hc)

/-- What is fresh in a longer history is so in what it starts with. -/
theorem FreshIds.of_append {history more : List Entry} (h : FreshIds (history ++ more)) :
    FreshIds history := by
  induction more using List.reverseRecOn with
  | nil => rwa [List.append_nil] at h
  | append_singleton more e ih =>
    refine ih ?_
    unfold FreshIds at h ⊢
    rw [← List.append_assoc, creations_concat, List.map_append, List.map_map] at h
    exact (List.nodup_append.mp h).1

/-! ## One more entry, for one user -/

namespace Creation

variable {c : Creation} {e : Entry}

theorem updates_followedBy (c : Creation) (e : Entry) :
    (c.followedBy e).updates = c.updates ++ (e.changes? c.id).toList := by
  show (c.since ++ [e]).filterMap _ = _
  rw [List.filterMap_append]
  refine congrArg (c.updates ++ ·) ?_
  cases h : e.changes? c.id with
  | none => exact List.filterMap_cons_none h
  | some update => exact List.filterMap_cons_some h

/-- An entry that does not change the user leaves it as it is. -/
theorem user_followedBy_of_none (h : e.changes? c.id = none) : (c.followedBy e).user = c.user := by
  have hupdates : (c.followedBy e).updates = c.updates := by
    rw [updates_followedBy, h, Option.toList_none, List.append_nil]
  simp only [user, latest, hupdates]
  rfl

/-- What an update sets comes before what was set earlier. -/
theorem latest_followedBy {changes : UserChanges} {now : Time.Instant}
    (h : e.changes? c.id = some (changes, now)) {α : Type} (field : UserChanges → Option α) :
    (c.followedBy e).latest field = (field changes).or (c.latest field) := by
  rw [latest, updates_followedBy, h, Option.toList_some, List.filterMap_append]
  cases hfield : field changes with
  | none => simp [hfield, latest]
  | some a => simp [hfield]

/-- **An update of the user changes the fields that it sets, and no others.** -/
theorem user_followedBy_of_some {changes : UserChanges} {now : Time.Instant}
    (h : e.changes? c.id = some (changes, now)) :
    (c.followedBy e).user = changed c.user changes now := by
  have hupdated : (c.followedBy e).updates.getLast? = some (changes, now) := by
    rw [updates_followedBy, h, Option.toList_some, List.getLast?_concat]
  -- an empty phone number is none, also where it hides an older one
  have hphone : (changes.phone.or ((c.latest (·.phone)).or c.input.phone)).filter (!·.isEmpty) =
      if changes.phone.isSome then storedPhone changes.phone else c.user.phone := by
    cases changes.phone with
    | none => rfl
    | some phone => rfl
  have hinput : (c.followedBy e).input = c.input := rfl
  simp only [user, latest_followedBy h, hinput, hupdated, hphone, changed, Option.getD_or,
    Option.or_assoc, Option.map_some, Option.getD_some]
  rfl

end Creation

/-! ## The users of a store are the survivors of its history -/

/-- No two users have one identifier if no two creations have. -/
theorem distinctIds_of_freshIds {s : Store} {history : List Entry}
    (hs : s.users = (survivors history).map Creation.user) (hfresh : FreshIds history) :
    s.DistinctIds := by
  rw [DistinctIds, hs, List.pairwise_map]
  exact (List.pairwise_map.mp hfresh).sublist List.filter_sublist

section Record

variable {history : List Entry} {e : Entry}

theorem map_user_concat : (survivors (history ++ [e])).map Creation.user =
    ((survivors history).filter fun c => !e.removes c.id).map (fun c => (c.followedBy e).user) ++
      e.creation?.toList.map Creation.user := by
  rw [survivors_concat, List.map_append, List.map_map]
  rfl

/-- An entry that removes nobody lets everybody stay, in their order. -/
theorem map_user_concat_of_keeps (hremoves : ∀ id, e.removes id = false) :
    (survivors (history ++ [e])).map Creation.user =
      (survivors history).map (fun c => (c.followedBy e).user) ++
        e.creation?.toList.map Creation.user := by
  have hall : (survivors history).filter (fun c => !e.removes c.id) = survivors history := by
    rw [List.filter_eq_self]
    intro c _
    rw [hremoves, Bool.not_false]
  rw [map_user_concat, hall]

/-- Whom an entry neither removes nor changes stays as it is. -/
theorem map_user_concat_of_spares (hremoves : ∀ id, e.removes id = false)
    (hchanges : ∀ id, e.changes? id = none) : (survivors (history ++ [e])).map Creation.user =
      (survivors history).map Creation.user ++ e.creation?.toList.map Creation.user := by
  rw [map_user_concat_of_keeps hremoves]
  refine congrArg (· ++ _) (List.map_congr_left fun c _ => ?_)
  exact Creation.user_followedBy_of_none (hchanges c.id)

/-- An update replaces the user that it is about. -/
theorem map_user_concat_of_update {u : User} {changes : UserChanges}
    (hdone : e.done? = some (.update u.id changes))
    (hfound : ∀ c ∈ survivors history, c.id = u.id → c.user = u) :
    (survivors (history ++ [e])).map Creation.user =
      ((survivors history).map Creation.user).map fun v =>
        if v.id = u.id then changed u changes e.now else v := by
  have hcreation : e.creation? = none := by rw [Entry.creation?, hdone]
  have hremoves : ∀ id, e.removes id = false := by
    intro id
    rw [Entry.removes, hdone]
    exact decide_eq_false nofun
  rw [map_user_concat_of_keeps hremoves, hcreation, Option.toList_none, List.map_nil,
    List.append_nil, List.map_map]
  refine List.map_congr_left fun c hc => ?_
  have hchanges : e.changes? c.id = if u.id = c.id then some (changes, e.now) else none := by
    rw [Entry.changes?, hdone]
  show (c.followedBy e).user = if c.id = u.id then changed u changes e.now else c.user
  by_cases hid : c.id = u.id
  · rw [if_pos hid, ← hfound c hc hid]
    rw [if_pos hid.symm] at hchanges
    exact Creation.user_followedBy_of_some hchanges
  · rw [if_neg hid]
    rw [if_neg (Ne.symm hid)] at hchanges
    exact Creation.user_followedBy_of_none hchanges

/-- A deletion takes away the user that it is about, and changes nobody. -/
theorem map_user_concat_of_delete {id : UserId} (hdone : e.done? = some (.delete id)) :
    (survivors (history ++ [e])).map Creation.user =
      ((survivors history).map Creation.user).filter (·.id != id) := by
  have hcreation : e.creation? = none := by rw [Entry.creation?, hdone]
  have hremoves : ∀ c : Creation, (!e.removes c.id) = (c.id != id) := by
    intro c
    rw [Entry.removes, hdone, bne, Bool.beq_eq_decide_eq, decide_eq_decide.mpr]
    exact ⟨fun h => (Call.delete.inj (Option.some.inj h)).symm, fun h => h ▸ rfl⟩
  have hchanges : ∀ c : Creation, e.changes? c.id = none := by
    intro c
    rw [Entry.changes?, hdone]
  rw [map_user_concat, hcreation, Option.toList_none, List.map_nil, List.append_nil,
    List.filter_map]
  simp only [hremoves, Creation.user_followedBy_of_none (hchanges _)]
  rfl

end Record

/-- **A call does to the users what its entry does to the survivors.** -/
theorem users_record {j : Journal} (step : Step)
    (hj : j.store.users = (survivors j.history).map Creation.user)
    (hfresh : FreshIds j.history) :
    (j.record step).store.users = (survivors (j.record step).history).map Creation.user := by
  obtain ⟨call, freshId, now⟩ := step
  obtain ⟨outcome, s', hperform, hmade⟩ | ⟨e, hperform, -⟩ :=
    j.store.perform_cases call freshId now
  · simp only [Journal.record, hperform]
    cases hmade with
    | created input _ =>
      rw [map_user_concat_of_spares (fun _ => rfl) fun _ => rfl, hj]
      rfl
    | listed | found _ =>
      rw [map_user_concat_of_spares (fun _ => rfl) fun _ => rfl, hj]
      exact (List.append_nil _).symm
    | @updated u changes hu _ =>
      -- the survivor with the identifier is the user that was found
      have hfound : ∀ c ∈ survivors j.history, c.id = u.id → c.user = u := by
        intro c hc hid
        have hmem : c.user ∈ j.store.users := hj ▸ List.mem_map_of_mem hc
        have hsame := find?_of_mem (distinctIds_of_freshIds hj hfresh) hmem
        rw [show c.user.id = u.id from hid, hu] at hsame
        exact (Option.some.inj hsame).symm
      rw [map_user_concat_of_update rfl hfound, ← hj]
      rfl
    | deleted _ =>
      rw [map_user_concat_of_delete rfl, ← hj]
      rfl
  · simp only [Journal.record, hperform]
    rw [map_user_concat_of_spares (fun _ => rfl) fun _ => rfl, hj]
    exact (List.append_nil _).symm

theorem history_record (j : Journal) (step : Step) :
    ∃ e, (j.record step).history = j.history ++ [e] := ⟨_, rfl⟩

/-- **The users of a store are the survivors of its history**, in the order of their creation. -/
theorem users_journal (steps : List Step) (hfresh : FreshIds (journal steps).history) :
    (journal steps).store.users = (survivors (journal steps).history).map Creation.user := by
  induction steps using List.reverseRecOn with
  | nil => rfl
  | append_singleton steps step ih =>
    rw [journal_concat] at hfresh ⊢
    have hbefore : FreshIds (journal steps).history := by
      obtain ⟨e, he⟩ := history_record (journal steps) step
      rw [he] at hfresh
      exact hfresh.of_append
    exact users_record step (ih hbefore) hbefore

theorem history_append (steps more : List Step) :
    ∃ later, (journal (steps ++ more)).history = (journal steps).history ++ later := by
  induction more using List.reverseRecOn with
  | nil => exact ⟨[], by rw [List.append_nil, List.append_nil]⟩
  | append_singleton more step ih =>
    obtain ⟨later, hlater⟩ := ih
    obtain ⟨e, he⟩ := history_record (journal (steps ++ more)) step
    refine ⟨later ++ [e], ?_⟩
    rw [← List.append_assoc, journal_concat, he, hlater, List.append_assoc]

/-! ## What the calls answer -/

/-- A survivor other than those with the identifier has the e-mail address, up to case. -/
def Taken (history : List Entry) (email : String) (except : Option UserId) : Prop :=
  ∃ c ∈ survivors history, some c.id ≠ except ∧ foldCase c.user.email = foldCase email

/-- A store answers every call as its history tells. What the calls need beyond the history, an
identifier for a new user and a reading of the clock, may be anything. -/
structure AnswersAs (history : List Entry) (s : Store) : Prop where
  listed : ∀ freshId now, s.perform .list freshId now =
    (.ok (.listed ((survivors history).map Creation.user)), s)
  found : ∀ c ∈ survivors history, ∀ freshId now,
    s.perform (.get c.id) freshId now = (.ok (.found c.user), s)
  /-- nobody has the identifier, so whoever is looked for is not found -/
  absent : ∀ id ∉ (survivors history).map Creation.id, ∀ changes freshId now,
    s.perform (.get id) freshId now = (.error .notFound, s) ∧
      s.perform (.update id changes) freshId now = (.error .notFound, s) ∧
      s.perform (.delete id) freshId now = (.error .notFound, s)
  conflict : ∀ id changes freshId now,
    (∃ message, (s.perform (.update id changes) freshId now).1 = .error (.conflict message)) ↔
      id ∈ (survivors history).map Creation.id ∧
        ∃ email ∈ changes.email, Taken history email (some id)
  /-- what is not refused for one of these reasons is done -/
  done : ∀ c ∈ survivors history, ∀ changes freshId now,
    (s.perform (.delete c.id) freshId now).1 = .ok (.deleted c.id) ∧
      ((¬ ∃ email ∈ changes.email, Taken history email (some c.id)) →
        (s.perform (.update c.id changes) freshId now).1 =
          .ok (.updated (changed c.user changes now)))
  created : ∀ input freshId now,
    (s.perform (.create input) freshId now).1 = .ok (.created (newUser input freshId now)) ↔
      ¬ Taken history input.email none
  untouched : ∀ call freshId now e, (s.perform call freshId now).1 = .error e →
    (s.perform call freshId now).2 = s

section Answers

variable {history : List Entry} {s : Store}

theorem find?_survivor (hs : s.users = (survivors history).map Creation.user)
    (hfresh : FreshIds history) {c : Creation} (hc : c ∈ survivors history) :
    s.find? c.id = some c.user :=
  find?_of_mem (distinctIds_of_freshIds hs hfresh) (hs ▸ List.mem_map_of_mem hc)

theorem find?_absent (hs : s.users = (survivors history).map Creation.user) {id : UserId}
    (hid : id ∉ (survivors history).map Creation.id) : s.find? id = none := by
  rw [find?, List.find?_eq_none, hs]
  intro u hu heq
  obtain ⟨c, hc, rfl⟩ := List.mem_map.mp hu
  exact hid (List.mem_map.mpr ⟨c, hc, eq_of_beq heq⟩)

theorem hasEmail_iff_taken (hs : s.users = (survivors history).map Creation.user) {email : String}
    {except : Option UserId} : s.hasEmail email except = true ↔ Taken history email except := by
  rw [hasEmail_iff, Holds, hs]
  constructor
  · rintro ⟨u, hu, hne, hsame⟩
    obtain ⟨c, hc, rfl⟩ := List.mem_map.mp hu
    exact ⟨c, hc, hne, hsame⟩
  · rintro ⟨c, hc, hne, hsame⟩
    exact ⟨c.user, List.mem_map_of_mem hc, hne, hsame⟩

/-- An update of a user who is there fails if an address it sets is taken, and only then. -/
theorem update_survivor (hs : s.users = (survivors history).map Creation.user)
    (hfresh : FreshIds history) {c : Creation} (hc : c ∈ survivors history)
    (changes : UserChanges) (freshId : UserId) (now : Time.Instant) :
    ((∃ email ∈ changes.email, Taken history email (some c.id)) ∧
      (s.perform (.update c.id changes) freshId now).1 = .error emailTaken) ∨
    ((¬ ∃ email ∈ changes.email, Taken history email (some c.id)) ∧
      (s.perform (.update c.id changes) freshId now).1 =
        .ok (.updated (changed c.user changes now))) := by
  have hfind := find?_survivor hs hfresh hc
  have htaken : (changes.email.any fun email => s.hasEmail email (some c.id)) = true ↔
      ∃ email ∈ changes.email, Taken history email (some c.id) := by
    simp only [Option.any_eq_true, hasEmail_iff_taken hs, Option.mem_def]
  by_cases h : changes.email.any fun email => s.hasEmail email (some c.id)
  · refine .inl ⟨htaken.mp h, ?_⟩
    simp only [perform, update, hfind, h, if_true]
  · refine .inr ⟨fun hheld => h (htaken.mpr hheld), ?_⟩
    simp only [perform, update, hfind, h]
    rfl

/-- **A store whose users are the survivors of a history answers as the history tells.** -/
theorem answersAs_of_users (hs : s.users = (survivors history).map Creation.user)
    (hfresh : FreshIds history) : AnswersAs history s where
  listed _ _ := by rw [perform, hs]
  found c hc _ _ := by
    simp only [perform, get, find?_survivor hs hfresh hc]
    rfl
  absent id hid changes _ _ := by
    have hnone := find?_absent hs hid
    refine ⟨?_, ?_, ?_⟩
    · simp only [perform, get, hnone]
      rfl
    · simp only [perform, update, hnone]
    · simp [perform, delete, hnone]
  conflict id changes freshId now := by
    by_cases hid : id ∈ (survivors history).map Creation.id
    · obtain ⟨c, hc, rfl⟩ := List.mem_map.mp hid
      rcases update_survivor hs hfresh hc changes freshId now with ⟨htaken, h⟩ | ⟨hfree, h⟩
      · exact ⟨fun _ => ⟨hid, htaken⟩, fun _ => ⟨_, h⟩⟩
      · refine iff_of_false ?_ fun htaken => hfree htaken.2
        rintro ⟨message, hconflict⟩
        rw [h] at hconflict
        cases hconflict
    · -- whoever is not there is missed before any address is looked at
      refine iff_of_false ?_ fun htaken => hid htaken.1
      rintro ⟨message, hconflict⟩
      simp only [perform, update, find?_absent hs hid] at hconflict
      cases hconflict
  done c hc changes freshId now := by
    refine ⟨?_, fun hfree => ?_⟩
    · simp [perform, delete, find?_survivor hs hfresh hc]
    · rcases update_survivor hs hfresh hc changes freshId now with ⟨htaken, -⟩ | ⟨-, h⟩
      · exact absurd htaken hfree
      · exact h
  created input freshId now := by
    rw [← hasEmail_iff_taken hs]
    by_cases h : s.hasEmail input.email none
    · simp [perform, create, h]
    · simp [perform, create, h]
  untouched call freshId now e he := by
    obtain ⟨outcome, s', hperform, -⟩ | ⟨e', hperform, -⟩ := s.perform_cases call freshId now
    · rw [hperform] at he
      cases he
    · rw [hperform]

end Answers

/-- One record under one identifier, at two moments. -/
theorem same_creation {steps later : List Step}
    (hfresh : FreshIds (journal (steps ++ later)).history) {u v : User}
    (hu : u ∈ (journal steps).store.users) (hv : v ∈ (journal (steps ++ later)).store.users)
    (hid : v.id = u.id) : v.createdAt = u.createdAt := by
  obtain ⟨more, hmore⟩ := history_append steps later
  have hbefore : FreshIds (journal steps).history := (hmore ▸ hfresh : FreshIds _).of_append
  rw [users_journal _ hbefore] at hu
  rw [users_journal _ hfresh] at hv
  obtain ⟨c, hc, rfl⟩ := List.mem_map.mp hu
  obtain ⟨d, hd, rfl⟩ := List.mem_map.mp hv
  -- the earlier creation is still one of the later history, and has its identifier for itself
  have hkept := mem_creations_append (List.mem_filter.mp hc).1 more
  rw [← hmore] at hkept
  have hsame := List.inj_on_of_nodup_map hfresh (List.mem_filter.mp hd).1 hkept hid
  show d.time = c.time
  rw [hsame]

/-- **The store is an ordered map with one last value for each field.** After any calls it answers
as its history tells, and the user of an identifier keeps the moment of its creation. -/
theorem answersAs_journal (steps : List Step) (hfresh : FreshIds (journal steps).history) :
    AnswersAs (journal steps).history (journal steps).store ∧
      ∀ earlier later, steps = earlier ++ later →
        ∀ u ∈ (journal earlier).store.users, ∀ v ∈ (journal steps).store.users,
          v.id = u.id → v.createdAt = u.createdAt := by
  refine ⟨answersAs_of_users (users_journal steps hfresh) hfresh, ?_⟩
  rintro earlier later rfl u hu v hv hid
  exact same_creation hfresh hu hv hid

/-- The `n`-th call of a sequence in which no identifier is given twice. -/
def Step.nth (n : Nat) (call : Call) : Step :=
  ⟨call, ⟨.ofSerial n⟩, .onDay ⟨2025, 7, 4, by decide⟩ n⟩

/-- Two users are created; one is changed twice, the second time to have no phone number; then it is
denied the address of the other, and the other is deleted. -/
def changesOfTwo : List Step :=
  let id (n : Nat) : UserId := ⟨.ofSerial n⟩
  [ .nth 0 (.create ⟨"Ada", "Byron", "ada@notes.org", some "1", none, none⟩),
    .nth 1 (.create ⟨"Grace", "Murray", "grace@navy.mil", some "2", some 36, some .inactive⟩),
    .nth 2 (.update (id 0) { lastName := some "Lovelace", age := some 27 }),
    .nth 3 (.update (id 0) { phone := some "" }),
    .nth 4 (.update (id 0) { email := some "GRACE@navy.mil" }),
    .nth 5 (.delete (id 1)) ]

/-- One of them is left, as it was after its second change. -/
theorem answersAs_changesOfTwo :
    (survivors (journal changesOfTwo).history).map Creation.user =
        [⟨⟨.ofSerial 0⟩, "Ada", "Lovelace", "ada@notes.org", none, some 27, .active,
          .onDay ⟨2025, 7, 4, by decide⟩ 0, .onDay ⟨2025, 7, 4, by decide⟩ 3⟩] ∧
      FreshIds (journal changesOfTwo).history ∧
      AnswersAs (journal changesOfTwo).history (journal changesOfTwo).store := by
  have hfresh : FreshIds (journal changesOfTwo).history := by
    unfold FreshIds
    decide +kernel
  exact ⟨by decide +kernel, hfresh, (answersAs_journal changesOfTwo hfresh).1⟩

end UserDirectory.Store
