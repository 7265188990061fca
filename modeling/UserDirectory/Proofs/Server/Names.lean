import UserDirectory.Proofs.Server.Mirror
import UserDirectory.Proofs.Text

/-!
# Names as they are stored

The length of a name is measured without the blanks at its ends, and the name is stored with them.
So a stored name is a text of two to fifty characters between any number of blanks (`SpacedName`),
and every such text can be stored: `stored_names_spaced` says both, for the users in the store and
for those of whom answers and events tell. The length of the stored text itself has no bound; it is
bounded for as long as the names that come in are (`staysInLimit_iff`).

`Text.trim_eq_iff` says what is left when the blanks are taken away without saying how that is done.
Along a run names are a part of what makes users valid, which every operation keeps (`Made.valid`).
-/

namespace UserDirectory

/-- A text of two to fifty characters between any number of blanks. -/
def SpacedName (s : String) : Prop :=
  ∃ core, Text.Spaces core s.toList ∧ 2 ≤ core.length ∧ core.length ≤ 50

theorem spacedName_iff {s : String} : SpacedName s ↔ Validation.IsName s := by
  refine ⟨fun ⟨core, hcore, hlength⟩ => ?_, fun h => ⟨_, Text.spaces_trim _, h⟩⟩
  rw [Validation.IsName, Text.trim_eq_iff.mpr hcore]
  exact hlength

/-- A user whose names are of two to fifty characters between any number of blanks. -/
structure User.Named (u : User) : Prop where
  firstName : SpacedName u.firstName
  lastName : SpacedName u.lastName

theorem User.Valid.named {u : User} (h : u.Valid) : u.Named :=
  ⟨spacedName_iff.mpr h.firstName, spacedName_iff.mpr h.lastName⟩

namespace Server

open Store (Outcome Made)

/-! ## Who is told of -/

/-- The users of whom the answer to a command tells. -/
def answered (command : Command) (answer : Octets) : List User :=
  match command with
  | .create | .get | .update =>
    ((Json.decode (α := CommandResponse User) answer).bind (·.data)).toList
  | .list => ((Json.decode (α := CommandResponse (List User)) answer).bind (·.data)).getD []
  | .delete => []

/-- The user of whom an event tells. -/
def announced (event : EventKind × Octets) : Option User :=
  (Change.ofEvent? event).bind fun
    | .created u | .updated u => some u
    | .deleted _ => none

/-- The users of whom an outcome tells. -/
def outcomeUsers : Outcome → List User
  | .created u | .found u | .updated u => [u]
  | .listed us => us
  | .deleted _ => []

/-- Nothing is read from a failure. -/
theorem answered_failureReply {e : CommandError} (he : e.code.Proper) (command : Command) :
    answered command (failureReply e) = [] := by
  cases command with
  | create | get | update | list => simp only [answered, decode_failureReply he]; rfl
  | delete => rfl

/-- The answer tells of the users of the outcome. -/
theorem answered_successReply {s s' : Store} {freshId : UserId} {now : Time.Instant} {call : Call}
    {outcome : Outcome} (hmade : Made s freshId now call outcome s') :
    answered call.command (successReply outcome) = outcomeUsers outcome := by
  cases hmade with
  | created | listed | found | updated =>
    simp only [Call.command, answered, successReply, decode_success]
    rfl
  | deleted => rfl

/-- An event tells of nobody else. -/
theorem announced_announce {outcome : Outcome} {eventId : Uuid} {now : Time.Instant} {u : User}
    (hu : u ∈ (announce eventId now outcome).bind announced) : u ∈ outcomeUsers outcome := by
  cases outcome with
  | created v | updated v =>
    simp only [announce, Option.bind_some, announced, Change.ofEvent?, data?_of, Option.map_some]
      at hu
    exact List.mem_singleton.mpr (Option.some.inj hu).symm
  | deleted id =>
    simp only [announce, Option.bind_some, announced, Change.ofEvent?, data?_of, Option.map_some]
      at hu
    cases hu
  | listed | found => cases hu

theorem mem_of_outcomeUsers {s s' : Store} {freshId : UserId} {now : Time.Instant} {call : Call}
    {outcome : Outcome} (hmade : Made s freshId now call outcome s') {u : User}
    (hu : u ∈ outcomeUsers outcome) : u ∈ s.users ∨ u ∈ s'.users := by
  cases hmade with
  | created input _ => exact .inr (List.mem_append_right _ hu)
  | listed => exact .inl hu
  | found hfound => exact .inl (List.mem_singleton.mp hu ▸ Store.mem_of_find? hfound)
  | @updated old changes hold _ =>
    obtain rfl := List.mem_singleton.mp hu
    exact .inr (List.mem_map.mpr ⟨old, Store.mem_of_find? hold, if_pos rfl⟩)
  | deleted => cases hu

namespace Input

/-- The users of whom the answer to an input tells, or its event. -/
def told (i : Input) (s : Store) : List User :=
  answered i.command (i.dispatch s).1.1 ++ ((i.dispatch s).1.2.bind announced).toList

/-- Who is told of was in the store before, or is there afterwards. -/
theorem mem_of_told {i : Input} {s : Store} {u : User} (hu : u ∈ i.told s) :
    u ∈ s.users ∨ u ∈ (i.dispatch s).2.users := by
  rw [told, dispatch_eq, result] at hu
  rw [dispatch_eq, result]
  obtain ⟨e, hresult, he⟩ | ⟨call, outcome, s', haccept, hresult, hmade⟩ :=
    result_cases i.command i.payload i.fresh s
  · -- a failure tells of nobody
    rw [hresult] at hu
    simp only [conclude, reply, answered_failureReply he] at hu
    cases hu
  · rw [hresult] at hu ⊢
    rw [← (accept_eq_ok haccept).1] at hu
    refine mem_of_outcomeUsers hmade ?_
    rcases List.mem_append.mp hu with hu | hu
    · exact answered_successReply hmade ▸ hu
    · exact announced_announce (Option.mem_toList.mp hu)

end Input

/-! ## The limit -/

/-- The name is of two to fifty characters, its blanks counted. -/
def InLimit (name : String) : Prop := 2 ≤ name.length ∧ name.length ≤ 50

/-- The names of the users are in the limit. -/
def AllInLimit (users : List User) : Prop :=
  ∀ u ∈ users, InLimit u.firstName ∧ InLimit u.lastName

/-- Blanks make a name longer only, so there are always two characters. -/
theorem inLimit_iff {name : String} (h : Validation.IsName name) :
    InLimit name ↔ name.length ≤ 50 := by
  refine ⟨And.right, fun hle => ⟨?_, hle⟩⟩
  obtain ⟨before, after, htext, -, -⟩ := (Text.spaces_trim name.toList).between
  have hlength := congrArg List.length htext
  rw [List.length_append, List.length_append, String.length_toList] at hlength
  have hleast : 2 ≤ (Text.trim name.toList).length := h.1
  omega

/-- The names that an operation brings. -/
def broughtBy : Call → List String
  | .create input => [input.firstName, input.lastName]
  | .update _ changes => changes.firstName.toList ++ changes.lastName.toList
  | .list | .get _ | .delete _ => []

/-- A name that is kept is the old one, or the new one if there is one. -/
theorem inLimit_getD {new : Option String} {old : String} (hold : InLimit old)
    (hnew : ∀ name ∈ new, Validation.IsName name) :
    InLimit (new.getD old) ↔ ∀ name ∈ new, name.length ≤ 50 := by
  cases new with
  | none => exact iff_of_true hold fun _ h => nomatch h
  | some name =>
    simp only [Option.getD_some, Option.mem_def, Option.some.injEq, forall_eq']
    exact inLimit_iff (hnew name rfl)

/-- **An operation keeps the limit if and only if the names that it brings do.** -/
theorem allInLimit_iff {s s' : Store} {freshId : UserId} {now : Time.Instant} {call : Call}
    {outcome : Outcome} (hmade : Made s freshId now call outcome s')
    (hcall : call.validate = .ok ()) (hs : AllInLimit s.users) :
    AllInLimit s'.users ↔ ∀ name ∈ broughtBy call, name.length ≤ 50 := by
  cases hmade with
  | created input _ =>
    obtain ⟨hfirst, hlast, -⟩ := Validation.checkNew_eq_ok.mp hcall
    simp only [broughtBy, List.forall_mem_cons, List.not_mem_nil, false_implies, implies_true,
      and_true, ← inLimit_iff (Validation.isName_iff.mp hfirst),
      ← inLimit_iff (Validation.isName_iff.mp hlast)]
    refine ⟨fun h => h _ (List.mem_append_right _ (List.mem_singleton_self _)), fun h u hu => ?_⟩
    rcases List.mem_append.mp hu with hu | hu
    · exact hs u hu
    · exact List.mem_singleton.mp hu ▸ h
  | listed | found _ => exact iff_of_true hs fun _ h => nomatch h
  | @updated old changes hold _ =>
    obtain ⟨-, hfirst, hlast, -⟩ := Validation.checkChanges_eq_ok.mp hcall
    obtain ⟨hold₁, hold₂⟩ := hs old (Store.mem_of_find? hold)
    have hchanged : (InLimit (Store.changed old changes now).firstName ∧
        InLimit (Store.changed old changes now).lastName) ↔
        ∀ name ∈ broughtBy (.update old.id changes), name.length ≤ 50 := by
      simp only [broughtBy, List.forall_mem_append, Option.mem_toList]
      exact and_congr
        (inLimit_getD hold₁ fun name h =>
          Validation.isName_iff.mp ((Option.all_eq_true ..).mp hfirst name h))
        (inLimit_getD hold₂ fun name h =>
          Validation.isName_iff.mp ((Option.all_eq_true ..).mp hlast name h))
    rw [← hchanged]
    refine ⟨fun h => h _ (List.mem_map.mpr ⟨old, Store.mem_of_find? hold, if_pos rfl⟩),
      fun h u hu => ?_⟩
    -- only the user with the identifier of the old one is replaced
    obtain ⟨v, hv, rfl⟩ := List.mem_map.mp hu
    split
    · exact h
    · exact hs v hv
  | deleted _ =>
    exact iff_of_true (fun u hu => hs u (List.mem_filter.mp hu).1) fun _ h => nomatch h

/-- The names that an input brings, if it is accepted. -/
def Input.names (i : Input) : List String :=
  match accept i.command i.payload with
  | .ok call => broughtBy call
  | .error _ => []

/-- Only an input that changes the users can bring a name that is too long. -/
theorem Input.allInLimit_iff (i : Input) {s : Store} (hs : AllInLimit s.users) :
    AllInLimit (i.dispatch s).2.users ↔ (i.Changes s → ∀ name ∈ i.names, name.length ≤ 50) := by
  rw [dispatch_eq, Changes, result]
  obtain ⟨e, hresult, -⟩ | ⟨call, outcome, s', haccept, hresult, hmade⟩ :=
    result_cases i.command i.payload i.fresh s
  · rw [hresult]
    refine iff_of_true hs ?_
    rintro ⟨_, h, -⟩
    cases h
  · rw [hresult, Server.allInLimit_iff hmade (accept_eq_ok haccept).2 hs, names, haccept]
    cases hmade with
    | created | updated | deleted => exact ⟨fun h _ => h, fun h => h ⟨_, rfl, trivial⟩⟩
    | listed | found => exact ⟨fun h _ => h, fun _ => List.forall_mem_nil _⟩

/-! ## Along a run -/

/-- Every input keeps all users valid, whatever identifiers and readings of the clock it uses. -/
theorem valid_dispatch {s : Store} (hs : ∀ u ∈ s.users, u.Valid) (i : Input) :
    ∀ u ∈ (i.dispatch s).2.users, u.Valid := by
  rcases i.dispatch_cases s with hsame | ⟨call, outcome, haccept, hmade⟩
  · rwa [hsame]
  · exact hmade.valid hs (accept_eq_ok haccept).2

theorem valid_after {s : Store} (hs : ∀ u ∈ s.users, u.Valid) (inputs : List Input) :
    ∀ u ∈ (after s inputs).users, u.Valid := by
  induction inputs generalizing s with
  | nil => exact hs
  | cons i inputs ih => exact ih (valid_dispatch hs i)

/-- Somebody whose data keep the rules is stored as the first user. -/
theorem users_create {input : NewUser} (h : Validation.checkNew input = .ok ()) (n : Nat) :
    (after .empty [.create n input]).users =
      [Store.newUser input (Fresh.nth n).userId (Fresh.nth n).storedAt] := by
  have hread : data? NewUser (Input.create n input).payload = .ok input := by
    rw [data?, Input.create, (Json.faithful _).decode_encode]
  have haccept : accept .create (Input.create n input).payload = .ok (.create input) := by
    rw [accept, hread, ok_bind, ensure_eq_ok.mpr h]
    rfl
  have hresult : (Input.create n input).result .empty =
      carryOut .empty (.create input) (Fresh.nth n) := by
    show result .create (Input.create n input).payload (Fresh.nth n) .empty = _
    rw [result, haccept]
  show ((Input.create n input).dispatch .empty).2.users = _
  rw [Input.dispatch_eq, hresult]
  rfl

/-- Ada under another name. -/
def renamed (first last : String) : NewUser := { ada with firstName := first, lastName := last }

theorem checkNew_renamed {first last : String} (hfirst : SpacedName first)
    (hlast : SpacedName last) : Validation.checkNew (renamed first last) = .ok () := by
  have hemail : Validation.isEmail ada.email = true := by decide +kernel
  refine Validation.checkNew_eq_ok.mpr ⟨?_, ?_, hemail, rfl, rfl⟩
  · exact Validation.isName_iff.mpr (spacedName_iff.mp hfirst)
  · exact Validation.isName_iff.mpr (spacedName_iff.mp hlast)

/-- All users that a run stores, and all of whom it tells, have names in the limit. -/
def StaysInLimit (s : Store) : List Input → Prop
  | [] => True
  | i :: inputs => AllInLimit (i.dispatch s).2.users ∧ AllInLimit (i.told s) ∧
      StaysInLimit (i.dispatch s).2 inputs

/-- No name that a run stores comes with so many blanks that it is too long. -/
def BringsShortNames (s : Store) : List Input → Prop
  | [] => True
  | i :: inputs => (i.Changes s → ∀ name ∈ i.names, name.length ≤ 50) ∧
      BringsShortNames (i.dispatch s).2 inputs

theorem staysInLimit_iff {s : Store} (hs : AllInLimit s.users) (inputs : List Input) :
    StaysInLimit s inputs ↔ BringsShortNames s inputs := by
  induction inputs generalizing s with
  | nil => exact Iff.rfl
  | cons i inputs ih =>
    rw [StaysInLimit, BringsShortNames, ← i.allInLimit_iff hs]
    refine and_congr_right fun hnext => ?_
    rw [ih hnext]
    refine and_iff_right fun u hu => ?_
    -- who is told of was in the store before or is there now
    exact (Input.mem_of_told hu).elim (hs u) (hnext u)

/-- **The names that can be stored.** Whatever the payloads hold, the names of every user in the
store, and of every user of whom an answer or an event tells, are of two to fifty characters between
blanks; and any two names that are so can be a user's. With their blanks they stay within fifty
characters if and only if the names that are brought do. -/
theorem stored_names_spaced (inputs : List Input) (i : Input) (first last : String) :
    (∀ u ∈ (after .empty inputs).users ++ i.told (after .empty inputs), u.Named) ∧
      (StaysInLimit .empty inputs ↔ BringsShortNames .empty inputs) ∧
      (SpacedName first → SpacedName last →
        ∃ inputs, ∃ u ∈ (after .empty inputs).users, u.firstName = first ∧ u.lastName = last) := by
  have hvalid : ∀ u ∈ (after .empty inputs).users, u.Valid :=
    valid_after (s := .empty) (fun _ hu => nomatch hu) inputs
  have hlimit : AllInLimit Store.empty.users := fun _ hu => nomatch hu
  refine ⟨fun u hu => ?_, staysInLimit_iff hlimit inputs, fun hfirst hlast => ?_⟩
  · rcases List.mem_append.mp hu with hu | hu
    · exact (hvalid u hu).named
    · rcases Input.mem_of_told hu with hu | hu
      · exact (hvalid u hu).named
      · exact (valid_dispatch hvalid i u hu).named
  · refine ⟨[.create 0 (renamed first last)], Store.newUser (renamed first last)
      (Fresh.nth 0).userId (Fresh.nth 0).storedAt, ?_, rfl, rfl⟩
    rw [users_create (checkNew_renamed hfirst hlast) 0]
    exact List.mem_singleton_self _

/-- A short name with fifty blanks behind it. -/
def padded : String := String.ofList ("Jo".toList ++ List.replicate 50 ' ')

/-- It is one that can be stored. -/
theorem stored_names_spaced_padded :
    SpacedName padded ∧ SpacedName "Byron" ∧
      (∃ inputs, ∃ u ∈ (after .empty inputs).users,
        u.firstName = padded ∧ u.lastName = "Byron") ∧
      (∀ u ∈ (after .empty [.create 0 (renamed padded "Byron")]).users, u.Named) ∧
      StaysInLimit .empty [.create 0 ada, .create 1 (renamed "  Ada" "Byron ")] := by
  have hfirst : SpacedName padded :=
    spacedName_iff.mpr (Validation.isName_iff.mp (by decide +kernel))
  have hlast : SpacedName "Byron" :=
    spacedName_iff.mpr (Validation.isName_iff.mp (by decide +kernel))
  have hshort : BringsShortNames .empty [.create 0 ada, .create 1 (renamed "  Ada" "Byron ")] :=
    ⟨fun _ => by decide +kernel, fun _ => by decide +kernel, trivial⟩
  obtain ⟨hnamed, -, hstored⟩ := stored_names_spaced [.create 0 (renamed padded "Byron")]
    (.create 1 ada) padded "Byron"
  exact ⟨hfirst, hlast, hstored hfirst hlast,
    fun u hu => hnamed u (List.mem_append_left _ hu),
    (stored_names_spaced _ (.create 1 ada) "" "").2.1.mpr hshort⟩

/-- **A stored name can be longer than fifty characters**, its blanks counted. -/
theorem stored_name_too_long : ¬ ∀ inputs, AllInLimit (after .empty inputs).users := by
  intro h
  have hlength : ((after .empty [.create 0 (renamed padded "Byron")]).users.map
      (·.firstName.length)) = [52] := by decide +kernel
  obtain ⟨u, hu, hu'⟩ := List.mem_map.mp (hlength ▸ List.mem_singleton_self 52)
  have hle : u.firstName.length ≤ 50 := (h _ u hu).1.2
  omega

end Server

end UserDirectory
