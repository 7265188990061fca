import UserDirectory.Proofs.Server

/-!
# Runs of the command server

A run is a list of deliveries that are handled one after another, whatever their payloads hold. Two
things are asked of the world around it: the identifiers given to new users are unused, and the
clock does not go back.

`Sound` is what then holds of the store at every moment. The step is `Made.sound`, one case for each
operation; it rests on `Made.mem_users`, which says where each user of the store after an operation
comes from.
-/

namespace UserDirectory

namespace Time.Instant

theorem le_refl (t : Instant) : t ≤ t := List.le_refl t.fields

end Time.Instant

open Store (Outcome Made newUser changed)

/-! ## The invariant of the store -/

namespace Store

/-- Every user of the store after an operation was there before, is new, or is a changed one. -/
theorem Made.mem_users {s s' : Store} {freshId : UserId} {now : Time.Instant} {call : Call}
    {outcome : Outcome} (hmade : Made s freshId now call outcome s') {u : User}
    (hu : u ∈ s'.users) :
    u ∈ s.users ∨ (∃ input, call = .create input ∧ u = newUser input freshId now) ∨
      ∃ old ∈ s.users, ∃ changes, call = .update old.id changes ∧ u = changed old changes now := by
  cases hmade with
  | created input _ =>
    rcases List.mem_append.mp hu with hu | hu
    · exact .inl hu
    · exact .inr (.inl ⟨input, rfl, List.mem_singleton.mp hu⟩)
  | listed | found _ => exact .inl hu
  | @updated old changes hold _ =>
    -- only the user with the identifier of the old one is replaced
    obtain ⟨v, hv, rfl⟩ := List.mem_map.mp hu
    split
    · exact .inr (.inr ⟨old, mem_of_find? hold, changes, rfl, rfl⟩)
    · exact .inl hv
  | deleted _ => exact .inl (List.mem_filter.mp hu).1

/-- What holds of the store at every moment. -/
structure Sound (s : Store) : Prop where
  ids : s.DistinctIds
  emails : s.DistinctEmails
  valid : ∀ u ∈ s.users, u.Valid
  updatedLast : ∀ u ∈ s.users, u.createdAt ≤ u.updatedAt
  ordered : s.users.Pairwise fun u v => u.createdAt ≤ v.createdAt

theorem sound_empty : empty.Sound where
  ids := .nil
  emails := .nil
  valid := fun _ hu => nomatch hu
  updatedLast := fun _ hu => nomatch hu
  ordered := .nil

/-- An operation that keeps the rules keeps all users valid. -/
theorem Made.valid {s s' : Store} {freshId : UserId} {now : Time.Instant} {call : Call}
    {outcome : Outcome} (hmade : Made s freshId now call outcome s')
    (hs : ∀ u ∈ s.users, u.Valid) (hcall : call.validate = .ok ()) : ∀ u ∈ s'.users, u.Valid := by
  intro u hu
  rcases hmade.mem_users hu with hu | ⟨input, rfl, rfl⟩ | ⟨old, hold, changes, rfl, rfl⟩
  · exact hs u hu
  · exact valid_newUser hcall freshId now
  · exact valid_changed (hs old hold) hcall now

/-- **An operation that keeps the rules keeps the store sound.** The clock shows no less than when
any of the users was created. -/
theorem Made.sound {s s' : Store} {freshId : UserId} {now : Time.Instant} {call : Call}
    {outcome : Outcome} (hmade : Made s freshId now call outcome s') (hs : s.Sound)
    (hcall : call.validate = .ok ()) (hfresh : ∀ u ∈ s.users, u.id ≠ freshId)
    (hnow : ∀ u ∈ s.users, u.createdAt ≤ now) : s'.Sound where
  ids := hmade.distinctIds hs.ids hfresh
  emails := hmade.distinctEmails hs.ids hs.emails
  valid := hmade.valid hs.valid hcall
  updatedLast := by
    intro u hu
    rcases hmade.mem_users hu with hu | ⟨input, rfl, rfl⟩ | ⟨old, hold, changes, rfl, rfl⟩
    · exact hs.updatedLast u hu
    · exact now.le_refl
    · exact hnow old hold
  ordered := by
    cases hmade with
    | created input _ => exact pairwise_append_new hs.ordered hnow
    | listed | found _ => exact hs.ordered
    | updated changes hu _ =>
      exact pairwise_replace hs.ids (mem_of_find? hu) rfl hs.ordered (fun _ _ _ h => h)
        fun _ _ _ h => h
    | deleted _ => exact pairwise_without _ hs.ordered

end Store

/-! ## Runs -/

namespace Server

/-- A delivery that comes in, with what it may use up. -/
structure Input where
  command : Command
  payload : Octets
  fresh : Fresh
  deriving DecidableEq

namespace Input

/-- What is answered and announced, and the store afterwards. -/
def dispatch (i : Input) (s : Store) : (Octets × Option (EventKind × Octets)) × Store :=
  Server.dispatch i.command i.payload i.fresh s

def result (i : Input) (s : Store) : Except CommandError Outcome × Store :=
  Server.result i.command i.payload i.fresh s

theorem dispatch_eq (i : Input) (s : Store) :
    i.dispatch s = (conclude (i.result s).1 i.fresh, (i.result s).2) :=
  Server.dispatch_eq ..

/-- An input either leaves the store alone or makes an operation that it was accepted as. -/
theorem dispatch_cases (i : Input) (s : Store) :
    (i.dispatch s).2 = s ∨
      ∃ call outcome, accept i.command i.payload = .ok call ∧
        Made s i.fresh.userId i.fresh.storedAt call outcome (i.dispatch s).2 := by
  rw [dispatch_eq, result]
  obtain ⟨e, hresult, -⟩ | ⟨call, outcome, s', haccept, hresult, hmade⟩ :=
    result_cases i.command i.payload i.fresh s
  · rw [hresult]
    exact .inl rfl
  · rw [hresult]
    exact .inr ⟨call, outcome, haccept, hmade⟩

/-- An input that succeeds in changing the users. -/
def Changes (i : Input) (s : Store) : Prop :=
  ∃ outcome, (i.result s).1 = .ok outcome ∧
    match outcome with
    | .created _ | .updated _ | .deleted _ => True
    | .listed _ | .found _ => False

/-- **There is an event if and only if there was a change.** -/
theorem isSome_event_iff (i : Input) (s : Store) :
    (i.dispatch s).1.2.isSome = true ↔ i.Changes s := by
  rw [dispatch_eq, Changes]
  cases (i.result s).1 with
  | error e => simp [conclude, Except.toOption]
  | ok outcome => cases outcome <;> simp [conclude, announce, Except.toOption]

/-- Every user afterwards continues one from before, or was made with the fresh identifier. -/
theorem origin (i : Input) {s : Store} {u : User} (hu : u ∈ (i.dispatch s).2.users) :
    (∃ v ∈ s.users, v.id = u.id ∧ v.createdAt = u.createdAt) ∨
      (u.id = i.fresh.userId ∧ u.createdAt = i.fresh.storedAt) := by
  rcases i.dispatch_cases s with hsame | ⟨call, outcome, -, hmade⟩
  · exact .inl ⟨u, hsame ▸ hu, rfl, rfl⟩
  · rcases hmade.mem_users hu with hu | ⟨input, -, rfl⟩ | ⟨old, hold, changes, -, rfl⟩
    · exact .inl ⟨u, hu, rfl, rfl⟩
    · exact .inr ⟨rfl, rfl⟩
    · exact .inl ⟨old, hold, rfl, rfl⟩

end Input

/-- The store after deliveries that were handled one after another. -/
def after (s : Store) (inputs : List Input) : Store :=
  inputs.foldl (fun s i => (i.dispatch s).2) s

theorem after_append (s : Store) (is js : List Input) :
    after s (is ++ js) = after (after s is) js := List.foldl_append

/-- Each delivery is given an identifier that no user has when it is handled. -/
def IdsFresh (s : Store) : List Input → Prop
  | [] => True
  | i :: inputs => (∀ u ∈ s.users, u.id ≠ i.fresh.userId) ∧ IdsFresh (i.dispatch s).2 inputs

/-- The clock, read once for each delivery, does not go back. -/
def ClockForward (inputs : List Input) : Prop :=
  inputs.Pairwise fun i j => i.fresh.storedAt ≤ j.fresh.storedAt

/-- Identifiers that are never given twice are unused. -/
theorem idsFresh_of_nodup {s : Store} {inputs : List Input}
    (hold : ∀ i ∈ inputs, ∀ u ∈ s.users, u.id ≠ i.fresh.userId)
    (hnodup : (inputs.map (·.fresh.userId)).Nodup) : IdsFresh s inputs := by
  induction inputs generalizing s with
  | nil => trivial
  | cons i inputs ih =>
    obtain ⟨hnew, hnodup⟩ := List.nodup_cons.mp hnodup
    refine ⟨hold i List.mem_cons_self, ih (fun j hj u hu => ?_) hnodup⟩
    rcases i.origin hu with ⟨v, hv, heq, -⟩ | ⟨heq, -⟩
    · exact heq ▸ hold j (List.mem_cons_of_mem _ hj) v hv
    · intro heq'
      exact hnew (List.mem_map.mpr ⟨j, hj, heq'.symm.trans heq⟩)

theorem sound_dispatch {s : Store} {i : Input} (hs : s.Sound)
    (hfresh : ∀ u ∈ s.users, u.id ≠ i.fresh.userId)
    (hnow : ∀ u ∈ s.users, u.createdAt ≤ i.fresh.storedAt) : (i.dispatch s).2.Sound := by
  rcases i.dispatch_cases s with hsame | ⟨call, outcome, haccept, hmade⟩
  · rwa [hsame]
  · exact hmade.sound hs (accept_eq_ok haccept).2 hfresh hnow

/-- A run keeps the store sound; no user was created after a delivery that is still to come. -/
theorem sound_run {s : Store} {inputs : List Input} (hs : s.Sound) (hfresh : IdsFresh s inputs)
    (hclock : ClockForward inputs)
    (hnow : ∀ i ∈ inputs, ∀ u ∈ s.users, u.createdAt ≤ i.fresh.storedAt) :
    (after s inputs).Sound := by
  induction inputs generalizing s with
  | nil => exact hs
  | cons i inputs ih =>
    obtain ⟨hlater, hclock⟩ := List.pairwise_cons.mp hclock
    -- what this delivery creates is created no later than the deliveries to come
    refine ih (sound_dispatch hs hfresh.1 (hnow i List.mem_cons_self)) hfresh.2 hclock ?_
    intro j hj u hu
    rcases i.origin hu with ⟨v, hv, -, heq⟩ | ⟨-, heq⟩
    · exact heq ▸ hnow j (List.mem_cons_of_mem _ hj) v hv
    · exact heq ▸ hlater j hj

/-- **The store is sound after every run that starts without users.** -/
theorem sound_after {inputs : List Input} (hfresh : IdsFresh .empty inputs)
    (hclock : ClockForward inputs) : (after .empty inputs).Sound :=
  sound_run Store.sound_empty hfresh hclock fun _ _ _ hu => nomatch hu

/-- The delivery that creates somebody, as the `n`-th of a run. -/
def Input.create (n : Nat) (input : NewUser) : Input :=
  ⟨.create, Json.encode (⟨"r", input⟩ : CommandRequest NewUser), Fresh.nth n⟩

/-- Of two people with one address, only the first is created. -/
theorem sound_after_two_creations :
    let inputs := [Input.create 0 ada, Input.create 1 { ada with email := "ADA@notes.org" }]
    (after .empty inputs).users.length = 1 ∧ IdsFresh .empty inputs ∧ ClockForward inputs ∧
      (after .empty inputs).Sound := by
  have hfresh : IdsFresh .empty
      [Input.create 0 ada, Input.create 1 { ada with email := "ADA@notes.org" }] :=
    idsFresh_of_nodup (fun _ _ _ hu => nomatch hu) (by decide)
  have hclock : ClockForward
      [Input.create 0 ada, Input.create 1 { ada with email := "ADA@notes.org" }] := by
    simp only [ClockForward, List.pairwise_cons, List.mem_singleton, forall_eq]
    exact ⟨by decide, by simp⟩
  exact ⟨by decide +kernel, hfresh, hclock, sound_after hfresh hclock⟩

end Server

end UserDirectory
