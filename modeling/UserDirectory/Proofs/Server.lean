import UserDirectory.Proofs.Envelope
import UserDirectory.Proofs.Store
import UserDirectory.Proofs.Validation
import UserDirectory.Server

/-!
# What becomes of a delivery

A delivery is read and checked, carried out, answered and announced. `result` is what it came to
before it was written down, and `result_cases` says all that this can be: an error with the store
untouched, or an operation of the store that was made. Whatever is answered and announced is read
back as what it came to, so a reader on the other side of the bus sees just that.

`dispatch_all_or_nothing` puts these together.
-/

namespace UserDirectory

open Json (OfTree ToTree NeverNull faithful)

/-- The rules that an operation must keep before the store is asked. -/
def Call.validate : Call → Except Validation.Rule Unit
  | .create input => Validation.checkNew input
  | .update _ changes => Validation.checkChanges changes
  | .list | .get _ | .delete _ => .ok ()

namespace Server

open Store (Outcome Made Holds newUser changed)

/-! ## Reading and checking -/

theorem ok_bind {ε α β : Type} (a : α) (f : α → Except ε β) : (Except.ok a >>= f) = f a := rfl

theorem bind_eq_ok {ε α β : Type} {x : Except ε α} {f : α → Except ε β} {b : β} :
    (x >>= f) = .ok b ↔ ∃ a, x = .ok a ∧ f a = .ok b := by
  cases x with
  | error e => exact ⟨fun h => (nomatch h), fun ⟨_, h, _⟩ => (nomatch h)⟩
  | ok a => exact ⟨fun h => ⟨a, rfl, h⟩, fun ⟨_, ha, h⟩ => by cases ha; exact h⟩

theorem bind_eq_error {ε α β : Type} {x : Except ε α} {f : α → Except ε β} {e : ε}
    (h : (x >>= f) = .error e) : x = .error e ∨ ∃ a, x = .ok a ∧ f a = .error e := by
  cases x with
  | error e' =>
    cases h
    exact .inl rfl
  | ok a => exact .inr ⟨a, rfl, h⟩

theorem ensure_eq_ok {α : Type} {r : Except Validation.Rule α} {a : α} :
    ensure r = .ok a ↔ r = .ok a := by
  cases r with
  | ok b =>
    -- the two results have different types of errors
    constructor
    · exact fun h => congrArg Except.ok (Except.ok.inj h)
    · exact fun h => congrArg Except.ok (Except.ok.inj h)
  | error rule => exact ⟨fun h => (nomatch h), fun h => (nomatch h)⟩

/-- An accepted operation belongs to its command and keeps the rules. -/
theorem accept_eq_ok {command : Command} {payload : Octets} {call : Call}
    (h : accept command payload = .ok call) : call.command = command ∧ call.validate = .ok () := by
  cases command with
  | create =>
    obtain ⟨input, -, h⟩ := bind_eq_ok.mp h
    obtain ⟨_, hcheck, h⟩ := bind_eq_ok.mp h
    cases h
    exact ⟨rfl, ensure_eq_ok.mp hcheck⟩
  | list =>
    obtain ⟨_, -, h⟩ := bind_eq_ok.mp h
    cases h
    exact ⟨rfl, rfl⟩
  | get | delete =>
    obtain ⟨_, -, h⟩ := bind_eq_ok.mp h
    obtain ⟨_, -, h⟩ := bind_eq_ok.mp h
    cases h
    exact ⟨rfl, rfl⟩
  | update =>
    obtain ⟨_, -, h⟩ := bind_eq_ok.mp h
    obtain ⟨_, -, h⟩ := bind_eq_ok.mp h
    obtain ⟨_, hcheck, h⟩ := bind_eq_ok.mp h
    cases h
    exact ⟨rfl, ensure_eq_ok.mp hcheck⟩

theorem data?_eq_error {α : Type} [OfTree α] [Omissible α] {payload : Octets} {e : CommandError}
    (h : data? α payload = .error e) : e = unreadable := by
  unfold data? at h
  split at h
  · cases h
  · exact (Except.error.inj h).symm

theorem ensure_eq_error {α : Type} {r : Except Validation.Rule α} {e : CommandError}
    (h : ensure r = .error e) : ∃ rule : Validation.Rule, e = refusal rule.message := by
  cases r with
  | ok a => cases h
  | error rule => exact ⟨rule, (Except.error.inj h).symm⟩

/-- A payload that is not accepted cannot be read or breaks a rule. -/
theorem accept_eq_error {command : Command} {payload : Octets} {e : CommandError}
    (h : accept command payload = .error e) :
    e = unreadable ∨ ∃ rule : Validation.Rule, e = refusal rule.message := by
  cases command with
  | list =>
    rcases bind_eq_error h with h | ⟨_, -, h⟩
    · exact .inl (data?_eq_error h)
    · cases h
  | create | get | delete =>
    rcases bind_eq_error h with h | ⟨_, -, h⟩
    · exact .inl (data?_eq_error h)
    · rcases bind_eq_error h with h | ⟨_, -, h⟩
      · exact .inr (ensure_eq_error h)
      · cases h
  | update =>
    rcases bind_eq_error h with h | ⟨_, -, h⟩
    · exact .inl (data?_eq_error h)
    · rcases bind_eq_error h with h | ⟨_, -, h⟩
      · exact .inr (ensure_eq_error h)
      · rcases bind_eq_error h with h | ⟨_, -, h⟩
        · exact .inr (ensure_eq_error h)
        · cases h

/-! ## What a delivery comes to -/

/-- What a delivery comes to before its answer and its event are written down. -/
def result (command : Command) (payload : Octets) (fresh : Fresh) (store : Store) :
    Except CommandError Outcome × Store :=
  match accept command payload with
  | .error e => (.error e, store)
  | .ok call => carryOut store call fresh

theorem dispatch_eq (command : Command) (payload : Octets) (fresh : Fresh) (store : Store) :
    dispatch command payload fresh store =
      (conclude (result command payload fresh store).1 fresh,
        (result command payload fresh store).2) := by
  unfold dispatch result
  cases accept command payload <;> rfl

/-- **A delivery comes to an operation that was made, or to an error and no change.** -/
theorem result_cases (command : Command) (payload : Octets) (fresh : Fresh) (store : Store) :
    (∃ e : CommandError, result command payload fresh store = (.error e, store) ∧
        e.code.Proper) ∨
      ∃ call outcome store', accept command payload = .ok call ∧
        result command payload fresh store = (.ok outcome, store') ∧
        Made store fresh.userId fresh.storedAt call outcome store' := by
  cases haccept : accept command payload with
  | error e =>
    refine .inl ⟨e, by rw [result, haccept], ?_⟩
    rcases accept_eq_error haccept with rfl | ⟨rule, rfl⟩ <;> rfl
  | ok call =>
    obtain ⟨outcome, store', hperform, hmade⟩ | ⟨e, hperform, he⟩ :=
      store.perform_cases call fresh.userId fresh.storedAt
    · refine .inr ⟨call, outcome, store', rfl, ?_, hmade⟩
      rw [result, haccept]
      show carryOut store call fresh = _
      rw [carryOut, hperform]
      rfl
    · refine .inl ⟨storeFailure call.command e, ?_, ?_⟩
      · rw [result, haccept]
        show carryOut store call fresh = _
        rw [carryOut, hperform]
        rfl
      · rcases he with rfl | rfl <;> rfl

/-! ## What the reader of an answer sees -/

/-- The answer of a command that failed tells the error, whatever data its reader hopes for. -/
theorem decode_failureReply {e : CommandError} (he : e.code.Proper) {α : Type} [OfTree α] :
    Json.decode (failureReply e) = some (CommandResponse.failure e : CommandResponse α) := by
  -- nothing is written for the data of a failure, so any way to write it will do
  let _ : ToTree α := ⟨fun _ => .bool true⟩
  exact (faithful_failure (α := α) he).decode_encode

theorem decode_success {α : Type} [ToTree α] [OfTree α] [Json.Lawful α] [NeverNull α] (a : α) :
    Json.decode (Json.encode (CommandResponse.success a)) = some (CommandResponse.success a) :=
  (faithful_success a).decode_encode

theorem decode_event {α : Type} [ToTree α] [OfTree α] [Json.Lawful α] (eventId : Uuid)
    (kind : EventKind) (now : Time.Instant) (data : α) :
    Json.decode (Json.encode (Event.of eventId kind now data)) =
      some (Event.of eventId kind now data) :=
  (faithful_event (faithful data) rfl).decode_encode

/-! ## All or nothing -/

/-- A delivery that was refused: its answer is read as an error by every reader, no event came of
it, and the store is the same. -/
def Refused (answer : Octets) (event : Option (EventKind × Octets)) (before after : Store) : Prop :=
  (∃ e : CommandError, ∀ (α : Type) [OfTree α],
      Json.decode answer = some (CommandResponse.failure e : CommandResponse α)) ∧
    event = none ∧ after = before

/-- An event that is read as one of a type with the given data, for the channel of its kind. -/
def Announces {α : Type} [OfTree α] (channel type : String) (data : α)
    (event : Option (EventKind × Octets)) : Prop :=
  ∃ kind payload, event = some (kind, payload) ∧ kind.channel = channel ∧
    ∃ e : Event α, Json.decode payload = some e ∧ e.type = type ∧ e.data = data

/-- A user as an input and nothing else makes it: an empty phone number is none, and who is not said
to be inactive is active. -/
structure CreatedFrom (input : NewUser) (fresh : Fresh) (u : User) : Prop where
  id : u.id = fresh.userId
  firstName : u.firstName = input.firstName
  lastName : u.lastName = input.lastName
  email : u.email = input.email
  phone : ∀ number, u.phone = some number ↔ input.phone = some number ∧ number ≠ ""
  age : u.age = input.age
  status : u.status = input.status.getD .active
  createdAt : u.createdAt = fresh.storedAt
  updatedAt : u.updatedAt = fresh.storedAt

/-- A user with the fields that changes set, and with its own where they set none; an empty phone
number takes the phone away. -/
structure ChangedBy (old : User) (changes : UserChanges) (fresh : Fresh) (u : User) : Prop where
  id : u.id = old.id
  firstName : u.firstName = changes.firstName.getD old.firstName
  lastName : u.lastName = changes.lastName.getD old.lastName
  email : u.email = changes.email.getD old.email
  phoneKept : changes.phone = none → u.phone = old.phone
  phone : changes.phone.isSome = true →
    ∀ number, u.phone = some number ↔ changes.phone = some number ∧ number ≠ ""
  age : u.age = changes.age.or old.age
  status : u.status = changes.status.getD old.status
  createdAt : u.createdAt = old.createdAt
  updatedAt : u.updatedAt = fresh.storedAt

/-- A delivery that was carried out: what its answer and its event are read as, and the one change
of the users. -/
inductive CarriedOut (payload : Octets) (fresh : Fresh) (answer : Octets)
    (event : Option (EventKind × Octets)) (before after : Store) : Command → Prop
  | created {input : NewUser} {u : User}
      (haccept : accept .create payload = .ok (.create input))
      (hanswer : Json.decode answer = some (CommandResponse.success u))
      (hevent : Announces "user.event.created" "user.created" u event)
      (hu : CreatedFrom input fresh u)
      (hafter : after.users = before.users ++ [u]) : CarriedOut _ _ _ _ _ _ .create
  | listed (haccept : accept .list payload = .ok .list)
      (hanswer : Json.decode answer = some (CommandResponse.success before.users))
      (hevent : event = none) (hafter : after = before) : CarriedOut _ _ _ _ _ _ .list
  | found {u : User} (haccept : accept .get payload = .ok (.get u.id))
      (hanswer : Json.decode answer = some (CommandResponse.success u)) (hu : u ∈ before.users)
      (hevent : event = none) (hafter : after = before) : CarriedOut _ _ _ _ _ _ .get
  | updated {old u : User} {changes : UserChanges} {pre post : List User}
      (haccept : accept .update payload = .ok (.update old.id changes))
      (hanswer : Json.decode answer = some (CommandResponse.success u))
      (hevent : Announces "user.event.updated" "user.updated" u event)
      (hu : ChangedBy old changes fresh u)
      (hbefore : before.users = pre ++ old :: post)
      (hafter : after.users = pre ++ u :: post) : CarriedOut _ _ _ _ _ _ .update
  | deleted {u : User} {pre post : List User}
      (haccept : accept .delete payload = .ok (.delete u.id))
      (hanswer : Json.decode answer = some (CommandResponse.success Deletion.done))
      (hevent : Announces "user.event.deleted" "user.deleted" (⟨u.id⟩ : DeletedUser) event)
      (hbefore : before.users = pre ++ u :: post)
      (hafter : after.users = pre ++ post) : CarriedOut _ _ _ _ _ _ .delete

theorem announces_of {α : Type} [ToTree α] [OfTree α] [Json.Lawful α] (kind : EventKind)
    (fresh : Fresh) (data : α) :
    Announces kind.channel kind.typeName data
      (some (kind, Json.encode (Event.of fresh.eventId kind fresh.announcedAt data))) :=
  ⟨kind, _, rfl, rfl, _, decode_event .., rfl, rfl⟩

theorem createdFrom_newUser (input : NewUser) (fresh : Fresh) :
    CreatedFrom input fresh (newUser input fresh.userId fresh.storedAt) :=
  ⟨rfl, rfl, rfl, rfl, fun _ => Store.storedPhone_eq_some_iff, rfl, rfl, rfl, rfl⟩

theorem changedBy_changed (old : User) (changes : UserChanges) (fresh : Fresh) :
    ChangedBy old changes fresh (changed old changes fresh.storedAt) := by
  refine ⟨rfl, rfl, rfl, rfl, fun hnone => ?_, fun hsome number => ?_, rfl, rfl, rfl, rfl⟩
  · simp [changed, hnone]
  · simp only [changed, hsome, if_true]
    exact Store.storedPhone_eq_some_iff

/-- **A delivery is carried out as a whole or refused as a whole.** -/
theorem dispatch_all_or_nothing {before : Store} (hbefore : before.Reachable) (command : Command)
    (payload : Octets) (fresh : Fresh) :
    let ((answer, event), after) := dispatch command payload fresh before
    Refused answer event before after ∨
      CarriedOut payload fresh answer event before after command := by
  rw [dispatch_eq]
  obtain ⟨e, hresult, he⟩ | ⟨call, outcome, after, haccept, hresult, hmade⟩ :=
    result_cases command payload fresh before
  · rw [hresult]
    exact .inl ⟨⟨e, fun _ => decode_failureReply he⟩, rfl, rfl⟩
  · rw [hresult]
    right
    obtain ⟨rfl, -⟩ := accept_eq_ok haccept
    have hids := hbefore.distinctIds
    -- identifiers are distinct, so what is replaced or removed stands at one place
    cases hmade with
    | created input _ =>
      exact .created haccept (decode_success _) (announces_of .created fresh _)
        (createdFrom_newUser input fresh) rfl
    | listed => exact .listed haccept (decode_success _) rfl rfl
    | found hu => exact .found haccept (decode_success _) (Store.mem_of_find? hu) rfl rfl
    | updated changes hu _ =>
      obtain ⟨pre, post, hsplit, hne⟩ := Store.exists_split hids (Store.mem_of_find? hu)
      exact .updated haccept (decode_success _) (announces_of .updated fresh _)
        (changedBy_changed _ changes fresh) hsplit (Store.users_replace hsplit hne rfl)
    | deleted hu =>
      obtain ⟨pre, post, hsplit, hne⟩ := Store.exists_split hids (Store.mem_of_find? hu)
      exact .deleted haccept (decode_success _) (announces_of .deleted fresh _) hsplit
        (Store.users_without hsplit hne)

/-- The identifiers and readings of the `n`-th delivery of a run in which none is used twice. -/
def Fresh.nth (n : Nat) : Fresh where
  userId := ⟨.ofSerial (2 * n)⟩
  storedAt := .onDay ⟨2025, 3, 1, by decide⟩ (2 * n)
  eventId := .ofSerial (2 * n + 1)
  announcedAt := .onDay ⟨2025, 3, 1, by decide⟩ (2 * n + 1)

/-- Somebody to be created. -/
def ada : NewUser := { firstName := "Ada", lastName := "Byron", email := "ada@notes.org" }

/-- One user is stored, and a request comes in to remove it. -/
theorem dispatch_all_or_nothing_one_user :
    let id := (Fresh.nth 0).userId
    let before := (Store.empty.perform (.create ada) id (Fresh.nth 0).storedAt).2
    let payload := Json.encode (⟨"r", ⟨id.text⟩⟩ : CommandRequest IdRequest)
    before.users.length = 1 ∧
      let ((answer, event), after) := dispatch .delete payload (Fresh.nth 1) before
      Refused answer event before after ∨
        CarriedOut payload (Fresh.nth 1) answer event before after .delete :=
  ⟨rfl, dispatch_all_or_nothing (.perform _ _ _ .empty fun _ hu => nomatch hu) .delete _
    (Fresh.nth 1)⟩

end Server

end UserDirectory
