import UserDirectory.Proofs.Server.Desk

/-!
# Events mirror the store

Whoever reads the events in the order in which they are published can keep a list of users of their
own: a created user is put at its end, an updated one takes the place of the one with its
identifier, a deleted one is taken out. `mirrors_of_steps` says that this list is the store's,
field by field, after every delivery, whatever the payloads hold. It also says that the reader is
never told of anybody out of turn: only a created user is new to him, and he has any other.

The invariant is `Mirrors`. A step is a delivery; it publishes no event if it makes no change, and
the one event of its change otherwise (`mirrors_dispatch`, one case for each operation).
-/

namespace UserDirectory.Server

open Store (Made)

/-! ## A reader of events -/

/-- What a reader is told by an event. -/
inductive Change
  | created (u : User)
  | updated (u : User)
  | deleted (id : UserId)

namespace Change

/-- The data of an event, read from its document; the document must bear the type of the kind under
which it was published. -/
def data? (α : Type) [Json.OfTree α] (kind : EventKind) (payload : Octets) : Option α :=
  (Json.decode (α := Event α) payload).bind fun e =>
    if e.type = kind.typeName then some e.data else none

/-- What an event tells. -/
def ofEvent? : EventKind × Octets → Option Change
  | (.created, payload) => (data? User .created payload).map .created
  | (.updated, payload) => (data? User .updated payload).map .updated
  | (.deleted, payload) => (data? DeletedUser .deleted payload).map fun d => .deleted d.id

/-- The users after a change. -/
def apply (us : List User) : Change → List User
  | .created u => us ++ [u]
  | .updated u => us.map fun v => if v.id = u.id then u else v
  | .deleted id => us.filter (·.id != id)

/-- A change is in turn: a created user is a new one, any other is there. -/
def InTurn (us : List User) : Change → Prop
  | .created u => ∀ v ∈ us, v.id ≠ u.id
  | .updated u => ∃ v ∈ us, v.id = u.id
  | .deleted id => ∃ v ∈ us, v.id = id

end Change

/-- The users after an event; an event that cannot be read changes nothing. -/
def follow (us : List User) (event : EventKind × Octets) : List User :=
  ((Change.ofEvent? event).map (Change.apply us)).getD us

/-- The users of a reader who starts with none. -/
def mirror (events : List (EventKind × Octets)) : List User := events.foldl follow []

/-- A reader of the events has the users of the store, and every event could be read and was in
turn. -/
structure Mirrors (events : List (EventKind × Octets)) (store : Store) : Prop where
  users : mirror events = store.users
  inTurn : ∀ pre event post, events = pre ++ event :: post →
    ∃ change, Change.ofEvent? event = some change ∧ change.InTurn (mirror pre)

/-! ## One event -/

theorem data?_of {α : Type} [Json.ToTree α] [Json.OfTree α] [Json.Lawful α] (eventId : Uuid)
    (kind : EventKind) (now : Time.Instant) (data : α) :
    Change.data? α kind (Json.encode (Event.of eventId kind now data)) = some data := by
  rw [Change.data?, decode_event, Option.bind_some, if_pos]
  · rfl
  · rfl

theorem mirror_concat (events : List (EventKind × Octets)) (event : EventKind × Octets) :
    mirror (events ++ [event]) = follow (mirror events) event := by
  rw [mirror, List.foldl_append]
  rfl

/-- The mirror goes on with an event that is in turn. -/
theorem Mirrors.concat {events : List (EventKind × Octets)} {store store' : Store}
    (h : Mirrors events store) {event : EventKind × Octets} {change : Change}
    (hread : Change.ofEvent? event = some change) (hinTurn : change.InTurn store.users)
    (hstore' : change.apply store.users = store'.users) : Mirrors (events ++ [event]) store' where
  users := by
    rw [mirror_concat, follow, hread, h.users]
    exact hstore'
  inTurn := by
    intro pre e post hsplit
    rcases List.eq_nil_or_concat post with rfl | ⟨post, last, rfl⟩
    · -- the event is the last one
      obtain ⟨rfl, hevent⟩ := List.append_inj' hsplit rfl
      obtain rfl := (List.cons.inj hevent).1
      exact ⟨change, hread, h.users ▸ hinTurn⟩
    · have hsplit' : events ++ [event] = (pre ++ e :: post) ++ [last] := by
        rw [hsplit, List.concat_eq_append, List.append_assoc, List.cons_append]
      exact h.inTurn pre e post (List.append_inj' hsplit' rfl).1

/-! ## One delivery -/

/-- **A delivery that makes a change tells the reader of it**, and one that makes none tells him
nothing. -/
theorem mirrors_dispatch {events : List (EventKind × Octets)} {store : Store}
    (h : Mirrors events store) (i : Input) (hfresh : ∀ u ∈ store.users, u.id ≠ i.fresh.userId) :
    Mirrors (events ++ (i.dispatch store).1.2.toList) (i.dispatch store).2 := by
  rw [Input.dispatch_eq, Input.result]
  obtain ⟨e, hresult, -⟩ | ⟨call, outcome, store', -, hresult, hmade⟩ :=
    result_cases i.command i.payload i.fresh store
  · -- nothing was changed, and nothing is announced
    rw [hresult]
    show Mirrors (events ++ []) store
    rwa [List.append_nil]
  · rw [hresult]
    cases hmade with
    | created input _ =>
      have hread := data?_of i.fresh.eventId .created i.fresh.announcedAt
        (Store.newUser input i.fresh.userId i.fresh.storedAt)
      exact h.concat (congrArg (Option.map Change.created) hread) hfresh rfl
    | listed | found _ =>
      show Mirrors (events ++ []) store
      rwa [List.append_nil]
    | @updated u changes hu _ =>
      have hread := data?_of i.fresh.eventId .updated i.fresh.announcedAt
        (Store.changed u changes i.fresh.storedAt)
      exact h.concat (congrArg (Option.map Change.updated) hread)
        ⟨u, Store.mem_of_find? hu, rfl⟩ rfl
    | @deleted u hu =>
      have hread := data?_of i.fresh.eventId .deleted i.fresh.announcedAt (⟨u.id⟩ : DeletedUser)
      have htold : Change.ofEvent? (.deleted, Json.encode (Event.of i.fresh.eventId .deleted
          i.fresh.announcedAt (⟨u.id⟩ : DeletedUser))) = some (.deleted u.id) :=
        congrArg (Option.map fun d : DeletedUser => Change.deleted d.id) hread
      exact h.concat htold ⟨u, Store.mem_of_find? hu, rfl⟩ rfl

/-! ## Deliveries one after another -/

/-- The events among the calls on the bus, in the order in which they were published. -/
def published (calls : List BusCall) : List (EventKind × Octets) :=
  calls.filterMap fun
    | .published kind payload => some (kind, payload)
    | .responded _ | .released => none

theorem published_append (calls more : List BusCall) :
    published (calls ++ more) = published calls ++ published more := List.filterMap_append

/-- A delivery that is done has published its event, if there is one. -/
theorem published_of_done (d : Delivery) (answer : Octets) (event : Option (EventKind × Octets)) :
    published (d.responds answer ++ (Delivery.publishes event ++ [BusCall.released])) =
      event.toList := by
  unfold Delivery.responds
  split <;> cases event <;> rfl

namespace Desk

/-- A delivery is handled, whatever its payload holds; or something happens elsewhere on the bus,
which stays open. The identifier for a new user is one that no user has. -/
inductive Step : Desk → Desk → Prop
  | handle (k : Desk) (d : Delivery) (fresh : Fresh) (harrived : d.stage = .arrived)
      (hfresh : ∀ u ∈ k.shared.store.users, u.id ≠ fresh.userId) : Step k (k.handle d fresh none)
  | elsewhere (k : Desk) (broker : Broker) (hopen : broker.closed = false) :
      Step k { k with shared.broker := broker, history := k.history ++ [.elsewhere broker] }

inductive Steps : Desk → Desk → Prop
  | refl (k : Desk) : Steps k k
  | tail {k l m : Desk} : Steps k l → Step l m → Steps k m

/-- An open bus and a store without users, before anything was handled. -/
structure Starting (k : Desk) : Prop extends k.Open where
  store : k.shared.store = .empty
  history : k.history = []

/-- What holds between deliveries: the bus is open and what its history makes of the bus `b₀`, and
the events in that history mirror the store. -/
structure InStep (b₀ : Broker) (k : Desk) : Prop extends k.Open where
  accounted : Accounted b₀ k
  mirrors : Mirrors (published k.calls) k.shared.store

theorem inStep_step {b₀ : Broker} {k l : Desk} (h : InStep b₀ k) (hstep : Step k l) :
    InStep b₀ l := by
  cases hstep with
  | handle d fresh harrived hfresh =>
    have hcomes : d.comesTo fresh none k.shared.store =
        (d.input fresh).dispatch k.shared.store := d.comesTo_none fresh _
    obtain ⟨hcalled, hstore, hkeeps⟩ := handled fresh none harrived hcomes fun _ => h.toOpen
    refine ⟨hkeeps h.toOpen, hcalled.accounted h.accounted, ?_⟩
    rw [hcalled.calls_eq, hstore, published_append, published_of_done]
    exact mirrors_dispatch h.mirrors (d.input fresh) hfresh
  | elsewhere broker hclosed =>
    refine ⟨⟨hclosed, h.unmuted⟩, (BusEvent.foldl_after_elsewhere ..).symm, ?_⟩
    -- nobody called
    rw [calls, List.filterMap_append]
    show Mirrors (published (k.calls ++ [])) k.shared.store
    rw [List.append_nil]
    exact h.mirrors

theorem inStep_start {k : Desk} (h : k.Starting) : InStep k.shared.broker k where
  toOpen := h.toOpen
  accounted := by
    rw [Accounted, h.history]
    rfl
  mirrors := by
    rw [calls, h.history, h.store]
    refine ⟨rfl, ?_⟩
    intro pre event post hsplit
    cases pre <;> cases hsplit

theorem inStep_steps {b₀ : Broker} {k l : Desk} (h : InStep b₀ k) (hsteps : Steps k l) :
    InStep b₀ l := by
  induction hsteps with
  | refl => exact h
  | tail _ hstep ih => exact inStep_step ih hstep

/-- **The events mirror the store.** At every moment between deliveries, whoever followed the events
has the list of users that the store answers with. The events are those among the calls that the bus
went through, from the bus of the start on. -/
theorem mirrors_of_steps {start k : Desk} (hstart : start.Starting) (hsteps : Steps start k) :
    Mirrors (published k.calls) k.shared.store ∧
      (∀ freshId now, k.shared.store.perform .list freshId now =
        (.ok (.listed (mirror (published k.calls))), k.shared.store)) ∧
      k.shared.broker = k.history.foldl (BusEvent.after some) start.shared.broker := by
  have h := inStep_steps (inStep_start hstart) hsteps
  refine ⟨h.mirrors, fun freshId now => ?_, h.accounted⟩
  rw [h.mirrors.users]
  rfl

/-- The desk after requests that came in one after another. -/
def handles (k : Desk) (inputs : List Input) : Desk :=
  inputs.foldl (fun k i => k.handle ⟨i.command, ⟨i.command.channel, i.payload, none⟩, .arrived⟩
    i.fresh none) k

theorem steps_handles {start k : Desk} {inputs : List Input} (hsteps : Steps start k)
    (hopen : k.Open) (hfresh : IdsFresh k.shared.store inputs) :
    Steps start (k.handles inputs) := by
  induction inputs generalizing k with
  | nil => exact hsteps
  | cons i inputs ih =>
    obtain ⟨hnew, hlater⟩ := hfresh
    have hhandled := handled (d := ⟨i.command, ⟨i.command.channel, i.payload, none⟩, .arrived⟩)
      i.fresh none rfl (Delivery.comesTo_none ..) fun _ => hopen
    refine ih (.tail hsteps (.handle k _ i.fresh rfl hnew)) (hhandled.keepsOpen hopen) ?_
    rw [hhandled.store]
    exact hlater

/-- Before anything was handled. -/
def initial : Desk := { shared := { broker := .init 1, store := .empty } }

/-- Two users are created, one is changed, something unreadable comes in, the other is deleted. -/
def busyDay : List Input :=
  [ .create 0 ada,
    .create 1 { ada with email := "king@notes.org" },
    ⟨.update, Json.encode (⟨"r", (Fresh.nth 0).userId.text, { lastName := some "King" }⟩ :
      CommandRequest UpdateRequest), .nth 2⟩,
    ⟨.create, Octets.ofText "?", .nth 3⟩,
    ⟨.delete, Json.encode (⟨"r", ⟨(Fresh.nth 1).userId.text⟩⟩ : CommandRequest IdRequest), .nth 4⟩ ]

/-- Whoever follows the events of that day is left with the one user as it was changed. -/
theorem mirrors_busyDay :
    (mirror (published (initial.handles busyDay).calls)).map (·.lastName) = ["King"] ∧
      Mirrors (published (initial.handles busyDay).calls)
        (initial.handles busyDay).shared.store := by
  have hstart : initial.Starting := ⟨⟨rfl, rfl⟩, rfl, rfl⟩
  have hfresh : IdsFresh initial.shared.store busyDay :=
    idsFresh_of_nodup (fun _ _ _ hu => nomatch hu) (by decide)
  have hsteps := steps_handles (.refl initial) hstart.toOpen hfresh
  have hmirrors := (mirrors_of_steps hstart hsteps).1
  refine ⟨?_, hmirrors⟩
  rw [hmirrors.users]
  decide +kernel

end Desk

end UserDirectory.Server
