import UserDirectory.Proofs.Server.Pool

/-!
# Deliveries that are handled one after another

A desk is the bus and the store, and what happened on the bus so far. `Desk.handle` takes one
delivery through all its stages before the next one is looked at.

`handled` is the one lemma about it: a delivery that arrives leaves the store that it comes to, calls
for its answer, publishes its event and lets its message go, and that is all that the bus goes
through. If there is an event the bus must be open. What a delivery comes to (`Delivery.comesTo`)
allows for a store that fails for a reason of its own.
-/

namespace UserDirectory.Server

/-- The answer, the event and the store that a delivery comes to. A store in trouble fails whatever
it is asked, but a delivery that is not accepted does not get that far. -/
def Delivery.comesTo (d : Delivery) (fresh : Fresh) (trouble : Option Store.Failure)
    (store : Store) : (Octets × Option (EventKind × Octets)) × Store :=
  match Server.accept d.command d.message.payload with
  | .error e => ((failureReply e, none), store)
  | .ok call =>
    match trouble with
    | some e => ((failureReply (storeFailure call.command e), none), store)
    | none => (d.input fresh).dispatch store

/-- Without trouble a delivery comes to what it is dispatched to. -/
theorem Delivery.comesTo_none (d : Delivery) (fresh : Fresh) (store : Store) :
    d.comesTo fresh none store = (d.input fresh).dispatch store := by
  unfold comesTo
  split
  · rename_i e haccept
    exact (dispatch_of_error haccept fresh store).symm
  · rfl

/-- The bus and the store, and what happened on the bus so far, with the messages that were called
about. -/
structure Desk where
  shared : Shared
  history : List (BusEvent Broker.Message) := []

namespace Desk

/-- The calls on the bus so far. -/
def calls (k : Desk) : List BusCall := k.history.filterMap (·.call?)

/-- A delivery goes on to its next stage. -/
def work (k : Desk) (d : Delivery) (fresh : Fresh) (trouble : Option Store.Failure) :
    Delivery × Desk :=
  let (d', shared) := d.proceed fresh trouble k.shared
  (d', { shared, history := k.history ++ (d.busCalls k.shared).map (.call d.message) })

/-- A delivery is read and checked, carried out, answered and announced. -/
def handle (k : Desk) (d : Delivery) (fresh : Fresh) (trouble : Option Store.Failure) : Desk :=
  let (d, k) := k.work d fresh trouble
  let (d, k) := k.work d fresh trouble
  let (d, k) := k.work d fresh trouble
  (k.work d fresh trouble).2

/-- An open bus that takes what is published. -/
structure Open (k : Desk) : Prop where
  isOpen : k.shared.broker.closed = false
  unmuted : k.shared.muted = false

/-- The bus went through calls about one message, and through nothing else. -/
structure Called (k : Desk) (m : Broker.Message) (calls : List BusCall) (after : Desk) : Prop where
  history : after.history = k.history ++ calls.map (.call m)
  bus : after.shared.broker = calls.foldl (BusCall.after m) k.shared.broker

/-- What a delivery has done when it is done: it told its answer and its event, let its message go,
and left a store. -/
structure Handled (k : Desk) (d : Delivery) (answer : Octets)
    (event : Option (EventKind × Octets)) (store : Store) (after : Desk) : Prop where
  called : k.Called d.message
    (d.responds answer ++ (Delivery.publishes event ++ [BusCall.released])) after
  store : after.shared.store = store
  keepsOpen : k.Open → after.Open

/-- The bus is what its history makes of the bus `b₀`. -/
def Accounted (b₀ : Broker) (k : Desk) : Prop :=
  k.shared.broker = k.history.foldl (BusEvent.after some) b₀

section Called

variable {k l n : Desk} {m : Broker.Message} {calls more : List BusCall}

theorem Called.trans (h : k.Called m calls l) (h' : l.Called m more n) :
    k.Called m (calls ++ more) n where
  history := by rw [h'.history, h.history, List.map_append, List.append_assoc]
  bus := by rw [h'.bus, h.bus, List.foldl_append]

theorem Called.calls_eq (h : k.Called m calls l) : l.calls = k.calls ++ calls := by
  have hall : (fun e : BusEvent Broker.Message => e.call?) ∘ BusEvent.call m = some := rfl
  rw [Desk.calls, h.history, List.filterMap_append, List.filterMap_map, hall, List.filterMap_some]
  rfl

/-- What the bus goes through is kept account of. -/
theorem Called.accounted {b₀ : Broker} (h : k.Called m calls l) (hk : Accounted b₀ k) :
    Accounted b₀ l := by
  rw [Accounted, h.bus, h.history, List.foldl_append, ← hk, BusEvent.foldl_after_map rfl]

end Called

/-- What is to be published is published on an open bus. -/
theorem publishes_of_open {k : Desk} {event : Option (EventKind × Octets)}
    (hopen : event.isSome = true → k.Open) :
    (if k.shared.takes then Delivery.publishes event else []) = Delivery.publishes event := by
  cases event with
  | none => exact ite_self _
  | some e =>
    obtain ⟨hclosed, hunmuted⟩ := hopen rfl
    rw [if_pos]
    simp [Shared.takes, hclosed, hunmuted]

/-! ## One stage -/

section Work

variable (k : Desk) (d : Delivery) (fresh : Fresh) (trouble : Option Store.Failure)

theorem work_arrived (hstage : d.stage = .arrived) :
    k.work d fresh trouble = ({ d with stage := d.accept }, k) := by
  simp [work, Delivery.proceed, Delivery.busCalls, hstage]

theorem work_accepted {call : Call} (hstage : d.stage = .accepted call) :
    k.work d fresh trouble =
      ({ d with stage := (Delivery.settle call fresh trouble k.shared.store).1 },
        { k with shared.store := (Delivery.settle call fresh trouble k.shared.store).2 }) := by
  simp [work, Delivery.proceed, Delivery.busCalls, hstage]

theorem work_concluded {answer : Octets} {event : Option (EventKind × Octets)}
    (hstage : d.stage = .concluded answer event) :
    k.work d fresh trouble = ({ d with stage := .answered event },
      { shared := d.respond answer k.shared
        history := k.history ++ (d.responds answer).map (.call d.message) }) := by
  simp [work, Delivery.proceed, Delivery.busCalls, hstage]

/-- Only an event is published, so without one it does not matter whether the bus is open. -/
theorem work_answered {event : Option (EventKind × Octets)} (hstage : d.stage = .answered event)
    (hopen : event.isSome = true → k.Open) :
    k.work d fresh trouble = ({ d with stage := .done },
      { shared := d.finish event k.shared
        history := k.history ++
          (Delivery.publishes event ++ [BusCall.released]).map (.call d.message) }) := by
  simp [work, Delivery.proceed, Delivery.busCalls, hstage, publishes_of_open hopen]

theorem work_done (hstage : d.stage = .done) : k.work d fresh trouble = (d, k) := by
  simp [work, Delivery.proceed, Delivery.busCalls, hstage]

end Work

/-! ## All stages -/

section Handle

variable {k : Desk} {d : Delivery} (fresh : Fresh) (trouble : Option Store.Failure)

/-- The bus stays open while a caller is answered. -/
theorem Open.respond (hopen : k.Open) (answer : Octets)
    (history : List (BusEvent Broker.Message)) :
    Open { shared := d.respond answer k.shared, history } := by
  refine ⟨(closed_respond d answer k.shared).trans hopen.isOpen, ?_⟩
  show (d.respond answer k.shared).muted = false
  rw [respond_eq]
  exact hopen.unmuted

/-- The two stages in which a delivery tells what it came to. -/
theorem handled_told {answer : Octets} {event : Option (EventKind × Octets)}
    (hstage : d.stage = .concluded answer event) (hopen : event.isSome = true → k.Open) :
    ∃ after, (k.work d fresh trouble).2.work (k.work d fresh trouble).1 fresh trouble =
        ({ d with stage := .done }, after) ∧
      k.Handled d answer event k.shared.store after := by
  let told : Desk := {
    shared := d.respond answer k.shared
    history := k.history ++ (d.responds answer).map (.call d.message) }
  have hopen' : event.isSome = true → told.Open := fun hsome => (hopen hsome).respond answer _
  rw [work_concluded k d fresh trouble hstage, work_answered told _ fresh trouble rfl hopen']
  have htold : k.Called d.message (d.responds answer) told := ⟨rfl, d.broker_respond answer _⟩
  refine ⟨_, rfl, htold.trans ⟨rfl, ?_⟩, ?_, fun hbefore => ?_⟩
  · rw [← publishes_of_open hopen']
    exact Delivery.broker_finish ..
  · show (Delivery.finish _ event (d.respond answer k.shared)).store = _
    rw [finish_eq, respond_eq]
  · obtain ⟨hclosed, hunmuted⟩ := hbefore.respond (d := d) answer k.history
    refine ⟨(closed_finish ..).trans hclosed, ?_⟩
    show (Delivery.finish _ event (d.respond answer k.shared)).muted = _
    rw [finish_eq]
    exact hunmuted

/-- **A delivery that is handled tells what it comes to**, and leaves the store that it comes to. -/
theorem handled (harrived : d.stage = .arrived) {answer : Octets}
    {event : Option (EventKind × Octets)} {store : Store}
    (hcomes : d.comesTo fresh trouble k.shared.store = ((answer, event), store))
    (hopen : event.isSome = true → k.Open) :
    k.Handled d answer event store (k.handle d fresh trouble) := by
  have harrives := work_arrived k d fresh trouble harrived
  cases haccept : accept d.command d.message.payload with
  | error e =>
    -- the store is not asked, so the last of the four stages has nothing left to do
    have hstage : d.accept = .concluded (failureReply e) none := by
      rw [Delivery.accept, haccept]
    rw [Delivery.comesTo, haccept] at hcomes
    cases hcomes
    obtain ⟨after, hafter, hhandled⟩ :=
      handled_told (d := { d with stage := d.accept }) fresh trouble hstage hopen
    have hhandle : k.handle d fresh trouble = after := by
      unfold handle
      rw [harrives]
      dsimp only
      rw [hafter, work_done _ _ fresh trouble rfl]
    rw [hhandle]
    exact ⟨⟨hhandled.called.history, hhandled.called.bus⟩, hhandled.store, hhandled.keepsOpen⟩
  | ok call =>
    have hstage : d.accept = .accepted call := by
      rw [Delivery.accept, haccept]
    have hsettle : Delivery.settle call fresh trouble k.shared.store =
        (.concluded answer event, store) := by
      rw [Delivery.comesTo, haccept] at hcomes
      cases trouble with
      | none =>
        rw [settle_eq_dispatch haccept fresh k.shared.store]
        rw [show dispatch d.command d.message.payload fresh k.shared.store = _ from hcomes]
      | some e =>
        cases hcomes
        rfl
    have hsettled := work_accepted k { d with stage := d.accept } fresh trouble hstage
    rw [hsettle] at hsettled
    obtain ⟨after, hafter, hhandled⟩ :=
      handled_told (k := { k with shared.store := store })
        (d := { d with stage := .concluded answer event }) fresh trouble rfl
        fun hsome => ⟨(hopen hsome).isOpen, (hopen hsome).unmuted⟩
    have hhandle : k.handle d fresh trouble = after := by
      unfold handle
      rw [harrives]
      dsimp only
      rw [hsettled]
      dsimp only
      rw [hafter]
    rw [hhandle]
    exact ⟨⟨hhandled.called.history, hhandled.called.bus⟩, hhandled.store,
      fun h => hhandled.keepsOpen ⟨h.isOpen, h.unmuted⟩⟩

end Handle

end Desk

end UserDirectory.Server
