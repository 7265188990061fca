import UserDirectory.Proofs.Broker.Moves
import UserDirectory.Proofs.Server
import UserDirectory.Server.Delivery

/-!
# The stages of a delivery

A delivery keeps its command and its message through all stages. What its stages amount to is
`dispatch`: the stage in which the operation is carried out ends with the answer and the event of
`dispatch`, and leaves the store that `dispatch` leaves.
-/

namespace UserDirectory.Server

open Broker (SubscriptionId)

@[simp] theorem command_proceed (d : Delivery) (fresh : Fresh) (trouble : Option Store.Failure)
    (s : Shared) : (d.proceed fresh trouble s).1.command = d.command := by
  unfold Delivery.proceed
  split <;> rfl

@[simp] theorem message_proceed (d : Delivery) (fresh : Fresh) (trouble : Option Store.Failure)
    (s : Shared) : (d.proceed fresh trouble s).1.message = d.message := by
  unfold Delivery.proceed
  split <;> rfl

/-! ## What stages leave alone -/

theorem publish_eq (s : Shared) (channel : String) (payload : Octets) :
    s.publish channel payload = ⟨(s.publish channel payload).broker, s.store, s.muted⟩ := by
  unfold Shared.publish
  split <;> rfl

/-- To answer a caller is a matter of the bus only. -/
theorem respond_eq (d : Delivery) (answer : Octets) (s : Shared) :
    d.respond answer s = ⟨(d.respond answer s).broker, s.store, s.muted⟩ := by
  unfold Delivery.respond
  split <;> rfl

/-- To publish an event and let the message go is a matter of the bus only. -/
theorem finish_eq (d : Delivery) (event : Option (EventKind × Octets)) (s : Shared) :
    d.finish event s = ⟨(d.finish event s).broker, s.store, s.muted⟩ := by
  cases event with
  | none => rfl
  | some e =>
    rw [Delivery.finish, publish_eq]

theorem closed_respond (d : Delivery) (answer : Octets) (s : Shared) :
    (d.respond answer s).broker.closed = s.broker.closed := by
  unfold Delivery.respond
  split
  · exact Broker.closed_respond ..
  · rfl

theorem closed_finish (d : Delivery) (event : Option (EventKind × Octets)) (s : Shared) :
    (d.finish event s).broker.closed = s.broker.closed := by
  refine (Broker.closed_release ..).trans ?_
  cases event with
  | none => rfl
  | some e =>
    show (s.publish _ _).broker.closed = _
    unfold Shared.publish
    split
    · rfl
    · exact Broker.closed_publish ..

/-! ## What stages amount to -/

/-- The store step of an accepted delivery is what it is dispatched to. -/
theorem settle_eq_dispatch {command : Command} {payload : Octets} {call : Call}
    (haccept : accept command payload = .ok call) (fresh : Fresh) (store : Store) :
    Delivery.settle call fresh none store =
      let ((answer, event), store') := dispatch command payload fresh store
      (.concluded answer event, store') := by
  simp only [Delivery.settle, dispatch, haccept]

/-- A delivery that is not accepted is dispatched to the same refusal, whatever the store. -/
theorem dispatch_of_error {command : Command} {payload : Octets} {e : CommandError}
    (haccept : accept command payload = .error e) (fresh : Fresh) (store : Store) :
    dispatch command payload fresh store = ((failureReply e, none), store) := by
  simp only [dispatch, haccept]
  rfl

/-! ## From the mailbox to the answer -/

/-- The oldest message in a mailbox is taken, as a delivery that has just arrived. -/
theorem take?_eq (command : Command) (sub : SubscriptionId) (s : Shared) :
    take? command sub s = (s.broker.queueOf sub).head?.map fun message =>
      ({ command, message }, { s with broker := (s.broker.next sub).2 }) := by
  rw [← Broker.message?_next, take?]
  cases s.broker.next sub with
  | mk next broker => cases next <;> rfl

/-- How many stages a delivery has to go until its caller is answered. -/
def Stage.toGo : Stage → Nat
  | .arrived => 3
  | .accepted _ => 2
  | .concluded _ _ => 1
  | .answered _ | .done => 0

theorem toGo_proceed {d : Delivery} (h : d.stage.toGo ≠ 0) (fresh : Fresh) (s : Shared) :
    (d.proceed fresh none s).1.stage.toGo < d.stage.toGo := by
  unfold Delivery.proceed
  cases hstage : d.stage with
  | arrived =>
    -- what is not accepted skips a stage
    show d.accept.toGo < 3
    unfold Delivery.accept
    split
    · exact (by decide : 2 < 3)
    · exact (by decide : 1 < 3)
  | accepted call => exact Nat.lt_add_one 1
  | concluded answer event => exact Nat.lt_add_one 0
  | answered | done => exact absurd (by rw [hstage]; rfl) h

end UserDirectory.Server
