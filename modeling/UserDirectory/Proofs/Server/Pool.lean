import UserDirectory.Proofs.Server.Address
import UserDirectory.Proofs.Server.Delivery

/-!
# Deliveries that are handled at the same time

A pool is a number of deliveries, each on a task of its own, over one bus and one store. In a step
any one of them goes on to its next stage, or something happens elsewhere on the bus. Two ghosts are
kept: in which order the deliveries came to their conclusions, which for those that reach the store
is the order of their store steps, and what happened on the bus, with who did it. The second leaves
nothing out: the bus is at every moment what its history makes of it (`accounted_steps`).

`Worked` says what a step of one delivery can be while the bus is open: it is accepted, comes to its
conclusion, answers, announces, or rests.
-/

namespace UserDirectory.Server

open Broker (Message)

/-! ## What a delivery does on the bus -/

/-- What a delivery did on the bus: it called for its caller to be answered, it published an event
and the bus took it, or it let its message go. -/
inductive BusCall
  | responded (answer : Octets)
  | published (kind : EventKind) (payload : Octets)
  | released
  deriving DecidableEq

/-- The bus after a call of a delivery with the given message. -/
def BusCall.after (m : Message) (b : Broker) : BusCall → Broker
  | responded answer => (b.respond m answer).2
  | published kind payload => (b.publish kind.channel payload).2
  | released => b.release m

/-- Something that happened on the bus: a call by somebody, or what others made of the bus. -/
inductive BusEvent (κ : Type)
  | call (caller : κ) (c : BusCall)
  | elsewhere (broker : Broker)

namespace BusEvent

variable {κ : Type}

/-- The bus after it; each caller calls about a message of its own. -/
def after (message? : κ → Option Message) (b : Broker) : BusEvent κ → Broker
  | call caller c =>
    match message? caller with
    | some m => c.after m b
    | none => b
  | elsewhere broker => broker

/-- The call that it is, if it is one. -/
def call? : BusEvent κ → Option BusCall
  | call _ c => some c
  | elsewhere _ => none

/-- The call that it is, if it is one by the given caller. -/
def callBy? [DecidableEq κ] (caller : κ) : BusEvent κ → Option BusCall
  | call caller' c => if caller' = caller then some c else none
  | elsewhere _ => none

/-- The calls of one caller, in their order. -/
def callsBy [DecidableEq κ] (caller : κ) (history : List (BusEvent κ)) : List BusCall :=
  history.filterMap (callBy? caller)

theorem callsBy_calls [DecidableEq κ] (caller caller' : κ) (history : List (BusEvent κ))
    (new : List BusCall) : callsBy caller (history ++ new.map (call caller')) =
      callsBy caller history ++ if caller' = caller then new else [] := by
  rw [callsBy, List.filterMap_append, List.filterMap_map]
  refine congrArg (_ ++ ·) ?_
  split
  · rename_i hsame
    rw [show callBy? caller ∘ call caller' = some from funext fun _ => if_pos hsame,
      List.filterMap_some]
  · rename_i hother
    rw [List.filterMap_eq_nil_iff]
    exact fun _ _ => if_neg hother

/-- What happens elsewhere is nobody's call. -/
theorem callsBy_elsewhere [DecidableEq κ] (caller : κ) (history : List (BusEvent κ))
    (broker : Broker) : callsBy caller (history ++ [elsewhere broker]) = callsBy caller history := by
  rw [callsBy, List.filterMap_append]
  exact List.append_nil _

/-- What the calls of one caller make of the bus. -/
theorem foldl_after_map {message? : κ → Option Message} {caller : κ} {m : Message}
    (hm : message? caller = some m) (calls : List BusCall) (b : Broker) :
    (calls.map (call caller)).foldl (after message?) b = calls.foldl (BusCall.after m) b := by
  rw [List.foldl_map]
  simp only [after, hm]

/-- What others have made of the bus is what the bus is. -/
theorem foldl_after_elsewhere (message? : κ → Option Message) (history : List (BusEvent κ))
    (b broker : Broker) : (history ++ [elsewhere broker]).foldl (after message?) b = broker := by
  rw [List.foldl_append]
  rfl

end BusEvent

/-- Whether the bus takes what is published. -/
def Shared.takes (s : Shared) : Bool := !s.muted && !s.broker.closed

namespace Delivery

/-- The call by which a caller is answered, if there is one. -/
def responds (d : Delivery) (answer : Octets) : List BusCall :=
  if d.message.expectsReply then [.responded answer] else []

/-- The call by which an event is published, if there is one. -/
def publishes (event : Option (EventKind × Octets)) : List BusCall :=
  event.toList.map fun e => .published e.1 e.2

/-- What a delivery does on the bus at its stage. -/
def busCalls (d : Delivery) (s : Shared) : List BusCall :=
  match d.stage with
  | .concluded answer _ => d.responds answer
  | .answered event => (if s.takes then publishes event else []) ++ [.released]
  | .arrived | .accepted _ | .done => []

/-- A bus that does not take what is published stays as it is. -/
theorem broker_publish (s : Shared) (kind : EventKind) (payload : Octets) :
    (s.publish kind.channel payload).broker =
      if s.takes then (s.broker.publish kind.channel payload).2 else s.broker := by
  unfold Shared.publish Shared.takes
  cases s.muted with
  | true => rfl
  | false =>
    cases hclosed : s.broker.closed with
    | false => rfl
    | true => simp [Broker.publish, Broker.check, hclosed]

theorem broker_respond (d : Delivery) (answer : Octets) (s : Shared) :
    (d.respond answer s).broker =
      (d.responds answer).foldl (BusCall.after d.message) s.broker := by
  unfold respond responds
  split <;> rfl

theorem broker_finish (d : Delivery) (event : Option (EventKind × Octets)) (s : Shared) :
    (d.finish event s).broker =
      ((if s.takes then publishes event else []) ++ [BusCall.released]).foldl
        (BusCall.after d.message) s.broker := by
  rw [List.foldl_append]
  cases event with
  | none =>
    rw [publishes, Option.toList_none, List.map_nil, ite_self]
    rfl
  | some e =>
    show (s.publish e.1.channel e.2).broker.release d.message = _
    rw [broker_publish]
    split <;> rfl

/-- **What a delivery does on the bus is all that it does to it**, whatever trouble the store has. -/
theorem broker_proceed (d : Delivery) (fresh : Fresh) (trouble : Option Store.Failure)
    (s : Shared) : (d.proceed fresh trouble s).2.broker =
      (d.busCalls s).foldl (BusCall.after d.message) s.broker := by
  unfold proceed busCalls
  cases d.stage with
  | arrived | accepted | done => rfl
  | concluded answer event => exact d.broker_respond answer s
  | answered event => exact d.broker_finish event s

def input (d : Delivery) (fresh : Fresh) : Input := ⟨d.command, d.message.payload, fresh⟩

end Delivery

/-- A stage in which it is known what the delivery came to, and nothing was told yet. -/
def Stage.isConcluded : Stage → Bool
  | .concluded _ _ => true
  | _ => false

/-! ## Pools -/

/-- Deliveries over one bus and one store. -/
structure Pool where
  shared : Shared
  deliveries : List Delivery
  /-- ghost: the deliveries in the order in which they came to their conclusions -/
  order : List (Nat × Input) := []
  /-- ghost: what happened on the bus, with the deliveries that did it -/
  history : List (BusEvent Nat) := []

namespace Pool

/-- A delivery goes on to its next stage. -/
def work (p : Pool) (i : Nat) (fresh : Fresh) : Pool :=
  match p.deliveries[i]? with
  | none => p
  | some d =>
    let (d', shared) := d.proceed fresh none p.shared
    { shared
      deliveries := p.deliveries.set i d'
      order := if d'.stage.isConcluded then p.order ++ [(i, d.input fresh)] else p.order
      history := p.history ++ (d.busCalls p.shared).map (.call i) }

/-- A delivery goes on, or something happens on the bus, which stays open. -/
inductive Step : Pool → Pool → Prop
  | work (p : Pool) (i : Nat) (fresh : Fresh) : Step p (p.work i fresh)
  | elsewhere (p : Pool) (broker : Broker) (hopen : broker.closed = false) :
      Step p { p with
        shared := { p.shared with broker }
        history := p.history ++ [.elsewhere broker] }

inductive Steps : Pool → Pool → Prop
  | refl (p : Pool) : Steps p p
  | tail {p q r : Pool} : Steps p q → Step q r → Steps p r

/-- Deliveries go on one after another, each with what it may use up. -/
def works (p : Pool) (schedule : List (Nat × Fresh)) : Pool :=
  schedule.foldl (fun p e => p.work e.1 e.2) p

theorem steps_works {p q : Pool} (hsteps : Steps p q) (schedule : List (Nat × Fresh)) :
    Steps p (q.works schedule) := by
  induction schedule generalizing q with
  | nil => exact hsteps
  | cons e schedule ih => exact ih (.tail hsteps (.work q e.1 e.2))

/-- Deliveries that have all just arrived, on an open bus. -/
structure Starting (p : Pool) : Prop where
  arrived : ∀ d ∈ p.deliveries, d.stage = .arrived
  isOpen : p.shared.broker.closed = false
  unmuted : p.shared.muted = false
  order : p.order = []
  history : p.history = []

/-- What one delivery did on the bus. -/
def callsOf (p : Pool) (i : Nat) : List BusCall := BusEvent.callsBy i p.history

/-- The message of a delivery. -/
def message? (p : Pool) (i : Nat) : Option Message := p.deliveries[i]?.map (·.message)

/-! ## The bus and its history -/

/-- What stays the same of the deliveries. -/
def contents (p : Pool) : List (Command × Message) :=
  p.deliveries.map fun d => (d.command, d.message)

theorem set_of_getElem? {α : Type} {l : List α} {i : Nat} {a : α} (h : l[i]? = some a) :
    l.set i a = l := by
  obtain ⟨hi, rfl⟩ := List.getElem?_eq_some_iff.mp h
  exact List.set_getElem_self hi

theorem contents_work (p : Pool) (i : Nat) (fresh : Fresh) :
    (p.work i fresh).contents = p.contents := by
  unfold work
  cases hd : p.deliveries[i]? with
  | none => rfl
  | some d =>
    simp only [contents, List.map_set, command_proceed, message_proceed]
    exact set_of_getElem? (by rw [List.getElem?_map, hd, Option.map_some])

theorem contents_steps {p q : Pool} (hsteps : Steps p q) : q.contents = p.contents := by
  induction hsteps with
  | refl => rfl
  | tail _ hstep ih =>
    cases hstep with
    | work i fresh => exact (contents_work _ i fresh).trans ih
    | elsewhere => exact ih

theorem message?_eq_of_contents {p q : Pool} (h : q.contents = p.contents) :
    q.message? = p.message? := by
  have hmessage (p : Pool) (i : Nat) : p.message? i = p.contents[i]?.map (·.2) := by
    rw [contents, List.getElem?_map, Option.map_map]
    rfl
  funext i
  rw [hmessage, hmessage, h]

/-- The bus is what its history makes of the bus `b₀`. -/
def Accounted (b₀ : Broker) (p : Pool) : Prop :=
  p.shared.broker = p.history.foldl (BusEvent.after p.message?) b₀

theorem Accounted.work {b₀ : Broker} {p : Pool} (h : Accounted b₀ p) (i : Nat) (fresh : Fresh) :
    Accounted b₀ (p.work i fresh) := by
  unfold Accounted
  rw [message?_eq_of_contents (contents_work p i fresh)]
  unfold Pool.work
  cases hd : p.deliveries[i]? with
  | none => exact h
  | some d =>
    have hm : p.message? i = some d.message := by rw [message?, hd, Option.map_some]
    show (d.proceed fresh none p.shared).2.broker = (p.history ++ _).foldl _ _
    rw [List.foldl_append, ← h, BusEvent.foldl_after_map hm, Delivery.broker_proceed]

/-- **The bus goes through what its history tells**, and through nothing else. -/
theorem accounted_steps {b₀ : Broker} {p q : Pool} (h : Accounted b₀ p) (hsteps : Steps p q) :
    Accounted b₀ q := by
  induction hsteps with
  | refl => exact h
  | tail _ hstep ih =>
    cases hstep with
    | work i fresh => exact ih.work i fresh
    | elsewhere broker _ => exact (BusEvent.foldl_after_elsewhere ..).symm

/-! ## What one step can be -/

inductive Worked (p : Pool) (i : Nat) (d : Delivery) (fresh : Fresh) : Pool → Prop
  | accepts {call : Call} (hstage : d.stage = .arrived)
      (haccept : accept d.command d.message.payload = .ok call) :
      Worked p i d fresh
        { p with deliveries := p.deliveries.set i { d with stage := .accepted call } }
  | concludes {answer : Octets} {event : Option (EventKind × Octets)} {store : Store}
      (hstage : d.stage = .arrived ∨ ∃ call, d.stage = .accepted call)
      (hdispatch : (d.input fresh).dispatch p.shared.store = ((answer, event), store)) :
      Worked p i d fresh
        { p with
          shared := { p.shared with store }
          deliveries := p.deliveries.set i { d with stage := .concluded answer event }
          order := p.order ++ [(i, d.input fresh)] }
  | answers {answer : Octets} {event : Option (EventKind × Octets)} (broker : Broker)
      (hstage : d.stage = .concluded answer event) (hopen : broker.closed = false) :
      Worked p i d fresh
        { p with
          shared := { p.shared with broker }
          deliveries := p.deliveries.set i { d with stage := .answered event }
          history := p.history ++ (d.responds answer).map (.call i) }
  | announces {event : Option (EventKind × Octets)} (broker : Broker)
      (hstage : d.stage = .answered event) (hopen : broker.closed = false) :
      Worked p i d fresh
        { p with
          shared := { p.shared with broker }
          deliveries := p.deliveries.set i { d with stage := .done }
          history := p.history ++
            (Delivery.publishes event ++ [BusCall.released]).map (.call i) }
  | rests (hstage : d.stage = .done) : Worked p i d fresh p

theorem Worked.of_eq {p q q' : Pool} {i : Nat} {d : Delivery} {fresh : Fresh}
    (h : Worked p i d fresh q) (heq : q' = q) : Worked p i d fresh q' := heq ▸ h

/-- **A step of a delivery is one of five.** The bus is open, and an accepted delivery carries the
operation that it was accepted as. -/
theorem worked {p : Pool} {i : Nat} {d : Delivery} (fresh : Fresh)
    (hd : p.deliveries[i]? = some d) (hopen : p.shared.broker.closed = false)
    (hunmuted : p.shared.muted = false)
    (haccepted : ∀ call, d.stage = .accepted call →
      accept d.command d.message.payload = .ok call) :
    Worked p i d fresh (p.work i fresh) := by
  cases hstage : d.stage with
  | arrived =>
    -- what is not accepted comes to its conclusion at once, and the store is not asked
    cases haccept : accept d.command d.message.payload with
    | ok call =>
      refine (Worked.accepts hstage haccept).of_eq ?_
      simp [work, hd, Delivery.proceed, hstage, Delivery.accept, haccept, Stage.isConcluded,
        Delivery.busCalls]
    | error e =>
      have hdispatch : (d.input fresh).dispatch p.shared.store =
          ((failureReply e, none), p.shared.store) := dispatch_of_error haccept fresh _
      refine (Worked.concludes (.inl hstage) hdispatch).of_eq ?_
      simp [work, hd, Delivery.proceed, hstage, Delivery.accept, haccept, Stage.isConcluded,
        Delivery.busCalls]
  | accepted call =>
    have hsettle := settle_eq_dispatch (haccepted call hstage) fresh p.shared.store
    cases hdispatch : dispatch d.command d.message.payload fresh p.shared.store with
    | mk told store =>
      rw [hdispatch] at hsettle
      refine (Worked.concludes (.inr ⟨call, hstage⟩) hdispatch).of_eq ?_
      simp [work, hd, Delivery.proceed, hstage, hsettle, Stage.isConcluded, Delivery.busCalls]
  | concluded answer event =>
    refine (Worked.answers (d.respond answer p.shared).broker hstage ?_).of_eq ?_
    · exact (closed_respond ..).trans hopen
    · simp only [work, hd, Delivery.proceed, hstage, Stage.isConcluded, Delivery.busCalls]
      rw [respond_eq]
      rfl
  | answered event =>
    refine (Worked.announces (d.finish event p.shared).broker hstage ?_).of_eq ?_
    · exact (closed_finish ..).trans hopen
    · simp only [work, hd, Delivery.proceed, hstage, Stage.isConcluded, Delivery.busCalls,
        Shared.takes, hunmuted, hopen]
      rw [finish_eq]
      simp [hunmuted]
  | done =>
    refine (Worked.rests hstage).of_eq ?_
    simp [work, hd, Delivery.proceed, hstage, Stage.isConcluded, Delivery.busCalls,
      set_of_getElem? hd]

end Pool

end UserDirectory.Server
