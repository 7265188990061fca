import Mathlib.Data.List.Induction
import UserDirectory.Proofs.Broker.Moves

/-!
# Runs of the broker

`perform` does an operation that nobody comes between: its moves, one after another
(`perform_eq_moves`). What it does to the mailbox of a subscription is `Mailbox.after`, which looks
at that mailbox alone and at what is sent: `mailbox?_perform` says so once for all operations, and
that there are no other mailboxes but the one that a subscription makes. What holds of every mailbox
(`Mailbox.Tidy`) is read off `Mailbox.after`.
-/

namespace UserDirectory.Broker

open Time (Duration)

/-- An operation on the broker. -/
inductive Operation
  | subscribe (channel : String)
  /-- a subscriber gives its subscription up -/
  | drop (sub : SubscriptionId)
  | publish (channel : String) (payload : Octets)
  | request (channel : String) (payload : Octets) (timeout : Duration)
  | next (sub : SubscriptionId)
  | close
  deriving DecidableEq

def perform (b : Broker) : Operation → Broker
  | .subscribe channel => (b.subscribe channel).2
  | .drop sub => b.drop sub
  | .publish channel payload => (b.publish channel payload).2
  | .request channel payload timeout => (b.request channel payload timeout).2
  | .next sub => (b.next sub).2
  | .close => b.close

def run (b : Broker) (ops : List Operation) : Broker := ops.foldl perform b

@[simp] theorem run_concat (b : Broker) (ops : List Operation) (op : Operation) :
    b.run (ops ++ [op]) = (b.run ops).perform op := by
  simp [run]

/-- Whether an operation makes a subscription, if the broker is open. -/
def Operation.subscribes : Operation → Bool
  | subscribe _ => true
  | _ => false

/-- Whether an operation closes the broker. -/
def Operation.closes : Operation → Bool
  | close => true
  | _ => false

/-- The message that an operation sends, if it sends one; `x` is the number of the next exchange. -/
def Operation.message? (x : ExchangeId) : Operation → Option Message
  | publish channel payload => some ⟨channel, payload, none⟩
  | request channel payload _ => some ⟨channel, payload, some x⟩
  | _ => none

/-- The message that an operation sends over an open broker. -/
def sent? (b : Broker) (op : Operation) : Option Message :=
  if b.closed then none else op.message? b.exchanges.length

/-- The moves that an operation consists of; on a closed broker most do nothing. -/
def Operation.moves (closed : Bool) : Operation → List Move
  | subscribe channel => if closed then [] else [.enroll channel]
  | drop sub => [.drop sub]
  | publish channel payload => if closed then [] else [.deliver channel payload]
  | request channel payload timeout =>
    if closed then [] else [.deliverRequest channel payload timeout]
  | next sub => [.next sub]
  | close => if closed then [] else [.shut, .dismiss]

/-- **An operation is its moves**, one after another. -/
theorem perform_eq_moves (b : Broker) (op : Operation) :
    b.perform op = (op.moves b.closed).foldl move b := by
  cases op with
  | subscribe | publish | request =>
    simp only [perform, subscribe, publish, request, check, Operation.moves]
    cases b.closed <;> rfl
  | drop sub | next sub => rfl
  | close =>
    simp only [perform, close, Operation.moves]
    cases b.closed <;> rfl

/-! ## What an operation does to a mailbox -/

/-- The mailbox of the subscription `sub` after an operation. -/
def Mailbox.after (box : Mailbox) (b : Broker) (sub : SubscriptionId) (op : Operation) : Mailbox :=
  match op with
  | .subscribe _ => box
  | .drop s => if s = sub then { box with queue := [], live := false } else box
  | .next s => if s = sub then { box with queue := box.queue.drop 1 } else box
  | .close => if b.closed then box else { box with enrolled := false }
  | .publish _ _ | .request _ _ _ => ((b.sent? op).map (box.receive b.capacity)).getD box

/-- The mailbox that an operation makes for the subscription `sub`, if it makes one. -/
def made? (b : Broker) (sub : SubscriptionId) : Operation → Option Mailbox
  | .subscribe channel =>
    if b.closed = false ∧ b.mailboxes.length = sub then some { channel } else none
  | _ => none

section Mailboxes

variable {b : Broker} {sub : SubscriptionId} {box box' : Mailbox} {op : Operation}

/-- **What an operation does to the mailboxes**: to each what `Mailbox.after` says, and a
subscription makes a new one. -/
theorem mailbox?_perform (b : Broker) (sub : SubscriptionId) (op : Operation) :
    (b.perform op).mailboxes[sub]? =
      (b.mailboxes[sub]?.map (·.after b sub op)).or (b.made? sub op) := by
  rw [perform_eq_moves]
  cases op with
  | drop s | next s =>
    simp [Operation.moves, mailbox?_move, Mailbox.moved, enrolled?, Mailbox.after, made?]
  | subscribe | publish | request =>
    simp only [Operation.moves, Mailbox.after, made?, sent?, Operation.message?]
    cases b.closed <;> simp [mailbox?_move, Mailbox.moved, enrolled?]
  | close =>
    simp only [Operation.moves, Mailbox.after, made?]
    cases hclosed : b.closed <;>
      simp [mailbox?_move, Mailbox.moved, enrolled?, closed_move]

theorem length_perform (b : Broker) (op : Operation) : (b.perform op).mailboxes.length =
    b.mailboxes.length + if b.closed = false ∧ op.subscribes then 1 else 0 := by
  rw [perform_eq_moves]
  cases op with
  | drop s | next s => simp [Operation.moves, Operation.subscribes, length_move]
  | subscribe | publish | request | close =>
    simp only [Operation.moves, Operation.subscribes]
    cases b.closed <;> simp [length_move]

theorem closed_perform (b : Broker) (op : Operation) :
    (b.perform op).closed = (b.closed || op.closes) := by
  rw [perform_eq_moves]
  cases op with
  | drop s | next s => simp [Operation.moves, Operation.closes, closed_move]
  | subscribe | publish | request | close =>
    simp only [Operation.moves, Operation.closes]
    cases hclosed : b.closed <;> simp [closed_move, hclosed]

theorem capacity_perform (b : Broker) (op : Operation) : (b.perform op).capacity = b.capacity := by
  rw [perform_eq_moves]
  cases op with
  | drop s | next s => simp [Operation.moves, capacity_move]
  | subscribe | publish | request | close =>
    simp only [Operation.moves]
    cases b.closed <;> simp [capacity_move]

/-- **What every operation keeps, every run keeps.** -/
theorem run_preserves {P : Broker → Prop} (hperform : ∀ {b op}, P b → P (b.perform op)) (hb : P b)
    (ops : List Operation) : P (b.run ops) := by
  induction ops generalizing b with
  | nil => exact hb
  | cons op ops ih => exact ih (hperform hb)

/-! ## What holds of every mailbox -/

/-- How a mailbox stands to a broker that is closed or not, and has mailboxes of a given size. -/
structure Mailbox.Tidy (box : Mailbox) (closed : Bool) (capacity : Nat) : Prop where
  /-- an open broker delivers to every live mailbox -/
  enrolled : closed = false → box.live = true → box.enrolled = true
  /-- a closed one delivers to none -/
  dismissed : closed = true → box.enrolled = false
  bounded : box.queue.length ≤ capacity
  /-- what was in a mailbox is gone with its subscriber -/
  emptied : box.live = false → box.queue = []

/-- Every mailbox is tidy. -/
def Tidy (b : Broker) : Prop :=
  ∀ (sub : SubscriptionId) (box : Mailbox),
    b.mailboxes[sub]? = some box → box.Tidy b.closed b.capacity

theorem Mailbox.after_channel (box : Mailbox) (b : Broker) (sub : SubscriptionId)
    (op : Operation) : (box.after b sub op).channel = box.channel := by
  cases op with
  | subscribe channel => rfl
  | publish channel payload | request channel payload timeout =>
    simp only [Mailbox.after]
    cases b.sent? _ with
    | none => rfl
    | some m => exact box.receive_channel ..
  | drop s | next s | close =>
    simp only [Mailbox.after]
    split <;> rfl

theorem Mailbox.after_live (box : Mailbox) (b : Broker) (sub : SubscriptionId) (op : Operation)
    (h : (box.after b sub op).live = true) : box.live = true ∧ op ≠ .drop sub := by
  cases op with
  | subscribe channel => exact ⟨h, Operation.noConfusion⟩
  | drop s =>
    by_cases hs : s = sub
    · simp [Mailbox.after, hs] at h
    · exact ⟨by simpa [Mailbox.after, hs] using h, by simpa using hs⟩
  | publish channel payload | request channel payload timeout =>
    refine ⟨?_, Operation.noConfusion⟩
    simp only [Mailbox.after] at h
    generalize b.sent? _ = sent at h
    cases sent with
    | none => exact h
    | some m => simpa [receive_live] using h
  | next s =>
    refine ⟨?_, Operation.noConfusion⟩
    simp only [Mailbox.after] at h
    split at h <;> exact h
  | close =>
    refine ⟨?_, Operation.noConfusion⟩
    simp only [Mailbox.after] at h
    split at h <;> exact h

section Tidy

variable {capacity : Nat}

/-- A mailbox of an open broker takes what fits. -/
theorem Mailbox.Tidy.receive_queue (h : box.Tidy false capacity) (m : Message) :
    (box.receive capacity m).queue = box.queue ++
      if box.channel == m.channel && box.live && box.queue.length < capacity then [m] else [] := by
  have haccepts : box.accepts capacity m =
      (box.channel == m.channel && box.live && box.queue.length < capacity) := by
    unfold accepts
    cases hlive : box.live with
    | true => simp [h.enrolled rfl hlive]
    | false => simp
  rw [Mailbox.receive_queue, haccepts]

theorem Mailbox.Tidy.receive (h : box.Tidy false capacity) (m : Message) :
    (box.receive capacity m).Tidy false capacity := by
  refine ⟨fun _ hlive => ?_, fun hclosed => Bool.noConfusion hclosed, ?_, fun hdead => ?_⟩
  · exact receive_enrolled (h.enrolled rfl) m hlive
  · rw [h.receive_queue]
    split
    · rename_i hroom
      simp only [Bool.and_eq_true, decide_eq_true_eq] at hroom
      simpa using Nat.succ_le_of_lt hroom.2
    · simpa using h.bounded
  · rw [receive_live] at hdead
    simp [h.receive_queue, h.emptied hdead, hdead]

theorem Mailbox.Tidy.after (h : box.Tidy b.closed b.capacity) (sub : SubscriptionId)
    (op : Operation) : (box.after b sub op).Tidy (b.perform op).closed (b.perform op).capacity := by
  rw [closed_perform, capacity_perform]
  cases op with
  | subscribe channel => simpa [Mailbox.after, Operation.closes] using h
  | drop s =>
    simp only [Mailbox.after, Operation.closes, Bool.or_false]
    split
    · exact ⟨fun _ hlive => Bool.noConfusion hlive, h.dismissed, Nat.zero_le _, fun _ => rfl⟩
    · exact h
  | publish channel payload | request channel payload timeout =>
    simp only [Mailbox.after, sent?, Operation.closes, Bool.or_false]
    cases hclosed : b.closed with
    | true => simpa [hclosed] using h
    | false =>
      rw [hclosed] at h
      exact h.receive _
  | next s =>
    simp only [Mailbox.after, Operation.closes, Bool.or_false]
    split
    · refine ⟨h.enrolled, h.dismissed, ?_, fun hdead => ?_⟩
      · exact Nat.le_trans (List.drop_sublist ..).length_le h.bounded
      · rw [h.emptied hdead, List.drop_nil]
    · exact h
  | close =>
    simp only [Mailbox.after, Operation.closes, Bool.or_true]
    split
    · rename_i hclosed
      exact hclosed ▸ h
    · exact ⟨fun hopen => Bool.noConfusion hopen, fun _ => rfl, h.bounded, h.emptied⟩

theorem tidy_perform (h : b.Tidy) (op : Operation) : (b.perform op).Tidy := by
  intro sub box' hbox'
  rw [mailbox?_perform] at hbox'
  cases hbox : b.mailboxes[sub]? with
  | some box =>
    obtain rfl : box.after b sub op = box' := by simpa [hbox] using hbox'
    exact (h sub box hbox).after sub op
  | none =>
    -- a mailbox that was just made is empty, and the broker is open
    rw [hbox, Option.map_none, Option.none_or] at hbox'
    unfold made? at hbox'
    split at hbox'
    · split at hbox'
      · rename_i channel hmade
        obtain rfl := Option.some.inj hbox'
        rw [closed_perform, hmade.1]
        exact ⟨fun _ _ => rfl, fun hclosed => Bool.noConfusion hclosed, Nat.zero_le _, fun _ => rfl⟩
      · cases hbox'
    · cases hbox'

theorem tidy_init (capacity : Nat) : (init capacity).Tidy := by
  intro sub box hbox
  simp [init] at hbox

theorem tidy_run (capacity : Nat) (ops : List Operation) : ((init capacity).run ops).Tidy :=
  run_preserves (P := Tidy) (fun h => tidy_perform h _) (tidy_init capacity) ops

theorem capacity_run (b : Broker) (ops : List Operation) : (b.run ops).capacity = b.capacity :=
  run_preserves (P := fun b' => b'.capacity = b.capacity)
    (fun h => (capacity_perform _ _).trans h) rfl ops

end Tidy

end Mailboxes

end UserDirectory.Broker
