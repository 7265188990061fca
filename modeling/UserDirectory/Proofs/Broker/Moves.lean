import UserDirectory.Proofs.Broker
import UserDirectory.Proofs.Modify

/-!
# Moves of the broker

Subscribe, publish, request and close are not done in one go: the first three look whether the
broker is open and go to the mailboxes after that, and close shuts the broker before it strikes the
mailboxes off. A `Move` is what is done in one go, and other users of the broker may come between
any two.

What a move does to the mailbox of a subscription is `Mailbox.moved`, which looks at that mailbox
alone; `mailbox?_move` says so once for all moves, and that there are no other mailboxes but the one
that `enroll` makes.
-/

namespace UserDirectory.Broker

open Time (Duration)

/-- What is done to the broker in one go. -/
inductive Move
  | enroll (channel : String)
  | deliver (channel : String) (payload : Octets)
  | deliverRequest (channel : String) (payload : Octets) (timeout : Duration)
  | next (sub : SubscriptionId)
  | drop (sub : SubscriptionId)
  | shut
  /-- all mailboxes are struck off, if the broker is shut -/
  | dismiss
  deriving DecidableEq

def move (b : Broker) : Move → Broker
  | .enroll channel => (b.enroll channel).2
  | .deliver channel payload => (b.deliver ⟨channel, payload, none⟩).2
  | .deliverRequest channel payload timeout => (b.deliverRequest channel payload timeout).2
  | .next sub => (b.next sub).2
  | .drop sub => b.drop sub
  | .shut => b.shut
  | .dismiss => if b.closed then b.dismiss else b

/-- The message that a subscriber found. -/
def Next.message? : Next → Option Message
  | message m => some m
  | _ => none

/-- The messages in the mailbox of a subscription. -/
def queueOf (b : Broker) (sub : SubscriptionId) : List Message :=
  (b.mailboxes[sub]?.map (·.queue)).getD []

/-- The mailbox of the subscription `sub` after a move. -/
def Mailbox.moved (box : Mailbox) (b : Broker) (sub : SubscriptionId) : Move → Mailbox
  | .enroll _ | .shut => box
  | .deliver channel payload => box.receive b.capacity ⟨channel, payload, none⟩
  | .deliverRequest channel payload _ =>
    box.receive b.capacity ⟨channel, payload, some b.exchanges.length⟩
  | .next s => if s = sub then { box with queue := box.queue.drop 1 } else box
  | .drop s => if s = sub then { box with queue := [], live := false } else box
  | .dismiss => if b.closed then { box with enrolled := false } else box

/-- The mailbox that a move makes for the subscription `sub`, if it makes one. -/
def enrolled? (b : Broker) (sub : SubscriptionId) : Move → Option Mailbox
  | .enroll channel => if b.mailboxes.length = sub then some { channel } else none
  | _ => none

section Mailboxes

variable {b : Broker} {sub : SubscriptionId} {box : Mailbox}

/-- A message that is gone changes nothing but exchanges. -/
theorem release_eq (b : Broker) (m : Message) :
    b.release m = { b with exchanges := (b.release m).exchanges } := by
  unfold release
  split <;> rfl

@[simp] theorem mailboxes_release (b : Broker) (m : Message) :
    (b.release m).mailboxes = b.mailboxes := by
  rw [release_eq]

theorem foldl_release_eq (ms : List Message) (b : Broker) :
    ms.foldl release b = { b with exchanges := (ms.foldl release b).exchanges } := by
  induction ms generalizing b with
  | nil => rfl
  | cons m ms ih => rw [List.foldl_cons, ih, release_eq b m]

theorem drop_eq (b : Broker) (sub : SubscriptionId) : b.drop sub =
    { b with
      mailboxes := b.mailboxes.modify sub fun box => { box with queue := [], live := false }
      exchanges := (b.drop sub).exchanges } := by
  unfold drop
  split
  · rename_i hnone
    rw [List.modify_eq_self (List.getElem?_eq_none_iff.mp hnone)]
  · rename_i box hbox
    rw [foldl_release_eq, set_eq_modify hbox fun box => { box with queue := [], live := false }]

@[simp] theorem mailboxes_drop (b : Broker) (sub : SubscriptionId) : (b.drop sub).mailboxes =
    b.mailboxes.modify sub fun box => { box with queue := [], live := false } :=
  congrArg mailboxes (drop_eq b sub)

@[simp] theorem closed_drop (b : Broker) (sub : SubscriptionId) :
    (b.drop sub).closed = b.closed := by
  rw [drop_eq]

@[simp] theorem capacity_drop (b : Broker) (sub : SubscriptionId) :
    (b.drop sub).capacity = b.capacity := by
  rw [drop_eq]

theorem mailboxes_next (b : Broker) (sub : SubscriptionId) : (b.next sub).2.mailboxes =
    b.mailboxes.modify sub fun box => { box with queue := box.queue.drop 1 } := by
  unfold next
  split
  · rename_i hnone
    rw [List.modify_eq_self (List.getElem?_eq_none_iff.mp hnone)]
  · rename_i box hbox
    rw [← set_eq_modify hbox]
    split
    · rename_i m rest hqueue
      simp [hqueue]
    · rename_i hqueue
      have hsame : { box with queue := box.queue.drop 1 } = box := by
        obtain ⟨channel, queue, live, enrolled⟩ := box
        obtain rfl : queue = [] := hqueue
        rfl
      obtain ⟨hlt, rfl⟩ := List.getElem?_eq_some_iff.mp hbox
      rw [hsame, List.set_getElem_self]

theorem queueOf_eq (h : b.mailboxes[sub]? = some box) : b.queueOf sub = box.queue := by
  simp [queueOf, h]

/-- A subscriber takes the oldest message out. -/
theorem message?_next (b : Broker) (sub : SubscriptionId) :
    (b.next sub).1.message? = (b.queueOf sub).head? := by
  unfold next queueOf
  cases b.mailboxes[sub]? with
  | none => rfl
  | some box =>
    obtain ⟨channel, queue, live, enrolled⟩ := box
    cases queue with
    | nil =>
      dsimp only
      split <;> rfl
    | cons m rest => rfl

theorem mailboxes_deliverRequest (b : Broker) (channel : String) (payload : Octets)
    (timeout : Duration) : (b.deliverRequest channel payload timeout).2.mailboxes =
      b.mailboxes.map (·.receive b.capacity ⟨channel, payload, some b.exchanges.length⟩) := by
  simp only [deliverRequest]
  split <;> rfl

/-- **What a move does to the mailboxes**: to each what `Mailbox.moved` says, and one may be new. -/
theorem mailbox?_move (b : Broker) (sub : SubscriptionId) (mv : Move) :
    (b.move mv).mailboxes[sub]? =
      (b.mailboxes[sub]?.map (·.moved b sub mv)).or (b.enrolled? sub mv) := by
  cases mv with
  | enroll channel =>
    have hmoved (box : Mailbox) : box.moved b sub (.enroll channel) = box := rfl
    simp only [move, enroll, hmoved, Option.map_id', enrolled?, List.getElem?_append,
      List.getElem?_singleton]
    split
    · rename_i hlt
      simp [List.getElem?_eq_getElem hlt]
    · rename_i hlt
      have hnew (n m : Nat) (h : ¬ n < m) : n - m = 0 ↔ m = n := by omega
      simp [List.getElem?_eq_none (Nat.le_of_not_lt hlt), hnew _ _ hlt]
  | deliver channel payload => simp [move, deliver, enrolled?, Mailbox.moved]
  | deliverRequest channel payload timeout =>
    simp [move, mailboxes_deliverRequest, enrolled?, Mailbox.moved]
  | next s =>
    simp only [move, mailboxes_next, List.getElem?_modify, enrolled?, Option.or_none]
    by_cases hs : s = sub <;> simp [hs, Mailbox.moved]
  | drop s =>
    simp only [move, mailboxes_drop, List.getElem?_modify, enrolled?, Option.or_none]
    by_cases hs : s = sub <;> simp [hs, Mailbox.moved]
  | shut => simp [move, shut, enrolled?, Mailbox.moved]
  | dismiss =>
    simp only [move, enrolled?, Option.or_none, Mailbox.moved]
    cases b.closed <;> simp [dismiss]

theorem length_move (b : Broker) (mv : Move) : (b.move mv).mailboxes.length =
    b.mailboxes.length + match mv with | .enroll _ => 1 | _ => 0 := by
  cases mv with
  | enroll channel => simp [move, enroll]
  | deliver channel payload => simp [move, deliver]
  | deliverRequest channel payload timeout => simp [move, mailboxes_deliverRequest]
  | next s => simp [move, mailboxes_next]
  | drop s => simp [move]
  | shut => rfl
  | dismiss =>
    simp only [move]
    split <;> simp [dismiss]

theorem closed_move (b : Broker) (mv : Move) :
    (b.move mv).closed = (b.closed || decide (mv = .shut)) := by
  cases mv with
  | enroll channel => simp [move, enroll]
  | deliver channel payload => simp [move, deliver]
  | deliverRequest channel payload timeout =>
    simp only [move, deliverRequest]
    split <;> simp [deliver]
  | next s =>
    simp only [move, next]
    split
    · simp
    · split <;> simp
  | drop s => simp [move]
  | shut => simp [move, shut]
  | dismiss =>
    simp only [move]
    split <;> simp [dismiss]

theorem capacity_move (b : Broker) (mv : Move) : (b.move mv).capacity = b.capacity := by
  cases mv with
  | enroll | deliver | shut => rfl
  | deliverRequest channel payload timeout =>
    simp only [move, deliverRequest]
    split <;> rfl
  | next s =>
    simp only [move, next]
    split
    · rfl
    · split <;> rfl
  | drop s => exact capacity_drop b s
  | dismiss =>
    simp only [move]
    split <;> rfl

end Mailboxes

/-! ## What a mailbox takes -/

theorem Mailbox.receive_live (box : Mailbox) (capacity : Nat) (m : Message) :
    (box.receive capacity m).live = box.live := by
  unfold receive
  split
  · rfl
  · split <;> rfl

theorem Mailbox.receive_channel (box : Mailbox) (capacity : Nat) (m : Message) :
    (box.receive capacity m).channel = box.channel := by
  unfold receive
  split
  · rfl
  · split <;> rfl

theorem Mailbox.receive_queue (box : Mailbox) (capacity : Nat) (m : Message) :
    (box.receive capacity m).queue = box.queue ++ if box.accepts capacity m then [m] else [] := by
  unfold receive
  split
  · rfl
  · split <;> exact (List.append_nil _).symm

/-- Delivery strikes no mailbox off whose subscriber is there. -/
theorem Mailbox.receive_enrolled {box : Mailbox} {capacity : Nat}
    (h : box.live = true → box.enrolled = true) (m : Message)
    (hlive : (box.receive capacity m).live = true) :
    (box.receive capacity m).enrolled = true := by
  rw [receive_live] at hlive
  unfold receive
  split
  · exact h hlive
  · simp [hlive, h hlive]

/-- A message over another channel does not come to a mailbox. -/
theorem Mailbox.receive_of_ne (box : Mailbox) (capacity : Nat) {m : Message}
    (h : box.channel ≠ m.channel) : box.receive capacity m = box := by
  simp [receive, accepts, h]

/-! ## What lies in a mailbox -/

/-- Whether a move takes messages out of the mailbox of a subscription. -/
def Move.empties (sub : SubscriptionId) : Move → Bool
  | next s => s == sub
  | drop s => s == sub
  | _ => false

/-- **What lies in a mailbox keeps its place** until somebody takes messages out of it. -/
theorem queueOf_prefix_move {b : Broker} {sub : SubscriptionId} {mv : Move}
    (hkept : mv.empties sub = false) : b.queueOf sub <+: (b.move mv).queueOf sub := by
  cases hbox : b.mailboxes[sub]? with
  | none =>
    have hempty : b.queueOf sub = [] := by simp [queueOf, hbox]
    rw [hempty]
    exact List.nil_prefix
  | some box =>
    have hmoved : (b.move mv).mailboxes[sub]? = some (box.moved b sub mv) := by
      rw [mailbox?_move, hbox]
      rfl
    rw [queueOf_eq hbox, queueOf_eq hmoved]
    cases mv with
    | enroll | shut => exact List.prefix_rfl
    | deliver | deliverRequest =>
      simp only [Mailbox.moved, Mailbox.receive_queue]
      exact List.prefix_append ..
    | next s | drop s =>
      have hs : s ≠ sub := by simpa [Move.empties] using hkept
      simp only [Mailbox.moved, if_neg hs]
      exact List.prefix_rfl
    | dismiss =>
      simp only [Mailbox.moved]
      split <;> exact List.prefix_rfl

theorem queueOf_next (b : Broker) (sub : SubscriptionId) :
    (b.next sub).2.queueOf sub = (b.queueOf sub).drop 1 := by
  unfold queueOf
  rw [mailboxes_next, List.getElem?_modify]
  cases b.mailboxes[sub]? <;> simp

end UserDirectory.Broker
