import UserDirectory.Proofs.Broker.Runs

/-!
# Delivery

What a subscription receives can be read off the operations: the messages that are sent over its
channel after it was made, and before it is dropped or the broker is closed, except those that come
when its mailbox is full. They come out of the mailbox in the order in which they were sent, and
each once.

The account of a subscription is kept along a run: what it has yielded, what was thrown away with
it, and what it was offered, each message with the number of messages that were in the mailbox then.
`balance_perform` says that an operation keeps the account in balance with the mailbox, and nothing
that concerns other subscriptions alone enters into it.
-/

namespace UserDirectory.Broker

open Time (Duration)

/-! ## The account of a subscription -/

namespace Operation

/-- The subscriptions that were made, with whether they are still held, after one more operation. -/
def register (subs : List (String × Bool)) : Operation → List (String × Bool)
  | subscribe channel => subs ++ [(channel, true)]
  | drop sub => subs.modify sub fun s => (s.1, false)
  | _ => subs

end Operation

/-- The subscriptions that operations make, with whether they are still held after them. -/
def subscriptions (ops : List Operation) : List (String × Bool) := ops.foldl Operation.register []

/-- What is noted along a run: for each operation, given those before it. -/
def noted {α : Type} (f : List Operation → Operation → List α) :
    List Operation → List Operation → List α
  | _, [] => []
  | before, op :: ops => f before op ++ noted f (before ++ [op]) ops

/-- A broker of the given capacity after some operations. -/
def after (capacity : Nat) (ops : List Operation) : Broker := (init capacity).run ops

/-- The message that a subscriber takes out of its mailbox. -/
def yields (b : Broker) (sub : SubscriptionId) (op : Operation) : List Message :=
  if op = .next sub then (b.next sub).1.message?.toList else []

/-- What is thrown away with a subscription. -/
def discards (b : Broker) (sub : SubscriptionId) (op : Operation) : List Message :=
  if op = .drop sub then b.queueOf sub else []

/-- The message that an operation sends to a subscription, with the number of messages that are in
the mailbox then: one over its channel, while it is held and the broker was not closed. -/
def offers (b : Broker) (sub : SubscriptionId) (before : List Operation) (op : Operation) :
    List (Message × Nat) :=
  match op.message? b.exchanges.length with
  | none => []
  | some m =>
    if .close ∉ before ∧ (subscriptions before)[sub]? = some (m.channel, true) then
      [(m, (b.queueOf sub).length)]
    else []

section Account

variable (capacity : Nat) (sub : SubscriptionId)

/-- What a subscription has yielded. -/
def yielded (ops : List Operation) : List Message :=
  noted (fun before op => (after capacity before).yields sub op) [] ops

/-- What was thrown away with a subscription. -/
def discarded (ops : List Operation) : List Message :=
  noted (fun before op => (after capacity before).discards sub op) [] ops

/-- What was sent to a subscription, with what was in its mailbox then. -/
def offered (ops : List Operation) : List (Message × Nat) :=
  noted (fun before op => (after capacity before).offers sub before op) [] ops

end Account

theorem noted_concat {α : Type} (f : List Operation → Operation → List α)
    (before ops : List Operation) (op : Operation) :
    noted f before (ops ++ [op]) = noted f before ops ++ f (before ++ ops) op := by
  induction ops generalizing before with
  | nil => simp [noted]
  | cons first ops ih => simp [noted, ih, List.append_assoc]

@[simp] theorem after_concat (capacity : Nat) (ops : List Operation) (op : Operation) :
    after capacity (ops ++ [op]) = (after capacity ops).perform op :=
  run_concat ..

theorem tidy_after (capacity : Nat) (ops : List Operation) : (after capacity ops).Tidy :=
  tidy_run capacity ops

/-! ## What the operations tell of the broker -/

theorem closed_after (capacity : Nat) (ops : List Operation) :
    (after capacity ops).closed = true ↔ .close ∈ ops := by
  induction ops using List.reverseRecOn with
  | nil => simp [after, run, init]
  | append_singleton ops op ih =>
    have hcloses : op.closes = true ↔ .close = op := by
      cases op <;> simp [Operation.closes]
    simp [closed_perform, ih, hcloses]

/-- What an operation on an open broker does to the subscriptions. -/
theorem map_perform {b : Broker} (hopen : b.closed = false) {op : Operation} (hop : op ≠ .close) :
    (b.perform op).mailboxes.map (fun box => (box.channel, box.live)) =
      op.register (b.mailboxes.map fun box => (box.channel, box.live)) := by
  cases op with
  | subscribe channel =>
    simp [perform, subscribe, check, hopen, enroll, Operation.register]
  | drop sub =>
    rw [perform, mailboxes_drop, Operation.register]
    refine List.ext_getElem? fun i => ?_
    by_cases hi : sub = i <;> simp [hi, Function.comp_def]
  | publish channel payload =>
    simp [perform, publish, check, hopen, deliver, Operation.register, Function.comp_def,
      Mailbox.receive_live, Mailbox.receive_channel]
  | request channel payload timeout =>
    simp [perform, request, check, hopen, mailboxes_deliverRequest, Operation.register,
      Function.comp_def, Mailbox.receive_live, Mailbox.receive_channel]
  | next sub =>
    rw [perform, mailboxes_next]
    show _ = b.mailboxes.map _
    refine List.ext_getElem? fun i => ?_
    by_cases hi : sub = i <;> simp [hi, Function.comp_def]
  | close => exact absurd rfl hop

/-- While the broker is open, its mailboxes are those of the subscriptions that were made. -/
theorem subscriptions_eq (capacity : Nat) {ops : List Operation} (h : .close ∉ ops) :
    (after capacity ops).mailboxes.map (fun box => (box.channel, box.live)) =
      subscriptions ops := by
  induction ops using List.reverseRecOn with
  | nil => rfl
  | append_singleton ops op ih =>
    rw [List.mem_append, not_or, List.mem_singleton] at h
    have hopen : (after capacity ops).closed = false :=
      Bool.eq_false_iff.mpr fun hclosed => h.1 ((closed_after capacity ops).mp hclosed)
    rw [after_concat, map_perform hopen (Ne.symm h.2), ih h.1]
    simp [subscriptions]

theorem subscriberCount_eq {capacity : Nat} {ops : List Operation} (h : .close ∉ ops)
    (channel : String) :
    (after capacity ops).subscriberCount channel = (subscriptions ops).count (channel, true) := by
  have hopen : (after capacity ops).closed = false :=
    Bool.eq_false_iff.mpr fun hclosed => h ((closed_after capacity ops).mp hclosed)
  rw [← subscriptions_eq capacity h, List.count_eq_countP, List.countP_map, subscriberCount]
  refine List.countP_congr fun box hbox => ?_
  obtain ⟨sub, hsub⟩ := List.mem_iff_getElem?.mp hbox
  have htidy := tidy_after capacity ops sub box hsub
  have henrolled : box.live = true → box.enrolled = true := htidy.enrolled hopen
  cases hlive : box.live <;> simp_all

/-- Whether a subscription is held, as the operations tell, and as its mailbox tells. -/
theorem held_iff (capacity : Nat) {ops : List Operation} (sub : SubscriptionId) (channel : String) :
    (.close ∉ ops ∧ (subscriptions ops)[sub]? = some (channel, true)) ↔
      (after capacity ops).closed = false ∧ ∃ box, (after capacity ops).mailboxes[sub]? = some box ∧
        box.channel = channel ∧ box.live = true := by
  by_cases hclose : .close ∈ ops
  · simp [hclose, (closed_after capacity ops).mpr hclose]
  · have hopen : (after capacity ops).closed = false :=
      Bool.eq_false_iff.mpr fun hclosed => hclose ((closed_after capacity ops).mp hclosed)
    simp [hclose, hopen, ← subscriptions_eq capacity hclose]

/-! ## The account is in balance -/

/-- The messages that a mailbox of the given size had room for. -/
def fitting (capacity : Nat) (offers : List (Message × Nat)) : List Message :=
  (offers.filter (·.2 < capacity)).map (·.1)

section Balance

variable {capacity : Nat} {ops : List Operation} {sub : SubscriptionId} {box : Mailbox}

/-- Nothing is offered to a subscription that was not made. -/
theorem offers_of_none (h : (after capacity ops).mailboxes[sub]? = none) (op : Operation) :
    (after capacity ops).offers sub ops op = [] := by
  unfold offers
  split
  · rfl
  · rw [if_neg]
    rw [held_iff capacity, h]
    simp

/-- What a mailbox keeps of what is offered to it. -/
theorem fitting_offers (h : (after capacity ops).mailboxes[sub]? = some box) (op : Operation) :
    box.queue ++ fitting (after capacity ops).capacity ((after capacity ops).offers sub ops op) =
      (((after capacity ops).sent? op).map fun m =>
        (box.receive (after capacity ops).capacity m).queue).getD box.queue := by
  have htidy := tidy_after capacity ops sub box h
  unfold offers sent?
  cases op.message? (after capacity ops).exchanges.length with
  | none => simp [fitting]
  | some m =>
    simp only [held_iff capacity, h, queueOf_eq h]
    cases hclosed : (after capacity ops).closed with
    | true => simp [fitting]
    | false =>
      rw [hclosed] at htidy
      by_cases hheld : box.channel = m.channel ∧ box.live = true
      · obtain ⟨hchannel, hlive⟩ := hheld
        by_cases hroom : box.queue.length < (after capacity ops).capacity <;>
          simp [htidy.receive_queue, fitting, hchannel, hlive, hroom]
      · simp [htidy.receive_queue, hheld, fitting]

/-- **An operation keeps the account in balance with the mailbox.** -/
theorem balance_perform (capacity : Nat) (ops : List Operation) (sub : SubscriptionId)
    (op : Operation) :
    (after capacity ops).queueOf sub ++
        fitting (after capacity ops).capacity ((after capacity ops).offers sub ops op) =
      (after capacity ops).yields sub op ++ (after capacity ops).discards sub op ++
        ((after capacity ops).perform op).queueOf sub := by
  cases hbox : (after capacity ops).mailboxes[sub]? with
  | none =>
    rw [offers_of_none hbox]
    generalize after capacity ops = b at *
    have hmade : (b.perform op).queueOf sub = [] := by
      unfold queueOf
      rw [mailbox?_perform, hbox, Option.map_none, Option.none_or]
      unfold made?
      split
      · split <;> rfl
      · rfl
    have hqueue : b.queueOf sub = [] := by simp [queueOf, hbox]
    simp [hmade, hqueue, fitting, yields, discards, message?_next]
  | some box =>
    have hafter : ((after capacity ops).perform op).mailboxes[sub]? =
        some (box.after (after capacity ops) sub op) := by
      simp [mailbox?_perform, hbox]
    rw [queueOf_eq hbox, fitting_offers hbox, queueOf_eq hafter, yields, message?_next,
      queueOf_eq hbox]
    generalize after capacity ops = b at *
    cases op with
    | subscribe channel => simp [sent?, Operation.message?, discards, Mailbox.after]
    | drop s =>
      by_cases hs : s = sub <;>
        simp [sent?, Operation.message?, discards, Mailbox.after, hs, queueOf_eq hbox]
    | publish channel payload | request channel payload timeout =>
      simp only [discards, Mailbox.after]
      cases b.sent? _ <;> simp
    | next s =>
      by_cases hs : s = sub
      · cases hqueue : box.queue <;>
          simp [sent?, Operation.message?, discards, Mailbox.after, hs, hqueue]
      · simp [sent?, Operation.message?, discards, Mailbox.after, hs]
    | close =>
      simp only [sent?, Operation.message?, discards, Mailbox.after]
      split <;> simp_all

/-- Nothing has been thrown away with a subscription that is still held. -/
theorem discarded_eq_nil
    (h : ∀ box, (after capacity ops).mailboxes[sub]? = some box → box.live = true) :
    discarded capacity sub ops = [] := by
  induction ops using List.reverseRecOn with
  | nil => rfl
  | append_singleton ops op ih =>
    have hbefore (box : Mailbox) (hbox : (after capacity ops).mailboxes[sub]? = some box) :
        box.live = true ∧ op ≠ .drop sub := by
      have hafter := h (box.after (after capacity ops) sub op)
        (by simp [mailbox?_perform, hbox])
      exact box.after_live _ _ _ hafter
    rw [discarded, noted_concat, ← discarded, ih fun box hbox => (hbefore box hbox).1]
    show discards _ sub op = []
    cases hbox : (after capacity ops).mailboxes[sub]? with
    | none => simp [discards, queueOf, hbox]
    | some box => simp [discards, (hbefore box hbox).2]

/-- **The account of a subscription is in balance along a run.** -/
theorem balance (capacity : Nat) (ops : List Operation) (sub : SubscriptionId) :
    yielded capacity sub ops ++ discarded capacity sub ops ++ (after capacity ops).queueOf sub =
      fitting (max capacity 1) (offered capacity sub ops) := by
  induction ops using List.reverseRecOn with
  | nil => rfl
  | append_singleton ops op ih =>
    have hstep := balance_perform capacity ops sub op
    have hcapacity : (after capacity ops).capacity = max capacity 1 := capacity_run ..
    rw [hcapacity] at hstep
    -- what a subscriber takes out was in its mailbox, so nothing has been thrown away
    have hcomm : discarded capacity sub ops ++ (after capacity ops).yields sub op =
        (after capacity ops).yields sub op ++ discarded capacity sub ops := by
      by_cases hlive : ∀ box, (after capacity ops).mailboxes[sub]? = some box → box.live = true
      · simp [discarded_eq_nil hlive]
      · simp only [not_forall, Bool.not_eq_true] at hlive
        obtain ⟨box, hbox, hdead⟩ := hlive
        have hempty := (tidy_after capacity ops sub box hbox).emptied hdead
        simp [yields, message?_next, queueOf_eq hbox, hempty]
    calc yielded capacity sub (ops ++ [op]) ++ discarded capacity sub (ops ++ [op]) ++
          (after capacity (ops ++ [op])).queueOf sub
        = yielded capacity sub ops ++ ((after capacity ops).yields sub op ++
            discarded capacity sub ops) ++ (after capacity ops).discards sub op ++
              ((after capacity ops).perform op).queueOf sub := by
          simp [yielded, discarded, noted_concat]
      _ = yielded capacity sub ops ++ discarded capacity sub ops ++
            ((after capacity ops).yields sub op ++ (after capacity ops).discards sub op ++
              ((after capacity ops).perform op).queueOf sub) := by
          rw [← hcomm]
          simp
      _ = fitting (max capacity 1) (offered capacity sub ops) ++
            fitting (max capacity 1) ((after capacity ops).offers sub ops op) := by
          rw [← hstep, ← List.append_assoc, ih]
      _ = fitting (max capacity 1) (offered capacity sub (ops ++ [op])) := by
          simp [offered, noted_concat, fitting]

end Balance

/-! ## What concerns a subscription -/

namespace Operation

/-- Whether an operation is about the subscription `sub`, which is one of `channel`, or is about all
of them. -/
def concerns (sub : SubscriptionId) (channel : String) : Operation → Bool
  | subscribe _ => true
  | drop s => s == sub
  | publish c _ => c == channel
  | request c _ _ => c == channel
  | next s => s == sub
  | close => true

end Operation

/-- A message without the exchange to which an answer leads. -/
def Message.letter (m : Message) : String × Octets × Bool := (m.channel, m.payload, m.expectsReply)

/-- Two mailboxes that hold the same letters. -/
structure Mailbox.Like (box box' : Mailbox) : Prop where
  channel : box.channel = box'.channel
  queue : box.queue.map Message.letter = box'.queue.map Message.letter
  live : box.live = box'.live
  enrolled : box.enrolled = box'.enrolled

/-- Two brokers that are alike to a subscription. -/
structure Like (sub : SubscriptionId) (b b' : Broker) : Prop where
  closed : b.closed = b'.closed
  capacity : b.capacity = b'.capacity
  length : b.mailboxes.length = b'.mailboxes.length
  mailbox : Option.Rel Mailbox.Like b.mailboxes[sub]? b'.mailboxes[sub]?

section Like

variable {b b' : Broker} {sub : SubscriptionId} {box box' : Mailbox} {op : Operation}

theorem Mailbox.Like.receive (h : box.Like box') (capacity : Nat) {m m' : Message}
    (hletter : m.letter = m'.letter) :
    (box.receive capacity m).Like (box'.receive capacity m') := by
  have hchannel : m.channel = m'.channel := congrArg Prod.fst hletter
  have hlength : box.queue.length = box'.queue.length := by
    simpa using congrArg List.length h.queue
  have haccepts : box.accepts capacity m = box'.accepts capacity m' := by
    simp [accepts, h.channel, hchannel, h.live, h.enrolled, hlength]
  have hgone : (box.channel == m.channel && !box.live) =
      (box'.channel == m'.channel && !box'.live) := by
    rw [h.channel, hchannel, h.live]
  unfold Mailbox.receive
  rw [haccepts, hgone]
  split
  · exact ⟨h.channel, by simp [h.queue, hletter], h.live, h.enrolled⟩
  · split
    · exact ⟨h.channel, h.queue, h.live, rfl⟩
    · exact h

theorem Mailbox.Like.receive? (h : box.Like box') (capacity : Nat) {sent sent' : Option Message}
    (hsent : Option.Rel (fun m m' => m.letter = m'.letter) sent sent') :
    ((sent.map (box.receive capacity)).getD box).Like
      ((sent'.map (box'.receive capacity)).getD box') := by
  cases hsent with
  | none => exact h
  | some hletter => exact h.receive capacity hletter

theorem Like.sent? (h : Like sub b b') (op : Operation) :
    Option.Rel (fun m m' => m.letter = m'.letter) (b.sent? op) (b'.sent? op) := by
  unfold Broker.sent?
  rw [h.closed]
  split
  · exact .none
  · cases op with
    | publish | request => exact .some rfl
    | subscribe | drop | next | close => exact .none

theorem Like.after (h : Like sub b b') (hbox : box.Like box') (op : Operation) :
    (box.after b sub op).Like (box'.after b' sub op) := by
  cases op with
  | subscribe channel => exact hbox
  | drop s =>
    simp only [Mailbox.after]
    split
    · exact ⟨hbox.channel, rfl, rfl, hbox.enrolled⟩
    · exact hbox
  | publish channel payload | request channel payload timeout =>
    simp only [Mailbox.after, h.capacity]
    exact hbox.receive? _ (h.sent? _)
  | next s =>
    simp only [Mailbox.after]
    split
    · refine ⟨hbox.channel, ?_, hbox.live, hbox.enrolled⟩
      rw [List.map_drop, List.map_drop, hbox.queue]
    · exact hbox
  | close =>
    simp only [Mailbox.after, h.closed]
    split
    · exact hbox
    · exact ⟨hbox.channel, hbox.queue, hbox.live, rfl⟩

/-- An operation leaves brokers alike that are alike. -/
theorem Like.perform (h : Like sub b b') (op : Operation) :
    Like sub (b.perform op) (b'.perform op) where
  closed := by rw [closed_perform, closed_perform, h.closed]
  capacity := by rw [capacity_perform, capacity_perform, h.capacity]
  length := by rw [length_perform, length_perform, h.closed, h.length]
  mailbox := by
    have hmade : b.made? sub op = b'.made? sub op := by
      simp only [made?, h.closed, h.length]
    have hbefore := h.mailbox
    rw [mailbox?_perform, mailbox?_perform, hmade]
    generalize b.mailboxes[sub]? = old, b'.mailboxes[sub]? = old' at hbefore ⊢
    cases hbefore with
    | some hbox => exact .some (h.after hbox op)
    | none =>
      cases b'.made? sub op with
      | none => exact .none
      | some box => exact .some ⟨rfl, rfl, rfl, rfl⟩

/-- A mailbox is left as it is by what does not concern its subscription. -/
theorem Mailbox.after_of_not_concerns (h : op.concerns sub box.channel = false) :
    box.after b sub op = box := by
  cases op with
  | subscribe channel | close => cases h
  | drop s | next s =>
    have hs : s ≠ sub := by simpa [Operation.concerns] using h
    simp [Mailbox.after, hs]
  | publish channel payload | request channel payload timeout =>
    have hchannel : box.channel ≠ channel := fun heq => by
      simp [Operation.concerns, heq] at h
    simp only [Mailbox.after, sent?, Operation.message?]
    split
    · rfl
    · exact box.receive_of_ne _ hchannel

/-- What does not concern a subscription makes none, and does not close the broker. -/
theorem Operation.eq_false_of_not_concerns {channel : String}
    (h : op.concerns sub channel = false) :
    op.subscribes = false ∧ op.closes = false ∧ op ≠ .next sub := by
  cases op with
  | subscribe | close => cases h
  | drop | publish | request => exact ⟨rfl, rfl, Operation.noConfusion⟩
  | next s => exact ⟨rfl, rfl, by simpa [concerns] using h⟩

theorem Like.perform_left (h : Like sub b b') {channel : String}
    (hchannel : ∀ box, b.mailboxes[sub]? = some box → box.channel = channel)
    (hop : op.concerns sub channel = false) : Like sub (b.perform op) b' := by
  obtain ⟨hsubscribes, hcloses, -⟩ := Operation.eq_false_of_not_concerns hop
  have hmade : b.made? sub op = none := by
    cases op with
    | subscribe => cases hsubscribes
    | drop | publish | request | next | close => rfl
  have hmailbox : (b.perform op).mailboxes[sub]? = b.mailboxes[sub]? := by
    rw [mailbox?_perform, hmade, Option.or_none]
    cases hbox : b.mailboxes[sub]? with
    | none => rfl
    | some box =>
      exact congrArg some (Mailbox.after_of_not_concerns (hchannel box hbox ▸ hop))
  exact ⟨by rw [closed_perform, hcloses, Bool.or_false, h.closed],
    by rw [capacity_perform, h.capacity], by simp [length_perform, hsubscribes, h.length],
    hmailbox ▸ h.mailbox⟩

theorem Like.queueOf (h : Like sub b b') :
    (b.queueOf sub).map Message.letter = (b'.queueOf sub).map Message.letter := by
  have hmailbox := h.mailbox
  unfold Broker.queueOf
  generalize b.mailboxes[sub]? = old, b'.mailboxes[sub]? = old' at hmailbox ⊢
  cases hmailbox with
  | none => rfl
  | some hbox => exact hbox.queue

theorem Like.yields (h : Like sub b b') (op : Operation) :
    (b.yields sub op).map Message.letter = (b'.yields sub op).map Message.letter := by
  have hheads := congrArg List.head? h.queueOf
  rw [List.head?_map, List.head?_map] at hheads
  unfold Broker.yields
  rw [message?_next, message?_next]
  split
  · rw [← Option.toList_map, ← Option.toList_map, hheads]
  · rfl

/-- **What does not concern a subscription changes nothing for it.** -/
theorem like_filter {capacity : Nat} (ops : List Operation) {sub : SubscriptionId}
    {channel : String}
    (h : ∀ box, (after capacity ops).mailboxes[sub]? = some box → box.channel = channel) :
    Like sub (after capacity ops) (after capacity (ops.filter (·.concerns sub channel))) ∧
      (yielded capacity sub ops).map Message.letter =
        (yielded capacity sub (ops.filter (·.concerns sub channel))).map Message.letter := by
  induction ops using List.reverseRecOn with
  | nil => exact ⟨⟨rfl, rfl, rfl, .none⟩, rfl⟩
  | append_singleton ops op ih =>
    have hbefore (box : Mailbox) (hbox : (after capacity ops).mailboxes[sub]? = some box) :
        box.channel = channel := by
      rw [← box.after_channel (after capacity ops) sub op]
      exact h _ (by simp [mailbox?_perform, hbox])
    obtain ⟨hlike, hyielded⟩ := ih hbefore
    have hconcat (ops : List Operation) : (yielded capacity sub (ops ++ [op])).map Message.letter =
        (yielded capacity sub ops).map Message.letter ++
          ((after capacity ops).yields sub op).map Message.letter := by
      simp [yielded, noted_concat]
    rw [List.filter_append, hconcat, after_concat]
    cases hop : op.concerns sub channel with
    | true =>
      have hlast : [op].filter (·.concerns sub channel) = [op] := by simp [hop]
      rw [hlast, after_concat, hconcat, hyielded, hlike.yields]
      exact ⟨hlike.perform op, rfl⟩
    | false =>
      have hnext := (Operation.eq_false_of_not_concerns hop).2.2
      have hlast : [op].filter (·.concerns sub channel) = [] := by simp [hop]
      rw [hlast, List.append_nil]
      refine ⟨hlike.perform_left hbefore hop, ?_⟩
      simp [hyielded, yields, hnext]

end Like

/-- **Delivery.** What a subscription has yielded, and what is in its mailbox or was thrown away
with it, are the messages that were sent over its channel while it was held and the broker was open,
but for those that came when the mailbox was full; no mailbox holds more than fits; what concerns
other subscriptions alone changes nothing for it; and an open broker counts the subscriptions of a
channel that are held. -/
theorem delivery (capacity : Nat) (ops : List Operation) :
    (∀ sub, yielded capacity sub ops ++ discarded capacity sub ops ++
      (after capacity ops).queueOf sub =
        ((offered capacity sub ops).filter (·.2 < max capacity 1)).map (·.1)) ∧
    (∀ box ∈ (after capacity ops).mailboxes, box.queue.length ≤ max capacity 1) ∧
    (∀ sub box, (after capacity ops).mailboxes[sub]? = some box →
      (box.live = true → discarded capacity sub ops = []) ∧
      (yielded capacity sub ops).map Message.letter =
        (yielded capacity sub (ops.filter (·.concerns sub box.channel))).map Message.letter ∧
      ((after capacity ops).queueOf sub).map Message.letter =
        ((after capacity (ops.filter (·.concerns sub box.channel))).queueOf sub).map
          Message.letter) ∧
    (.close ∉ ops → ∀ channel,
      (after capacity ops).subscriberCount channel =
        (subscriptions ops).count (channel, true)) := by
  refine ⟨balance capacity ops, fun box hbox => ?_, fun sub box hbox => ?_, subscriberCount_eq⟩
  · obtain ⟨sub, hsub⟩ := List.mem_iff_getElem?.mp hbox
    have hcapacity : (after capacity ops).capacity = max capacity 1 := capacity_run ..
    exact hcapacity ▸ (tidy_after capacity ops sub box hsub).bounded
  · have honly (box' : Mailbox) (hbox' : (after capacity ops).mailboxes[sub]? = some box') :
        box' = box := Option.some.inj (hbox'.symm.trans hbox)
    obtain ⟨hlike, hyielded⟩ :=
      like_filter ops fun box' hbox' => congrArg Mailbox.channel (honly box' hbox')
    refine ⟨fun hlive => ?_, hyielded, hlike.queueOf⟩
    exact discarded_eq_nil fun box' hbox' => honly box' hbox' ▸ hlive

/-- Two subscriptions of one channel, of which the second takes nothing and is dropped. -/
def oneLags : List Operation :=
  [.subscribe "a", .subscribe "a", .publish "a" [1], .next 0, .request "a" [2] (.ofMillis 50),
    .drop 1, .next 0, .publish "a" [3], .publish "a" [4]]

theorem delivery_oneLags :
    yielded 1 0 oneLags ++ discarded 1 0 oneLags ++ (after 1 oneLags).queueOf 0 =
      [⟨"a", [1], none⟩, ⟨"a", [2], some 0⟩, ⟨"a", [3], none⟩] ∧
    discarded 1 0 oneLags = [] ∧
    discarded 1 1 oneLags = [⟨"a", [1], none⟩] ∧
    (yielded 1 0 oneLags).map Message.letter =
      (yielded 1 0 [.subscribe "a", .subscribe "a", .publish "a" [1], .next 0,
        .request "a" [2] (.ofMillis 50), .next 0, .publish "a" [3], .publish "a" [4]]).map
          Message.letter ∧
    (after 1 oneLags).subscriberCount "a" = 1 := by
  obtain ⟨hbalance, -, hself, hcount⟩ := delivery 1 oneLags
  obtain ⟨hheld, hyielded, -⟩ := hself 0 _ rfl
  exact ⟨hbalance 0, hheld rfl, by decide, hyielded, hcount (by decide) "a"⟩

end UserDirectory.Broker
