import UserDirectory.Broker.Basic

/-!
# Exchanges and mailboxes

How an exchange stands is looked at by number, so each operation of the broker is described by what
it does to the standing of a given exchange. What has ended stays as it ended: nothing but the end
of an exchange changes its standing.
-/

namespace UserDirectory.Broker

open Time (Duration)

/-! ## Exchanges -/

/-- An exchange that has ended. -/
def Ended (st : Standing) : Prop := st ≠ .waiting

theorem ended_answered (payload : Octets) : Ended (.answered payload) := by
  simp [Ended]

theorem Exchange.finish_of_waiting {x : Exchange} (h : x.standing = .waiting) (st : Standing) :
    (x.finish st).standing = st := by
  rw [finish, h]

theorem Exchange.finish_of_ended {x : Exchange} (h : Ended x.standing) (st : Standing) :
    x.finish st = x := by
  unfold finish
  split
  · exact absurd ‹_› h
  · rfl

theorem Exchange.dropCopies_of_ended {x : Exchange} (h : Ended x.standing) (n : Nat) :
    (x.dropCopies n).standing = x.standing := by
  have hrest : Ended ({ x with copies := x.copies - n } : Exchange).standing := h
  simp only [dropCopies, finish_of_ended hrest]
  split <;> rfl

theorem standing?_modifyExchange (b : Broker) (x y : ExchangeId) (f : Exchange → Exchange) :
    (b.modifyExchange x f).standing? y =
      b.exchanges[y]?.map fun e => (if x = y then f e else e).standing := by
  simp only [standing?, modifyExchange, List.getElem?_modify]
  cases b.exchanges[y]? <;> rfl

/-- A change that leaves ended exchanges as they are does not touch the standing of one. -/
theorem standing?_modifyExchange_of_ended {b : Broker} {x y : ExchangeId} {st : Standing}
    {f : Exchange → Exchange} (hf : ∀ e : Exchange, Ended e.standing → (f e).standing = e.standing)
    (h : b.standing? y = some st) (hst : Ended st) :
    (b.modifyExchange x f).standing? y = some st := by
  rw [standing?_modifyExchange, ← h, standing?]
  cases he : b.exchanges[y]? with
  | none => rfl
  | some e =>
    rw [standing?, he] at h
    obtain rfl := Option.some.inj h
    simp only [Option.map_some, Option.some.injEq]
    split
    · exact hf e hst
    · rfl

/-- The answer to a request that waits is its end. -/
theorem standing?_respond {b : Broker} {m : Message} {x : ExchangeId} (hm : m.exchange = some x)
    (h : b.standing? x = some .waiting) (payload : Octets) :
    (b.respond m payload).2.standing? x = some (.answered payload) := by
  simp only [respond, hm, h, standing?_modifyExchange, if_true]
  obtain ⟨e, he, hwaiting⟩ := Option.map_eq_some_iff.mp h
  rw [he, Option.map_some, Exchange.finish_of_waiting hwaiting]

/-- A copy that is gone changes nothing about an exchange that has ended. -/
theorem standing?_release {b : Broker} {y : ExchangeId} {st : Standing} (m : Message)
    (h : b.standing? y = some st) (hst : Ended st) : (b.release m).standing? y = some st := by
  unfold release
  split
  · exact h
  · exact standing?_modifyExchange_of_ended (fun e he => e.dropCopies_of_ended he 1) h hst

/-- What is published belongs to no exchange. -/
theorem standing?_publish (b : Broker) (channel : String) (payload : Octets) (x : ExchangeId) :
    (b.publish channel payload).2.standing? x = b.standing? x := by
  unfold publish
  split <;> rfl

theorem standing?_next (b : Broker) (sub : SubscriptionId) (x : ExchangeId) :
    (b.next sub).2.standing? x = b.standing? x := by
  unfold next
  split
  · rfl
  · split <;> rfl

/-! ## The door -/

@[simp] theorem closed_respond (b : Broker) (m : Message) (payload : Octets) :
    (b.respond m payload).2.closed = b.closed := by
  unfold respond
  split
  · rfl
  · split <;> rfl

@[simp] theorem closed_publish (b : Broker) (channel : String) (payload : Octets) :
    (b.publish channel payload).2.closed = b.closed := by
  unfold publish
  split <;> rfl

@[simp] theorem closed_release (b : Broker) (m : Message) : (b.release m).closed = b.closed := by
  unfold release
  split <;> rfl

/-! ## Requests -/

/-- A mailbox that takes what comes over a channel. -/
structure Serving (b : Broker) (channel : String) (sub : SubscriptionId) (box : Mailbox) :
    Prop where
  isOpen : b.closed = false
  found : b.mailboxes[sub]? = some box
  channel_eq : box.channel = channel
  live : box.live = true
  enrolled : box.enrolled = true
  room : box.queue.length < b.capacity

theorem Serving.accepts {b : Broker} {channel : String} {sub : SubscriptionId} {box : Mailbox}
    (h : b.Serving channel sub box) (payload : Octets) (x : Option ExchangeId) :
    box.accepts b.capacity ⟨channel, payload, x⟩ = true := by
  simp [Mailbox.accepts, h.channel_eq, h.live, h.enrolled, h.room]

/-- **A request that some mailbox takes waits at the end of its queue.** -/
theorem Serving.request {b : Broker} {channel : String} {sub : SubscriptionId} {box : Mailbox}
    (h : b.Serving channel sub box) (payload : Octets) (timeout : Duration) :
    ∃ x b', b.request channel payload timeout = (.ok x, b') ∧ b'.standing? x = some .waiting ∧
      b'.mailboxes[sub]? =
        some { box with queue := box.queue ++ [⟨channel, payload, some x⟩] } := by
  let x := b.exchanges.length
  let m : Message := ⟨channel, payload, some x⟩
  let copies := b.mailboxes.countP (·.accepts b.capacity m)
  let b' : Broker := { b with
    mailboxes := b.mailboxes.map (·.receive b.capacity m)
    exchanges := b.exchanges ++ [{ channel, timeout, copies }] }
  have haccepts : box.accepts b.capacity m = true := h.accepts payload (some x)
  have hcopies : copies ≠ 0 := by
    have hpos : 0 < copies :=
      List.countP_pos_iff.mpr ⟨box, List.mem_of_getElem? h.found, haccepts⟩
    omega
  refine ⟨x, b', ?_, ?_, ?_⟩
  · show b.request channel payload timeout = (.ok x, b')
    simp only [Broker.request, check, h.isOpen, Bool.false_eq_true, if_false]
    exact if_neg hcopies
  · show (b.exchanges ++ [_])[b.exchanges.length]?.map _ = _
    rw [List.getElem?_concat_length]
    rfl
  · show (b.mailboxes.map _)[sub]? = _
    rw [List.getElem?_map, h.found, Option.map_some]
    exact congrArg some (if_pos haccepts)

end UserDirectory.Broker
