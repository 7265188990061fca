import Mathlib.Data.List.Perm.Basic
import UserDirectory.Proofs.Broker.Moves

/-!
# The copies of a request

A copy of a request is in a mailbox or in the hands of a handler, which may answer it, copy it and
let go of it. `Scene` is a broker with the messages in hands, `Event` all that may happen to them.

An exchange counts its copies, and what it counts are the copies that there are: `Counted` says so,
and that a request which waits has one. `becomes_step` says what an event makes of one exchange,
from which both follow. Copies that go together, as those in a mailbox that is dropped, are let go
one after another, and that is as if all went at once (`exchange_foldl_release`).
-/

namespace UserDirectory.Broker

open Time (Duration)

/-- Whether an answer to a message ends an exchange. -/
def Message.leadsTo (x : ExchangeId) (m : Message) : Bool := m.exchange == some x

/-- A copy of a message is made. -/
def retain (b : Broker) (m : Message) : Broker :=
  match m.exchange with
  | none => b
  | some x => b.modifyExchange x fun e => { e with copies := e.copies + 1 }

/-- The copies of a request in mailboxes. -/
def queuedCopies (b : Broker) (x : ExchangeId) : Nat :=
  (b.mailboxes.map (·.queue.countP (·.leadsTo x))).sum

/-- A broker, and the messages that were taken out of mailboxes and are not gone. -/
structure Scene where
  broker : Broker
  hands : List Message := []

/-- What may happen to a broker and to the messages in hands, which go by their place there. -/
inductive Event
  | move (mv : Move)
  | respond (i : Nat) (payload : Octets)
  | copy (i : Nat)
  | discard (i : Nat)
  /-- the time of an exchange is over -/
  | expire (x : ExchangeId)
  /-- nobody waits for an exchange any more -/
  | abandon (x : ExchangeId)

namespace Scene

/-- The message that a move takes out of a mailbox. -/
def takes (b : Broker) : Move → List Message
  | .next sub => (b.next sub).1.message?.toList
  | _ => []

/-- What becomes of a scene by an event; one about a message that is not in hands does nothing. -/
def step (s : Scene) : Event → Scene
  | .move mv => { broker := s.broker.move mv, hands := s.hands ++ takes s.broker mv }
  | .respond i payload =>
    match s.hands[i]? with
    | none => s
    | some m => { s with broker := (s.broker.respond m payload).2 }
  | .copy i =>
    match s.hands[i]? with
    | none => s
    | some m => { broker := s.broker.retain m, hands := s.hands ++ [m] }
  | .discard i =>
    match s.hands[i]? with
    | none => s
    | some m => { broker := s.broker.release m, hands := s.hands.eraseIdx i }
  | .expire x => { s with broker := s.broker.expire x }
  | .abandon x => { s with broker := s.broker.abandon x }

def run (s : Scene) (es : List Event) : Scene := es.foldl step s

/-- The copies of a request, in mailboxes and in hands. -/
def copies (s : Scene) (x : ExchangeId) : Nat :=
  s.broker.queuedCopies x + s.hands.countP (·.leadsTo x)

end Scene

/-- An open broker delivers to every mailbox whose subscriber is there. -/
def Listed (b : Broker) : Prop :=
  b.closed = false → ∀ (sub : SubscriptionId) (box : Mailbox),
    b.mailboxes[sub]? = some box → box.live = true → box.enrolled = true

/-- On an open broker no move strikes off a mailbox whose subscriber is there. -/
theorem Mailbox.moved_listed {box : Mailbox} {b : Broker} (hopen : b.closed = false)
    (h : box.live = true → box.enrolled = true) (sub : SubscriptionId) (mv : Move)
    (hlive : (box.moved b sub mv).live = true) : (box.moved b sub mv).enrolled = true := by
  cases mv with
  | enroll | shut => exact h hlive
  | deliver | deliverRequest => exact receive_enrolled h _ hlive
  | next s =>
    have hlive' : box.live = true := by
      simp only [moved] at hlive
      split at hlive <;> exact hlive
    simp only [moved]
    split <;> exact h hlive'
  | drop s =>
    simp only [moved] at hlive ⊢
    split
    · rename_i hs
      rw [if_pos hs] at hlive
      cases hlive
    · rename_i hs
      rw [if_neg hs] at hlive
      exact h hlive
  | dismiss =>
    simp only [moved, hopen] at hlive ⊢
    exact h hlive

theorem Listed.move {b : Broker} (h : b.Listed) (mv : Move) : (b.move mv).Listed := by
  intro hopen sub box' hbox' hlive
  rw [closed_move, Bool.or_eq_false_iff] at hopen
  rw [mailbox?_move] at hbox'
  cases hbox : b.mailboxes[sub]? with
  | none =>
    rw [hbox, Option.map_none, Option.none_or] at hbox'
    unfold enrolled? at hbox'
    split at hbox'
    · obtain ⟨-, rfl⟩ : _ ∧ _ = box' := by simpa using hbox'
      rfl
    · cases hbox'
  | some box =>
    obtain rfl : box.moved b sub mv = box' := by simpa [hbox] using hbox'
    exact Mailbox.moved_listed hopen.1 (h hopen.1 sub box hbox) sub mv hlive

/-! ## Copies that are gone -/

/-- To let go of copies in two steps is to let go of them at once. -/
theorem Exchange.dropCopies_dropCopies (e : Exchange) (m n : Nat) :
    (e.dropCopies m).dropCopies n = e.dropCopies (m + n) := by
  obtain ⟨channel, timeout, copies, standing⟩ := e
  by_cases hm : copies - m = 0
  · have hmn : copies - (m + n) = 0 := by omega
    cases standing <;> simp [dropCopies, finish, hm, hmn]
  · simp [dropCopies, hm, Nat.sub_sub]

theorem exchange_release (b : Broker) (m : Message) (x : ExchangeId) :
    (b.release m).exchanges[x]? =
      b.exchanges[x]?.map fun e => if m.leadsTo x then e.dropCopies 1 else e := by
  unfold release Message.leadsTo
  split
  · rename_i hnone
    simp [hnone]
  · rename_i y hy
    by_cases hxy : y = x <;> simp [hy, hxy, modifyExchange]

theorem exchange_retain (b : Broker) (m : Message) (x : ExchangeId) :
    (b.retain m).exchanges[x]? = b.exchanges[x]?.map fun e =>
      if m.leadsTo x then { e with copies := e.copies + 1 } else e := by
  unfold retain Message.leadsTo
  split
  · rename_i hnone
    simp [hnone]
  · rename_i y hy
    by_cases hxy : y = x <;> simp [hy, hxy, modifyExchange]

@[simp] theorem mailboxes_retain (b : Broker) (m : Message) :
    (b.retain m).mailboxes = b.mailboxes := by
  unfold retain
  split <;> rfl

/-- **Copies that are let go one after another** go as if at once. -/
theorem exchange_foldl_release (ms : List Message) (b : Broker) (x : ExchangeId) :
    (ms.foldl release b).exchanges[x]? = b.exchanges[x]?.map fun e =>
      if ms.countP (·.leadsTo x) = 0 then e else e.dropCopies (ms.countP (·.leadsTo x)) := by
  induction ms generalizing b with
  | nil => simp
  | cons m ms ih =>
    rw [List.foldl_cons, ih, exchange_release]
    cases b.exchanges[x]? with
    | none => rfl
    | some e =>
      cases hm : m.leadsTo x with
      | false => simp [hm]
      | true =>
        by_cases hms : ms.countP (·.leadsTo x) = 0 <;>
          simp [hm, hms, Exchange.dropCopies_dropCopies, Nat.add_comm]

theorem exchanges_drop (b : Broker) (sub : SubscriptionId) (x : ExchangeId) :
    (b.drop sub).exchanges[x]? = b.exchanges[x]?.map fun e =>
      if (b.queueOf sub).countP (·.leadsTo x) = 0 then e
      else e.dropCopies ((b.queueOf sub).countP (·.leadsTo x)) := by
  unfold drop queueOf
  cases b.mailboxes[sub]? with
  | none => simp
  | some box => exact exchange_foldl_release box.queue _ x

/-! ## Copies in mailboxes -/

theorem queuedCopies_drop (b : Broker) (sub : SubscriptionId) (x : ExchangeId) :
    (b.drop sub).queuedCopies x + (b.queueOf sub).countP (·.leadsTo x) = b.queuedCopies x := by
  unfold queuedCopies queueOf
  rw [mailboxes_drop]
  cases hbox : b.mailboxes[sub]? with
  | none => simp [List.modify_eq_self (List.getElem?_eq_none_iff.mp hbox)]
  | some box =>
    have hsum := sum_map_modify (fun box : Mailbox => box.queue.countP (·.leadsTo x))
      (fun box => { box with queue := [], live := false }) hbox
    simpa using hsum

theorem queuedCopies_next (b : Broker) (sub : SubscriptionId) (x : ExchangeId) :
    (b.next sub).2.queuedCopies x + (b.next sub).1.message?.toList.countP (·.leadsTo x) =
      b.queuedCopies x := by
  rw [message?_next]
  unfold queuedCopies queueOf
  rw [mailboxes_next]
  cases hbox : b.mailboxes[sub]? with
  | none => simp [List.modify_eq_self (List.getElem?_eq_none_iff.mp hbox)]
  | some box =>
    have hsum := sum_map_modify (fun box : Mailbox => box.queue.countP (·.leadsTo x))
      (fun box => { box with queue := box.queue.drop 1 }) hbox
    have hsplit : box.queue.countP (·.leadsTo x) =
        box.queue.head?.toList.countP (·.leadsTo x) +
          (box.queue.drop 1).countP (·.leadsTo x) := by
      cases box.queue <;> simp [List.countP_cons, Nat.add_comm]
    simp only [Option.map_some, Option.getD_some] at hsum ⊢
    omega

theorem queuedCopies_deliver (b : Broker) (m : Message) (x : ExchangeId) :
    (b.deliver m).2.queuedCopies x =
      b.queuedCopies x + if m.leadsTo x then (b.deliver m).1 else 0 := by
  simp only [queuedCopies, deliver]
  induction b.mailboxes with
  | nil => simp
  | cons box boxes ih =>
    simp only [List.map_cons, List.sum_cons, List.countP_cons, ih, box.receive_queue]
    by_cases hm : m.leadsTo x <;> cases box.accepts b.capacity m <;> simp [hm] <;> omega

theorem queuedCopies_deliverRequest (b : Broker) (channel : String) (payload : Octets)
    (timeout : Duration) (x : ExchangeId) :
    (b.deliverRequest channel payload timeout).2.queuedCopies x = b.queuedCopies x +
      if b.exchanges.length = x then
        (b.deliver ⟨channel, payload, some b.exchanges.length⟩).1
      else 0 := by
  have hdeliver : (b.deliverRequest channel payload timeout).2.queuedCopies x =
      (b.deliver ⟨channel, payload, some b.exchanges.length⟩).2.queuedCopies x := by
    simp only [queuedCopies, mailboxes_deliverRequest, deliver]
  rw [hdeliver, queuedCopies_deliver]
  simp [Message.leadsTo]

/-! ## Exchanges and moves -/

/-- The copies of a request that a move throws away. -/
def lost (b : Broker) (x : ExchangeId) : Move → Nat
  | .drop sub => (b.queueOf sub).countP (·.leadsTo x)
  | _ => 0

/-- The exchange of the given number that a move opens, if it opens that. -/
def opens? (b : Broker) (x : ExchangeId) : Move → Option Exchange
  | .deliverRequest channel payload timeout =>
    let copies := (b.deliver ⟨channel, payload, some b.exchanges.length⟩).1
    if b.exchanges.length = x ∧ copies ≠ 0 then some { channel, timeout, copies } else none
  | _ => none

theorem opens?_of_lt {b : Broker} {x : ExchangeId} (mv : Move) (h : x < b.exchanges.length) :
    b.opens? x mv = none := by
  cases mv with
  | deliverRequest => simp [opens?, Nat.ne_of_gt h]
  | enroll | deliver | next | drop | shut | dismiss => rfl

/-- The move that opens an exchange makes copies, and throws none away. -/
theorem opens?_eq_some {b : Broker} {x : ExchangeId} {mv : Move} {e : Exchange}
    (h : b.opens? x mv = some e) : 0 < e.copies ∧ b.lost x mv = 0 := by
  cases mv with
  | deliverRequest channel payload timeout =>
    simp only [opens?] at h
    split at h
    · rename_i hopens
      obtain rfl := Option.some.inj h
      exact ⟨Nat.pos_of_ne_zero hopens.2, rfl⟩
    · cases h
  | enroll | deliver | next | drop | shut | dismiss => cases h

/-- **What a move does to the exchanges**: copies are gone, and a request opens a new one. -/
theorem exchange_move (b : Broker) (mv : Move) (x : ExchangeId) :
    (b.move mv).exchanges[x]? = (b.exchanges[x]?.map fun e =>
      if b.lost x mv = 0 then e else e.dropCopies (b.lost x mv)).or (b.opens? x mv) := by
  cases mv with
  | enroll | deliver | shut => simp [move, enroll, deliver, shut, lost, opens?]
  | dismiss =>
    simp only [move, lost, opens?]
    split <;> simp [dismiss]
  | drop sub => simp [move, exchanges_drop, lost, opens?]
  | deliverRequest channel payload timeout =>
    simp only [move, deliverRequest, lost, opens?]
    have hsame (m : Message) : (b.deliver m).2.exchanges = b.exchanges := rfl
    generalize hcopies : (b.deliver ⟨channel, payload, some b.exchanges.length⟩).1 = copies
    by_cases hnobody : copies = 0
    · simp [hnobody, hsame]
    · by_cases hlt : x < b.exchanges.length
      · simp [hnobody, hsame, List.getElem?_append_left hlt, List.getElem?_eq_getElem hlt]
      · have hnew (n m : Nat) (h : ¬ m < n) : m - n = 0 ↔ n = m := by omega
        simp [hnobody, hsame, List.getElem?_append_right (Nat.le_of_not_lt hlt),
          List.getElem?_eq_none (Nat.le_of_not_lt hlt), List.getElem?_singleton, hnew _ _ hlt]
  | next sub =>
    simp only [move, next, lost, opens?]
    split
    · simp
    · split <;> simp

/-! ## What an event makes of an exchange -/

/-- What becomes of an exchange `e`: of the same request, it counts `copies`, and if it waits, it
may end with `ended`. -/
structure Exchange.Becomes (e e' : Exchange) (copies : Nat) (ended : Option Standing) : Prop where
  channel : e'.channel = e.channel
  timeout : e'.timeout = e.timeout
  copies : e'.copies = copies
  standing : e'.standing = if e.standing = .waiting then ended.getD .waiting else e.standing

/-- How an exchange ends when so many copies are left. -/
def Exchange.unanswered? (e : Exchange) (copies : Nat) : Option Standing :=
  if copies = 0 then some (.failed (.noReply e.channel)) else none

namespace Exchange

variable {e : Exchange} {k n : Nat}

theorem becomes_finish (h : e.copies = n) (st : Standing) :
    e.Becomes (e.finish st) n (some st) := by
  obtain ⟨channel, timeout, copies, standing⟩ := e
  cases standing <;> exact ⟨rfl, rfl, h, rfl⟩

theorem becomes_self (h : e.copies = n) : e.Becomes e n none := by
  refine ⟨rfl, rfl, h, ?_⟩
  split
  · assumption
  · rfl

/-- When copies are gone, a request that waits ends if none is left. -/
theorem becomes_dropCopies (h : e.copies = k + n) (hwaiting : e.standing = .waiting → 0 < k + n) :
    e.Becomes (if n = 0 then e else e.dropCopies n) k (e.unanswered? k) := by
  by_cases hn : n = 0
  · subst hn
    have hleft : e.standing = .waiting → k ≠ 0 := fun h => Nat.ne_of_gt (hwaiting h)
    refine ⟨rfl, rfl, h, ?_⟩
    by_cases hst : e.standing = .waiting
    · simp [hst, unanswered?, hleft hst]
    · simp [hst]
  · rw [if_neg hn]
    obtain ⟨channel, timeout, copies, standing⟩ := e
    obtain rfl : copies = k + n := h
    by_cases hk : k = 0
    · cases standing <;>
        exact ⟨by simp [dropCopies, finish, hk], by simp [dropCopies, finish, hk],
          by simp [dropCopies, finish, hk], by simp [dropCopies, finish, unanswered?, hk]⟩
    · exact ⟨by simp [dropCopies, hk], by simp [dropCopies, hk], by simp [dropCopies, hk],
        by simp [dropCopies, unanswered?, hk]⟩

end Exchange

namespace Scene

/-- The end of a request that waits, if an event ends it: the first answer to a copy, the end of its
time, or that no copy is left. -/
def ends (s : Scene) (x : ExchangeId) (channel : String) (timeout : Duration) (ev : Event) :
    Option Standing :=
  match ev with
  | .respond i payload =>
    if (s.hands[i]?).any (·.leadsTo x) then some (.answered payload) else none
  | .expire y => if y = x then some (.failed (.timeout channel timeout)) else none
  | .abandon y => if y = x then some .abandoned else none
  | .move _ | .copy _ | .discard _ =>
    if (s.step ev).copies x = 0 then some (.failed (.noReply channel)) else none

/-- **An exchange counts the copies of its request**, and a request that waits has one. -/
structure Counted (s : Scene) : Prop where
  listed : s.broker.Listed
  copies : ∀ {x e}, s.broker.exchanges[x]? = some e → e.copies = s.copies x
  waiting : ∀ {x e}, s.broker.exchanges[x]? = some e → e.standing = .waiting → 0 < s.copies x
  fresh : ∀ {x}, s.broker.exchanges.length ≤ x → s.copies x = 0

section Step

variable {s : Scene} {x : ExchangeId} {e : Exchange}

/-- Where copies are gone, or none, an exchange becomes what is left of it. -/
theorem Counted.becomes_of (h : s.Counted) (he : s.broker.exchanges[x]? = some e) (s' : Scene)
    {n : Nat} (he' : s'.broker.exchanges[x]? = some (if n = 0 then e else e.dropCopies n))
    (hcopies : s'.copies x + n = s.copies x) :
    ∃ e', s'.broker.exchanges[x]? = some e' ∧
      e.Becomes e' (s'.copies x) (e.unanswered? (s'.copies x)) := by
  refine ⟨_, he', Exchange.becomes_dropCopies ?_ fun hwaiting => ?_⟩
  · rw [h.copies he, hcopies]
  · rw [hcopies]
    exact h.waiting he hwaiting

/-- What a move makes of the copies of a request. -/
theorem copies_move (s : Scene) (mv : Move) (x : ExchangeId) :
    (s.step (.move mv)).copies x + s.broker.lost x mv =
      s.copies x + ((s.broker.opens? x mv).map (·.copies)).getD 0 := by
  cases mv with
  | enroll | shut =>
    simp [copies, step, takes, move, lost, opens?, queuedCopies, enroll, shut]
  | dismiss =>
    simp only [copies, step, takes, move, lost, opens?]
    split <;> simp [queuedCopies, dismiss, Function.comp_def]
  | deliver channel payload =>
    simp [copies, step, takes, move, lost, opens?, queuedCopies_deliver, Message.leadsTo]
  | deliverRequest channel payload timeout =>
    simp only [copies, step, takes, move, lost, opens?, queuedCopies_deliverRequest,
      List.append_nil]
    generalize (s.broker.deliver ⟨channel, payload, some s.broker.exchanges.length⟩).1 = n
    by_cases hx : s.broker.exchanges.length = x
    · by_cases hn : n = 0 <;> simp [hx, hn, Nat.add_right_comm]
    · simp [hx]
  | next sub =>
    have hnext := queuedCopies_next s.broker sub x
    simp only [copies, step, takes, move, lost, opens?, List.countP_append, Option.map_none,
      Option.getD_none]
    omega
  | drop sub =>
    have hdrop := queuedCopies_drop s.broker sub x
    simp only [copies, step, takes, move, lost, opens?, List.append_nil, Option.map_none,
      Option.getD_none]
    omega

theorem becomes_move (h : s.Counted) (he : s.broker.exchanges[x]? = some e) (mv : Move) :
    ∃ e', (s.step (.move mv)).broker.exchanges[x]? = some e' ∧
      e.Becomes e' ((s.step (.move mv)).copies x) (s.ends x e.channel e.timeout (.move mv)) := by
  have hnone : s.broker.opens? x mv = none :=
    opens?_of_lt mv (List.getElem?_eq_some_iff.mp he).1
  refine h.becomes_of he _ (n := s.broker.lost x mv) ?_ ?_
  · simp [step, exchange_move, he, hnone]
  · rw [copies_move, hnone]
    rfl

@[simp] theorem mailboxes_respond (b : Broker) (m : Message) (payload : Octets) :
    (b.respond m payload).2.mailboxes = b.mailboxes := by
  unfold respond
  split
  · rfl
  · split <;> rfl

theorem copies_respond (s : Scene) (i : Nat) (payload : Octets) (x : ExchangeId) :
    (s.step (.respond i payload)).copies x = s.copies x := by
  simp only [step]
  split
  · rfl
  · simp only [copies, queuedCopies, mailboxes_respond]

/-- An answer does not reach an exchange that its message does not lead to. -/
theorem exchange_respond_of_ne (b : Broker) {m : Message} (h : m.leadsTo x = false)
    (payload : Octets) : (b.respond m payload).2.exchanges[x]? = b.exchanges[x]? := by
  unfold respond
  split
  · rfl
  · rename_i y hy
    have hyx : y ≠ x := by
      rintro rfl
      simp [Message.leadsTo, hy] at h
    split
    · simp [modifyExchange, hyx]
    · rfl

theorem becomes_respond (h : s.Counted) (he : s.broker.exchanges[x]? = some e) {m : Message}
    (payload : Octets) :
    ∃ e', (s.broker.respond m payload).2.exchanges[x]? = some e' ∧
      e.Becomes e' (s.copies x) (if m.leadsTo x then some (.answered payload) else none) := by
  cases hm : m.leadsTo x with
  | false =>
    exact ⟨e, (exchange_respond_of_ne _ hm payload).trans he, Exchange.becomes_self (h.copies he)⟩
  | true =>
    have hexchange : m.exchange = some x := by simpa [Message.leadsTo] using hm
    have hstanding : s.broker.standing? x = some e.standing := by simp [standing?, he]
    refine ⟨e.finish (.answered payload), ?_, Exchange.becomes_finish (h.copies he) _⟩
    simp only [respond, hexchange, hstanding]
    cases hst : e.standing with
    | waiting => simp [modifyExchange, he]
    | answered | failed | abandoned =>
      rw [Exchange.finish_of_ended (by simp [Ended, hst])]
      exact he

/-- An end that comes from outside comes to the exchange that is meant. -/
theorem becomes_modify (h : s.Counted) (he : s.broker.exchanges[x]? = some e) (y : ExchangeId)
    (f : Exchange → Exchange) {st : Standing} (hf : f e = e.finish st) :
    ∃ e', (s.broker.modifyExchange y f).exchanges[x]? = some e' ∧
      e.Becomes e' (s.copies x) (if y = x then some st else none) := by
  by_cases hyx : y = x
  · refine ⟨e.finish st, by simp [modifyExchange, hyx, he, hf], ?_⟩
    simpa [hyx] using Exchange.becomes_finish (h.copies he) st
  · refine ⟨e, by simp [modifyExchange, hyx, he], ?_⟩
    simpa [hyx] using Exchange.becomes_self (h.copies he)

/-- A copy more ends nothing. -/
theorem becomes_copy (h : s.Counted) (he : s.broker.exchanges[x]? = some e) {i : Nat}
    {m : Message} (hm : s.hands[i]? = some m) :
    ∃ e', (s.step (.copy i)).broker.exchanges[x]? = some e' ∧
      e.Becomes e' ((s.step (.copy i)).copies x) (e.unanswered? ((s.step (.copy i)).copies x)) := by
  have hcopies : (s.step (.copy i)).copies x = s.copies x + if m.leadsTo x then 1 else 0 := by
    simp only [step, hm, copies, queuedCopies, mailboxes_retain, List.countP_append,
      List.countP_singleton]
    omega
  have hretain := exchange_retain s.broker m x
  rw [he, Option.map_some] at hretain
  refine ⟨_, by simpa only [step, hm] using hretain, ?_⟩
  rw [hcopies]
  cases m.leadsTo x with
  | false => exact Exchange.becomes_dropCopies (n := 0) (h.copies he) (h.waiting he)
  | true =>
    refine ⟨rfl, rfl, congrArg (· + 1) (h.copies he), ?_⟩
    by_cases hst : e.standing = .waiting <;> simp [Exchange.unanswered?, hst]

/-- Who lets go of a message lets go of one copy. -/
theorem becomes_discard (h : s.Counted) (he : s.broker.exchanges[x]? = some e) {i : Nat}
    {m : Message} (hm : s.hands[i]? = some m) :
    ∃ e', (s.step (.discard i)).broker.exchanges[x]? = some e' ∧
      e.Becomes e' ((s.step (.discard i)).copies x)
        (e.unanswered? ((s.step (.discard i)).copies x)) := by
  refine h.becomes_of he _ (n := if m.leadsTo x then 1 else 0) ?_ ?_
  · simp only [step, hm, exchange_release, he]
    cases m.leadsTo x <;> simp
  · obtain ⟨hlt, rfl⟩ := List.getElem?_eq_some_iff.mp hm
    have hperm := (List.getElem_cons_eraseIdx_perm hlt).countP_eq (·.leadsTo x)
    rw [List.countP_cons] at hperm
    simp only [step, hm, copies, queuedCopies, mailboxes_release]
    omega

/-- **What an event makes of an exchange.** -/
theorem becomes_step (h : s.Counted) (he : s.broker.exchanges[x]? = some e) (ev : Event) :
    ∃ e', (s.step ev).broker.exchanges[x]? = some e' ∧
      e.Becomes e' ((s.step ev).copies x) (s.ends x e.channel e.timeout ev) := by
  cases ev with
  | move mv => exact becomes_move h he mv
  | respond i payload =>
    cases hm : s.hands[i]? with
    | none => simpa [step, ends, hm] using ⟨e, he, Exchange.becomes_self (h.copies he)⟩
    | some m =>
      have hrespond := becomes_respond h he (m := m) payload
      rw [copies_respond]
      simpa [step, ends, hm] using hrespond
  | copy i =>
    cases hm : s.hands[i]? with
    | none => simpa [step, ends, hm, Exchange.unanswered?] using h.becomes_of he s (n := 0) he rfl
    | some m => exact becomes_copy h he hm
  | discard i =>
    cases hm : s.hands[i]? with
    | none => simpa [step, ends, hm, Exchange.unanswered?] using h.becomes_of he s (n := 0) he rfl
    | some m => exact becomes_discard h he hm
  | expire y => exact becomes_modify h he y _ rfl
  | abandon y => exact becomes_modify h he y _ rfl

/-- What happens to a message, or to an exchange, opens no exchange and leaves the mailboxes as they
are. -/
theorem step_eq {ev : Event} (hmove : ∀ mv, ev ≠ .move mv) :
    ∃ xs, xs.length = s.broker.exchanges.length ∧
      (s.step ev).broker = { s.broker with exchanges := xs } := by
  have hsame : ∃ xs, xs.length = s.broker.exchanges.length ∧
      s.broker = { s.broker with exchanges := xs } := ⟨_, rfl, rfl⟩
  have hmodify (y : ExchangeId) (f : Exchange → Exchange) :
      ∃ xs, xs.length = s.broker.exchanges.length ∧
        s.broker.modifyExchange y f = { s.broker with exchanges := xs } :=
    ⟨_, List.length_modify .., rfl⟩
  cases ev with
  | move mv => exact absurd rfl (hmove mv)
  | respond i payload =>
    cases hm : s.hands[i]? with
    | none => simpa only [step, hm] using hsame
    | some m =>
      simp only [step, hm, respond]
      split
      · exact hsame
      · split
        · exact hmodify _ _
        · exact hsame
  | copy i =>
    cases hm : s.hands[i]? with
    | none => simpa only [step, hm] using hsame
    | some m =>
      simp only [step, hm, retain]
      split
      · exact hsame
      · exact hmodify _ _
  | discard i =>
    cases hm : s.hands[i]? with
    | none => simpa only [step, hm] using hsame
    | some m =>
      simp only [step, hm, release]
      split
      · exact hsame
      · exact hmodify _ _
  | expire y | abandon y => exact hmodify _ _

/-- But by a move, nobody gets a message that was in nobody's hands. -/
theorem mem_hands_of_step {ev : Event} (hmove : ∀ mv, ev ≠ .move mv) {m : Message}
    (hm : m ∈ (s.step ev).hands) : m ∈ s.hands := by
  cases ev with
  | move mv => exact absurd rfl (hmove mv)
  | respond i payload =>
    simp only [step] at hm
    split at hm <;> exact hm
  | copy i =>
    simp only [step] at hm
    split at hm
    · exact hm
    · rename_i hcopied
      rcases List.mem_append.mp hm with hm | hm
      · exact hm
      · exact List.mem_singleton.mp hm ▸ List.mem_of_getElem? hcopied
  | discard i =>
    simp only [step] at hm
    split at hm
    · exact hm
    · exact List.mem_of_mem_eraseIdx hm
  | expire y | abandon y => exact hm

/-- Where there is no copy, none is made. -/
theorem copies_step_eq_zero {ev : Event} (hmove : ∀ mv, ev ≠ .move mv) (h : s.copies x = 0) :
    (s.step ev).copies x = 0 := by
  obtain ⟨xs, -, hbroker⟩ := step_eq hmove
  obtain ⟨hqueued, hheld⟩ := Nat.add_eq_zero_iff.mp h
  refine Nat.add_eq_zero_iff.mpr ⟨?_, ?_⟩
  · rw [hbroker]
    exact hqueued
  · rw [List.countP_eq_zero] at hheld ⊢
    exact fun m hm => hheld m (mem_hands_of_step hmove hm)

theorem ends_ne_waiting (s : Scene) (x : ExchangeId) (channel : String) (timeout : Duration)
    (ev : Event) : s.ends x channel timeout ev ≠ some .waiting := by
  cases ev <;> simp only [ends] <;> split <;> simp

/-- A request that waits after an event has a copy. -/
theorem copies_pos_of_ends (h : 0 < s.copies x) {channel : String} {timeout : Duration}
    {ev : Event} (hnone : s.ends x channel timeout ev = none) : 0 < (s.step ev).copies x := by
  cases ev with
  | move mv | copy i | discard i =>
    simp only [ends] at hnone
    split at hnone
    · cases hnone
    · omega
  | respond i payload => rwa [copies_respond]
  | expire y | abandon y => exact h

/-- An exchange that was not there before counts the copies that were just made, of which there is
one. -/
theorem Counted.of_opened (h : s.Counted) {ev : Event} {e' : Exchange}
    (hnone : s.broker.exchanges[x]? = none)
    (he' : (s.step ev).broker.exchanges[x]? = some e') :
    e'.copies = (s.step ev).copies x ∧ 0 < (s.step ev).copies x := by
  have hfresh := h.fresh (List.getElem?_eq_none_iff.mp hnone)
  by_cases hmove : ∃ mv, ev = .move mv
  · obtain ⟨mv, rfl⟩ := hmove
    have hopens : s.broker.opens? x mv = some e' := by
      simpa [step, exchange_move, hnone] using he'
    have hcopies := copies_move s mv x
    obtain ⟨hpos, hlost⟩ := opens?_eq_some hopens
    simp only [hopens, hlost, hfresh, Option.map_some, Option.getD_some] at hcopies
    omega
  · obtain ⟨xs, hlength, hbroker⟩ := step_eq fun mv heq => hmove ⟨mv, heq⟩
    have hlt : x < xs.length := by
      rw [hbroker] at he'
      exact (List.getElem?_eq_some_iff.mp he').1
    rw [hlength] at hlt
    exact absurd hlt (Nat.not_lt.mpr (List.getElem?_eq_none_iff.mp hnone))

/-- **Every event keeps the count.** -/
theorem Counted.step (h : s.Counted) (ev : Event) : (s.step ev).Counted := by
  have hexchange {x : ExchangeId} {e' : Exchange}
      (he' : (s.step ev).broker.exchanges[x]? = some e') : e'.copies = (s.step ev).copies x ∧
        (e'.standing = .waiting → 0 < (s.step ev).copies x) := by
    cases he : s.broker.exchanges[x]? with
    | none => exact (h.of_opened he he').imp_right fun hpos _ => hpos
    | some e =>
      obtain ⟨e'', he'', hbecomes⟩ := becomes_step h he ev
      obtain rfl := Option.some.inj (he''.symm.trans he')
      refine ⟨hbecomes.copies, fun hwaiting => ?_⟩
      have hstanding := hbecomes.standing
      rw [hwaiting] at hstanding
      split at hstanding
      · rename_i hwas
        cases hends : s.ends x e.channel e.timeout ev with
        | none => exact copies_pos_of_ends (h.waiting he hwas) hends
        | some st =>
          rw [hends, Option.getD_some] at hstanding
          exact absurd (hstanding ▸ hends) (s.ends_ne_waiting _ _ _ _)
      · rename_i hwas
        exact absurd hstanding.symm hwas
  by_cases hmove : ∃ mv, ev = .move mv
  · obtain ⟨mv, rfl⟩ := hmove
    refine ⟨h.listed.move mv, fun he' => (hexchange he').1, fun he' => (hexchange he').2,
      fun {x} hlength => ?_⟩
    have hnone : (s.broker.move mv).exchanges[x]? = none := List.getElem?_eq_none hlength
    rw [exchange_move, Option.or_eq_none_iff, Option.map_eq_none_iff] at hnone
    have hcopies := copies_move s mv x
    rw [hnone.2, h.fresh (List.getElem?_eq_none_iff.mp hnone.1)] at hcopies
    exact (Nat.add_eq_zero_iff.mp hcopies).1
  · have hnot (mv : Move) : ev ≠ .move mv := fun heq => hmove ⟨mv, heq⟩
    obtain ⟨xs, hlength, hbroker⟩ := step_eq hnot
    refine ⟨?_, fun he' => (hexchange he').1, fun he' => (hexchange he').2, fun {x} hle => ?_⟩
    · rw [hbroker]
      exact h.listed
    · rw [hbroker] at hle
      exact copies_step_eq_zero hnot (h.fresh (hlength ▸ hle))

end Step

end Scene

end UserDirectory.Broker
