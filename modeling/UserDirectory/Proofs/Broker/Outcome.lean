import UserDirectory.Proofs.Broker.Copies

/-!
# The outcome of a request

A request looks whether the broker is open, and is delivered some time after that. From then on
`Scene.verdict` tells how it ends by the first event that ends it, and looks only at messages and
copies of that request. The exchange stands as the verdict says (`standing?_run`), and the one
answer that is accepted is the one that the verdict names (`accepted_run`): both go by induction on
the events, with the count of copies as the invariant that carries them.
-/

namespace UserDirectory.Broker

open Time (Duration)

/-- The answer with which an exchange ended. -/
def Standing.answer? : Standing → Option Octets
  | answered payload => some payload
  | _ => none

/-- No live subscriber of a channel has room. Once the broker is shut, a subscriber whose mailbox
was struck off is live no more. -/
def Full (b : Broker) (channel : String) : Prop :=
  ∀ box ∈ b.mailboxes, box.channel = channel → box.live = true →
    (b.closed = true → box.enrolled = true) → b.capacity ≤ box.queue.length

instance (b : Broker) (channel : String) : Decidable (b.Full channel) :=
  inferInstanceAs (Decidable (∀ _ ∈ _, _))

namespace Scene

/-- A broker that is new, and no message. -/
def opening (capacity : Nat) : Scene := { broker := init capacity }

/-- How a request ends by the first event that ends it, if one does. -/
def verdict (x : ExchangeId) (channel : String) (timeout : Duration) :
    Scene → List Event → Standing
  | _, [] => .waiting
  | s, ev :: es => (s.ends x channel timeout ev).getD (verdict x channel timeout (s.step ev) es)

/-- The answer to a copy of a request, if an event is one, and what is said to who gives it. -/
def reply? (s : Scene) (x : ExchangeId) : Event → Option (Octets × Except Failure Unit)
  | .respond i payload =>
    ((s.hands[i]?).filter (·.leadsTo x)).map fun m => (payload, (s.broker.respond m payload).1)
  | _ => none

/-- All answers to copies of a request. -/
def replies (x : ExchangeId) : Scene → List Event → List (Octets × Except Failure Unit)
  | _, [] => []
  | s, ev :: es => (s.reply? x ev).toList ++ replies x (s.step ev) es

/-- The answers to copies of a request that are accepted. -/
def accepted (s : Scene) (x : ExchangeId) (es : List Event) : List Octets :=
  ((s.replies x es).filter (·.2.isOk)).map (·.1)

/-- Whether a message is in a mailbox or in hands. -/
def Holds (s : Scene) (m : Message) : Prop := (∃ sub, m ∈ s.broker.queueOf sub) ∨ m ∈ s.hands

/-- A request looks whether the broker is open, and is delivered after what happens meanwhile. -/
def request (s : Scene) (channel : String) (payload : Octets) (timeout : Duration)
    (meanwhile : List Event) : Except Failure ExchangeId × Scene :=
  let s' := s.run meanwhile
  match s.broker.check with
  | .error why => (.error why, s')
  | .ok _ =>
    ((s'.broker.deliverRequest channel payload timeout).1,
      s'.step (.move (.deliverRequest channel payload timeout)))

/-- A request that nothing comes into is done in one go. -/
theorem request_nil (s : Scene) (channel : String) (payload : Octets) (timeout : Duration) :
    s.request channel payload timeout [] =
      ((s.broker.request channel payload timeout).1,
        { s with broker := (s.broker.request channel payload timeout).2 }) := by
  simp only [request, Broker.request]
  cases s.broker.check with
  | error why => rfl
  | ok _ => simp [run, step, takes, move]

theorem Counted.run {s : Scene} (h : s.Counted) (es : List Event) : (s.run es).Counted := by
  induction es generalizing s with
  | nil => exact h
  | cons ev es ih => exact ih (h.step ev)

theorem counted_opening (capacity : Nat) : (opening capacity).Counted where
  listed := by simp [opening, init, Listed]
  copies he := by simp [opening, init] at he
  waiting he := by simp [opening, init] at he
  fresh _ := by simp [opening, init, copies, queuedCopies]

section Run

variable {s : Scene} {x : ExchangeId} {e : Exchange} {channel : String} {timeout : Duration}

/-! ## How an exchange ends -/

/-- **An exchange stands as the verdict says.** -/
theorem standing?_run (h : s.Counted) (he : s.broker.exchanges[x]? = some e) (es : List Event) :
    (s.run es).broker.standing? x = some
      (if e.standing = .waiting then verdict x e.channel e.timeout s es else e.standing) := by
  induction es generalizing s e with
  | nil =>
    simp only [run, List.foldl_nil, standing?, he, Option.map_some, verdict]
    split
    · rename_i hwaiting
      rw [hwaiting]
    · rfl
  | cons ev es ih =>
    obtain ⟨e', he', hbecomes⟩ := becomes_step h he ev
    have hrest := ih (h.step ev) he'
    rw [hbecomes.channel, hbecomes.timeout, hbecomes.standing] at hrest
    simp only [run, List.foldl_cons] at hrest ⊢
    rw [hrest]
    by_cases hwaiting : e.standing = .waiting
    · cases hends : s.ends x e.channel e.timeout ev with
      | none => simp [hwaiting, verdict, hends]
      | some st =>
        have hst : st ≠ .waiting := fun hst => s.ends_ne_waiting x _ _ ev (hst ▸ hends)
        simp [hwaiting, verdict, hends, hst]
    · simp [hwaiting]

/-- What has ended stays as it ended. -/
theorem verdict_append (h : verdict x channel timeout s es ≠ .waiting) (es' : List Event) :
    verdict x channel timeout s (es ++ es') = verdict x channel timeout s es := by
  induction es generalizing s with
  | nil => exact absurd rfl h
  | cons ev es ih =>
    simp only [List.cons_append, verdict] at h ⊢
    cases hends : s.ends x channel timeout ev with
    | none =>
      rw [hends] at h
      exact ih h
    | some st => rfl

/-- A request has ended when its time is over. -/
theorem verdict_of_expire (h : .expire x ∈ es) : verdict x channel timeout s es ≠ .waiting := by
  induction es generalizing s with
  | nil => simp at h
  | cons ev es ih =>
    simp only [verdict]
    cases hends : s.ends x channel timeout ev with
    | none =>
      have hev : ev ≠ .expire x := by
        rintro rfl
        simp [ends] at hends
      exact ih ((List.mem_cons.mp h).resolve_left (Ne.symm hev))
    | some st => exact fun hst => s.ends_ne_waiting x channel timeout ev (hst ▸ hends)

/-! ## Which answers are accepted -/

theorem accepted_cons (s : Scene) (x : ExchangeId) (ev : Event) (es : List Event) :
    s.accepted x (ev :: es) =
      (((s.reply? x ev).filter (·.2.isOk)).map (·.1)).toList ++ (s.step ev).accepted x es := by
  simp only [accepted, replies, List.filter_append, List.map_append]
  congr 1
  cases s.reply? x ev with
  | none => rfl
  | some r => cases hr : r.2.isOk <;> simp [Option.filter, hr]

/-- An answer is accepted if and only if the request waits, and ends with it. -/
theorem accepted_step (he : s.broker.exchanges[x]? = some e) (ev : Event) :
    ((s.reply? x ev).filter (·.2.isOk)).map (·.1) =
      if e.standing = .waiting then (s.ends x e.channel e.timeout ev).bind (·.answer?)
      else none := by
  cases ev with
  | respond i payload =>
    simp only [reply?, ends]
    cases hm : s.hands[i]? with
    | none => simp
    | some m =>
      by_cases hx : m.exchange = some x
      · have hstanding : s.broker.standing? x = some e.standing := by simp [standing?, he]
        cases hst : e.standing <;>
          simp [Message.leadsTo, hx, respond, hstanding, hst, Except.isOk, Except.toBool,
            Standing.answer?]
      · simp [Message.leadsTo, hx]
  | move mv | copy i | discard i | expire y | abandon y =>
    simp only [reply?, ends]
    split
    · split <;> rfl
    · rfl

/-- **The answer that is accepted is the one with which the request ends.** -/
theorem accepted_run (h : s.Counted) (he : s.broker.exchanges[x]? = some e) (es : List Event) :
    s.accepted x es = if e.standing = .waiting then
      (verdict x e.channel e.timeout s es).answer?.toList else [] := by
  induction es generalizing s e with
  | nil => simp [accepted, replies, verdict, Standing.answer?]
  | cons ev es ih =>
    obtain ⟨e', he', hbecomes⟩ := becomes_step h he ev
    have hrest := ih (h.step ev) he'
    rw [hbecomes.channel, hbecomes.timeout, hbecomes.standing] at hrest
    rw [accepted_cons, accepted_step he, hrest]
    by_cases hwaiting : e.standing = .waiting
    · cases hends : s.ends x e.channel e.timeout ev with
      | none => simp [hwaiting, verdict, hends]
      | some st =>
        have hst : st ≠ .waiting := fun hst => s.ends_ne_waiting x _ _ ev (hst ▸ hends)
        simp [hwaiting, verdict, hends, hst]
    · simp [hwaiting]

/-- Who answers a copy of a request is told that the answer counts, or that it comes too late. -/
theorem replies_eq (s : Scene) (es : List Event) {r : Octets × Except Failure Unit}
    (hr : r ∈ replies x s es) : r.2 = .ok () ∨ r.2 = .error .replyDropped := by
  induction es generalizing s with
  | nil => simp [replies] at hr
  | cons ev es ih =>
    simp only [replies, List.mem_append, Option.mem_toList] at hr
    refine hr.elim (fun hr => ?_) (ih _)
    cases ev with
    | respond i payload =>
      simp only [reply?, Option.map_eq_some_iff, Option.filter_eq_some_iff] at hr
      obtain ⟨m, ⟨-, hm⟩, rfl⟩ := hr
      have hexchange : m.exchange = some x := by simpa [Message.leadsTo] using hm
      simp only [respond, hexchange]
      split <;> simp
    | move mv | copy i | discard i | expire y | abandon y => cases hr

/-! ## Who holds a copy -/

/-- The message that a move sends. -/
def sends? (b : Broker) : Move → Option Message
  | .deliver channel payload => some ⟨channel, payload, none⟩
  | .deliverRequest channel payload _ => some ⟨channel, payload, some b.exchanges.length⟩
  | _ => none

theorem mem_queueOf_move {b : Broker} {mv : Move} {sub : SubscriptionId} {m : Message}
    (hm : m ∈ (b.move mv).queueOf sub) : m ∈ b.queueOf sub ∨ sends? b mv = some m := by
  unfold queueOf at hm ⊢
  rw [mailbox?_move] at hm
  cases hbox : b.mailboxes[sub]? with
  | none =>
    rw [hbox] at hm
    simp only [enrolled?] at hm
    split at hm
    · split at hm <;> simp at hm
    · simp at hm
  | some box =>
    rw [hbox] at hm
    simp only [Option.map_some, Option.some_or, Option.getD_some] at hm ⊢
    cases mv with
    | enroll | shut => exact .inl hm
    | deliver | deliverRequest =>
      simp only [Mailbox.moved, Mailbox.receive_queue] at hm
      split at hm
      · simpa [sends?, eq_comm (a := m)] using hm
      · exact .inl (by simpa using hm)
    | next s =>
      simp only [Mailbox.moved] at hm
      split at hm
      · exact .inl (List.mem_of_mem_drop hm)
      · exact .inl hm
    | drop s =>
      simp only [Mailbox.moved] at hm
      split at hm
      · simp at hm
      · exact .inl hm
    | dismiss =>
      simp only [Mailbox.moved] at hm
      split at hm <;> exact .inl hm

/-- What somebody holds after an event was held before, or was just sent. -/
theorem Holds.of_step {ev : Event} {m : Message} (hm : (s.step ev).Holds m) :
    s.Holds m ∨ ∃ mv, ev = .move mv ∧ sends? s.broker mv = some m := by
  by_cases hmove : ∃ mv, ev = .move mv
  · obtain ⟨mv, rfl⟩ := hmove
    rcases hm with ⟨sub, hm⟩ | hm
    · exact (mem_queueOf_move hm).imp (fun h => .inl ⟨sub, h⟩) fun h => ⟨mv, rfl, h⟩
    · refine .inl ((List.mem_append.mp hm).elim .inr fun htaken => ?_)
      cases mv with
      | next sub =>
        simp only [takes, message?_next, Option.mem_toList] at htaken
        exact .inl ⟨sub, List.mem_of_head? htaken⟩
      | enroll | deliver | deliverRequest | drop | shut | dismiss => cases htaken
  · have hnot (mv : Move) : ev ≠ .move mv := fun heq => hmove ⟨mv, heq⟩
    obtain ⟨xs, -, hbroker⟩ := step_eq hnot
    refine .inl (hm.imp (Exists.imp fun sub hm => ?_) (mem_hands_of_step hnot))
    rwa [hbroker] at hm

/-- No message comes to lead to an exchange that exists. -/
theorem Holds.of_run (h : s.Counted) (he : s.broker.exchanges[x]? = some e) {es : List Event}
    {m : Message} (hx : m.leadsTo x = true) (hm : (s.run es).Holds m) : s.Holds m := by
  induction es generalizing s e with
  | nil => exact hm
  | cons ev es ih =>
    obtain ⟨e', he', -⟩ := becomes_step h he ev
    refine (ih (h.step ev) he' hm).of_step.resolve_right ?_
    rintro ⟨mv, rfl, hsent⟩
    have hlt := (List.getElem?_eq_some_iff.mp he).1
    cases mv with
    | deliver channel payload =>
      obtain rfl := Option.some.inj hsent
      simp [Message.leadsTo] at hx
    | deliverRequest channel payload timeout =>
      obtain rfl := Option.some.inj hsent
      simp only [Message.leadsTo, beq_iff_eq, Option.some.injEq] at hx
      exact absurd hx (Nat.ne_of_gt hlt)
    | enroll | next | drop | shut | dismiss => cases hsent

theorem not_holds_of_copies (h : s.copies x = 0) {m : Message} (hx : m.leadsTo x = true) :
    ¬ s.Holds m := by
  obtain ⟨hqueued, hheld⟩ := Nat.add_eq_zero_iff.mp h
  rintro (⟨sub, hm⟩ | hm)
  · cases hbox : s.broker.mailboxes[sub]? with
    | none => simp [queueOf, hbox] at hm
    | some box =>
      have hnone : box.queue.countP (·.leadsTo x) = 0 :=
        List.sum_eq_zero_iff_forall_eq_nat.mp hqueued _
          (List.mem_map_of_mem (List.mem_of_getElem? hbox))
      exact List.countP_eq_zero.mp hnone m (queueOf_eq hbox ▸ hm) hx
  · exact List.countP_eq_zero.mp hheld m hm hx

/-! ## Whether a request is delivered -/

theorem deliver_eq_zero_iff {b : Broker} (h : b.Listed) (channel : String) (payload : Octets)
    (x : Option ExchangeId) : (b.deliver ⟨channel, payload, x⟩).1 = 0 ↔ b.Full channel := by
  simp only [deliver, List.countP_eq_zero, Full]
  refine forall₂_congr fun box hbox => ?_
  obtain ⟨sub, hsub⟩ := List.mem_iff_getElem?.mp hbox
  have hlisted (hlive : box.live = true) :
      (b.closed = true → box.enrolled = true) ↔ box.enrolled = true := by
    cases hclosed : b.closed with
    | true => simp
    | false => simp [h hclosed sub box hsub hlive]
  cases hlive : box.live with
  | false => simp [Mailbox.accepts, hlive]
  | true =>
    simp only [Mailbox.accepts, hlive, hlisted hlive, Bool.and_eq_true, beq_iff_eq,
      decide_eq_true_eq, Bool.and_true]
    grind

theorem deliverRequest_eq {b : Broker} (h : b.Listed) (channel : String) (payload : Octets)
    (timeout : Duration) : (b.deliverRequest channel payload timeout).1 =
      if b.Full channel then .error (.noResponders channel) else .ok b.exchanges.length := by
  simp only [deliverRequest, deliver_eq_zero_iff h]
  split <;> rfl

/-- A request that is delivered waits. -/
theorem begun_of_ok {payload : Octets}
    (hok : (s.broker.deliverRequest channel payload timeout).1 = .ok x) :
    x = s.broker.exchanges.length ∧ ∃ e,
      (s.step (.move (.deliverRequest channel payload timeout))).broker.exchanges[x]? = some e ∧
        e.channel = channel ∧ e.timeout = timeout ∧ e.standing = .waiting := by
  simp only [deliverRequest] at hok
  split at hok
  · cases hok
  · rename_i hcopies
    obtain rfl := Except.ok.inj hok
    let m : Message := ⟨channel, payload, some s.broker.exchanges.length⟩
    refine ⟨rfl, { channel, timeout, copies := (s.broker.deliver m).1 }, ?_, rfl, rfl, rfl⟩
    simp [step, exchange_move, opens?, hcopies, m]

end Run

/-- How a request fares that was delivered as the exchange `x`, when events `es` follow. -/
structure Fares (s : Scene) (x : ExchangeId) (request : Message) (timeout : Duration)
    (es : List Event) : Prop where
  standing : (s.run es).broker.standing? x = some (verdict x request.channel timeout s es)
  /-- the answer with which it ends is accepted, and no other -/
  accepted : s.accepted x es = (verdict x request.channel timeout s es).answer?.toList
  told : ∀ r ∈ replies x s es, r.2 = .ok () ∨ r.2 = .error .replyDropped
  final : verdict x request.channel timeout s es ≠ .waiting → ∀ rest,
    verdict x request.channel timeout s (es ++ rest) = verdict x request.channel timeout s es
  inTime : .expire x ∈ es → verdict x request.channel timeout s es ≠ .waiting
  /-- what leads to the exchange is a copy of the request -/
  genuine : ∀ m, (s.run es).Holds m → m.leadsTo x = true → m = request
  /-- an answer to anything else does not reach it -/
  apart : ∀ m, m.leadsTo x = false → ∀ payload,
    ((s.run es).broker.respond m payload).2.exchanges[x]? = (s.run es).broker.exchanges[x]?

theorem fares_of_ok {s : Scene} (h : s.Counted) {x : ExchangeId} {channel : String}
    {payload : Octets} {timeout : Duration}
    (hok : (s.broker.deliverRequest channel payload timeout).1 = .ok x) (es : List Event) :
    Fares (s.step (.move (.deliverRequest channel payload timeout))) x ⟨channel, payload, some x⟩
      timeout es := by
  obtain ⟨rfl, e, he, rfl, rfl, hwaiting⟩ := begun_of_ok hok
  have hbegun := h.step (.move (.deliverRequest e.channel payload e.timeout))
  refine ⟨?_, ?_, fun r hr => replies_eq _ es hr, fun hended => verdict_append hended,
    verdict_of_expire, fun m hm hx => ?_, fun m hm payload => exchange_respond_of_ne _ hm payload⟩
  · rw [standing?_run hbegun he, if_pos hwaiting]
  · rw [accepted_run hbegun he, if_pos hwaiting]
  · rcases (hm.of_run hbegun he hx).of_step with hbefore | ⟨mv, hmove, hsent⟩
    · exact absurd hbefore (not_holds_of_copies (h.fresh (Nat.le_refl _)) hx)
    · obtain rfl := Event.move.inj hmove
      exact (Option.some.inj hsent).symm

end Scene

open Scene in
/-- **Each request has one outcome.** The broker was closed when the request looked, or no live
subscriber of the channel has room when the request is delivered, or it ends by the first event that
ends it: the first answer to a copy, the end of its time, or the end of the last copy. Of all
answers to its copies the one with which it ends is accepted. -/
theorem request_outcome (capacity : Nat) (before meanwhile later : List Event) (channel : String)
    (payload : Octets) (timeout : Duration) :
    let issued := (opening capacity).run before
    let delivered := (issued.run meanwhile).broker
    let begun := issued.request channel payload timeout meanwhile
    (begun.1 =
      if issued.broker.closed then .error .closed
      else if delivered.Full channel then .error (.noResponders channel)
      else .ok delivered.exchanges.length) ∧
    (∀ x, begun.1 = .ok x → begun.2.Fares x ⟨channel, payload, some x⟩ timeout later) ∧
    (∀ letter answer, (begun.2.run later).broker.respond ⟨channel, letter, none⟩ answer =
      (.error .noReplyExpected, (begun.2.run later).broker)) := by
  intro issued delivered begun
  have hissued : issued.Counted := (counted_opening capacity).run before
  have hdelivered : (issued.run meanwhile).Counted := hissued.run meanwhile
  have hbegun : begun = if issued.broker.closed then (.error .closed, issued.run meanwhile)
      else ((delivered.deliverRequest channel payload timeout).1,
        (issued.run meanwhile).step (.move (.deliverRequest channel payload timeout))) := by
    simp only [begun, delivered, Scene.request, check]
    cases issued.broker.closed <;> rfl
  cases hclosed : issued.broker.closed with
  | true =>
    rw [hclosed, if_pos rfl] at hbegun
    rw [hbegun]
    exact ⟨rfl, fun x hok => Except.noConfusion rfl rfl (heq_of_eq hok), fun _ _ => rfl⟩
  | false =>
    rw [hclosed, if_neg Bool.false_ne_true] at hbegun
    rw [hbegun]
    refine ⟨?_, fun x hok => fares_of_ok hdelivered hok later, fun _ _ => rfl⟩
    rw [deliverRequest_eq hdelivered.listed, if_neg Bool.false_ne_true]

/-- A request that three subscribers get. -/
def threeAsked : Except Failure ExchangeId × Scene :=
  ((Scene.opening 1).run
    [.move (.enroll "a"), .move (.enroll "a"), .move (.enroll "a"), .move (.enroll "b")]).request
      "a" [1] (.ofMillis 50) []

/-- Two of them answer it, and the third is dropped with it. -/
def twoAnswer : List Event :=
  [.move (.next 0), .move (.next 1), .move (.drop 2), .respond 1 [7], .move .shut, .respond 0 [8],
    .expire 0, .discard 0, .discard 0]

theorem request_outcome_twoAnswer :
    threeAsked.1 = .ok 0 ∧
    (threeAsked.2.run twoAnswer).broker.standing? 0 = some (.answered [7]) ∧
    threeAsked.2.accepted 0 twoAnswer = [[7]] ∧
    threeAsked.2.replies 0 twoAnswer = [([7], .ok ()), ([8], .error .replyDropped)] := by
  obtain ⟨-, hfares, -⟩ := request_outcome 1 _ [] twoAnswer "a" [1] (.ofMillis 50)
  have hasked : threeAsked.1 = .ok 0 := rfl
  have hverdict : Scene.verdict 0 "a" (.ofMillis 50) threeAsked.2 twoAnswer = .answered [7] := by
    decide +kernel
  have hfares : threeAsked.2.Fares 0 ⟨"a", [1], some 0⟩ (.ofMillis 50) twoAnswer :=
    hfares 0 hasked
  exact ⟨hasked, hfares.standing.trans (congrArg some hverdict),
    hfares.accepted.trans (congrArg (·.answer?.toList) hverdict), rfl⟩

end UserDirectory.Broker
