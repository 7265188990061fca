import UserDirectory.Proofs.Session.Life

/-!
# The discipline of replies

Whatever comes in on a connection, whatever becomes of the operations that it causes, and whatever
else goes on at the hub, the session tells its client of each frame what is due, once, in the order
of the frames, and at no other connection; it stops at the first close, at the first loss and at the
first reply that cannot be sent; and when it has ended, the connection is out of the hub and its
sink was closed.

`Course` carries this. All that a session has turned to is over, except the last, and what the last
has come to is told by the phase of the session. A reply is sent only when all that was before it is
over, so the replies of a session are frames of one sender at one connection, of which `Ledger`
keeps account.
-/

namespace UserDirectory

namespace Session

open Hub (HubId ConnectionId TaskId Operation)
open Hub.System (Ledger frames Reachable)

/-! ## The course of a session -/

/-- What a session is done with. -/
inductive Over (h : Hub.System) (hub : HubId) (c : ConnectionId) : Handled → Prop
  | ignored : Over h hub c ⟨.control, none, []⟩
  | silent {frame : Octets} {result : Option (Except Client.Failure CallAnswer)}
      (hdue : Due frame result []) : Over h hub c ⟨.data frame, result, []⟩
  | told {frame payload : Octets} {result : Option (Except Client.Failure CallAnswer)} {t : TaskId}
      (hdue : Due frame result [payload]) (hsent : h.outcome? t = some (.sent .ok)) :
      Over h hub c ⟨.data frame, result, [(t, .sendTo hub c payload)]⟩

/-- What makes a session leave, with the unregistration of its connection. -/
inductive Parting (h : Hub.System) (hub : HubId) (c : ConnectionId) (t : TaskId) : Handled → Prop
  | asked {i : Inbound} (hitem : i = .close ∨ i = .lost) :
      Parting h hub c t ⟨i, none, [(t, .unregister hub c)]⟩
  | failed {frame payload : Octets} {result : Option (Except Client.Failure CallAnswer)}
      {u : TaskId} {why : Hub.Failure} (hdue : Due frame result [payload])
      (hfailed : h.outcome? u = some (.sent (.failed why))) :
      Parting h hub c t
        ⟨.data frame, result, [(u, .sendTo hub c payload), (t, .unregister hub c)]⟩

/-- What a session is busy with, or what it has ended by. -/
inductive Current (h : Hub.System) (hub : HubId) (c : ConnectionId) : Phase → Handled → Prop
  | calling {frame : Octets} {requestId : String} {call : Call} (x : Broker.ExchangeId)
      (hreact : react frame = .call requestId call) :
      Current h hub c (.calling requestId call x) ⟨.data frame, none, []⟩
  | replying {frame payload : Octets} {result : Option (Except Client.Failure CallAnswer)}
      {t : TaskId} (hdue : Due frame result [payload]) :
      Current h hub c (.replying t) ⟨.data frame, result, [(t, .sendTo hub c payload)]⟩
  | leaving {t : TaskId} {x : Handled} (hparting : Parting h hub c t x) :
      Current h hub c (.leaving t) x
  | ended {t : TaskId} {x : Handled} (hparting : Parting h hub c t x)
      (hreturned : (h.outcome? t).isSome) : Current h hub c .ended x

/-- All is over to which a session has turned, but for the last unless it listens. -/
inductive Course (h : Hub.System) (hub : HubId) (c : ConnectionId) : Phase → List Handled → Prop
  | between {done : List Handled} (hdone : ∀ x ∈ done, Over h hub c x) :
      Course h hub c .listening done
  | within {done : List Handled} {phase : Phase} {x : Handled} (hdone : ∀ x ∈ done, Over h hub c x)
      (hcurrent : Current h hub c phase x) : Course h hub c phase (done ++ [x])

/-- How a session stands: its course, and the account of what it has started at the hub. -/
structure Stands (h : Hub.System) (hub : HubId) (c : ConnectionId) (phase : Phase)
    (handled : List Handled) : Prop where
  course : Course h hub c phase handled
  ledger : Ledger h hub c (handled.flatMap (·.started))

section Course

variable {h h' : Hub.System} {hub : HubId} {c : ConnectionId} {e : Hub.Event} {phase : Phase}
  {done handled : List Handled}

theorem Over.move {x : Handled} (hs : h.Sound) (hm : h.Move e h') (hx : Over h hub c x) :
    Over h' hub c x := by
  cases hx with
  | ignored => exact .ignored
  | silent hdue => exact .silent hdue
  | told hdue hsent => exact .told hdue (hs.outcome?_move hm hsent)

theorem Parting.move {x : Handled} {t : TaskId} (hs : h.Sound) (hm : h.Move e h')
    (hx : Parting h hub c t x) : Parting h' hub c t x := by
  cases hx with
  | asked hitem => exact .asked hitem
  | failed hdue hfailed => exact .failed hdue (hs.outcome?_move hm hfailed)

theorem Current.move {x : Handled} (hs : h.Sound) (hm : h.Move e h')
    (hx : Current h hub c phase x) : Current h' hub c phase x := by
  cases hx with
  | calling x hreact => exact .calling x hreact
  | replying hdue => exact .replying hdue
  | leaving hparting => exact .leaving (hparting.move hs hm)
  | ended hparting hreturned =>
    exact .ended (hparting.move hs hm) (hs.returned_move hm hreturned)

/-- **Whatever happens at the hub, the session stands as it did.** -/
theorem Stands.move (hstands : Stands h hub c phase handled) (hm : h.Move e h') :
    Stands h' hub c phase handled := by
  obtain ⟨hcourse, hledger⟩ := hstands
  have hs := hledger.sound
  refine ⟨?_, hledger.move hm⟩
  cases hcourse with
  | between hdone => exact .between fun x hx => (hdone x hx).move hs hm
  | within hdone hcurrent =>
    exact .within (fun x hx => (hdone x hx).move hs hm) (hcurrent.move hs hm)

theorem over_concat {x : Handled} (hdone : ∀ y ∈ done, Over h hub c y) (hx : Over h hub c x) :
    ∀ y ∈ done ++ [x], Over h hub c y := by
  intro y hy
  obtain hy | hy := List.mem_append.mp hy
  · exact hdone y hy
  · exact List.mem_singleton.mp hy ▸ hx

theorem Over.sent {x : Handled} (hx : Over h hub c x) :
    ∀ y ∈ x.replies, h.outcome? y.1 = some (.sent .ok) := by
  cases hx with
  | ignored | silent => simp [Handled.replies, frames]
  | told _ hsent => simpa [Handled.replies, frames] using hsent

theorem frames_flatMap (handled : List Handled) :
    frames (handled.flatMap (·.started)) = handled.flatMap (·.replies) :=
  List.filterMap_flatMap ..

theorem sent_of_over (hdone : ∀ x ∈ done, Over h hub c x) :
    ∀ y ∈ frames (done.flatMap (·.started)), h.outcome? y.1 = some (.sent .ok) := by
  intro y hy
  rw [frames_flatMap] at hy
  obtain ⟨x, hx, hy⟩ := List.mem_flatMap.mp hy
  exact (hdone x hx).sent y hy

theorem flatMap_concat (done : List Handled) (x : Handled) :
    (done ++ [x]).flatMap (·.started) = done.flatMap (·.started) ++ x.started := by
  simp

/-! ## What a session can do next -/

/-- A session that is done with everything sends what is due to the next frame. -/
theorem Stands.send (hdone : ∀ x ∈ done, Over h hub c x)
    (hledger : Ledger h hub c (done.flatMap (·.started))) {frame payload : Octets}
    {result : Option (Except Client.Failure CallAnswer)} (hdue : Due frame result [payload]) :
    Stands (h.launch (.sendTo hub c payload)) hub c (.replying h.tasks.length)
      (done ++ [⟨.data frame, result, [(h.tasks.length, .sendTo hub c payload)]⟩]) where
  course := .within (fun x hx => (hdone x hx).move hledger.sound (.start _)) (.replying hdue)
  ledger := by
    rw [flatMap_concat]
    exact hledger.send (sent_of_over hdone) payload

/-- A session that is done with everything leaves. -/
theorem Stands.leave (hdone : ∀ x ∈ done, Over h hub c x)
    (hledger : Ledger h hub c (done.flatMap (·.started))) {i : Inbound}
    (hitem : i = .close ∨ i = .lost) :
    Stands (h.launch (.unregister hub c)) hub c (.leaving h.tasks.length)
      (done ++ [⟨i, none, [(h.tasks.length, .unregister hub c)]⟩]) where
  course := .within (fun x hx => (hdone x hx).move hledger.sound (.start _))
    (.leaving (.asked hitem))
  ledger := by
    rw [flatMap_concat]
    exact hledger.leave

/-- Who settles with a client stays the same, and takes nothing out of the inbox. -/
theorem settle_keeps (s : Session) (requestId : String) (call : Call)
    (reply : Except Broker.Failure Octets) (w : Shared) :
    (s.settle requestId call reply w).1.hub = s.hub ∧
      (s.settle requestId call reply w).1.connection = s.connection ∧
      (s.settle requestId call reply w).1.inbox = s.inbox := by
  unfold Session.settle
  split <;> exact ⟨rfl, rfl, rfl⟩

/-- A session whose operation has ended sends what is due, or is done with the frame. -/
theorem Stands.settle (hdone : ∀ x ∈ done, Over h hub c x) (s : Session) (w : Shared)
    (hhub : w.hub = h) (hnamed : s.hub = hub ∧ s.connection = c)
    (hledger : Ledger h hub c (done.flatMap (·.started))) {frame : Octets} {requestId : String}
    {call : Call} (hreact : react frame = .call requestId call)
    (reply : Except Broker.Failure Octets) :
    Stands (s.settle requestId call reply w).2.hub hub c (s.settle requestId call reply w).1.phase
      (done ++ [⟨.data frame, some (call.read reply),
        startedBetween h (s.settle requestId call reply w).2.hub⟩]) := by
  subst hhub
  obtain ⟨r, hdue, hsettle⟩ | ⟨hdue, hsettle⟩ := settle_cases hreact s reply w
  · obtain ⟨rfl, rfl⟩ := hnamed
    simp only [hsettle, Session.send, startedBetween_launch]
    exact .send hdone hledger hdue
  · simp only [hsettle, startedBetween_self]
    exact ⟨.between (over_concat hdone (.silent hdue)),
      by rwa [flatMap_concat, List.append_nil]⟩

end Course

/-! ## Every moment of a life -/

/-- What holds at every moment of the life of a session. -/
structure Alive (hub : HubId) (c : ConnectionId) (l : Life) : Prop where
  named : l.session.hub = hub ∧ l.session.connection = c
  order : l.arrived = l.handled.map (·.item) ++ l.session.inbox
  stands : Stands l.shared.hub hub c l.session.phase l.handled

theorem noted_listening {l : Life} {item : Inbound} {inbox : List Inbound}
    (hphase : l.session.phase = .listening) (hinbox : l.session.inbox = item :: inbox)
    (fresh : Uuid) (after : Shared) :
    l.noted fresh after = l.handled ++ [{
      item
      result := l.session.learns? fresh l.shared
      started := startedBetween l.shared.hub after.hub }] := by
  simp only [Life.noted, hphase, hinbox]

theorem noted_within {l : Life} {done : List Handled} {x : Handled}
    (hphase : l.session.phase ≠ .listening) (hhandled : l.handled = done ++ [x]) (fresh : Uuid)
    (after : Shared) :
    l.noted fresh after = done ++ [{ x with
      result := x.result.or (l.session.learns? fresh l.shared)
      started := x.started ++ startedBetween l.shared.hub after.hub }] := by
  unfold Life.noted
  split
  · exact absurd ‹_› hphase
  · rw [hhandled, amend_concat]

section Step

variable {hub : HubId} {c : ConnectionId} {l : Life} {s' : Session} {w' : Shared} {fresh : Uuid}

/-- A session that listens is done with everything. -/
theorem Alive.done_of_listening (h : Alive hub c l) (hphase : l.session.phase = .listening) :
    ∀ x ∈ l.handled, Over l.shared.hub hub c x := by
  obtain ⟨hcourse, -⟩ := h.stands
  rw [hphase] at hcourse
  generalize l.handled = handled at hcourse ⊢
  cases hcourse with
  | between hdone => exact hdone
  | within _ hcurrent => cases hcurrent

/-- A session that does not listen is busy with the last to which it has turned. -/
theorem Alive.current (h : Alive hub c l) (hphase : l.session.phase ≠ .listening) :
    ∃ done x, l.handled = done ++ [x] ∧ (∀ y ∈ done, Over l.shared.hub hub c y) ∧
      Current l.shared.hub hub c l.session.phase x := by
  obtain ⟨hcourse, -⟩ := h.stands
  generalize l.session.phase = phase at hcourse hphase ⊢
  generalize l.handled = handled at hcourse ⊢
  cases hcourse with
  | between => exact absurd rfl hphase
  | within hdone hcurrent => exact ⟨_, _, rfl, hdone, hcurrent⟩

/-- The order is kept when a session turns to what is next. -/
theorem Alive.order_turn (h : Alive hub c l) {x : Handled} {inbox : List Inbound}
    (hinbox : l.session.inbox = x.item :: inbox) :
    l.arrived = (l.handled ++ [x]).map (·.item) ++ inbox := by
  rw [h.order, hinbox]
  simp

/-- **A session that goes on keeps the discipline.** -/
theorem Alive.goOn (h : Alive hub c l) (hgo : l.session.proceed? fresh l.shared = some (s', w')) :
    Alive hub c { l with session := s', shared := w', handled := l.noted fresh w' } := by
  have hgoes := goes_of_proceed hgo
  have hledger := h.stands.ledger
  generalize hresult : l.session.learns? fresh l.shared = result at hgoes
  cases hgoes with
  | ignores hphase hinbox =>
    have hdone := h.done_of_listening hphase
    rw [noted_listening hphase hinbox, hresult, startedBetween_self]
    refine ⟨h.named, h.order_turn hinbox, ?_, by rwa [flatMap_concat, List.append_nil]⟩
    show Course _ hub c l.session.phase _
    rw [hphase]
    exact .between (over_concat hdone .ignored)
  | answers hphase hinbox hreact =>
    rw [noted_listening hphase hinbox, hresult]
    simp only [send, h.named.1, h.named.2, startedBetween_launch]
    exact ⟨⟨rfl, rfl⟩, h.order_turn hinbox,
      .send (h.done_of_listening hphase) hledger (due_of_reply hreact)⟩
  | asks x broker hphase hinbox hreact =>
    rw [noted_listening hphase hinbox, hresult, startedBetween_self]
    exact ⟨h.named, h.order_turn hinbox,
      .within (h.done_of_listening hphase) (.calling x hreact),
      by rwa [flatMap_concat, List.append_nil]⟩
  | @fails frame inbox requestId call e broker hphase hinbox hreact =>
    rw [noted_listening hphase hinbox, hresult]
    have hkept := settle_keeps { l.session with inbox } requestId call (.error e)
      { l.shared with broker }
    exact ⟨⟨hkept.1.trans h.named.1, hkept.2.1.trans h.named.2⟩,
      (h.order_turn hinbox).trans (by rw [hkept.2.2]),
      .settle (h.done_of_listening hphase) { l.session with inbox } { l.shared with broker } rfl
        h.named hledger hreact (.error e)⟩
  | parts hphase hinbox hitem =>
    rw [noted_listening hphase hinbox, hresult]
    simp only [leave, h.named.1, h.named.2, startedBetween_launch]
    exact ⟨⟨rfl, rfl⟩, h.order_turn hinbox, .leave (h.done_of_listening hphase) hledger hitem⟩
  | @learns requestId call _ reply hphase =>
    have hbusy : l.session.phase ≠ .listening := by simp [hphase]
    obtain ⟨done, x, hhandled, hdone, hcurrent⟩ := h.current hbusy
    rw [noted_within hbusy hhandled, hresult]
    rw [hphase] at hcurrent
    cases hcurrent with
    | calling _ hreact =>
    have hkept := settle_keeps l.session requestId call reply l.shared
    rw [hhandled, flatMap_concat, List.append_nil] at hledger
    refine ⟨⟨hkept.1.trans h.named.1, hkept.2.1.trans h.named.2⟩, ?_,
      .settle hdone l.session l.shared rfl h.named hledger hreact reply⟩
    simpa [hhandled, hkept.2.2] using h.order
  | @goesOn t outcome hphase houtcome hsent =>
    have hbusy : l.session.phase ≠ .listening := by simp [hphase]
    obtain ⟨done, x, hhandled, hdone, hcurrent⟩ := h.current hbusy
    rw [noted_within hbusy hhandled, hresult, startedBetween_self]
    rw [hphase] at hcurrent
    cases hcurrent with
    | @replying frame payload _ _ hdue =>
    simp only [Option.or_none, List.append_nil]
    -- what is not a failure is a success, since the task is a send
    have hop := hledger.issued (hhandled ▸ by simp : (t, .sendTo hub c payload) ∈ _)
    obtain ⟨sent, rfl⟩ := hledger.sound.sent_of_sendTo hop houtcome
    cases sent with
    | ok =>
      rw [← hhandled]
      refine ⟨h.named, h.order, .between ?_, hledger⟩
      rw [hhandled]
      exact over_concat hdone (.told hdue houtcome)
    | failed why => exact absurd rfl (hsent why)
  | givesUp hphase houtcome =>
    have hbusy : l.session.phase ≠ .listening := by simp [hphase]
    obtain ⟨done, x, hhandled, hdone, hcurrent⟩ := h.current hbusy
    rw [noted_within hbusy hhandled, hresult]
    rw [hphase] at hcurrent
    cases hcurrent with
    | replying hdue =>
    simp only [leave, h.named.1, h.named.2, startedBetween_launch, Option.or_none]
    refine ⟨⟨rfl, rfl⟩, ?_, .within (fun y hy => (hdone y hy).move hledger.sound (.start _)) ?_, ?_⟩
    · simpa [hhandled] using h.order
    · exact .leaving (.failed hdue (hledger.sound.outcome?_move (.start _) houtcome))
    · have hleft := hledger.leave
      rw [hhandled, flatMap_concat, List.append_assoc] at hleft
      rw [flatMap_concat]
      exact hleft
  | ends hphase hreturned =>
    have hbusy : l.session.phase ≠ .listening := by simp [hphase]
    obtain ⟨done, x, hhandled, hdone, hcurrent⟩ := h.current hbusy
    rw [noted_within hbusy hhandled, hresult, startedBetween_self]
    rw [hphase] at hcurrent
    cases hcurrent with
    | leaving hparting =>
    simp only [Option.or_none, List.append_nil]
    rw [← hhandled]
    refine ⟨h.named, h.order, ?_, hledger⟩
    show Course _ hub c .ended l.handled
    rw [hhandled]
    exact .within hdone (.ended hparting hreturned)

/-- **Whatever happens, the discipline is kept.** -/
theorem Alive.step {l' : Life} {e : Happening} (h : Alive hub c l) (hstep : l.step e = some l') :
    Alive hub c l' := by
  cases e with
  | arrive i =>
    obtain rfl := Option.some.inj hstep
    refine ⟨h.named, ?_, h.stands⟩
    show l.arrived ++ [i] = _ ++ (l.session.inbox ++ [i])
    rw [h.order, List.append_assoc]
  | bus broker =>
    obtain rfl := Option.some.inj hstep
    exact ⟨h.named, h.order, h.stands⟩
  | hub e =>
    obtain ⟨after, hmove, rfl⟩ := Option.map_eq_some_iff.mp hstep
    exact ⟨h.named, h.order, h.stands.move (Hub.System.move_of_step hmove)⟩
  | goOn fresh =>
    obtain ⟨⟨s', w'⟩, hgo, rfl⟩ := Option.map_eq_some_iff.mp hstep
    exact h.goOn hgo

theorem Alive.run {l' : Life} {es : List Happening} (h : Alive hub c l)
    (hrun : l.run es = some l') : Alive hub c l' := by
  induction es generalizing l with
  | nil =>
    obtain rfl := Option.some.inj hrun
    exact h
  | cons e es ih =>
    obtain ⟨l₁, hstep, hrest⟩ := Option.bind_eq_some_iff.mp hrun
    exact ih (h.step hstep) hrest

theorem alive_begin {w : Shared} (hs : w.hub.Sound) (hhome : w.hub.home? c = some hub) :
    Alive hub c (Life.begin hub c w) :=
  ⟨⟨rfl, rfl⟩, rfl, .between fun _ hx => (nomatch hx), Hub.System.ledger_nil hs hhome⟩

end Step

/-! ## The discipline -/

/-- Something by which a session stops: a close, a loss, or a reply that could not be sent. -/
def Handled.Stops (x : Handled) (h : Hub.System) : Prop :=
  x.item = .close ∨ x.item = .lost ∨
    ∃ y ∈ x.replies, ∃ why, h.outcome? y.1 = some (.sent (.failed why))

/-- The session has stopped and leaves, or has left. -/
def Phase.IsLeaving : Phase → Prop
  | leaving _ | ended => True
  | _ => False

/-- What can be relied on at every moment of a session that serves the connection `c`. -/
structure Disciplined (hub : HubId) (c : ConnectionId) (l : Life) : Prop where
  /-- the session turns to all that comes in, in the order in which it does, once to each -/
  order : l.arrived = l.handled.map (·.item) ++ l.session.inbox
  /-- each frame is told what is due, once, except that the last may wait for its operation -/
  due : ∀ {before x after frame}, l.handled = before ++ x :: after → x.item = .data frame →
    Due frame x.result (x.replies.map Prod.snd) ∨
      after = [] ∧ x.result = none ∧ x.replies = [] ∧
        ∃ requestId call e, l.session.phase = .calling requestId call e
  /-- nothing else is told anything -/
  unasked : ∀ x ∈ l.handled, (∀ frame, x.item ≠ .data frame) → x.replies = []
  /-- what comes to the sink of the connection comes in this order, and once -/
  sink : (l.shared.hub.sends c).filter (· ∈ l.replies) <+: l.replies
  /-- a reply that was sent with success has come to the sink -/
  written : ∀ x ∈ l.replies, l.shared.hub.outcome? x.1 = some (.sent .ok) →
    x ∈ l.shared.hub.sends c
  /-- a reply was sent with success if the session has turned to something after it -/
  succeeded : ∀ {before x after}, l.handled = before ++ x :: after → after ≠ [] →
    ∀ y ∈ x.replies, l.shared.hub.outcome? y.1 = some (.sent .ok)
  /-- a session does nothing but send replies to its connection and unregister it -/
  own : ∀ {t op}, (t, op) ∈ l.started → l.shared.hub.op? t = some op ∧
    ((∃ payload, op = .sendTo hub c payload) ∨ op = .unregister hub c)
  /-- nothing of this comes to another connection -/
  elsewhere : ∀ {t op d payload}, (t, op) ∈ l.started → d ≠ c →
    (t, payload) ∉ l.shared.hub.sends d
  /-- the session turns to nothing after it has to stop -/
  stops : ∀ {before x after}, l.handled = before ++ x :: after → x.Stops l.shared.hub →
    after = [] ∧ (l.session.phase.IsLeaving ∨ ∃ t, l.session.phase = .replying t)
  /-- and it does not leave unless it has to stop -/
  leaves : l.session.phase.IsLeaving →
    ∃ before x, l.handled = before ++ [x] ∧ x.Stops l.shared.hub
  /-- when it has ended, the connection is unregistered, and its sink was told to close, once -/
  ended : l.session.phase = .ended →
    (∃ t outcome, l.shared.hub.status t = some (.unregister hub c, .finished outcome)) ∧
      c ∉ l.shared.hub.members hub ∧ l.shared.hub.isClosed c = true ∧ l.shared.hub.closes c = 1
  /-- it waits for nothing but what is to come in, its operation and the hub -/
  waits : ∀ fresh, l.session.proceed? fresh l.shared = none →
    (l.session.phase = .listening ∧ l.session.inbox = []) ∨
    (∃ requestId call x, l.session.phase = .calling requestId call x ∧
      ∀ payload why, l.shared.broker.standing? x ≠ some (.answered payload) ∧
        l.shared.broker.standing? x ≠ some (.failed why)) ∨
    (∃ x ∈ l.started, l.shared.hub.outcome? x.1 = none) ∨ l.session.phase = .ended

section Discipline

variable {h : Hub.System} {hub : HubId} {c : ConnectionId} {phase : Phase} {l : Life}
  {handled before after : List Handled} {x : Handled}

/-- What a session has turned to is over, or it is the last. -/
theorem Course.over_or_current (hcourse : Course h hub c phase handled)
    (hsplit : handled = before ++ x :: after) :
    Over h hub c x ∨ after = [] ∧ Current h hub c phase x := by
  cases hcourse with
  | between hdone => exact .inl (hdone x (hsplit ▸ by simp))
  | @within done _ y hdone hcurrent =>
    obtain rfl | ⟨rest, last, rfl⟩ := List.eq_nil_or_concat after
    · obtain ⟨-, heq⟩ := List.append_inj' hsplit rfl
      obtain ⟨rfl, -⟩ := List.cons.inj heq
      exact .inr ⟨rfl, hcurrent⟩
    · rw [List.concat_eq_append, ← List.cons_append, ← List.append_assoc] at hsplit
      obtain ⟨rfl, -⟩ := List.append_inj' hsplit rfl
      exact .inl (hdone x (by simp))

theorem Over.due (hx : Over h hub c x) {frame : Octets} (hitem : x.item = .data frame) :
    Due frame x.result (x.replies.map Prod.snd) := by
  cases hx with
  | ignored => cases hitem
  | silent hdue | told hdue =>
    cases hitem
    exact hdue

theorem Over.not_stops (hx : Over h hub c x) : ¬ x.Stops h := by
  rintro (hitem | hitem | ⟨y, hy, why, hfailed⟩)
  · cases hx <;> cases hitem
  · cases hx <;> cases hitem
  · rw [hx.sent y hy] at hfailed
    cases hfailed

theorem Parting.stops {t : TaskId} (hx : Parting h hub c t x) : x.Stops h := by
  cases hx with
  | asked hitem => exact hitem.imp_right .inl
  | @failed frame payload result u why _ hfailed =>
    exact .inr (.inr ⟨(u, payload), by simp [Handled.replies, frames], why, hfailed⟩)

theorem Parting.due {t : TaskId} (hx : Parting h hub c t x) {frame : Octets}
    (hitem : x.item = .data frame) : Due frame x.result (x.replies.map Prod.snd) := by
  cases hx with
  | asked hkind => obtain rfl | rfl := hkind <;> cases hitem
  | failed hdue =>
    cases hitem
    exact hdue

theorem Current.due (hx : Current h hub c phase x) {frame : Octets}
    (hitem : x.item = .data frame) : Due frame x.result (x.replies.map Prod.snd) ∨
      x.result = none ∧ x.replies = [] ∧ ∃ requestId call e, phase = .calling requestId call e := by
  cases hx with
  | calling e => exact .inr ⟨rfl, rfl, _, _, e, rfl⟩
  | replying hdue =>
    cases hitem
    exact .inl hdue
  | leaving hparting | ended hparting => exact .inl (hparting.due hitem)

/-- Only frames are told anything. -/
theorem replies_eq_nil (hx : Over h hub c x ∨ Current h hub c phase x)
    (hitem : ∀ frame, x.item ≠ .data frame) : x.replies = [] := by
  have hparting {t : TaskId} (hparting : Parting h hub c t x) : x.replies = [] := by
    cases hparting with
    | asked => rfl
    | failed => exact absurd rfl (hitem _)
  obtain hover | hcurrent := hx
  · cases hover with
    | ignored => rfl
    | silent | told => exact absurd rfl (hitem _)
  · cases hcurrent with
    | calling | replying => exact absurd rfl (hitem _)
    | leaving h | ended h => exact hparting h

/-- A session stops by the last to which it has turned, if at all. -/
theorem Current.leaving_of_stops (hx : Current h hub c phase x) (hstops : x.Stops h) :
    phase.IsLeaving ∨ ∃ t, phase = .replying t := by
  cases hx with
  | calling => obtain hitem | hitem | ⟨y, hy, -⟩ := hstops <;> contradiction
  | replying => exact .inr ⟨_, rfl⟩
  | leaving | ended => exact .inl trivial

theorem Current.stops_of_leaving (hx : Current h hub c phase x) (hphase : phase.IsLeaving) :
    x.Stops h := by
  cases hx with
  | calling | replying => cases hphase
  | leaving hparting | ended hparting => exact hparting.stops

/-- The operations that the session has started last are among those that it has started. -/
theorem mem_started {done : List Handled} (hhandled : l.handled = done ++ [x])
    {y : TaskId × Operation} (hy : y ∈ x.started) : y ∈ l.started :=
  List.mem_flatMap.mpr ⟨x, hhandled ▸ by simp, hy⟩

theorem Parting.mem_started {t : TaskId} (hx : Parting h hub c t x) :
    (t, .unregister hub c) ∈ x.started := by
  cases hx <;> simp

/-- A session that has ended has unregistered its connection. -/
theorem Alive.ended (hl : Alive hub c l) (hphase : l.session.phase = .ended) :
    (∃ t outcome, l.shared.hub.status t = some (.unregister hub c, .finished outcome)) ∧
      c ∉ l.shared.hub.members hub ∧ l.shared.hub.isClosed c = true ∧
      l.shared.hub.closes c = 1 := by
  obtain ⟨done, x, hhandled, -, hcurrent⟩ := hl.current (by simp [hphase])
  rw [hphase] at hcurrent
  cases hcurrent with
  | ended hparting hreturned =>
    obtain ⟨outcome, houtcome⟩ := Option.isSome_iff_exists.mp hreturned
    have hstarted := Session.mem_started hhandled hparting.mem_started
    have hledger := hl.stands.ledger
    refine ⟨⟨_, outcome, hledger.status_of_outcome hstarted houtcome⟩,
      hledger.gone hstarted houtcome⟩

/-- A session that cannot go on waits for something. -/
theorem Alive.waits (hl : Alive hub c l) {fresh : Uuid}
    (hstuck : l.session.proceed? fresh l.shared = none) :
    (l.session.phase = .listening ∧ l.session.inbox = []) ∨
    (∃ requestId call x, l.session.phase = .calling requestId call x ∧
      ∀ payload why, l.shared.broker.standing? x ≠ some (.answered payload) ∧
        l.shared.broker.standing? x ≠ some (.failed why)) ∨
    (∃ x ∈ l.started, l.shared.hub.outcome? x.1 = none) ∨ l.session.phase = .ended := by
  unfold proceed? at hstuck
  split at hstuck
  · rename_i hphase
    split at hstuck
    · exact .inl ⟨hphase, ‹_›⟩
    · cases hstuck
  · rename_i requestId call x hphase
    split at hstuck
    · cases hstuck
    · cases hstuck
    · rename_i hnot hnot'
      exact .inr (.inl ⟨_, _, x, hphase, fun payload why => ⟨hnot payload, hnot' why⟩⟩)
  · rename_i t hphase
    split at hstuck
    · rename_i hnone
      obtain ⟨done, x, hhandled, -, hcurrent⟩ := hl.current (by simp [hphase])
      rw [hphase] at hcurrent
      cases hcurrent with
      | replying => exact .inr (.inr (.inl ⟨_, mem_started hhandled (.head _), hnone⟩))
    · cases hstuck
    · cases hstuck
  · rename_i t hphase
    split at hstuck
    · cases hstuck
    · rename_i hnone
      obtain ⟨done, x, hhandled, -, hcurrent⟩ := hl.current (by simp [hphase])
      rw [hphase] at hcurrent
      cases hcurrent with
      | leaving hparting =>
        have hstarted := mem_started hhandled hparting.mem_started
        exact .inr (.inr (.inl ⟨_, hstarted, by simpa using hnone⟩))
  · exact .inr (.inr (.inr ‹_›))

end Discipline

/-- **Replies are disciplined.** Whatever comes in on a connection of a hub, whatever its operations
come to, and whatever else is done at the hub: at every moment the session has told of each frame
what is due, to its own connection only and in order, and it has stopped where it has to stop. -/
theorem reply_discipline {timeouts : List Time.Duration} {w : Shared} {hub : HubId}
    {c : ConnectionId} (hreachable : Reachable timeouts w.hub) (hhome : w.hub.home? c = some hub)
    {es : List Happening} {l : Life} (hrun : (Life.begin hub c w).run es = some l) :
    Disciplined hub c l := by
  have hl := (alive_begin (Hub.System.sound_reachable hreachable) hhome).run hrun
  obtain ⟨hcourse, hledger⟩ := hl.stands
  have hmem {x : Handled} (hx : x ∈ l.handled) : ∃ before after, l.handled = before ++ x :: after :=
    List.append_of_mem hx
  refine {
    order := hl.order
    due := fun hsplit hitem => ?_
    unasked := fun x hx hitem => ?_
    sink := hledger.frames_prefix
    written := fun x hx hsent => hledger.mem_sends hx hsent
    succeeded := fun hsplit hafter => ?_
    own := fun hstarted => ⟨hledger.issued hstarted, hledger.kind hstarted⟩
    elsewhere := fun hstarted hd => hledger.elsewhere hstarted hd _
    stops := fun hsplit hstops => ?_
    leaves := fun hphase => ?_
    ended := hl.ended
    waits := fun fresh => hl.waits }
  · obtain hover | ⟨hlast, hcurrent⟩ := hcourse.over_or_current hsplit
    · exact .inl (hover.due hitem)
    · exact (hcurrent.due hitem).imp_right fun hwaits => ⟨hlast, hwaits⟩
  · obtain ⟨before, after, hsplit⟩ := hmem hx
    exact replies_eq_nil ((hcourse.over_or_current hsplit).imp_right And.right) hitem
  · obtain hover | ⟨hlast, -⟩ := hcourse.over_or_current hsplit
    · exact hover.sent
    · exact absurd hlast hafter
  · obtain hover | ⟨hlast, hcurrent⟩ := hcourse.over_or_current hsplit
    · exact absurd hstops hover.not_stops
    · exact ⟨hlast, hcurrent.leaving_of_stops hstops⟩
  · have hbusy : l.session.phase ≠ .listening := fun heq => by simp [heq, Phase.IsLeaving] at hphase
    obtain ⟨done, x, hhandled, -, hcurrent⟩ := hl.current hbusy
    exact ⟨done, x, hhandled, hcurrent.stops_of_leaving hphase⟩

/-- A hub with one connection, and a bus with a server of lists. -/
def served : Shared where
  broker := ((Broker.init 1).subscribe Command.list.channel).2
  hub := ((Hub.System.init [.ofMillis 50]).launch (.register 0)).startOperation 0 (.register 0)
  client := .init (.ofSeconds 5)

/-- The server of that bus answers the request of a session: there are no users. -/
def answered : Broker :=
  let asked := (served.broker.request Command.list.channel (Call.list.request (.ofSerial 0))
    served.client.timeout).2
  let message : Broker.Message := ⟨Command.list.channel, Call.list.request (.ofSerial 0), some 0⟩
  ((asked.next 0).2.respond message (Server.successReply (.listed []))).2

/-- A request and an empty frame come in, and the peer closes. -/
def arrivals : List Happening :=
  [.arrive (.data (Octets.ofText "\x7b\"requestId\":\"7\",\"action\":\"user.list\"\x7d")),
    .arrive (.data []), .arrive .close]

/-- The session sends the request, learns of the answer and sends its reply. -/
def firstReply : List Happening :=
  [.goOn (.ofSerial 0), .bus answered, .goOn (.ofSerial 1), .hub (.act 1), .hub (.act 1),
    .hub (.enter 0), .hub (.finish 0 .ok), .goOn (.ofSerial 2)]

/-- The next reply cannot be sent, and the session leaves. -/
def secondReply : List Happening :=
  [.goOn (.ofSerial 3), .hub (.act 2), .hub (.act 2), .hub (.enter 0),
    .hub (.finish 0 (.failed (.write "broken pipe"))), .hub (.act 2), .hub (.act 2),
    .hub (.enter 0), .hub (.finish 0 .ok), .goOn (.ofSerial 4), .hub (.act 3), .hub (.act 3),
    .hub (.enter 0), .goOn (.ofSerial 5)]

theorem reply_discipline_broken_pipe : ∃ l : Life,
    Reachable [.ofMillis 50] served.hub ∧ served.hub.home? 0 = some 0 ∧
    (Life.begin 0 0 served).run (arrivals ++ firstReply ++ secondReply) = some l ∧
    l.session.phase = .ended ∧ l.session.inbox = [.close] ∧ l.handled.length = 2 ∧
    l.replies = [(1, Json.encode (Reply.success "7" (.array []))),
      (2, Json.encode Reply.invalidMessage)] ∧
    Disciplined 0 0 l := by
  have hreachable : Reachable [.ofMillis 50] served.hub := ⟨[.start (.register 0), .act 0], rfl⟩
  let l : Life := ((Life.begin 0 0 served).run (arrivals ++ firstReply ++ secondReply)).get
    (by decide +kernel)
  have hrun : (Life.begin 0 0 served).run (arrivals ++ firstReply ++ secondReply) = some l :=
    (Option.some_get _).symm
  have hlast : l.session.phase = .ended ∧ l.session.inbox = [.close] ∧ l.handled.length = 2 ∧
      l.replies = [(1, Json.encode (Reply.success "7" (.array []))),
        (2, Json.encode Reply.invalidMessage)] := by
    decide +kernel
  obtain ⟨hphase, hinbox, hlength, hreplies⟩ := hlast
  exact ⟨l, hreachable, rfl, hrun, hphase, hinbox, hlength, hreplies,
    reply_discipline hreachable rfl hrun⟩

end Session

end UserDirectory
