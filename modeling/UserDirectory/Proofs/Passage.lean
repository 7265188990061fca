import UserDirectory.Proofs.Broker.Copies
import UserDirectory.Proofs.Client
import UserDirectory.Proofs.Server.Delivery

/-!
# The passage of a request

A request lies in the mailbox of the command server behind what was there before it. The server
takes one message after the other, so the request comes nearer, is taken, goes through the stages of
a delivery, and its exchange ends with the answer. In between, others use the bus as they like: all
may happen that happens to a broker and to the messages that they hold, as long as it leaves the
store alone, does not end this one exchange, and does not take messages out of this one mailbox in
place of the server (`Passage.Step`).

`OnItsWay` says what holds of a passage at every moment: the request keeps its place until it is
taken; up to the store step nothing has changed, after it the store is the one that the operation
leaves, and the exchange ends with the answer that tells what the operation came to. A request that
is on its way can always get to its answer (`OnItsWay.exists_answered`). With `Call.read_dispatch`
this makes the bus transparent: the caller reads what applying the operation directly would give.
-/

namespace UserDirectory

open Server (Delivery Shared Fresh accept dispatch)
open Broker (Message SubscriptionId ExchangeId Serving Mailbox)
open Time (Duration)

/-- What tells one request from the others: its command, the mailbox of the server, the payload, the
exchange it opened, and what its delivery may use up. -/
structure Errand where
  command : Command
  sub : SubscriptionId
  payload : Octets
  exchange : ExchangeId
  fresh : Fresh

def Errand.message (r : Errand) : Message := ⟨r.command.channel, r.payload, some r.exchange⟩

/-- Whether an event takes messages out of the mailbox of a subscription. -/
def Broker.Event.empties (sub : SubscriptionId) : Event → Bool
  | move mv => mv.empties sub
  | respond _ _ | copy _ | discard _ | expire _ | abandon _ => false

/-- What is shared after something has happened on the bus to those who hold some messages; the bus
may also begin or cease to refuse what is published. -/
def Server.Shared.elsewhere (s : Shared) (hands : List Message) (e : Broker.Event)
    (muted : Bool) : Shared :=
  { s with broker := (Broker.Scene.step ⟨s.broker, hands⟩ e).broker, muted }

/-- Where a request is. -/
inductive Place
  /-- in the mailbox of its server, behind so many messages -/
  | queued (ahead : Nat)
  /-- taken by its server, which works on it -/
  | taken (d : Delivery)

/-- A request on its way, and what all deliveries share. -/
structure Passage where
  shared : Shared
  place : Place

namespace Passage

/-- A step of a passage. The server takes the next message out of its mailbox, which is the request
when nothing is ahead of it; or its delivery of the request goes on; or something happens elsewhere
that does not change how the exchange stands and takes nothing out of the mailbox in which the
request lies. -/
inductive Step (r : Errand) : Passage → Passage → Prop
  | nearer {s s' : Shared} {d : Delivery} {ahead : Nat}
      (htake : Server.take? r.command r.sub s = some (d, s')) :
      Step r ⟨s, .queued (ahead + 1)⟩ ⟨s', .queued ahead⟩
  | take {s s' : Shared} {d : Delivery} (htake : Server.take? r.command r.sub s = some (d, s')) :
      Step r ⟨s, .queued 0⟩ ⟨s', .taken d⟩
  | work (s : Shared) (d : Delivery) :
      Step r ⟨s, .taken d⟩ ⟨(d.proceed r.fresh none s).2, .taken (d.proceed r.fresh none s).1⟩
  | elsewhere (s : Shared) (place : Place) (hands : List Message) (e : Broker.Event) (muted : Bool)
      (hkept : ∀ ahead, place = .queued ahead → e.empties r.sub = false)
      (hstanding : (s.elsewhere hands e muted).broker.standing? r.exchange =
        s.broker.standing? r.exchange) :
      Step r ⟨s, place⟩ ⟨s.elsewhere hands e muted, place⟩

inductive Steps (r : Errand) : Passage → Passage → Prop
  | refl (p : Passage) : Steps r p p
  | tail {p q q' : Passage} : Steps r p q → Step r q q' → Steps r p q'

/-- How the store and the exchange stand at a stage of the delivery. -/
def AtStage (r : Errand) (before : Store) (s : Shared) : Server.Stage → Prop
  | .arrived => s.store = before ∧ s.broker.standing? r.exchange = some .waiting
  | .accepted call => accept r.command r.payload = .ok call ∧ s.store = before ∧
      s.broker.standing? r.exchange = some .waiting
  | .concluded answer event =>
      dispatch r.command r.payload r.fresh before = ((answer, event), s.store) ∧
        s.broker.standing? r.exchange = some .waiting
  | .answered _ | .done => ∃ answer event,
      dispatch r.command r.payload r.fresh before = ((answer, event), s.store) ∧
        s.broker.standing? r.exchange = some (.answered answer)

/-- What holds of a passage at every moment. -/
def OnItsWay (r : Errand) (before : Store) (p : Passage) : Prop :=
  match p.place with
  | .queued ahead => (p.shared.broker.queueOf r.sub)[ahead]? = some r.message ∧
      AtStage r before p.shared .arrived
  | .taken d => d.command = r.command ∧ d.message = r.message ∧ AtStage r before p.shared d.stage

/-- A stage is judged by the store and the one exchange only. -/
theorem AtStage.congr {r : Errand} {before : Store} {s s' : Shared} {stage : Server.Stage}
    (h : AtStage r before s stage) (hstore : s'.store = s.store)
    (hstanding : s'.broker.standing? r.exchange = s.broker.standing? r.exchange) :
    AtStage r before s' stage := by
  cases stage <;> simpa only [AtStage, hstore, hstanding] using h

/-- A message that is taken changes neither the store nor an exchange. -/
theorem AtStage.next {r : Errand} {before : Store} {s : Shared} {stage : Server.Stage}
    (h : AtStage r before s stage) :
    AtStage r before { s with broker := (s.broker.next r.sub).2 } stage :=
  h.congr rfl (Broker.standing?_next ..)

/-- A delivery that goes on is at its next stage. -/
theorem atStage_proceed {r : Errand} {before : Store} {s : Shared} {d : Delivery}
    (hcommand : d.command = r.command) (hmessage : d.message = r.message)
    (h : AtStage r before s d.stage) :
    AtStage r before (d.proceed r.fresh none s).2 (d.proceed r.fresh none s).1.stage := by
  unfold Delivery.proceed
  cases hstage : d.stage with
  | arrived =>
    rw [hstage] at h
    obtain ⟨hstore, hwaiting⟩ := h
    have hpayload : d.message.payload = r.payload := by rw [hmessage]; rfl
    show AtStage r before s d.accept
    rw [Delivery.accept, hcommand, hpayload]
    cases hcall : accept r.command r.payload with
    | ok call => exact ⟨hcall, hstore, hwaiting⟩
    | error e => exact ⟨hstore ▸ Server.dispatch_of_error hcall r.fresh before, hwaiting⟩
  | accepted call =>
    rw [hstage] at h
    obtain ⟨hcall, hstore, hwaiting⟩ := h
    -- the one step that changes the store leaves what the whole dispatch leaves
    show AtStage r before { s with store := (Delivery.settle call r.fresh none s.store).2 }
      (Delivery.settle call r.fresh none s.store).1
    rw [Server.settle_eq_dispatch hcall, hstore]
    exact ⟨rfl, hwaiting⟩
  | concluded answer event =>
    rw [hstage] at h
    obtain ⟨hdispatch, hwaiting⟩ := h
    have hexpects : d.message.expectsReply = true := by rw [hmessage]; rfl
    show AtStage r before (d.respond answer s) (.answered event)
    rw [Delivery.respond, if_pos hexpects]
    exact ⟨answer, event, hdispatch,
      Broker.standing?_respond (congrArg Message.exchange hmessage) hwaiting answer⟩
  | answered event =>
    rw [hstage] at h
    obtain ⟨answer, event', hdispatch, hanswered⟩ := h
    -- the exchange has ended, so neither what is published nor the message let go touches it
    have hpublished : ∀ channel octets, (s.publish channel octets).store = s.store ∧
        (s.publish channel octets).broker.standing? r.exchange = some (.answered answer) := by
      intro channel octets
      unfold Shared.publish
      split
      · exact ⟨rfl, hanswered⟩
      · exact ⟨rfl, (Broker.standing?_publish ..).trans hanswered⟩
    show AtStage r before (d.finish event s) .done
    refine ⟨answer, event', ?_, ?_⟩
    · cases event with
      | none => exact hdispatch
      | some e => exact hdispatch.trans (by rw [Delivery.finish, (hpublished _ _).1])
    · refine Broker.standing?_release d.message ?_ (Broker.ended_answered answer)
      cases event with
      | none => exact hanswered
      | some e => exact (hpublished _ _).2
  | done =>
    rw [hstage] at h
    show AtStage r before s d.stage
    rwa [hstage]

/-- What happens elsewhere leaves a message in its place, unless it takes messages out. -/
theorem queueOf_elsewhere {s : Shared} {hands : List Message} {e : Broker.Event} {muted : Bool}
    {sub : SubscriptionId} (hkept : e.empties sub = false) :
    s.broker.queueOf sub <+: (s.elsewhere hands e muted).broker.queueOf sub := by
  let scene : Broker.Scene := ⟨s.broker, hands⟩
  by_cases hmove : ∃ mv, e = .move mv
  · obtain ⟨mv, rfl⟩ := hmove
    exact Broker.queueOf_prefix_move hkept
  · -- only a move touches mailboxes
    obtain ⟨xs, -, hbroker⟩ := scene.step_eq fun mv heq => hmove ⟨mv, heq⟩
    show _ <+: (scene.step e).broker.queueOf sub
    rw [hbroker]
    exact List.prefix_rfl

theorem onItsWay_step {r : Errand} {before : Store} {p q : Passage}
    (h : p.OnItsWay r before) (hstep : Step r p q) : q.OnItsWay r before := by
  cases hstep with
  | @nearer s _ _ ahead htake =>
    obtain ⟨hplace, hstage⟩ := h
    rw [Server.take?_eq, Option.map_eq_some_iff] at htake
    obtain ⟨_, -, heq⟩ := htake
    cases heq
    refine ⟨?_, hstage.next⟩
    show ((s.broker.next r.sub).2.queueOf r.sub)[ahead]? = _
    rw [Broker.queueOf_next, List.getElem?_drop, Nat.add_comm]
    exact hplace
  | @take s _ _ htake =>
    obtain ⟨hplace, hstage⟩ := h
    rw [Server.take?_eq, List.head?_eq_getElem?, hplace] at htake
    cases htake
    exact ⟨rfl, rfl, hstage.next⟩
  | work s d =>
    obtain ⟨hcommand, hmessage, hstage⟩ := h
    refine ⟨?_, ?_, atStage_proceed hcommand hmessage hstage⟩
    · rw [← hcommand]
      exact Server.command_proceed d r.fresh none s
    · rw [← hmessage]
      exact Server.message_proceed d r.fresh none s
  | elsewhere s place hands e muted hkept hstanding =>
    cases place with
    | queued ahead =>
      obtain ⟨hplace, hstage⟩ := h
      refine ⟨?_, hstage.congr rfl hstanding⟩
      obtain ⟨hlt, hmessage⟩ := List.getElem?_eq_some_iff.mp hplace
      rw [← hmessage]
      exact List.prefix_iff_getElem?.mp (queueOf_elsewhere (hkept ahead rfl)) ahead hlt
    | taken d =>
      obtain ⟨hcommand, hmessage, hstage⟩ := h
      exact ⟨hcommand, hmessage, hstage.congr rfl hstanding⟩

theorem onItsWay_steps {r : Errand} {before : Store} {p q : Passage}
    (h : p.OnItsWay r before) (hsteps : Steps r p q) : q.OnItsWay r before := by
  induction hsteps with
  | refl => exact h
  | tail _ hstep ih => exact onItsWay_step ih hstep

/-- **An answer tells what the request was dispatched to.** -/
theorem OnItsWay.answered {r : Errand} {before : Store} {p : Passage} {answer : Octets}
    (h : p.OnItsWay r before)
    (hanswered : p.shared.broker.standing? r.exchange = some (.answered answer)) :
    ∃ event, dispatch r.command r.payload r.fresh before = ((answer, event), p.shared.store) := by
  -- up to the stage in which the caller is answered the exchange still waits
  have hnot : p.shared.broker.standing? r.exchange ≠ some .waiting := by
    rw [hanswered]
    exact fun heq => nomatch heq
  unfold OnItsWay at h
  cases hplace : p.place with
  | queued ahead =>
    rw [hplace] at h
    exact absurd h.2.2 hnot
  | taken d =>
    rw [hplace] at h
    obtain ⟨-, -, hstage⟩ := h
    cases hd : d.stage with
    | arrived =>
      rw [hd] at hstage
      exact absurd hstage.2 hnot
    | accepted call =>
      rw [hd] at hstage
      exact absurd hstage.2.2 hnot
    | concluded =>
      rw [hd] at hstage
      exact absurd hstage.2 hnot
    | answered | done =>
      rw [hd] at hstage
      obtain ⟨answer', event, hdispatch, hanswered'⟩ := hstage
      rw [hanswered] at hanswered'
      cases hanswered'
      exact ⟨event, hdispatch⟩

/-! ## The request gets through -/

theorem Steps.head {r : Errand} {p q q' : Passage} (hstep : Step r p q) (hsteps : Steps r q q') :
    Steps r p q' := by
  induction hsteps with
  | refl => exact .tail (.refl p) hstep
  | tail _ hlast ih => exact .tail ih hlast

/-- How many steps a request has to go until its caller is answered. -/
def toGo (p : Passage) : Nat :=
  match p.place with
  | .queued ahead => ahead + 4
  | .taken d => d.stage.toGo

/-- A request that is on its way can go on: the server finds it, or what lies ahead of it. -/
theorem OnItsWay.goesOn {r : Errand} {before : Store} {p : Passage} (h : p.OnItsWay r before)
    (hzero : p.toGo ≠ 0) : ∃ q, Step r p q ∧ q.toGo < p.toGo := by
  obtain ⟨s, place⟩ := p
  cases place with
  | queued ahead =>
    obtain ⟨hlt, -⟩ := List.getElem?_eq_some_iff.mp h.1
    have hfirst : (s.broker.queueOf r.sub).head? = some (s.broker.queueOf r.sub)[0] := by
      rw [List.head?_eq_getElem?, List.getElem?_eq_getElem]
    have htake := Server.take?_eq r.command r.sub s
    rw [hfirst, Option.map_some] at htake
    cases ahead with
    | zero => exact ⟨_, .take htake, (by decide : 3 < 4)⟩
    | succ ahead => exact ⟨_, .nearer htake, Nat.lt_add_one (ahead + 4)⟩
  | taken d => exact ⟨_, .work s d, Server.toGo_proceed hzero r.fresh s⟩

/-- **A request that is on its way can get to its answer**, wherever it is. -/
theorem OnItsWay.exists_answered {r : Errand} {before : Store} {p : Passage}
    (h : p.OnItsWay r before) : ∃ q answer, Steps r p q ∧
      q.shared.broker.standing? r.exchange = some (.answered answer) := by
  induction hn : p.toGo using Nat.strongRecOn generalizing p with
  | ind n ih =>
    by_cases hzero : p.toGo = 0
    · obtain ⟨s, place⟩ := p
      cases place with
      | queued ahead => cases hzero
      | taken d =>
        obtain ⟨-, -, hstage⟩ := h
        have hstop : d.stage.toGo = 0 := hzero
        cases hd : d.stage with
        | answered | done =>
          rw [hd] at hstage
          obtain ⟨answer, _, _, hanswered⟩ := hstage
          exact ⟨_, answer, .refl _, hanswered⟩
        | arrived | accepted | concluded =>
          rw [hd] at hstop
          cases hstop
    · obtain ⟨p', hstep, hless⟩ := h.goesOn hzero
      obtain ⟨q, answer, hsteps, hanswered⟩ := ih p'.toGo (hn ▸ hless) (onItsWay_step h hstep) rfl
      exact ⟨q, answer, .head hstep hsteps, hanswered⟩

/-- **A request that was just sent is on its way**, behind all that lay in the mailbox before. -/
theorem onItsWay_start {r : Errand} {s : Shared} {box : Mailbox} {timeout : Duration}
    {broker : Broker} (hserving : s.broker.Serving r.command.channel r.sub box)
    (hrequest : s.broker.request r.command.channel r.payload timeout = (.ok r.exchange, broker)) :
    OnItsWay r s.store ⟨{ s with broker }, .queued (s.broker.queueOf r.sub).length⟩ := by
  obtain ⟨x, broker', hrequest', hwaiting, hbox⟩ := hserving.request r.payload timeout
  obtain ⟨hx, rfl⟩ := Prod.mk.inj (hrequest.symm.trans hrequest')
  obtain rfl := Except.ok.inj hx
  refine ⟨?_, rfl, hwaiting⟩
  show (broker.queueOf r.sub)[(s.broker.queueOf r.sub).length]? = _
  rw [Broker.queueOf_eq hserving.found, Broker.queueOf_eq hbox, List.getElem?_concat_length]
  rfl

end Passage

/-- A request that is sent over the bus opens an exchange and lies in the mailbox of the server,
behind what was there before. Whatever happens then, it can get to its answer, and once it is
answered, the caller reads and the store is what applying the operation directly gives. -/
def Call.Transparent (c : Call) (requestId : Uuid) (fresh : Fresh) (timeout : Duration)
    (s : Shared) (sub : SubscriptionId) : Prop :=
  ∃ x broker, s.broker.request c.channel (c.request requestId) timeout = (.ok x, broker) ∧
    let r : Errand := ⟨c.command, sub, c.request requestId, x, fresh⟩
    let start : Passage := ⟨{ s with broker }, .queued (s.broker.queueOf sub).length⟩
    ∀ p, Passage.Steps r start p →
      (∃ q answer, Passage.Steps r p q ∧
        q.shared.broker.standing? x = some (.answered answer)) ∧
      ∀ answer, p.shared.broker.standing? x = some (.answered answer) →
        (c.read (.ok answer), p.shared.store) = c.apply fresh.userId fresh.storedAt s.store

/-- **The bus is transparent**, for every operation and every store, if the mailbox of the server
has room. -/
theorem Call.transparent (c : Call) (requestId : Uuid) (fresh : Fresh) (timeout : Duration)
    {s : Shared} {sub : SubscriptionId} {box : Mailbox}
    (hserving : s.broker.Serving c.channel sub box) :
    c.Transparent requestId fresh timeout s sub := by
  obtain ⟨x, broker, hrequest, -, -⟩ := hserving.request (c.request requestId) timeout
  refine ⟨x, broker, hrequest, ?_⟩
  intro r start p hsteps
  have hstart : start.OnItsWay r s.store := Passage.onItsWay_start hserving hrequest
  have hway := Passage.onItsWay_steps hstart hsteps
  refine ⟨hway.exists_answered, fun answer hanswered => ?_⟩
  obtain ⟨event, hdispatch⟩ := hway.answered hanswered
  have hread := c.read_dispatch requestId fresh s.store
  rw [hdispatch] at hread
  exact hread

/-! ## The clearing of a phone -/

namespace Passage

/-- A server that has something in its mailbox that is no request, and a user with a phone. -/
def crowded : Shared where
  broker := (((Broker.init 2).subscribeAll (Command.all.map (·.channel))).2.publish
    Command.update.channel (Octets.ofText "?")).2
  store := (Store.empty.perform (.create { Server.ada with phone := some "+1 555 0100" })
    (Fresh.nth 0).userId (Fresh.nth 0).storedAt).2

def clearing : Call := .update (Fresh.nth 0).userId { phone := some "" }

/-- That user without the phone. -/
def cleared : User :=
  { Store.newUser Server.ada (Fresh.nth 0).userId (Fresh.nth 0).storedAt with
    updatedAt := (Fresh.nth 1).storedAt }

def clearingErrand : Errand := ⟨.update, 3, clearing.request (.ofSerial 9), 0, .nth 1⟩

/-- The request to clear the phone was sent. -/
def requested : Shared :=
  { crowded with
    broker := (crowded.broker.request clearing.channel clearingErrand.payload (.ofSeconds 5)).2 }

/-- The request waits behind what lay in the mailbox, and while it waits, the bus is shut. -/
theorem exists_steps_clearing : ∃ p, Steps clearingErrand ⟨requested, .queued 1⟩ p ∧
    p.shared.broker.closed = true ∧
    p.shared.broker.standing? 0 = some (.answered (Server.successReply (.updated cleared))) := by
  let first := (Server.take? .update 3 requested).get (by decide +kernel)
  let shut := first.2.elsewhere [] (.move .shut) true
  let second := (Server.take? .update 3 shut).get (by decide +kernel)
  let work (x : Delivery × Shared) := x.1.proceed (Fresh.nth 1) none x.2
  let last := work (work (work second))
  have hfirst : Server.take? .update 3 requested = some first := (Option.some_get _).symm
  have hsecond : Server.take? .update 3 shut = some second := (Option.some_get _).symm
  have hlast : last.2.broker.closed = true ∧
      last.2.broker.standing? 0 = some (.answered (Server.successReply (.updated cleared))) := by
    decide +kernel
  refine ⟨⟨last.2, .taken last.1⟩, ?_, hlast⟩
  refine .head (.nearer hfirst) ?_
  refine .head (.elsewhere first.2 (.queued 0) [] (.move .shut) true (fun _ _ => rfl) rfl) ?_
  refine .head (.take hsecond) ?_
  exact .head (.work _ _) (.head (.work _ _) (.head (.work _ _) (.refl _)))

end Passage

/-- The caller reads of the user without the phone, who is the one in the store. -/
theorem Call.transparent_update :
    let c := Passage.clearing
    let s := Passage.crowded
    let box : Mailbox := { channel := c.channel, queue := [⟨c.channel, Octets.ofText "?", none⟩] }
    s.broker.Serving c.channel 3 box ∧ c.Transparent (.ofSerial 9) (.nth 1) (.ofSeconds 5) s 3 ∧
      ∃ p answer, Passage.Steps Passage.clearingErrand ⟨Passage.requested, .queued 1⟩ p ∧
        p.shared.broker.closed = true ∧ p.shared.broker.standing? 0 = some (.answered answer) ∧
        c.read (.ok answer) = .ok (.user Passage.cleared) ∧
        p.shared.store.users = [Passage.cleared] := by
  intro c s box
  have hserving : s.broker.Serving c.channel 3 box := ⟨by decide, rfl, rfl, rfl, rfl, by decide⟩
  have htransparent := Call.transparent c (.ofSerial 9) (.nth 1) (.ofSeconds 5) hserving
  refine ⟨hserving, htransparent, ?_⟩
  obtain ⟨p, hsteps, hshut, hanswered⟩ := Passage.exists_steps_clearing
  -- the exchange of which the theorem speaks is the one that the run has answered
  obtain ⟨x, broker, hrequest, hall⟩ := htransparent
  obtain ⟨hx, rfl⟩ := Prod.mk.inj hrequest
  obtain rfl := Except.ok.inj hx
  have hread := (hall p hsteps).2 _ hanswered
  have happly : c.apply (Fresh.nth 1).userId (Fresh.nth 1).storedAt s.store =
      (.ok (.user Passage.cleared), ⟨[Passage.cleared]⟩) := rfl
  rw [happly] at hread
  obtain ⟨hanswer, hstore⟩ := Prod.mk.inj hread
  exact ⟨p, _, hsteps, hshut, hanswered, hanswer, congrArg Store.users hstore⟩

end UserDirectory
