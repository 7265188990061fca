import UserDirectory.Channel
import UserDirectory.Forwarder
import UserDirectory.Proofs.Broker.Runs
import UserDirectory.Proofs.Hub.Stream

/-!
# From the bus to the hub

Three forwarders take the events from the bus and broadcast them at a hub. In between, others use
the bus and the hub as they like, but for the subscriptions of the forwarders, which nobody else
holds. `Feed` is all of this, with an account of what was sent over the bus and of the broadcasts
that each forwarder has started.

`Account` keeps each of the three channels in balance: what was sent over it, while no mailbox of a
forwarder was full, is what its forwarder has broadcast and what waits in the mailbox, in this
order. A forwarder starts a broadcast only when the last has returned, so its broadcasts are a
`Stream`, and what a connection gets of that is known already.
-/

namespace UserDirectory

open Broker (SubscriptionId Mailbox Exchange)
open Hub (HubId ConnectionId TaskId)
open Hub.System (Stream Reachable sound_reachable)

/-! ## A mailbox that has room -/

namespace Broker

/-- An operation that takes messages out of the mailbox of a subscription. -/
def Operation.empties (sub : SubscriptionId) : Operation → Bool
  | next s => s == sub
  | drop s => s == sub
  | _ => false

/-- A mailbox over the given channel into which an open broker delivers. -/
structure Mailbox.Open (box : Mailbox) (channel : String) (closed : Bool) : Prop where
  channel : box.channel = channel
  live : box.live = true
  enrolled : closed = false → box.enrolled = true

variable {b : Broker} {sub : SubscriptionId} {box : Mailbox} {op : Operation} {channel : String}

/-- **A mailbox that has room takes all that is sent over its channel.** -/
theorem Mailbox.Open.after (h : box.Open channel b.closed) (hkept : op.empties sub = false)
    (hroom : ∀ m, b.sent? op = some m → m.channel = channel → box.queue.length < b.capacity) :
    (box.after b sub op).Open channel (b.perform op).closed ∧
      (box.after b sub op).queue =
        box.queue ++ (b.sent? op).toList.filter (·.channel = channel) := by
  have hrests (hnone : b.sent? op = none) (hafter : box.after b sub op = box)
      (hcloses : op.closes = false) :
      (box.after b sub op).Open channel (b.perform op).closed ∧
        (box.after b sub op).queue =
          box.queue ++ (b.sent? op).toList.filter (·.channel = channel) := by
    rw [hnone, hafter, closed_perform, hcloses, Bool.or_false]
    exact ⟨h, (List.append_nil _).symm⟩
  cases op with
  | subscribe => exact hrests (by simp [sent?, Operation.message?]) rfl rfl
  | next s | drop s =>
    have hs : s ≠ sub := by simpa [Operation.empties] using hkept
    exact hrests (by simp [sent?, Operation.message?]) (by simp [Mailbox.after, hs]) rfl
  | close =>
    have hnone : b.sent? .close = none := by simp [sent?, Operation.message?]
    rw [hnone, closed_perform]
    refine ⟨⟨?_, ?_, fun hopen => ?_⟩, ?_⟩
    · rw [Mailbox.after_channel, h.channel]
    · simp only [Mailbox.after]
      split <;> exact h.live
    · simp [Operation.closes] at hopen
    · simp only [Mailbox.after]
      split <;> exact (List.append_nil _).symm
  | publish c payload | request c payload timeout =>
    rw [closed_perform]
    simp only [Mailbox.after, Operation.closes, Bool.or_false]
    cases hsent : b.sent? _ with
    | none => exact ⟨h, (List.append_nil _).symm⟩
    | some m =>
      have hopen : b.closed = false := by
        cases hclosed : b.closed with
        | false => rfl
        | true => simp [sent?, hclosed] at hsent
      have henrolled := h.enrolled hopen
      simp only [Option.map_some, Option.getD_some, Option.toList_some]
      refine ⟨⟨?_, ?_, fun _ => ?_⟩, ?_⟩
      · rw [receive_channel, h.channel]
      · rw [receive_live, h.live]
      · exact receive_enrolled (fun _ => henrolled) m (by rw [receive_live, h.live])
      · rw [receive_queue, accepts, h.channel, h.live, henrolled]
        by_cases hchannel : m.channel = channel
        · simp [hchannel, hroom m hsent hchannel]
        · simp [hchannel, Ne.symm hchannel]

end Broker

/-! ## Forwarders -/

/-- What a forwarder can do when it goes on. -/
inductive Forwarder.Goes (f : Forwarder) (registry : HubId) (b : Broker) (h : Hub.System) :
    Forwarder → Broker → Hub.System → Prop
  | notes {u : Broadcast} (hbusy : f.broadcast = some u)
      (hreturned : (h.outcome? u.task).isSome) :
      Goes f registry b h { f with broadcast := none } (b.release u.message) h
  | starts {m : Broker.Message} (hidle : f.broadcast = none)
      (hnext : (b.next f.subscription).1 = .message m) :
      Goes f registry b h { f with broadcast := some ⟨m, h.tasks.length⟩ }
        (b.next f.subscription).2 (h.launch (.broadcast registry m.payload none))

/-- **A forwarder notes the end of a broadcast, or starts one with the next message.** -/
theorem Forwarder.goes_of_proceed {f f' : Forwarder} {registry : HubId} {b b' : Broker}
    {h h' : Hub.System} (hgo : f.proceed? registry b h = some (f', b', h')) :
    f.Goes registry b h f' b' h' := by
  unfold proceed? at hgo
  split at hgo
  · rename_i message task hbusy
    split at hgo
    · cases hgo
      exact .notes (u := ⟨message, task⟩) hbusy ‹_›
    · cases hgo
  · rename_i hidle
    split at hgo
    · rename_i m _ hnext
      cases hgo
      have hfirst : (b.next f.subscription).1 = .message m := by rw [hnext]
      have hsecond : (b.next f.subscription).2 = b' := by rw [hnext]
      exact hsecond ▸ .starts hidle hfirst
    · cases hgo

/-! ## The account of a forwarder -/

namespace Forwarder

/-- How a forwarder of a channel stands: `published` was sent over the channel so far, and `tasks`
are the broadcasts that it has started. -/
structure Account (f : Forwarder) (channel : String) (registry : HubId) (b : Broker)
    (h : Hub.System) (published : List Octets) (tasks : List TaskId) : Prop where
  box : ∃ box, b.mailboxes[f.subscription]? = some box ∧ box.Open channel b.closed
  /-- what was published was broadcast, or waits -/
  balance : published.map some =
    tasks.map h.payload? ++ (b.queueOf f.subscription).map fun m => some m.payload
  idle : f.broadcast = none → ∀ t ∈ tasks, (h.outcome? t).isSome
  busy : ∀ {u}, f.broadcast = some u → ∃ done, tasks = done ++ [u.task]
  stream : ∀ c, Stream h registry c tasks

section Account

variable {f : Forwarder} {channel : String} {registry : HubId} {b b' : Broker} {h h' : Hub.System}
  {published : List Octets} {tasks : List TaskId}

/-- **What others do on the bus** comes to the forwarder if it is sent over its channel. -/
theorem Account.bus (ha : f.Account channel registry b h published tasks) {op : Broker.Operation}
    (hkept : op.empties f.subscription = false)
    (hroom : ∀ m, b.sent? op = some m → m.channel = channel →
      (b.queueOf f.subscription).length < b.capacity) :
    f.Account channel registry (b.perform op) h
      (published ++ ((b.sent? op).toList.filter (·.channel = channel)).map (·.payload)) tasks := by
  obtain ⟨box, hbox, hopen⟩ := ha.box
  have hbalance := ha.balance
  rw [Broker.queueOf_eq hbox] at hroom hbalance
  obtain ⟨hafter, hqueue⟩ := hopen.after hkept hroom
  have hbox' : (b.perform op).mailboxes[f.subscription]? =
      some (box.after b f.subscription op) := by
    simp [Broker.mailbox?_perform, hbox]
  refine ⟨⟨_, hbox', hafter⟩, ?_, ha.idle, ha.busy, ha.stream⟩
  rw [Broker.queueOf_eq hbox', hqueue, List.map_append, hbalance]
  simp

/-- **What happens at the hub** leaves the account as it is. -/
theorem Account.move (ha : f.Account channel registry b h published tasks) {e : Hub.Event}
    (hm : h.Move e h') : f.Account channel registry b h' published tasks where
  box := ha.box
  balance := by
    have hkept : tasks.map h'.payload? = tasks.map h.payload? :=
      List.map_congr_left fun t ht => by
        obtain ⟨payload, hop⟩ := (ha.stream 0).issued t ht
        have hop' := (hm.advance (ha.stream 0).sound.lawful t).op? hop
        simp only [Hub.System.payload?, hop, hop']
    rw [hkept]
    exact ha.balance
  idle hidle t ht := by
    exact (ha.stream 0).sound.returned_move hm (ha.idle hidle t ht)
  busy := ha.busy
  stream c := (ha.stream c).move hm

/-- The account looks at nothing on the bus but the mailbox and whether the bus is closed. -/
theorem Account.of_mailbox (ha : f.Account channel registry b h published tasks)
    (hbox : b'.mailboxes[f.subscription]? = b.mailboxes[f.subscription]?)
    (hclosed : b'.closed = b.closed) : f.Account channel registry b' h published tasks where
  box := by
    obtain ⟨box, hbox', hopen⟩ := ha.box
    exact ⟨box, hbox.trans hbox', hclosed ▸ hopen⟩
  balance := by
    rw [Broker.queueOf, hbox]
    exact ha.balance
  idle := ha.idle
  busy := ha.busy
  stream := ha.stream

/-- All broadcasts have returned when the last has. -/
theorem Account.notes (ha : f.Account channel registry b h published tasks) {u : Broadcast}
    (hbusy : f.broadcast = some u) (hreturned : (h.outcome? u.task).isSome) :
    Account { f with broadcast := none } channel registry b h published tasks where
  box := ha.box
  balance := ha.balance
  idle _ t ht := by
    obtain ⟨done, rfl⟩ := ha.busy hbusy
    obtain ht | ht := List.mem_append.mp ht
    · exact (ha.stream 0).returned ht
    · exact List.mem_singleton.mp ht ▸ hreturned
  busy := nofun
  stream := ha.stream

/-- **The next message is broadcast as it is.** -/
theorem Account.starts (ha : f.Account channel registry b h published tasks)
    (hidle : f.broadcast = none) {m : Broker.Message}
    (hnext : (b.next f.subscription).1 = .message m) :
    Account { f with broadcast := some ⟨m, h.tasks.length⟩ } channel registry
      (b.next f.subscription).2 (h.launch (.broadcast registry m.payload none))
      published (tasks ++ [h.tasks.length]) := by
  obtain ⟨box, hbox, hopen⟩ := ha.box
  let op : Hub.Operation := .broadcast registry m.payload none
  have hhead : box.queue.head? = some m := by
    rw [← Broker.queueOf_eq hbox, ← Broker.message?_next, hnext]
    rfl
  obtain ⟨rest, hqueue⟩ := List.head?_eq_some_iff.mp hhead
  have hbox' : (b.next f.subscription).2.mailboxes[f.subscription]? =
      some { box with queue := rest } := by
    simp [Broker.mailboxes_next, hbox, hqueue]
  have hclosed : (b.next f.subscription).2.closed = b.closed := by
    have hmove := b.closed_move (.next f.subscription)
    simpa [Broker.move] using hmove
  have hmoved := (ha.move (.start op)).balance
  refine ⟨⟨_, hbox', ?_⟩, ?_, fun hnone => ?_, fun hbusy => ?_, fun c => ?_⟩
  · rw [hclosed]
    exact ⟨hopen.channel, hopen.live, hopen.enrolled⟩
  · have hpayload : (h.launch op).payload? h.tasks.length = some m.payload := by
      rw [Hub.System.payload?, Hub.System.op?_launch]
      rfl
    rw [Broker.queueOf_eq hbox, hqueue] at hmoved
    rw [Broker.queueOf_eq hbox', List.map_append, List.map_singleton, hpayload, List.append_assoc]
    exact hmoved
  · cases hnone
  · obtain rfl := Option.some.inj hbusy
    exact ⟨tasks, rfl⟩
  · exact (ha.stream c).launch (ha.idle hidle) m.payload

end Account

end Forwarder

/-! ## The feed -/

/-- The bus, a hub, and a forwarder for each kind of event. -/
structure Feed where
  broker : Broker
  hub : Hub.System
  /-- the registry to whose members events are broadcast -/
  registry : HubId
  forwarder : EventKind → Forwarder
  /-- what was sent over the bus since the forwarders were started, with the channels, in order -/
  sent : List (String × Octets) := []
  /-- the broadcasts that each forwarder has started, in order -/
  broadcasts : EventKind → List TaskId := fun _ => []

namespace Feed

/-- The forwarders are started: each subscribes to its channel. -/
def start? (broker : Broker) (hub : Hub.System) (registry : HubId) : Option Feed :=
  match broker.subscribeAll (EventKind.all.map (·.channel)) with
  | (.ok [created, updated, deleted], broker) =>
    let subscription : EventKind → SubscriptionId
      | .created => created
      | .updated => updated
      | .deleted => deleted
    some { broker, hub, registry, forwarder := fun k => { subscription := subscription k } }
  | _ => none

/-- What may happen. -/
inductive Event
  /-- somebody uses the bus -/
  | bus (op : Broker.Operation)
  /-- the exchanges become what those who take part in them make of them -/
  | exchanges (exchanges : List Exchange)
  | hub (e : Hub.Event)
  /-- a forwarder goes on -/
  | forward (k : EventKind)

/-- Whether an operation would take messages from a forwarder. -/
def robs (f : Feed) (op : Broker.Operation) : Bool :=
  EventKind.all.any fun k => op.empties (f.forwarder k).subscription

/-- What becomes of a feed by an event, if the event may happen. -/
def step (f : Feed) : Event → Option Feed
  | .bus op =>
    if f.robs op then none
    else some { f with
      broker := f.broker.perform op
      sent := f.sent ++ ((f.broker.sent? op).map fun m => (m.channel, m.payload)).toList }
  | .exchanges exchanges => some { f with broker := { f.broker with exchanges } }
  | .hub e => (f.hub.step e).map fun hub => { f with hub }
  | .forward k =>
    ((f.forwarder k).proceed? f.registry f.broker f.hub).map fun (after, broker, hub) =>
      { f with
        broker
        hub
        forwarder := fun k' => if k' = k then after else f.forwarder k'
        broadcasts := fun k' =>
          if k' = k then f.broadcasts k ++ (after.broadcast.map (·.task)).toList
          else f.broadcasts k' }

def run (f : Feed) : List Event → Option Feed
  | [] => some f
  | e :: es => (f.step e).bind (run · es)

/-- Whether each forwarder has room for what an event sends to it. -/
def hasRoom (f : Feed) : Event → Bool
  | .bus op => (f.broker.sent? op).all fun m => EventKind.all.all fun k =>
      k.channel != m.channel ||
        (f.broker.queueOf (f.forwarder k).subscription).length < f.broker.capacity
  | _ => true

/-- Whether along a run no mailbox of a forwarder is full when something is sent to it. -/
def neverFull : Feed → List Event → Bool
  | _, [] => true
  | f, e :: es => f.hasRoom e && (f.step e).all (neverFull · es)

/-- What was published on the channel of a kind of events, in order. A request counts as well, since
its payload goes to the same mailboxes. -/
def published (f : Feed) (k : EventKind) : List Octets :=
  (f.sent.filter (·.1 = k.channel)).map (·.2)

/-- What was broadcast of it, in order. -/
def forwarded (f : Feed) (k : EventKind) : List Octets :=
  (f.broadcasts k).filterMap f.hub.payload?

/-- What waits to be broadcast. -/
def waiting (f : Feed) (k : EventKind) : List Octets :=
  (f.broker.queueOf (f.forwarder k).subscription).map (·.payload)

/-- The frames that a connection has accepted of these broadcasts, in order. -/
def accepted (f : Feed) (c : ConnectionId) (k : EventKind) : List Octets :=
  f.hub.acceptedOf c (· ∈ f.broadcasts k)

/-- Nothing waits to be broadcast, and no broadcast is under way. -/
def Drained (f : Feed) (k : EventKind) : Prop :=
  f.waiting k = [] ∧ (f.forwarder k).broadcast = none

instance (f : Feed) (k : EventKind) : Decidable (f.Drained k) :=
  inferInstanceAs (Decidable (f.waiting k = [] ∧ (f.forwarder k).broadcast = none))

variable {f f' : Feed} {k : EventKind}

/-- The account of the forwarder of a kind of events. -/
def Balanced (f : Feed) (k : EventKind) : Prop :=
  (f.forwarder k).Account k.channel f.registry f.broker f.hub (f.published k) (f.broadcasts k)

theorem channel_injective {k k' : EventKind} (h : k.channel = k'.channel) : k = k' := by
  cases k <;> cases k' <;> first | rfl | exact absurd h (by decide)

/-- Forwarders of different kinds have different subscriptions, since these have different
channels. -/
theorem subscription_ne (h : ∀ k, f.Balanced k) {k k' : EventKind} (hne : k ≠ k') :
    (f.forwarder k).subscription ≠ (f.forwarder k').subscription := fun heq => by
  obtain ⟨box, hbox, hopen⟩ := (h k).box
  obtain ⟨box', hbox', hopen'⟩ := (h k').box
  obtain rfl := Option.some.inj (hbox.symm.trans (heq ▸ hbox'))
  exact hne (channel_injective (hopen.channel.symm.trans hopen'.channel))

/-- What is published besides by what is sent. -/
theorem published_sent (f : Feed) (message : Option Broker.Message) (k : EventKind) :
    ((f.sent ++ (message.map fun m => (m.channel, m.payload)).toList).filter
        (·.1 = k.channel)).map (·.2) =
      f.published k ++ (message.toList.filter (·.channel = k.channel)).map (·.payload) := by
  cases message with
  | none => simp [published]
  | some m => by_cases hm : m.channel = k.channel <;> simp [published, List.filter_append, hm]

/-- What a forwarder does to the bus does not concern the others. -/
theorem mailbox?_forward {after : Forwarder} {broker : Broker} {hub : Hub.System}
    (hgoes : (f.forwarder k).Goes f.registry f.broker f.hub after broker hub)
    {sub : SubscriptionId} (hne : (f.forwarder k).subscription ≠ sub) :
    broker.mailboxes[sub]? = f.broker.mailboxes[sub]? ∧ broker.closed = f.broker.closed := by
  cases hgoes with
  | notes => exact ⟨by rw [Broker.mailboxes_release], Broker.closed_release ..⟩
  | starts =>
    have hclosed := f.broker.closed_move (.next (f.forwarder k).subscription)
    refine ⟨?_, by simpa [Broker.move] using hclosed⟩
    simp [Broker.mailboxes_next, hne]

/-- What an event does to a feed. -/
inductive Move (f : Feed) : Event → Feed → Prop
  | bus {op : Broker.Operation} (hkept : ∀ k, op.empties (f.forwarder k).subscription = false) :
      Move f (.bus op) { f with
        broker := f.broker.perform op
        sent := f.sent ++ ((f.broker.sent? op).map fun m => (m.channel, m.payload)).toList }
  | exchanges (exchanges : List Exchange) :
      Move f (.exchanges exchanges) { f with broker := { f.broker with exchanges } }
  | hub {e : Hub.Event} {hub : Hub.System} (hm : f.hub.Move e hub) :
      Move f (.hub e) { f with hub }
  | forward {k : EventKind} {after : Forwarder} {broker : Broker} {hub : Hub.System}
      (hgoes : (f.forwarder k).Goes f.registry f.broker f.hub after broker hub) :
      Move f (.forward k) { f with
        broker
        hub
        forwarder := fun k' => if k' = k then after else f.forwarder k'
        broadcasts := fun k' =>
          if k' = k then f.broadcasts k ++ (after.broadcast.map (·.task)).toList
          else f.broadcasts k' }

/-- **The bus is used, the hub goes on, or a forwarder does.** -/
theorem move_of_step {e : Event} (hstep : f.step e = some f') : f.Move e f' := by
  cases e with
  | bus op =>
    simp only [step] at hstep
    split at hstep
    · cases hstep
    · rename_i hrobs
      cases hstep
      exact .bus fun k => Bool.eq_false_iff.mpr fun hempties =>
        hrobs (List.any_eq_true.mpr ⟨k, k.mem_all, hempties⟩)
  | exchanges exchanges =>
    cases hstep
    exact .exchanges exchanges
  | hub e =>
    obtain ⟨hub, hmove, rfl⟩ := Option.map_eq_some_iff.mp hstep
    exact .hub (Hub.System.move_of_step hmove)
  | forward k =>
    obtain ⟨⟨after, broker, hub⟩, hgo, rfl⟩ := Option.map_eq_some_iff.mp hstep
    exact .forward (Forwarder.goes_of_proceed hgo)

/-- **Whatever happens, the accounts are in balance.** -/
theorem balanced_move {e : Event} (h : ∀ k, f.Balanced k) (hroom : f.hasRoom e = true)
    (hm : f.Move e f') : ∀ k, f'.Balanced k := by
  cases hm with
  | @bus op hkept =>
    intro k
    have haccount := (h k).bus (hkept k) fun m hm hchannel => by
      simp only [hasRoom, hm, Option.all_some, List.all_eq_true] at hroom
      simpa [hchannel] using hroom k k.mem_all
    rw [← published_sent] at haccount
    exact haccount
  | exchanges => exact fun k => (h k).of_mailbox rfl rfl
  | hub hm => exact fun k => (h k).move hm
  | @forward k₀ after broker hub hgoes =>
    intro k
    by_cases hk : k = k₀
    · subst hk
      simp only [Balanced, if_true]
      cases hgoes with
      | @notes u hbusy hreturned =>
        rw [Option.map_none, Option.toList_none, List.append_nil]
        refine ((h k).notes hbusy hreturned).of_mailbox ?_ (Broker.closed_release ..)
        rw [Broker.mailboxes_release]
      | starts hidle hnext => exact (h k).starts hidle hnext
    · simp only [Balanced, if_neg hk]
      obtain ⟨hbox, hclosed⟩ := mailbox?_forward hgoes (subscription_ne h (Ne.symm hk))
      refine Forwarder.Account.of_mailbox ?_ hbox hclosed
      cases hgoes with
      | notes => exact h k
      | starts => exact (h k).move (.start _)

/-- What every event keeps while the accounts are in balance, every run keeps along which the
mailboxes have room, and the accounts stay in balance. -/
theorem run_keeps {P : Feed → Prop}
    (hmove : ∀ {f e f'}, (∀ k, f.Balanced k) → P f → f.Move e f' → P f') {es : List Event}
    (h : ∀ k, f.Balanced k) (hp : P f) (hroom : f.neverFull es = true)
    (hrun : f.run es = some f') : (∀ k, f'.Balanced k) ∧ P f' := by
  induction es generalizing f with
  | nil =>
    obtain rfl := Option.some.inj hrun
    exact ⟨h, hp⟩
  | cons e es ih =>
    obtain ⟨f₁, hstep, hrest⟩ := Option.bind_eq_some_iff.mp hrun
    have hm := move_of_step hstep
    simp only [neverFull, hstep, Option.all_some, Bool.and_eq_true] at hroom
    exact ih (balanced_move h hroom.1 hm) (hmove h hp hm) hroom.2 hrest

/-- Forwarders are started on an open bus only, each with a mailbox of its own. -/
theorem start?_eq_some {broker : Broker} {hub : Hub.System} {registry : HubId}
    (h : start? broker hub registry = some f) : broker.closed = false ∧ f = {
      broker := { broker with
        mailboxes := broker.mailboxes ++ EventKind.all.map fun k => { channel := k.channel } }
      hub
      registry
      forwarder := fun
        | .created => { subscription := broker.mailboxes.length }
        | .updated => { subscription := broker.mailboxes.length + 1 }
        | .deleted => { subscription := broker.mailboxes.length + 2 } } := by
  cases hclosed : broker.closed with
  | true =>
    simp [start?, Broker.subscribeAll, EventKind.all, Broker.subscribe, Broker.check, hclosed] at h
  | false =>
    simp only [start?, Broker.subscribeAll, EventKind.all, Broker.subscribe, Broker.check, hclosed,
      Broker.enroll, List.map_cons, List.map_nil, Bool.false_eq_true, if_false] at h
    refine ⟨rfl, (Option.some.inj h).symm.trans ?_⟩
    congr 1
    · simp [EventKind.all]
    · funext k
      cases k <;> simp

/-- Forwarders that were just started have nothing to do. -/
theorem balanced_start {broker : Broker} {hub : Hub.System} {registry : HubId} (hs : hub.Sound)
    (hstart : start? broker hub registry = some f) : ∀ k, f.Balanced k := by
  obtain ⟨hopen, rfl⟩ := start?_eq_some hstart
  intro k
  refine ⟨⟨{ channel := k.channel }, ?_, rfl, rfl, fun _ => rfl⟩, ?_, fun _ _ ht => (nomatch ht),
    fun hbusy => ?_, fun c => Hub.System.stream_nil hs registry c⟩
  · cases k <;> simp [EventKind.all]
  · cases k <;> simp [published, Broker.queueOf, EventKind.all]
  · cases k <;> cases hbusy

/-! ## Since a connection was registered -/

/-- What a feed has come to from another: its registry is the same, and what was published stays
so. -/
structure Follows (f₀ f : Feed) : Prop where
  registry : f.registry = f₀.registry
  published : ∀ k, f₀.published k <+: f.published k

theorem Follows.refl (f : Feed) : Follows f f := ⟨rfl, fun _ => List.prefix_rfl⟩

theorem Follows.move {f₀ : Feed} {e : Event} (h : Follows f₀ f) (hm : f.Move e f') :
    Follows f₀ f' := by
  cases hm with
  | bus =>
    exact ⟨h.registry, fun k => (h.published k).trans ⟨_, (published_sent f _ k).symm⟩⟩
  | exchanges | hub | forward => exact ⟨h.registry, h.published⟩

/-- Of the broadcasts on a channel all but the first `n` reach the connection, if it stays. -/
structure Since (f : Feed) (c : ConnectionId) (k : EventKind) (n : Nat) : Prop where
  home : f.hub.home? c = some f.registry
  included : ∀ t ∈ (f.broadcasts k).drop n, c ∈ f.hub.members f.registry → f.hub.Includes t c

section Since

variable {c : ConnectionId} {n : Nat}

theorem Since.move (h : f.Since c k n) (hbalanced : f.Balanced k) {hub : Hub.System}
    {e : Hub.Event} (hm : f.hub.Move e hub) : Since { f with hub } c k n where
  home := hm.home? h.home
  included t ht := (hbalanced.stream c).includes_move hm h.home (List.mem_of_mem_drop ht)
    (h.included t ht)

/-- **Who is a member is among those whom all further broadcasts reach**, as long as it stays. -/
theorem Since.step {e : Event} (h : f.Since c k n) (hbalanced : f.Balanced k)
    (hm : f.Move e f') : f'.Since c k n := by
  cases hm with
  | bus | exchanges => exact ⟨h.home, h.included⟩
  | hub hm => exact h.move hbalanced hm
  | @forward k₀ after broker hub hgoes =>
    cases hgoes with
    | notes =>
      refine ⟨h.home, fun t ht => h.included t ?_⟩
      by_cases hk : k = k₀ <;> simpa [hk] using ht
    | @starts m hidle hnext =>
      let op : Hub.Operation := .broadcast f.registry m.payload none
      obtain ⟨hhome, hincluded⟩ := h.move hbalanced (.start op)
      refine ⟨hhome, fun t ht => ?_⟩
      by_cases hk : k = k₀
      · subst hk
        simp only [if_true, Option.map_some, Option.toList_some, List.drop_append] at ht
        obtain ht | ht := List.mem_append.mp ht
        · exact hincluded t ht
        · -- the new broadcast has not begun
          obtain rfl := List.mem_singleton.mp (List.mem_of_mem_drop ht)
          exact fun _ => .inl ⟨op, by simp [Hub.System.status, Hub.System.launch, op]⟩
      · simp only [if_neg hk] at ht
        exact hincluded t ht

end Since

/-- Who is a member now is reached by all broadcasts of what will be published. -/
theorem since_member {c : ConnectionId} (hbalanced : f.Balanced k)
    (hmember : c ∈ f.hub.members f.registry) : f.Since c k (f.published k).length where
  home := (hbalanced.stream c).sound.registered.home hmember
  included t ht := by
    have hlength := congrArg List.length hbalanced.balance
    rw [List.length_append, List.length_map, List.length_map] at hlength
    rw [List.drop_eq_nil_of_le (by omega)] at ht
    cases ht

/-! ## What a connection gets -/

/-- A list of somethings is an end of another if what they hold is. -/
theorem suffix_of_map_some {α : Type} {l l' : List α} (h : l.map some <:+ l'.map some) :
    l <:+ l' := by
  obtain ⟨before, heq⟩ := h
  obtain ⟨l₁, l₂, rfl, -, hl₂⟩ := List.map_eq_append_iff.mp heq.symm
  exact ⟨l₁, by rw [List.map_inj_right (by simp) |>.mp hl₂]⟩

/-- What was published was forwarded, or waits. -/
theorem Balanced.published_eq (h : f.Balanced k) :
    f.published k = f.forwarded k ++ f.waiting k := by
  have hbalance := congrArg (List.filterMap id) h.balance
  simpa [forwarded, waiting, List.filterMap_map, Function.comp_def] using hbalance

/-- **A connection that stays has accepted an end of what was published**, once all of it was
broadcast, and all that was published after the first `n`. -/
theorem Balanced.accepted (h : f.Balanced k) {c : ConnectionId} (hdrained : f.Drained k)
    (hmember : c ∈ f.hub.members f.registry) (hopen : f.hub.isClosed c = false)
    (hreliable : f.hub.Reliable c) :
    f.accepted c k <:+ f.published k ∧
      ∀ n, f.Since c k n → (f.published k).drop n <:+ f.accepted c k := by
  obtain ⟨hnone, hidle⟩ := hdrained
  have hall := h.idle hidle
  obtain ⟨hwriters, hsuffix⟩ := (h.stream c).written_eq hall hmember (by simp [hopen]) hreliable
  have hpublished : (f.published k).map some = (f.broadcasts k).map f.hub.payload? := by
    have hqueue : f.broker.queueOf (f.forwarder k).subscription = [] := List.map_eq_nil_iff.mp hnone
    simpa [hqueue] using h.balance
  have haccepted : (f.accepted c k).map some =
      ((f.broadcasts k).filter (c ∈ f.hub.reach ·)).map f.hub.payload? := by
    rw [Feed.accepted, (h.stream c).sound.acceptedOf_eq, hwriters]
  refine ⟨suffix_of_map_some ?_, fun n hsince => suffix_of_map_some ?_⟩
  · rw [haccepted, hpublished]
    exact hsuffix.map _
  · -- all broadcasts after the first `n` have reached the connection
    have hreached :
        ((f.broadcasts k).drop n).filter (c ∈ f.hub.reach ·) = (f.broadcasts k).drop n :=
      List.filter_eq_self.mpr fun t ht => by
        have hincludes := hsince.included t ht hmember
        exact decide_eq_true (hincludes.reach_of_returned (hall t (List.mem_of_mem_drop ht)))
    have hlength := ((List.drop_sublist n (f.broadcasts k)).filter (c ∈ f.hub.reach ·)).length_le
    rw [hreached] at hlength
    rw [haccepted, List.map_drop, hpublished, ← List.map_drop]
    exact (List.suffix_of_suffix_length_le (List.drop_suffix n _) hsuffix hlength).map _

/-- **Events reach every connection once, in order, unmodified.** Whatever else is done on the bus
and at the hub: as long as no mailbox of a forwarder is full when something is sent to it, the
forwarders broadcast what is published on their channels, each payload once and in order, and
nothing else. And what a connection that stays registered with a sink that takes every frame in time
has accepted on a channel, when all of it was broadcast, is an end of what was published on it, in
which there is all that was published after the connection was registered.

A member is open as long as the connections of its registry are given to operations of that registry
alone (`Hub.System.Kept.exists_of_mem`); an operation of another registry can close it. -/
theorem events_exact {broker : Broker} {timeouts : List Time.Duration} {hub : Hub.System}
    {registry : HubId} (hreachable : Reachable timeouts hub) {f₀ f₁ f₂ : Feed}
    {es₁ es₂ : List Event} (hstart : start? broker hub registry = some f₀)
    (hrun₁ : f₀.run es₁ = some f₁) (hrun₂ : f₁.run es₂ = some f₂)
    (hroom₁ : f₀.neverFull es₁ = true) (hroom₂ : f₁.neverFull es₂ = true) :
    (∀ k, f₂.published k = f₂.forwarded k ++ f₂.waiting k ∧
      ∀ t ∈ f₂.broadcasts k, ∃ payload ∈ f₂.published k,
        f₂.hub.op? t = some (.broadcast registry payload none)) ∧
    ∀ c k, c ∈ f₁.hub.members registry → c ∈ f₂.hub.members registry →
      f₂.hub.isClosed c = false → f₂.hub.Reliable c → f₂.Drained k →
      f₂.accepted c k <:+ f₂.published k ∧
        ∃ since, f₂.published k = f₁.published k ++ since ∧ since <:+ f₂.accepted c k := by
  have hbalanced₀ := balanced_start (sound_reachable hreachable) hstart
  obtain ⟨hbalanced₁, hfollows₁⟩ := run_keeps (P := Follows f₀) (fun _ h hm => h.move hm)
    hbalanced₀ (.refl f₀) hroom₁ hrun₁
  obtain ⟨hbalanced₂, hfollows₂⟩ := run_keeps (P := Follows f₁) (fun _ h hm => h.move hm)
    hbalanced₁ (.refl f₁) hroom₂ hrun₂
  obtain rfl : registry = f₁.registry := by
    rw [hfollows₁.registry, (start?_eq_some hstart).2]
  refine ⟨fun k => ⟨(hbalanced₂ k).published_eq, fun t ht => ?_⟩,
    fun c k hmember₁ hmember₂ hopen hreliable hdrained => ?_⟩
  · obtain ⟨payload, hop⟩ := ((hbalanced₂ k).stream 0).issued t ht
    refine ⟨payload, ?_, hfollows₂.registry ▸ hop⟩
    rw [(hbalanced₂ k).published_eq]
    refine List.mem_append_left _ (List.mem_filterMap.mpr ⟨t, ht, ?_⟩)
    rw [Hub.System.payload?, hop]
    rfl
  · obtain ⟨hsuffix, hlater⟩ :=
      (hbalanced₂ k).accepted hdrained (hfollows₂.registry ▸ hmember₂) hopen hreliable
    obtain ⟨since, hsince⟩ := hfollows₂.published k
    refine ⟨hsuffix, since, hsince.symm, ?_⟩
    obtain ⟨-, hreached⟩ := run_keeps (P := (Since · c k (f₁.published k).length))
      (fun hbalanced h hm => h.step (hbalanced k) hm) hbalanced₁
      (since_member (hbalanced₁ k) hmember₁) hroom₂ hrun₂
    have hend := hlater _ hreached
    rwa [← hsince, List.drop_left] at hend

/-- An event is published, its broadcast begins, and a second connection is registered. -/
def beforehand : List Event := [
  .bus (.publish EventKind.created.channel [1]), .forward .created, .hub (.act 1),
  .hub (.start (.register 0)), .hub (.act 2)]

/-- The broadcast ends, and of what is published then, one payload is an event. -/
def afterwards : List Event := [
  .hub (.act 1), .hub (.enter 0), .hub (.finish 0 .ok), .hub (.act 1), .hub (.act 1),
  .forward .created, .bus (.publish "news" [9]), .bus (.publish EventKind.created.channel [2]),
  .forward .created, .hub (.act 3), .hub (.act 3), .hub (.act 3), .hub (.enter 0), .hub (.enter 1),
  .hub (.finish 1 .ok), .hub (.finish 0 .ok), .hub (.act 3), .hub (.act 3), .hub (.act 3),
  .forward .created]

theorem events_exact_latecomer : ∃ (hub : Hub.System) (f₀ f₁ f₂ : Feed),
    Reachable [.ofMillis 50] hub ∧ start? (.init 4) hub 0 = some f₀ ∧
    f₀.run beforehand = some f₁ ∧ f₁.run afterwards = some f₂ ∧
    f₂.published .created = [[1], [2]] ∧ f₂.accepted 0 .created = [[1], [2]] ∧
    f₂.accepted 1 .created = [[2]] ∧
    ∃ since, f₂.published .created = f₁.published .created ++ since ∧
      since <:+ f₂.accepted 1 .created := by
  let hub : Hub.System :=
    ((Hub.System.init [.ofMillis 50]).launch (.register 0)).startOperation 0 (.register 0)
  let f₀ : Feed := (start? (.init 4) hub 0).get (by decide +kernel)
  let f₁ : Feed := (f₀.run beforehand).get (by decide +kernel)
  let f₂ : Feed := (f₁.run afterwards).get (by decide +kernel)
  have hreachable : Reachable [.ofMillis 50] hub := ⟨[.start (.register 0), .act 0], rfl⟩
  have hstart : start? (.init 4) hub 0 = some f₀ := (Option.some_get _).symm
  have hrun₁ : f₀.run beforehand = some f₁ := (Option.some_get _).symm
  have hrun₂ : f₁.run afterwards = some f₂ := (Option.some_get _).symm
  obtain ⟨-, hexact⟩ :=
    events_exact hreachable hstart hrun₁ hrun₂ (by decide +kernel) (by decide +kernel)
  exact ⟨hub, f₀, f₁, f₂, hreachable, hstart, hrun₁, hrun₂, by decide +kernel, by decide +kernel,
    by decide +kernel, (hexact 1 .created (by decide +kernel) (by decide +kernel)
      (by decide +kernel) (by decide +kernel) (by decide +kernel)).2⟩

end Feed

end UserDirectory
