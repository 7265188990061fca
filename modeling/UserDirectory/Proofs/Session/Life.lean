import UserDirectory.Proofs.Hub.Ledger
import UserDirectory.Proofs.Json.Keys
import UserDirectory.Proofs.Server
import UserDirectory.Session.Loop

/-!
# The life of a session

A session goes on when it can; in between, something comes in for it, the hub goes on, and the bus
becomes whatever others make of it. `Life` is a session among all this, with a diary: what came in,
and for each thing to which the session has turned, what it learned of the operation that it called
for it and which operations of the hub it started.

`Goes` says what a session can do when it goes on. `Due` says what a client is to be told of a
frame; it speaks of the request in the frame and of how its operation ended, and not of how a
session finds out. That a session tells what is due is proved for each of its reactions.
-/

namespace UserDirectory

namespace Session

open Json (toTree)
open Hub (TaskId Operation)

/-! ## The diary -/

/-- Something that came in and to which the session has turned. -/
structure Handled where
  item : Inbound
  /-- how the operation ended that it caused, as far as the session knows -/
  result : Option (Except Client.Failure CallAnswer) := none
  /-- the operations of the hub that the session started for it -/
  started : List (TaskId × Operation) := []

/-- The replies to it. -/
def Handled.replies (x : Handled) : List (TaskId × Octets) := Hub.System.frames x.started

/-- A session with what it works with, what came in for it, and what it has handled. -/
structure Life where
  session : Session
  shared : Shared
  arrived : List Inbound := []
  handled : List Handled := []

/-- A session that serves a connection and to which nothing has come in yet. -/
def Life.begin (hub : Hub.HubId) (connection : Hub.ConnectionId) (shared : Shared) : Life :=
  { session := { hub, connection }, shared }

/-- The operations that a session has started. -/
def Life.started (l : Life) : List (TaskId × Operation) := l.handled.flatMap (·.started)

/-- The replies that a session has sent. -/
def Life.replies (l : Life) : List (TaskId × Octets) := Hub.System.frames l.started

/-- What may happen in the life of a session. -/
inductive Happening
  /-- something comes in -/
  | arrive (i : Inbound)
  /-- the bus becomes what others make of it -/
  | bus (broker : Broker)
  | hub (e : Hub.Event)
  /-- the session goes on; an operation that it calls is sent under the fresh identifier -/
  | goOn (fresh : Uuid)

/-- How an operation ended, if the session finds out when it goes on. -/
def learns? (s : Session) (fresh : Uuid) (w : Shared) :
    Option (Except Client.Failure CallAnswer) :=
  match s.phase, s.inbox with
  | .listening, .data frame :: _ =>
    match react frame with
    | .reply _ => none
    | .call _ call =>
      match (w.broker.request call.channel (call.request fresh) w.client.timeout).1 with
      | .error e => some (call.read (.error e))
      | .ok _ => none
  | .calling _ call x, _ =>
    match w.broker.standing? x with
    | some (.answered payload) => some (call.read (.ok payload))
    | some (.failed e) => some (call.read (.error e))
    | _ => none
  | _, _ => none

/-- The operations by which a hub has more than before. -/
def startedBetween (before after : Hub.System) : List (TaskId × Operation) :=
  ((after.tasks.drop before.tasks.length).zipIdx before.tasks.length).map fun x => (x.2, x.1.op)

/-- The last of a list is changed. -/
def amend {α : Type} (f : α → α) (xs : List α) : List α :=
  xs.dropLast ++ (xs.getLast?.map f).toList

/-- The diary after the session has gone on: a new entry for what it has turned to, or an addition
to the last one. -/
def Life.noted (l : Life) (fresh : Uuid) (after : Shared) : List Handled :=
  let result := l.session.learns? fresh l.shared
  let started := startedBetween l.shared.hub after.hub
  match l.session.phase, l.session.inbox with
  | .listening, item :: _ => l.handled ++ [{ item, result, started }]
  | _, _ =>
    amend (fun x => { x with result := x.result.or result, started := x.started ++ started })
      l.handled

/-- What becomes of the life of a session. -/
def Life.step (l : Life) : Happening → Option Life
  | .arrive i =>
    some { l with
      session := { l.session with inbox := l.session.inbox ++ [i] }
      arrived := l.arrived ++ [i] }
  | .bus broker => some { l with shared := { l.shared with broker } }
  | .hub e => (l.shared.hub.step e).map fun hub => { l with shared := { l.shared with hub } }
  | .goOn fresh => (l.session.proceed? fresh l.shared).map fun (session, shared) =>
      { l with session, shared, handled := l.noted fresh shared }

def Life.run (l : Life) : List Happening → Option Life
  | [] => some l
  | e :: es => (l.step e).bind (run · es)

@[simp] theorem startedBetween_self (h : Hub.System) : startedBetween h h = [] := by
  simp [startedBetween]

@[simp] theorem startedBetween_launch (h : Hub.System) (op : Operation) :
    startedBetween h (h.launch op) = [(h.tasks.length, op)] := by
  simp [startedBetween, Hub.System.launch]

@[simp] theorem amend_concat {α : Type} (f : α → α) (xs : List α) (x : α) :
    amend f (xs ++ [x]) = xs ++ [f x] := by
  simp [amend]

/-! ## How a session goes on -/

/-- What a session can do when it goes on, with what it learns. -/
inductive Goes (s : Session) (w : Shared) :
    Option (Except Client.Failure CallAnswer) → Session → Shared → Prop
  | ignores {inbox : List Inbound} (hphase : s.phase = .listening)
      (hinbox : s.inbox = .control :: inbox) : Goes s w none { s with inbox } w
  | answers {frame : Octets} {inbox : List Inbound} {reply : Reply} (hphase : s.phase = .listening)
      (hinbox : s.inbox = .data frame :: inbox) (hreact : react frame = .reply reply) :
      Goes s w none ({ s with inbox }.send reply w).1 ({ s with inbox }.send reply w).2
  | asks {frame : Octets} {inbox : List Inbound} {requestId : String} {call : Call}
      (x : Broker.ExchangeId) (broker : Broker) (hphase : s.phase = .listening)
      (hinbox : s.inbox = .data frame :: inbox) (hreact : react frame = .call requestId call) :
      Goes s w none { s with inbox, phase := .calling requestId call x } { w with broker }
  | fails {frame : Octets} {inbox : List Inbound} {requestId : String} {call : Call}
      (e : Broker.Failure) (broker : Broker) (hphase : s.phase = .listening)
      (hinbox : s.inbox = .data frame :: inbox) (hreact : react frame = .call requestId call) :
      Goes s w (some (call.read (.error e)))
        ({ s with inbox }.settle requestId call (.error e) { w with broker }).1
        ({ s with inbox }.settle requestId call (.error e) { w with broker }).2
  | parts {i : Inbound} {inbox : List Inbound} (hphase : s.phase = .listening)
      (hinbox : s.inbox = i :: inbox) (hitem : i = .close ∨ i = .lost) :
      Goes s w none ({ s with inbox }.leave w).1 ({ s with inbox }.leave w).2
  | learns {requestId : String} {call : Call} {x : Broker.ExchangeId}
      (reply : Except Broker.Failure Octets) (hphase : s.phase = .calling requestId call x) :
      Goes s w (some (call.read reply)) (s.settle requestId call reply w).1
        (s.settle requestId call reply w).2
  | goesOn {t : TaskId} {outcome : Hub.Outcome} (hphase : s.phase = .replying t)
      (houtcome : w.hub.outcome? t = some outcome) (hsent : ∀ why, outcome ≠ .sent (.failed why)) :
      Goes s w none { s with phase := .listening } w
  | givesUp {t : TaskId} {why : Hub.Failure} (hphase : s.phase = .replying t)
      (houtcome : w.hub.outcome? t = some (.sent (.failed why))) :
      Goes s w none (s.leave w).1 (s.leave w).2
  | ends {t : TaskId} (hphase : s.phase = .leaving t) (hreturned : (w.hub.outcome? t).isSome) :
      Goes s w none { s with phase := .ended } w

/-- **A session that turns to a frame answers it, or calls for an operation.** -/
theorem goes_of_handle {s : Session} {fresh : Uuid} {w : Shared} {frame : Octets}
    {inbox : List Inbound} (hphase : s.phase = .listening)
    (hinbox : s.inbox = .data frame :: inbox) :
    Goes s w (s.learns? fresh w) ({ s with inbox }.handle frame fresh w).1
      ({ s with inbox }.handle frame fresh w).2 := by
  cases hreact : react frame with
  | reply reply =>
    simp only [learns?, hphase, hinbox, handle, hreact]
    exact .answers hphase hinbox hreact
  | call requestId call =>
    simp only [learns?, hphase, hinbox, handle, hreact]
    obtain ⟨_ | x, broker⟩ := w.broker.request call.channel (call.request fresh) w.client.timeout
    · exact .fails _ broker hphase hinbox hreact
    · exact .asks x broker hphase hinbox hreact

/-- **A session goes on in one of nine ways.** -/
theorem goes_of_proceed {s s' : Session} {fresh : Uuid} {w w' : Shared}
    (h : s.proceed? fresh w = some (s', w')) : Goes s w (s.learns? fresh w) s' w' := by
  unfold proceed? at h
  split at h
  · rename_i hphase
    split at h
    · cases h
    · rename_i i inbox hinbox
      obtain ⟨rfl, rfl⟩ := Prod.mk.inj (Option.some.inj h)
      cases i with
      | data frame => exact goes_of_handle hphase hinbox
      | control =>
        have hnone : s.learns? fresh w = none := by simp only [learns?, hphase, hinbox]
        exact hnone ▸ .ignores hphase hinbox
      | close | lost =>
        have hnone : s.learns? fresh w = none := by simp only [learns?, hphase, hinbox]
        exact hnone ▸ .parts hphase hinbox (by simp)
  · rename_i requestId call x hphase
    split at h
    · rename_i payload hstanding
      obtain ⟨rfl, rfl⟩ := Prod.mk.inj (Option.some.inj h)
      simp only [learns?, hphase, hstanding]
      exact .learns (.ok payload) hphase
    · rename_i e hstanding
      obtain ⟨rfl, rfl⟩ := Prod.mk.inj (Option.some.inj h)
      simp only [learns?, hphase, hstanding]
      exact .learns (.error e) hphase
    · cases h
  · rename_i t hphase
    have hnone : s.learns? fresh w = none := by simp only [learns?, hphase]
    rw [hnone]
    split at h
    · cases h
    · rename_i why houtcome
      obtain ⟨rfl, rfl⟩ := Prod.mk.inj (Option.some.inj h)
      exact .givesUp hphase houtcome
    · rename_i outcome hother houtcome
      obtain ⟨rfl, rfl⟩ := Prod.mk.inj (Option.some.inj h)
      exact .goesOn hphase houtcome hother
  · rename_i t hphase
    have hnone : s.learns? fresh w = none := by simp only [learns?, hphase]
    rw [hnone]
    split at h
    · obtain ⟨rfl, rfl⟩ := Prod.mk.inj (Option.some.inj h)
      exact .ends hphase ‹_›
    · cases h
  · cases h

/-! ## What a frame is due -/

/-- The actions by which the users change. -/
def mutations : List String := ["user.create", "user.update", "user.delete"]

/-- What is due to a frame whose operation, if it caused one, has ended with `result`. -/
inductive Due (frame : Octets) (result : Option (Except Client.Failure CallAnswer)) :
    List Octets → Prop
  /-- what is no request is told so, under no identifier -/
  | unread {reply : Reply} (hread : Json.decode (α := Request) frame = none)
      (hid : (toTree reply).child? (.key "requestId") = none) (hok : reply.ok = false)
      (herror : reply.error = some ⟨"bad_request", "invalid message"⟩) :
      Due frame result [Json.encode reply]
  /-- of a change that succeeded nothing is told -/
  | silent {r : Request} (hread : Json.decode frame = some r) (haction : r.action ∈ mutations)
      (hok : ∃ a, result = some (.ok a)) : Due frame result []
  /-- everything else is told once, under its own identifier unless that is empty -/
  | told {r : Request} {reply : Reply} (hread : Json.decode frame = some r)
      (hnot : ¬ (r.action ∈ mutations ∧ ∃ a, result = some (.ok a)))
      (hid : (toTree reply).child? (.key "requestId") =
        if r.requestId = "" then none else some (toTree r.requestId))
      (hok : reply.ok = true ↔ ∃ a, result = some (.ok a)) :
      Due frame result [Json.encode reply]

/-- The fields of a reply. -/
def Reply.record (r : Reply) : Json.Record :=
  [("requestId", if r.requestId = "" then none else some (toTree r.requestId)),
    ("ok", some (toTree r.ok)), ("data", r.data.map toTree), ("error", r.error.map toTree)]

theorem Reply.toTree_eq (r : Reply) : toTree r = .object r.record.members := by
  show Json.Tree.object _ = _
  obtain ⟨requestId, ok, data, error⟩ := r
  by_cases hid : requestId = "" <;> cases data <;> cases error <;>
    simp [record, Json.Record.members, Json.member, Json.optionalMember, hid]

/-- The identifier stands in the document, unless it is empty. -/
theorem Reply.child?_requestId (r : Reply) : (toTree r).child? (.key "requestId") =
    if r.requestId = "" then none else some (toTree r.requestId) := by
  rw [r.toTree_eq]
  refine Json.Tree.child?_members ?_ (.head _)
  show ["requestId", "ok", "data", "error"].Nodup
  decide

/-- An operation that is accepted is one of the command. -/
theorem command_of_accept {command : Command} {payload : Json.Value} {call : Call}
    (h : accept command payload = .ok call) : call.command = command := by
  cases command with
  | create =>
    obtain ⟨input, -, h⟩ := Server.bind_eq_ok.mp h
    obtain ⟨_, -, h⟩ := Server.bind_eq_ok.mp h
    cases h
    rfl
  | list =>
    cases h
    rfl
  | get | delete =>
    obtain ⟨request, -, h⟩ := Server.bind_eq_ok.mp h
    obtain ⟨_, -, h⟩ := Server.bind_eq_ok.mp h
    cases h
    rfl
  | update =>
    obtain ⟨request, -, h⟩ := Server.bind_eq_ok.mp h
    obtain ⟨_, -, h⟩ := Server.bind_eq_ok.mp h
    obtain ⟨_, -, h⟩ := Server.bind_eq_ok.mp h
    cases h
    rfl

/-- The commands by which the users change go by the words for it. -/
theorem mem_mutations_iff {word : String} {command : Command}
    (h : commandOfAction word = .ok command) :
    word ∈ mutations ↔ isMutation command = true := by
  unfold commandOfAction at h
  split at h
  · rename_i c hfind
    obtain rfl := Except.ok.inj h
    have hword := List.find?_some hfind
    rw [← show actionWord c = word from eq_of_beq hword]
    cases c <;> decide
  · cases h

/-- A request that is refused, or cannot be read, is told so. -/
theorem due_of_reply {frame : Octets} {reply : Reply} (h : react frame = .reply reply) :
    Due frame none [Json.encode reply] := by
  unfold react at h
  split at h
  · rename_i hread
    obtain rfl := Reaction.reply.inj h
    exact .unread hread (Reply.child?_requestId _) rfl rfl
  · rename_i r hread
    have htold (code message : String) :
        Due frame none [Json.encode (Reply.failure r.requestId code message)] :=
      .told hread (by simp) (Reply.child?_requestId _) (by simp [Reply.failure])
    split at h
    · obtain rfl := Reaction.reply.inj h
      exact htold _ _
    · split at h
      · obtain rfl := Reaction.reply.inj h
        exact htold _ _
      · cases h

theorem answer_requestId (requestId : String) (result : Except Client.Failure CallAnswer) :
    (answer requestId result).requestId = requestId := by
  cases result with
  | ok a => rfl
  | error e => cases e <;> rfl

theorem answer_ok (requestId : String) (result : Except Client.Failure CallAnswer) :
    (answer requestId result).ok = true ↔ ∃ a, result = .ok a := by
  cases result with
  | ok a => simp [answer, Reply.success]
  | error e => cases e <;> simp [answer, Reply.ofFailure, Reply.failure]

/-- Only of a change that succeeded nothing is told. -/
theorem isDirect_answer (requestId : String) (command : Command)
    (result : Except Client.Failure CallAnswer) :
    (answer requestId result).isDirect (some command) = true ↔
      ¬ (isMutation command = true ∧ ∃ a, result = .ok a) := by
  rw [← answer_ok requestId]
  simp only [Reply.isDirect, Option.any_some, Bool.or_eq_true, Bool.not_eq_true']
  cases (answer requestId result).ok <;> simp

/-- **An operation that has ended is told of as is due.** -/
theorem due_of_call {frame : Octets} {requestId : String} {call : Call}
    (h : react frame = .call requestId call) (result : Except Client.Failure CallAnswer) :
    Due frame (some result)
      ((directReply? requestId call result).toList.map (Json.encode ·)) := by
  unfold react at h
  split at h
  · cases h
  rename_i r hread
  split at h
  · cases h
  rename_i command hcommand
  split at h
  · cases h
  rename_i call' haccept
  obtain ⟨rfl, rfl⟩ := Reaction.call.inj h
  have hmutation : r.action ∈ mutations ↔ isMutation call'.command = true := by
    rw [command_of_accept haccept]
    exact mem_mutations_iff hcommand
  have hdirect := isDirect_answer r.requestId call'.command result
  rw [← hmutation] at hdirect
  unfold directReply?
  by_cases hsilent : r.action ∈ mutations ∧ ∃ a, result = .ok a
  · have hnone : ¬ (answer r.requestId result).isDirect (some call'.command) = true :=
      fun h => hdirect.mp h hsilent
    simp only [if_neg hnone]
    exact .silent hread hsilent.1 (by simpa using hsilent.2)
  · simp only [if_pos (hdirect.mpr hsilent)]
    refine .told hread (by simpa using hsilent) ?_ (by simpa using answer_ok r.requestId result)
    rw [Reply.child?_requestId, answer_requestId]

/-- When an operation has ended, the session sends what is due, or turns to what is next. -/
theorem settle_cases {frame : Octets} {requestId : String} {call : Call}
    (h : react frame = .call requestId call) (s : Session) (reply : Except Broker.Failure Octets)
    (w : Shared) :
    (∃ r, Due frame (some (call.read reply)) [Json.encode r] ∧
      s.settle requestId call reply w = s.send r w) ∨
    (Due frame (some (call.read reply)) [] ∧
      s.settle requestId call reply w = ({ s with phase := .listening }, w)) := by
  have hdue := due_of_call h (call.read reply)
  unfold settle
  split
  · rename_i r hr
    rw [hr] at hdue
    exact .inl ⟨r, hdue, rfl⟩
  · rename_i hr
    rw [hr] at hdue
    exact .inr ⟨hdue, rfl⟩

end Session

end UserDirectory
