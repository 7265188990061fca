import UserDirectory.Proofs.Answers
import UserDirectory.Proofs.Passage

/-!
# The web and the socket are one service

What a caller wants is a wish: an operation whose identifier is still a text and of which nothing
was checked yet. Over the web a request asks for it, on a socket a message does, and each side has
its own reader, its own checks and its own answers.

Both sides come down to `Wish.call?`: the operation that the wish is, or the first rule that it
breaks. From there a side either answers at once or sends one request over the bus (`Stack.Runs`).
What the bus and the server do is the same for both, since it depends on the operation alone
(`Stack.Up.serves_eq`), and what is answered tells the same (`corresponds_answer`). The server
checks the rules a third time; it never refuses what a side let through, because both judge by
`Call.validate`.
-/

namespace UserDirectory

open Json (Tree toTree)
open Broker (SubscriptionId)
open Server (Fresh Shared)
open Time (Duration)
open Validation (Rule checkNew checkChanges checkId)

/-! ## Wishes -/

/-- What a caller wants, before anything was checked. -/
inductive Wish
  | create (input : NewUser)
  | list
  | get (id : String)
  | update (id : String) (changes : UserChanges)
  | delete (id : String)
  deriving DecidableEq

/-- The operation that a wish is, or the first rule that it breaks. -/
def Wish.call? : Wish → Except Rule Call
  | create input => do
    checkNew input
    return .create input
  | list => return .list
  | get id => return .get (← checkId id)
  | update id changes => do
    checkChanges changes
    return .update (← checkId id) changes
  | delete id => return .delete (← checkId id)

/-- What a wish is let through as keeps the rules that the server checks. -/
theorem Wish.validate_of_call? {w : Wish} {c : Call} (h : w.call? = .ok c) :
    c.validate = .ok () := by
  cases w with
  | create input =>
    obtain ⟨_, hcheck, h⟩ := Server.bind_eq_ok.mp h
    cases h
    exact hcheck
  | list =>
    cases h
    rfl
  | get | delete =>
    obtain ⟨_, -, h⟩ := Server.bind_eq_ok.mp h
    cases h
    rfl
  | update id changes =>
    obtain ⟨_, hcheck, h⟩ := Server.bind_eq_ok.mp h
    obtain ⟨_, -, h⟩ := Server.bind_eq_ok.mp h
    cases h
    exact hcheck

/-! ## Over the web -/

namespace Rest

/-- A request whose method and body ask for a wish; the identifier stands in its path. -/
def Request.Asks (q : Request) : Wish → Prop
  | .create input => q.method = .post ∧ input? NewUser q = .ok input
  | .list | .get _ => q.method = .get
  | .update _ changes => q.method = .patch ∧ input? UserChanges q = .ok changes
  | .delete _ => q.method = .delete

/-- The operation that a request for a wish makes, or its failure. -/
def handle (q : Request) : Wish → Except Failure Call
  | .create _ | .list => callOnUsers q
  | .get id | .update id _ | .delete id => callOnUser q id

theorem handle_of_asks {q : Request} {w : Wish} (h : q.Asks w) :
    handle q w = w.call?.mapError .ofRule := by
  cases w with
  | create input =>
    obtain ⟨hmethod, hinput⟩ := h
    simp only [handle, callOnUsers, hmethod, hinput, Server.ok_bind, Wish.call?, ensure]
    cases checkNew input <;> rfl
  | list =>
    have hmethod : q.method = .get := h
    simp only [handle, callOnUsers, hmethod]
    rfl
  | get id | delete id =>
    have hmethod : q.method = _ := h
    simp only [handle, callOnUser, hmethod, Wish.call?, ensure]
    cases checkId id <;> rfl
  | update id changes =>
    obtain ⟨hmethod, hinput⟩ := h
    simp only [handle, callOnUser, hmethod, hinput, Server.ok_bind, Wish.call?, ensure]
    cases checkChanges changes <;> cases checkId id <;> rfl

/-- Where a wish is asked for: at all users, or at the user in the path. -/
def Route.IsFor (route : Route) : Wish → Prop
  | .create _ | .list => route = .users
  | .get id | .update id _ | .delete id =>
    ∃ segment, route = .user segment ∧ Percent.text? segment = some id

/-- A request at the place of its wish leads to what its handler makes of it. -/
theorem react_of_asks {q : Request} {w : Wish} {route : Route} (h : q.Asks w)
    (htarget : Route.ofTarget? q.target = some route) (hroute : route.IsFor w) :
    react q = .ofCall (handle q w) := by
  cases w with
  | create input =>
    obtain rfl : route = .users := hroute
    simp [react, htarget, h.1, Route.methods, reactOn, handle]
  | list =>
    obtain rfl : route = .users := hroute
    have hmethod : q.method = .get := h
    simp [react, htarget, hmethod, Route.methods, reactOn, handle]
  | get id | delete id =>
    obtain ⟨segment, rfl, hid⟩ := hroute
    have hmethod : q.method = _ := h
    simp [react, htarget, hmethod, Route.methods, reactOn, handle, hid]
  | update id changes =>
    obtain ⟨segment, rfl, hid⟩ := hroute
    simp [react, htarget, h.1, Route.methods, reactOn, handle, hid]

end Rest

/-! ## On a socket -/

namespace Session

/-- A message whose action and payload ask for a wish. -/
def Request.Asks (r : Request) : Wish → Prop
  | .create input => r.action = "user.create" ∧ ofPayload? NewUser r.payload = .ok input
  | .list => r.action = "user.list"
  | .get id => r.action = "user.get" ∧ ofPayload? IdRequest r.payload = .ok ⟨id⟩
  | .update id changes =>
    r.action = "user.update" ∧ ofPayload? UpdateRequest r.payload = .ok ⟨id, changes⟩
  | .delete id => r.action = "user.delete" ∧ ofPayload? IdRequest r.payload = .ok ⟨id⟩

/-- The operation that a message makes, or the reply to its refusal. -/
def process (r : Request) : Except Reply Call :=
  match commandOfAction r.action with
  | .error _ => .error (.failure r.requestId Reply.badRequest "unknown action")
  | .ok command => (accept command r.payload).mapError (.failure r.requestId Reply.badRequest)

/-- A frame that is a message leads to what becomes of the message. -/
theorem react_of_decode {frame : Octets} {r : Request} (h : Json.decode frame = some r) :
    react frame =
      match process r with
      | .error reply => .reply reply
      | .ok call => .call r.requestId call := by
  simp only [react, process, h]
  cases commandOfAction r.action with
  | error _ => rfl
  | ok command =>
    simp only
    cases accept command r.payload <;> rfl

theorem process_of_asks {r : Request} {w : Wish} (h : r.Asks w) :
    process r =
      w.call?.mapError fun rule => .failure r.requestId Reply.badRequest rule.message := by
  cases w with
  | create input =>
    obtain ⟨haction, hinput⟩ := h
    simp only [process, haction, show commandOfAction "user.create" = .ok .create from rfl, accept,
      hinput, Server.ok_bind, Wish.call?, ensure]
    cases checkNew input <;> rfl
  | list =>
    have haction : r.action = "user.list" := h
    simp only [process, haction]
    rfl
  | get id =>
    obtain ⟨haction, hinput⟩ := h
    simp only [process, haction, show commandOfAction "user.get" = .ok .get from rfl, accept,
      hinput, Server.ok_bind, Wish.call?, ensure]
    cases checkId id <;> rfl
  | update id changes =>
    obtain ⟨haction, hinput⟩ := h
    simp only [process, haction, show commandOfAction "user.update" = .ok .update from rfl, accept,
      hinput, Server.ok_bind, Wish.call?, ensure]
    cases checkChanges changes <;> cases checkId id <;> rfl
  | delete id =>
    obtain ⟨haction, hinput⟩ := h
    simp only [process, haction, show commandOfAction "user.delete" = .ok .delete from rfl, accept,
      hinput, Server.ok_bind, Wish.call?, ensure]
    cases checkId id <;> rfl

end Session

/-! ## Over the bus -/

/-- A gateway and its server: what they share, the mailboxes of the server, what its next delivery
may use up, and how long the gateway waits. -/
structure Stack where
  shared : Shared
  sub : Command → SubscriptionId
  fresh : Fresh
  timeout : Duration

namespace Stack

/-- The server takes every command. -/
def Up (k : Stack) : Prop :=
  ∀ command : Command, ∃ box, k.shared.broker.Serving command.channel (k.sub command) box

/-- An operation is sent, its exchange is answered, and the answer is read as `result`. -/
def Serves (k : Stack) (c : Call) (requestId : Uuid) (result : Except Client.Failure CallAnswer)
    (after : Store) : Prop :=
  ∃ x broker p answer,
    k.shared.broker.request c.channel (c.request requestId) k.timeout = (.ok x, broker) ∧
    Passage.Steps ⟨c.command, k.sub c.command, c.request requestId, x, k.fresh⟩
      ⟨{ k.shared with broker }, .queued (k.shared.broker.queueOf (k.sub c.command)).length⟩ p ∧
    p.shared.broker.standing? x = some (.answered answer) ∧
    c.read (.ok answer) = result ∧ p.shared.store = after

variable {k : Stack}

/-- A request that is sent to a server that is up is on its way. -/
theorem Up.exists_onItsWay (h : k.Up) (c : Call) (requestId : Uuid) :
    ∃ x broker,
      k.shared.broker.request c.channel (c.request requestId) k.timeout = (.ok x, broker) ∧
      Passage.OnItsWay ⟨c.command, k.sub c.command, c.request requestId, x, k.fresh⟩ k.shared.store
        ⟨{ k.shared with broker },
          .queued (k.shared.broker.queueOf (k.sub c.command)).length⟩ := by
  obtain ⟨box, hserving⟩ := h c.command
  obtain ⟨x, broker, hrequest, -, -⟩ := hserving.request (c.request requestId) k.timeout
  exact ⟨x, broker, hrequest, Passage.onItsWay_start hserving hrequest⟩

theorem Up.exists_serves (h : k.Up) (c : Call) (requestId : Uuid) :
    ∃ result after, k.Serves c requestId result after := by
  obtain ⟨x, broker, hrequest, hstart⟩ := h.exists_onItsWay c requestId
  obtain ⟨p, answer, hsteps, hanswered⟩ := hstart.exists_answered
  exact ⟨_, _, x, broker, p, answer, hrequest, hsteps, hanswered, rfl, rfl⟩

/-- What an operation comes to over the bus depends on nothing but the operation. -/
theorem Up.serves_eq (h : k.Up) {c : Call} {requestId : Uuid}
    {result : Except Client.Failure CallAnswer} {after : Store}
    (hserves : k.Serves c requestId result after) :
    (result, after) = c.apply k.fresh.userId k.fresh.storedAt k.shared.store := by
  obtain ⟨x, broker, p, answer, hrequest, hsteps, hanswered, rfl, rfl⟩ := hserves
  obtain ⟨x', broker', hrequest', hstart⟩ := h.exists_onItsWay c requestId
  obtain ⟨hx, rfl⟩ := Prod.mk.inj (hrequest.symm.trans hrequest')
  obtain rfl := Except.ok.inj hx
  obtain ⟨event, hdispatch⟩ := (Passage.onItsWay_steps hstart hsteps).answered hanswered
  have hread := c.read_dispatch requestId k.fresh k.shared.store
  rw [hdispatch] at hread
  exact hread

end Stack

/-- The data that an operation sends. -/
def Call.data : Call → Tree
  | create input => toTree input
  | list => toTree (⟨⟩ : ListRequest)
  | get id | delete id => toTree (⟨id.text⟩ : IdRequest)
  | update id changes => toTree (⟨id.text, changes⟩ : UpdateRequest)

theorem Call.request_eq (c : Call) (requestId : Uuid) :
    c.request requestId = Json.encode (⟨requestId.text, c.data⟩ : CommandRequest Tree) := by
  cases c <;> rfl

/-- An operation that keeps the rules is accepted by the server as it is. -/
theorem Call.accept_request_of_validate {c : Call} (h : c.validate = .ok ()) (requestId : Uuid) :
    Server.accept c.command (c.request requestId) = .ok c := by
  rw [c.accept_request, h]

theorem Validation.Rule.message_ne_emailTaken (rule : Rule) :
    rule.message ≠ "email already exists" := by
  cases rule <;> decide

/-- What keeps the rules is not refused in the words of one. -/
theorem Call.apply_ne_refusal {c : Call} (h : c.validate = .ok ()) (freshId : UserId)
    (now : Time.Instant) (s : Store) (rule : Rule) :
    (c.apply freshId now s).1 ≠ .error (.badRequest rule.message) := by
  rw [apply, h]
  obtain ⟨outcome, s', hperform, -⟩ | ⟨e, hperform, he⟩ := s.perform_cases c freshId now
  · simp only [hperform]
    intro heq
    cases heq
  · simp only [hperform]
    intro heq
    rcases he with rfl | rfl
    · cases heq
    · exact rule.message_ne_emailTaken (Client.Failure.badRequest.inj (Except.error.inj heq)).symm

/-! ## From the wish to the answer -/

/-- What a side did for a wish: the request it sent, if any, its answer, and the users after it. -/
structure Run (α : Type) where
  sent : Option (String × Octets)
  answer : α
  after : Store

/-- What a side that has decided on an operation, or on an answer, can come to. -/
inductive Stack.Runs (k : Stack) (requestId : Uuid) {α : Type} (decided : Except α Call)
    (answer : Call → Except Client.Failure CallAnswer → α) : Run α → Prop
  | refused {a : α} (hdecided : decided = .error a) :
      Runs k requestId decided answer ⟨none, a, k.shared.store⟩
  | served {c : Call} {result : Except Client.Failure CallAnswer} {after : Store}
      (hdecided : decided = .ok c) (hserves : k.Serves c requestId result after) :
      Runs k requestId decided answer
        ⟨some (c.channel, c.request requestId), answer c result, after⟩

/-- What the handler of a request can come to. -/
def Stack.RunsRest (k : Stack) (requestId : Uuid) (q : Rest.Request) (w : Wish)
    (run : Run Rest.Response) : Prop :=
  k.Runs requestId ((Rest.handle q w).mapError Rest.failed) Rest.answer run

/-- What the processing of a message can come to. -/
def Stack.RunsSocket (k : Stack) (requestId : Uuid) (r : Session.Request)
    (run : Run Session.Reply) : Prop :=
  k.Runs requestId (Session.process r) (fun _ => Session.answer r.requestId) run

theorem Stack.Up.exists_runs {k : Stack} (h : k.Up) (requestId : Uuid) {α : Type}
    (decided : Except α Call) (answer : Call → Except Client.Failure CallAnswer → α) :
    ∃ run, k.Runs requestId decided answer run := by
  cases hdecided : decided with
  | error a => exact ⟨_, .refused rfl⟩
  | ok c =>
    obtain ⟨result, after, hserves⟩ := h.exists_serves c requestId
    exact ⟨_, .served rfl hserves⟩

/-- Two sides that sent nothing, or the same request but for its identifier. -/
inductive SameCommand : Option (String × Octets) → Option (String × Octets) → Prop
  | none : SameCommand none none
  | sent (channel id id' : String) (data : Tree) :
      SameCommand (some (channel, Json.encode (⟨id, data⟩ : CommandRequest Tree)))
        (some (channel, Json.encode (⟨id', data⟩ : CommandRequest Tree)))

/-- Two sides that did the same for a wish. -/
structure Alike (before : Store) (w : Wish) (rest : Run Rest.Response)
    (socket : Run Session.Reply) : Prop where
  store : rest.after = socket.after
  command : SameCommand rest.sent socket.sent
  answer : Corresponds rest.answer socket.answer
  /-- What breaks a rule is answered with the rule, and nothing else is done. -/
  refused : ∀ rule, w.call? = .error rule →
    rest.sent = none ∧ rest.after = before ∧ rest.answer.Fails 400 1001 rule.message ∧
    socket.sent = none ∧ socket.after = before ∧ socket.answer.Fails "bad_request" rule.message
  /-- What breaks no rule is sent, is accepted by the server, and is not answered with a rule. -/
  accepted : ∀ c, w.call? = .ok c →
    rest.sent.isSome = true ∧ socket.sent.isSome = true ∧
    (∀ requestId, Server.accept c.command (c.request requestId) = .ok c) ∧
    ∀ rule : Rule, ¬ rest.answer.Fails 400 1001 rule.message ∧
      ¬ socket.answer.Fails "bad_request" rule.message

/-- The reply to an outcome is a refusal only if the outcome is one. -/
theorem Session.fails_answer {requestId : String} {result : Except Client.Failure CallAnswer}
    {message : String} (h : (Session.answer requestId result).Fails "bad_request" message) :
    result = .error (.badRequest message) := by
  obtain ⟨-, -, herror⟩ := h
  cases result with
  | ok a => exact nomatch herror
  | error e =>
    cases e with
    | badRequest m =>
      have := congrArg (Option.map Session.ReplyError.message) herror
      obtain rfl : m = message := Option.some.inj this
      rfl
    | _ =>
      have := congrArg (Option.map Session.ReplyError.code) herror
      simp [answer, Reply.ofFailure, Reply.failure, Reply.notFound, Reply.internalError] at this

/-- What breaks a rule is refused alike. -/
theorem alike_of_refused {w : Wish} {rule : Rule} (hcall : w.call? = .error rule) (before : Store)
    (requestId : String) :
    Alike before w ⟨none, Rest.failed (.ofRule rule), before⟩
      ⟨none, .failure requestId Session.Reply.badRequest rule.message, before⟩ := by
  have hsame := corresponds_refusal rule requestId
  have hreply : (Session.Reply.failure requestId Session.Reply.badRequest rule.message).Fails
      "bad_request" rule.message := ⟨rfl, rfl, rfl⟩
  refine ⟨rfl, .none, hsame, fun rule' h => ?_, fun c h => (nomatch hcall ▸ h)⟩
  obtain rfl := Except.error.inj (hcall ▸ h)
  exact ⟨rfl, rfl, (hsame.refused _).mpr hreply, rfl, rfl, hreply⟩

/-- What breaks no rule is served alike. -/
theorem Stack.Up.alike_of_served {k : Stack} (hup : k.Up) {w : Wish} {c : Call}
    (hcall : w.call? = .ok c) {requestId requestId' : Uuid}
    {result result' : Except Client.Failure CallAnswer} {after after' : Store}
    (hserves : k.Serves c requestId result after) (hserves' : k.Serves c requestId' result' after')
    (socketId : String) :
    Alike k.shared.store w ⟨some (c.channel, c.request requestId), Rest.answer c result, after⟩
      ⟨some (c.channel, c.request requestId'), Session.answer socketId result', after'⟩ := by
  have hvalid := Wish.validate_of_call? hcall
  have happly := hup.serves_eq hserves
  have hsame := happly.trans (hup.serves_eq hserves').symm
  cases hsame
  have hcorresponds := corresponds_answer c socketId result
  have hnot : ∀ rule : Rule,
      ¬ (Session.answer socketId result).Fails "bad_request" rule.message := by
    intro rule hfails
    have hrefusal := Session.fails_answer hfails
    have hresult := congrArg Prod.fst happly
    exact c.apply_ne_refusal hvalid _ _ _ rule (hresult.symm.trans hrefusal)
  refine ⟨rfl, ?_, hcorresponds, fun rule h => (nomatch hcall ▸ h), fun c' h => ?_⟩
  · rw [c.request_eq, c.request_eq]
    exact .sent ..
  · obtain rfl := Except.ok.inj (hcall ▸ h)
    exact ⟨rfl, rfl, fun _ => Call.accept_request_of_validate hvalid _, fun rule =>
      ⟨fun hfails => hnot rule ((hcorresponds.refused _).mp hfails), hnot rule⟩⟩

/-- **The web and the socket are one service**: asked for the same wish in the same state, both get
to an answer, and whenever they do they leave the same users, have sent the same request up to its
identifier, and their answers tell the same. The answers would tell the same for any other outcome
of an operation too, such as a request that ran out of time. -/
theorem surfaces_agree (k : Stack) (hup : k.Up) (w : Wish) (q : Rest.Request) (r : Session.Request)
    (hq : q.Asks w) (hr : r.Asks w) (requestId requestId' : Uuid) :
    (∃ rest, k.RunsRest requestId q w rest) ∧
    (∃ socket, k.RunsSocket requestId' r socket) ∧
    (∀ rest socket, k.RunsRest requestId q w rest → k.RunsSocket requestId' r socket →
      Alike k.shared.store w rest socket) ∧
    ∀ c result, Corresponds (Rest.answer c result) (Session.answer r.requestId result) := by
  refine ⟨hup.exists_runs .., hup.exists_runs .., fun rest socket hrest hsocket => ?_,
    fun c => corresponds_answer c r.requestId⟩
  unfold Stack.RunsRest at hrest
  unfold Stack.RunsSocket at hsocket
  rw [Rest.handle_of_asks hq] at hrest
  rw [Session.process_of_asks hr] at hsocket
  cases hcall : w.call? with
  | error rule =>
    rw [hcall] at hrest hsocket
    cases hrest with
    | served hdecided _ => cases hdecided
    | refused hdecided =>
      cases hdecided
      cases hsocket with
      | served hdecided _ => cases hdecided
      | refused hdecided =>
        cases hdecided
        exact alike_of_refused hcall k.shared.store r.requestId
  | ok c =>
    rw [hcall] at hrest hsocket
    cases hrest with
    | refused hdecided => cases hdecided
    | served hdecided hserves =>
      cases hdecided
      cases hsocket with
      | refused hdecided => cases hdecided
      | served hdecided hserves' =>
        cases hdecided
        exact hup.alike_of_served hcall hserves hserves' r.requestId

/-- The phone of the one user is to be cleared; a server has subscribed to a fresh broker. -/
theorem surfaces_agree_update :
    let id := (Fresh.nth 0).userId
    let changes : UserChanges := { phone := some "" }
    let k : Stack := {
      shared := {
        broker := ((Broker.init 1).subscribeAll (Command.all.map (·.channel))).2
        store := (Store.empty.perform (.create Server.ada) id (Fresh.nth 0).storedAt).2 }
      sub := Command.all.idxOf
      fresh := Fresh.nth 1
      timeout := .ofSeconds 5 }
    let w : Wish := .update id.text changes
    let q : Rest.Request := {
      method := .patch
      target := "/users/" ++ id.text
      contentType := some "application/json"
      body := Json.encode changes }
    let r : Session.Request := {
      requestId := "7"
      action := "user.update"
      payload := .object [("id", .string id.text), ("phone", .string "")] }
    k.Up ∧ q.Asks w ∧ r.Asks w ∧
      (∃ rest, k.RunsRest (.ofSerial 8) q w rest) ∧
      (∃ socket, k.RunsSocket (.ofSerial 9) r socket) ∧
      (∀ rest socket, k.RunsRest (.ofSerial 8) q w rest → k.RunsSocket (.ofSerial 9) r socket →
        Alike k.shared.store w rest socket) ∧
      ∀ c result, Corresponds (Rest.answer c result) (Session.answer r.requestId result) := by
  intro id changes k w q r
  have hup : k.Up := by
    intro command
    cases command <;>
      exact ⟨{ channel := _ }, by decide, by decide, rfl, rfl, rfl, by decide⟩
  have hq : q.Asks w := by
    refine ⟨rfl, ?_⟩
    have hbody : q.contentType.any Rest.MediaType.isJson && q.body.length ≤ Rest.bodyLimit := by
      decide
    rw [Rest.input?, if_pos hbody, show Json.decode q.body = some changes from
      (Json.faithful changes).decode_encode]
  have hr : r.Asks w := by
    refine ⟨rfl, ?_⟩
    have hpayload : r.payload.toTree = toTree (⟨id.text, changes⟩ : UpdateRequest) := rfl
    rw [Session.ofPayload?, hpayload, (Json.faithful _).ofTree?_toTree]
  exact ⟨hup, hq, hr, surfaces_agree k hup w q r hq hr _ _⟩

end UserDirectory
