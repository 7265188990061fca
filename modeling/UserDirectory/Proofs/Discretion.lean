import UserDirectory.Proofs.Server.Desk
import UserDirectory.Rest.Basic
import UserDirectory.Session.Basic

/-!
# What callers are not told

A failure that is not the caller's doing has a detail: the words of the store, an answer that nobody
can read, a code that nobody knows, the name of a channel. None of it is told. Each statement here
compares two runs that differ in the detail alone and finds the same octets.

There are three places where a detail could slip through. The store fails behind the server
(`Desk.handle_other`), the server's answer is one that does not explain itself (`Call.Unexplained`),
and the bus fails in between. Behind the last two stands one lemma on each surface: whatever is
internal is one response, but for its number, and one reply (`answer_of_isInternal`,
`frame?_of_isInternal`).
-/

namespace UserDirectory

open Json (OfTree)

/-! ## Failures of the store -/

namespace Server

variable (d : Delivery) (fresh : Fresh) (detail detail' : String)

/-- What the store says of its failure plays no part in any stage. -/
theorem proceed_other (s : Shared) :
    d.proceed fresh (some (.other detail)) s = d.proceed fresh (some (.other detail')) s := by
  unfold Delivery.proceed
  cases d.stage <;> rfl

/-- A store that fails is answered for, and nothing is announced. -/
theorem comesTo_other (store : Store) :
    ∃ answer, d.comesTo fresh (some (.other detail)) store = ((answer, none), store) := by
  unfold Delivery.comesTo
  cases accept d.command d.message.payload with
  | error e => exact ⟨failureReply e, rfl⟩
  | ok call => exact ⟨failureReply ⟨.internal, failedMessage call.command⟩, rfl⟩

/-- **Nothing depends on what the store says of its failure**: not the bus, not the store, not the
calls on the bus. -/
theorem Desk.handle_other (k : Desk) :
    k.handle d fresh (some (.other detail)) = k.handle d fresh (some (.other detail')) := by
  have hwork : ∀ (k : Desk) (d : Delivery),
      k.work d fresh (some (.other detail)) = k.work d fresh (some (.other detail')) := by
    intro k d
    rw [work, work, proceed_other d fresh detail detail']
  simp only [handle, hwork]

end Server

/-! ## Failures as they are told -/

/-- A failure that is neither a refusal of the request nor an absent user, and not one of the bus.
-/
def Client.Failure.isInternal : Failure → Bool
  | service _ _ | emptyResponse _ | undecodable => true
  | badRequest _ | notFound _ | timeout _ _ | transport _ => false

/-- The response to a failure that is not explained, with its number. -/
def Rest.unexplained (number : Nat) : Response :=
  .json 500 (Json.Tree.object (Json.member "error" (Json.Tree.object
    (Json.member "code" number ++ Json.member "message" "internal server error"))))

/-- The reply to a request whose failure is not explained. -/
def Session.unexplained (requestId : String) : Reply :=
  .failure requestId "internal_error" "internal server error"

/-- The frame that goes out for an operation whose request has ended, if one does. -/
def Session.frame? (requestId : String) (c : Call) (reply : Except Broker.Failure Octets) :
    Option Octets := (directReply? requestId c (c.read reply)).map (Json.encode ·)

theorem answer_of_isInternal (c : Call) {e : Client.Failure} (he : e.isInternal = true) :
    Rest.answer c (.error e) = Rest.unexplained 3000 := by
  cases e with
  | service | emptyResponse | undecodable => rfl
  | badRequest | notFound | timeout | transport => cases he

/-- What is neither a refusal nor an absent user is not explained on a socket. -/
theorem directReply?_unexplained (requestId : String) (c : Call) {e : Client.Failure}
    (hrefused : ∀ message, e ≠ .badRequest message) (habsent : ∀ message, e ≠ .notFound message) :
    Session.directReply? requestId c (.error e) = some (Session.unexplained requestId) := by
  cases e with
  | badRequest message => exact absurd rfl (hrefused message)
  | notFound message => exact absurd rfl (habsent message)
  | service | emptyResponse | undecodable | timeout | transport => rfl

theorem frame?_of_isInternal (requestId : String) {c : Call}
    {reply : Except Broker.Failure Octets} {e : Client.Failure} (hread : c.read reply = .error e)
    (he : e.isInternal = true) : Session.frame? requestId c reply =
      some (Json.encode (Session.unexplained requestId)) := by
  rw [Session.frame?, hread, directReply?_unexplained]
  · rfl
  · rintro message rfl
    cases he
  · rintro message rfl
    cases he

/-! ## Answers that do not explain themselves -/

/-- An answer from which its reader gets neither data nor a word for the caller. -/
inductive Client.Unexplained (α : Type) [OfTree α] (dataNeeded : Bool) (answer : Octets) : Prop
  | undecodable (hread : Json.decode (α := CommandResponse α) answer = none)
  /-- the code of its error, if there is one, is neither of the two that are explained -/
  | failed {r : CommandResponse α} (hread : Json.decode answer = some r) (hfailed : r.ok = false)
      (hcode : ∀ e ∈ r.error, e.code.text ≠ "BAD_REQUEST" ∧ e.code.text ≠ "NOT_FOUND")
  | lacking {r : CommandResponse α} (hread : Json.decode answer = some r) (hok : r.ok = true)
      (hdata : r.data = none) (hneeded : dataNeeded = true)

/-- An answer on the channel of an operation that does not explain itself; only the three operations
that end in one user need its data. -/
def Call.Unexplained (c : Call) (answer : Octets) : Prop :=
  match c with
  | .create _ | .get _ | .update _ _ => Client.Unexplained User true answer
  | .list => Client.Unexplained (List User) false answer
  | .delete _ => Client.Unexplained Deletion false answer

namespace Client

theorem isInternal_ofCommandError {e : CommandError}
    (hcode : e.code.text ≠ "BAD_REQUEST" ∧ e.code.text ≠ "NOT_FOUND") :
    (Failure.ofCommandError e).isInternal = true := by
  obtain ⟨code, message⟩ := e
  cases code with
  | badRequest => exact absurd rfl hcode.1
  | notFound => exact absurd rfl hcode.2
  | internal | other => rfl

/-- The reader sees an internal failure, or misses data that are needed. -/
theorem readOptional_of_unexplained {α : Type} [OfTree α] {dataNeeded : Bool} {answer : Octets}
    (h : Unexplained α dataNeeded answer) :
    (∃ e, readOptional α (.ok answer) = .error e ∧ e.isInternal = true) ∨
      (dataNeeded = true ∧ readOptional α (.ok answer) = .ok none) := by
  cases h with
  | undecodable hread =>
    refine .inl ⟨.undecodable, ?_, rfl⟩
    simp only [readOptional, hread]
  | @failed r hread hfailed hcode =>
    cases herror : r.error with
    | none =>
      refine .inl ⟨.unexplained, ?_, rfl⟩
      simp only [readOptional, hread, interpret, hfailed, herror]
      rfl
    | some e =>
      refine .inl ⟨.ofCommandError e, ?_, isInternal_ofCommandError (hcode e herror)⟩
      simp only [readOptional, hread, interpret, hfailed, herror]
      rfl
  | lacking hread hok hdata hneeded =>
    refine .inr ⟨hneeded, ?_⟩
    simp only [readOptional, hread, interpret, hok, hdata, if_true]

theorem read_of_unexplained {α : Type} [OfTree α] {answer : Octets}
    (h : Unexplained α true answer) (channel : String) :
    ∃ e, read α channel (.ok answer) = .error e ∧ e.isInternal = true := by
  rcases readOptional_of_unexplained h with ⟨e, hread, he⟩ | ⟨-, hread⟩
  · exact ⟨e, by simp only [read, hread], he⟩
  · -- data are needed, and none are there
    exact ⟨.emptyResponse channel, by simp only [read, hread], rfl⟩

end Client

/-- **An answer that does not explain itself is an internal failure of the operation.** -/
theorem Call.read_of_unexplained {c : Call} {answer : Octets} (h : c.Unexplained answer) :
    ∃ e, c.read (.ok answer) = .error e ∧ e.isInternal = true := by
  have huser (hc : c.read (.ok answer) = (Client.read User c.channel (.ok answer)).map .user)
      (h : Client.Unexplained User true answer) :
      ∃ e, c.read (.ok answer) = .error e ∧ e.isInternal = true := by
    obtain ⟨e, hread, he⟩ := Client.read_of_unexplained h c.channel
    exact ⟨e, by rw [hc, hread]; rfl, he⟩
  cases c with
  | create | get | update => exact huser rfl h
  | list | delete =>
    rcases Client.readOptional_of_unexplained h with ⟨e, hread, he⟩ | ⟨hneeded, -⟩
    · refine ⟨e, ?_, he⟩
      simp only [read, hread]
      rfl
    · cases hneeded

/-! ## Failures of the bus -/

/-- The number of a failure of the bus. -/
def Broker.Failure.number : Failure → Nat
  | timeout _ _ => 3001
  | closed | noResponders _ | noReply _ | replyDropped | noReplyExpected => 3002

theorem Call.read_error (c : Call) (e : Broker.Failure) :
    c.read (.error e) = .error (.ofBroker e) := by
  cases c <;> rfl

theorem answer_of_broker (c : Call) (e : Broker.Failure) :
    Rest.answer c (c.read (.error e)) = Rest.unexplained e.number := by
  rw [c.read_error]
  cases e <;> rfl

theorem frame?_of_broker (requestId : String) (c : Call) (e : Broker.Failure) :
    Session.frame? requestId c (.error e) =
      some (Json.encode (Session.unexplained requestId)) := by
  rw [Session.frame?, c.read_error, directReply?_unexplained]
  · rfl
  · intro message
    cases e <;> exact nofun
  · intro message
    cases e <;> exact nofun

/-! ## Nothing is told -/

/-- Two runs that differ in a detail only are told alike. -/
structure ToldAlike (k : Server.Desk) (d : Server.Delivery) (fresh : Server.Fresh)
    (detail detail' : String) (c : Call) (answer answer' : Octets) (requestId : String) : Prop where
  /-- two failures of the store: all is the same, an answer is given and no event published -/
  store : k.handle d fresh (some (.other detail)) = k.handle d fresh (some (.other detail'))
  answered : ∃ answer, k.Called d.message (d.responds answer ++ [.released])
    (k.handle d fresh (some (.other detail)))
  /-- two answers that do not explain themselves -/
  response : Rest.answer c (c.read (.ok answer)) = Rest.answer c (c.read (.ok answer'))
  frame : Session.frame? requestId c (.ok answer) = Session.frame? requestId c (.ok answer')
  /-- such an answer and a failure of the bus: only the number tells them apart -/
  number : Rest.answer c (c.read (.ok answer)) = Rest.unexplained 3000 ∧
    ∀ e : Broker.Failure, Rest.answer c (c.read (.error e)) = Rest.unexplained e.number
  broker : ∀ e : Broker.Failure,
    Session.frame? requestId c (.error e) = Session.frame? requestId c (.ok answer)

/-- **Internal failures are told alike**, whatever the store said, the server answered, or the bus
failed of. -/
theorem internal_failures_told_alike {k : Server.Desk} {d : Server.Delivery}
    (harrived : d.stage = .arrived) (fresh : Server.Fresh) (detail detail' : String) {c : Call}
    {answer answer' : Octets} (h : c.Unexplained answer) (h' : c.Unexplained answer')
    (requestId : String) :
    ToldAlike k d fresh detail detail' c answer answer' requestId := by
  obtain ⟨e, hread, he⟩ := Call.read_of_unexplained h
  obtain ⟨e', hread', he'⟩ := Call.read_of_unexplained h'
  have hresponse : Rest.answer c (c.read (.ok answer)) = Rest.unexplained 3000 := by
    rw [hread, answer_of_isInternal c he]
  have hframe := frame?_of_isInternal requestId hread he
  obtain ⟨told, hcomes⟩ := Server.comesTo_other d fresh detail k.shared.store
  have hhandled := Server.Desk.handled fresh (some (.other detail)) harrived hcomes nofun
  refine ⟨Server.Desk.handle_other d fresh detail detail' k, ⟨told, hhandled.called⟩, ?_, ?_,
    ⟨hresponse, ?_⟩, ?_⟩
  · rw [hresponse, hread', answer_of_isInternal c he']
  · rw [hframe, frame?_of_isInternal requestId hread' he']
  · exact answer_of_broker c
  · intro cause
    rw [hframe, frame?_of_broker]

/-- The store is out of space or locked; the server answers what is no document, or with a code of
its own. -/
theorem internal_failures_told_alike_create :
    let k : Server.Desk := { shared := { broker := .init 1, store := .empty } }
    let c : Call := .create Server.ada
    let d : Server.Delivery :=
      ⟨.create, ⟨c.channel, c.request (.ofSerial 1), some 0⟩, .arrived⟩
    let answer := Octets.ofText "?"
    let answer' := Server.failureReply ⟨.other "DISK_FULL", "no space left on /dev/sda1"⟩
    c.Unexplained answer ∧ c.Unexplained answer' ∧
      ToldAlike k d (.nth 0) "no space left" "locked by 7" c answer answer' "r" := by
  intro k c d answer answer'
  have hunreadable : c.Unexplained answer := .undecodable (by decide +kernel)
  have hproper : (ErrorCode.other "DISK_FULL").Proper := rfl
  have hunknown : c.Unexplained answer' := by
    refine .failed (Server.decode_failureReply hproper) rfl ?_
    rintro e ⟨⟩
    exact ⟨by decide, by decide⟩
  exact ⟨hunreadable, hunknown, internal_failures_told_alike rfl (.nth 0) "no space left"
    "locked by 7" hunreadable hunknown "r"⟩

end UserDirectory
