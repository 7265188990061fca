import UserDirectory.Proofs.Broker.Outcome
import UserDirectory.Proofs.Client

/-!
# The first answer, and what its caller makes of it

However many handlers answer a command, and whatever they answer, its caller reads the first answer
that comes before the time is over (`firstReply?`), and nothing else. It is data, or the absence of
data, or it cannot be read, or it is a failure; and the caller finds the code and the text of the
failure just as they stand in the document (`errorTexts?`, `Failure.Tells`). `call?_eq_read` says
the former, `means_read` the latter, and `answer_decides` puts the two together.

The codes that have a meaning of their own lose their text when they are read. That nothing is lost
with it is because each of them has one text, which no other code has.
-/

namespace UserDirectory

open Json (OfTree ToTree Fields Tree)
open Time (Duration)

/-! ## The first answer -/

namespace Broker

/-- The time of a request is over, or nobody waits for its end any more. -/
def Event.stops (x : ExchangeId) : Event → Bool
  | .expire y | .abandon y => y == x
  | _ => false

/-- How a request ended for its caller, who sees nothing of it once he is gone. -/
def Standing.end? : Standing → Option (Except Failure Octets)
  | answered payload => some (.ok payload)
  | failed why => some (.error why)
  | waiting | abandoned => none

namespace Scene

/-- The first answer to a copy of a request, if it comes before the request is stopped. -/
def firstReply? (x : ExchangeId) : Scene → List Event → Option Octets
  | _, [] => none
  | s, ev :: es =>
    if ev.stops x then none
    else ((s.reply? x ev).map Prod.fst).or (firstReply? x (s.step ev) es)

section FirstReply

variable {s : Scene} {x : ExchangeId} {e : Exchange} {channel : String} {timeout : Duration}

/-- Who answers holds a copy. -/
theorem exists_holds_of_firstReply? {es : List Event} {answer : Octets}
    (h : firstReply? x s es = some answer) :
    ∃ es' m, (s.run es').Holds m ∧ m.leadsTo x = true := by
  induction es generalizing s with
  | nil => cases h
  | cons ev es ih =>
    rw [firstReply?] at h
    split at h
    · cases h
    · cases hreply : s.reply? x ev with
      | none =>
        rw [hreply] at h
        obtain ⟨es', m, hm, hx⟩ := ih h
        exact ⟨ev :: es', m, hm, hx⟩
      | some r =>
        cases ev with
        | respond i payload =>
          obtain ⟨m, hm, -⟩ := Option.map_eq_some_iff.mp hreply
          obtain ⟨hm, hx⟩ := Option.filter_eq_some_iff.mp hm
          exact ⟨[], m, .inr (List.mem_of_getElem? hm), hx⟩
        | move | copy | discard | expire | abandon => cases hreply

/-- Once no copy is left there is no answer. -/
theorem firstReply?_eq_none (h : s.Counted) (he : s.broker.exchanges[x]? = some e)
    (hcopies : s.copies x = 0) (es : List Event) : firstReply? x s es = none := by
  cases hreply : firstReply? x s es with
  | none => rfl
  | some answer =>
    obtain ⟨es', m, hm, hx⟩ := exists_holds_of_firstReply? hreply
    exact absurd (hm.of_run h he hx) (not_holds_of_copies hcopies hx)

/-- **A request is answered with the first answer**, if there is one in time. -/
theorem answer?_verdict (h : s.Counted) (he : s.broker.exchanges[x]? = some e) (es : List Event) :
    (verdict x channel timeout s es).answer? = firstReply? x s es := by
  induction es generalizing s e with
  | nil => rfl
  | cons ev es ih =>
    obtain ⟨e', he', -⟩ := becomes_step h he ev
    have hrest := ih (h.step ev) he'
    have hnone := fun hcopies => firstReply?_eq_none (h.step ev) he' hcopies es
    cases ev with
    | respond i payload =>
      simp only [verdict, firstReply?, ends, Event.stops, reply?, Bool.false_eq_true, if_false]
      cases hm : s.hands[i]? with
      | none => simpa using hrest
      | some m =>
        cases hx : m.leadsTo x with
        | false => simpa [Option.filter, hx] using hrest
        | true => simp [Option.filter, hx, Standing.answer?]
    | expire y | abandon y =>
      simp only [verdict, firstReply?, ends, Event.stops, reply?]
      by_cases hy : y = x
      · simp [hy, Standing.answer?]
      · simpa [hy] using hrest
    | move | copy | discard =>
      simp only [verdict, firstReply?, ends, Event.stops, reply?, Bool.false_eq_true, if_false,
        Option.map_none, Option.none_or]
      split
      · -- without copies the request ends unanswered, and nobody can answer it
        rename_i hcopies
        rw [hnone hcopies]
        rfl
      · exact hrest

theorem answered_of_answer? {st : Standing} {answer : Octets} (h : st.answer? = some answer) :
    st = .answered answer := by
  cases st with
  | answered payload => exact congrArg Standing.answered (Option.some.inj h)
  | waiting | failed | abandoned => cases h

theorem standing?_of_firstReply? (h : s.Counted) {payload answer : Octets}
    {meanwhile later : List Event} (hok : (s.request channel payload timeout meanwhile).1 = .ok x)
    (hfirst : (s.request channel payload timeout meanwhile).2.firstReply? x later = some answer) :
    ((s.request channel payload timeout meanwhile).2.run later).broker.standing? x =
      some (.answered answer) := by
  unfold request at hok hfirst ⊢
  cases hcheck : s.broker.check with
  | error why =>
    rw [hcheck] at hok
    cases hok
  | ok _ =>
    rw [hcheck] at hok hfirst
    obtain ⟨-, e, he, rfl, rfl, hwaiting⟩ := begun_of_ok hok
    have hbegun := (h.run meanwhile).step (.move (.deliverRequest e.channel payload e.timeout))
    rw [standing?_run hbegun he, if_pos hwaiting]
    exact congrArg some (answered_of_answer? ((answer?_verdict hbegun he later).trans hfirst))

end FirstReply

end Scene

end Broker

/-! ## The texts of a failure -/

/-- The text that a tree spells. -/
def Json.Tree.spelled? : Tree → Option String
  | .string raw => Quoted.text? raw
  | _ => none

/-- The code and the text in the tree of an error. -/
def errorTexts?.ofTree? (t : Tree) : Option (String × String) := do
  let fields ← Fields.ofTree? ["code", "message"] t
  return (← (← fields.lookup "code").spelled?, ← (← fields.lookup "message").spelled?)

/-- The code and the text in the error of a response, as they stand in the document. -/
def errorTexts? (answer : Octets) : Option (String × String) := do
  let t ← Tree.read? answer
  let fields ← Fields.ofTree? ["ok", "data", "error"] t
  errorTexts?.ofTree? (← fields.lookup "error")

theorem ofTree?_string (room : Nat) (t : Tree) :
    (Json.ofTree? room t : Option String) = t.spelled? := by
  cases t <;> rfl

/-- The texts of an error that was read are those in its tree. -/
theorem texts_of_commandError {room : Nat} {t : Tree} {e : CommandError}
    (h : Json.ofTree? room t = some e) :
    ∃ code, errorTexts?.ofTree? t = some (code, e.message) ∧ e.code = .ofText code := by
  obtain ⟨fields, hfields, h⟩ := Option.bind_eq_some_iff.mp h
  obtain ⟨c, hcode, h⟩ := Option.bind_eq_some_iff.mp h
  obtain ⟨message, hmessage, h⟩ := Option.bind_eq_some_iff.mp h
  obtain rfl := Option.some.inj h
  obtain ⟨codeTree, hcodeTree, hc⟩ := Option.bind_eq_some_iff.mp hcode
  obtain ⟨messageTree, hmessageTree, hspelled⟩ := Option.bind_eq_some_iff.mp hmessage
  obtain ⟨code, hcodeSpelled, rfl⟩ := Option.map_eq_some_iff.mp hc
  rw [ofTree?_string] at hcodeSpelled hspelled
  refine ⟨code, ?_, rfl⟩
  simp [errorTexts?.ofTree?, hfields, hcodeTree, hmessageTree, hcodeSpelled, hspelled]

/-- The error of a response that was read is read from the field of that name. -/
theorem error_of_commandResponse {α : Type} [OfTree α] {room : Nat} {t : Tree}
    {r : CommandResponse α} (h : Json.ofTree? room t = some r) :
    ∃ fields, Fields.ofTree? ["ok", "data", "error"] t = some fields ∧
      fields.optional (room - 1) "error" = some r.error := by
  obtain ⟨fields, hfields, h⟩ := Option.bind_eq_some_iff.mp h
  refine ⟨fields, hfields, ?_⟩
  have hpicked : ((fields.required room "ok").bind fun ok =>
      (fields.optional (room - 1) "data").bind fun data =>
      (fields.optional (room - 1) "error").bind fun error =>
      some (⟨ok, data, error⟩ : CommandResponse α)) = some r := by
    dsimp only at h
    split at h
    · split at h
      · cases h
      · exact h
    · exact h
  obtain ⟨ok, -, h⟩ := Option.bind_eq_some_iff.mp hpicked
  obtain ⟨data, -, h⟩ := Option.bind_eq_some_iff.mp h
  obtain ⟨error, herror, h⟩ := Option.bind_eq_some_iff.mp h
  obtain rfl := Option.some.inj h
  exact herror

/-- **The error that was read of a response has the texts in the document.** -/
theorem error_of_decode {α : Type} [OfTree α] {answer : Octets} {r : CommandResponse α}
    (h : Json.decode answer = some r) :
    match r.error with
    | none => errorTexts? answer = none
    | some e => ∃ code, errorTexts? answer = some (code, e.message) ∧ e.code = .ofText code := by
  obtain ⟨t, ht, h⟩ := Option.bind_eq_some_iff.mp h
  obtain ⟨fields, hfields, herror⟩ := error_of_commandResponse h
  have htexts : errorTexts? answer = (fields.lookup "error").bind errorTexts?.ofTree? := by
    simp [errorTexts?, ht, hfields]
  rw [htexts]
  unfold Fields.optional Fields.withDefault at herror
  cases hlookup : fields.lookup "error" with
  | none =>
    rw [hlookup] at herror
    obtain heq := Option.some.inj herror
    rw [← heq]
    rfl
  | some et =>
    rw [hlookup] at herror
    cases et with
    | null =>
      obtain heq := Option.some.inj herror
      rw [← heq]
      rfl
    | bool | number | string | array | object =>
      obtain ⟨e, he, heq⟩ := Option.map_eq_some_iff.mp herror
      rw [← heq]
      exact texts_of_commandError he

namespace Client

/-- A failure tells a code and a text. -/
inductive Failure.Tells : Failure → String → String → Prop
  | badRequest (message : String) : Tells (.badRequest message) "BAD_REQUEST" message
  | notFound (message : String) : Tells (.notFound message) "NOT_FOUND" message
  | service (code : ErrorCode) (message : String) (hbad : code.text ≠ "BAD_REQUEST")
      (hnone : code.text ≠ "NOT_FOUND") : Tells (.service code message) code.text message

/-- A failure tells one code and one text. -/
theorem Failure.Tells.iff {f : Failure} {code message : String} (h : f.Tells code message)
    (code' message' : String) : f.Tells code' message' ↔ code' = code ∧ message' = message := by
  refine ⟨fun h' => ?_, fun ⟨hcode, hmessage⟩ => hcode ▸ hmessage ▸ h⟩
  cases h <;> cases h' <;> exact ⟨rfl, rfl⟩

/-- **Of a reported failure nothing is lost**, whatever its code is. -/
theorem tells_ofCommandError (code message : String) :
    (Failure.ofCommandError ⟨.ofText code, message⟩).Tells code message := by
  unfold ErrorCode.ofText
  split
  · rename_i hbad
    exact hbad ▸ .badRequest message
  · split
    · rename_i hnone
      exact hnone ▸ .notFound message
    · split
      · rename_i hinternal
        subst hinternal
        exact .service .internal message (by decide) (by decide)
      · exact .service (.other code) message ‹_› ‹_›

theorem tells_unexplained : Failure.unexplained.Tells "INTERNAL" "request failed" :=
  .service .internal _ (by decide) (by decide)

/-! ## What the caller makes of an answer -/

/-- What a command comes to by its answer, for a caller who needs data. -/
structure Means (α : Type) [OfTree α] (channel : String) (answer : Octets)
    (result : Except Failure α) : Prop where
  data : ∀ a, result = .ok a ↔
    ∃ r : CommandResponse α, Json.decode answer = some r ∧ r.ok = true ∧ r.data = some a
  empty : result = .error (.emptyResponse channel) ↔
    ∃ r : CommandResponse α, Json.decode answer = some r ∧ r.ok = true ∧ r.data = none
  /-- who can do without data is told just then that there is none -/
  emptyOptional : result = .error (.emptyResponse channel) ↔
    readOptional α (.ok answer) = .ok none
  undecodable : result = .error .undecodable ↔
    Json.decode (α := CommandResponse α) answer = none
  /-- the failure tells the code and the text in the document; only if there is no error in it, it
  tells others -/
  failed : ∀ r : CommandResponse α, Json.decode answer = some r → r.ok = false →
    ∃ f, result = .error f ∧ ∀ code message, f.Tells code message ↔
      (code, message) = (errorTexts? answer).getD ("INTERNAL", "request failed")

variable {α : Type} [OfTree α] {answer : Octets} {r : CommandResponse α}

theorem read_of_decode (channel : String) (h : Json.decode answer = some r) :
    read α channel (.ok answer) =
      match interpret r with
      | .error e => .error e
      | .ok (some a) => .ok a
      | .ok none => .error (.emptyResponse channel) := by
  have hread : readOptional α (.ok answer) = interpret r := by simp only [readOptional, h]
  cases hinterpret : interpret r with
  | error e => simp only [read, hread, hinterpret]
  | ok data => cases data <;> simp only [read, hread, hinterpret]

/-- The failure that a response reports. -/
theorem exists_failure_of_decode (h : Json.decode answer = some r) (hok : r.ok = false) :
    ∃ f, interpret r = .error f ∧ ∀ code message, f.Tells code message ↔
      (code, message) = (errorTexts? answer).getD ("INTERNAL", "request failed") := by
  have herror := error_of_decode h
  rw [interpret, hok, if_neg Bool.false_ne_true]
  cases he : r.error with
  | none =>
    rw [he] at herror
    refine ⟨_, rfl, fun code message => ?_⟩
    rw [tells_unexplained.iff, herror, Option.getD_none, Prod.mk.injEq]
  | some e =>
    rw [he] at herror
    obtain ⟨code, htexts, hcode⟩ := herror
    obtain ⟨_, message⟩ := e
    subst hcode
    refine ⟨_, rfl, fun code' message' => ?_⟩
    rw [(tells_ofCommandError code message).iff, htexts, Option.getD_some, Prod.mk.injEq]

/-- **What an answer means to its caller.** -/
theorem means_read (α : Type) [OfTree α] (channel : String) (answer : Octets) :
    Means α channel answer (read α channel (.ok answer)) := by
  cases h : Json.decode (α := CommandResponse α) answer with
  | none =>
    have hread : read α channel (.ok answer) = .error .undecodable := by
      rw [read, readOptional, h]
    have hoptional : readOptional α (.ok answer) = .error .undecodable := by
      rw [readOptional, h]
    constructor <;> simp [h, hread, hoptional]
  | some r =>
    have hread := read_of_decode channel h
    have hoptional : readOptional α (.ok answer) = interpret r := by
      rw [readOptional, h]
    cases hok : r.ok with
    | true =>
      rw [interpret, hok, if_pos rfl] at hread hoptional
      cases hdata : r.data <;> rw [hdata] at hread hoptional <;>
        constructor <;> simp [h, hread, hoptional, hok, hdata]
    | false =>
      obtain ⟨f, hf, htells⟩ := exists_failure_of_decode h hok
      rw [hf] at hread hoptional
      -- a failure that tells a code and a text is not one of those that tell none
      have htold := (htells _ _).mpr rfl
      have hempty : f ≠ .emptyResponse channel := fun heq => by
        rw [heq] at htold
        cases htold
      have hundecodable : f ≠ .undecodable := fun heq => by
        rw [heq] at htold
        cases htold
      constructor
      case failed =>
        intro r' hr' _
        exact ⟨f, hread, htells⟩
      all_goals simp [h, hread, hoptional, hok, hempty, hundecodable]

/-- **What the server reports arrives as it was reported**, whatever the code is. -/
theorem read_failureReply (α : Type) [OfTree α] (channel code message : String) :
    ∃ f, read α channel (.ok (Server.failureReply ⟨.ofText code, message⟩)) = .error f ∧
      f.Tells code message := by
  have hproper : (ErrorCode.ofText code).Proper := by
    rw [ErrorCode.Proper, ErrorCode.text_ofText]
  refine ⟨_, ?_, tells_ofCommandError code message⟩
  rw [read_of_decode channel (Server.decode_failureReply hproper)]
  rfl

/-! ## A command over the bus -/

/-- What a command comes to for its caller, once its request has ended: the request is refused, or
it ends while other things happen. -/
def call? (α : Type) [OfTree α] (channel : String)
    (begun : Except Broker.Failure Broker.ExchangeId × Broker.Scene)
    (later : List Broker.Event) : Option (Except Failure α) :=
  match begun.1 with
  | .error why => some (read α channel (.error why))
  | .ok x =>
    (((begun.2.run later).broker.standing? x).bind (·.end?)).map (read α channel)

/-- **The first answer decides, and its failure is told as it was written.** However many handlers
answer a command and whatever they answer, what the caller is told is what the first answer means,
if it comes before the time is over: the data of a success, that there are none, that the answer
cannot be read, or a failure with the code and the text in the document. Whatever code and text the
server reports, the caller is told these. -/
theorem answer_decides {α β : Type} [ToTree α] [OfTree β] (client : Client) (given : Duration)
    (requestId : Uuid) (data : α) (channel : String) (capacity : Nat)
    (before meanwhile later : List Broker.Event) :
    let begun := ((Broker.Scene.opening capacity).run before).request channel
      (request requestId data) (client.timeoutFor given) meanwhile
    (∀ x answer, begun.1 = .ok x → begun.2.firstReply? x later = some answer →
      call? β channel begun later = some (read β channel (.ok answer)) ∧
        Means β channel answer (read β channel (.ok answer))) ∧
    ∀ code message, ∃ f,
      read β channel (.ok (Server.failureReply ⟨.ofText code, message⟩)) = .error f ∧
        ∀ code' message', f.Tells code' message' ↔ code' = code ∧ message' = message := by
  intro begun
  refine ⟨fun x answer hok hfirst => ⟨?_, means_read β channel answer⟩, fun code message => ?_⟩
  · have hends : (begun.2.run later).broker.standing? x = some (.answered answer) :=
      Broker.Scene.standing?_of_firstReply? ((Broker.Scene.counted_opening capacity).run before)
        hok hfirst
    simp only [call?, hok, hends]
    rfl
  · obtain ⟨f, hread, htells⟩ := read_failureReply β channel code message
    exact ⟨f, hread, htells.iff⟩

/-- A command for which three handlers are there. -/
def askedOfThree : Except Broker.Failure Broker.ExchangeId × Broker.Scene :=
  ((Broker.Scene.opening 1).run
    [.move (.enroll "user.command.get"), .move (.enroll "user.command.get"),
      .move (.enroll "user.command.get")]).request "user.command.get"
    (request (.ofSerial 0) (⟨"7"⟩ : IdRequest))
    ((Client.init (.ofMillis 50)).timeoutFor (.ofMillis 0)) []

/-- A failure with a code of its own. -/
def teapot : Octets := Server.failureReply ⟨.ofText "TEAPOT", "short and stout"⟩

/-- One handler drops the command, one answers with that failure, and then one cannot be read. -/
def answersOfThree : List Broker.Event :=
  [.move (.next 0), .move (.next 1), .move (.drop 2), .respond 1 teapot,
    .respond 0 (Octets.ofText "?"), .expire 0]

theorem answer_decides_teapot :
    askedOfThree.1 = .ok 0 ∧ askedOfThree.2.firstReply? 0 answersOfThree = some teapot ∧
    call? User "user.command.get" askedOfThree answersOfThree =
      some (.error (.service (.other "TEAPOT") "short and stout")) ∧
    Means User "user.command.get" teapot
      (.error (.service (.other "TEAPOT") "short and stout")) := by
  have hread : read User "user.command.get" (.ok teapot) =
      .error (.service (.other "TEAPOT") "short and stout") := by decide +kernel
  have hbegun : askedOfThree.1 = .ok 0 := rfl
  have hfirst : askedOfThree.2.firstReply? 0 answersOfThree = some teapot := by rfl
  obtain ⟨hcall, hmeans⟩ := (@answer_decides IdRequest User _ _ (.init (.ofMillis 50)) (.ofMillis 0)
    (.ofSerial 0) ⟨"7"⟩ "user.command.get" 1 _ [] answersOfThree).1 0 teapot hbegun hfirst
  rw [hread] at hcall hmeans
  exact ⟨hbegun, hfirst, hcall, hmeans⟩

end Client

end UserDirectory
