import UserDirectory.Proofs.Json.Kept
import UserDirectory.Rest.Basic
import UserDirectory.Session.Basic

/-!
# One outcome, two answers

The outcome of an operation is answered over the web by a response and on a socket by a reply. The
two are compared by what their readers get out of them: the value in a body that succeeded, or the
number and the text of a failure. Whatever the outcome is, the two tell the same
(`corresponds_answer`), and so do the refusals before any command is sent
(`corresponds_refusal`).

A body is compared as a value of unknown shape. For that every answer must be one that can be kept:
objects and lists of texts and small numbers are.
-/

namespace UserDirectory

open Json (Tree Value Record toTree faithful)

/-! ## Answers that can be kept -/

/-- A record of trees that can be kept takes one level. -/
theorem Json.Record.isSome_ofTree? {r : Record} (h : ∀ e ∈ r, ∀ t ∈ e.2, t.Keepable) (room : Nat) :
    (Value.ofTree? (room + 1) (.object r.members)).isSome = true := by
  refine Value.isSome_ofTree?_object fun m hm => ?_
  obtain ⟨e, he, hm⟩ := List.mem_filterMap.mp hm
  obtain ⟨t, ht, rfl⟩ := Option.map_eq_some_iff.mp hm
  exact ⟨Option.isSome_of_eq_some (Quoted.text?_escape e.1), h e he t ht room⟩

theorem User.keepable_record (u : User) : ∀ e ∈ u.record, ∀ t ∈ e.2, t.Keepable := by
  intro e he t ht
  simp only [record, List.mem_cons, List.not_mem_nil, or_false] at he
  rcases he with rfl | rfl | rfl | rfl | rfl | rfl | rfl | rfl | rfl
  · exact Option.some.inj ht ▸ keepable_string u.id.text
  · exact Option.some.inj ht ▸ keepable_string u.firstName
  · exact Option.some.inj ht ▸ keepable_string u.lastName
  · exact Option.some.inj ht ▸ keepable_string u.email
  · exact keepable_map keepable_string ht
  · exact keepable_map keepable_age ht
  · exact Option.some.inj ht ▸ keepable_string u.status.word
  · exact Option.some.inj ht ▸ keepable_string (Time.exact u.createdAt)
  · exact Option.some.inj ht ▸ keepable_string (Time.exact u.updatedAt)

theorem User.isSome_ofTree? (u : User) (room : Nat) :
    (Value.ofTree? (room + 1) (toTree u)).isSome = true :=
  u.toTree_eq ▸ Record.isSome_ofTree? u.keepable_record room

theorem Deletion.isSome_ofTree? (d : Deletion) (room : Nat) :
    (Value.ofTree? (room + 1) (toTree d)).isSome = true := by
  have h : ∀ e ∈ ([("message", some (toTree d.message))] : Record), ∀ t ∈ e.2, t.Keepable := by
    intro e he t ht
    obtain rfl := List.mem_singleton.mp he
    exact Option.some.inj ht ▸ keepable_string d.message
  exact Record.isSome_ofTree? h room

namespace CallAnswer

/-- Every answer is a value. -/
theorem value?_toTree (a : CallAnswer) : (toTree a).value? = some a.value := by
  have hkept : (toTree a).value?.isSome = true := by
    cases a with
    | user u => exact u.isSome_ofTree? 126
    | users us =>
      refine Value.isSome_ofTree?_array fun t ht => ?_
      obtain ⟨u, -, rfl⟩ := List.mem_map.mp ht
      exact u.isSome_ofTree? 125
    | deletion d => exact d.isSome_ofTree? 126
  obtain ⟨v, hv⟩ := Option.isSome_iff_exists.mp hkept
  rw [value, hv, Option.getD_some]

theorem toTree_wellFormed (a : CallAnswer) : (toTree a).WellFormed := by
  cases a with
  | user u => exact (faithful u).wellFormed
  | users us => exact (faithful us).wellFormed
  | deletion d => exact (faithful d).wellFormed

/-- The document of an answer is read as its value. -/
theorem decode_encode (a : CallAnswer) : Json.decode (Json.encode a) = some a.value := by
  rw [Json.decode, Json.encode, Tree.read?_text a.toTree_wellFormed, Option.bind_some]
  exact a.value?_toTree

end CallAnswer

/-! ## Failures -/

namespace Rest

/-- The value of the document that tells of a failure. -/
def failureValue (code : Nat) (message : String) : Value :=
  .object [("error", .object [("code", .number (.natural code)), ("message", .string message)])]

theorem Failure.code_lt (f : Failure) : f.code < 4000 := by
  cases f <;> simp [code]

theorem Failure.number?_code (f : Failure) :
    (Json.Numeral.ofInt f.code).number? = some (.natural f.code) := by
  have hcode := f.code_lt
  have hsmall : f.code < Nat.pow 2 64 := by
    show f.code < 18446744073709551616
    omega
  rw [Json.Numeral.number?, Json.Numeral.int?_ofInt]
  exact if_pos hsmall

theorem Failure.document_wellFormed (f : Failure) : f.document.WellFormed :=
  ⟨Json.Quoted.closed_escape _,
    ⟨Json.Quoted.closed_escape _, Json.Numeral.wellFormed_ofInt _, Json.Quoted.closed_escape _,
      Json.Quoted.closed_escape _, trivial⟩, trivial⟩

/-- The text of a failure is sorted behind its number. -/
theorem insert_message (code message : Value) :
    Value.insert "message" message [("code", code)] = [("code", code), ("message", message)] := by
  have horder : ¬ "message" < "code" := by decide
  rw [Value.insert, if_neg horder, if_neg (by decide), Value.insert]

/-- The document of a failure is read as its number and its text. -/
theorem Failure.decode_encode (f : Failure) :
    Json.decode (Json.encode f) = some (failureValue f.code f.message) := by
  rw [Json.decode, Json.encode, show toTree f = f.document from rfl,
    Tree.read?_text f.document_wellFormed, Option.bind_some]
  show Value.ofTree? Json.maxDepth f.document = _
  have hfirst : ∀ key v, Value.insert key v [] = [(key, v)] := fun _ _ => rfl
  simp [document, Json.member, toTree, Value.ofTree?, Json.maxDepth, f.number?_code, failureValue,
    hfirst, insert_message]

theorem failureValue_inj {code code' : Nat} {message message' : String} :
    failureValue code message = failureValue code' message' ↔
      code = code' ∧ message = message' := by
  simp [failureValue]

/-- A response that succeeded and whose body is a given value. -/
def Response.Gives (r : Response) (v : Value) : Prop :=
  (r.status = 200 ∨ r.status = 201) ∧ Json.decode r.body = some v

/-- A response with a given status and the number and the text of a failure. -/
def Response.Fails (r : Response) (status code : Nat) (message : String) : Prop :=
  r.status = status ∧ Json.decode r.body = some (failureValue code message)

theorem failed_fails_iff (f : Failure) {status code : Nat} {message : String} :
    (failed f).Fails status code message ↔
      f.status = status ∧ f.code = code ∧ f.message = message := by
  have hbody : Json.decode (failed f).body = some (failureValue f.code f.message) :=
    f.decode_encode
  rw [Response.Fails, hbody, Option.some.injEq, failureValue_inj]
  rfl

theorem Failure.status_ne (f : Failure) : f.status ≠ 200 ∧ f.status ≠ 201 := by
  cases f <;> simp [status]

theorem not_gives_failed (f : Failure) (v : Value) : ¬ (failed f).Gives v := by
  rintro ⟨hstatus | hstatus, -⟩
  · exact f.status_ne.1 hstatus
  · exact f.status_ne.2 hstatus

theorem answer_ok_status (c : Call) (a : CallAnswer) :
    (answer c (.ok a)).status = 200 ∨ (answer c (.ok a)).status = 201 := by
  have hstatus : (answer c (.ok a)).status = if c.command = .create then 201 else 200 := rfl
  rw [hstatus]
  split
  · exact .inr rfl
  · exact .inl rfl

theorem answer_ok_gives_iff (c : Call) (a : CallAnswer) (v : Value) :
    (answer c (.ok a)).Gives v ↔ a.value = v := by
  have hbody : Json.decode (answer c (.ok a)).body = some a.value := a.decode_encode
  rw [Response.Gives, hbody, Option.some.injEq, and_iff_right (answer_ok_status c a)]

theorem not_fails_answer_ok (c : Call) (a : CallAnswer) {status code : Nat} (message : String)
    (hstatus : 400 ≤ status) : ¬ (answer c (.ok a)).Fails status code message := by
  rintro ⟨h, -⟩
  have := answer_ok_status c a
  omega

end Rest

/-- A reply that succeeded with a given value. -/
def Session.Reply.Gives (r : Reply) (v : Value) : Prop := r.ok = true ∧ r.data = some v

/-- A reply with the code and the text of a failure. -/
def Session.Reply.Fails (r : Reply) (code message : String) : Prop :=
  r.ok = false ∧ r.data = none ∧ r.error = some ⟨code, message⟩

/-! ## The two tell the same -/

/-- A response and a reply that tell the same: the same value, the same refusal, the same absence,
or a failure that neither explains. -/
structure Corresponds (response : Rest.Response) (reply : Session.Reply) : Prop where
  value : ∀ v, response.Gives v ↔ reply.Gives v
  refused : ∀ message, response.Fails 400 1001 message ↔ reply.Fails "bad_request" message
  absent : ∀ message, response.Fails 404 2001 message ↔ reply.Fails "not_found" message
  failed : response.status = 500 ↔ ∃ message, reply.Fails "internal_error" message
  /-- a failure that is not the caller's doing has one text on both sides -/
  unexplained : response.status = 500 →
    (∃ code, response.Fails 500 code "internal server error") ∧
      reply.Fails "internal_error" "internal server error"
  /-- every answer is one of these -/
  complete : (∃ v, response.Gives v) ∨ (∃ message, response.Fails 400 1001 message) ∨
    (∃ message, response.Fails 404 2001 message) ∨ response.status = 500

/-- What a failure over the web and a failure on a socket have in common. -/
def SameFailure (f : Rest.Failure) (code message : String) : Prop :=
  f.message = message ∧
    ((f.status = 400 ∧ f.code = 1001 ∧ code = "bad_request") ∨
     (f.status = 404 ∧ f.code = 2001 ∧ code = "not_found") ∨
     (f.status = 500 ∧ code = "internal_error" ∧ message = "internal server error"))

theorem SameFailure.corresponds {f : Rest.Failure} {code message : String}
    (h : SameFailure f code message) (requestId : String) :
    Corresponds (Rest.failed f) (.failure requestId code message) := by
  have hreply : ∀ code' message',
      (Session.Reply.failure requestId code message).Fails code' message' ↔
        code = code' ∧ message = message' := by
    simp [Session.Reply.Fails, Session.Reply.failure]
  have hgives : ∀ v, ¬ (Session.Reply.failure requestId code message).Gives v := by
    simp [Session.Reply.Gives, Session.Reply.failure]
  have hstatus : (Rest.failed f).status = f.status := rfl
  obtain ⟨rfl, hkind⟩ := h
  refine ⟨fun v => iff_of_false (Rest.not_gives_failed f v) (hgives v), ?_, ?_, ?_, ?_, ?_⟩
  all_goals
    simp only [Rest.failed_fails_iff, hreply, hstatus]
    rcases hkind with ⟨hs, hc, rfl⟩ | ⟨hs, hc, rfl⟩ | ⟨hs, rfl, hm⟩
  all_goals simp_all

theorem sameFailure_ofClient (e : Client.Failure) :
    ∃ code message, SameFailure (.ofClient e) code message ∧
      ∀ requestId, Session.Reply.ofFailure requestId e = .failure requestId code message := by
  cases e with
  | badRequest message =>
    exact ⟨_, _, ⟨rfl, .inl ⟨rfl, rfl, rfl⟩⟩, fun _ => rfl⟩
  | notFound message =>
    exact ⟨_, _, ⟨rfl, .inr (.inl ⟨rfl, rfl, rfl⟩)⟩, fun _ => rfl⟩
  | timeout | transport | service | emptyResponse | undecodable =>
    exact ⟨_, _, ⟨rfl, .inr (.inr ⟨rfl, rfl, rfl⟩)⟩, fun _ => rfl⟩

/-- **The response and the reply to one outcome tell the same**, whatever the outcome is. -/
theorem corresponds_answer (c : Call) (requestId : String)
    (result : Except Client.Failure CallAnswer) :
    Corresponds (Rest.answer c result) (Session.answer requestId result) := by
  cases result with
  | error e =>
    obtain ⟨code, message, hsame, hreply⟩ := sameFailure_ofClient e
    show Corresponds (Rest.failed _) (Session.Reply.ofFailure requestId e)
    rw [hreply]
    exact hsame.corresponds requestId
  | ok a =>
    have hfails : ∀ code message, ¬ (Session.answer requestId (.ok a)).Fails code message := by
      simp [Session.Reply.Fails, Session.answer, Session.Reply.success]
    have hstatus : (Rest.answer c (.ok a)).status ≠ 500 := by
      have := Rest.answer_ok_status c a
      omega
    refine ⟨fun v => ?_, fun m => ?_, fun m => ?_, ?_, fun h => absurd h hstatus, ?_⟩
    · rw [Rest.answer_ok_gives_iff]
      simp [Session.Reply.Gives, Session.answer, Session.Reply.success]
    · exact iff_of_false (Rest.not_fails_answer_ok c a m (by decide)) (hfails _ m)
    · exact iff_of_false (Rest.not_fails_answer_ok c a m (by decide)) (hfails _ m)
    · exact iff_of_false hstatus fun ⟨m, hm⟩ => hfails _ m hm
    · exact .inl ⟨a.value, (Rest.answer_ok_gives_iff c a _).mpr rfl⟩

/-- A broken rule is told in the same words over the web and on a socket. -/
theorem corresponds_refusal (rule : Validation.Rule) (requestId : String) :
    Corresponds (Rest.failed (.ofRule rule))
      (.failure requestId Session.Reply.badRequest rule.message) := by
  have hsame : SameFailure (.ofRule rule) Session.Reply.badRequest rule.message :=
    ⟨rfl, .inl ⟨rfl, rfl, rfl⟩⟩
  exact hsame.corresponds requestId

end UserDirectory
