import UserDirectory.Proofs.Surfaces
import UserDirectory.Proofs.Written

/-!
# An identifier means one user in every spelling

A caller may spell an identifier in four ways and each letter in either case. All that is done with
a spelling is to read it, and it is read as the identifier (`Validation.checkId_eq_ok_iff`). So two
wishes that differ in the spelling alone (`Wish.Respelled`) are the same operation, or break the
same rule, and from there on nobody can tell them apart: not the server
(`Server.dispatch_eq_of_respelled`), and neither the web nor a socket, where the answer and the
users after it depend only on what was decided (`Stack.Up.sameRun`).
-/

namespace UserDirectory

open Json (IdsWritten)
open Validation (Rule checkId checkChanges)

/-! ## Reading a spelling -/

theorem UserId.parse?_eq_some_iff {s : String} {id : UserId} :
    parse? s = some id ↔ id.uuid.Spelled s := by
  rw [parse?, Option.map_eq_some_iff, ← Uuid.parse?_eq_some_iff]
  constructor
  · rintro ⟨u, hu, rfl⟩
    exact hu
  · exact fun h => ⟨id.uuid, h, rfl⟩

theorem Validation.checkId_eq_ok_iff {s : String} {id : UserId} :
    checkId s = .ok id ↔ id.uuid.Spelled s := by
  rw [← UserId.parse?_eq_some_iff, checkId]
  cases UserId.parse? s with
  | none => simp only [reduceCtorEq]
  | some id' => rw [Except.ok.injEq, Option.some.injEq]

/-- How texts are read as an identifier. -/
structure ReadInEverySpelling (id : UserId) : Prop where
  /-- what it is written as is one of its spellings -/
  written : id.text.toList = id.uuid.hyphenated ∧ checkId id.text = .ok id
  read : ∀ s, checkId s = .ok id ↔ id.uuid.Spelled s
  /-- what spells no identifier at all is refused in the same words -/
  refused : ∀ s, (∀ other : UserId, ¬ other.uuid.Spelled s) →
    ∃ rule, checkId s = .error rule ∧ rule.message = "id must be valid uuid"

theorem UserId.readInEverySpelling (id : UserId) : ReadInEverySpelling id := by
  refine ⟨⟨id.uuid.toList_text, ?_⟩, fun s => Validation.checkId_eq_ok_iff, fun s hs => ?_⟩
  · rw [checkId, parse?_text]
  · have hnone : parse? s = none :=
      Option.eq_none_iff_forall_ne_some.mpr fun other h => hs other (parse?_eq_some_iff.mp h)
    exact ⟨.id, by rw [checkId, hnone], rfl⟩

/-! ## Wishes that differ in a spelling -/

/-- Two wishes that differ only in how they spell one identifier. -/
inductive Wish.Respelled (id : UserId) : Wish → Wish → Prop
  | get {s t : String} (hs : id.uuid.Spelled s) (ht : id.uuid.Spelled t) :
      Respelled id (.get s) (.get t)
  | update {s t : String} (changes : UserChanges) (hs : id.uuid.Spelled s)
      (ht : id.uuid.Spelled t) : Respelled id (.update s changes) (.update t changes)
  | delete {s t : String} (hs : id.uuid.Spelled s) (ht : id.uuid.Spelled t) :
      Respelled id (.delete s) (.delete t)

namespace Wish

theorem Respelled.symm {id : UserId} {w w' : Wish} (h : Respelled id w w') :
    Respelled id w' w := by
  cases h with
  | get hs ht => exact .get ht hs
  | update changes hs ht => exact .update changes ht hs
  | delete hs ht => exact .delete ht hs

/-- They are the same operation or break the same rule. -/
theorem Respelled.call?_eq {id : UserId} {w w' : Wish} (h : Respelled id w w') :
    w.call? = w'.call? := by
  cases h with
  | get hs ht | update _ hs ht | delete hs ht =>
    simp only [call?, Validation.checkId_eq_ok_iff.mpr hs, Validation.checkId_eq_ok_iff.mpr ht]

/-- The command that a wish is sent with. -/
def command : Wish → Command
  | create _ => .create
  | list => .list
  | get _ => .get
  | update _ _ => .update
  | delete _ => .delete

theorem Respelled.command_eq {id : UserId} {w w' : Wish} (h : Respelled id w w') :
    w.command = w'.command := by
  cases h <;> rfl

end Wish

/-! ## At the server -/

namespace Server

/-- A payload that is read as what a wish says. -/
def Asks (payload : Octets) : Wish → Prop
  | .create input => data? NewUser payload = .ok input
  | .list => ∃ request, data? (Option ListRequest) payload = .ok request
  | .get id | .delete id => data? IdRequest payload = .ok ⟨id⟩
  | .update id changes => data? UpdateRequest payload = .ok ⟨id, changes⟩

theorem accept_of_respelled {id : UserId} {w w' : Wish} (h : w.Respelled id w') {payload : Octets}
    (hasks : Asks payload w) : accept w.command payload = ensure w.call? := by
  cases h with
  | get hs _ | delete hs _ =>
    have hdata : data? IdRequest payload = _ := hasks
    simp only [Wish.command, accept, hdata, ok_bind, Wish.call?,
      Validation.checkId_eq_ok_iff.mpr hs]
    rfl
  | update changes hs _ =>
    have hdata : data? UpdateRequest payload = _ := hasks
    simp only [Wish.command, accept, hdata, ok_bind, Wish.call?,
      Validation.checkId_eq_ok_iff.mpr hs]
    cases checkChanges changes <;> rfl

/-- **The server cannot tell apart in which spelling it was asked**, whatever users there are. -/
theorem dispatch_eq_of_respelled {id : UserId} {w w' : Wish} (h : w.Respelled id w')
    {payload payload' : Octets} (hasks : Asks payload w) (hasks' : Asks payload' w') (fresh : Fresh)
    (store : Store) :
    dispatch w.command payload fresh store = dispatch w'.command payload' fresh store := by
  have haccept : accept w.command payload = accept w'.command payload' := by
    rw [accept_of_respelled h hasks, accept_of_respelled h.symm hasks', h.call?_eq]
  rw [dispatch, dispatch, haccept]

end Server

/-! ## Over the web and on a socket -/

/-- Two runs with one answer and one outcome for the users. The same request was sent, up to its
identifier. -/
structure SameRun {α : Type} (run run' : Run α) : Prop where
  answer : run.answer = run'.answer
  after : run.after = run'.after
  sent : SameCommand run.sent run'.sent

/-- What a side comes to depends only on what it decided. -/
theorem Stack.Up.sameRun {k : Stack} (hup : k.Up) {α : Type} {decided : Except α Call}
    {answer : Call → Except Client.Failure CallAnswer → α} {requestId requestId' : Uuid}
    {run run' : Run α} (hrun : k.Runs requestId decided answer run)
    (hrun' : k.Runs requestId' decided answer run') : SameRun run run' := by
  cases hrun with
  | refused hdecided =>
    cases hrun' with
    | refused hdecided' =>
      obtain rfl := Except.error.inj (hdecided.symm.trans hdecided')
      exact ⟨rfl, rfl, .none⟩
    | served hdecided' _ => cases hdecided.symm.trans hdecided'
  | @served c result after hdecided hserves =>
    cases hrun' with
    | refused hdecided' => cases hdecided.symm.trans hdecided'
    | served hdecided' hserves' =>
      obtain rfl := Except.ok.inj (hdecided.symm.trans hdecided')
      obtain ⟨rfl, rfl⟩ := Prod.mk.inj
        ((hup.serves_eq hserves).trans (hup.serves_eq hserves').symm)
      refine ⟨rfl, rfl, ?_⟩
      show SameCommand (some (_, c.request requestId)) (some (_, c.request requestId'))
      rw [c.request_eq, c.request_eq]
      exact .sent ..

/-- Nobody can tell two wishes apart by what becomes of them. -/
structure Wish.Interchangeable (w w' : Wish) : Prop where
  command : w.command = w'.command
  /-- the reply, the event and the users after it -/
  server : ∀ payload payload', Server.Asks payload w → Server.Asks payload' w' → ∀ fresh store,
    Server.dispatch w.command payload fresh store =
      Server.dispatch w'.command payload' fresh store
  /-- requests over the web lead to the same, at once or as an operation -/
  reactsRest : ∀ q q' : Rest.Request, q.Asks w → q'.Asks w' → ∀ route route' : Rest.Route,
    Rest.Route.ofTarget? q.target = some route → route.IsFor w →
    Rest.Route.ofTarget? q'.target = some route' → route'.IsFor w' → Rest.react q = Rest.react q'
  runsRest : ∀ q q' : Rest.Request, q.Asks w → q'.Asks w' → ∀ k : Stack, k.Up →
    ∀ requestId requestId',
      (∃ run, k.RunsRest requestId q w run) ∧ (∃ run, k.RunsRest requestId' q' w' run) ∧
      ∀ run run', k.RunsRest requestId q w run → k.RunsRest requestId' q' w' run' →
        SameRun run run'
  /-- messages with the same identifier lead to the same -/
  reactsSocket : ∀ r r' : Session.Request, r.Asks w → r'.Asks w' → r.requestId = r'.requestId →
    ∀ frame frame', Json.decode frame = some r → Json.decode frame' = some r' →
      Session.react frame = Session.react frame'
  runsSocket : ∀ r r' : Session.Request, r.Asks w → r'.Asks w' → r.requestId = r'.requestId →
    ∀ k : Stack, k.Up → ∀ requestId requestId',
      (∃ run, k.RunsSocket requestId r run) ∧ (∃ run, k.RunsSocket requestId' r' run) ∧
      ∀ run run', k.RunsSocket requestId r run → k.RunsSocket requestId' r' run' →
        SameRun run run'

theorem Wish.Respelled.interchangeable {id : UserId} {w w' : Wish} (h : w.Respelled id w') :
    w.Interchangeable w' := by
  have hrest : ∀ q q' : Rest.Request, q.Asks w → q'.Asks w' →
      Rest.handle q w = Rest.handle q' w' := by
    intro q q' hq hq'
    rw [Rest.handle_of_asks hq, Rest.handle_of_asks hq', h.call?_eq]
  have hsocket : ∀ r r' : Session.Request, r.Asks w → r'.Asks w' → r.requestId = r'.requestId →
      Session.process r = Session.process r' := by
    intro r r' hr hr' hid
    rw [Session.process_of_asks hr, Session.process_of_asks hr', h.call?_eq, hid]
  refine ⟨h.command_eq, fun _ _ => Server.dispatch_eq_of_respelled h, ?_, ?_, ?_, ?_⟩
  · intro q q' hq hq' route route' htarget hroute htarget' hroute'
    rw [Rest.react_of_asks hq htarget hroute, Rest.react_of_asks hq' htarget' hroute',
      hrest q q' hq hq']
  · intro q q' hq hq' k hup requestId requestId'
    refine ⟨hup.exists_runs .., hup.exists_runs .., fun run run' hrun hrun' => ?_⟩
    unfold Stack.RunsRest at hrun hrun'
    rw [← hrest q q' hq hq'] at hrun'
    exact hup.sameRun hrun hrun'
  · intro r r' hr hr' hid frame frame' hframe hframe'
    rw [Session.react_of_decode hframe, Session.react_of_decode hframe', hsocket r r' hr hr' hid,
      hid]
  · intro r r' hr hr' hid k hup requestId requestId'
    refine ⟨hup.exists_runs .., hup.exists_runs .., fun run run' hrun hrun' => ?_⟩
    unfold Stack.RunsSocket at hrun hrun'
    rw [← hsocket r r' hr hr' hid, ← hid] at hrun'
    exact hup.sameRun hrun hrun'

/-! ## In every document -/

/-- Wherever an identifier stands in what goes out, it is hyphenated and in lower case. -/
structure WrittenInOneSpelling : Prop where
  replies : ∀ command payload fresh store,
    IdsWritten (Server.dispatch command payload fresh store).1.1
  events : ∀ command payload fresh store kind doc,
    (Server.dispatch command payload fresh store).1.2 = some (kind, doc) → IdsWritten doc
  web : ∀ call result, IdsWritten (Rest.answer call result).body
  webRefusals : ∀ f, IdsWritten (Rest.failed f).body
  socket : ∀ requestId result, IdsWritten (Json.encode (Session.answer requestId result))
  socketRefusals : ∀ frame reply, Session.react frame = .reply reply →
    IdsWritten (Json.encode reply)

theorem writtenInOneSpelling : WrittenInOneSpelling where
  replies command payload fresh store := (Server.idsWritten_dispatch command payload fresh store).1
  events command payload fresh store := (Server.idsWritten_dispatch command payload fresh store).2
  web := Rest.idsWritten_answer
  webRefusals := Rest.idsWritten_failed
  socket := Session.idsWritten_answer
  socketRefusals _ _ := Session.idsWritten_react

/-- **An identifier means one user in every spelling.** It is read from its spellings and from
nothing else; two wishes that differ in the spelling alone come to the same at the server, over the
web and on a socket; and whatever goes out has it in one spelling. -/
theorem spellings_mean_one_user (id : UserId) :
    ReadInEverySpelling id ∧
    (∀ w w' : Wish, w.Respelled id w' → w.Interchangeable w') ∧
    WrittenInOneSpelling :=
  ⟨id.readInEverySpelling, fun _ _ h => h.interchangeable, writtenInOneSpelling⟩

/-- One user is to be removed: it is spelled as a resource name in capitals, and in braces. -/
theorem spellings_mean_one_user_delete :
    let id := (Server.Fresh.nth 0).userId
    let s := "URN:uuid:5EED0000-0000-4000-8000-000000000000"
    let t := "\x7b5eEd0000-0000-4000-8000-000000000000\x7d"
    let payload (x : String) := Json.encode (⟨"r", ⟨x⟩⟩ : CommandRequest IdRequest)
    let q (x : String) : Rest.Request := { method := .delete, target := "/users/" ++ x }
    Wish.Respelled id (.delete s) (.delete t) ∧
      Server.Asks (payload s) (.delete s) ∧ Server.Asks (payload t) (.delete t) ∧
      (∀ fresh store, Server.dispatch .delete (payload s) fresh store =
        Server.dispatch .delete (payload t) fresh store) ∧
      Rest.react (q s) = Rest.react (q t) := by
  intro id s t payload q
  have hrespelled : Wish.Respelled id (.delete s) (.delete t) :=
    .delete (Validation.checkId_eq_ok_iff.mp (by decide +kernel))
      (Validation.checkId_eq_ok_iff.mp (by decide +kernel))
  have hasks (x : String) : Server.Asks (payload x) (.delete x) := by
    show Server.data? IdRequest (payload x) = _
    rw [Server.data?, (Json.faithful _).decode_encode]
  have hsame := (spellings_mean_one_user id).2.1 _ _ hrespelled
  refine ⟨hrespelled, hasks s, hasks t, hsame.server _ _ (hasks s) (hasks t), ?_⟩
  exact hsame.reactsRest (q s) (q t) rfl rfl (.user s.toList) (.user t.toList)
    (by decide +kernel) ⟨_, rfl, by decide +kernel⟩ (by decide +kernel)
    ⟨_, rfl, by decide +kernel⟩

/-- Not only the digits may be in capitals, but also the name before them. -/
theorem named_in_capitals : ¬ ∀ (s : String) (id : UserId),
    checkId s = .ok id ↔ id.uuid.SpelledWith (· = Uuid.urnLead) s.toList := by
  intro h
  have hread : checkId "URN:UUID:5EED0000-0000-4000-8000-000000000000" =
      .ok (Server.Fresh.nth 0).userId := by decide +kernel
  have hspelled := (h _ _).mp hread
  have hfirst : "URN:UUID:5EED0000-0000-4000-8000-000000000000".toList.head? = some 'U' := by
    decide +kernel
  have hlength : "URN:UUID:5EED0000-0000-4000-8000-000000000000".toList.length = 45 := by
    decide +kernel
  generalize "URN:UUID:5EED0000-0000-4000-8000-000000000000".toList = cs at hspelled hfirst hlength
  cases hspelled with
  | hyphenated hlower =>
    have := congrArg List.length hlower
    rw [List.length_map, Uuid.length_hyphenated] at this
    omega
  | plain hlower =>
    have := congrArg List.length hlower
    rw [List.length_map, Uuid.length_plain] at this
    omega
  | braced _ => exact absurd hfirst (by simp)
  | named hlead _ =>
    have hsmall : Uuid.urnLead.head? = some 'u' := by decide +kernel
    rw [List.head?_append, hlead, hsmall, Option.some_or] at hfirst
    exact absurd hfirst (by decide)

end UserDirectory
