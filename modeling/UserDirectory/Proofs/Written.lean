import UserDirectory.Proofs.Answers
import UserDirectory.Proofs.Json.Members
import UserDirectory.Proofs.Server
import UserDirectory.Proofs.Session.Life
import UserDirectory.Proofs.Uuid.Spelling

/-!
# How identifiers are written

In the documents that go out identifiers stand under two names: that of a user and that of an
event. Whatever the operation was and however its user was spelled, what stands there is hyphenated
and in lower case (`Json.IdsWritten`). That is shown of each type once (`WritesIds`), by the list of
its fields, and then of the documents: what the server replies and announces, what is answered over
the web, and what is answered on a socket, where an answer is first kept as a value of unknown
shape.
-/

namespace UserDirectory

open Json (ToTree OfTree Tree Value Record toTree faithful)

namespace Json

/-- The names under which an identifier stands in a document. -/
def idNames : List String := ["userId", "eventId"]

/-- An identifier with hyphens between the groups of its digits and in lower case. -/
def Tree.IsId (t : Tree) : Prop :=
  ∃ (u : Uuid) (s : String), s.toList = u.hyphenated ∧ t = toTree s

theorem Tree.isId_text (u : Uuid) : (toTree u.text).IsId := ⟨u, u.text, u.toList_text, rfl⟩

/-- Wherever an identifier stands, it is hyphenated and in lower case. -/
def Tree.IdsWritten (t : Tree) : Prop := t.Every fun name u => name ∈ idNames → u.IsId

/-- A document in which every identifier is hyphenated and in lower case. -/
def IdsWritten (doc : Octets) : Prop := ∃ t, Tree.read? doc = some t ∧ t.IdsWritten

/-- What is kept of a document has its identifiers as they were. -/
theorem Value.idsWritten_toTree {room : Nat} {t : Tree} {v : Value} (h : ofTree? room t = some v)
    (ht : t.IdsWritten) : v.toTree.IdsWritten := by
  refine every_toTree ?_ h ht
  intro name room t v hid hkept hname
  obtain ⟨u, s, hs, rfl⟩ := hid hname
  have hstring : ofTree? room (.string (Quoted.escape s)) = some (.string s) := by
    rw [ofTree?, Quoted.text?_escape, Option.map_some]
  obtain rfl := Option.some.inj (hstring.symm.trans hkept)
  exact ⟨u, s, hs, by rw [toTree]; rfl⟩

/-! ## The types whose documents go out -/

/-- The types in whose documents every identifier is hyphenated and in lower case. -/
class WritesIds (α : Type) [ToTree α] : Prop where
  idsWritten : ∀ a : α, (toTree a).IdsWritten

export WritesIds (idsWritten)

instance : WritesIds String := ⟨fun _ _ _ h => nomatch h⟩

instance : WritesIds Bool := ⟨fun _ _ _ h => nomatch h⟩

instance : WritesIds Nat := ⟨fun _ _ _ h => nomatch h⟩

instance {α : Type} [ToTree α] [WritesIds α] : WritesIds (List α) := by
  refine ⟨fun as => Tree.every_array fun t ht => ?_⟩
  obtain ⟨a, -, rfl⟩ := List.mem_map.mp ht
  exact idsWritten a

theorem Tree.IsId.idsWritten {t : Tree} (h : t.IsId) : t.IdsWritten := by
  obtain ⟨u, s, -, rfl⟩ := h
  exact Json.idsWritten s

/-- Fields of which those with the name of an identifier hold one as it is written. -/
inductive Record.IdsWritten : Record → Prop
  | nil : IdsWritten []
  | id {name : String} {t : Tree} {r : Record} (h : t.IsId) (hrest : IdsWritten r) :
      IdsWritten ((name, some t) :: r)
  | other {name : String} {t? : Option Tree} {r : Record} (hname : name ∉ idNames)
      (h : ∀ t ∈ t?, t.IdsWritten) (hrest : IdsWritten r) : IdsWritten ((name, t?) :: r)

namespace Record.IdsWritten

theorem field {α : Type} [ToTree α] [WritesIds α] {name : String} {a : α} {r : Record}
    (hname : name ∉ idNames) (hrest : IdsWritten r) :
    IdsWritten ((name, some (toTree a)) :: r) :=
  .other hname (fun _ ht => Option.some.inj ht ▸ idsWritten a) hrest

theorem optional {α : Type} [ToTree α] [WritesIds α] {name : String} {a? : Option α} {r : Record}
    (hname : name ∉ idNames) (hrest : IdsWritten r) :
    IdsWritten ((name, a?.map toTree) :: r) := by
  refine .other hname (fun t ht => ?_) hrest
  obtain ⟨a, -, rfl⟩ := Option.map_eq_some_iff.mp ht
  exact idsWritten a

theorem object {r : Record} (h : r.IdsWritten) : (Tree.object r.members).IdsWritten := by
  have hfields : ∀ e ∈ r, ∀ t ∈ e.2, t.IdsWritten ∧ (e.1 ∈ idNames → t.IsId) := by
    induction h with
    | nil => exact fun e he => nomatch he
    | id hid _ ih =>
      refine List.forall_mem_cons.mpr ⟨fun t ht => ?_, ih⟩
      obtain rfl := Option.some.inj ht
      exact ⟨hid.idsWritten, fun _ => hid⟩
    | other hname hwritten _ ih =>
      exact List.forall_mem_cons.mpr ⟨fun t ht => ⟨hwritten t ht, fun h => absurd h hname⟩, ih⟩
  refine Tree.every_object fun m hm => ?_
  obtain ⟨e, he, hm⟩ := List.mem_filterMap.mp hm
  obtain ⟨t, ht, rfl⟩ := Option.map_eq_some_iff.mp hm
  refine ⟨(hfields e he t ht).1, fun name hname => ?_⟩
  obtain rfl := Option.some.inj ((Quoted.text?_escape e.1).symm.trans hname)
  exact (hfields e he t ht).2

end Record.IdsWritten

/-- The document of a value is read as its tree. -/
theorem idsWritten_encode {α : Type} [ToTree α] [WritesIds α] {a : α} (h : (toTree a).WellFormed) :
    IdsWritten (encode a) := ⟨toTree a, Tree.read?_text h, idsWritten a⟩

end Json

open Json (WritesIds idsWritten idsWritten_encode)

instance : WritesIds Age := ⟨fun _ _ _ h => nomatch h⟩

instance : WritesIds UserStatus := ⟨fun _ _ _ h => nomatch h⟩

instance : WritesIds Time.Instant := ⟨fun _ _ _ h => nomatch h⟩

instance : WritesIds User := by
  refine ⟨fun u => ?_⟩
  have h : u.record.IdsWritten :=
    .id (Tree.isId_text u.id.uuid) <| .field (by decide) <| .field (by decide) <|
    .field (by decide) <| .optional (by decide) <| .optional (by decide) <| .field (by decide) <|
    .field (by decide) <| .field (by decide) .nil
  exact u.toTree_eq ▸ h.object

instance : WritesIds Deletion := by
  refine ⟨fun d => ?_⟩
  have h : Record.IdsWritten [("message", some (toTree d.message))] := .field (by decide) .nil
  exact h.object

instance : WritesIds DeletedUser := by
  refine ⟨fun d => ?_⟩
  have h : Record.IdsWritten [("userId", some (toTree d.id))] :=
    .id (Tree.isId_text d.id.uuid) .nil
  exact h.object

instance : WritesIds ErrorCode := ⟨fun _ _ _ h => nomatch h⟩

instance : WritesIds CommandError := by
  refine ⟨fun e => ?_⟩
  have h : e.record.IdsWritten := .field (by decide) <| .field (by decide) .nil
  exact h.object

instance {α : Type} [ToTree α] [WritesIds α] : WritesIds (CommandResponse α) := by
  refine ⟨fun r => ?_⟩
  have h : r.record.IdsWritten :=
    .field (by decide) <| .optional (by decide) <| .optional (by decide) .nil
  exact r.toTree_eq ▸ h.object

instance : WritesIds Unit := ⟨fun _ _ _ h => nomatch h⟩

instance : WritesIds CallAnswer := by
  refine ⟨fun a => ?_⟩
  cases a with
  | user u => exact idsWritten u
  | users us => exact idsWritten us
  | deletion d => exact idsWritten d

/-! ## What the server replies and announces -/

namespace Server

theorem idsWritten_successReply (outcome : Store.Outcome) :
    Json.IdsWritten (successReply outcome) := by
  cases outcome with
  | created u | found u | updated u => exact idsWritten_encode (faithful_success u).wellFormed
  | listed us => exact idsWritten_encode (faithful_success us).wellFormed
  | deleted id => exact idsWritten_encode (faithful_success Deletion.done).wellFormed

theorem idsWritten_failureReply {e : CommandError} (h : e.code.Proper) :
    Json.IdsWritten (failureReply e) :=
  idsWritten_encode (faithful_failure h).wellFormed

/-- The identifier of an event is written like that of a user. -/
theorem idsWritten_event {α : Type} [ToTree α] [OfTree α] [Json.Lawful α] [WritesIds α]
    (eventId : Uuid) (kind : EventKind) (now : Time.Instant) (data : α) :
    Json.IdsWritten (Json.encode (Event.of eventId kind now data)) := by
  have h : (Event.of eventId kind now data).record.IdsWritten :=
    .id (Tree.isId_text eventId) <| .field (by decide) <| .field (by decide) <|
    .field (by decide) .nil
  exact ⟨_, Tree.read?_text (faithful_event (faithful data) rfl).wellFormed, h.object⟩

theorem idsWritten_announce {eventId : Uuid} {now : Time.Instant} {outcome : Store.Outcome}
    {kind : EventKind} {doc : Octets} (h : announce eventId now outcome = some (kind, doc)) :
    Json.IdsWritten doc := by
  cases outcome with
  | created u | updated u | deleted id =>
    obtain ⟨-, rfl⟩ := Prod.mk.inj (Option.some.inj h)
    exact idsWritten_event ..
  | listed us | found u => cases h

/-- **What the server replies and announces has its identifiers hyphenated and in lower case.** -/
theorem idsWritten_dispatch (command : Command) (payload : Octets) (fresh : Fresh) (store : Store) :
    Json.IdsWritten (dispatch command payload fresh store).1.1 ∧
      ∀ kind doc, (dispatch command payload fresh store).1.2 = some (kind, doc) →
        Json.IdsWritten doc := by
  rw [dispatch_eq]
  obtain ⟨e, hresult, he⟩ | ⟨call, outcome, after, -, hresult, -⟩ :=
    result_cases command payload fresh store
  · rw [hresult]
    exact ⟨idsWritten_failureReply he, fun _ _ h => nomatch h⟩
  · rw [hresult]
    exact ⟨idsWritten_successReply outcome, fun kind doc h => idsWritten_announce h⟩

end Server

/-! ## What is answered over the web -/

namespace Rest

theorem idsWritten_failed (f : Failure) : Json.IdsWritten (failed f).body := by
  have hinner : Record.IdsWritten [("code", some (toTree f.code)),
      ("message", some (toTree f.message))] := .field (by decide) <| .field (by decide) .nil
  have h : Record.IdsWritten [("error", some (.object (Record.members
      [("code", some (toTree f.code)), ("message", some (toTree f.message))])))] :=
    .other (by decide) (fun _ ht => Option.some.inj ht ▸ hinner.object) .nil
  exact ⟨f.document, Tree.read?_text f.document_wellFormed, h.object⟩

theorem idsWritten_answer (c : Call) (result : Except Client.Failure CallAnswer) :
    Json.IdsWritten (answer c result).body := by
  cases result with
  | error e => exact idsWritten_failed _
  | ok a => exact idsWritten_encode a.toTree_wellFormed

end Rest

/-! ## What is answered on a socket -/

namespace Session

instance : WritesIds ReplyError := by
  refine ⟨fun e => ?_⟩
  have h : Record.IdsWritten
      [("code", some (toTree e.code)), ("message", some (toTree e.message))] :=
    .field (by decide) <| .field (by decide) .nil
  exact h.object

theorem ReplyError.toTree_wellFormed (e : ReplyError) : (toTree e).WellFormed :=
  ⟨Json.Quoted.closed_escape _, Json.Quoted.closed_escape _, Json.Quoted.closed_escape _,
    Json.Quoted.closed_escape _, trivial⟩

theorem Reply.toTree_wellFormed (r : Reply) : (toTree r).WellFormed := by
  have hkey := Json.Quoted.closed_escape
  have hid := (faithful r.requestId).wellFormed
  have hok := (faithful r.ok).wellFormed
  have hdata (v : Value) : (toTree v).WellFormed := Value.wellFormed_toTree v
  have herror := ReplyError.toTree_wellFormed
  rw [r.toTree_eq]
  obtain ⟨requestId, ok, data, error⟩ := r
  by_cases hempty : requestId = "" <;> cases data <;> cases error <;>
    simp [record, Record.members, hempty, Tree.WellFormed, Tree.MembersWellFormed, hkey, hid, hok,
      hdata, herror]

/-- A reply is written with the identifiers of its data as they are. -/
theorem Reply.idsWritten {r : Reply} (h : ∀ v ∈ r.data, v.toTree.IdsWritten) :
    Json.IdsWritten (Json.encode r) := by
  have hrecord : r.record.IdsWritten := by
    refine .other (by decide) (fun t ht => ?_) <| .field (by decide) <|
      .other (by decide) (fun t ht => ?_) <| .optional (by decide) .nil
    · split at ht
      · cases ht
      · exact Option.some.inj ht ▸ Json.idsWritten r.requestId
    · obtain ⟨v, hv, rfl⟩ := Option.map_eq_some_iff.mp ht
      exact h v hv
  exact ⟨toTree r, Tree.read?_text r.toTree_wellFormed, r.toTree_eq ▸ hrecord.object⟩

theorem idsWritten_answer (requestId : String) (result : Except Client.Failure CallAnswer) :
    Json.IdsWritten (Json.encode (answer requestId result)) := by
  refine Reply.idsWritten fun v hv => ?_
  cases result with
  | ok a =>
    obtain rfl := Option.some.inj hv
    exact Value.idsWritten_toTree a.value?_toTree (Json.idsWritten a)
  | error e => cases e <;> cases hv

/-- What is answered at once carries no data. -/
theorem data_of_react {frame : Octets} {r : Reply} (h : react frame = .reply r) :
    r.data = none := by
  unfold react at h
  split at h
  · obtain rfl := Reaction.reply.inj h
    rfl
  split at h
  · obtain rfl := Reaction.reply.inj h
    rfl
  split at h
  · obtain rfl := Reaction.reply.inj h
    rfl
  · cases h

theorem idsWritten_react {frame : Octets} {r : Reply} (h : react frame = .reply r) :
    Json.IdsWritten (Json.encode r) :=
  Reply.idsWritten fun _ hv => nomatch data_of_react h ▸ hv

end Session

end UserDirectory
