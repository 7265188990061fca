import UserDirectory.Envelope
import UserDirectory.Proofs.User

/-!
# Envelopes are given back by their documents

Requests, responses and events are faithful whenever what they carry is. Three things must hold for
it that a type alone does not say: an error code is not one of the known codes in disguise, the
data of a response is not written as null, and the time of an event is a whole second.

An update is read along a path of its own, on which all its members are first kept as values of
unknown shape. What is written for changes, texts and small numbers, can always be kept.
-/

namespace UserDirectory

open Json (ToTree OfTree Fields Tree Lawful NeverNull Record Faithful toTree ofTree? faithful)

/-! ## Requests -/

/-- The fields of a request as they are written. -/
def CommandRequest.record {α : Type} [ToTree α] (r : CommandRequest α) : Record :=
  [("requestId", some (toTree r.requestId)), ("data", some (toTree r.data))]

theorem CommandRequest.record_nodup {α : Type} [ToTree α] (r : CommandRequest α) :
    r.record.names.Nodup := by
  show ["requestId", "data"].Nodup
  decide

instance {α : Type} [ToTree α] [OfTree α] [Omissible α] [Lawful α] :
    Lawful (CommandRequest α) := by
  refine ⟨fun r => ?_⟩
  have h := r.record_nodup
  have hwell : r.record.WellFormed := .required (faithful _) <| .required (faithful _) .nil
  refine ⟨hwell.membersWellFormed, fun room => ?_⟩
  have hfields : Fields.ofTree? ["requestId", "data"] (.object r.record.members) =
      some r.record.fields := Record.ofTree?_members h
  have hid := Record.required_fields h "requestId" r.requestId (faithful _)
    (by simp [CommandRequest.record]) room
  have hdata : r.record.fields.lookup "data" = some (toTree r.data) :=
    Record.lookup_fields h (by simp [CommandRequest.record])
  show ofTree? room (.object r.record.members) = some r
  simp only [ofTree?, hfields, Option.bind_eq_bind, Option.bind_some, hid, Envelope.data?, hdata]
  rw [show OfTree.ofTree? (room - 1) (toTree r.data) = some r.data from
    (faithful r.data).ofTree?_toTree (room - 1)]
  rfl

instance : Lawful ListRequest := ⟨fun _ => ⟨trivial, fun _ => rfl⟩⟩

instance : NeverNull ListRequest := ⟨fun _ h => nomatch h⟩

instance : Lawful IdRequest := by
  refine ⟨fun r => ⟨Record.membersWellFormed_member "id" r.id, fun room => ?_⟩⟩
  show (do
    let fields ← Fields.ofTree? ["id"] (.object (Json.member "id" r.id))
    return { id := ← fields.required room "id" }) = some r
  rw [Record.ofTree?_member, Option.bind_eq_bind, Option.bind_some, Record.required_singleton]
  rfl

/-! ## Updates -/

/-- The number of an integer of 64 bits is finite. -/
theorem Json.Numeral.isSome_number?_ofInt {n : Int} (hlow : -9223372036854775808 ≤ n)
    (hhigh : n < 18446744073709551616) :
    (Json.Numeral.ofInt n).number?.isSome = true := by
  rw [Json.Numeral.number?, Json.Numeral.int?_ofInt]
  cases n with
  | ofNat n =>
    have hn : n < Nat.pow 2 64 := by
      show n < 18446744073709551616
      simp only [Int.ofNat_eq_natCast] at hhigh
      omega
    simp only [if_pos hn, Option.isSome_some]
  | negSucc n =>
    have hn : n < Nat.pow 2 63 := by
      show n < 9223372036854775808
      omega
    simp only [if_pos hn, Option.isSome_some]

/-- A tree that can be kept as a value of unknown shape, however little room is left. -/
def Json.Tree.Keepable (t : Tree) : Prop := ∀ room, (Json.Value.ofTree? room t).isSome = true

theorem keepable_string (s : String) : (toTree s).Keepable := by
  intro room
  show (Json.Value.ofTree? room (.string (Json.Quoted.escape s))).isSome = true
  rw [Json.Value.ofTree?, Json.Quoted.text?_escape]
  rfl

theorem keepable_age (age : Age) : (toTree age).Keepable := by
  intro room
  have hlow := Int32.le_toInt age
  have hhigh := Int32.toInt_lt age
  show (Json.Value.ofTree? room (.number (Json.Numeral.ofInt age.toInt))).isSome = true
  rw [Json.Value.ofTree?, Option.isSome_map]
  exact Json.Numeral.isSome_number?_ofInt (by omega) (by omega)

theorem keepable_map {α : Type} [ToTree α] (h : ∀ a : α, (toTree a).Keepable) {a? : Option α}
    {t : Json.Tree} (ht : t ∈ a?.map toTree) : t.Keepable := by
  obtain ⟨a, -, rfl⟩ := Option.map_eq_some_iff.mp ht
  exact h a

/-- What is written for changes can be kept. -/
theorem UserChanges.keepable_record (c : UserChanges) :
    ∀ e ∈ c.record, ∀ t ∈ e.2, t.Keepable := by
  intro e he t ht
  simp only [UserChanges.record, List.mem_cons, List.not_mem_nil, or_false] at he
  rcases he with rfl | rfl | rfl | rfl | rfl | rfl
  · exact keepable_map keepable_string ht
  · exact keepable_map keepable_string ht
  · exact keepable_map keepable_string ht
  · exact keepable_map keepable_string ht
  · exact keepable_map keepable_age ht
  · exact keepable_map (fun status : UserStatus => keepable_string status.word) ht

namespace UpdateRequest

/-- The fields of an update as they are written. -/
def record (r : UpdateRequest) : Record := ("id", some (toTree r.id)) :: r.changes.record

theorem toTree_eq (r : UpdateRequest) : toTree r = .object r.record.members := by
  show Tree.object _ = _
  rw [UserChanges.members_eq, Record.member_eq, ← Record.members_append]
  rfl

theorem record_nodup (r : UpdateRequest) : r.record.names.Nodup := by
  show ("id" :: UserChanges.fieldNames).Nodup
  decide

/-- All members but the identifier are those of the changes. -/
theorem filter_fields (r : UpdateRequest) :
    r.record.fields.filter (fun m => m.1 != "id") = r.changes.record.fields := by
  rw [Record.filter_fields r.record (· != "id")]
  rfl

end UpdateRequest

instance : Lawful UpdateRequest := by
  refine ⟨fun r => ⟨?_, fun room => ?_⟩⟩
  · rw [r.toTree_eq]
    exact (Record.WellFormed.required (faithful r.id) r.changes.record_wellFormed).membersWellFormed
  · -- the identifier is picked first, then the others are kept, then the changes are picked
    have hids : Fields.known? ["id"] r.record.fields = some [("id", toTree r.id)] :=
      Record.known?_fields r.record_nodup ["id"]
    have hkept : (r.changes.record.fields.all fun m =>
        (Json.Value.ofTree? (room - 1) m.2).isSome) = true := by
      rw [List.all_eq_true]
      intro m hm
      obtain ⟨e, he, hm⟩ := List.mem_filterMap.mp hm
      obtain ⟨t, ht, rfl⟩ := Option.map_eq_some_iff.mp hm
      exact r.changes.keepable_record e he t ht (room - 1)
    have hknown : Fields.known? UserChanges.fieldNames r.changes.record.fields =
        some r.changes.record.fields := Record.known?_names r.changes.record_nodup
    rw [r.toTree_eq]
    simp only [ofTree?, Record.ofMembers?_members, Option.bind_eq_bind, Option.bind_some, hids,
      r.filter_fields, hkept, if_true, hknown, Record.required_singleton]
    rw [UserChanges.ofFields?_record]
    · rfl
    · intro s
      show (UserStatus.ofRaw? (Json.Quoted.escape s.word)).map some = some (some s)
      rw [UserStatus.ofRaw?_escape]
      rfl

/-! ## Responses -/

/-- The codes that are read as themselves: all but known codes in disguise. -/
def ErrorCode.Proper (c : ErrorCode) : Prop := ErrorCode.ofText c.text = c

theorem faithful_errorCode {c : ErrorCode} (h : c.Proper) : Faithful c := by
  refine ⟨Json.Quoted.closed_escape c.text, fun room => ?_⟩
  show (ofTree? room (toTree c.text)).map ErrorCode.ofText = some c
  rw [(faithful c.text).ofTree?_toTree, Option.map_some, h]

/-- The fields of an error as they are written. -/
def CommandError.record (e : CommandError) : Record :=
  [("code", some (toTree e.code)), ("message", some (toTree e.message))]

theorem faithful_commandError {e : CommandError} (he : e.code.Proper) : Faithful e := by
  have h : e.record.names.Nodup := by
    show ["code", "message"].Nodup
    decide
  have hwell : e.record.WellFormed :=
    .required (faithful_errorCode he) <| .required (faithful _) .nil
  refine ⟨hwell.membersWellFormed, fun room => ?_⟩
  have hfields : Fields.ofTree? ["code", "message"] (.object e.record.members) =
      some e.record.fields := Record.ofTree?_members h
  have hcode := Record.required_fields h "code" e.code (faithful_errorCode he)
    (by simp [CommandError.record]) room
  have hmessage := Record.required_fields h "message" e.message (faithful _)
    (by simp [CommandError.record]) room
  show ofTree? room (.object e.record.members) = some e
  simp only [ofTree?, hfields, Option.bind_eq_bind, Option.bind_some, hcode, hmessage]
  rfl

instance : NeverNull CommandError := ⟨fun _ h => nomatch h⟩

namespace CommandResponse

/-- The fields of a response as they are written. -/
def record {α : Type} [ToTree α] (r : CommandResponse α) : Record :=
  [("ok", some (toTree r.ok)), ("data", r.data.map toTree), ("error", r.error.map toTree)]

theorem toTree_eq {α : Type} [ToTree α] (r : CommandResponse α) :
    toTree r = .object r.record.members := by
  show Tree.object _ = _
  simp only [Record.member_eq, Record.optionalMember_eq, ← Record.members_append]
  rfl

end CommandResponse

theorem CommandResponse.record_nodup {α : Type} [ToTree α] (r : CommandResponse α) :
    r.record.names.Nodup := by
  show ["ok", "data", "error"].Nodup
  decide

/-- A response is faithful if its data and its error are; data that is written as null would be
read as none. -/
theorem faithful_commandResponse {α : Type} [ToTree α] [OfTree α] {r : CommandResponse α}
    (hnull : ∀ a ∈ r.data, toTree a ≠ .null) (hdata : ∀ a ∈ r.data, Faithful a)
    (herror : ∀ e ∈ r.error, Faithful e) : Faithful r := by
  have h := r.record_nodup
  have hwell : r.record.WellFormed :=
    .required (faithful _) <| .optional hdata <| .optional herror .nil
  refine ⟨r.toTree_eq ▸ hwell.membersWellFormed, fun room => ?_⟩
  have hfields : Fields.ofTree? ["ok", "data", "error"] (.object r.record.members) =
      some r.record.fields := Record.ofTree?_members h
  have hok := Record.required_fields h "ok" r.ok (faithful _)
    (by simp [CommandResponse.record]) room
  have hdata := Record.optional_fields_of_ne_null h "data" r.data hnull hdata
    (by simp [CommandResponse.record]) (room - 1)
  have herror := Record.optional_fields h "error" r.error herror
    (by simp [CommandResponse.record]) (room - 1)
  rw [r.toTree_eq]
  simp only [ofTree?, hfields, Option.bind_eq_bind, Option.bind_some, hok, hdata, herror]
  rfl

/-- The response of a command that succeeded. -/
theorem faithful_success {α : Type} [ToTree α] [OfTree α] [Lawful α] [NeverNull α] (a : α) :
    Faithful (CommandResponse.success a) :=
  faithful_commandResponse (fun a _ => Json.toTree_ne_null a) (fun _ _ => faithful _)
    (fun _ he => nomatch he)

/-- The response of a command that failed says the same whatever data it could have had. -/
theorem faithful_failure {α : Type} [ToTree α] [OfTree α] {e : CommandError}
    (he : e.code.Proper) : Faithful (CommandResponse.failure e : CommandResponse α) := by
  refine faithful_commandResponse (fun _ ha => nomatch ha) (fun _ ha => nomatch ha)
    (fun e' he' => ?_)
  obtain rfl := Option.some.inj he'
  exact faithful_commandError he

instance : Lawful Deletion := by
  refine ⟨fun d => ⟨Record.membersWellFormed_member "message" d.message, fun room => ?_⟩⟩
  show (do
    let fields ← Fields.ofTree? ["message"] (.object (Json.member "message" d.message))
    return { message := ← fields.required room "message" }) = some d
  rw [Record.ofTree?_member, Option.bind_eq_bind, Option.bind_some, Record.required_singleton]
  rfl

instance : NeverNull Deletion := ⟨fun _ h => nomatch h⟩

/-! ## Events -/

/-- The fields of an event as they are written. -/
def Event.record {α : Type} [ToTree α] (e : Event α) : Record :=
  [("eventId", some (toTree e.eventId)), ("type", some (toTree e.type)),
   ("occurredAt", some (toTree (Time.secondStamp e.occurredAt))), ("data", some (toTree e.data))]

theorem Event.record_nodup {α : Type} [ToTree α] (e : Event α) : e.record.names.Nodup := by
  show ["eventId", "type", "occurredAt", "data"].Nodup
  decide

/-- An event is faithful if its data is and its time is a whole second. -/
theorem faithful_event {α : Type} [ToTree α] [OfTree α] {e : Event α} (hdata : Faithful e.data)
    (htime : e.occurredAt.nano = 0) : Faithful e := by
  have h := e.record_nodup
  have hwell : e.record.WellFormed :=
    .required (faithful _) <| .required (faithful _) <| .required (faithful _) <|
    .required hdata .nil
  refine ⟨hwell.membersWellFormed, fun room => ?_⟩
  have hfields : Fields.ofTree? ["eventId", "type", "occurredAt", "data"]
      (.object e.record.members) = some e.record.fields := Record.ofTree?_members h
  have hid := Record.required_fields h "eventId" e.eventId (faithful _)
    (by simp [Event.record]) room
  have htype := Record.required_fields h "type" e.type (faithful _) (by simp [Event.record]) room
  have hstamp := Record.required_fields h "occurredAt" (Time.secondStamp e.occurredAt)
    (faithful _) (by simp [Event.record]) room
  have hdata := Record.required_fields h "data" e.data hdata (by simp [Event.record]) (room - 1)
  show ofTree? room (.object e.record.members) = some e
  simp only [ofTree?, hfields, Option.bind_eq_bind, Option.bind_some, hid, htype, hstamp, hdata,
    Time.ofSecondStamp?_secondStamp, Time.Instant.wholeSecond_eq_self htime]
  rfl

instance : Lawful DeletedUser := by
  refine ⟨fun d => ⟨Record.membersWellFormed_member "userId" d.id, fun room => ?_⟩⟩
  show (do
    let fields ← Fields.ofTree? ["userId"] (.object (Json.member "userId" d.id))
    return { id := ← fields.required room "userId" }) = some d
  rw [Record.ofTree?_member, Option.bind_eq_bind, Option.bind_some, Record.required_singleton]
  rfl

end UserDirectory
