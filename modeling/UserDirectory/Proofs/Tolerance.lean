import UserDirectory.Proofs.Json.Tolerant
import UserDirectory.Proofs.WireForms

/-!
# The envelopes are forward compatible

The shape of each type is its list of fields, the data of an envelope under their own shape. Each
type then says how it picks its fields, in the order in which its reader does.

Two readers differ from the others. An update is read along a path of its own: all its members but
the identifier are kept as values before the changes are picked from them, so a member that nobody
asks for must be one that can be kept. And the data of a request may be missing if null stands for
the same.
-/

namespace UserDirectory

open Json (ToTree OfTree Fields Tree Shaped Shape ShapeFields Tolerant Picks Reader
  ForwardCompatible shape toTree ofTree? faithful tolerant_record tolerant_plain readsRecord
  reader_plain)

/-! ## Payloads -/

instance : Shaped Unit := ⟨.plain⟩

instance : Tolerant Unit := tolerant_plain rfl

instance : Shaped User :=
  ⟨.record none
    [("userId", true, .plain), ("firstName", true, .plain), ("lastName", true, .plain),
     ("email", true, .plain), ("phone", false, .plain), ("age", false, .plain),
     ("status", true, .plain), ("createdAt", true, .plain), ("updatedAt", true, .plain)]⟩

instance : Tolerant User := by
  refine tolerant_record rfl (readsRecord (fun _ _ => rfl) (by decide) ?_)
  exact .requiredPlain fun _ => .requiredPlain fun _ => .requiredPlain fun _ =>
    .requiredPlain fun _ => .optionalPlain fun _ => .optionalPlain fun _ =>
    .requiredPlain fun _ => .requiredPlain fun _ => .requiredPlain fun _ => .done _

instance : Shaped NewUser :=
  ⟨.record none
    [("firstName", true, .plain), ("lastName", true, .plain), ("email", true, .plain),
     ("phone", false, .plain), ("age", false, .plain), ("status", false, .plain)]⟩

instance : Tolerant NewUser := by
  refine tolerant_record rfl (readsRecord (fun _ _ => rfl) (by decide) ?_)
  exact .requiredPlain fun _ => .requiredPlain fun _ => .requiredPlain fun _ =>
    .optionalPlain fun _ => .optionalPlain fun _ => .optionalPlain fun _ => .done _

instance : Shaped IdRequest := ⟨.record none [("id", true, .plain)]⟩

instance : Tolerant IdRequest :=
  tolerant_record rfl (readsRecord (fun _ _ => rfl) (by decide) (.requiredPlain fun _ => .done _))

instance : Shaped ListRequest := ⟨.record none []⟩

instance : Tolerant ListRequest := by
  have hreads : ∀ (room : Nat) (ms : List (Octets × Tree)),
      (ofTree? room (.object ms) : Option ListRequest) =
        (Fields.ofTree? [] (.object ms)).bind fun _ => some {} := by
    intro room ms
    exact Option.map_eq_bind ..
  exact tolerant_record rfl (readsRecord hreads (by decide) (.done _))

instance : Shaped Deletion := ⟨.record none [("message", true, .plain)]⟩

instance : Tolerant Deletion :=
  tolerant_record rfl (readsRecord (fun _ _ => rfl) (by decide) (.requiredPlain fun _ => .done _))

instance : Shaped DeletedUser := ⟨.record none [("userId", true, .plain)]⟩

instance : Tolerant DeletedUser :=
  tolerant_record rfl (readsRecord (fun _ _ => rfl) (by decide) (.requiredPlain fun _ => .done _))

instance : Shaped CommandError :=
  ⟨.record none [("code", true, .plain), ("message", true, .plain)]⟩

instance : Tolerant CommandError := by
  refine tolerant_record rfl (readsRecord (fun _ _ => rfl) (by decide) ?_)
  exact .requiredPlain fun _ => .requiredPlain fun _ => .done _

/-! ## Updates -/

namespace UserChanges

def shapeFields : ShapeFields :=
  [("firstName", false, .plain), ("lastName", false, .plain), ("email", false, .plain),
   ("phone", false, .plain), ("age", false, .plain), ("status", false, .plain)]

/-- The fields of changes are read one after another. -/
theorem ofFields?_eq (status? : Tree → Option (Option UserStatus)) (f : Fields) (room : Nat) :
    ofFields? status? f room =
      (f.optional room "firstName").bind fun firstName =>
      (f.optional room "lastName").bind fun lastName =>
      (f.optional room "email").bind fun email =>
      (f.optional room "phone").bind fun phone =>
      (f.optional room "age").bind fun age =>
      (match f.lookup "status" with
        | none => some none
        | some t => status? t).bind fun status =>
      some ⟨firstName, lastName, email, phone, age, status⟩ := by
  unfold ofFields?
  cases f.lookup "status" <;> rfl

/-- Changes are picked field by field, with any reader of a status that takes null for none. -/
theorem picks {status? : Nat → Tree → Option (Option UserStatus)}
    (hnull : ∀ room, status? room .null = some none) :
    Picks shapeFields fun room f => ofFields? (status? room) f room := by
  have hstatus : Reader false .plain fun room t? =>
      match t? with
      | none => some none
      | some t => status? room t :=
    reader_plain nofun fun _ room => hnull room
  simp only [ofFields?_eq]
  exact .optionalPlain fun _ => .optionalPlain fun _ => .optionalPlain fun _ =>
    .optionalPlain fun _ => .optionalPlain fun _ => .field hstatus fun _ => .done _

theorem readsRecord : Json.ReadsRecord UserChanges none shapeFields fun room f =>
    ofFields? (ofTree? room) f room :=
  Json.readsRecord (fun _ _ => rfl) (by decide) (picks fun _ => rfl)

end UserChanges

instance : Shaped UserChanges := ⟨.record none UserChanges.shapeFields⟩

instance : Tolerant UserChanges := tolerant_record rfl UserChanges.readsRecord

namespace UpdateRequest

/-- The status among the members that were kept. -/
def keptStatus? : Tree → Option (Option UserStatus)
  | .null => some none
  | t => (UserStatus.ofKept? t).map some

/-- An update from the members in which its identifier and its changes are looked up. -/
def pickApart (room : Nat) (ids changes : Fields) : Option UpdateRequest :=
  (ids.required room "id").bind fun id =>
  (UserChanges.ofFields? keptStatus? changes room).bind fun changes => some ⟨id, changes⟩

/-- An update that is picked from one list of members. -/
def pick (room : Nat) (f : Fields) : Option UpdateRequest := pickApart room f f

def shapeFields : ShapeFields := ("id", true, .plain) :: UserChanges.shapeFields

theorem picks : Picks shapeFields pick :=
  .requiredPlain fun id => (UserChanges.picks fun _ => rfl).map (UpdateRequest.mk id)

/-- Identifier and changes are found among the members for each as they are among all. -/
theorem pickApart_eq (room : Nat) (f : Fields) :
    pickApart room (f.filter fun m => ["id"].contains m.1)
      ((f.filter fun m => m.1 != "id").filter fun m => UserChanges.fieldNames.contains m.1) =
        pick room f := by
  have hid : (f.filter fun m => ["id"].contains m.1).lookup "id" = f.lookup "id" :=
    Fields.lookup_filter (p := (["id"].contains ·)) rfl f
  have hlike : Json.Like UserChanges.shapeFields room f
      ((f.filter fun m => m.1 != "id").filter fun m => UserChanges.fieldNames.contains m.1) := by
    intro field hfield
    have hname : field.1 ∈ UserChanges.fieldNames := List.mem_map_of_mem hfield
    have hne : field.1 ≠ "id" := by
      intro h
      rw [h] at hname
      exact absurd hname (by decide)
    rw [Fields.lookup_filter (List.contains_iff_mem.mpr hname),
      Fields.lookup_filter (p := (· != "id")) (bne_iff_ne.mpr hne)]
    exact .same _
  -- the changes are looked up alike, hence picked alike
  have hpicks : Picks UserChanges.shapeFields fun room f =>
      UserChanges.ofFields? keptStatus? f room := UserChanges.picks fun _ => rfl
  rw [pick, pickApart, pickApart, Fields.required, Fields.required, hid]
  refine Option.bind_congr fun id _ => ?_
  rw [hpicks.unnoticed hlike]

/-- All members but the identifier are kept. -/
theorem kept_iff {room : Nat} {f : Fields} :
    Json.Kept (some "id") room f ↔
      ((f.filter fun m => m.1 != "id").all fun m =>
        (Json.Value.ofTree? (room - 1) m.2).isSome) = true := by
  simp only [Json.Kept, Option.mem_some_iff, forall_eq', List.all_eq_true, List.mem_filter,
    bne_iff_ne, and_imp]

theorem readsRecord : Json.ReadsRecord UpdateRequest (some "id") shapeFields pick := by
  have hplain : ∀ field ∈ shapeFields, field.2.2 = .plain := by
    simp [shapeFields, UserChanges.shapeFields]
  refine ⟨by decide, fun _ => hplain, picks, fun room ms r => ?_⟩
  have hof : (ofTree? room (.object ms) : Option UpdateRequest) =
      (Fields.ofMembers? ms).bind fun f =>
      (Fields.known? ["id"] f).bind fun ids =>
      if (f.filter fun m => m.1 != "id").all fun m =>
          (Json.Value.ofTree? (room - 1) m.2).isSome then
        (Fields.known? UserChanges.fieldNames (f.filter fun m => m.1 != "id")).bind fun fields =>
        pickApart room ids fields
      else none := rfl
  have hid : "id" ∉ UserChanges.fieldNames := by decide
  have hnames : shapeFields.names = "id" :: UserChanges.fieldNames := rfl
  rw [hof, Fields.bind_ofMembers?_eq_some_iff, Fields.bind_known?_eq_some_iff,
    Option.ite_none_right_eq_some, Fields.bind_known?_eq_some_iff, pickApart_eq, ← kept_iff,
    hnames, Json.Fields.Readable, Fields.once_cons_iff hid]
  -- the conditions are the same on both sides, but are checked in another order
  constructor
  · rintro ⟨hspelled, honce, hkept, hrest, hpicked⟩
    exact ⟨⟨hspelled, honce, hrest⟩, hkept, hpicked⟩
  · rintro ⟨⟨hspelled, honce, hrest⟩, hkept, hpicked⟩
    exact ⟨hspelled, honce, hkept, hrest, hpicked⟩

end UpdateRequest

instance : Shaped UpdateRequest := ⟨.record (some "id") UpdateRequest.shapeFields⟩

instance : Tolerant UpdateRequest := tolerant_record rfl UpdateRequest.readsRecord

/-! ## Envelopes -/

variable {α : Type}

/-- Data that stand for a missing member are also what null is read as. -/
class OmissibleAsNull (α : Type) [OfTree α] [Omissible α] : Prop where
  ofTree?_null : ∀ a ∈ (Omissible.missing? : Option α), ∀ room, ofTree? room .null = some a

instance (priority := low) [OfTree α] : OmissibleAsNull α := ⟨nofun⟩

instance [OfTree α] : OmissibleAsNull (Option α) := by
  refine ⟨fun a ha room => ?_⟩
  obtain rfl := Option.some.inj ha
  rfl

instance [OfTree α] [Omissible α] [Shaped α] : Shaped (CommandRequest α) :=
  ⟨.record none
    [("requestId", true, .plain), ("data", (Omissible.missing? : Option α).isNone, shape α)]⟩

section CommandRequest

variable [OfTree α] [Omissible α]

/-- Data are read as those of a required field, unless something stands for a missing member. -/
theorem reader_data [Shaped α] [Tolerant α] [OmissibleAsNull α] :
    Reader (Omissible.missing? : Option α).isNone (shape α) fun room d? =>
      match d? with
      | none => (Omissible.missing? : Option α)
      | some d => ofTree? (room - 1) d := by
  refine ⟨fun {room d? d?'} h => ?_, fun {room d?} h => ?_⟩
  · generalize hmust : (Omissible.missing? : Option α).isNone = must at h
    cases h with
    | same => rfl
    | nulled =>
      -- the field may be missing, so something stands for it, and null is read as that
      obtain ⟨a, ha⟩ := Option.isSome_iff_exists.mp (Option.isNone_eq_false_iff.mp hmust)
      show (ofTree? (room - 1) .null : Option α) = Omissible.missing?
      rw [OmissibleAsNull.ofTree?_null a ha, ha]
    | altered h => exact Tolerant.unnoticed h
  · generalize hmust : (Omissible.missing? : Option α).isNone = must at h
    cases h with
    | missing => exact Option.isNone_iff_eq_none.mp hmust
    | broken h => exact Tolerant.refused h

/-- How a request is picked from its fields. -/
def CommandRequest.pick (room : Nat) (f : Fields) : Option (CommandRequest α) :=
  (f.required room "requestId").bind fun requestId =>
  (match f.lookup "data" with
    | none => Omissible.missing?
    | some d => ofTree? (room - 1) d).bind fun data => some ⟨requestId, data⟩

theorem CommandRequest.readsRecord [Shaped α] [Tolerant α] [OmissibleAsNull α] :
    Json.ReadsRecord (CommandRequest α) none
      [("requestId", true, .plain), ("data", (Omissible.missing? : Option α).isNone, shape α)]
      CommandRequest.pick := by
  have hreads : ∀ (room : Nat) (ms : List (Octets × Tree)),
      (ofTree? room (.object ms) : Option (CommandRequest α)) =
        (Fields.ofTree? ["requestId", "data"] (.object ms)).bind (CommandRequest.pick room) := by
    intro room ms
    refine Option.bind_congr fun f _ => Option.bind_congr fun requestId _ => ?_
    show (Envelope.data? f room (.object ms)).bind _ = _
    unfold Envelope.data?
    cases f.lookup "data" <;> rfl
  have hnodup : ["requestId", "data"].Nodup := by decide
  refine Json.readsRecord hreads hnodup ?_
  exact .requiredPlain fun _ => .field reader_data fun _ => .done _

instance [Shaped α] [Tolerant α] [OmissibleAsNull α] : Tolerant (CommandRequest α) :=
  tolerant_record rfl CommandRequest.readsRecord

end CommandRequest

instance [Shaped α] : Shaped (CommandResponse α) :=
  ⟨.record none
    [("ok", true, .plain), ("data", false, shape α), ("error", false, shape CommandError)]⟩

instance [OfTree α] [Shaped α] [Tolerant α] : Tolerant (CommandResponse α) := by
  -- that all three fields must be there holds for arrays only
  have hreads : ∀ (room : Nat) (ms : List (Octets × Tree)),
      (ofTree? room (.object ms) : Option (CommandResponse α)) =
        (Fields.ofTree? ["ok", "data", "error"] (.object ms)).bind fun f =>
          (f.required room "ok").bind fun ok =>
          (f.optional (room - 1) "data").bind fun data =>
          (f.optional (room - 1) "error").bind fun error => some ⟨ok, data, error⟩ :=
    fun _ _ => rfl
  have hnodup : ["ok", "data", "error"].Nodup := by decide
  refine tolerant_record rfl (readsRecord hreads hnodup ?_)
  exact .requiredPlain fun _ => .optional fun _ => .optional fun _ => .done _

instance [Shaped α] : Shaped (Event α) :=
  ⟨.record none
    [("eventId", true, .plain), ("type", true, .plain), ("occurredAt", true, .plain),
     ("data", true, shape α)]⟩

instance [OfTree α] [Shaped α] [Tolerant α] : Tolerant (Event α) := by
  have hnodup : ["eventId", "type", "occurredAt", "data"].Nodup := by decide
  have hstamp : Reader true .plain fun room t? =>
      (t?.bind (ofTree? room : Tree → Option String)).bind Time.ofSecondStamp? :=
    reader_plain (fun _ _ => rfl) nofun
  refine tolerant_record rfl (readsRecord (fun _ _ => rfl) hnodup ?_)
  exact .requiredPlain fun _ => .requiredPlain fun _ => .field hstamp fun _ =>
    .required fun _ => .done _

/-! ## Forward compatibility -/

section

variable [ToTree α] [OfTree α] [Json.Lawful α] [Shaped α] [Tolerant α]

theorem forwardCompatible_payload : ForwardCompatible α fun _ => True :=
  Json.forwardCompatible fun a _ => faithful a

theorem forwardCompatible_commandRequest [Omissible α] [OmissibleAsNull α] :
    ForwardCompatible (CommandRequest α) fun _ => True :=
  Json.forwardCompatible fun r _ => faithful r

theorem forwardCompatible_commandResponse [Json.NeverNull α] :
    ForwardCompatible (CommandResponse α) CommandResponse.Proper :=
  Json.forwardCompatible fun _ hr => hr.faithful

theorem forwardCompatible_event :
    ForwardCompatible (Event α) fun e => e.occurredAt.nano = 0 :=
  Json.forwardCompatible fun _ htime => faithful_event (faithful _) htime

end

theorem forwardCompatible_commandResponse_unit :
    ForwardCompatible (CommandResponse Unit) fun r => r.Proper ∧ r.data = none :=
  Json.forwardCompatible fun _ hr => hr.1.faithful_of_none hr.2

theorem forwardCompatible_commandError :
    ForwardCompatible CommandError fun e => e.code.Proper :=
  Json.forwardCompatible fun _ he => faithful_commandError he

/-- **Everything that travels is forward compatible**, and so is every payload by itself: its
members may come in any order, with null where a field is missing and with members that are no
fields, and are still read as the same value; but nothing is read where a field is twice or a
required one is missing. -/
theorem forwardCompatible_of_all :
    ForwardCompatible (CommandRequest NewUser) (fun _ => True) ∧
    ForwardCompatible (CommandRequest UpdateRequest) (fun _ => True) ∧
    ForwardCompatible (CommandRequest UserChanges) (fun _ => True) ∧
    ForwardCompatible (CommandRequest IdRequest) (fun _ => True) ∧
    ForwardCompatible (CommandRequest (Option ListRequest)) (fun _ => True) ∧
    ForwardCompatible (CommandResponse User) CommandResponse.Proper ∧
    ForwardCompatible (CommandResponse (List User)) CommandResponse.Proper ∧
    ForwardCompatible (CommandResponse Deletion) CommandResponse.Proper ∧
    ForwardCompatible (CommandResponse Unit) (fun r => r.Proper ∧ r.data = none) ∧
    ForwardCompatible (Event User) (fun e => e.occurredAt.nano = 0) ∧
    ForwardCompatible (Event DeletedUser) (fun e => e.occurredAt.nano = 0) ∧
    ForwardCompatible User (fun _ => True) ∧ ForwardCompatible NewUser (fun _ => True) ∧
    ForwardCompatible UserChanges (fun _ => True) ∧
    ForwardCompatible UpdateRequest (fun _ => True) ∧
    ForwardCompatible IdRequest (fun _ => True) ∧ ForwardCompatible ListRequest (fun _ => True) ∧
    ForwardCompatible Deletion (fun _ => True) ∧ ForwardCompatible DeletedUser (fun _ => True) ∧
    ForwardCompatible CommandError (fun e => e.code.Proper) :=
  ⟨forwardCompatible_commandRequest, forwardCompatible_commandRequest,
    forwardCompatible_commandRequest, forwardCompatible_commandRequest,
    forwardCompatible_commandRequest, forwardCompatible_commandResponse,
    forwardCompatible_commandResponse, forwardCompatible_commandResponse,
    forwardCompatible_commandResponse_unit, forwardCompatible_event, forwardCompatible_event,
    forwardCompatible_payload, forwardCompatible_payload, forwardCompatible_payload,
    forwardCompatible_payload, forwardCompatible_payload, forwardCompatible_payload,
    forwardCompatible_payload, forwardCompatible_payload, forwardCompatible_commandError⟩

end UserDirectory
