import UserDirectory.Proofs.Envelope
import UserDirectory.Proofs.Json.Keys

/-!
# The wire forms of the envelopes

Everything that travels is one of three envelopes around one of a few payloads. A payload lists its
optional fields by name; an envelope lists its own and puts those of its data under `data`.

What a type cannot say about a value is what no reader ever gives: a known error code kept as
another one, a time between two seconds, and data in a response that carries none. Values without
these are given back by their documents, and a reader gives only such values, so what is written for
something that was read is the one spelling of it.
-/

namespace UserDirectory

open Json (ToTree OfTree Fields Tree Record Faithful Optionals Shown WireForm Turn toTree ofTree?
  faithful optionals under)

/-! ## Payloads -/

/-- Fields with these names stand at the top of a document. -/
def atTop (fields : List (String × Bool)) : List (Json.Path × Bool) :=
  fields.map fun f => ([.key f.1], f.2)

instance : Optionals User :=
  ⟨fun u => atTop [("phone", u.phone.isSome), ("age", u.age.isSome)]⟩

instance : Shown User := by
  refine ⟨fun u => u.toTree_eq ▸ Json.shows_record u.record_nodup ?_⟩
  simp [User.record]

instance : Optionals NewUser :=
  ⟨fun u => atTop
    [("phone", u.phone.isSome), ("age", u.age.isSome), ("status", u.status.isSome)]⟩

instance : Shown NewUser := by
  refine ⟨fun u => u.toTree_eq ▸ Json.shows_record u.record_nodup ?_⟩
  simp [NewUser.record]

/-- The fields of an update that are there. -/
def UserChanges.present (c : UserChanges) : List (String × Bool) :=
  [("firstName", c.firstName.isSome), ("lastName", c.lastName.isSome), ("email", c.email.isSome),
   ("phone", c.phone.isSome), ("age", c.age.isSome), ("status", c.status.isSome)]

theorem UserChanges.exists_mem_record (c : UserChanges) :
    ∀ f ∈ c.present, ∃ t?, (f.1, t?) ∈ c.record ∧ t?.isSome = f.2 := by
  simp [present, record]

instance : Optionals UserChanges := ⟨fun c => atTop c.present⟩

instance : Shown UserChanges := by
  refine ⟨fun c => ?_⟩
  show Json.Shows (.object c.members) _
  exact c.members_eq ▸ Json.shows_record c.record_nodup c.exists_mem_record

instance : Optionals UpdateRequest := ⟨fun r => atTop r.changes.present⟩

instance : Shown UpdateRequest := by
  refine ⟨fun r => r.toTree_eq ▸ Json.shows_record r.record_nodup fun f hf => ?_⟩
  obtain ⟨t?, ht, hthere⟩ := r.changes.exists_mem_record f hf
  exact ⟨t?, List.mem_cons_of_mem _ ht, hthere⟩

instance : Optionals IdRequest := ⟨fun _ => []⟩

instance : Shown IdRequest := ⟨fun _ => Json.shows_nil _⟩

instance : Optionals ListRequest := ⟨fun _ => []⟩

instance : Shown ListRequest := ⟨fun _ => Json.shows_nil _⟩

instance : Optionals Deletion := ⟨fun _ => []⟩

instance : Shown Deletion := ⟨fun _ => Json.shows_nil _⟩

instance : Optionals DeletedUser := ⟨fun _ => []⟩

instance : Shown DeletedUser := ⟨fun _ => Json.shows_nil _⟩

instance : Optionals Unit := ⟨fun _ => []⟩

instance : Shown Unit := ⟨fun _ => Json.shows_nil _⟩

/-! ## Envelopes -/

variable {α : Type}

instance [Optionals α] : Optionals (CommandRequest α) :=
  ⟨fun r => under (.key "data") (optionals r.data)⟩

instance [ToTree α] [Optionals α] [Shown α] : Shown (CommandRequest α) := by
  refine ⟨fun r => (Shown.shows r.data).under ?_⟩
  exact Tree.child?_members r.record_nodup (by simp [CommandRequest.record])

instance [Optionals α] : Optionals (CommandResponse α) :=
  ⟨fun r => atTop [("data", r.data.isSome), ("error", r.error.isSome)] ++
    under (.key "data") (optionals r.data)⟩

instance [ToTree α] [Optionals α] [Shown α] : Shown (CommandResponse α) := by
  refine ⟨fun r => ?_⟩
  have htop : Json.Shows (toTree r) (atTop [("data", r.data.isSome), ("error", r.error.isSome)]) :=
    r.toTree_eq ▸ Json.shows_record r.record_nodup (by simp [CommandResponse.record])
  refine htop.append ?_
  cases hdata : r.data with
  | none => exact Json.shows_nil _
  | some a =>
    refine (Shown.shows a).under ?_
    rw [r.toTree_eq]
    exact Tree.child?_members r.record_nodup (by simp [CommandResponse.record, hdata])

instance [Optionals α] : Optionals (Event α) := ⟨fun e => under (.key "data") (optionals e.data)⟩

instance [ToTree α] [Optionals α] [Shown α] : Shown (Event α) := by
  refine ⟨fun e => (Shown.shows e.data).under ?_⟩
  exact Tree.child?_members e.record_nodup (by simp [Event.record])

/-! ## What a reader gives -/

theorem ErrorCode.proper_ofText (code : String) : (ErrorCode.ofText code).Proper := by
  rw [Proper, text_ofText]

/-- The codes that have a meaning of their own. -/
def ErrorCode.known : List String := ["BAD_REQUEST", "NOT_FOUND", "INTERNAL"]

/-- A code is proper unless it is a known one that is kept as another. -/
theorem ErrorCode.proper_iff {c : ErrorCode} :
    c.Proper ↔ ∀ code, c = .other code → code ∉ known := by
  cases c with
  | badRequest => simp [Proper, text, ofText]
  | notFound => simp [Proper, text, ofText]
  | internal => simp [Proper, text, ofText]
  | other code =>
    simp only [Proper, text, other.injEq, forall_eq', known, List.mem_cons, List.not_mem_nil,
      or_false]
    unfold ofText
    grind

theorem CommandError.proper_of_read {room : Nat} {t : Tree} {e : CommandError}
    (h : ofTree? room t = some e) : e.code.Proper := by
  simp only [ofTree?, Option.bind_eq_bind, Option.bind_eq_some_iff] at h
  obtain ⟨fields, -, code, hcode, message, -, he⟩ := h
  obtain rfl := Option.some.inj he
  obtain ⟨t, -, ht⟩ := Option.bind_eq_some_iff.mp hcode
  obtain ⟨text, -, rfl⟩ := Option.map_eq_some_iff.mp ht
  exact ErrorCode.proper_ofText text

/-- An optional field that is there was read from a tree that is not null. -/
theorem exists_tree_of_optional [OfTree α] {fields : Fields} {room : Nat} {name : String} {a : α}
    (h : fields.optional room name = some (some a)) :
    ∃ t : Tree, t ≠ .null ∧ ofTree? room t = some a := by
  simp only [Fields.optional, Fields.withDefault] at h
  split at h
  · cases h
  · rename_i t _
    by_cases ht : t = .null
    · subst ht
      cases h
    · rw [Json.ofTree?_option ht] at h
      obtain ⟨a', ha', heq⟩ := Option.map_eq_some_iff.mp h
      exact ⟨t, ht, Option.some.inj heq ▸ ha'⟩

/-- The data and the error of a response are read as optional fields. -/
theorem CommandResponse.exists_fields [OfTree α] {room : Nat} {t : Tree} {r : CommandResponse α}
    (h : ofTree? room t = some r) :
    ∃ fields : Fields, fields.optional (room - 1) "data" = some r.data ∧
      fields.optional (room - 1) "error" = some r.error := by
  simp only [ofTree?, Option.bind_eq_bind, Option.bind_eq_some_iff] at h
  obtain ⟨fields, -, h⟩ := h
  -- whether the fields were in an array makes no difference once enough of them are there
  have hread : (do
      return {
        ok := ← fields.required room "ok"
        data := ← fields.optional (room - 1) "data"
        error := ← fields.optional (room - 1) "error" }) = some r := by
    split at h
    · split at h
      · exact nomatch h
      · exact h
    · exact h
  simp only [Option.bind_eq_bind, Option.bind_eq_some_iff] at hread
  obtain ⟨ok, -, data, hdata, error, herror, hr⟩ := hread
  obtain rfl := Option.some.inj hr
  exact ⟨fields, hdata, herror⟩

/-- The responses whose error, if any, has no known code that is kept as another. -/
def CommandResponse.Proper (r : CommandResponse α) : Prop :=
  ∀ e ∈ r.error, ∀ code, e.code = .other code → code ∉ ErrorCode.known

theorem CommandResponse.Proper.faithful_error {r : CommandResponse α} (h : r.Proper) :
    ∀ e ∈ r.error, Faithful e :=
  fun e he => faithful_commandError (ErrorCode.proper_iff.mpr (h e he))

theorem CommandResponse.Proper.faithful [ToTree α] [OfTree α] [Json.Lawful α] [Json.NeverNull α]
    {r : CommandResponse α} (h : r.Proper) : Faithful r :=
  faithful_commandResponse (fun a _ => Json.toTree_ne_null a) (fun a _ => Json.faithful a)
    h.faithful_error

/-- A response without data, whether or not its data could be told from none. -/
theorem CommandResponse.Proper.faithful_of_none [ToTree α] [OfTree α] {r : CommandResponse α}
    (h : r.Proper) (hdata : r.data = none) : Faithful r := by
  have hnone : ∀ a, a ∉ r.data := by simp [hdata]
  exact faithful_commandResponse (fun a ha => absurd ha (hnone a))
    (fun a ha => absurd ha (hnone a)) h.faithful_error

theorem CommandResponse.proper_of_read [OfTree α] {room : Nat} {t : Tree} {r : CommandResponse α}
    (h : ofTree? room t = some r) : r.Proper := by
  obtain ⟨fields, -, herror⟩ := exists_fields h
  intro e he
  rw [Option.mem_def] at he
  rw [he] at herror
  obtain ⟨u, -, hu⟩ := exists_tree_of_optional herror
  exact ErrorCode.proper_iff.mp (CommandError.proper_of_read hu)

/-- Nothing but null is read as the data of a response that carries none, and null is no data. -/
theorem CommandResponse.data_eq_none_of_read {room : Nat} {t : Tree} {r : CommandResponse Unit}
    (h : ofTree? room t = some r) : r.data = none := by
  obtain ⟨fields, hdata, -⟩ := exists_fields h
  cases hr : r.data with
  | none => rfl
  | some a =>
    rw [hr] at hdata
    obtain ⟨u, hne, hu⟩ := exists_tree_of_optional hdata
    cases u with
    | null => exact absurd rfl hne
    | _ => exact nomatch hu

theorem Time.nano_of_ofSecondStamp? {s : String} {t : Time.Instant}
    (h : Time.ofSecondStamp? s = some t) : t.nano = 0 := by
  simp only [ofSecondStamp?, Option.bind_eq_bind, Option.bind_eq_some_iff] at h
  obtain ⟨⟨reading, rest⟩, -, h⟩ := h
  split at h
  · simp only [Reading.instant?, Option.bind_eq_bind, Option.bind_eq_some_iff] at h
    obtain ⟨date, -, h⟩ := h
    split at h
    · obtain rfl := Option.some.inj h
      rfl
    · cases h
  · cases h

theorem Event.nano_of_read [OfTree α] {room : Nat} {t : Tree} {e : Event α}
    (h : ofTree? room t = some e) : e.occurredAt.nano = 0 := by
  simp only [ofTree?, Option.bind_eq_bind, Option.bind_eq_some_iff] at h
  obtain ⟨fields, -, id, -, type, -, time, htime, data, -, he⟩ := h
  obtain rfl := Option.some.inj he
  obtain ⟨stamp, -, hstamp⟩ := htime
  exact Time.nano_of_ofSecondStamp? hstamp

/-! ## Wire forms -/

theorem wireForm_commandRequest [ToTree α] [OfTree α] [Omissible α] [Json.Lawful α] [Optionals α]
    [Shown α] : WireForm (CommandRequest α) fun _ => True :=
  Json.wireForm (fun r _ => faithful r) (fun _ _ _ _ => trivial)

theorem wireForm_commandResponse [ToTree α] [OfTree α] [Json.Lawful α] [Json.NeverNull α]
    [Optionals α] [Shown α] : WireForm (CommandResponse α) CommandResponse.Proper :=
  Json.wireForm (fun _ hr => hr.faithful) (fun _ _ _ h => CommandResponse.proper_of_read h)

theorem wireForm_commandResponse_unit :
    WireForm (CommandResponse Unit) fun r => r.Proper ∧ r.data = none :=
  Json.wireForm (fun _ hr => hr.1.faithful_of_none hr.2)
    (fun _ _ _ h =>
      ⟨CommandResponse.proper_of_read h, CommandResponse.data_eq_none_of_read h⟩)

theorem wireForm_event [ToTree α] [OfTree α] [Json.Lawful α] [Optionals α] [Shown α] :
    WireForm (Event α) fun e => e.occurredAt.nano = 0 :=
  Json.wireForm (fun _ htime => faithful_event (faithful _) htime)
    (fun _ _ _ h => Event.nano_of_read h)

/-- **Everything that travels has a wire form**: its documents give its proper values back, have
the keys of just those optional fields that are there, are read as proper values only whatever the
octets are, and have one normal form for each value. -/
theorem wireForm_of_all :
    WireForm (CommandRequest NewUser) (fun _ => True) ∧
    WireForm (CommandRequest UpdateRequest) (fun _ => True) ∧
    WireForm (CommandRequest UserChanges) (fun _ => True) ∧
    WireForm (CommandRequest IdRequest) (fun _ => True) ∧
    WireForm (CommandRequest (Option ListRequest)) (fun _ => True) ∧
    WireForm (CommandResponse User) CommandResponse.Proper ∧
    WireForm (CommandResponse (List User)) CommandResponse.Proper ∧
    WireForm (CommandResponse Deletion) CommandResponse.Proper ∧
    WireForm (CommandResponse Unit) (fun r => r.Proper ∧ r.data = none) ∧
    WireForm (Event User) (fun e => e.occurredAt.nano = 0) ∧
    WireForm (Event DeletedUser) (fun e => e.occurredAt.nano = 0) :=
  ⟨wireForm_commandRequest, wireForm_commandRequest, wireForm_commandRequest,
    wireForm_commandRequest, wireForm_commandRequest, wireForm_commandResponse,
    wireForm_commandResponse, wireForm_commandResponse, wireForm_commandResponse_unit,
    wireForm_event, wireForm_event⟩

end UserDirectory
