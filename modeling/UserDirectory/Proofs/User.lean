import UserDirectory.Proofs.Json.Codec
import UserDirectory.Proofs.Time.Timestamp
import UserDirectory.Proofs.Uuid
import UserDirectory.User

/-!
# Users and inputs are given back by their documents

Every user, every input of a creation and every set of changes is faithful: absent fields stay
absent, texts keep every character and moments every digit. For each type the record that it is
written as is listed, and the rest is looking its fields up.
-/

namespace UserDirectory

open Json (ToTree OfTree Fields Tree Lawful NeverNull Record Faithful toTree ofTree? faithful)

/-! ## Fields -/

theorem Age.ofInt?_toInt (age : Age) : Age.ofInt? age.toInt = some age := by
  have hlow := Int32.le_toInt age
  have hhigh := Int32.toInt_lt age
  rw [Age.ofInt?, if_pos ⟨by omega, by omega⟩, Int32.ofInt_toInt]

instance : Lawful Age := by
  refine ⟨fun age => ⟨Json.Numeral.wellFormed_ofInt age.toInt, fun room => ?_⟩⟩
  show (Json.Numeral.ofInt age.toInt).int?.bind Age.ofInt? = some age
  rw [Json.Numeral.int?_ofInt, Option.bind_some, Age.ofInt?_toInt]

instance : NeverNull Age := ⟨fun _ h => nomatch h⟩

theorem UserStatus.ofRaw?_escape (s : UserStatus) :
    UserStatus.ofRaw? (Json.Quoted.escape s.word) = some s := by
  rw [UserStatus.ofRaw?, Json.Quoted.text?_escape, Option.bind_some, UserStatus.ofWord_word]
  rfl

instance : Lawful UserStatus :=
  ⟨fun s => ⟨Json.Quoted.closed_escape s.word, fun _ => s.ofRaw?_escape⟩⟩

instance : NeverNull UserStatus := ⟨fun _ h => nomatch h⟩

@[simp] theorem UserId.parse?_text (id : UserId) : UserId.parse? id.text = some id := by
  rw [UserId.parse?, UserId.text, Uuid.parse?_text]
  rfl

instance : Lawful UserId := by
  refine ⟨fun id => ⟨Json.Quoted.closed_escape id.text, fun room => ?_⟩⟩
  show (ofTree? room (toTree id.text)).bind UserId.parse? = some id
  rw [(faithful id.text).ofTree?_toTree, Option.bind_some, UserId.parse?_text]

instance : Lawful Time.Instant := by
  refine ⟨fun t => ⟨Json.Quoted.closed_escape (Time.exact t), fun room => ?_⟩⟩
  show (ofTree? room (toTree (Time.exact t))).bind Time.ofExact? = some t
  rw [(faithful (Time.exact t)).ofTree?_toTree, Option.bind_some, Time.ofExact?_exact]

/-! ## Users -/

namespace User

/-- The fields of a user as they are written. -/
def record (u : User) : Record :=
  [("userId", some (toTree u.id)), ("firstName", some (toTree u.firstName)),
   ("lastName", some (toTree u.lastName)), ("email", some (toTree u.email)),
   ("phone", u.phone.map toTree), ("age", u.age.map toTree), ("status", some (toTree u.status)),
   ("createdAt", some (toTree u.createdAt)), ("updatedAt", some (toTree u.updatedAt))]

theorem toTree_eq (u : User) : toTree u = .object u.record.members := by
  show Tree.object _ = _
  simp only [Record.member_eq, Record.optionalMember_eq, ← Record.members_append]
  rfl

theorem record_nodup (u : User) : u.record.names.Nodup := by
  show fieldNames.Nodup
  decide

theorem record_wellFormed (u : User) : u.record.WellFormed :=
  .required (faithful _) <| .required (faithful _) <| .required (faithful _) <|
  .required (faithful _) <| .optional (fun _ _ => faithful _) <|
  .optional (fun _ _ => faithful _) <| .required (faithful _) <| .required (faithful _) <|
  .required (faithful _) .nil

end User

instance : Lawful User := by
  refine ⟨fun u => ⟨?_, fun room => ?_⟩⟩
  · rw [u.toTree_eq]
    exact u.record_wellFormed.membersWellFormed
  · have h := u.record_nodup
    have hfields : Fields.ofTree? User.fieldNames (.object u.record.members) =
        some u.record.fields := Record.ofTree?_members h
    have hid := Record.required_fields h "userId" u.id (faithful _) (by simp [User.record]) room
    have hfirst := Record.required_fields h "firstName" u.firstName (faithful _)
      (by simp [User.record]) room
    have hlast := Record.required_fields h "lastName" u.lastName (faithful _)
      (by simp [User.record]) room
    have hemail := Record.required_fields h "email" u.email (faithful _)
      (by simp [User.record]) room
    have hphone := Record.optional_fields h "phone" u.phone (fun _ _ => faithful _)
      (by simp [User.record]) room
    have hage := Record.optional_fields h "age" u.age (fun _ _ => faithful _)
      (by simp [User.record]) room
    have hstatus := Record.required_fields h "status" u.status (faithful _)
      (by simp [User.record]) room
    have hcreated := Record.required_fields h "createdAt" u.createdAt (faithful _)
      (by simp [User.record]) room
    have hupdated := Record.required_fields h "updatedAt" u.updatedAt (faithful _)
      (by simp [User.record]) room
    rw [u.toTree_eq]
    simp only [ofTree?, hfields, Option.bind_eq_bind, Option.bind_some, hid, hfirst, hlast, hemail,
      hphone, hage, hstatus, hcreated, hupdated]
    rfl

instance : NeverNull User := ⟨fun _ h => nomatch h⟩

/-! ## Inputs -/

namespace NewUser

/-- The fields of the input of a creation as they are written. -/
def record (u : NewUser) : Record :=
  [("firstName", some (toTree u.firstName)), ("lastName", some (toTree u.lastName)),
   ("email", some (toTree u.email)), ("phone", u.phone.map toTree), ("age", u.age.map toTree),
   ("status", u.status.map toTree)]

theorem toTree_eq (u : NewUser) : toTree u = .object u.record.members := by
  show Tree.object _ = _
  simp only [Record.member_eq, Record.optionalMember_eq, ← Record.members_append]
  rfl

theorem record_nodup (u : NewUser) : u.record.names.Nodup := by
  show fieldNames.Nodup
  decide

theorem record_wellFormed (u : NewUser) : u.record.WellFormed :=
  .required (faithful _) <| .required (faithful _) <| .required (faithful _) <|
  .optional (fun _ _ => faithful _) <| .optional (fun _ _ => faithful _) <|
  .optional (fun _ _ => faithful _) .nil

end NewUser

instance : Lawful NewUser := by
  refine ⟨fun u => ⟨?_, fun room => ?_⟩⟩
  · rw [u.toTree_eq]
    exact u.record_wellFormed.membersWellFormed
  · have h := u.record_nodup
    have hfields : Fields.ofTree? NewUser.fieldNames (.object u.record.members) =
        some u.record.fields := Record.ofTree?_members h
    have hfirst := Record.required_fields h "firstName" u.firstName (faithful _)
      (by simp [NewUser.record]) room
    have hlast := Record.required_fields h "lastName" u.lastName (faithful _)
      (by simp [NewUser.record]) room
    have hemail := Record.required_fields h "email" u.email (faithful _)
      (by simp [NewUser.record]) room
    have hphone := Record.optional_fields h "phone" u.phone (fun _ _ => faithful _)
      (by simp [NewUser.record]) room
    have hage := Record.optional_fields h "age" u.age (fun _ _ => faithful _)
      (by simp [NewUser.record]) room
    have hstatus := Record.optional_fields h "status" u.status (fun _ _ => faithful _)
      (by simp [NewUser.record]) room
    rw [u.toTree_eq]
    simp only [ofTree?, hfields, Option.bind_eq_bind, Option.bind_some, hfirst, hlast, hemail,
      hphone, hage, hstatus]
    rfl

namespace UserChanges

/-- The fields of changes as they are written. -/
def record (c : UserChanges) : Record :=
  [("firstName", c.firstName.map toTree), ("lastName", c.lastName.map toTree),
   ("email", c.email.map toTree), ("phone", c.phone.map toTree), ("age", c.age.map toTree),
   ("status", c.status.map toTree)]

theorem members_eq (c : UserChanges) : c.members = c.record.members := by
  simp only [members, Record.optionalMember_eq, ← Record.members_append]
  rfl

theorem record_nodup (c : UserChanges) : c.record.names.Nodup := by
  show fieldNames.Nodup
  decide

theorem record_wellFormed (c : UserChanges) : c.record.WellFormed :=
  .optional (fun _ _ => faithful _) <| .optional (fun _ _ => faithful _) <|
  .optional (fun _ _ => faithful _) <| .optional (fun _ _ => faithful _) <|
  .optional (fun _ _ => faithful _) <| .optional (fun _ _ => faithful _) .nil

/-- Changes are picked from their fields, whichever reader of a status is used. -/
theorem ofFields?_record {status? : Tree → Option (Option UserStatus)}
    (hstatus? : ∀ s : UserStatus, status? (toTree s) = some (some s)) (c : UserChanges)
    (room : Nat) : ofFields? status? c.record.fields room = some c := by
  have h := c.record_nodup
  have hfirst := Record.optional_fields h "firstName" c.firstName (fun _ _ => faithful _)
    (by simp [record]) room
  have hlast := Record.optional_fields h "lastName" c.lastName (fun _ _ => faithful _)
    (by simp [record]) room
  have hemail := Record.optional_fields h "email" c.email (fun _ _ => faithful _)
    (by simp [record]) room
  have hphone := Record.optional_fields h "phone" c.phone (fun _ _ => faithful _)
    (by simp [record]) room
  have hage := Record.optional_fields h "age" c.age (fun _ _ => faithful _)
    (by simp [record]) room
  have hlookup : c.record.fields.lookup "status" = c.status.map toTree :=
    Record.lookup_fields h (by simp [record])
  obtain ⟨firstName, lastName, email, phone, age, status⟩ := c
  simp only [ofFields?, Option.bind_eq_bind, Option.bind_some, hfirst, hlast, hemail, hphone, hage,
    hlookup]
  cases status with
  | none => rfl
  | some s =>
    simp only [Option.map_some, hstatus?]
    rfl

end UserChanges

instance : Lawful UserChanges := by
  refine ⟨fun c => ⟨?_, fun room => ?_⟩⟩
  · show Tree.MembersWellFormed c.members
    rw [c.members_eq]
    exact c.record_wellFormed.membersWellFormed
  · have hfields : Fields.ofTree? UserChanges.fieldNames (.object c.record.members) =
        some c.record.fields := Record.ofTree?_members c.record_nodup
    show (Fields.ofTree? _ (.object c.members)).bind _ = some c
    rw [c.members_eq, hfields]
    refine c.ofFields?_record (fun s => ?_) room
    show ofTree? room (toTree (some s)) = some (some s)
    exact (faithful (some s)).ofTree?_toTree room

end UserDirectory
