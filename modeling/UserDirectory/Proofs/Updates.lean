import UserDirectory.Proofs.Json.Kept
import UserDirectory.Proofs.Tolerance
import UserDirectory.Session.Basic

/-!
# An update is read alike wherever it comes from

The changes of an update are read in three places: by themselves from the body of a request,
together with an identifier from the data of a command, and together with an identifier from what
was kept of the payload of a message. The second reader wants all members to be values that can be
kept, and the third has nothing but the kept values before it.

What changes a list of members tells is said without a reader (`UserChanges.Told`), field by field:
a member that is missing or null tells none, a string tells a text, an integer of 32 bits an age.
Each of the three readers is then shown to read what is told. For the third this needs that a kept
value tells what the tree tells of which it was kept (`told_kept`) and that it can be kept again.
-/

namespace UserDirectory

open Json (Tree Fields Value ofTree? maxDepth)
open Json.Fields (spelled)

/-! ## What members tell -/

/-- What is found under the name of a field tells its value, or tells that there is none. -/
inductive ToldField {α : Type} (IsA : Tree → α → Prop) : Option Tree → Option α → Prop
  | missing : ToldField IsA none none
  | null : ToldField IsA (some .null) none
  | value {t : Tree} {a : α} (h : IsA t a) : ToldField IsA (some t) (some a)

/-- A string that spells a text, however it is escaped. -/
inductive IsText : Tree → String → Prop
  | intro {raw : Octets} {s : String} (h : Json.Quoted.text? raw = some s) : IsText (.string raw) s

/-- A number without fraction and exponent that is an age. -/
inductive IsAge : Tree → Age → Prop
  | intro {x : Json.Numeral} {age : Age} (h : x.int? = some age.toInt) : IsAge (.number x) age

/-- A string that spells the word for a status. -/
def IsStatus (t : Tree) (s : UserStatus) : Prop := IsText t s.word

/-- Changes are what members tell. -/
structure UserChanges.Told (f : Fields) (c : UserChanges) : Prop where
  firstName : ToldField IsText (f.lookup "firstName") c.firstName
  lastName : ToldField IsText (f.lookup "lastName") c.lastName
  email : ToldField IsText (f.lookup "email") c.email
  phone : ToldField IsText (f.lookup "phone") c.phone
  age : ToldField IsAge (f.lookup "age") c.age
  status : ToldField IsStatus (f.lookup "status") c.status

/-- No two texts are told. -/
theorem told_text_iff {t? : Option Tree} {s s' : String} (h : ToldField IsText t? (some s)) :
    ToldField IsText t? (some s') ↔ s' = s := by
  constructor
  · intro h'
    cases h with
    | value h =>
      cases h' with
      | value h' =>
        cases h with
        | intro h =>
          cases h' with
          | intro h' => exact Option.some.inj (h'.symm.trans h)
  · rintro rfl
    exact h

/-! ## What is told is read -/

theorem ofTree?_string_iff {room : Nat} {t : Tree} {s : String} :
    ofTree? room t = some s ↔ IsText t s := by
  constructor
  · intro h
    cases t with
    | string raw => exact .intro h
    | _ => cases h
  · rintro ⟨h⟩
    exact h

theorem Age.ofInt?_eq_some_iff {i : Int} {age : Age} : ofInt? i = some age ↔ i = age.toInt := by
  constructor
  · intro h
    rw [ofInt?] at h
    split at h
    · rename_i hi
      obtain rfl := Option.some.inj h
      exact (Int32.toInt_ofInt_of_le hi.1 hi.2).symm
    · cases h
  · rintro rfl
    exact ofInt?_toInt age

theorem ofTree?_age_iff {room : Nat} {t : Tree} {age : Age} :
    ofTree? room t = some age ↔ IsAge t age := by
  constructor
  · intro h
    cases t with
    | number x =>
      obtain ⟨i, hi, hage⟩ := Option.bind_eq_some_iff.mp h
      exact .intro (Age.ofInt?_eq_some_iff.mp hage ▸ hi)
    | _ => cases h
  · rintro ⟨h⟩
    exact Option.bind_eq_some_iff.mpr ⟨_, h, Age.ofInt?_toInt age⟩

theorem UserStatus.ofRaw?_eq_some_iff {raw : Octets} {s : UserStatus} :
    ofRaw? raw = some s ↔ Json.Quoted.text? raw = some s.word := by
  have hword : ∀ word, (ofWord word).toOption = some s ↔ word = s.word := by
    intro word
    constructor
    · intro h
      unfold ofWord at h
      split at h
      · rename_i hactive
        obtain rfl := Option.some.inj h
        exact hactive
      split at h
      · rename_i hinactive
        obtain rfl := Option.some.inj h
        exact hinactive
      · cases h
    · rintro rfl
      rw [ofWord_word]
      rfl
  simp only [ofRaw?, Option.bind_eq_some_iff, hword, exists_eq_right]

/-- A tree that is no object. -/
def NoObject (t : Tree) : Prop := ∀ ms, t ≠ .object ms

theorem ofTree?_status_iff {room : Nat} {t : Tree} (ht : NoObject t) {s : UserStatus} :
    ofTree? room t = some s ↔ IsStatus t s := by
  constructor
  · intro h
    cases t with
    | string raw => exact IsText.intro (UserStatus.ofRaw?_eq_some_iff.mp h)
    | object ms => exact absurd rfl (ht ms)
    | _ => cases h
  · rintro ⟨h⟩
    exact UserStatus.ofRaw?_eq_some_iff.mpr h

/-- The two readers of a status differ in objects only. -/
theorem keptStatus?_eq {t : Tree} (ht : NoObject t) (room : Nat) :
    UpdateRequest.keptStatus? t = ofTree? room t := by
  cases t with
  | object ms => exact absurd rfl (ht ms)
  | _ => rfl

/-- An optional field is read as what it tells. -/
theorem optional_eq_some_iff {α : Type} [Json.OfTree α] {IsA : Tree → α → Prop} {room : Nat}
    {f : Fields} {name : String}
    (hread : ∀ t, f.lookup name = some t → ∀ a, ofTree? room t = some a ↔ IsA t a)
    (hnull : ∀ a, ¬ IsA .null a) {a? : Option α} :
    f.optional room name = some a? ↔ ToldField IsA (f.lookup name) a? := by
  rw [Fields.optional, Fields.withDefault]
  cases hlookup : f.lookup name with
  | none =>
    constructor
    · rintro ⟨⟩
      exact .missing
    · rintro ⟨⟩
      rfl
  | some t =>
    by_cases ht : t = .null
    · subst ht
      constructor
      · rintro ⟨⟩
        exact .null
      · rintro (_ | _ | h)
        · rfl
        · exact absurd h (hnull _)
    · show (ofTree? room t : Option (Option α)) = some a? ↔ _
      rw [Json.ofTree?_option ht, Option.map_eq_some_iff]
      constructor
      · rintro ⟨a, ha, rfl⟩
        exact .value ((hread t hlookup a).mp ha)
      · rintro (_ | _ | h)
        · exact absurd rfl ht
        · exact ⟨_, (hread t hlookup _).mpr h, rfl⟩

/-- A field that must be there is read as the text that it tells. -/
theorem required_eq_some_iff {f : Fields} {room : Nat} {name s : String} :
    f.required room name = some s ↔ ToldField IsText (f.lookup name) (some s) := by
  rw [Fields.required, Option.bind_eq_some_iff]
  constructor
  · rintro ⟨t, ht, hs⟩
    exact ht ▸ .value (ofTree?_string_iff.mp hs)
  · intro h
    generalize f.lookup name = t? at h
    cases h with
    | value h => exact ⟨_, rfl, ofTree?_string_iff.mpr h⟩

/-- **Changes are read as what is told.** -/
theorem UserChanges.ofFields?_eq_some_iff {f : Fields}
    (hstatus : ∀ t, f.lookup "status" = some t → NoObject t) {room : Nat} {c : UserChanges} :
    ofFields? (ofTree? room) f room = some c ↔ c.Told f := by
  have htext : ∀ name {s? : Option String},
      f.optional room name = some s? ↔ ToldField IsText (f.lookup name) s? := fun _ _ =>
    optional_eq_some_iff (fun _ _ _ => ofTree?_string_iff) nofun
  have hage : ∀ {age? : Option Age},
      f.optional room "age" = some age? ↔ ToldField IsAge (f.lookup "age") age? :=
    optional_eq_some_iff (fun _ _ _ => ofTree?_age_iff) nofun
  have hword : ∀ {s? : Option UserStatus},
      f.optional room "status" = some s? ↔ ToldField IsStatus (f.lookup "status") s? :=
    optional_eq_some_iff (fun t ht _ => ofTree?_status_iff (hstatus t ht)) fun _ h => nomatch h
  have hof : ofFields? (ofTree? room) f room =
      (f.optional room "firstName").bind fun firstName =>
      (f.optional room "lastName").bind fun lastName =>
      (f.optional room "email").bind fun email =>
      (f.optional room "phone").bind fun phone =>
      (f.optional room "age").bind fun age =>
      (f.optional room "status").bind fun status =>
      some ⟨firstName, lastName, email, phone, age, status⟩ := ofFields?_eq _ f room
  rw [hof]
  simp only [Option.bind_eq_some_iff, htext, hage, hword]
  constructor
  · rintro ⟨firstName, h₁, lastName, h₂, email, h₃, phone, h₄, age, h₅, status, h₆, ⟨⟩⟩
    exact ⟨h₁, h₂, h₃, h₄, h₅, h₆⟩
  · rintro ⟨h₁, h₂, h₃, h₄, h₅, h₆⟩
    exact ⟨_, h₁, _, h₂, _, h₃, _, h₄, _, h₅, _, h₆, rfl⟩

/-! ## What was kept tells the same -/

section Kept

variable {room : Nat} {t : Tree} {v : Value}

theorem toTree_eq_null_iff (h : Value.ofTree? room t = some v) : v.toTree = .null ↔ t = .null := by
  cases Value.keptAs_of_ofTree? h with
  | null => exact iff_of_true rfl rfl
  | _ => exact iff_of_false nofun nofun

theorem noObject_toTree (h : Value.ofTree? room t = some v) (ht : NoObject t) :
    NoObject v.toTree := by
  cases Value.keptAs_of_ofTree? h with
  | object => exact absurd rfl (ht _)
  | _ => exact nofun

theorem isText_toTree (h : Value.ofTree? room t = some v) (s : String) :
    IsText v.toTree s ↔ IsText t s := by
  cases Value.keptAs_of_ofTree? h with
  | string hs =>
    constructor
    · rintro ⟨h⟩
      exact .intro (hs.trans ((Json.Quoted.text?_escape _).symm.trans h))
    · rintro ⟨h⟩
      exact .intro ((Json.Quoted.text?_escape _).trans (hs.symm.trans h))
  | _ => exact iff_of_false nofun nofun

/-- An integer is kept as it is, and no age is lost or won with any other number. -/
theorem isAge_toTree (h : Value.ofTree? room t = some v) (age : Age) :
    IsAge v.toTree age ↔ IsAge t age := by
  cases Value.keptAs_of_ofTree? h with
  | @number x n hn =>
    have hlow := Int32.le_toInt age
    have hhigh := Int32.toInt_lt age
    obtain ⟨i, hi, -, -, hof⟩ | ⟨r, -, hof, hlarge⟩ := Json.Numeral.number?_cases hn
    · rw [Value.toTree, hof]
      constructor
      · rintro ⟨h⟩
        rw [Json.Numeral.int?_ofInt] at h
        exact .intro (hi.trans h)
      · rintro ⟨h⟩
        exact .intro ((Json.Numeral.int?_ofInt i).trans (hi.symm.trans h))
    · rw [Value.toTree, hof]
      refine iff_of_false ?_ ?_
      · rintro ⟨h⟩
        rw [Json.Numeral.int?_ofReal] at h
        cases h
      · rintro ⟨h⟩
        rcases hlarge _ h with h | h
        · omega
        · omega
  | _ => constructor <;> (intro h; cases h)

end Kept

theorem toldField_kept {α : Type} {IsA : Tree → α → Prop} {room : Nat}
    (hsame : ∀ {t v}, Value.ofTree? room t = some v → ∀ a, IsA v.toTree a ↔ IsA t a)
    {t? t?' : Option Tree} (h : Value.KeptField room t? t?') {a? : Option α} :
    ToldField IsA t?' a? ↔ ToldField IsA t? a? := by
  cases h with
  | missing => rfl
  | @kept t v h =>
    have hnull := toTree_eq_null_iff h
    constructor
    · intro htold
      generalize htree : v.toTree = u at htold
      cases htold with
      | null =>
        rw [hnull.mp htree]
        exact .null
      | value ha => exact .value ((hsame h _).mp (htree ▸ ha))
    · rintro (_ | _ | ha)
      · rw [hnull.mpr rfl]
        exact .null
      · exact .value ((hsame h _).mpr ha)

/-- **What was kept tells the same changes.** -/
theorem told_kept {room : Nat} {f f' : Fields}
    (h : ∀ name, Value.KeptField room (f.lookup name) (f'.lookup name)) (c : UserChanges) :
    c.Told f' ↔ c.Told f := by
  have htext : ∀ name {s? : Option String},
      ToldField IsText (f'.lookup name) s? ↔ ToldField IsText (f.lookup name) s? :=
    fun name _ => toldField_kept isText_toTree (h name)
  constructor
  · rintro ⟨h₁, h₂, h₃, h₄, h₅, h₆⟩
    exact ⟨(htext _).mp h₁, (htext _).mp h₂, (htext _).mp h₃, (htext _).mp h₄,
      (toldField_kept isAge_toTree (h _)).mp h₅,
      (toldField_kept (fun h s => isText_toTree h s.word) (h _)).mp h₆⟩
  · rintro ⟨h₁, h₂, h₃, h₄, h₅, h₆⟩
    exact ⟨(htext _).mpr h₁, (htext _).mpr h₂, (htext _).mpr h₃, (htext _).mpr h₄,
      (toldField_kept isAge_toTree (h _)).mpr h₅,
      (toldField_kept (fun h s => isText_toTree h s.word) (h _)).mpr h₆⟩

/-! ## The three readers -/

/-- Members that can be kept, with no key twice and a status that is no object. -/
structure Plain (room : Nat) (ms : List (Octets × Tree)) : Prop where
  kept : (Value.ofTree? (room + 1) (.object ms)).isSome = true
  distinct : ((spelled ms).map Prod.fst).Nodup
  status : ∀ t, (spelled ms).lookup "status" = some t → NoObject t

section Plain

variable {room : Nat} {ms : List (Octets × Tree)}

theorem Plain.readable (h : Plain room ms) (names : List String) :
    Json.Fields.Readable names ms :=
  ⟨fun m hm => (Value.of_isSome_ofTree?_object h.kept m hm).1,
    fun name _ => List.nodup_iff_count_le_one.mp h.distinct name⟩

/-- In more room as well. -/
theorem Plain.mono (h : Plain room ms) {room' : Nat} (hroom : room ≤ room') : Plain room' ms :=
  ⟨Value.isSome_ofTree?_mono h.kept (Nat.succ_le_succ hroom), h.distinct, h.status⟩

/-- **Changes by themselves are read as what is told.** -/
theorem Plain.changes_iff (h : Plain room ms) {room' : Nat} {c : UserChanges} :
    ofTree? room' (.object ms) = some c ↔ c.Told (spelled ms) := by
  rw [UserChanges.readsRecord.reads, and_iff_right (h.readable _),
    UserChanges.ofFields?_eq_some_iff h.status]
  exact and_iff_right nofun

/-- **Changes with an identifier are read as what is told.** -/
theorem Plain.update_iff (h : Plain room ms) {r : UpdateRequest} :
    ofTree? (room + 1) (.object ms) = some r ↔
      ToldField IsText ((spelled ms).lookup "id") (some r.id) ∧ r.changes.Told (spelled ms) := by
  have hkept : Json.Kept (some "id") (room + 1) (spelled ms) := by
    intro name _ m hm _
    obtain ⟨m', hm', heq⟩ := List.mem_filterMap.mp hm
    obtain ⟨_, -, rfl⟩ := Option.map_eq_some_iff.mp heq
    exact (Value.of_isSome_ofTree?_object h.kept m' hm').2
  have hreader : UserChanges.ofFields? UpdateRequest.keptStatus? (spelled ms) (room + 1) =
      UserChanges.ofFields? (ofTree? (room + 1)) (spelled ms) (room + 1) := by
    have hstatus := h.status
    rw [UserChanges.ofFields?_eq, UserChanges.ofFields?_eq]
    cases hlookup : (spelled ms).lookup "status" with
    | none => rfl
    | some t => simp only [keptStatus?_eq (hstatus t hlookup) (room + 1)]
  rw [UpdateRequest.readsRecord.reads, and_iff_right (h.readable _), and_iff_right hkept,
    UpdateRequest.pick, UpdateRequest.pickApart, hreader]
  simp only [Option.bind_eq_some_iff, UserChanges.ofFields?_eq_some_iff h.status,
    required_eq_some_iff]
  constructor
  · rintro ⟨id, hid, c, hc, ⟨⟩⟩
    exact ⟨hid, hc⟩
  · rintro ⟨hid, hc⟩
    exact ⟨_, hid, _, hc, rfl⟩

/-- What was kept of plain members is plain again and tells the same. -/
theorem Plain.kept_again (h : Plain room ms) {v : Value}
    (hv : Value.ofTree? (room + 1) (.object ms) = some v) :
    ∃ ms', v.toTree = .object ms' ∧ Plain room ms' ∧
      ∀ name, Value.KeptField room ((spelled ms).lookup name) ((spelled ms').lookup name) := by
  obtain ⟨ms', htree, -, hdistinct, hlookup⟩ := Value.kept_lookup hv h.distinct
  refine ⟨ms', htree, ⟨?_, hdistinct, fun t ht => ?_⟩, hlookup⟩
  · exact htree ▸ Value.isSome_ofTree?_toTree hv (Nat.le_refl _)
  · have hstatus := hlookup "status"
    rw [ht] at hstatus
    generalize hbefore : (spelled ms).lookup "status" = t? at hstatus
    cases hstatus with
    | kept hkept => exact noObject_toTree hkept (h.status _ hbefore)

end Plain

/-! ## An identifier among the members -/

/-- The members of an update, and the same members with an identifier somewhere among them. -/
structure WithId (ms : List (Octets × Tree)) (id : String) (ms' : List (Octets × Tree)) : Prop where
  plain : Plain (maxDepth - 2) ms
  new : "id" ∉ (spelled ms).map Prod.fst
  inserted : ∃ key raw, Json.Quoted.text? key = some "id" ∧ Json.Quoted.text? raw = some id ∧
    ms'.Perm ((key, .string raw) :: ms)

section WithId

variable {ms ms' : List (Octets × Tree)} {id : String}

/-- The names with the identifier among them are those without it and one more. -/
theorem WithId.spelled_perm (h : WithId ms id ms') : ∃ raw, Json.Quoted.text? raw = some id ∧
    (("id", Tree.string raw) :: spelled ms).Perm (spelled ms') := by
  obtain ⟨key, raw, hkey, hraw, hperm⟩ := h.inserted
  refine ⟨raw, hraw, ?_⟩
  rw [← Json.Fields.spelled_cons hkey]
  exact (hperm.filterMap _).symm

theorem WithId.distinct (h : WithId ms id ms') (raw : Octets) :
    ((("id", Tree.string raw) :: spelled ms).map Prod.fst).Nodup :=
  List.nodup_cons.mpr ⟨h.new, h.plain.distinct⟩

/-- Everything else is looked up as it was. -/
theorem WithId.lookup_of_ne (h : WithId ms id ms') {name : String} (hname : name ≠ "id") :
    (spelled ms').lookup name = (spelled ms).lookup name := by
  obtain ⟨raw, -, hperm⟩ := h.spelled_perm
  rw [Fields.lookup_perm hperm (List.nodup_iff_count_le_one.mp (h.distinct raw) name),
    Fields.lookup_cons_of_ne hname]

/-- The identifier is found as it was inserted. -/
theorem WithId.id_iff (h : WithId ms id ms') {s : String} :
    ToldField IsText ((spelled ms').lookup "id") (some s) ↔ s = id := by
  obtain ⟨raw, hraw, hperm⟩ := h.spelled_perm
  rw [Fields.lookup_perm hperm (List.nodup_iff_count_le_one.mp (h.distinct raw) "id"),
    List.lookup_cons_self]
  exact told_text_iff (.value (.intro hraw))

theorem WithId.plain' (h : WithId ms id ms') : Plain (maxDepth - 2) ms' := by
  obtain ⟨key, raw, hkey, hraw, hperm⟩ := h.inserted
  refine ⟨Value.isSome_ofTree?_object fun m hm => ?_, ?_, fun t ht => ?_⟩
  · rcases List.mem_cons.mp (hperm.mem_iff.mp hm) with rfl | hm
    · refine ⟨Option.isSome_of_eq_some hkey, ?_⟩
      rw [Value.ofTree?, hraw, Option.map_some, Option.isSome_some]
    · exact Value.of_isSome_ofTree?_object h.plain.kept m hm
  · obtain ⟨raw, -, hperm⟩ := h.spelled_perm
    exact ((hperm.map Prod.fst).nodup_iff).mp (h.distinct raw)
  · rw [h.lookup_of_ne (by decide)] at ht
    exact h.plain.status t ht

theorem WithId.told_iff (h : WithId ms id ms') {c : UserChanges} :
    c.Told (spelled ms') ↔ c.Told (spelled ms) := by
  have hlookup : ∀ name, name ≠ "id" → (spelled ms').lookup name = (spelled ms).lookup name :=
    fun name => h.lookup_of_ne
  constructor
  · rintro ⟨h₁, h₂, h₃, h₄, h₅, h₆⟩
    rw [hlookup _ (by decide)] at h₁ h₂ h₃ h₄ h₅ h₆
    exact ⟨h₁, h₂, h₃, h₄, h₅, h₆⟩
  · rintro ⟨h₁, h₂, h₃, h₄, h₅, h₆⟩
    rw [← hlookup _ (by decide)] at h₁ h₂ h₃ h₄ h₅ h₆
    exact ⟨h₁, h₂, h₃, h₄, h₅, h₆⟩

/-- **An update is read as the identifier that was inserted and the changes that are told.** -/
theorem WithId.update_iff (h : WithId ms id ms') {room : Nat} (hroom : maxDepth - 2 ≤ room)
    {r : UpdateRequest} :
    ofTree? (room + 1) (.object ms') = some r ↔ r.id = id ∧ r.changes.Told (spelled ms) := by
  rw [(h.plain'.mono hroom).update_iff, h.id_iff, h.told_iff]

/-- It is read alike from what was kept of it. -/
theorem WithId.update_iff_kept (h : WithId ms id ms') {v : Value}
    (hv : Value.ofTree? (maxDepth - 1) (.object ms') = some v) {room : Nat}
    (hroom : maxDepth - 2 ≤ room) {r : UpdateRequest} :
    ofTree? (room + 1) v.toTree = some r ↔ r.id = id ∧ r.changes.Told (spelled ms) := by
  obtain ⟨ms'', htree, hplain, hlookup⟩ := h.plain'.kept_again hv
  rw [htree, (hplain.mono hroom).update_iff, told_kept hlookup, h.told_iff,
    toldField_kept isText_toTree (hlookup "id"), h.id_iff]

end WithId

/-! ## The four places -/

/-- The document of an envelope whose data is an object. -/
def CarriesData (envelope : Octets) (requestId : String) (ms : List (Octets × Tree)) : Prop :=
  ∃ es, Tree.read? envelope = some (.object es) ∧
    Json.Fields.Readable ["requestId", "data"] es ∧
    ToldField IsText ((spelled es).lookup "requestId") (some requestId) ∧
    (spelled es).lookup "data" = some (.object ms)

/-- A frame that is read as a message, and whose payload is an object. -/
def Session.CarriesPayload (frame : Octets) (r : Request) (ms : List (Octets × Tree)) : Prop :=
  ∃ fs, Tree.read? frame = some (.object fs) ∧ Json.decode frame = some r ∧
    (spelled fs).lookup "payload" = some (.object ms)

/-- The payload of a message is what was kept of the object. -/
theorem Session.CarriesPayload.kept {frame : Octets} {r : Request} {ms : List (Octets × Tree)}
    (h : CarriesPayload frame r ms) :
    Value.ofTree? (maxDepth - 1) (.object ms) = some r.payload := by
  obtain ⟨fs, hread, hdecode, hpayload⟩ := h
  rw [Json.decode, hread, Option.bind_some] at hdecode
  obtain ⟨-, hpick⟩ := Json.Fields.bind_ofTree?_object_eq_some_iff.mp hdecode
  obtain ⟨requestId, -, hpick⟩ := Option.bind_eq_some_iff.mp hpick
  obtain ⟨action, -, hpick⟩ := Option.bind_eq_some_iff.mp hpick
  obtain ⟨payload, hkept, hpick⟩ := Option.bind_eq_some_iff.mp hpick
  obtain rfl := Option.some.inj hpick
  have hlookup : ((spelled fs).filter fun m =>
      ["requestId", "action", "payload"].contains m.1).lookup "payload" = some (.object ms) := by
    rw [← hpayload]
    exact Fields.lookup_filter rfl _
  rw [Fields.withDefault, hlookup] at hkept
  exact hkept

theorem CarriesData.decode_iff {envelope : Octets} {requestId : String}
    {ms : List (Octets × Tree)} (h : CarriesData envelope requestId ms)
    {r : CommandRequest UpdateRequest} :
    Json.decode envelope = some r ↔
      r.requestId = requestId ∧ ofTree? (maxDepth - 1) (.object ms) = some r.data := by
  obtain ⟨es, hread, hreadable, hid, hdata⟩ := h
  rw [Json.decode, hread, Option.bind_some, CommandRequest.readsRecord.reads]
  have hnone : Json.Kept none maxDepth (spelled es) := by
    intro name hname
    cases hname
  refine (and_iff_right hreadable).trans ((and_iff_right hnone).trans ?_)
  rw [CommandRequest.pick, hdata]
  simp only [Option.bind_eq_some_iff, required_eq_some_iff, told_text_iff hid]
  constructor
  · rintro ⟨_, rfl, update, hupdate, ⟨⟩⟩
    exact ⟨rfl, hupdate⟩
  · rintro ⟨hid, hupdate⟩
    exact ⟨_, hid, _, hupdate, rfl⟩

/-- An update is read alike in the four places where there is one: the body of a request, the
document of the command's data, the envelope of a command, and the payload of a message. -/
structure ReadAlike (f : Fields) (id requestId : String) (body identified envelope : Octets)
    (kept : Value) : Prop where
  told : ∀ c, Json.decode body = some c ↔ UserChanges.Told f c
  data : ∀ c, Json.decode identified = some (⟨id, c⟩ : UpdateRequest) ↔ Json.decode body = some c
  command : ∀ c, Json.decode envelope = some (⟨requestId, id, c⟩ : CommandRequest UpdateRequest) ↔
    Json.decode body = some c
  payload : ∀ c, Session.ofPayload? UpdateRequest kept = .ok ⟨id, c⟩ ↔ Json.decode body = some c
  /-- what is refused in one place is refused in all -/
  refused : (Json.decode body : Option UserChanges) = none →
    (Json.decode identified : Option UpdateRequest) = none ∧
    (Json.decode envelope : Option (CommandRequest UpdateRequest)) = none ∧
    Session.ofPayload? UpdateRequest kept = .error Session.invalidPayload

theorem Session.ofPayload?_eq_ok_iff {α : Type} [Json.OfTree α] {payload : Value} {a : α} :
    ofPayload? α payload = .ok a ↔ ofTree? maxDepth payload.toTree = some a := by
  unfold ofPayload?
  split
  · rename_i h
    rw [h, Except.ok.injEq, Option.some.injEq]
  · rename_i h
    rw [h]
    exact iff_of_false nofun nofun

end UserDirectory
