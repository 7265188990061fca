import UserDirectory.Text.Blank
import UserDirectory.User

/-!
# Validation

The rules that every user obeys, checked at the edge before a command is sent and once more by
the command server before the store is touched. A check answers with the first rule broken, in
the order first name, last name, e-mail address, phone, age.
-/

namespace UserDirectory.Validation

/-! ## Rules -/

inductive Rule
  | firstName
  | lastName
  | email
  | phone
  | age
  /-- an update must set a field -/
  | someField
  /-- an identifier must be spelled in one of its spellings -/
  | id
  deriving DecidableEq, Repr

def nameMin : Nat := 2

def nameMax : Nat := 50

/-- The text about the length of a name. -/
def nameMessage (field : String) : String :=
  field ++ " must be between " ++ Decimal.text nameMin ++ " and " ++ Decimal.text nameMax ++
    " characters"

def Rule.message : Rule → String
  | firstName => nameMessage "firstName"
  | lastName => nameMessage "lastName"
  | email => "email must be a valid email address"
  | phone => "phone must be a valid phone number"
  | age => "age must be greater than 0"
  | someField => "at least one field is required"
  | id => "id must be valid uuid"

/-- Whether a name has two to fifty characters, blanks at its ends not counted. -/
def isName (s : String) : Bool :=
  let length := (Text.trim s.toList).length
  nameMin ≤ length && length ≤ nameMax

/-- The characters before and after the first occurrence of `c`. -/
def splitAt? (c : Char) (cs : List Char) : Option (List Char × List Char) :=
  match cs.dropWhile (· != c) with
  | [] => none
  | _ :: after => some (cs.takeWhile (· != c), after)

/-- Whether the part of an address after the `@` has a point with something on both sides. -/
def isDomain (cs : List Char) : Bool :=
  match splitAt? '.' cs with
  | none => false
  | some (host, rest) => !host.isEmpty && !rest.isEmpty && cs.getLast? != some '.'

/-- Whether an e-mail address is well formed. -/
def isEmail (s : String) : Bool :=
  match splitAt? '@' s.toList with
  | none => false
  | some (mailbox, domain) =>
    !mailbox.isEmpty && !domain.contains '@' && !s.toList.any Text.isBlank && isDomain domain

/-- Whether a character may stand in a phone number after its first digit. -/
def isPhoneChar (c : Char) : Bool :=
  (Decimal.digit? c).isSome || Text.isBlank c || c = '-' || c = '(' || c = ')'

/-- Whether the characters are a digit and six to nineteen further ones. -/
def isDialled : List Char → Bool
  | [] => false
  | d :: rest =>
    (Decimal.digit? d).isSome && rest.all isPhoneChar && 6 ≤ rest.length && rest.length ≤ 19

/-- Whether a phone number is empty or well formed: an optional plus sign, a digit, and six to
nineteen digits, blanks, hyphens and parentheses. -/
def isPhone (s : String) : Bool :=
  match s.toList with
  | [] => true
  | '+' :: rest => isDialled rest
  | cs => isDialled cs

def isAge (age : Age) : Bool := 0 < age

/-! ## Checks -/

/-- An input that keeps the rule, or the rule as an error. -/
def check (rule : Rule) (kept : Bool) : Except Rule Unit := if kept then .ok () else .error rule

def checkNew (u : NewUser) : Except Rule Unit := do
  check .firstName (isName u.firstName)
  check .lastName (isName u.lastName)
  check .email (isEmail u.email)
  check .phone (u.phone.all isPhone)
  check .age (u.age.all isAge)

/-- Checks the changes of an update: some field must be set, and every set field obeys its rule. -/
def checkChanges (c : UserChanges) : Except Rule Unit := do
  check .someField (!c.isEmpty)
  check .firstName (c.firstName.all isName)
  check .lastName (c.lastName.all isName)
  check .email (c.email.all isEmail)
  check .phone (c.phone.all isPhone)
  check .age (c.age.all isAge)

/-- Reads the spelling of an identifier. -/
def checkId (s : String) : Except Rule UserId :=
  match UserId.parse? s with
  | some id => .ok id
  | none => .error .id

end UserDirectory.Validation
