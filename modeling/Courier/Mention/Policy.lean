import Courier.Given

namespace Courier.Mention

inductive Category where
  | users | roles | everyone
  deriving DecidableEq, Inhabited

namespace Category

def all : List Category :=
  [users, roles, everyone]

def name : Category → String
  | users => "users"
  | roles => "roles"
  | everyone => "everyone"

def ofName? (s : String) : Option Category :=
  all.find? (·.name == s)

end Category

structure CategorySet where
  users : Bool := false
  roles : Bool := false
  everyone : Bool := false
  deriving DecidableEq, Inhabited

namespace CategorySet

def full : CategorySet :=
  ⟨true, true, true⟩

def contains (s : CategorySet) : Category → Bool
  | .users => s.users
  | .roles => s.roles
  | .everyone => s.everyone

def toList (s : CategorySet) : List Category :=
  Category.all.filter s.contains

def insert (s : CategorySet) : Category → CategorySet
  | .users => { s with users := true }
  | .roles => { s with roles := true }
  | .everyone => { s with everyone := true }

def erase (s : CategorySet) : Category → CategorySet
  | .users => { s with users := false }
  | .roles => { s with roles := false }
  | .everyone => { s with everyone := false }

def ofList (cs : List Category) : CategorySet :=
  cs.foldl insert {}

/-- The categories among some names; names of no category are passed over. -/
def ofNames (names : List String) : CategorySet :=
  ofList (names.filterMap Category.ofName?)

end CategorySet

/-- What applies where a message says nothing about a part of its policy. -/
structure Defaults where
  parse : CategorySet := .full
  repliedUser : Given := none

structure Policy where
  parse : List Category
  users : Option (List Json) := none
  roles : Option (List Json) := none
  repliedUser : Given := none

structure Directive where
  parse : Listing Json := .absent .missing
  users : Listing (Option Json) := .absent .missing
  roles : Listing (Option Json) := .absent .missing
  repliedUser : Given := none

namespace Directive

def ofJson (value : Json) : Directive where
  parse := .read id (value.get? "parse")
  users := .read Json.nonNull (value.get? "users")
  roles := .read Json.nonNull (value.get? "roles")
  repliedUser := value.get? "replied_user"

end Directive

def CategorySet.ofJson (values : List Json) : CategorySet :=
  .ofNames (values.filterMap Json.asString?)

/-- The defaults that a value describes, whatever it is. Its categories must be a list, if it has
any. -/
def Defaults.ofJson (value : Json) : Except Mismatch Defaults :=
  (Listing.read id (value.get? "parse")).collect.map fun names =>
    { parse := .ofJson names, repliedUser := value.get? "repliedUser" }

namespace Policy

def listing (ids : Option (List Json)) : Listing (Option Json) :=
  match ids with
  | some ids => .elements (ids.map some)
  | none => .absent .missing

def toDirective (policy : Policy) : Directive where
  parse := .elements (policy.parse.map fun c => .string c.name)
  users := listing policy.users
  roles := listing policy.roles
  repliedUser := policy.repliedUser

def idMember (key : String) (ids : Option (List Json)) : List (String × Json) :=
  match ids with
  | some ids => [(key, .array ids)]
  | none => []

def toJson (policy : Policy) : Json :=
  .object <|
    [("parse", .array (policy.parse.map fun c => .string c.name))] ++
      idMember "users" policy.users ++ idMember "roles" policy.roles ++
      match policy.repliedUser with
      | some ping => [("replied_user", ping)]
      | none => []

end Policy

end Courier.Mention
