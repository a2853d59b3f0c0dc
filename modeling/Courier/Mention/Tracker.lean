import Courier.Mention.Policy
import Courier.Mutator

namespace Courier.Mention

/-- What kind of thing is mentioned. Users and members are listed with the users, roles with the
roles, and anything else never notifies. -/
inductive Kind where
  | user | member | role | silent
  deriving DecidableEq

def Kind.ofName (name : String) : Kind :=
  if name = "user" then user
  else if name = "member" then member
  else if name = "role" then role
  else silent

structure Mentionable where
  kind : Kind
  id : Given

def addOnce (ids : List Json) (id : Json) : List Json :=
  if ids.any (Json.isSame id) then ids else ids ++ [id]

def addAll (ids more : List Json) : List Json :=
  more.foldl addOnce ids

/-- The state of a policy under construction. Without a set of categories the defaults apply, while
an empty set parses nothing. -/
structure Tracker where
  defaults : Defaults := {}
  categories : Option CategorySet := none
  users : List Json := []
  roles : List Json := []
  repliedUser : Option Json := none

namespace Tracker

def addUser (t : Tracker) (id : Json) : Tracker :=
  { t with users := addOnce t.users id }

def addRole (t : Tracker) (id : Json) : Tracker :=
  { t with roles := addOnce t.roles id }

def add (t : Tracker) (m : Mentionable) : Tracker :=
  match m.kind, m.id with
  | .user, some id => t.addUser id
  | .member, some id => t.addUser id
  | .role, some id => t.addRole id
  | _, _ => t

def mentionRepliedUser (ping : Given) : Mutator Tracker Unit :=
  modify fun t => { t with repliedUser := ping.present? }

/-- Replaces the categories by the named ones; no list at all restores the defaults. -/
def allow : Listing (Option Json) → Mutator Tracker Unit
  | .absent _ => modify fun t => { t with categories := none }
  | names => do
    let names ← Requirement.allPresent "Mention types" names
    modify fun t => { t with categories := some (.ofJson names) }

/-- Adds users and roles to the lists of their kind, after every identifier has been checked. -/
def mention (ms : List (Option Mentionable)) : Mutator Tracker Unit := do
  let ms ← Requirement.elements "Mentionables" ms
  Requirement.snowflakes "Mentionable id" (ms.map (·.id))
  forM ms fun m => modify (·.add m)

def mentionUsers (ids : List (Option Json)) : Mutator Tracker Unit := do
  let ids ← Requirement.identifiers "User id" (.elements ids)
  forM ids fun id => modify (·.addUser id)

def mentionRoles (ids : List (Option Json)) : Mutator Tracker Unit := do
  let ids ← Requirement.identifiers "Role id" (.elements ids)
  forM ids fun id => modify (·.addRole id)

/-- Takes over the policy that a message was sent with. What the directive leaves out was not
parsed, not listed and not notified. -/
def adopt (d : Directive) : Mutator Tracker Unit := do
  let users ← Requirement.identifiers "User id" d.users.orEmpty
  let roles ← Requirement.identifiers "Role id" d.roles.orEmpty
  let names ← Fault.lift d.parse.collect
  modify fun t => { t with categories := some (.ofJson names) }
  modify fun t => { t with users := [] }
  modify fun t => { t with roles := [] }
  forM users fun id => modify (·.addUser id)
  forM roles fun id => modify (·.addRole id)
  modify fun t => { t with repliedUser := some (d.repliedUser.present?.getD (.bool false)) }

def applyMessage : Option (Option Directive) → Mutator Tracker Unit
  | none => refuse (.absent "Message")
  | some none => pure ()
  | some (some d) => adopt d

/-- The categories that the policy parses: identifiers that are listed take the place of their
category. -/
def parsed (t : Tracker) : CategorySet :=
  let chosen := t.categories.getD t.defaults.parse
  let chosen := if t.users.isEmpty then chosen else chosen.erase .users
  if t.roles.isEmpty then chosen else chosen.erase .roles

def listed (ids : List Json) : Option (List Json) :=
  if ids.isEmpty then none else some ids

def policy (t : Tracker) : Policy where
  parse := t.parsed.toList
  users := listed t.users
  roles := listed t.roles
  repliedUser := t.repliedUser.or t.defaults.repliedUser

end Tracker

inductive Choice where
  | repliedUser (ping : Given)
  | categories (names : Listing (Option Json))
  | mentionables (ms : List (Option Mentionable))
  | users (ids : List (Option Json))
  | roles (ids : List (Option Json))

def Tracker.choose : Choice → Mutator Tracker Unit
  | .repliedUser ping => mentionRepliedUser ping
  | .categories names => allow names
  | .mentionables ms => mention ms
  | .users ids => mentionUsers ids
  | .roles ids => mentionRoles ids

inductive Call where
  | choose (choice : Choice)
  | applyMessage (message : Option (Option Directive))

def Tracker.call : Call → Mutator Tracker Unit
  | .choose choice => choose choice
  | .applyMessage message => applyMessage message

def Call.name : Call → String
  | .choose (.repliedUser _) => "mentionRepliedUser"
  | .choose (.categories _) => "allowedMentions"
  | .choose (.mentionables _) => "mention"
  | .choose (.users _) => "mentionUsers"
  | .choose (.roles _) => "mentionRoles"
  | .applyMessage _ => "applyMessage"

end Courier.Mention
