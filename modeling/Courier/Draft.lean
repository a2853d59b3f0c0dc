import Courier.Fault

/-!
Drafts, and the payload that a draft stands for. Embeds and rows are carried through unread; some
are builders, which are asked for their values only when the payload is made, and may throw then.
-/

namespace Courier

inductive Element where
  | fixed (value : Json)
  | live (builder : String)

/-- What a builder turns into when it is asked for its value. Not every value can be written as a
text: asking for one may throw. -/
structure Built where
  value : Json
  writing : Except Fault Unit := .ok ()

/-- What each builder turns into at the moment, or what it throws when it is asked. -/
abbrev Builders := String → Except Fault Built

def Builders.unset : Builders :=
  fun _ => .ok { value := .null }

def Builders.set (builders : Builders) (name : String) (built : Except Fault Built) : Builders :=
  fun other => if other = name then built else builders other

def Element.resolve (builders : Builders) : Element → Except Fault Built
  | .fixed value => .ok { value }
  | .live builder => builders builder

structure Draft where
  content : Given := .ofText ""
  tts : Given := .ofBool false
  ephemeral : Given := .ofBool false
  username : Given := none
  avatarUrl : Given := none
  embeds : List Element := []
  rows : List Element := []
  allowedMentions : Given

def ephemeralFlag : Nat :=
  64

/-- An avatar address that does not count as true, such as an empty one, overrides nothing. -/
def normalizeAvatarUrl (url : Given) : Given :=
  if url.isOn then url else none

/-- The payload of a message, where a field that says nothing is missing, and what comes of writing
the values in it as texts. -/
structure Payload where
  content : Given
  tts : Given
  username : Given
  avatarUrl : Given
  flags : Option Nat
  embeds : Option (List Json)
  rows : Option (List Json)
  allowedMentions : Given
  writing : Except Fault Unit := .ok ()

namespace Payload

def resolveAll (builders : Builders) (elements : List Element) : Except Fault (List Built) :=
  elements.mapM (·.resolve builders)

def listed (items : List Built) : Option (List Json) :=
  if items.isEmpty then none else some (items.map (·.value))

def ofBuilt (d : Draft) (embeds rows : List Built) : Payload where
  content := d.content
  tts := d.tts
  username := d.username
  avatarUrl := d.avatarUrl
  flags := if d.ephemeral.isOn then some ephemeralFlag else none
  embeds := listed embeds
  rows := listed rows
  allowedMentions := d.allowedMentions
  writing := (embeds ++ rows).forM (·.writing)

def ofDraft (builders : Builders) (d : Draft) : Except Fault Payload := do
  let embeds ← resolveAll builders d.embeds
  let rows ← resolveAll builders d.rows
  return ofBuilt d embeds rows

def member {α : Type} (key : String) (f : α → Json) : Option α → List (String × Json)
  | some value => [(key, f value)]
  | none => []

def members (p : Payload) : List (String × Json) :=
  member "content" id p.content ++
    member "tts" id p.tts ++
    member "username" id p.username ++
    member "avatar_url" id p.avatarUrl ++
    member "flags" (fun n => .number (.ofNat n)) p.flags ++
    member "embeds" .array p.embeds ++
    member "components" .array p.rows ++
    member "allowed_mentions" id p.allowedMentions

def toJson (p : Payload) : Json :=
  .object p.members

/-- The text of a payload. There is none if a value in it cannot be written, or if it would be
longer than a text can be. -/
def text (p : Payload) : Except Fault String := do
  p.writing
  if p.toJson.units ≤ Text.maxUnits then return p.toJson.write
  else .error .textTooLong

end Payload

end Courier
