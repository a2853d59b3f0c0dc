import Courier.Draft
import Courier.Given
import Courier.Mention.Policy

/-!
Messages as the service returns them, and what another message takes over from one. A payload
without an identifier is an error; every other field that is missing or of the wrong kind gets its
default, and elements of the wrong kind are left out of their list.
-/

namespace Courier

structure ReceivedFile where
  id : String
  filename : String
  url : String
  size : Number
  contentType : Option String
  deriving DecidableEq

/-- A message that was received. The channel into which it was delivered and the note whether it
comes from a cache are kept as they were given. -/
structure Message where
  id : String
  channelId : Given
  channel : Given
  content : String
  tts : Bool
  embeds : List Json
  rows : List Json
  webhookId : Option String
  authorId : Option String
  authorName : Option String
  flags : Number
  ephemeral : Bool
  attachments : List ReceivedFile
  timestamp : Option String
  cacheBacked : Given

def nonEmpty (s : Option String) : Option String :=
  s.filter (! ·.isEmpty)

namespace ReceivedFile

def ofJson? (value : Json) : Option ReceivedFile := do
  let id ← nonEmpty (value.text? "id")
  let filename ← nonEmpty (value.text? "filename")
  let url ← nonEmpty (value.text? "url")
  return {
    id, filename, url
    size := (value.get? "size" |>.bind Json.asNumber?).getD 0
    contentType := value.text? "content_type" }

end ReceivedFile

namespace Message

def actionRowType : Number :=
  1

def isActionRow (value : Json) : Bool :=
  value.isObject && decide ((value.get? "type").bind Json.asNumber? = some actionRowType) &&
    ((value.get? "components").any Json.isArray)

def isEphemeral (flags : Number) : Bool :=
  flags.toWord &&& BitVec.ofNat 32 64 != 0

/-- The identifier of the channel of a message, which the payload may leave to the channel. -/
def channelIdOf (payload : Json) (channel : Given) : Except Mismatch Given :=
  match payload.text? "channel_id" with
  | some id => .ok (.ofText id)
  | none => channel.member "id"

def describe (id : String) (channelId : Given) (payload : Json) (channel cacheBacked : Given) :
    Message :=
  let flags := (payload.get? "flags" |>.bind Json.asNumber?).getD 0
  let author := payload.get? "author"
  { id, channelId, channel, flags, cacheBacked
    content := (payload.text? "content").getD ""
    tts := (payload.get? "tts" |>.bind Json.asBool?).getD false
    embeds := (payload.elements "embeds").filter Json.isObject
    rows := (payload.elements "components").filter isActionRow
    webhookId := payload.text? "webhook_id"
    authorId := author.bind (·.text? "id")
    authorName := author.bind (·.text? "username")
    ephemeral := isEphemeral flags
    attachments := (payload.elements "attachments").filterMap ReceivedFile.ofJson?
    timestamp := payload.text? "timestamp" }

def ofPayload (payload : Json) (channel cacheBacked : Given) : Except Fault Message :=
  match nonEmpty (payload.text? "id") with
  | none => .error (.missingField "id")
  | some id =>
    match channelIdOf payload channel with
    | .error cause => .error (.mismatch cause)
    | .ok channelId => .ok (describe id channelId payload channel cacheBacked)

def ofGiven (payload channel cacheBacked : Given) : Except Fault Message :=
  match payload with
  | none => .error (.mismatch (.noMember "id" .missing))
  | some .null => .error (.mismatch (.noMember "id" .null))
  | some payload => ofPayload payload channel cacheBacked

end Message

structure Template where
  content : Given
  tts : Given
  embeds : Listing Element
  rows : Listing Element
  directive : Option Mention.Directive := none

/-- A message that was received, as a template. It carries no policy of its own. -/
def Message.toTemplate (m : Message) : Template where
  content := .ofText m.content
  tts := .ofBool m.tts
  embeds := .elements (m.embeds.map .fixed)
  rows := .elements (m.rows.map .fixed)

def Template.ofJson (readElement : Json → Element) (value : Json) : Template where
  content := value.get? "content"
  tts := value.get? "tts"
  embeds := .read readElement (value.get? "embeds")
  rows := .read readElement (value.get? "components")
  directive := (Given.present? (value.get? "allowedMentions")).map .ofJson

end Courier
