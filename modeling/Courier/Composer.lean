import Courier.Mention.Tracker
import Courier.Message
import Courier.WireBody

/-!
A composer holds a message while it is written. Every change is checked when it is made, and a
change that is refused leaves the composer as it was; only a template without its lists is taken
over up to the list that it lacks. Nothing is serialized before the message is finalized.
-/

namespace Courier

/-- A message that is being written, with the files that no body has taken yet, the number of times
that it was finalized and the number of files that were taken then. -/
structure Composer where
  content : Json := .string ""
  tts : Given := .ofBool false
  ephemeral : Given := .ofBool false
  username : Given := none
  avatarUrl : Given := none
  embeds : List Element := []
  rows : List Element := []
  files : List Attachment := []
  mentions : Mention.Tracker := {}
  finalized : Nat := 0
  consumed : Nat := 0

namespace Composer

def maxEmbeds : Nat :=
  10

def maxFiles : Nat :=
  10

def maxRows : Nat :=
  5

def maxUsernameLength : Nat :=
  128

def usernameLimit : Given :=
  some (.number (.ofNat maxUsernameLength))

def draft (c : Composer) : Draft where
  content := some c.content
  tts := c.tts
  ephemeral := c.ephemeral
  username := c.username
  avatarUrl := c.avatarUrl
  embeds := c.embeds
  rows := c.rows
  allowedMentions := some c.mentions.policy.toJson

def attachmentNames (c : Composer) : List Json :=
  c.files.map (·.name)

def setContent (content : Given) : Mutator Composer Unit :=
  modify fun c => { c with content := content.present?.getD (.string "") }

def setTts (tts : Given) : Mutator Composer Unit :=
  modify fun c => { c with tts }

def setEphemeral (ephemeral : Given) : Mutator Composer Unit :=
  modify fun c => { c with ephemeral }

/-- The requirements on a name. Withdrawing the name is always allowed. -/
def checkUsername (name : Given) : Except Fault Unit :=
  match name.present? with
  | none => .ok ()
  | some name => do
    Requirement.notEmpty "Name" (some name)
    Requirement.notLonger "Name" usernameLimit (some name)

def setUsername (name : Given) : Mutator Composer Unit := do
  checkUsername name
  modify fun c => { c with username := name.present? }

def setAvatarUrl (url : Given) : Mutator Composer Unit :=
  modify fun c => { c with avatarUrl := normalizeAvatarUrl url }

def addEmbeds (embeds : Listing (Option Element)) : Mutator Composer Unit := do
  let embeds ← Requirement.allPresent "Message Embeds" embeds
  let c ← get
  if c.embeds.length + embeds.length ≤ maxEmbeds then
    modify fun c => { c with embeds := c.embeds ++ embeds }
  else refuse (.tooManyEmbeds maxEmbeds)

def addRows (rows : List (Option Element)) : Mutator Composer Unit := do
  let rows ← Requirement.elements "ActionRows" rows
  let c ← get
  if c.rows.length + rows.length ≤ maxRows then
    modify fun c => { c with rows := c.rows ++ rows }
  else refuse (.tooManyRows maxRows)

/-- Adds a file, or replaces the one of its name. The limit is checked before the file is added, so
that it also refuses a replacement when the composer is full. -/
def addFile (name : Given) (source : Option ByteSource) (spoiler : Bool) :
    Mutator Composer Unit := do
  let name ← Requirement.present "Name" name.present?
  let source ← Requirement.present "Data" source
  let c ← get
  if c.files.length < maxFiles then
    let name ← Fault.lift (Attachment.finalName name spoiler)
    modify fun c => { c with files := Attachment.put c.files ⟨name, source⟩ }
  else refuse (.tooManyFiles maxFiles)

def onMentions (m : Mutator Mention.Tracker Unit) : Mutator Composer Unit :=
  m.onPart Composer.mentions fun c mentions => { c with mentions }

/-- Takes over the policy, the speech flag, the embeds, the rows and the content of a message. The
policy is the only one of them that is checked and goes first. -/
def applyMessage : Option Template → Mutator Composer Unit
  | none => refuse (.absent "Message")
  | some m => do
    onMentions (Mention.Tracker.applyMessage (some m.directive))
    setTts m.tts
    let embeds ← Fault.lift (m.embeds.spread "message.embeds")
    modify fun c => { c with embeds := c.embeds ++ embeds }
    let rows ← Fault.lift (m.rows.spread "message.components")
    modify fun c => { c with rows := c.rows ++ rows }
    setContent m.content

/-- What finalizing gives: the body, if it could be made, the composer without its files, and the
number of files that were taken earlier, if the caller may be missing them. -/
structure Finalization where
  body : Except Fault WireBody
  composer : Composer
  missing : Option Nat

/-- Takes the files out of the message, and then makes a body of both. The files are gone also when
the body cannot be made. A later body without files is reported when some were taken earlier. -/
def finalize (builders : Builders) (c : Composer) : Finalization where
  body := WireBody.build builders c.draft c.files
  composer :=
    { c with
      files := [], finalized := c.finalized + 1, consumed := c.consumed + c.files.length }
  missing := if 0 < c.finalized ∧ c.files = [] ∧ 0 < c.consumed then some c.consumed else none

end Composer

inductive Edit where
  | setContent (content : Given)
  | setTts (tts : Given)
  | setEphemeral (ephemeral : Given)
  | setUsername (name : Given)
  | setAvatarUrl (url : Given)
  | addEmbeds (embeds : Listing (Option Element))
  | addRows (rows : List (Option Element))
  | addFile (name : Given) (source : Option ByteSource) (spoiler : Bool)
  | choose (choice : Mention.Choice)
  | applyMessage (message : Option Template)

namespace Composer

def edit : Edit → Mutator Composer Unit
  | .setContent content => setContent content
  | .setTts tts => setTts tts
  | .setEphemeral ephemeral => setEphemeral ephemeral
  | .setUsername name => setUsername name
  | .setAvatarUrl url => setAvatarUrl url
  | .addEmbeds embeds => addEmbeds embeds
  | .addRows rows => addRows rows
  | .addFile name source spoiler => addFile name source spoiler
  | .choose choice => onMentions (Mention.Tracker.choose choice)
  | .applyMessage message => applyMessage message

end Composer

end Courier
