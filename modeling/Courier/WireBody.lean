import Courier.Draft
import Courier.Fault
import Courier.Given
import Courier.Json.Writer

namespace Courier

abbrev Bytes := List UInt8

/-- What the bytes of an attachment come from: a buffer, a window on some bytes, a blob with a
media type of its own, a stream, which gives its chunks to the first reader and may fail behind
them, or nothing at all. -/
inductive ByteContent where
  | buffer (bytes : Bytes)
  | window (bytes : Bytes) (start stop : Option Nat)
  | blob (bytes : Bytes) (mediaType : Option String)
  | stream (chunks : List Bytes) (error : Option String)
  | nothing (how : Absence)
  deriving DecidableEq

/-- A source of bytes. Its number tells it apart from others with the same content. -/
structure ByteSource where
  number : Nat
  content : ByteContent
  deriving DecidableEq

structure Attachment where
  name : Json
  source : ByteSource

namespace Attachment

/-- Puts an attachment at the end, or in the place of the one that has its name. -/
def put : List Attachment → Attachment → List Attachment
  | [], a => [a]
  | b :: rest, a => if b.name.isSame a.name then a :: rest else b :: put rest a

def spoilerMark : String :=
  "SPOILER_"

def isMarked (options : List Json) : Bool :=
  options.head?.any (Json.isSame (.string "spoiler"))

def finalName (name : Json) (spoiler : Bool) : Except Mismatch Json :=
  if spoiler then (Given.text (some name)).map fun text => .string (spoilerMark ++ text)
  else .ok name

end Attachment

namespace MediaType

def json : String :=
  "application/json"

def multipart : String :=
  "multipart/form-data"

def octetStream : String :=
  "application/octet-stream"

end MediaType

/-- A part of a body: a file, whose bytes are not read yet, or a field. -/
inductive Part where
  | file (name : String) (filename : Given) (mediaType : String) (source : ByteSource)
  | field (name value : String)

inductive WireBody where
  | json (payload : Payload)
  | multipart (payload : Payload) (parts : List Part)

namespace WireBody

def payloadField : String :=
  "payload_json"

def fileName (i : Nat) : String :=
  "file" ++ i.repr

def fileParts : Nat → List Attachment → List Part
  | _, [] => []
  | i, a :: rest =>
    .file (fileName i) (some a.name) MediaType.octetStream a.source :: fileParts (i + 1) rest

/-- The body of a draft and of the files that it takes. The payload is made first, and its text only
where there are files. -/
def build (builders : Builders) (d : Draft) (attachments : List Attachment) :
    Except Fault WireBody := do
  let payload ← Payload.ofDraft builders d
  if attachments.isEmpty then return .json payload
  let text ← payload.text
  return .multipart payload (fileParts 0 attachments ++ [.field payloadField text])

def payload : WireBody → Payload
  | .json payload => payload
  | .multipart payload _ => payload

def parts : WireBody → List Part
  | .json _ => []
  | .multipart _ parts => parts

def kindName : WireBody → String
  | .json _ => "json"
  | .multipart _ _ => "multipart"

def mediaType : WireBody → String
  | .json _ => MediaType.json
  | .multipart _ _ => MediaType.multipart

end WireBody

inductive FormEntry where
  | text (name value : String)
  | file (name filename mediaType : String) (bytes : Bytes)
  deriving DecidableEq

namespace FormData

abbrev Drained := List Nat

/-- The bytes of a source, and the streams that are drained after they were read. -/
def readSource (drained : Drained) (source : ByteSource) : Except Fault (Bytes × Drained) :=
  match source.content with
  | .buffer bytes => .ok (bytes, drained)
  | .window bytes start stop =>
    .ok ((bytes.take (stop.getD bytes.length)).drop (start.getD 0), drained)
  | .blob bytes _ => .ok (bytes, drained)
  | .nothing how => .error (.mismatch (.noMember "byteLength" how))
  | .stream chunks error =>
    if source.number ∈ drained then .ok ([], drained)
    else
      match error with
      | some message => .error (.error message)
      | none => .ok (chunks.flatten, source.number :: drained)

/-- The entries of some parts, in order, or the error of the first file that has no bytes or no
name; beside them the streams that are drained by then. -/
def materialize : Drained → List Part → Except Fault (List FormEntry) × Drained
  | drained, [] => (.ok [], drained)
  | drained, .field name value :: rest =>
    match materialize drained rest with
    | (.ok entries, drained) => (.ok (.text name value :: entries), drained)
    | (.error fault, drained) => (.error fault, drained)
  | drained, .file name filename mediaType source :: rest =>
    match readSource drained source with
    | .error fault => (.error fault, drained)
    | .ok (bytes, drained) =>
      match filename.text with
      | .error cause => (.error (.mismatch cause), drained)
      | .ok filename =>
        match materialize drained rest with
        | (.ok entries, drained) => (.ok (.file name filename mediaType bytes :: entries), drained)
        | (.error fault, drained) => (.error fault, drained)

end FormData

end Courier
