import Courier.LogLevel
import Courier.Message
import Courier.WireBody

namespace Courier

structure Response where
  status : Given
  body : Given := none

namespace Response

def ofGiven : Given → Except Absence Response
  | none => .error .missing
  | some .null => .error .null
  | some value => .ok { status := value.get? "status", body := value.get? "body" }

def isSuccess (status : Given) : Except Mismatch Bool :=
  status.number?.map fun number => number.any (Number.isBetween 200 300)

def object (r : Response) : Except Fault Json :=
  match r.body with
  | some (.object members) => .ok (.object members)
  | _ =>
    match r.status.text with
    | .ok status => refuse (.notAnObject status)
    | .error cause => .error (.mismatch cause)

def objectOf : Except Absence Response → Except Fault Json
  | .ok response => response.object
  | .error how => .error (.mismatch (.noMember "body" how))

end Response

inductive Delivery where
  | message (m : Message)
  | other (value : Given)

namespace Delivery

/-- The identifier of what is delivered. Nothing and null cannot be asked for one. -/
def id? : Delivery → Except Mismatch Given
  | message m => .ok (.ofText m.id)
  | other value => value.member "id"

def template? : Delivery → Option Template
  | message m => some m.toTemplate
  | other value => value.present?.map (.ofJson .fixed)

end Delivery

inductive LogRecord where
  | finalizedAgain (route : String) (consumed : Nat)
  | finalized (route : String) (kind : String) (files : Nat)
  | messageCreated (route : String) (messageId : Given)
  | requestFailed (route : String) (fault : Fault)

namespace LogRecord

def level : LogRecord → LogLevel
  | finalizedAgain .. => .warn
  | finalized .. => .debug
  | messageCreated .. => .debug
  | requestFailed .. => .error

def message : LogRecord → String
  | finalizedAgain .. =>
    "webhook:finalized again after attachments were consumed; sending without them"
  | finalized .. => "webhook:finalize"
  | messageCreated .. => "webhook:message created"
  | requestFailed .. => "rest:request failed"

def fields : LogRecord → List (String × Json)
  | finalizedAgain route consumed =>
    [("route", .string route), ("consumedAttachments", .number (.ofNat consumed))]
  | finalized route kind files =>
    [("route", .string route), ("type", .string kind), ("files", .number (.ofNat files))]
  | messageCreated route messageId =>
    ("route", .string route) :: (messageId.map fun id => ("messageId", id)).toList
  | requestFailed route _ => [("route", .string route)]

def fault? : LogRecord → Option Fault
  | requestFailed _ fault => some fault
  | _ => none

end LogRecord

/-- Where records go: to a log that takes all of them, to one that takes no debugging records, or
nowhere. -/
inductive Logger where
  | full | withoutDebug | silent
  deriving DecidableEq

def Logger.writes : Logger → LogLevel → Bool
  | full, _ => true
  | withoutDebug, level => level ≠ .debug
  | silent, _ => false

/-- Whether a logger is asked to write debugging records, even if it drops them. -/
def Logger.hasDebug : Logger → Bool
  | withoutDebug => false
  | _ => true

/-- Something that happened in a session. The requests are numbered in the order in which the
engine received them. A request reports success or failure whether or not a callback listens, and
a promise is resolved or rejected besides. -/
inductive Event where
  | execute (request : Nat)
  | body (body : WireBody)
  | log (record : LogRecord)
  | assemble (payload : Json) (channel : Given) (cacheBacked : Bool)
  | success (request : Nat) (value : Delivery)
  | failure (request : Nat) (fault : Fault)
  | resolved (request : Nat) (value : Delivery)
  | rejected (request : Nat) (fault : Fault)

end Courier
