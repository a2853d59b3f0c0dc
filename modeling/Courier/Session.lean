import Courier.Composer
import Courier.Route
import Courier.Session.Event

/-!
A session is a message being written together with the requests that send it. An engine performs
the requests: it asks for bodies and hands back responses or failures, at once or later, and each
request reports one outcome to whoever made it.
-/

namespace Courier

/-- Makes what is delivered of the payload of a response, for a channel, from a cache or not. -/
abbrev Assembler := Json → Given → Bool → Except Fault Delivery

def Assembler.standard : Assembler :=
  fun payload channel cacheBacked =>
    (Message.ofPayload payload channel (.ofBool cacheBacked)).map .message

structure Setup where
  route : Route
  channel : Given
  assembler : Assembler := .standard
  logger : Logger := .full

structure Callback where
  throws : Option Fault := none

def Callback.result (callback : Callback) : Except Fault Unit :=
  match callback.throws with
  | some fault => .error fault
  | none => .ok ()

/-- Who is told about the outcome of a request: callbacks, of which each may be missing, or a
promise that is settled once. -/
inductive Listener where
  | callbacks (success failure : Option Callback)
  | promise (pending : Bool)

def Listener.hearsSuccess : Listener → Bool
  | .callbacks success _ => success.isSome
  | .promise _ => false

def Listener.hearsFailure : Listener → Bool
  | .callbacks _ failure => failure.isSome
  | .promise _ => false

structure Request where
  listener : Listener
  isDone : Bool := false

structure Session where
  composer : Composer := {}
  builders : Builders := .unset
  requests : List Request := []
  events : List Event := []

inductive EngineCall where
  | finalize
  | respond (response : Except Absence Response)
  | succeed (value : Delivery)
  | fail (reason : Reason)

/-- What an engine does while it receives a request: some calls, and possibly an error at the
end. -/
structure Behaviour where
  calls : List EngineCall := []
  throws : Option Fault := none

namespace Session

def start (defaults : Mention.Defaults) (builders : Builders) : Session where
  composer := { mentions := { defaults } }
  builders := builders

def record (s : Session) (event : Event) : Session :=
  { s with events := s.events ++ [event] }

def log (setup : Setup) (s : Session) (entry : LogRecord) : Session :=
  if setup.logger.writes entry.level then s.record (.log entry) else s

/-- Whether a request has reported its outcome. A request that was never made has none to
report. -/
def isDone (s : Session) (request : Nat) : Bool :=
  match s.requests[request]? with
  | some r => r.isDone
  | none => true

def noRequest (s : Session) (asked : String) : Session × Except Fault Unit :=
  (s, .error (.mismatch (.noMember asked .missing)))

def setRequest (s : Session) (request : Nat) (r : Request) : Session :=
  { s with requests := s.requests.set request r }

/-- Finalizes the message. An error of the body goes to the caller, and then no body is recorded,
while the report of missing files is written before. -/
def finalize (setup : Setup) (s : Session) : Except Fault WireBody × Session :=
  let f := s.composer.finalize s.builders
  let files := s.composer.files.length
  let route := setup.route.redacted
  let s := { s with composer := f.composer }
  let s := match f.missing with
    | some consumed => s.log setup (.finalizedAgain route consumed)
    | none => s
  match f.body with
  | .error fault => (.error fault, s)
  | .ok body =>
    let s := s.log setup (.finalized route body.kindName files)
    (.ok body, s.record (.body body))

def settlePromise (s : Session) (request : Nat) (isDone pending : Bool) (event : Event) :
    Session :=
  let s := s.setRequest request ⟨.promise false, isDone⟩
  if pending then s.record event else s

/-- Reports success, unless the request has reported its outcome already. An error of the callback
goes to the caller. -/
def succeed (request : Nat) (value : Delivery) (s : Session) : Session × Except Fault Unit :=
  match s.requests[request]? with
  | none => s.noRequest "onSuccess"
  | some ⟨_, true⟩ => (s, .ok ())
  | some ⟨.callbacks success failure, false⟩ =>
    let s := s.setRequest request ⟨.callbacks success failure, true⟩
    let s := s.record (.success request value)
    match success with
    | some callback => (s, callback.result)
    | none => (s, .ok ())
  | some ⟨.promise pending, false⟩ =>
    let s := s.record (.success request value)
    (s.settlePromise request true pending (.resolved request value), .ok ())

/-- Tells the listener of a request about a failure. Where nobody listens for failures, the log
does. -/
def announceFailure (setup : Setup) (request : Nat) (fault : Fault) (s : Session) :
    Listener → Session × Except Fault Unit
  | .callbacks _ failure =>
    let s := s.record (.failure request fault)
    match failure with
    | some callback => (s, callback.result)
    | none => (s.log setup (.requestFailed setup.route.redacted fault), .ok ())
  | .promise pending =>
    let s := s.record (.failure request fault)
    (s.settlePromise request true pending (.rejected request fault), .ok ())

/-- Reports a failure, unless the request has reported its outcome already. A reason without a text
settles the request all the same, but nobody is told, and the caller gets the error. -/
def fail (setup : Setup) (request : Nat) (reason : Reason) (s : Session) :
    Session × Except Fault Unit :=
  match s.requests[request]? with
  | none => s.noRequest "onFailure"
  | some ⟨_, true⟩ => (s, .ok ())
  | some ⟨listener, false⟩ =>
    let s := s.setRequest request ⟨listener, true⟩
    match reason.toFault with
    | .error cause => (s, .error (.mismatch cause))
    | .ok fault => s.announceFailure setup request fault listener

def logCreated (setup : Setup) (delivery : Delivery) (s : Session) : Except Mismatch Session :=
  if setup.logger.hasDebug then
    match delivery.id? with
    | .ok id => .ok (s.log setup (.messageCreated setup.route.redacted id))
    | .error cause => .error cause
  else .ok s

def handleSuccess (setup : Setup) (request : Nat) (response : Except Absence Response)
    (s : Session) : Session × Except Fault Unit :=
  match Response.objectOf response with
  | .error fault => (s, .error fault)
  | .ok payload =>
    let s := s.record (.assemble payload setup.channel false)
    match setup.assembler payload setup.channel false with
    | .error fault => (s, .error fault)
    | .ok delivery =>
      match s.logCreated setup delivery with
      | .error cause => (s, .error (.mismatch cause))
      | .ok s => s.succeed request delivery

/-- Turns a response into the outcome of a request that has none yet. An error on the way is a
failure of the request, unless it comes from the callback that was told of the success. -/
def settle (setup : Setup) (request : Nat) (response : Response) (s : Session) :
    Session × Except Fault Unit :=
  match Response.isSuccess response.status with
  | .error cause => (s, .error (.mismatch cause))
  | .ok false => s.fail setup request (.fault (.ofResponse response.status response.body))
  | .ok true =>
    match s.handleSuccess setup request (.ok response) with
    | (s, .ok ()) => (s, .ok ())
    | (s, .error fault) =>
      if s.isDone request then (s, .error fault) else s.fail setup request (.fault fault)

def handleResponse (setup : Setup) (request : Nat) (response : Except Absence Response)
    (s : Session) : Session × Except Fault Unit :=
  match s.requests[request]? with
  | none => s.noRequest "handleResponse"
  | some ⟨_, true⟩ => (s, .ok ())
  | some ⟨_, false⟩ =>
    match response with
    | .ok response => s.settle setup request response
    | .error how => (s, .error (.mismatch (.noMember "status" how)))

def finalizeFor (setup : Setup) (request : Nat) (s : Session) : Session × Except Fault Unit :=
  match s.requests[request]? with
  | none => s.noRequest "action"
  | some _ =>
    let (body, s) := s.finalize setup
    (s, body.map fun _ => ())

def perform (setup : Setup) (request : Nat) (s : Session) :
    EngineCall → Session × Except Fault Unit
  | .finalize => s.finalizeFor setup request
  | .respond response => s.handleResponse setup request response
  | .succeed value => s.succeed request value
  | .fail reason => s.fail setup request reason

/-- Performs calls of an engine up to the first that throws, and then the error that the engine
itself throws. -/
def performAll (setup : Setup) (request : Nat) (throws : Option Fault) :
    List EngineCall → Session → Session × Except Fault Unit
  | [], s =>
    match throws with
    | some fault => (s, .error fault)
    | none => (s, .ok ())
  | call :: rest, s =>
    match s.perform setup request call with
    | (s, .error fault) => (s, .error fault)
    | (s, .ok ()) => performAll setup request throws rest s

def receive (listener : Listener) (s : Session) : Session :=
  record { s with requests := s.requests ++ [{ listener }] } (.execute s.requests.length)

def launch (setup : Setup) (listener : Listener) (engine : Behaviour) (s : Session) :
    Session × Except Fault Unit :=
  performAll setup s.requests.length engine.throws engine.calls (s.receive listener)

def queue (setup : Setup) (success failure : Option Callback) (engine : Behaviour)
    (s : Session) : Session × Except Fault Unit :=
  s.launch setup (.callbacks success failure) engine

def reject (request : Nat) (fault : Fault) (s : Session) : Session :=
  match s.requests[request]? with
  | some ⟨.promise pending, isDone⟩ =>
    s.settlePromise request isDone pending (.rejected request fault)
  | _ => s

/-- Sends the message, with a promise for the outcome; an error of the engine rejects it. -/
def submit (setup : Setup) (engine : Behaviour) (s : Session) : Session :=
  let request := s.requests.length
  match s.launch setup (.promise true) engine with
  | (s, .ok ()) => s
  | (s, .error fault) => s.reject request fault

inductive Step where
  | edit (edit : Edit)
  | setBuilder (name : String) (built : Except Fault Built)
  | finalize
  | queue (success failure : Option Callback) (engine : Behaviour)
  | submit (engine : Behaviour)
  | engine (request : Nat) (call : EngineCall)
  | handleSuccess (request : Nat) (response : Except Absence Response)

def step (setup : Setup) (s : Session) : Step → Session × Except Fault Unit
  | .edit edit =>
    let (composer, outcome) := (Composer.edit edit).perform s.composer
    ({ s with composer }, outcome)
  | .setBuilder name built => ({ s with builders := s.builders.set name built }, .ok ())
  | .finalize =>
    let (body, s) := s.finalize setup
    (s, body.map fun _ => ())
  | .queue success failure engine => s.queue setup success failure engine
  | .submit engine => (s.submit setup engine, .ok ())
  | .engine request call => s.perform setup request call
  | .handleSuccess request response => s.handleSuccess setup request response

def run (setup : Setup) : List Step → Session → Session × List (Except Fault Unit) :=
  Script.run (step setup)

end Session

end Courier
