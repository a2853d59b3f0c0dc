import Courier.Given

namespace Courier

inductive Refusal where
  | because (message : String)
  | absent (name : String)
  | absentElement (name : String)
  | empty (name : String)
  | tooLong (name limit : String)
  | notSnowflake (name value : String)
  | tooManyEmbeds (limit : Nat)
  | tooManyFiles (limit : Nat)
  | tooManyRows (limit : Nat)
  | notAnObject (status : String)
  deriving DecidableEq

def Refusal.message : Refusal → String
  | .because message => message
  | .absent name => name ++ " may not be null"
  | .absentElement name => name ++ " may not contain null elements"
  | .empty name => name ++ " may not be empty"
  | .tooLong name limit => name ++ " may not be longer than " ++ limit ++ " characters"
  | .notSnowflake name value => name ++ " must be a valid snowflake, got \"" ++ value ++ "\""
  | .tooManyEmbeds limit => "Cannot have more than " ++ limit.repr ++ " embeds in a message!"
  | .tooManyFiles limit => "Cannot have more than " ++ limit.repr ++ " files in a message!"
  | .tooManyRows limit => "Can only have " ++ limit.repr ++ " action rows per message!"
  | .notAnObject status => "Expected a JSON object in the " ++ status ++ " response body"

inductive BadSetting where
  | choice (name : String) (allowed : List String) (raw : String)
  | flag (name : String) (raw : String)
  | level (raw : String)
  deriving DecidableEq

def BadSetting.message : BadSetting → String
  | .choice name allowed raw =>
    name ++ " must be one of " ++ ", ".intercalate allowed ++ ", got \"" ++ raw ++ "\""
  | .flag name raw =>
    name ++ " must be \"0\"/\"1\" or \"true\"/\"false\", got \"" ++ raw ++ "\""
  | .level raw => "default level:" ++ raw ++ " must be included in custom levels"

inductive Fault where
  | refused (cause : Refusal)
  | errorResponse (status body : Given)
  | missingField (name : String)
  | mismatch (cause : Mismatch)
  | setting (cause : BadSetting)
  | textTooLong
  | typeError (message : String)
  | error (message : String)

def describeBody (body : Given) : String :=
  match body.bind (·.text? "message") with
  | some message => " (" ++ message ++ ")"
  | none => ""

def Fault.message : Fault → String
  | .refused cause => cause.message
  | .errorResponse status body =>
    "Discord API error: " ++ status.textOrEmpty ++ describeBody body
  | .missingField name => "Message payload is missing \"" ++ name ++ "\""
  | .mismatch cause => cause.message
  | .setting cause => cause.message
  | .textTooLong => "Invalid string length"
  | .typeError message => message
  | .error message => message

/-- The error of a response outside the successful range. Its status must have a text. -/
def Fault.ofResponse (status body : Given) : Fault :=
  match status.text with
  | .ok _ => .errorResponse status body
  | .error cause => .mismatch cause

def refuse {α : Type} (cause : Refusal) : Except Fault α :=
  .error (.refused cause)

def Fault.lift {α : Type} : Except Mismatch α → Except Fault α
  | .ok value => .ok value
  | .error cause => .error (.mismatch cause)

inductive Reason where
  | fault (raised : Fault)
  | value (given : Given)

/-- A reason as an error: the text of a value that is none becomes the message of one. -/
def Reason.toFault : Reason → Except Mismatch Fault
  | .fault raised => .ok raised
  | .value given => given.text.map .error

end Courier
