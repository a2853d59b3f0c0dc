import Courier.Given
import Courier.Text

namespace Courier.Query

def isPlain (c : Char) : Bool :=
  c.isAlphanum || c == '*' || c == '-' || c == '.' || c == '_'

def hexDigit (n : Nat) : Char :=
  (Nat.digitChar n).toUpper

def percentByte (b : UInt8) : List Char :=
  ['%', hexDigit (b.toNat / 16), hexDigit (b.toNat % 16)]

/-- The encoding of a character: a space is a plus sign, and what is not plain is written as its
bytes in UTF-8. -/
def encodeChar (c : Char) : List Char :=
  if c = ' ' then ['+']
  else if isPlain c then [c]
  else (String.utf8EncodeChar c).flatMap percentByte

def encodeText (s : String) : List Char :=
  s.toList.flatMap encodeChar

def encodePair (pair : String × String) : List Char :=
  encodeText pair.1 ++ '=' :: encodeText pair.2

def encodeChars : List (String × String) → List Char
  | [] => []
  | [pair] => encodePair pair
  | pair :: rest => encodePair pair ++ '&' :: encodeChars rest

def encode (pairs : List (String × String)) : String :=
  .ofList (encodeChars pairs)

/-- The bytes that some encoded characters stand for; a percent sign without two digits stands for
itself. -/
def decodeBytes : List Char → List UInt8
  | [] => []
  | '+' :: rest => 0x20 :: decodeBytes rest
  | '%' :: a :: b :: rest =>
    match Text.hexValue? a, Text.hexValue? b with
    | some high, some low => .ofNat (high * 16 + low) :: decodeBytes rest
    | _, _ => 0x25 :: decodeBytes (a :: b :: rest)
  | c :: rest => String.utf8EncodeChar c ++ decodeBytes rest

def decodeText? (cs : List Char) : Option String :=
  String.fromUTF8? (decodeBytes cs).toByteArray

/-- The parameter that some encoded characters stand for: the value begins after the first equals
sign. -/
def decodePair? (cs : List Char) : Option (String × String) := do
  let name ← decodeText? (cs.takeWhile (· != '='))
  let value ← decodeText? ((cs.dropWhile (· != '=')).drop 1)
  return (name, value)

def decode? (query : String) : Option (List (String × String)) :=
  ((query.toList.splitOnP (· == '&')).filter (! ·.isEmpty)).mapM decodePair?

end Courier.Query

namespace Courier

/-- A route with its parameters filled in. The query has no leading question mark and is empty when
there is none. -/
structure Route where
  method : String
  path : String
  query : String := ""
  deriving DecidableEq

namespace Route

def apiBase : String :=
  "https://discord.com/api/v10"

structure ExecuteOptions where
  wait : Given := none
  threadId : Given := none

def ExecuteOptions.ofGiven : Given → Except Mismatch ExecuteOptions
  | none => .ok {}
  | some .null => .error (.noMember "wait" .null)
  | some options =>
    let wait := options.get? "wait"
    let threadId := options.get? "threadId"
    match Given.text wait, Given.text threadId with
    | .ok _, .ok _ => .ok { wait, threadId }
    | .error cause, _ => .error cause
    | .ok _, .error cause => .error cause

def waitParameter (wait : Given) : List (String × String) :=
  match wait with
  | some value => [("wait", Given.textOrEmpty (some value))]
  | none => []

/-- The parameter that names the thread; what does not count as true, such as an empty name, names
none. -/
def threadParameter (threadId : Given) : List (String × String) :=
  if threadId.isOn then [("thread_id", threadId.textOrEmpty)] else []

def parameters (options : ExecuteOptions) : List (String × String) :=
  waitParameter options.wait ++ threadParameter options.threadId

def webhookPath (id token : String) : String :=
  if token.isEmpty then "/webhooks/" ++ id else "/webhooks/" ++ id ++ "/" ++ token

def executeWebhook (id token : String) (options : ExecuteOptions := {}) : Route where
  method := "POST"
  path := webhookPath id token
  query := Query.encode (parameters options)

def followUp (applicationId token : String) : Route :=
  executeWebhook applicationId token { wait := .ofBool true }

def interactionCallback (id token : String) : Route where
  method := "POST"
  path := "/interactions/" ++ id ++ "/" ++ token ++ "/callback"

def dropTrailingSlashes (base : String) : String :=
  .ofList (base.toList.reverse.dropWhile (· == '/')).reverse

def url (route : Route) (base : String := apiBase) : String :=
  let address := dropTrailingSlashes base ++ route.path
  if route.query.isEmpty then address else address ++ "?" ++ route.query

def urlBehind (route : Route) : Given → Except Mismatch String
  | none => .ok route.url
  | base => (base.replaceable "baseUrl").map fun base => route.url base

def afterStart? : List Char → List Char → Option (List Char)
  | [], cs => some cs
  | _ :: _, [] => none
  | p :: ps, c :: cs => if p = c then afterStart? ps cs else none

def webhookStart : List Char :=
  "/webhooks/".toList

/-- A path with the token of a webhook blotted out: the segment after a number that follows the
beginning of a webhook's path. -/
def redactPath (path : List Char) : List Char :=
  match afterStart? webhookStart path with
  | none => path
  | some rest =>
    match rest.takeWhile Char.isDigit, rest.dropWhile Char.isDigit with
    | d :: ds, '/' :: tail =>
      if (tail.takeWhile (· != '/')).isEmpty then path
      else webhookStart ++ d :: ds ++ "/:token".toList ++ tail.dropWhile (· != '/')
    | _, _ => path

/-- A route as it may be logged: the token of a webhook is a credential. -/
def redacted (route : Route) : String :=
  route.method ++ " " ++ .ofList (redactPath route.path.toList)

def redactedOf (method path : Given) : Except Mismatch String :=
  match method.text, path.replaceable "route.path" with
  | .ok method, .ok path => .ok (redacted { method, path })
  | .error cause, _ => .error cause
  | .ok _, .error cause => .error cause

end Route

end Courier
