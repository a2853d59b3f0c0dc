import Courier.Given

namespace Courier

inductive CallbackType where
  | messageWithSource | deferredMessageWithSource | deferredUpdate | update
  deriving DecidableEq

namespace CallbackType

def all : List CallbackType :=
  [messageWithSource, deferredMessageWithSource, deferredUpdate, update]

def name : CallbackType → String
  | messageWithSource => "message-with-source"
  | deferredMessageWithSource => "deferred-message-with-source"
  | deferredUpdate => "deferred-update"
  | update => "update"

def code : CallbackType → Nat
  | messageWithSource => 4
  | deferredMessageWithSource => 5
  | deferredUpdate => 6
  | update => 7

def ofName? (s : String) : Option CallbackType :=
  all.find? (·.name == s)

def ofCode? (n : Number) : Option CallbackType :=
  all.find? fun type => Number.ofNat type.code = n

def ofJson? (value : Given) : Option CallbackType :=
  (value.bind Json.asString?).bind ofName?

/-- The word under which the table of codes keeps what it rests on, an empty object. -/
def foundationWord : String :=
  "__proto__"

/-- The code of a word. Words that name no type have none, except the one for the foundation. -/
def codeOfWord (word : String) : Given :=
  match ofName? word with
  | some type => some (.number (.ofNat type.code))
  | none => if word = foundationWord then some (.object []) else none

def codeOfGiven (type : Given) : Except Mismatch Given :=
  type.text.map codeOfWord

end CallbackType

structure CallbackBody where
  code : Given
  data : Given := none

def CallbackBody.build (type : CallbackType) (data : Given) : CallbackBody where
  code := some (.number (.ofNat type.code))
  data := data

def CallbackBody.buildGiven (type data : Given) : Except Mismatch CallbackBody :=
  (CallbackType.codeOfGiven type).map fun code => { code, data }

def CallbackBody.toJson (body : CallbackBody) : Json :=
  .object <|
    (body.code.map fun code => ("type", code)).toList ++
      (body.data.map fun data => ("data", data)).toList

end Courier
