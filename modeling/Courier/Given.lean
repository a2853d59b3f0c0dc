import Courier.Json.Writer
import Courier.Number
import Courier.Text

namespace Courier

inductive Absence where
  | missing | null
  deriving DecidableEq

def Absence.word : Absence → String
  | .missing => "undefined"
  | .null => "null"

inductive Mismatch where
  | noText
  | noMember (key : String) (absence : Absence)
  | nothingToSpread (name : String) (absence : Absence)
  | notSpread
  | notIterable (name : String)
  | notCollected (description : String)
  | notCallable (name : String)
  deriving DecidableEq

def Mismatch.message : Mismatch → String
  | .noText => "Cannot convert object to primitive value"
  | .noMember key absence =>
    "Cannot read properties of " ++ absence.word ++ " (reading '" ++ key ++ "')"
  | .nothingToSpread name absence =>
    name ++ " is not iterable (cannot read property " ++ absence.word ++ ")"
  | .notSpread => "Spread syntax requires ...iterable[Symbol.iterator] to be a function"
  | .notIterable name => name ++ " is not iterable"
  | .notCollected description =>
    description ++ " is not iterable (cannot read property Symbol(Symbol.iterator))"
  | .notCallable name => name ++ " is not a function"

/-- What was given for something: a value of JSON, or nothing. -/
abbrev Given := Option Json

namespace Given

def ofBool (b : Bool) : Given :=
  some (.bool b)

def ofText (s : String) : Given :=
  some (.string s)

def present? (given : Given) : Option Json :=
  given.bind Json.nonNull

def isOn (given : Given) : Bool :=
  given.any Json.countsAsTrue

def text : Given → Except Mismatch String
  | none => .ok Absence.missing.word
  | some value =>
    match value.plainText? with
    | some text => .ok text
    | none => .error .noText

def textOrEmpty (given : Given) : String :=
  match text given with
  | .ok text => text
  | .error _ => ""

def access (key : String) (read : Json → Given) : Given → Except Mismatch Given
  | none => .error (.noMember key .missing)
  | some .null => .error (.noMember key .null)
  | some value => .ok (read value)

def member (key : String) (given : Given) : Except Mismatch Given :=
  access key (Json.get? key) given

/-- A text, of which something is going to be replaced; no other value allows that. -/
def replaceable (name : String) : Given → Except Mismatch String
  | some (.string s) => .ok s
  | some .null => .error (.noMember "replace" .null)
  | none => .error (.noMember "replace" .missing)
  | some _ => .error (.notCallable (name ++ ".replace"))

/-- The length of a value: of a text in UTF-16 code units, of an array in elements, and of an
object what it says. -/
def length (given : Given) : Except Mismatch Given :=
  access "length" (fun
    | .string s => some (.number (.ofNat (Text.units16 s)))
    | .array items => some (.number (.ofNat items.length))
    | value => value.get? "length") given

inductive Comparand where
  | number (value : Option Number)
  | text (value : String)

def Comparand.number? : Comparand → Option Number
  | number value => value
  | text value => Number.ofText? value

def Comparand.isLess : Comparand → Comparand → Bool
  | text a, text b => Text.isLess16 a b
  | a, b =>
    match a.number?, b.number? with
    | some a, some b => a.isLess b
    | _, _ => false

/-- What a value is compared as: nothing and null, flags and numbers as numbers, and anything else
as its text. -/
def comparand : Given → Except Mismatch Comparand
  | none => .ok (.number none)
  | some .null => .ok (.number (some 0))
  | some (.bool b) => .ok (.number (some (if b then 1 else 0)))
  | some (.number n) => .ok (.number (some n))
  | some value => (text (some value)).map .text

def number? (given : Given) : Except Mismatch (Option Number) :=
  (comparand given).map Comparand.number?

def isLess (a b : Given) : Except Mismatch Bool :=
  match comparand a with
  | .error cause => .error cause
  | .ok a => (comparand b).map a.isLess

end Given

/-- What was given for a list: nothing or null, a value that is no list, or some elements. -/
inductive Listing (α : Type) where
  | absent (how : Absence)
  | notAList (value : Json)
  | elements (elements : List α)

namespace Listing

variable {α : Type}

/-- Reads a list: the items of an array, or the characters of a text. -/
def read (readElement : Json → α) : Given → Listing α
  | none => absent .missing
  | some .null => absent .null
  | some (.array items) => elements (items.map readElement)
  | some (.string s) => elements (s.toList.map fun c => readElement (.string c.toString))
  | some value => notAList value

def orEmpty : Listing α → Listing α
  | absent _ => elements []
  | listing => listing

def spread (name : String) : Listing α → Except Mismatch (List α)
  | absent how => .error (.nothingToSpread name how)
  | notAList _ => .error .notSpread
  | elements items => .ok items

def describe : Json → String
  | .bool b => "boolean " ++ (if b then "true" else "false")
  | .number n => "number " ++ n.text
  | _ => "object"

/-- The elements, in order to make a set of them; an absent list is an empty one. -/
def collect : Listing α → Except Mismatch (List α)
  | absent _ => .ok []
  | notAList value => .error (.notCollected (describe value))
  | elements items => .ok items

end Listing

end Courier
