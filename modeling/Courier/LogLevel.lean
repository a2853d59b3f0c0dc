import Courier.Fault
import Courier.Text

namespace Courier

/-- The levels of a log, the most severe first; at the level `silent` nothing is written. -/
inductive LogLevel where
  | fatal | error | warn | info | debug | trace | silent
  deriving DecidableEq, Inhabited

namespace LogLevel

def all : List LogLevel :=
  [fatal, error, warn, info, debug, trace, silent]

def name : LogLevel → String
  | fatal => "fatal"
  | error => "error"
  | warn => "warn"
  | info => "info"
  | debug => "debug"
  | trace => "trace"
  | silent => "silent"

def ofName? (s : String) : Option LogLevel :=
  all.find? (·.name == s)

def standard : LogLevel :=
  info

/-- The level that a setting names, whatever its case and padding; the standard level when it
names none. -/
def resolve (raw : Option String) : LogLevel :=
  (raw.bind fun s => ofName? (Text.normalize s)).getD standard

def resolveGiven (raw : Given) : Except Mismatch LogLevel :=
  match raw.present? with
  | none => .ok standard
  | some (.string s) => .ok (resolve (some s))
  | some _ => .error (.notCallable "raw?.trim")

def rank : LogLevel → Nat
  | fatal => 0
  | error => 1
  | warn => 2
  | info => 3
  | debug => 4
  | trace => 5
  | silent => 6

def enabled (level : LogLevel) : List LogLevel :=
  if level = silent then [] else all.filter fun other => other.rank ≤ level.rank

/-- The number of a level; that of the silent one is infinite. -/
def code : LogLevel → Number
  | fatal => 60
  | error => 50
  | warn => 40
  | info => 30
  | debug => 20
  | trace => 10
  | silent => .infinite false

/-- Words that a log takes for levels although they name none. At them nothing is written. -/
def reservedWords : List String :=
  ["__defineGetter__", "__defineSetter__", "__lookupGetter__", "__lookupSetter__", "__proto__",
    "constructor", "hasOwnProperty", "isPrototypeOf", "propertyIsEnumerable", "toLocaleString",
    "toString", "valueOf"]

def ofWord (word : String) : Except BadSetting (Option LogLevel) :=
  match ofName? word with
  | some level => .ok (some level)
  | none => if reservedWords.contains word then .ok none else .error (.level word)

def lowerWord (word : String) : String :=
  let lowered := Text.lower word
  match ofName? lowered with
  | some level => if level = silent then word else lowered
  | none => if reservedWords.contains lowered then lowered else word

/-- The level to which a log is set by a value: by its name, whatever the case, or by its number.
Any other value has to have the name of a level as its text. -/
def choose (given : Given) : Except Fault (Option LogLevel) :=
  match given with
  | some (.string word) => (ofWord (lowerWord word)).mapError .setting
  | some (.number n) =>
    match all.find? (·.code = n) with
    | some level => .ok (some level)
    | none => .error (.setting (.level n.text))
  | _ =>
    match given.text with
    | .ok word => (ofWord word).mapError .setting
    | .error cause => .error (.mismatch cause)

end LogLevel

def loggerName : String :=
  "webhook-message-kit"

end Courier
