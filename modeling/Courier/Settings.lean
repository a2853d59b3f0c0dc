import Courier.Fault
import Courier.LogLevel
import Courier.Mention.Policy

namespace Courier

structure Environment where
  logLevel : Given := none
  allowedMentions : Given := none
  repliedUser : Given := none

namespace Environment

def logLevelName : String :=
  "LOG_LEVEL"

def allowedMentionsName : String :=
  "WEBHOOK_DEFAULT_ALLOWED_MENTIONS"

def repliedUserName : String :=
  "WEBHOOK_MENTION_REPLIED_USER"

def ofGiven : Given → Except Mismatch Environment
  | none => .error (.noMember logLevelName .missing)
  | some .null => .error (.noMember logLevelName .null)
  | some value =>
    .ok {
      logLevel := value.get? logLevelName
      allowedMentions := value.get? allowedMentionsName
      repliedUser := value.get? repliedUserName }

end Environment

structure Settings where
  logLevel : LogLevel
  allowedMentions : List Mention.Category
  repliedUser : Option Bool
  deriving DecidableEq

namespace Settings

/-- The text of a variable, unless it is blank. A variable that is there must be a text. -/
def given (raw : Given) : Except Mismatch (Option String) :=
  match raw.present? with
  | none => .ok none
  | some (.string s) => .ok (if Text.isBlankText s then none else some s)
  | some _ => .error (.notCallable "raw.trim")

def readLogLevel (raw : Given) : Except Fault LogLevel :=
  match given raw with
  | .error cause => .error (.mismatch cause)
  | .ok none => .ok .standard
  | .ok (some s) =>
    match LogLevel.ofName? (Text.normalize s) with
    | some level => .ok level
    | none =>
      .error (.setting (.choice Environment.logLevelName (LogLevel.all.map LogLevel.name) s))

def readFlag (name : String) (raw : Given) : Except Fault (Option Bool) :=
  match given raw with
  | .error cause => .error (.mismatch cause)
  | .ok none => .ok none
  | .ok (some s) =>
    let word := Text.normalize s
    if word = "1" ∨ word = "true" then .ok (some true)
    else if word = "0" ∨ word = "false" then .ok (some false)
    else .error (.setting (.flag name s))

def isSeparator (c : Char) : Bool :=
  c == ',' || Text.isBlank c

inductive Word where
  | category (c : Mention.Category)
  | nothing
  | unknown (text : String)
  deriving DecidableEq

/-- The meaning of a word, whatever its case; the word `none` stands for no category. -/
def Word.ofText (text : String) : Word :=
  let lowered := Text.lower text
  if lowered = "none" then nothing
  else
    match Mention.Category.ofName? lowered with
    | some c => category c
    | none => unknown text

def Word.category? : Word → Option Mention.Category
  | category c => some c
  | _ => none

def Word.warning? : Word → Option String
  | unknown text =>
    some (Environment.allowedMentionsName ++ ": ignoring unknown mention type \"" ++ text ++ "\"")
  | _ => none

/-- Reads a list of categories, and adds to some warnings one for every unknown word. A missing or
blank list stands for all categories. -/
def readCategories (raw : Given) (warnings : List String) :
    Except Mismatch (List Mention.Category × List String) :=
  match given raw with
  | .error cause => .error cause
  | .ok none => .ok (Mention.Category.all, warnings)
  | .ok (some s) =>
    let words := (Text.words isSeparator s).map Word.ofText
    let named := words.filterMap Word.category?
    .ok (Mention.Category.all.filter (· ∈ named), warnings ++ words.filterMap Word.warning?)

def read (env : Environment) : Except Fault (Settings × List String) :=
  match readLogLevel env.logLevel with
  | .error fault => .error fault
  | .ok logLevel =>
    match readCategories env.allowedMentions [] with
    | .error cause => .error (.mismatch cause)
    | .ok (allowedMentions, warnings) =>
      match readFlag Environment.repliedUserName env.repliedUser with
      | .error fault => .error fault
      | .ok repliedUser => .ok (⟨logLevel, allowedMentions, repliedUser⟩, warnings)

def readGiven (value : Given) : Except Fault (Settings × List String) :=
  match Environment.ofGiven value with
  | .error cause => .error (.mismatch cause)
  | .ok env => read env

def mentionDefaults (settings : Settings) : Mention.Defaults where
  parse := .ofList settings.allowedMentions
  repliedUser := settings.repliedUser.map .bool

end Settings

end Courier
