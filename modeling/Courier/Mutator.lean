import Courier.Fault
import Courier.Given

namespace Courier

/-- Users, roles, channels and messages are identified by non-empty runs of digits. -/
def isSnowflake (s : String) : Bool :=
  !s.isEmpty && s.toList.all Char.isDigit

def Given.isSnowflake (given : Given) : Except Mismatch Bool :=
  given.text.map Courier.isSnowflake

namespace Requirement

def holds (condition : Bool) (message : String) : Except Fault Unit :=
  if condition then .ok () else refuse (.because message)

def present {α : Type} (name : String) : Option α → Except Fault α
  | some value => .ok value
  | none => refuse (.absent name)

def elements {α : Type} (name : String) : List (Option α) → Except Fault (List α)
  | [] => .ok []
  | none :: _ => refuse (.absentElement name)
  | some value :: rest =>
    match elements name rest with
    | .ok values => .ok (value :: values)
    | .error fault => .error fault

def allPresent {α : Type} (name : String) : Listing (Option α) → Except Fault (List α)
  | .absent _ => refuse (.absent name)
  | .notAList _ => .error (.mismatch (.notIterable "values"))
  | .elements values => elements name values

def notEmpty (name : String) (value : Given) : Except Fault Unit :=
  match value.length with
  | .error cause => .error (.mismatch cause)
  | .ok length => if length.any (Json.isSame (.number 0)) then refuse (.empty name) else .ok ()

def notLonger (name : String) (limit value : Given) : Except Fault Unit :=
  match value.length with
  | .error cause => .error (.mismatch cause)
  | .ok length =>
    match limit.isLess length with
    | .error cause => .error (.mismatch cause)
    | .ok true => refuse (.tooLong name limit.textOrEmpty)
    | .ok false => .ok ()

def snowflake (name : String) (value : Given) : Except Fault Unit :=
  match value.text with
  | .error cause => .error (.mismatch cause)
  | .ok text => if isSnowflake text then .ok () else refuse (.notSnowflake name text)

/-- Every value of the list is a snowflake; the first that is none is refused. -/
def snowflakes (name : String) : List Given → Except Fault Unit
  | [] => .ok ()
  | value :: rest =>
    match snowflake name value with
    | .ok () => snowflakes name rest
    | .error fault => .error fault

def identifiers (name : String) (values : Listing (Option Json)) : Except Fault (List Json) :=
  match allPresent name values with
  | .error fault => .error fault
  | .ok ids =>
    match snowflakes name (ids.map some) with
    | .ok () => .ok ids
    | .error fault => .error fault

end Requirement

abbrev Mutator (σ α : Type) :=
  ExceptT Fault (StateM σ) α

namespace Mutator

variable {σ τ α : Type}

def perform (m : Mutator σ α) (s : σ) : σ × Except Fault α :=
  ((m.run.run s).2, (m.run.run s).1)

def onPart (part : τ → σ) (put : τ → σ → τ) (m : Mutator σ α) : Mutator τ α :=
  ExceptT.mk fun t => ((m.perform (part t)).2, put t (m.perform (part t)).1)

end Mutator

namespace Script

variable {σ ι : Type}

/-- The state after some steps, and the outcome of each. A step that throws does not end the
script. -/
def run (step : σ → ι → σ × Except Fault Unit) :
    List ι → σ → σ × List (Except Fault Unit)
  | [], s => (s, [])
  | next :: rest, s =>
    let (s, outcome) := step s next
    let (s, outcomes) := run step rest s
    (s, outcome :: outcomes)

end Script

end Courier
