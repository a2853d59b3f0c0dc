import Courier.Mention.Tracker

namespace Courier.Mention

structure Roster where
  trackers : List (String × Tracker)

namespace Roster

def get? (r : Roster) (name : String) : Option Tracker :=
  r.trackers.lookup name

def change (name : String) (f : Tracker → Tracker) :
    List (String × Tracker) → List (String × Tracker)
  | [] => []
  | (n, t) :: rest => if n = name then (n, f t) :: rest else (n, t) :: change name f rest

def update (r : Roster) (name : String) (f : Tracker → Tracker) : Roster where
  trackers := change name f r.trackers

/-- The state of another tracker but for its identifiers, which the target loses. -/
def takeState (t other : Tracker) : Tracker :=
  { t with
    categories := other.categories, users := [], roles := [], repliedUser := other.repliedUser }

def takeIds (t other : Tracker) : Tracker :=
  { t with users := addAll t.users other.users, roles := addAll t.roles other.roles }

/-- Lets one tracker take over the state of another. The target gives up its identifiers before it
reads those of the source, so a tracker that copies itself ends without any. -/
def copy (r : Roster) (target source : String) : Roster :=
  match r.get? source with
  | none => r
  | some other =>
    let r := r.update target (takeState · other)
    match r.get? source with
    | none => r
    | some other => r.update target (takeIds · other)

inductive Step where
  | call (name : String) (call : Call)
  | copy (target source : String)

/-- The trackers after one step, and the error that the step throws, if it throws one. A name
without a tracker is refused. -/
def step (r : Roster) : Step → Roster × Except Fault Unit
  | .copy target source =>
    match r.get? target, r.get? source with
    | none, _ => (r, .error (.mismatch (.noMember "copy" .missing)))
    | some _, none => (r, .error (.mismatch (.noMember "parse" .missing)))
    | some _, some _ => (r.copy target source, .ok ())
  | .call name call =>
    match r.get? name with
    | none => (r, .error (.mismatch (.noMember call.name .missing)))
    | some t =>
      let (t, outcome) := (Tracker.call call).perform t
      (r.update name fun _ => t, outcome)

def run : List Step → Roster → Roster × List (Except Fault Unit) :=
  Script.run step

end Roster

end Courier.Mention
