import Courier.Session

/-!
A session as a sequence of acts, which happen one at a time. The step that sends a message is the
arrival of a new request at the engine, then each call that the engine makes while it receives the
request, and at the end perhaps the rejection of a promise. Main statement: a run does what its acts
do one after another.
-/

namespace Courier

/-- Something that happens to a session at once. -/
inductive Act where
  | edit (edit : Edit)
  | setBuilder (name : String) (built : Except Fault Built)
  | finalize
  | receive (listener : Listener)
  | call (request : Nat) (call : EngineCall)
  | handleSuccess (request : Nat) (response : Except Absence Response)
  | reject (request : Nat) (fault : Fault)

namespace Session

def act (setup : Setup) (s : Session) : Act → Session × Except Fault Unit
  | .edit edit => s.step setup (.edit edit)
  | .setBuilder name built => s.step setup (.setBuilder name built)
  | .finalize => s.step setup .finalize
  | .receive listener => (s.receive listener, .ok ())
  | .call request call => s.perform setup request call
  | .handleSuccess request response => s.handleSuccess setup request response
  | .reject request fault => (s.reject request fault, .ok ())

def after (setup : Setup) (s : Session) (acts : List Act) : Session :=
  acts.foldl (fun s a => (s.act setup a).1) s

/-- The calls of an engine that are made: those up to the first that throws. -/
def performed (setup : Setup) (request : Nat) : List EngineCall → Session → List EngineCall
  | [], _ => []
  | call :: rest, s =>
    match s.perform setup request call with
    | (_, .error _) => [call]
    | (s, .ok ()) => call :: performed setup request rest s

def actsOfLaunch (setup : Setup) (listener : Listener) (engine : Behaviour) (s : Session) :
    List Act :=
  .receive listener ::
    (performed setup s.requests.length engine.calls (s.receive listener)).map
      (.call s.requests.length)

/-- The act by which an error of the engine reaches the promise of a request. -/
def rejection (request : Nat) : Except Fault Unit → List Act
  | .ok () => []
  | .error fault => [.reject request fault]

def actsOfStep (setup : Setup) (s : Session) : Step → List Act
  | .edit edit => [.edit edit]
  | .setBuilder name built => [.setBuilder name built]
  | .finalize => [.finalize]
  | .queue success failure engine => s.actsOfLaunch setup (.callbacks success failure) engine
  | .submit engine =>
    s.actsOfLaunch setup (.promise true) engine ++
      rejection s.requests.length (s.launch setup (.promise true) engine).2
  | .engine request call => [.call request call]
  | .handleSuccess request response => [.handleSuccess request response]

def acts (setup : Setup) : List Step → Session → List Act
  | [], _ => []
  | next :: rest, s => s.actsOfStep setup next ++ acts setup rest (s.step setup next).1

/-- What is noted of some acts: of each, something or nothing, in the session before it. -/
def trace {ν : Type} (setup : Setup) (note : Session → Act → Option ν) (s : Session) :
    List Act → List ν
  | [] => []
  | a :: rest => (note s a).toList ++ trace setup note (s.act setup a).1 rest

@[simp]
theorem after_nil (setup : Setup) (s : Session) : s.after setup [] = s :=
  rfl

@[simp]
theorem after_cons (setup : Setup) (s : Session) (a : Act) (rest : List Act) :
    s.after setup (a :: rest) = (s.act setup a).1.after setup rest :=
  rfl

theorem after_append (setup : Setup) (s : Session) (first second : List Act) :
    s.after setup (first ++ second) = (s.after setup first).after setup second :=
  List.foldl_append

theorem trace_append {ν : Type} (setup : Setup) (note : Session → Act → Option ν)
    (s : Session) (first second : List Act) :
    s.trace setup note (first ++ second) =
      s.trace setup note first ++ (s.after setup first).trace setup note second := by
  induction first generalizing s with
  | nil => rfl
  | cons a rest ih =>
      rw [List.cons_append, trace, trace, ih, List.append_assoc]
      rfl

theorem getElem?_trace {ν : Type} (setup : Setup) {note : Session → Act → Option ν}
    {s : Session} {before : List Act} {a : Act} {v : ν}
    (h : note (s.after setup before) a = some v) (later : List Act) :
    (s.trace setup note (before ++ a :: later))[(s.trace setup note before).length]? =
      some v := by
  rw [trace_append, List.getElem?_append_right (Nat.le_refl _), Nat.sub_self, trace, h]
  rfl

theorem after_performed (setup : Setup) (request : Nat) (throws : Option Fault)
    (calls : List EngineCall) (s : Session) :
    s.after setup ((performed setup request calls s).map (.call request)) =
      (performAll setup request throws calls s).1 := by
  induction calls generalizing s with
  | nil => cases throws <;> rfl
  | cons call rest ih =>
      cases h : s.perform setup request call with
      | mk s' outcome =>
          cases outcome with
          | error fault => simp [performed, performAll, h, act]
          | ok _ => simpa [performed, performAll, h, act] using ih s'

theorem after_actsOfLaunch (setup : Setup) (listener : Listener) (engine : Behaviour)
    (s : Session) :
    s.after setup (s.actsOfLaunch setup listener engine) =
      (s.launch setup listener engine).1 := by
  rw [actsOfLaunch, after_cons, launch]
  exact after_performed setup _ engine.throws engine.calls _

theorem after_actsOfStep (setup : Setup) (s : Session) (next : Step) :
    s.after setup (s.actsOfStep setup next) = (s.step setup next).1 := by
  cases next with
  | queue success failure engine => exact after_actsOfLaunch setup _ engine s
  | submit engine =>
      rw [actsOfStep, after_append, after_actsOfLaunch, step, submit]
      cases h : s.launch setup (.promise true) engine with
      | mk s' outcome => cases outcome <;> rfl
  | _ => rfl

theorem exists_step_of_mem_acts {setup : Setup} {steps : List Step} {s : Session} {a : Act}
    (h : a ∈ s.acts setup steps) : ∃ next ∈ steps, ∃ s' : Session, a ∈ s'.actsOfStep setup next := by
  induction steps generalizing s with
  | nil => cases h
  | cons first rest ih =>
      rcases List.mem_append.mp h with hfirst | hrest
      · exact ⟨first, List.mem_cons_self, s, hfirst⟩
      · obtain ⟨next, hnext, hmem⟩ := ih hrest
        exact ⟨next, List.mem_cons_of_mem first hnext, hmem⟩

/-- A run does what its acts do one after another. -/
theorem after_acts (setup : Setup) (steps : List Step) (s : Session) :
    s.after setup (s.acts setup steps) = (s.run setup steps).1 := by
  induction steps generalizing s with
  | nil => rfl
  | cons next rest ih =>
      rw [acts, after_append, after_actsOfStep, ih]
      rfl

end Session

end Courier
