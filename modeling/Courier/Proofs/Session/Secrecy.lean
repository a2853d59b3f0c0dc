import Courier.Proofs.Route.Redaction
import Courier.Proofs.Session.Act

/-!
Tokens of webhooks are kept secret. A session looks at its route only where it writes to the log,
and then at what may be logged of it. So two sessions whose routes differ in nothing but a token do
the same: they make the same bodies, write the same records, and report and throw the same.
-/

namespace Courier

/-- Two setups that nothing tells apart but what must not be logged of their routes. -/
structure Setup.Alike (a b : Setup) : Prop where
  redacted : a.route.redacted = b.route.redacted
  channel : a.channel = b.channel
  assembler : a.assembler = b.assembler
  logger : a.logger = b.logger

namespace Event

def entry? : Event → Option LogRecord
  | log entry => some entry
  | _ => none

theorem eq_log_of_entry? {e : Event} {entry : LogRecord} (h : e.entry? = some entry) :
    e = log entry := by
  cases e <;> cases h
  rfl

end Event

namespace Session

section Alike

variable {a b : Setup}

theorem log_congr (h : a.Alike b) (s : Session) (entry : LogRecord) :
    s.log a entry = s.log b entry := by
  rw [log, log, h.logger]

theorem finalize_congr (h : a.Alike b) (s : Session) : s.finalize a = s.finalize b := by
  simp only [finalize, h.redacted, log_congr h]

theorem announceFailure_congr (h : a.Alike b) (request : Nat) (fault : Fault) (s : Session)
    (listener : Listener) :
    s.announceFailure a request fault listener = s.announceFailure b request fault listener := by
  cases listener with
  | callbacks success failure =>
      cases failure with
      | some callback => rfl
      | none => simp only [announceFailure, h.redacted, log_congr h]
  | promise pending => rfl

theorem fail_congr (h : a.Alike b) (request : Nat) (reason : Reason) (s : Session) :
    s.fail a request reason = s.fail b request reason := by
  simp only [fail, announceFailure_congr h]

theorem logCreated_congr (h : a.Alike b) (delivery : Delivery) (s : Session) :
    s.logCreated a delivery = s.logCreated b delivery := by
  simp only [logCreated, h.logger, h.redacted, log_congr h]

theorem handleSuccess_congr (h : a.Alike b) (request : Nat)
    (response : Except Absence Response) (s : Session) :
    s.handleSuccess a request response = s.handleSuccess b request response := by
  simp only [handleSuccess, h.channel, h.assembler, logCreated_congr h]

theorem settle_congr (h : a.Alike b) (request : Nat) (response : Response) (s : Session) :
    s.settle a request response = s.settle b request response := by
  simp only [settle, fail_congr h, handleSuccess_congr h]

theorem handleResponse_congr (h : a.Alike b) (request : Nat)
    (response : Except Absence Response) (s : Session) :
    s.handleResponse a request response = s.handleResponse b request response := by
  simp only [handleResponse, settle_congr h]

theorem perform_congr (h : a.Alike b) (request : Nat) (s : Session) (call : EngineCall) :
    s.perform a request call = s.perform b request call := by
  cases call with
  | finalize => simp only [perform, finalizeFor, finalize_congr h]
  | respond response => exact handleResponse_congr h request response s
  | succeed value => rfl
  | fail reason => exact fail_congr h request reason s

theorem performAll_congr (h : a.Alike b) (request : Nat) (throws : Option Fault)
    (calls : List EngineCall) (s : Session) :
    performAll a request throws calls s = performAll b request throws calls s := by
  -- Both stop at the same call, because each call before it left the same session behind.
  induction calls generalizing s with
  | nil => rfl
  | cons call rest ih => simp only [performAll, perform_congr h, ih]

theorem launch_congr (h : a.Alike b) (listener : Listener) (engine : Behaviour) (s : Session) :
    s.launch a listener engine = s.launch b listener engine :=
  performAll_congr h _ _ _ _

theorem step_congr (h : a.Alike b) (s : Session) (next : Step) :
    s.step a next = s.step b next := by
  cases next with
  | edit change => rfl
  | setBuilder name value => rfl
  | finalize => simp only [step, finalize_congr h]
  | queue success failure engine => exact launch_congr h _ engine s
  | submit engine => simp only [step, submit, launch_congr h]
  | engine request call => exact perform_congr h request s call
  | handleSuccess request response => exact handleSuccess_congr h request response s

theorem run_congr (h : a.Alike b) (steps : List Step) (s : Session) :
    s.run a steps = s.run b steps := by
  have hstep : step a = step b := funext fun s => funext (step_congr h s)
  rw [run, run, hstep]

end Alike

/-- Every record of the log shows the route as it may be logged. -/
def IsDiscreet (setup : Setup) (s : Session) : Prop :=
  ∀ entry, .log entry ∈ s.events →
    entry.fields.lookup "route" = some (.string setup.route.redacted)

namespace IsDiscreet

variable {setup : Setup} {s s' : Session}

theorem of_events (h : s.IsDiscreet setup) (hevents : s'.events = s.events) :
    s'.IsDiscreet setup := by
  unfold IsDiscreet
  rw [hevents]
  exact h

theorem record (h : s.IsDiscreet setup) {e : Event} (he : ∀ entry, e ≠ .log entry) :
    (s.record e).IsDiscreet setup := by
  intro entry hmem
  rcases List.mem_append.mp hmem with hold | hnew
  · exact h entry hold
  · exact absurd (List.mem_singleton.mp hnew).symm (he entry)

theorem log (h : s.IsDiscreet setup) {entry : LogRecord}
    (he : entry.fields.lookup "route" = some (.string setup.route.redacted)) :
    (s.log setup entry).IsDiscreet setup := by
  unfold Session.log
  split
  · intro other hmem
    rcases List.mem_append.mp hmem with hold | hnew
    · exact h other hold
    · cases List.mem_singleton.mp hnew
      exact he
  · exact h

theorem finalize (h : s.IsDiscreet setup) : (s.finalize setup).2.IsDiscreet setup := by
  have hcomposer : IsDiscreet setup
      { s with composer := (s.composer.finalize s.builders).composer } := h.of_events rfl
  unfold Session.finalize
  dsimp only
  split
  · split
    · exact hcomposer.log rfl
    · exact hcomposer
  · refine record ?_ fun _ => Event.noConfusion
    split
    · exact (hcomposer.log rfl).log rfl
    · exact hcomposer.log rfl

theorem setRequest (h : s.IsDiscreet setup) (request : Nat) (r : Request) :
    (s.setRequest request r).IsDiscreet setup :=
  h.of_events rfl

theorem settlePromise (h : s.IsDiscreet setup) (request : Nat) (isDone pending : Bool)
    {e : Event} (he : ∀ entry, e ≠ .log entry) :
    (s.settlePromise request isDone pending e).IsDiscreet setup := by
  unfold Session.settlePromise
  split
  · exact (h.setRequest _ _).record he
  · exact h.setRequest _ _

theorem succeed (h : s.IsDiscreet setup) (request : Nat) (value : Delivery) :
    (s.succeed request value).1.IsDiscreet setup := by
  unfold Session.succeed
  split
  · exact h
  · exact h
  · have hrecorded (r : Request) :
        ((s.setRequest request r).record (.success request value)).IsDiscreet setup :=
      (h.setRequest _ _).record fun _ => Event.noConfusion
    dsimp only
    split <;> exact hrecorded _
  · exact (h.record fun _ => Event.noConfusion).settlePromise _ _ _ fun _ => Event.noConfusion

theorem announceFailure (h : s.IsDiscreet setup) (request : Nat) (fault : Fault)
    (listener : Listener) :
    (s.announceFailure setup request fault listener).1.IsDiscreet setup := by
  have hrecorded : (s.record (.failure request fault)).IsDiscreet setup :=
    h.record fun _ => Event.noConfusion
  match listener with
  | .callbacks _ (some callback) => exact hrecorded
  | .callbacks _ none => exact hrecorded.log rfl
  | .promise pending => exact hrecorded.settlePromise _ _ _ fun _ => Event.noConfusion

theorem fail (h : s.IsDiscreet setup) (request : Nat) (reason : Reason) :
    (s.fail setup request reason).1.IsDiscreet setup := by
  unfold Session.fail
  split
  · exact h
  · exact h
  · dsimp only
    split
    · exact h.setRequest _ _
    · exact (h.setRequest _ _).announceFailure _ _ _

theorem logCreated (h : s.IsDiscreet setup) {delivery : Delivery}
    (hlog : s.logCreated setup delivery = .ok s') : s'.IsDiscreet setup := by
  unfold Session.logCreated at hlog
  split at hlog
  · split at hlog <;> cases hlog
    exact h.log rfl
  · cases hlog
    exact h

theorem handleSuccess (h : s.IsDiscreet setup) (request : Nat)
    (response : Except Absence Response) :
    (s.handleSuccess setup request response).1.IsDiscreet setup := by
  unfold Session.handleSuccess
  split
  · exact h
  · have hassembled (payload : Json) :
        (s.record (.assemble payload setup.channel false)).IsDiscreet setup :=
      h.record fun _ => Event.noConfusion
    dsimp only
    split
    · exact hassembled _
    · split
      · exact hassembled _
      · exact ((hassembled _).logCreated ‹_›).succeed _ _

theorem settle (h : s.IsDiscreet setup) (request : Nat) (response : Response) :
    (s.settle setup request response).1.IsDiscreet setup := by
  have hhandled := h.handleSuccess request (.ok response)
  unfold Session.settle
  split
  · exact h
  · exact h.fail _ _
  · split
    · rename_i heq
      exact heq ▸ hhandled
    · rename_i heq
      rw [heq] at hhandled
      split
      · exact hhandled
      · exact hhandled.fail _ _

theorem handleResponse (h : s.IsDiscreet setup) (request : Nat)
    (response : Except Absence Response) :
    (s.handleResponse setup request response).1.IsDiscreet setup := by
  unfold Session.handleResponse
  split
  · exact h
  · exact h
  · split
    · exact h.settle _ _
    · exact h

theorem finalizeFor (h : s.IsDiscreet setup) (request : Nat) :
    (s.finalizeFor setup request).1.IsDiscreet setup := by
  unfold Session.finalizeFor
  split
  · exact h
  · exact h.finalize

theorem perform (h : s.IsDiscreet setup) (request : Nat) (call : EngineCall) :
    (s.perform setup request call).1.IsDiscreet setup := by
  cases call with
  | finalize => exact h.finalizeFor request
  | respond response => exact h.handleResponse request response
  | succeed value => exact h.succeed request value
  | fail reason => exact h.fail request reason

theorem reject (h : s.IsDiscreet setup) (request : Nat) (fault : Fault) :
    (s.reject request fault).IsDiscreet setup := by
  unfold Session.reject
  split
  · exact h.settlePromise _ _ _ fun _ => Event.noConfusion
  · exact h

theorem act (h : s.IsDiscreet setup) (a : Act) : (s.act setup a).1.IsDiscreet setup := by
  cases a with
  | edit change => exact h.of_events rfl
  | setBuilder name value => exact h.of_events rfl
  | finalize => exact h.finalize
  | receive listener => exact (h.of_events rfl).record fun _ => Event.noConfusion
  | call request call => exact h.perform request call
  | handleSuccess request response => exact h.handleSuccess request response
  | reject request fault => exact h.reject request fault

theorem after (h : s.IsDiscreet setup) (acts : List Act) :
    (s.after setup acts).IsDiscreet setup := by
  induction acts generalizing s with
  | nil => exact h
  | cons a rest ih => exact ih (h.act a)

theorem run (h : s.IsDiscreet setup) (steps : List Step) :
    (s.run setup steps).1.IsDiscreet setup := by
  rw [← after_acts]
  exact h.after _

end IsDiscreet

theorem isDiscreet_start (setup : Setup) (defaults : Mention.Defaults) (builders : Builders) :
    (start defaults builders).IsDiscreet setup := by
  rintro entry ⟨⟩

end Session

namespace Route

/-- The routes that are made of the number of a webhook, or of an application, and of a token. -/
inductive TakesToken (id : String) : (String → Route) → Prop
  | executeWebhook (options : ExecuteOptions) :
      TakesToken id fun token => executeWebhook id token options
  | followUp : TakesToken id (followUp id)

theorem TakesToken.redacted {id token : String} {route : String → Route}
    (h : TakesToken id route) (hid : isSnowflake id = true) (hne : token ≠ "")
    (hslash : '/' ∉ token.toList) :
    (route token).redacted = "POST /webhooks/" ++ id ++ "/:token" := by
  cases h with
  | executeWebhook options => exact redacted_executeWebhook hid hne hslash options
  | followUp => exact redacted_executeWebhook hid hne hslash _

end Route

/-- Whatever is done with a message, its session does not depend on the token in its route: run on
two tokens, the same steps give the same state with the same events, and the same errors. The log
shows of the route no more than the number in it. -/
theorem run_independent_of_token {id : String} (hid : isSnowflake id = true)
    {route : String → Route} (hroute : Route.TakesToken id route) {token other : String}
    (htoken : token ≠ "" ∧ '/' ∉ token.toList) (hother : other ≠ "" ∧ '/' ∉ other.toList)
    (channel : Given) (assembler : Assembler) (logger : Logger) (defaults : Mention.Defaults)
    (builders : Builders) (steps : List Session.Step) :
    let setup (token : String) : Setup := { route := route token, channel, assembler, logger }
    let outcome (token : String) := (Session.start defaults builders).run (setup token) steps
    outcome token = outcome other ∧
      ∀ entry, .log entry ∈ (outcome token).1.events →
        entry.fields.lookup "route" = some (.string ("POST /webhooks/" ++ id ++ "/:token")) := by
  intro setup outcome
  have hredacted := hroute.redacted hid htoken.1 htoken.2
  constructor
  · apply Session.run_congr
    exact {
      redacted := hredacted.trans (hroute.redacted hid hother.1 hother.2).symm
      channel := rfl
      assembler := rfl
      logger := rfl }
  · intro entry hentry
    rw [← hredacted]
    exact (Session.isDiscreet_start (setup token) defaults builders).run steps entry hentry

/-- Each kind of record is written: of a body with a file, of one that misses it, of a message that
was created, and of a failure that nobody listens for. None of them shows the token. -/
theorem followUp_logged_alike :
    let steps : List Session.Step := [
      .edit (.addFile (.ofText "notes.txt") (some ⟨0, .buffer []⟩) false), .finalize,
      .queue none none { calls := [.finalize,
        .respond (.ok ⟨.ofText "200", some (.object [("id", .string "9")])⟩)] },
      .queue none none { calls := [.respond (.ok ⟨.ofText "404", none⟩)] }]
    let outcome (token : String) := (Session.start {} .unset).run
      { route := .followUp "7" token, channel := some (.object []) } steps
    let written := (outcome "first").1.events.filterMap Event.entry?
    outcome "first" = outcome "second" ∧
      written.map (·.message) = ["webhook:finalize",
        "webhook:finalized again after attachments were consumed; sending without them",
        "webhook:finalize", "webhook:message created", "rest:request failed"] ∧
      ∀ entry ∈ written,
        entry.fields.lookup "route" = some (.string "POST /webhooks/7/:token") := by
  intro steps outcome written
  have hfirst : "first" ≠ "" ∧ '/' ∉ "first".toList := by decide
  have hsecond : "second" ≠ "" ∧ '/' ∉ "second".toList := by decide
  have hroute : Route.TakesToken "7" (Route.followUp "7") := .followUp
  obtain ⟨hsame, hlog⟩ := run_independent_of_token (by decide) hroute hfirst hsecond
    (some (.object [])) .standard .full {} .unset steps
  have htext : "POST /webhooks/" ++ "7" ++ "/:token" = "POST /webhooks/7/:token" := by decide
  refine ⟨hsame, by decide +kernel, fun entry hentry => ?_⟩
  obtain ⟨event, hevent, heq⟩ := List.mem_filterMap.mp hentry
  rw [← htext]
  exact hlog entry (Event.eq_log_of_entry? heq ▸ hevent)

end Courier
