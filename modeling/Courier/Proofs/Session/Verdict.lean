import Courier.Proofs.Session.Report

namespace Courier

theorem Given.comparand_of_text {given : Given} {text : String} (h : given.text = .ok text) :
    ∃ c, given.comparand = .ok c := by
  have hmap : (Given.text given).map Comparand.text = .ok (.text text) := by
    rw [h]
    rfl
  match given with
  | none => exact ⟨_, rfl⟩
  | some .null => exact ⟨_, rfl⟩
  | some (.bool b) => exact ⟨_, rfl⟩
  | some (.number n) => exact ⟨_, rfl⟩
  | some (.string value) => exact ⟨_, hmap⟩
  | some (.array items) => exact ⟨_, hmap⟩
  | some (.object members) => exact ⟨_, hmap⟩

theorem Given.text_of_comparand {given : Given} {c : Comparand} (h : given.comparand = .ok c) :
    ∃ text, given.text = .ok text := by
  have hvalue {value : Json} (h : (Given.text (some value)).map Comparand.text = .ok c) :
      ∃ text, Given.text (some value) = .ok text := by
    cases htext : Given.text (some value) with
    | error cause =>
        rw [htext] at h
        cases h
    | ok text => exact ⟨text, rfl⟩
  match given with
  | none => exact ⟨_, rfl⟩
  | some .null => exact ⟨_, rfl⟩
  | some (.bool true) => exact ⟨_, rfl⟩
  | some (.bool false) => exact ⟨_, rfl⟩
  | some (.number n) => exact ⟨_, rfl⟩
  | some (.string value) => exact ⟨_, rfl⟩
  | some (.array items) => exact hvalue h
  | some (.object members) => exact hvalue h

namespace Verdict

def ofResult : Except Fault Delivery → Verdict
  | .ok value => success value
  | .error fault => failure fault

def event (request : Nat) : Verdict → Event
  | success value => .success request value
  | failure fault => .failure request fault

/-- What the log is told of at the level of errors: a failure that nobody listens for. -/
def errorRecords (setup : Setup) : Listener → Verdict → List LogRecord
  | .callbacks _ none, failure fault =>
    if setup.logger.writes .error then [.requestFailed setup.route.redacted fault] else []
  | .callbacks _ none, success _ => []
  | .callbacks _ (some _), _ => []
  | .promise _, _ => []

def settlement (request : Nat) : Listener → Verdict → List Event
  | .promise true, success value => [.resolved request value]
  | .promise true, failure fault => [.rejected request fault]
  | .promise false, _ => []
  | .callbacks _ _, _ => []

/-- What happens when a listener is told of a verdict. -/
def events (setup : Setup) (request : Nat) (listener : Listener) (verdict : Verdict) :
    List Event :=
  verdict.event request ::
    ((verdict.errorRecords setup listener).map .log ++ verdict.settlement request listener)

def callback? : Listener → Verdict → Option Callback
  | .callbacks onSuccess _, success _ => onSuccess
  | .callbacks _ onFailure, failure _ => onFailure
  | .promise _, _ => none

def outcome (listener : Listener) (verdict : Verdict) : Except Fault Unit :=
  match verdict.callback? listener with
  | some callback => callback.result
  | none => .ok ()

/-- Besides the one event of telling the listener there are only records of the log, and what
happens to a promise. -/
theorem filterMap_events {ν : Type} {f : Event → Option ν} {request : Nat}
    (hresolved : ∀ value, f (.resolved request value) = none)
    (hrejected : ∀ fault, f (.rejected request fault) = none) (setup : Setup)
    (listener : Listener) (verdict : Verdict) :
    (verdict.events setup request listener).filterMap f =
      (f (verdict.event request)).toList ++
        (verdict.errorRecords setup listener).filterMap fun entry => f (.log entry) := by
  have hsettlement : (verdict.settlement request listener).filterMap f = [] := by
    match listener, verdict with
    | .promise true, .success value => simp [settlement, hresolved]
    | .promise true, .failure fault => simp [settlement, hrejected]
    | .promise false, _ => rfl
    | .callbacks _ _, _ => rfl
  rw [events, List.filterMap_cons, List.filterMap_append, hsettlement, List.append_nil,
    List.filterMap_map]
  cases f (verdict.event request) <;> rfl

theorem report_events (setup : Setup) (request : Nat) (listener : Listener)
    (verdict : Verdict) :
    (verdict.events setup request listener).filterMap (Event.report? request) = [verdict] := by
  rw [filterMap_events (fun _ => rfl) (fun _ => rfl)]
  cases verdict <;> simp [event, Event.report?]

end Verdict

/-- A listener that has been told of a verdict; a promise is not pending then. -/
def Listener.told : Listener → Listener
  | callbacks success failure => callbacks success failure
  | promise _ => promise false

namespace Setup

/-- The look at what is made of a response: it may fail, but only where it is logged. -/
def inspect (setup : Setup) (delivery : Delivery) : Except Mismatch Given :=
  if setup.logger.hasDebug then delivery.id? else .ok none

def creation (setup : Setup) (delivery : Delivery) : List Event :=
  match delivery.id? with
  | .error _ => []
  | .ok id =>
    if setup.logger.hasDebug then
      if setup.logger.writes .debug then [.log (.messageCreated setup.route.redacted id)] else []
    else []

/-- What is made of a successful response, or the error on the way to it. -/
def entity (setup : Setup) (r : Response) : Except Fault Delivery :=
  match r.object with
  | .error fault => .error fault
  | .ok payload =>
    match setup.assembler payload setup.channel false with
    | .error fault => .error fault
    | .ok delivery =>
      match setup.inspect delivery with
      | .error cause => .error (.mismatch cause)
      | .ok _ => .ok delivery

def preparation (setup : Setup) (r : Response) : List Event :=
  match r.object with
  | .error _ => []
  | .ok payload =>
    .assemble payload setup.channel false ::
      match setup.assembler payload setup.channel false with
      | .error _ => []
      | .ok delivery => setup.creation delivery

def consultation (setup : Setup) (r : Response) : List Event :=
  match Response.isSuccess r.status with
  | .ok true => setup.preparation r
  | _ => []

def verdict (setup : Setup) (r : Response) : Verdict :=
  match Response.isSuccess r.status with
  | .ok true => .ofResult (setup.entity r)
  | _ => .failure (.ofResponse r.status r.body)

/-- The verdict that a call comes to, if it is about the outcome of its request and says enough. -/
def verdictOf (setup : Setup) : EngineCall → Option Verdict
  | .finalize => none
  | .respond (.error _) => none
  | .respond (.ok r) =>
    match r.status.text with
    | .ok _ => some (setup.verdict r)
    | .error _ => none
  | .succeed value => some (.success value)
  | .fail reason =>
    match reason.toFault with
    | .ok fault => some (.failure fault)
    | .error _ => none

def prelude (setup : Setup) : EngineCall → List Event
  | .finalize => []
  | .respond (.error _) => []
  | .respond (.ok r) => setup.consultation r
  | .succeed _ => []
  | .fail _ => []

theorem creation_of_error {setup : Setup} {delivery : Delivery} {cause : Mismatch}
    (h : setup.inspect delivery = .error cause) : setup.creation delivery = [] := by
  unfold inspect at h
  split at h
  · rw [creation, h]
  · cases h

theorem filterMap_creation {ν : Type} {f : Event → Option ν}
    (hcreated : ∀ route id, f (.log (.messageCreated route id)) = none) (setup : Setup)
    (delivery : Delivery) : (setup.creation delivery).filterMap f = [] := by
  unfold creation
  split
  · rfl
  · split
    · split
      · simp [hcreated]
      · rfl
    · rfl

/-- Before a request reports, nothing happens but that something is assembled and logged. -/
theorem filterMap_consultation {ν : Type} {f : Event → Option ν}
    (hassemble : ∀ payload channel cacheBacked,
      f (.assemble payload channel cacheBacked) = none)
    (hcreated : ∀ route id, f (.log (.messageCreated route id)) = none) (setup : Setup)
    (r : Response) : (setup.consultation r).filterMap f = [] := by
  unfold consultation preparation
  split
  · split
    · rfl
    · rw [List.filterMap_cons_none (hassemble _ _ _)]
      split
      · rfl
      · exact filterMap_creation hcreated setup _
  · rfl

theorem filterMap_prelude {ν : Type} {f : Event → Option ν}
    (hassemble : ∀ payload channel cacheBacked,
      f (.assemble payload channel cacheBacked) = none)
    (hcreated : ∀ route id, f (.log (.messageCreated route id)) = none) (setup : Setup)
    (call : EngineCall) : (setup.prelude call).filterMap f = [] := by
  match call with
  | .respond (.ok r) => exact filterMap_consultation hassemble hcreated setup r
  | .respond (.error how) => rfl
  | .finalize => rfl
  | .succeed value => rfl
  | .fail reason => rfl

theorem report_prelude (setup : Setup) (request : Nat) (call : EngineCall) :
    (setup.prelude call).filterMap (Event.report? request) = [] :=
  filterMap_prelude (fun _ _ _ => rfl) (fun _ _ => rfl) setup call

end Setup

theorem Response.isSuccess_of_text {r : Response} {text : String}
    (h : r.status.text = .ok text) : ∃ b, isSuccess r.status = .ok b := by
  obtain ⟨c, hc⟩ := Given.comparand_of_text h
  rw [isSuccess, Given.number?, hc]
  exact ⟨_, rfl⟩

namespace Session

def noted (s : Session) (events : List Event) : Session :=
  { s with events := s.events ++ events }

@[simp]
theorem noted_nil (s : Session) : s.noted [] = s := by
  simp [noted]

def told (setup : Setup) (request : Nat) (listener : Listener) (verdict : Verdict)
    (s : Session) : Session :=
  (s.setRequest request ⟨listener.told, true⟩).noted (verdict.events setup request listener)

theorem noted_cons (s : Session) (e : Event) (events : List Event) :
    s.noted (e :: events) = (s.record e).noted events := by
  simp [noted, record]

theorem log_eq_noted (setup : Setup) (s : Session) (entry : LogRecord) :
    s.log setup entry = s.noted (if setup.logger.writes entry.level then [.log entry] else []) := by
  unfold log
  split
  · rfl
  · exact (noted_nil s).symm

variable {request : Nat} {listener : Listener} {s : Session}

theorem settlePromise_setRequest (s : Session) (request : Nat) (r : Request)
    (isDone pending : Bool) (e e' : Event) :
    ((s.setRequest request r).record e).settlePromise request isDone pending e' =
      (s.record e).settlePromise request isDone pending e' := by
  simp [settlePromise, setRequest, record]

theorem told_eq_record (setup : Setup) (request : Nat) (listener : Listener) (verdict : Verdict)
    (s : Session) :
    s.told setup request listener verdict =
      ((s.setRequest request ⟨listener.told, true⟩).record (verdict.event request)).noted
        ((verdict.errorRecords setup listener).map .log ++
          verdict.settlement request listener) := by
  rw [told, Verdict.events, noted_cons]

theorem succeed_of_pending (setup : Setup) (value : Delivery)
    (h : s.requests[request]? = some ⟨listener, false⟩) :
    s.succeed request value =
      (s.told setup request listener (.success value),
        Verdict.outcome listener (.success value)) := by
  rw [succeed, h, told_eq_record]
  match listener with
  | .callbacks (some _) none => exact Prod.ext (noted_nil _).symm rfl
  | .callbacks (some _) (some _) => exact Prod.ext (noted_nil _).symm rfl
  | .callbacks none none => exact Prod.ext (noted_nil _).symm rfl
  | .callbacks none (some _) => exact Prod.ext (noted_nil _).symm rfl
  | .promise true => rfl
  | .promise false => exact Prod.ext (noted_nil _).symm rfl

theorem fail_of_pending (setup : Setup) {reason : Reason} {fault : Fault}
    (hreason : reason.toFault = .ok fault)
    (h : s.requests[request]? = some ⟨listener, false⟩) :
    s.fail setup request reason =
      (s.told setup request listener (.failure fault),
        Verdict.outcome listener (.failure fault)) := by
  rw [fail, h, told_eq_record]
  simp only [hreason]
  match listener with
  | .callbacks success (some callback) => exact Prod.ext (noted_nil _).symm rfl
  | .callbacks success none =>
      refine Prod.ext ?_ rfl
      rw [announceFailure, log_eq_noted, Verdict.errorRecords]
      show Session.noted _ (if setup.logger.writes .error then _ else []) = _
      split <;> rfl
  | .promise true => exact Prod.ext (settlePromise_setRequest s request _ true true _ _) rfl
  | .promise false =>
      have hsettle := settlePromise_setRequest s request ⟨.promise false, true⟩ true false
        (.failure request fault) (.rejected request fault)
      exact Prod.ext (hsettle.trans (noted_nil _).symm) rfl

theorem logCreated_eq (setup : Setup) (delivery : Delivery) (s : Session) :
    s.logCreated setup delivery =
      (setup.inspect delivery).map fun _ => s.noted (setup.creation delivery) := by
  unfold logCreated Setup.inspect Setup.creation
  by_cases hdebug : setup.logger.hasDebug = true
  · cases hid : delivery.id? with
    | error cause => simp [hdebug, Except.map]
    | ok id =>
        simp only [hdebug, if_true, Except.map, log_eq_noted]
        rfl
  · cases delivery.id? <;> simp [hdebug, Except.map]

theorem handleSuccess_eq (setup : Setup) (request : Nat) (r : Response) (s : Session) :
    s.handleSuccess setup request (.ok r) =
      match setup.entity r with
      | .error fault => (s.noted (setup.preparation r), .error fault)
      | .ok value => (s.noted (setup.preparation r)).succeed request value := by
  cases hobject : r.object with
  | error fault =>
      simp only [handleSuccess, Setup.entity, Setup.preparation, Response.objectOf, hobject,
        noted_nil]
  | ok payload =>
      cases hmade : setup.assembler payload setup.channel false with
      | error fault =>
          simp only [handleSuccess, Setup.entity, Setup.preparation, Response.objectOf, hobject,
            hmade]
          rfl
      | ok delivery =>
          simp only [handleSuccess, Setup.entity, Setup.preparation, Response.objectOf, hobject,
            hmade, logCreated_eq]
          cases hlook : setup.inspect delivery with
          | error cause =>
              rw [Setup.creation_of_error hlook]
              rfl
          | ok id =>
              simp only [Except.map]
              rw [record, noted, noted, List.append_assoc]
              rfl

variable {r : Response} {text : String}

theorem getElem?_told (setup : Setup) (verdict : Verdict)
    (h : s.requests[request]? = some ⟨listener, false⟩) :
    (s.told setup request listener verdict).requests[request]? =
      some ⟨listener.told, true⟩ := by
  obtain ⟨hlt, -⟩ := List.getElem?_eq_some_iff.mp h
  exact List.getElem?_set_self hlt

theorem settle_of_pending (setup : Setup) (htext : r.status.text = .ok text)
    (h : s.requests[request]? = some ⟨listener, false⟩) :
    s.settle setup request r =
      ((s.noted (setup.consultation r)).told setup request listener (setup.verdict r),
        Verdict.outcome listener (setup.verdict r)) := by
  obtain ⟨b, hb⟩ := Response.isSuccess_of_text htext
  cases b with
  | false =>
      simp only [settle, Setup.consultation, Setup.verdict, hb, noted_nil]
      exact fail_of_pending setup rfl h
  | true =>
      have hnoted : (s.noted (setup.preparation r)).requests[request]? =
          some ⟨listener, false⟩ := h
      simp only [settle, Setup.consultation, Setup.verdict, hb, handleSuccess_eq]
      cases setup.entity r with
      | error fault =>
          have hdone : (s.noted (setup.preparation r)).isDone request = false := by
            rw [isDone, hnoted]
          simp only [hdone, Bool.false_eq_true, if_false]
          exact fail_of_pending setup rfl hnoted
      | ok value =>
          have htold := getElem?_told setup (.success value) hnoted
          have hdone : ((s.noted (setup.preparation r)).told setup request listener
              (.success value)).isDone request = true := by
            rw [isDone, htold]
          simp only [succeed_of_pending setup value hnoted, Verdict.ofResult]
          cases hout : Verdict.outcome listener (.success value) with
          | ok _ => rfl
          | error fault => simp only [hdone, if_true]

theorem handleResponse_of_pending (setup : Setup) (htext : r.status.text = .ok text)
    (h : s.requests[request]? = some ⟨listener, false⟩) :
    s.handleResponse setup request (.ok r) =
      ((s.noted (setup.consultation r)).told setup request listener (setup.verdict r),
        Verdict.outcome listener (setup.verdict r)) := by
  rw [handleResponse, h]
  exact settle_of_pending setup htext h

theorem perform_of_pending (setup : Setup) {call : EngineCall} {verdict : Verdict}
    (hverdict : setup.verdictOf call = some verdict)
    (h : s.requests[request]? = some ⟨listener, false⟩) :
    s.perform setup request call =
      ((s.noted (setup.prelude call)).told setup request listener verdict,
        Verdict.outcome listener verdict) := by
  match call with
  | .finalize => cases hverdict
  | .respond (.error how) => cases hverdict
  | .respond (.ok r) =>
      rw [Setup.verdictOf] at hverdict
      split at hverdict
      · rename_i htext
        cases hverdict
        exact handleResponse_of_pending setup htext h
      · cases hverdict
  | .succeed value =>
      cases hverdict
      rw [Setup.prelude, noted_nil]
      exact succeed_of_pending setup value h
  | .fail reason =>
      rw [Setup.verdictOf] at hverdict
      split at hverdict
      · rename_i hfault
        cases hverdict
        rw [Setup.prelude, noted_nil]
        exact fail_of_pending setup hfault h
      · cases hverdict

theorem setRequest_self {r : Request} (h : s.requests[request]? = some r) :
    s.setRequest request r = s := by
  obtain ⟨hlt, rfl⟩ := List.getElem?_eq_some_iff.mp h
  simp [setRequest]

/-- A call that comes to no verdict throws, whoever listens, and at most marks its request. -/
theorem perform_of_no_verdict (setup : Setup) (request : Nat) {call : EngineCall}
    (hreport : call.isReport = true) (hverdict : setup.verdictOf call = none) :
    ∃ isDone fault, ∀ (s : Session) listener, s.requests[request]? = some ⟨listener, false⟩ →
      s.perform setup request call = (s.setRequest request ⟨listener, isDone⟩, .error fault) := by
  match call with
  | .finalize => cases hreport
  | .succeed value => cases hverdict
  | .respond (.error how) =>
      refine ⟨false, .mismatch (.noMember "status" how), fun s listener h => ?_⟩
      rw [setRequest_self h]
      simp only [perform, handleResponse, h]
  | .respond (.ok r) =>
      have hno : ¬ ∃ text, r.status.text = .ok text := by
        rintro ⟨text, htext⟩
        simp [Setup.verdictOf, htext] at hverdict
      cases hc : r.status.comparand with
      | ok c => exact absurd (Given.text_of_comparand hc) hno
      | error cause =>
          refine ⟨false, .mismatch cause, fun s listener h => ?_⟩
          have hsuccess : Response.isSuccess r.status = .error cause := by
            rw [Response.isSuccess, Given.number?, hc]
            rfl
          rw [setRequest_self h]
          simp only [perform, handleResponse, h, settle, hsuccess]
  | .fail reason =>
      cases hreason : reason.toFault with
      | ok fault => simp [Setup.verdictOf, hreason] at hverdict
      | error cause =>
          refine ⟨true, .mismatch cause, fun s listener h => ?_⟩
          simp only [perform, fail, h, hreason]

theorem perform_of_done (setup : Setup) {call : EngineCall} (hreport : call.isReport = true)
    (h : s.requests[request]? = some ⟨listener, true⟩) :
    s.perform setup request call = (s, .ok ()) := by
  cases call with
  | finalize => cases hreport
  | respond response => simp only [perform, handleResponse, h]
  | succeed value => simp only [perform, succeed, h]
  | fail reason => simp only [perform, fail, h]

theorem perform_of_unmade (setup : Setup) (call : EngineCall)
    (h : s.requests[request]? = none) : (s.perform setup request call).1 = s := by
  cases call with
  | finalize => simp only [perform, finalizeFor, h, noRequest]
  | respond response => simp only [perform, handleResponse, h, noRequest]
  | succeed value => simp only [perform, succeed, h, noRequest]
  | fail reason => simp only [perform, fail, h, noRequest]

@[simp]
theorem reports_noted (request : Nat) (s : Session) (events : List Event) :
    (s.noted events).reports request =
      s.reports request ++ events.filterMap (Event.report? request) :=
  List.filterMap_append

theorem reports_told (setup : Setup) (request : Nat) (listener : Listener) (verdict : Verdict)
    (s : Session) :
    (s.told setup request listener verdict).reports request =
      s.reports request ++ [verdict] := by
  rw [told, reports_noted, Verdict.report_events]
  rfl

/-- A call about a request that has not reported is reported as the verdict that it comes to. -/
theorem reports_perform_of_pending (setup : Setup) {call : EngineCall} {verdict : Verdict}
    (hverdict : setup.verdictOf call = some verdict)
    (h : s.requests[request]? = some ⟨listener, false⟩) :
    (s.perform setup request call).1.reports request = s.reports request ++ [verdict] := by
  rw [perform_of_pending setup hverdict h, reports_told, reports_noted, Setup.report_prelude,
    List.append_nil]

end Session

end Courier
