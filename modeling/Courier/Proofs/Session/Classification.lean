import Courier.Proofs.Session.Verdict

namespace Courier

namespace Response

/-- The status stands for a number in the range of success. -/
def Succeeds (r : Response) : Prop :=
  ∃ q, r.status.number? = .ok (some (.finite q)) ∧ 200 ≤ q ∧ q < 300

theorem isSuccess_iff (r : Response) : isSuccess r.status = .ok true ↔ r.Succeeds := by
  unfold isSuccess Succeeds
  match r.status.number? with
  | .error cause => simp [Except.map]
  | .ok none => simp [Except.map]
  | .ok (some (.infinite negative)) => simp [Except.map, Number.isBetween]
  | .ok (some (.finite q)) => simp [Except.map, Number.isBetween]

theorem object_of_body {r : Response} {members : List (String × Json)}
    (h : r.body = some (.object members)) : r.object = .ok (.object members) := by
  rw [object, h]

theorem object_of_noBody {r : Response} {text : String} (htext : r.status.text = .ok text)
    (h : ∀ members, r.body ≠ some (.object members)) :
    r.object = .error (.refused (.notAnObject text)) := by
  unfold object
  split
  · rename_i members hbody
    exact absurd hbody (h members)
  · rw [htext]
    rfl

end Response

/-- What is made of a payload can be asked for an identifier, as every object can. -/
def Assembler.MakesObjects (assembler : Assembler) : Prop :=
  ∀ payload channel cacheBacked delivery, assembler payload channel cacheBacked = .ok delivery →
    ∃ id, delivery.id? = .ok id

theorem Assembler.standard_makesObjects : Assembler.standard.MakesObjects := by
  intro payload channel cacheBacked delivery h
  unfold standard at h
  cases hm : Message.ofPayload payload channel (.ofBool cacheBacked) with
  | error fault =>
      rw [hm] at h
      cases h
  | ok m =>
      rw [hm] at h
      cases h
      exact ⟨_, rfl⟩

namespace Event

def assembled? : Event → Option (Json × Given × Bool)
  | assemble payload channel cacheBacked => some (payload, channel, cacheBacked)
  | _ => none

def errorRecord? : Event → Option LogRecord
  | log entry => if entry.level = .error then some entry else none
  | _ => none

end Event

namespace Setup

variable {setup : Setup} {r : Response} {text : String}

theorem entity_of_noBody (htext : r.status.text = .ok text)
    (h : ∀ members, r.body ≠ some (.object members)) :
    setup.entity r = .error (.refused (.notAnObject text)) := by
  rw [entity, Response.object_of_noBody htext h]

theorem entity_of_body (hassembler : setup.assembler.MakesObjects)
    {members : List (String × Json)} (h : r.body = some (.object members)) :
    setup.entity r = setup.assembler (.object members) setup.channel false := by
  simp only [entity, Response.object_of_body h]
  cases hmade : setup.assembler (.object members) setup.channel false with
  | error fault => rfl
  | ok delivery =>
      obtain ⟨id, hid⟩ := hassembler _ _ _ _ hmade
      simp only [inspect, hid]
      cases setup.logger.hasDebug <;> rfl

theorem verdict_of_succeeds (h : r.Succeeds) : setup.verdict r = .ofResult (setup.entity r) := by
  rw [verdict, (Response.isSuccess_iff r).mpr h]

theorem verdict_of_not_succeeds (htext : r.status.text = .ok text) (h : ¬ r.Succeeds) :
    setup.verdict r = .failure (.errorResponse r.status r.body) := by
  unfold verdict
  split
  · rename_i hsuccess
    exact absurd ((Response.isSuccess_iff r).mp hsuccess) h
  · rw [Fault.ofResponse, htext]

end Setup

theorem Verdict.ofResult_eq_success {result : Except Fault Delivery} {value : Delivery} :
    Verdict.ofResult result = .success value ↔ result = .ok value := by
  cases result <;> simp [ofResult]

theorem Verdict.ofResult_eq_failure {result : Except Fault Delivery} {fault : Fault} :
    Verdict.ofResult result = .failure fault ↔ result = .error fault := by
  cases result <;> simp [ofResult]

namespace Setup

variable {setup : Setup} {r : Response} {text : String}

theorem verdict_eq_success_iff (hassembler : setup.assembler.MakesObjects)
    (htext : r.status.text = .ok text) (value : Delivery) :
    setup.verdict r = .success value ↔
      r.Succeeds ∧ ∃ members, r.body = some (.object members) ∧
        setup.assembler (.object members) setup.channel false = .ok value := by
  by_cases hs : r.Succeeds
  · rw [verdict_of_succeeds hs, Verdict.ofResult_eq_success]
    by_cases hbody : ∃ members, r.body = some (.object members)
    · obtain ⟨members, hbody⟩ := hbody
      simp [entity_of_body hassembler hbody, hs, hbody]
    · have hnone := not_exists.mp hbody
      simp [entity_of_noBody htext hnone, hnone]
  · simp [verdict_of_not_succeeds htext hs, hs]

/-- Each failure has one of three causes: the status, the body, or what is made of it. -/
theorem verdict_eq_failure_iff (hassembler : setup.assembler.MakesObjects)
    (htext : r.status.text = .ok text) (fault : Fault) :
    setup.verdict r = .failure fault ↔
      (¬ r.Succeeds ∧ fault = .errorResponse r.status r.body) ∨
      (r.Succeeds ∧ (∀ members, r.body ≠ some (.object members)) ∧
        fault = .refused (.notAnObject text)) ∨
      (r.Succeeds ∧ ∃ members, r.body = some (.object members) ∧
        setup.assembler (.object members) setup.channel false = .error fault) := by
  by_cases hs : r.Succeeds
  · rw [verdict_of_succeeds hs, Verdict.ofResult_eq_failure]
    by_cases hbody : ∃ members, r.body = some (.object members)
    · obtain ⟨members, hbody⟩ := hbody
      simp [entity_of_body hassembler hbody, hs, hbody]
    · have hnone := not_exists.mp hbody
      simp [entity_of_noBody htext hnone, hnone, hs, eq_comm]
  · simp [verdict_of_not_succeeds htext hs, hs, eq_comm]

theorem assembled_consultation_of_body (hs : r.Succeeds) {members : List (String × Json)}
    (hbody : r.body = some (.object members)) :
    (setup.consultation r).filterMap Event.assembled? =
      [(.object members, setup.channel, false)] := by
  simp only [consultation, (Response.isSuccess_iff r).mpr hs, preparation,
    Response.object_of_body hbody]
  cases setup.assembler (.object members) setup.channel false with
  | error fault => rfl
  | ok delivery => exact congrArg (List.cons _) (filterMap_creation (fun _ _ => rfl) setup delivery)

theorem consultation_eq_nil (htext : r.status.text = .ok text)
    (h : r.Succeeds → ∀ members, r.body ≠ some (.object members)) :
    setup.consultation r = [] := by
  unfold consultation
  split
  · rename_i hs
    rw [preparation, Response.object_of_noBody htext (h ((Response.isSuccess_iff r).mp hs))]
  · rfl

end Setup

namespace Verdict

theorem assembled_events (setup : Setup) (request : Nat) (listener : Listener)
    (verdict : Verdict) :
    (verdict.events setup request listener).filterMap Event.assembled? = [] := by
  rw [filterMap_events (fun _ => rfl) (fun _ => rfl)]
  cases verdict <;> simp [event, Event.assembled?]

theorem errorRecord_events (setup : Setup) (request : Nat) (listener : Listener)
    (verdict : Verdict) :
    (verdict.events setup request listener).filterMap Event.errorRecord? =
      verdict.errorRecords setup listener := by
  have hlevel : (verdict.errorRecords setup listener).filterMap
      (fun entry => Event.errorRecord? (.log entry)) = verdict.errorRecords setup listener := by
    unfold errorRecords
    split
    · split <;> rfl
    · rfl
    · rfl
    · rfl
  rw [filterMap_events (fun _ => rfl) (fun _ => rfl), hlevel]
  cases verdict <;> rfl

theorem outcome_eq_error_iff {listener : Listener} {verdict : Verdict} {fault : Fault} :
    outcome listener verdict = .error fault ↔
      ∃ callback, verdict.callback? listener = some callback ∧
        callback.throws = some fault := by
  unfold outcome Callback.result
  cases verdict.callback? listener with
  | none => simp
  | some callback => cases h : callback.throws <;> simp [h]

end Verdict

/-- A response, whose status has a text as every number has, settles a request that has not
reported. It tells one callback, of the message that is made of a successful object or of what
stands in the way of one; a message is assembled at most once; a failure that nobody listens for
goes to the log; and an error comes back exactly if the callback that was told throws it. -/
theorem response_classified (setup : Setup) (s : Session) (request : Nat) (listener : Listener)
    (r : Response) (text : String) (hassembler : setup.assembler.MakesObjects)
    (htext : r.status.text = .ok text)
    (hpending : s.requests[request]? = some ⟨listener, false⟩) :
    let answered := s.handleResponse setup request (.ok r)
    ∃ verdict events,
      answered.1.requests[request]? = some ⟨listener.told, true⟩ ∧
      answered.1.events = s.events ++ events ∧
      events.filterMap (Event.report? request) = [verdict] ∧
      (∀ value, verdict = .success value ↔
        r.Succeeds ∧ ∃ members, r.body = some (.object members) ∧
          setup.assembler (.object members) setup.channel false = .ok value) ∧
      (∀ fault, verdict = .failure fault ↔
        (¬ r.Succeeds ∧ fault = .errorResponse r.status r.body) ∨
        (r.Succeeds ∧ (∀ members, r.body ≠ some (.object members)) ∧
          fault = .refused (.notAnObject text)) ∨
        (r.Succeeds ∧ ∃ members, r.body = some (.object members) ∧
          setup.assembler (.object members) setup.channel false = .error fault)) ∧
      (∀ members, r.Succeeds → r.body = some (.object members) →
        events.filterMap Event.assembled? = [(.object members, setup.channel, false)]) ∧
      ((r.Succeeds → ∀ members, r.body ≠ some (.object members)) →
        events.filterMap Event.assembled? = []) ∧
      events.filterMap Event.errorRecord? = verdict.errorRecords setup listener ∧
      (∀ fault, answered.2 = .error fault ↔
        ∃ callback, verdict.callback? listener = some callback ∧
          callback.throws = some fault) := by
  intro answered
  have hanswered : answered = _ := Session.handleResponse_of_pending setup htext hpending
  refine ⟨setup.verdict r,
    setup.consultation r ++ (setup.verdict r).events setup request listener, ?_, ?_, ?_,
    Setup.verdict_eq_success_iff hassembler htext, Setup.verdict_eq_failure_iff hassembler htext,
    ?_, ?_, ?_, fun fault => ?_⟩
  · rw [hanswered]
    exact Session.getElem?_told setup (setup.verdict r) hpending
  · rw [hanswered]
    exact List.append_assoc _ _ _
  · rw [List.filterMap_append, Verdict.report_events]
    exact congrArg (· ++ _) (setup.report_prelude request (.respond (.ok r)))
  · intro members hs hbody
    rw [List.filterMap_append, Setup.assembled_consultation_of_body hs hbody,
      Verdict.assembled_events, List.append_nil]
  · intro h
    rw [Setup.consultation_eq_nil htext h, List.nil_append, Verdict.assembled_events]
  · rw [List.filterMap_append, Setup.filterMap_consultation (fun _ _ _ => rfl) (fun _ _ => rfl),
      List.nil_append, Verdict.errorRecord_events]
  · rw [hanswered]
    exact Verdict.outcome_eq_error_iff

/-- A response outside the range of success goes to the failure callback, and what that throws
comes back. -/
theorem missing_webhook_classified :
    let setup : Setup := { route := .followUp "1" "token", channel := .ofText "1" }
    let listener : Listener := .callbacks none (some { throws := some (.error "late") })
    let s : Session := { requests := [⟨listener, false⟩] }
    let r : Response := ⟨some (.number 404), none⟩
    let answered := s.handleResponse setup 0 (.ok r)
    answered.1.reports 0 = [.failure (.errorResponse r.status r.body)] ∧
      answered.2 = .error (.error "late") := by
  intro setup listener s r answered
  have hfails : ¬ r.Succeeds := by
    rintro ⟨q, hq, -, hlt⟩
    cases hq
    exact absurd hlt (by decide)
  obtain ⟨verdict, events, -, hevents, hreport, -, hfailure, -, -, -, hthrown⟩ :=
    response_classified setup s 0 listener r _ Assembler.standard_makesObjects rfl rfl
  have hverdict := (hfailure _).mpr (.inl ⟨hfails, rfl⟩)
  subst hverdict
  refine ⟨?_, (hthrown _).mpr ⟨_, rfl, rfl⟩⟩
  rw [Session.reports, hevents]
  exact hreport

end Courier
