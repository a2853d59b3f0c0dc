import Courier.Proofs.Session.Verdict

/-!
A promise is settled as callbacks are told. A message that is sent with a promise and one that is
sent with two callbacks go through the same, call by call of the engine, and the promise is settled
by the first thing that settles it: the outcome that the request reports, or an error that the
engine throws before.
-/

namespace Courier

def Event.settlement? (request : Nat) : Event → Option Verdict
  | resolved r value => if r = request then some (.success value) else none
  | rejected r fault => if r = request then some (.failure fault) else none
  | _ => none

/-- Two callbacks that take note of what they are told, and throw nothing. -/
def Listener.recording : Listener :=
  .callbacks (some {}) (some {})

/-- How an error of the engine settles a promise. -/
def Verdict.refusal : Except Fault Unit → List Verdict
  | .ok () => []
  | .error fault => [.failure fault]

theorem Verdict.settlement_events (setup : Setup) (request : Nat) (pending : Bool)
    (verdict : Verdict) :
    (verdict.events setup request (.promise pending)).filterMap (Event.settlement? request) =
      if pending then [verdict] else [] := by
  cases pending <;> cases verdict <;>
    simp [events, event, errorRecords, settlement, Event.settlement?, List.filterMap_cons]

theorem Verdict.events_recording (setup : Setup) (request : Nat) (pending : Bool)
    (verdict : Verdict) :
    verdict.events setup request .recording =
      (verdict.events setup request (.promise pending)).filter
        fun e => (e.settlement? request).isNone := by
  cases pending <;> cases verdict <;>
    simp [events, event, errorRecords, settlement, Event.settlement?, Listener.recording]

theorem Verdict.outcome_recording (verdict : Verdict) : outcome .recording verdict = .ok () := by
  cases verdict <;> rfl

theorem Setup.settlement_prelude (setup : Setup) (request : Nat) (call : EngineCall) :
    (setup.prelude call).filterMap (Event.settlement? request) = [] :=
  filterMap_prelude (fun _ _ _ => rfl) (fun _ _ => rfl) setup call

def Setup.bodyRecords (setup : Setup) (files : Nat) : Except Fault WireBody → List LogRecord
  | .ok body => [.finalized setup.route.redacted body.kindName files]
  | .error _ => []

def Setup.finalRecords (setup : Setup) (f : Composer.Finalization) (files : Nat) :
    List LogRecord :=
  ((f.missing.map (LogRecord.finalizedAgain setup.route.redacted)).toList ++
    setup.bodyRecords files f.body).filter (setup.logger.writes ·.level)

namespace Session

def since (s later : Session) : List Event :=
  later.events.drop s.events.length

theorem since_of_append {s later : Session} {news : List Event}
    (h : later.events = s.events ++ news) : s.since later = news := by
  rw [since, h, List.drop_left]

theorem finalize_eq (setup : Setup) (s : Session) :
    let f := s.composer.finalize s.builders
    s.finalize setup = (f.body, noted { s with composer := f.composer }
      ((setup.finalRecords f s.composer.files.length).map .log ++
        f.body.toOption.toList.map .body)) := by
  intro f
  unfold finalize Setup.finalRecords
  -- The report of missing files comes first, and does not depend on the body.
  cases hbody : f.body <;> cases hmissing : f.missing <;> simp only [f] at hbody hmissing <;>
    by_cases hwarn : setup.logger.writes .warn = true <;>
    by_cases hdebug : setup.logger.writes .debug = true <;>
    simp [noted, record, log_eq_noted, Setup.bodyRecords, LogRecord.level, Except.toOption,
      hbody, hmissing, hwarn, hdebug, f]

/-- Two sessions in which one request was sent, in the one with callbacks that record what they are
told and in the other with a promise. The promise is settled by the first of its settlers, and all
else is the same on both sides. -/
structure Tandem (request : Nat) (past : List Event) (told settlers : List Verdict)
    (called promised : Session) : Prop where
  composer : promised.composer = called.composer
  builders : promised.builders = called.builders
  requests : ∃ isDone, called.requests[request]? = some ⟨.recording, isDone⟩ ∧
    promised.requests[request]? = some ⟨.promise settlers.isEmpty, isDone⟩ ∧
    (isDone = false → told = [])
  events : ∃ heard news, called.events = past ++ heard ∧ promised.events = past ++ news ∧
    heard = news.filter (fun e => (e.settlement? request).isNone) ∧
    heard.filterMap (Event.report? request) = told ∧
    news.filterMap (Event.settlement? request) = settlers.take 1
  once : told.length ≤ 1

namespace Tandem

variable {request : Nat} {past : List Event} {told settlers : List Verdict}
  {called promised : Session}

theorem receive (s : Session) :
    Tandem s.requests.length s.events [] [] (s.receive .recording) (s.receive (.promise true)) where
  composer := rfl
  builders := rfl
  requests := ⟨false, by simp [Session.receive, record], by simp [Session.receive, record],
    fun _ => rfl⟩
  events := ⟨[.execute s.requests.length], [.execute s.requests.length], rfl, rfl, rfl, rfl, rfl⟩
  once := Nat.zero_le 1

theorem noted (h : Tandem request past told settlers called promised) {events : List Event}
    (hreport : events.filterMap (Event.report? request) = [])
    (hsettlement : events.filterMap (Event.settlement? request) = []) :
    Tandem request past told settlers (called.noted events) (promised.noted events) where
  composer := h.composer
  builders := h.builders
  requests := h.requests
  events := by
    obtain ⟨heard, news, hcalled, hpromised, hheard, htold, hsettled⟩ := h.events
    have hkept : events.filter (fun e => (e.settlement? request).isNone) = events := by
      rw [List.filter_eq_self]
      intro e he
      rw [List.filterMap_eq_nil_iff.mp hsettlement e he]
      rfl
    refine ⟨heard ++ events, news ++ events, ?_, ?_, ?_, ?_, ?_⟩
    · rw [Session.noted, hcalled, List.append_assoc]
    · rw [Session.noted, hpromised, List.append_assoc]
    · rw [List.filter_append, ← hheard, hkept]
    · rw [List.filterMap_append, htold, hreport, List.append_nil]
    · rw [List.filterMap_append, hsettled, hsettlement, List.append_nil]
  once := h.once

theorem finalize (h : Tandem request past told settlers called promised) (setup : Setup) :
    Tandem request past told settlers (called.finalize setup).2 (promised.finalize setup).2 ∧
      (promised.finalize setup).1 = (called.finalize setup).1 := by
  have hmade (composer : Composer) : Tandem request past told settlers
      { called with composer } { promised with composer, builders := called.builders } :=
    ⟨rfl, rfl, h.requests, h.events, h.once⟩
  simp only [finalize_eq, h.composer, h.builders, and_true]
  apply (hmade _).noted
  · rw [List.filterMap_append, List.filterMap_map, List.filterMap_map]
    simp [Function.comp_def, Event.report?]
  · rw [List.filterMap_append, List.filterMap_map, List.filterMap_map]
    simp [Function.comp_def, Event.settlement?]

theorem tell (h : Tandem request past [] settlers called promised) (setup : Setup)
    (verdict : Verdict) {isDone : Bool}
    (hcalled : called.requests[request]? = some ⟨.recording, isDone⟩)
    (hpromised : promised.requests[request]? = some ⟨.promise settlers.isEmpty, isDone⟩) :
    Tandem request past [verdict] (settlers ++ [verdict])
      (called.told setup request .recording verdict)
      (promised.told setup request (.promise settlers.isEmpty) verdict) where
  composer := h.composer
  builders := h.builders
  requests := by
    obtain ⟨hcalledlt, -⟩ := List.getElem?_eq_some_iff.mp hcalled
    obtain ⟨hpromisedlt, -⟩ := List.getElem?_eq_some_iff.mp hpromised
    refine ⟨true, ?_, ?_, nofun⟩
    · simp [told, setRequest, Session.noted, hcalledlt, Listener.told, Listener.recording]
    · simp [told, setRequest, Session.noted, hpromisedlt, Listener.told]
  events := by
    obtain ⟨heard, news, hcalledEvents, hpromisedEvents, hheard, htold, hsettled⟩ := h.events
    refine ⟨heard ++ verdict.events setup request .recording,
      news ++ verdict.events setup request (.promise settlers.isEmpty), ?_, ?_, ?_, ?_, ?_⟩
    · rw [told, Session.noted, setRequest, hcalledEvents, List.append_assoc]
    · rw [told, Session.noted, setRequest, hpromisedEvents, List.append_assoc]
    · rw [List.filter_append, ← hheard, ← Verdict.events_recording]
    · rw [List.filterMap_append, htold, Verdict.report_events, List.nil_append]
    · rw [List.filterMap_append, hsettled, Verdict.settlement_events]
      cases settlers <;> rfl
  once := Nat.le_refl 1

/-- A request may be marked on both sides without a word to anybody. -/
theorem mark (h : Tandem request past [] settlers called promised) {isDone : Bool} (later : Bool)
    (hcalled : called.requests[request]? = some ⟨.recording, isDone⟩)
    (hpromised : promised.requests[request]? = some ⟨.promise settlers.isEmpty, isDone⟩) :
    Tandem request past [] settlers (called.setRequest request ⟨.recording, later⟩)
      (promised.setRequest request ⟨.promise settlers.isEmpty, later⟩) where
  composer := h.composer
  builders := h.builders
  requests := by
    obtain ⟨hcalledlt, -⟩ := List.getElem?_eq_some_iff.mp hcalled
    obtain ⟨hpromisedlt, -⟩ := List.getElem?_eq_some_iff.mp hpromised
    exact ⟨later, by simp [setRequest, hcalledlt], by simp [setRequest, hpromisedlt], fun _ => rfl⟩
  events := h.events
  once := h.once

/-- A call about the outcome of the request comes to the same on both sides. -/
theorem report (h : Tandem request past told settlers called promised) (setup : Setup)
    {call : EngineCall} (hreport : call.isReport = true) :
    ∃ verdicts,
      Tandem request past (told ++ verdicts) (settlers ++ verdicts)
        (called.perform setup request call).1 (promised.perform setup request call).1 ∧
      (promised.perform setup request call).2 = (called.perform setup request call).2 := by
  obtain ⟨isDone, hcalled, hpromised, hquiet⟩ := h.requests
  cases isDone with
  | true =>
      rw [perform_of_done setup hreport hcalled, perform_of_done setup hreport hpromised]
      exact ⟨[], by simpa using h, rfl⟩
  | false =>
      obtain rfl := hquiet rfl
      cases hverdict : setup.verdictOf call with
      | some verdict =>
          rw [perform_of_pending setup hverdict hcalled,
            perform_of_pending setup hverdict hpromised]
          have hprelude := h.noted (setup.report_prelude request call)
            (setup.settlement_prelude request call)
          exact ⟨[verdict], hprelude.tell setup verdict hcalled hpromised,
            verdict.outcome_recording.symm⟩
      | none =>
          obtain ⟨later, fault, hperform⟩ := perform_of_no_verdict setup request hreport hverdict
          rw [hperform _ _ hcalled, hperform _ _ hpromised]
          refine ⟨[], ?_, rfl⟩
          simpa using h.mark later hcalled hpromised

theorem perform (h : Tandem request past told settlers called promised) (setup : Setup)
    (call : EngineCall) :
    ∃ verdicts,
      Tandem request past (told ++ verdicts) (settlers ++ verdicts)
        (called.perform setup request call).1 (promised.perform setup request call).1 ∧
      (promised.perform setup request call).2 = (called.perform setup request call).2 := by
  cases hreport : call.isReport with
  | true => exact h.report setup hreport
  | false =>
      cases call with
      | finalize =>
          obtain ⟨isDone, hcalled, hpromised, -⟩ := h.requests
          obtain ⟨hfinal, hsame⟩ := h.finalize setup
          simp only [Session.perform, finalizeFor, hcalled, hpromised, hsame, and_true]
          exact ⟨[], by simpa using hfinal⟩
      | _ => cases hreport

theorem performAll (h : Tandem request past told settlers called promised) (setup : Setup)
    (throws : Option Fault) (calls : List EngineCall) :
    ∃ verdicts,
      Tandem request past (told ++ verdicts) (settlers ++ verdicts)
        (Session.performAll setup request throws calls called).1
        (Session.performAll setup request throws calls promised).1 ∧
      (Session.performAll setup request throws calls promised).2 =
        (Session.performAll setup request throws calls called).2 := by
  induction calls generalizing told settlers called promised with
  | nil => cases throws <;> exact ⟨[], by simpa [Session.performAll] using h, rfl⟩
  | cons call rest ih =>
      obtain ⟨first, hfirst, hsame⟩ := h.perform setup call
      cases hcalled : called.perform setup request call with
      | mk called' outcome =>
          cases hpromised : promised.perform setup request call with
          | mk promised' outcome' =>
              rw [hcalled, hpromised] at hfirst hsame
              obtain rfl : outcome' = outcome := hsame
              simp only [Session.performAll, hcalled, hpromised]
              cases outcome' with
              | error fault => exact ⟨first, hfirst, rfl⟩
              | ok _ =>
                  obtain ⟨others, hothers, hend⟩ := ih hfirst
                  refine ⟨first ++ others, ?_, hend⟩
                  rwa [← List.append_assoc, ← List.append_assoc]

theorem run (h : Tandem request past told settlers called promised) (setup : Setup)
    (calls : List EngineCall) :
    ∃ verdicts,
      Tandem request past (told ++ verdicts) (settlers ++ verdicts)
        (called.run setup (calls.map (.engine request))).1
        (promised.run setup (calls.map (.engine request))).1 ∧
      (promised.run setup (calls.map (.engine request))).2 =
        (called.run setup (calls.map (.engine request))).2 := by
  -- Each call has the same outcome on both sides and leaves the two sessions in tandem.
  induction calls generalizing told settlers called promised with
  | nil => exact ⟨[], by simpa [Session.run, Script.run] using h, rfl⟩
  | cons call rest ih =>
      obtain ⟨first, hfirst, hsame⟩ := h.perform setup call
      obtain ⟨others, hothers, hend⟩ := ih hfirst
      refine ⟨first ++ others, ?_, ?_⟩
      · rw [← List.append_assoc, ← List.append_assoc]
        exact hothers
      · exact List.cons_eq_cons.mpr ⟨hsame, hend⟩

theorem reject (h : Tandem request past told settlers called promised) (fault : Fault) :
    Tandem request past told (settlers ++ [.failure fault]) called
      (promised.reject request fault) := by
  obtain ⟨isDone, hcalled, hpromised, hquiet⟩ := h.requests
  cases settlers with
  | cons first rest =>
      have hsame : promised.reject request fault = promised := by
        simp only [Session.reject, hpromised, settlePromise]
        exact setRequest_self hpromised
      rw [hsame]
      exact ⟨h.composer, h.builders, h.requests, h.events, h.once⟩
  | nil =>
      obtain ⟨heard, news, hcalledEvents, hpromisedEvents, hheard, htold, hsettled⟩ := h.events
      obtain ⟨hlt, -⟩ := List.getElem?_eq_some_iff.mp hpromised
      have hrejected : promised.reject request fault =
          (promised.setRequest request ⟨.promise false, isDone⟩).record
            (.rejected request fault) := by
        simp only [Session.reject, hpromised, settlePromise]
        rfl
      rw [hrejected]
      refine ⟨h.composer, h.builders, ⟨isDone, hcalled, ?_, hquiet⟩, ?_, h.once⟩
      · simp [setRequest, record, hlt]
      · refine ⟨heard, news ++ [.rejected request fault], hcalledEvents, ?_, ?_, htold, ?_⟩
        · rw [record, setRequest, hpromisedEvents, List.append_assoc]
        · simp [hheard, Event.settlement?]
        · rw [List.filterMap_append, hsettled]
          simp [Event.settlement?]

theorem reports {s : Session} (h : Tandem request s.events told settlers called promised) :
    (s.since called).filterMap (Event.report? request) = told := by
  obtain ⟨heard, news, hcalled, -, -, htold, -⟩ := h.events
  rw [since_of_append hcalled, htold]

theorem settled {s : Session} (h : Tandem request s.events told settlers called promised) :
    (s.since promised).filterMap (Event.settlement? request) = settlers.take 1 := by
  obtain ⟨heard, news, -, hpromised, -, -, hsettled⟩ := h.events
  rw [since_of_append hpromised, hsettled]

theorem since_called {s : Session} (h : Tandem request s.events told settlers called promised) :
    s.since called = (s.since promised).filter fun e => (e.settlement? request).isNone := by
  obtain ⟨heard, news, hcalled, hpromised, hheard, -, -⟩ := h.events
  rw [since_of_append hcalled, since_of_append hpromised, hheard]

end Tandem

/-- The two ways to send a message, up to the moment when the engine has received the request. -/
theorem tandem_dispatch (setup : Setup) (s : Session) (engine : Behaviour) :
    let queued := s.queue setup (some {}) (some {}) engine
    ∃ during, Tandem s.requests.length s.events during (during ++ Verdict.refusal queued.2)
      queued.1 (s.submit setup engine) := by
  intro queued
  obtain ⟨during, htandem, hsame⟩ :=
    (Tandem.receive s).performAll setup engine.throws engine.calls
  refine ⟨during, ?_⟩
  have hqueued : queued = performAll setup s.requests.length engine.throws engine.calls
    (s.receive .recording) := rfl
  rw [← hqueued] at htandem hsame
  rw [submit, launch]
  cases hpromised : performAll setup s.requests.length engine.throws engine.calls
      (s.receive (.promise true)) with
  | mk promised outcome =>
      rw [hpromised] at htandem hsame
      rw [← hsame]
      cases outcome with
      | ok _ => simpa [Verdict.refusal] using htandem
      | error fault => simpa [Verdict.refusal] using htandem.reject fault

end Session

namespace Verdict

variable {during afterwards told : List Verdict} {thrown : Except Fault Unit}

/-- An error that the engine throws comes last, if the request reports before it or not at all. -/
theorem take_refusal_between (honce : (during ++ afterwards).length ≤ 1)
    (hends : thrown = .ok () ∨ during ≠ [] ∨ afterwards = []) :
    (during ++ refusal thrown ++ afterwards).take 1 =
      (during ++ afterwards ++ refusal thrown).take 1 := by
  cases during with
  | cons first rest => rfl
  | nil =>
      rcases hends with rfl | hends | rfl
      · simp [refusal]
      · exact absurd rfl hends
      · simp

theorem take_told_refusal (honce : told.length ≤ 1) :
    (∀ value, (told ++ refusal thrown).take 1 = [.success value] ↔ told = [.success value]) ∧
    (∀ fault, (told ++ refusal thrown).take 1 = [.failure fault] ↔
      told = [.failure fault] ∨ told = [] ∧ thrown = .error fault) ∧
    ((told ++ refusal thrown).take 1 = [] ↔ told = [] ∧ thrown = .ok ()) := by
  match told, thrown with
  | [], .ok () => simp [refusal]
  | [], .error fault => simp [refusal]
  | [verdict], _ => simp
  | _ :: _ :: _, _ => simp at honce

end Verdict

/-- The first outcome that an engine reports comes after it threw, while it received the request from
two callbacks. -/
def Session.ReportsAfterThrowing (s : Session) (setup : Setup) (engine : Behaviour)
    (later : List EngineCall) : Prop :=
  let i := s.requests.length
  let queued := s.queue setup (some {}) (some {}) engine
  let called := queued.1.run setup (later.map (.engine i))
  let reports (t : Session) := (s.since t).filterMap (Event.report? i)
  (∃ fault, queued.2 = .error fault) ∧ reports queued.1 = [] ∧ reports called.1 ≠ []

/-- A message that is sent with a promise goes the way of one that is sent from the same state with
two callbacks, whatever is made of responses, and whatever the engine does while it receives the
request and later. Sending it throws nothing; the message comes out the same, so do the log and the
bodies, and the engine gets the same answers. The promise is resolved as the success callback is
told, and rejected as the failure callback is told or, when nobody was told anything, with the error
that the engine throws; else it is pending. But what an engine reports first after it threw, the
promise does not hear: it is rejected with the error by then, while a callback is told. -/
theorem promise_settled_as_told (setup : Setup) (s : Session) (engine : Behaviour)
    (later : List EngineCall) :
    let i := s.requests.length
    let queued := s.queue setup (some {}) (some {}) engine
    let called := queued.1.run setup (later.map (.engine i))
    let promised := (s.submit setup engine).run setup (later.map (.engine i))
    let reports (t : Session) := (s.since t).filterMap (Event.report? i)
    let settled := (s.since promised.1).filterMap (Event.settlement? i)
    (s.step setup (.submit engine)).2 = .ok () ∧
    promised.1.composer = called.1.composer ∧
    promised.2 = called.2 ∧
    s.since called.1 = (s.since promised.1).filter (fun e => (e.settlement? i).isNone) ∧
    (∃ isDone, called.1.requests[i]? = some ⟨.callbacks (some {}) (some {}), isDone⟩ ∧
      promised.1.requests[i]? = some ⟨.promise settled.isEmpty, isDone⟩) ∧
    (¬ s.ReportsAfterThrowing setup engine later →
      (∀ value, settled = [.success value] ↔ reports called.1 = [.success value]) ∧
      (∀ fault, settled = [.failure fault] ↔
        reports called.1 = [.failure fault] ∨ reports called.1 = [] ∧ queued.2 = .error fault) ∧
      (settled = [] ↔ reports called.1 = [] ∧ queued.2 = .ok ())) ∧
    (∀ fault, queued.2 = .error fault → reports queued.1 = [] → settled = [.failure fault]) := by
  intro i queued called promised reports settled
  obtain ⟨during, hdispatch⟩ := Session.tandem_dispatch setup s engine
  obtain ⟨afterwards, hrun, hanswers⟩ := hdispatch.run setup later
  have hduring : reports queued.1 = during := hdispatch.reports
  have htold : reports called.1 = during ++ afterwards := hrun.reports
  have hsettled : settled = (during ++ Verdict.refusal queued.2 ++ afterwards).take 1 :=
    hrun.settled
  have hempty : settled.isEmpty =
      (during ++ Verdict.refusal queued.2 ++ afterwards).isEmpty := by
    rw [hsettled]
    cases during ++ Verdict.refusal queued.2 ++ afterwards <;> rfl
  refine ⟨rfl, hrun.composer, hanswers, hrun.since_called, ?_, ?_, ?_⟩
  · obtain ⟨isDone, hcalled, hpromised, -⟩ := hrun.requests
    exact ⟨isDone, hcalled, hempty ▸ hpromised⟩
  · intro hheard
    have hlast : queued.2 = .ok () ∨ during ≠ [] ∨ afterwards = [] := by
      cases hthrown : queued.2 with
      | ok _ => exact .inl rfl
      | error fault =>
          by_cases hnothing : during = []
          · have hlate : reports called.1 = afterwards := by rw [htold, hnothing, List.nil_append]
            refine .inr (.inr (Decidable.byContradiction fun hlater => ?_))
            exact hheard ⟨⟨fault, hthrown⟩, hduring.trans hnothing, fun hnone =>
              hlater (hlate.symm.trans hnone)⟩
          · exact .inr (.inl hnothing)
    rw [hsettled, htold, Verdict.take_refusal_between hrun.once hlast]
    exact Verdict.take_told_refusal hrun.once
  · intro fault hthrown hnothing
    rw [hsettled, hthrown, hduring.symm.trans hnothing]
    rfl

/-- An engine that reports a success, throws, and reports a failure later: the promise is resolved,
while the call with callbacks throws. And one that throws at once: the promise is rejected. -/
theorem late_throw_swallowed :
    let setup : Setup := { route := .followUp "7" "token", channel := .ofText "1" }
    let s := Session.start {} .unset
    let engine : Behaviour := {
      calls := [.finalize, .succeed (.other none)], throws := some (.error "late") }
    let later : List EngineCall := [.fail (.value (.ofText "reset"))]
    let queued := s.queue setup (some {}) (some {}) engine
    let promised := (s.submit setup engine).run setup (later.map (.engine 0))
    let refused := s.submit setup { throws := some (.error "early") }
    ¬ s.ReportsAfterThrowing setup engine later ∧
      queued.2 = .error (.error "late") ∧
      (s.since promised.1).filterMap (Event.settlement? 0) = [.success (.other none)] ∧
      (s.since refused).filterMap (Event.settlement? 0) = [.failure (.error "early")] := by
  intro setup s engine later queued promised refused
  have hheard : ¬ s.ReportsAfterThrowing setup engine later := by
    rintro ⟨-, hnothing, -⟩
    cases hnothing
  obtain ⟨-, -, -, -, -, hsettled, -⟩ := promise_settled_as_told setup s engine later
  obtain ⟨-, -, -, -, -, -, hrejected⟩ :=
    promise_settled_as_told setup s { throws := some (.error "early") } []
  exact ⟨hheard, rfl, ((hsettled hheard).1 _).mpr rfl, hrejected _ rfl rfl⟩

/-- An engine that throws, and reports a success later: the success callback is told, and yet the
promise is rejected with the error and not resolved. -/
theorem late_success_unheard :
    let setup : Setup := { route := .followUp "7" "token", channel := .ofText "1" }
    let s := Session.start {} .unset
    let engine : Behaviour := { throws := some (.error "boom") }
    let value : Delivery := .other (.ofText "late")
    let later : List EngineCall := [.succeed value]
    let called := (s.queue setup (some {}) (some {}) engine).1.run setup (later.map (.engine 0))
    let promised := (s.submit setup engine).run setup (later.map (.engine 0))
    let reports := (s.since called.1).filterMap (Event.report? 0)
    let settled := (s.since promised.1).filterMap (Event.settlement? 0)
    reports = [.success value] ∧ settled = [.failure (.error "boom")] ∧
      ¬ (settled = [.success value] ↔ reports = [.success value]) := by
  intro setup s engine value later called promised reports settled
  have hreports : reports = [.success value] := rfl
  have hsettled : settled = [.failure (.error "boom")] := rfl
  refine ⟨hreports, hsettled, fun hsame => ?_⟩
  have hresolved := hsettled.symm.trans (hsame.mpr hreports)
  cases hresolved

end Courier
