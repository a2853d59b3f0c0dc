import Courier.Proofs.Session.Act
import Courier.Proofs.Session.Verdict

namespace Courier

/-- The call says enough to come to a verdict: a response has a status that can be put into words,
as every number can, and so has the reason of a failure. -/
def EngineCall.IsWorded : EngineCall → Prop
  | finalize => True
  | respond response => ∃ r text, response = .ok r ∧ r.status.text = .ok text
  | succeed _ => True
  | fail reason => ∃ fault, reason.toFault = .ok fault

/-- All calls of engines in the act are worded, and the message is only assembled for them. -/
def Act.IsWorded : Act → Prop
  | .call _ c => c.IsWorded
  | .handleSuccess _ _ => False
  | _ => True

def Session.Step.IsWorded : Session.Step → Prop
  | .queue _ _ behaviour => ∀ call ∈ behaviour.calls, call.IsWorded
  | .submit behaviour => ∀ call ∈ behaviour.calls, call.IsWorded
  | .engine _ call => call.IsWorded
  | .handleSuccess _ _ => False
  | _ => True

theorem Setup.isSome_verdictOf (setup : Setup) {call : EngineCall} (hworded : call.IsWorded)
    (hreport : call.isReport = true) : (setup.verdictOf call).isSome := by
  cases call with
  | finalize => cases hreport
  | respond response =>
      obtain ⟨r, text, rfl, htext⟩ := hworded
      simp [verdictOf, htext]
  | succeed value => rfl
  | fail reason =>
      obtain ⟨fault, hfault⟩ := hworded
      simp [verdictOf, hfault]

namespace Session

variable {setup : Setup} {s s' : Session}

theorem mem_performed {request : Nat} {call : EngineCall} {calls : List EngineCall}
    (h : call ∈ performed setup request calls s) : call ∈ calls := by
  induction calls generalizing s with
  | nil => cases h
  | cons first rest ih =>
      rw [performed] at h
      split at h
      · rw [List.mem_singleton.mp h]
        exact List.mem_cons_self
      · rcases List.mem_cons.mp h with rfl | h
        · exact List.mem_cons_self
        · exact List.mem_cons_of_mem _ (ih h)

theorem isWorded_actsOfLaunch {listener : Listener} {engine : Behaviour}
    (h : ∀ call ∈ engine.calls, call.IsWorded) :
    ∀ a ∈ s.actsOfLaunch setup listener engine, a.IsWorded := by
  intro a ha
  rcases List.mem_cons.mp ha with rfl | ha
  · trivial
  · obtain ⟨call, hcall, rfl⟩ := List.mem_map.mp ha
    exact h call (mem_performed hcall)

theorem isWorded_actsOfStep {next : Step} (h : next.IsWorded) :
    ∀ a ∈ s.actsOfStep setup next, a.IsWorded := by
  intro a ha
  cases next with
  | queue success failure engine => exact isWorded_actsOfLaunch h a ha
  | submit engine =>
      rcases List.mem_append.mp ha with ha | ha
      · exact isWorded_actsOfLaunch h a ha
      · unfold rejection at ha
        split at ha
        · cases ha
        · rw [List.mem_singleton.mp ha]
          trivial
  | engine request call =>
      rw [List.mem_singleton.mp ha]
      exact h
  | handleSuccess request response => exact h.elim
  | _ =>
      rw [List.mem_singleton.mp ha]
      trivial

theorem isWorded_acts {steps : List Step} (h : ∀ next ∈ steps, next.IsWorded) :
    ∀ a ∈ s.acts setup steps, a.IsWorded := by
  intro a ha
  obtain ⟨next, hnext, s', ha⟩ := exists_step_of_mem_acts ha
  exact isWorded_actsOfStep (h next hnext) a ha

theorem isDone_reject (request other : Nat) (fault : Fault) (s : Session) :
    (s.reject request fault).requests[other]?.map Request.isDone =
      s.requests[other]?.map Request.isDone := by
  by_cases hother : other = request
  · subst hother
    unfold reject settlePromise
    split
    · rename_i pending isDone hr
      obtain ⟨hlt, -⟩ := List.getElem?_eq_some_iff.mp hr
      rw [hr]
      split <;> simp [setRequest, record, hlt]
    · rfl
  · rw [(touches_reject request fault s).others other hother]

theorem reports_reject (request other : Nat) (fault : Fault) (s : Session) :
    (s.reject request fault).reports other = s.reports other := by
  unfold reject settlePromise
  split
  · split
    · rw [reports_record]
      exact List.append_nil _
    · rfl
  · rfl

theorem requests_finalize (setup : Setup) (s : Session) :
    (s.finalize setup).2.requests = s.requests := by
  obtain ⟨s', ht, heq⟩ := finalize_eq_record setup s
  have hsame : s'.requests = s.requests := by
    exact List.ext_getElem? fun i => (ht (i + 1)).others i (Nat.ne_of_lt (Nat.lt_succ_self i))
  rw [heq, ← hsame]
  cases s.nextBody <;> rfl

theorem reports_finalize (setup : Setup) (request : Nat) (s : Session) :
    (s.finalize setup).2.reports request = s.reports request := by
  obtain ⟨s', ht, heq⟩ := finalize_eq_record setup s
  have hsame : s'.reports request = s.reports request :=
    (ht (request + 1)).reports request (Nat.ne_of_lt (Nat.lt_succ_self request))
  rw [heq, ← hsame]
  cases s.nextBody with
  | error fault => rfl
  | ok body => exact (reports_record request s' _).trans (List.append_nil _)

/-- The call about the outcome of a request that an act makes, if the request exists by then. -/
def callOn (request : Nat) (s : Session) : Act → Option EngineCall
  | .call r call =>
    if r = request ∧ r < s.requests.length ∧ call.isReport = true then some call else none
  | _ => none

/-- What a request has reported is what the first call on it came to. -/
structure Settled (setup : Setup) (s : Session) (request : Nat) (calls : List EngineCall) :
    Prop where
  reports : s.reports request = (calls.head?.bind setup.verdictOf).toList
  isDone_iff : ∀ r, s.requests[request]? = some r → (r.isDone = true ↔ calls ≠ [])
  unmade : s.requests[request]? = none → calls = []
  answered : ∀ call ∈ calls, (setup.verdictOf call).isSome

namespace Settled

variable {request : Nat} {calls : List EngineCall}

theorem start (setup : Setup) (defaults : Mention.Defaults) (builders : Builders)
    (request : Nat) : Settled setup (.start defaults builders) request [] where
  reports := rfl
  isDone_iff r h := by cases h
  unmade _ := rfl
  answered call h := by cases h

theorem quiet (h : Settled setup s request calls)
    (hreports : s'.reports request = s.reports request)
    (hdone : s'.requests[request]?.map Request.isDone =
      s.requests[request]?.map Request.isDone) : Settled setup s' request calls where
  reports := hreports.trans h.reports
  isDone_iff r hr := by
    rw [hr] at hdone
    obtain ⟨r', hr', hsame⟩ := Option.map_eq_some_iff.mp hdone.symm
    rw [← hsame]
    exact h.isDone_iff r' hr'
  unmade hnone := by
    rw [hnone] at hdone
    exact h.unmade (Option.map_eq_none_iff.mp hdone.symm)
  answered := h.answered

theorem receive (h : Settled setup s request calls) (listener : Listener) :
    Settled setup (s.receive listener) request calls := by
  have hreports : (s.receive listener).reports request = s.reports request := by
    rw [Session.receive, reports_record]
    exact List.append_nil _
  rcases Nat.lt_or_ge request s.requests.length with hlt | hge
  · exact h.quiet hreports (congrArg _ (List.getElem?_append_left hlt))
  · -- The new request is the only one that may stand here, and no call was made on it yet.
    have hcalls := h.unmade (List.getElem?_eq_none hge)
    subst hcalls
    refine ⟨hreports.trans h.reports, ?_, fun _ => rfl, h.answered⟩
    intro r hr
    have hnew : (s.requests ++ [⟨listener, false⟩])[request]? = some r := hr
    rw [List.getElem?_append_right hge, List.getElem?_singleton] at hnew
    split at hnew
    · cases hnew
      simp
    · cases hnew

theorem ne_nil_iff (h : Settled setup s request calls) : calls ≠ [] ↔ s.reports request ≠ [] := by
  rw [h.reports]
  cases calls with
  | nil => exact iff_of_false (fun hne => hne rfl) (fun hne => hne rfl)
  | cons first rest =>
      obtain ⟨verdict, hverdict⟩ := Option.isSome_iff_exists.mp
        (h.answered first List.mem_cons_self)
      rw [List.head?_cons, Option.bind_some, hverdict]
      exact iff_of_true (List.cons_ne_nil _ _) (List.cons_ne_nil _ _)

theorem call_of_done (h : Settled setup s request calls) {listener : Listener}
    {call : EngineCall} (hworded : call.IsWorded) (hreport : call.isReport = true)
    (hr : s.requests[request]? = some ⟨listener, true⟩) :
    Settled setup (s.perform setup request call).1 request (calls ++ [call]) := by
  rw [perform_of_done setup hreport hr]
  cases calls with
  | nil => exact absurd rfl ((h.isDone_iff _ hr).mp rfl)
  | cons first rest =>
      refine ⟨h.reports, ?_, ?_, ?_⟩
      · intro r hr
        rw [h.isDone_iff r hr]
        exact iff_of_true (List.cons_ne_nil _ _) (List.cons_ne_nil _ _)
      · intro hnone
        rw [hr] at hnone
        cases hnone
      · intro c hc
        rcases List.mem_append.mp hc with hc | hc
        · exact h.answered c hc
        · rw [List.mem_singleton.mp hc]
          exact setup.isSome_verdictOf hworded hreport

theorem call_of_pending (h : Settled setup s request calls) {listener : Listener}
    {call : EngineCall} (hworded : call.IsWorded) (hreport : call.isReport = true)
    (hr : s.requests[request]? = some ⟨listener, false⟩) :
    Settled setup (s.perform setup request call).1 request (calls ++ [call]) := by
  have hcalls : calls = [] := by
    cases calls with
    | nil => rfl
    | cons first rest => cases (h.isDone_iff _ hr).mpr (List.cons_ne_nil _ _)
  subst hcalls
  obtain ⟨verdict, hverdict⟩ := Option.isSome_iff_exists.mp
    (setup.isSome_verdictOf hworded hreport)
  have htold : (s.perform setup request call).1.requests[request]? =
      some ⟨listener.told, true⟩ := by
    rw [perform_of_pending setup hverdict hr]
    exact getElem?_told (s := s.noted (setup.prelude call)) setup verdict hr
  refine ⟨?_, ?_, ?_, ?_⟩
  · rw [reports_perform_of_pending setup hverdict hr, h.reports]
    simp [hverdict]
  · intro r hr
    rw [htold] at hr
    cases hr
    exact iff_of_true rfl (List.cons_ne_nil _ _)
  · intro hnone
    rw [htold] at hnone
    cases hnone
  · intro c hc
    rw [List.mem_singleton.mp hc]
    exact setup.isSome_verdictOf hworded hreport

theorem act_of_none (h : Settled setup s request calls) {a : Act} (hworded : a.IsWorded)
    (hnone : callOn request s a = none) : Settled setup (s.act setup a).1 request calls := by
  have hfinalize : Settled setup (s.finalize setup).2 request calls :=
    h.quiet (reports_finalize setup request s) (congrArg _ (by rw [requests_finalize]))
  cases a with
  | edit change => exact h.quiet rfl rfl
  | setBuilder name value => exact h.quiet rfl rfl
  | finalize => exact hfinalize
  | receive listener => exact h.receive listener
  | handleSuccess r response => exact hworded.elim
  | reject r fault =>
      exact h.quiet (reports_reject r request fault s) (isDone_reject r request fault s)
  | call r call =>
      rw [Session.act]
      rcases hreport : call.isReport with _ | _
      · cases call with
        | finalize =>
            rw [perform, finalizeFor]
            split
            · exact h
            · exact hfinalize
        | _ => cases hreport
      · by_cases hr : r = request
        · have hge : s.requests.length ≤ r := by
            simpa [callOn, hr, hreport] using hnone
          rw [perform_of_unmade setup call (List.getElem?_eq_none hge)]
          exact h
        · have ht := touches_perform setup r s hreport
          exact h.quiet (ht.reports request (Ne.symm hr))
            (congrArg _ (ht.others request (Ne.symm hr)))

theorem act_of_some (h : Settled setup s request calls) {a : Act} {call : EngineCall}
    (hworded : a.IsWorded) (hsome : callOn request s a = some call) :
    Settled setup (s.act setup a).1 request (calls ++ [call]) := by
  cases a with
  | call r c =>
      rw [callOn] at hsome
      split at hsome
      · rename_i hcall
        obtain ⟨rfl, hlt, hreport⟩ := hcall
        cases hsome
        have hr := List.getElem?_eq_getElem hlt
        match hmade : s.requests[r] with
        | ⟨listener, false⟩ => exact h.call_of_pending hworded hreport (hmade ▸ hr)
        | ⟨listener, true⟩ => exact h.call_of_done hworded hreport (hmade ▸ hr)
      · cases hsome
  | _ => cases hsome

theorem after (h : Settled setup s request calls) {acts : List Act}
    (hworded : ∀ a ∈ acts, a.IsWorded) :
    Settled setup (s.after setup acts) request
      (calls ++ s.trace setup (callOn request) acts) := by
  -- Later calls come behind the first one, which alone decides what is reported.
  induction acts generalizing s calls with
  | nil => exact (List.append_nil calls).symm ▸ h
  | cons a rest ih =>
      have hrest := fun b hb => hworded b (List.mem_cons_of_mem a hb)
      have ha := hworded a List.mem_cons_self
      rw [after_cons, trace]
      cases hcall : callOn request s a with
      | none => exact ih (h.act_of_none ha hcall) hrest
      | some call =>
          rw [Option.toList_some, ← List.append_assoc]
          exact ih (h.act_of_some ha hcall) hrest

end Settled

end Session

open Session in
/-- After any acts in any order, and so at every moment of a run, each request has reported at most
once, it is done exactly if it has, and what it has reported is the verdict of the first call on it.
A call on a request that is done does nothing, and no call concerns another request. -/
theorem reported_once (setup : Setup) (defaults : Mention.Defaults) (builders : Builders)
    (acts : List Act) (hworded : ∀ a ∈ acts, a.IsWorded) :
    let s₀ := Session.start defaults builders
    let s := s₀.after setup acts
    (∀ i, (s.reports i).length ≤ 1 ∧
      s.reports i = ((s₀.trace setup (callOn i) acts).head?.bind setup.verdictOf).toList ∧
      ∀ r, s.requests[i]? = some r →
        (r.isDone = true ↔ s.reports i ≠ []) ∧
        (r.isDone = true ↔ s₀.trace setup (callOn i) acts ≠ [])) ∧
    (∀ i call listener, call.isReport = true → s.requests[i]? = some ⟨listener, true⟩ →
      s.perform setup i call = (s, .ok ())) ∧
    (∀ i j call, call.isReport = true → j ≠ i →
      (s.perform setup i call).1.requests[j]? = s.requests[j]? ∧
      (s.perform setup i call).1.reports j = s.reports j) ∧
    (∀ steps, acts = s₀.acts setup steps → s = (s₀.run setup steps).1) := by
  intro s₀ s
  refine ⟨?_, ?_, ?_, ?_⟩
  · intro i
    have h := (Settled.start setup defaults builders i).after hworded
    rw [List.nil_append] at h
    refine ⟨?_, h.reports, ?_⟩
    · rw [h.reports]
      exact Option.length_toList_le
    · intro r hr
      exact ⟨(h.isDone_iff r hr).trans h.ne_nil_iff, h.isDone_iff r hr⟩
  · intro i call listener hreport hr
    exact perform_of_done setup hreport hr
  · intro i j call hreport hji
    have ht := touches_perform setup i s hreport
    exact ⟨ht.others j hji, ht.reports j hji⟩
  · intro steps hsteps
    rw [← after_acts, ← hsteps]

/-- A request whose callback throws and one that fails: later calls change neither report. -/
theorem two_requests_reported_once :
    let setup : Setup := { route := .followUp "1" "token", channel := .ofText "1" }
    let steps : List Session.Step := [
      .queue (some { throws := some (.error "late") }) none {}, .queue none none {},
      .engine 0 (.succeed (.other none)), .engine 1 (.respond (.ok ⟨some (.number 404), none⟩)),
      .engine 0 (.fail (.value (.ofText "reset"))), .engine 1 (.succeed (.other none))]
    let s := ((Session.start {} .unset).run setup steps).1
    (∀ next ∈ steps, next.IsWorded) ∧ s.reports 0 = [.success (.other none)] ∧
      s.reports 1 = [.failure (.errorResponse (some (.number 404)) none)] := by
  intro setup steps s
  have hworded : ∀ next ∈ steps, next.IsWorded := by
    simp only [steps, List.forall_mem_cons]
    exact ⟨fun _ h => (nomatch h), fun _ h => (nomatch h), trivial, ⟨_, _, rfl, rfl⟩, ⟨_, rfl⟩,
      trivial, fun _ h => (nomatch h)⟩
  obtain ⟨hreports, -, -, hrun⟩ := reported_once setup {} .unset
    ((Session.start {} .unset).acts setup steps) (Session.isWorded_acts hworded)
  rw [hrun steps rfl] at hreports
  exact ⟨hworded, (hreports 0).2.1, (hreports 1).2.1⟩

end Courier
