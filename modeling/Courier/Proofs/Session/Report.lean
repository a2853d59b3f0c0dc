import Courier.Session

namespace Courier

inductive Verdict where
  | success (value : Delivery)
  | failure (fault : Fault)

namespace Event

def body? : Event → Option WireBody
  | body b => some b
  | _ => none

def report? (request : Nat) : Event → Option Verdict
  | success r value => if r = request then some (.success value) else none
  | failure r fault => if r = request then some (.failure fault) else none
  | _ => none

end Event

def EngineCall.isReport : EngineCall → Bool
  | finalize => false
  | respond _ => true
  | succeed _ => true
  | fail _ => true

namespace Session

def bodies (s : Session) : List WireBody :=
  s.events.filterMap Event.body?

/-- What a request has reported so far: each entry stands for one callback that was called. -/
def reports (request : Nat) (s : Session) : List Verdict :=
  s.events.filterMap (Event.report? request)

@[simp]
theorem bodies_record (s : Session) (e : Event) :
    (s.record e).bodies = s.bodies ++ e.body?.toList := by
  cases h : e.body? <;> simp [bodies, record, List.filterMap_append, h]

@[simp]
theorem reports_record (request : Nat) (s : Session) (e : Event) :
    (s.record e).reports request = s.reports request ++ (e.report? request).toList := by
  cases h : e.report? request <;> simp [reports, record, List.filterMap_append, h]

/-- The second session comes from the first by something that concerns one request only. -/
structure Touches (request : Nat) (s s' : Session) : Prop where
  composer : s'.composer = s.composer
  builders : s'.builders = s.builders
  length : s'.requests.length = s.requests.length
  others : ∀ j, j ≠ request → s'.requests[j]? = s.requests[j]?
  bodies : s'.bodies = s.bodies
  reports : ∀ j, j ≠ request → s'.reports j = s.reports j

variable {request : Nat} {s s' s'' : Session}

theorem Touches.refl (request : Nat) (s : Session) : Touches request s s :=
  ⟨rfl, rfl, rfl, fun _ _ => rfl, rfl, fun _ _ => rfl⟩

theorem Touches.trans (h : Touches request s s') (h' : Touches request s' s'') :
    Touches request s s'' where
  composer := h'.composer.trans h.composer
  builders := h'.builders.trans h.builders
  length := h'.length.trans h.length
  others j hj := (h'.others j hj).trans (h.others j hj)
  bodies := h'.bodies.trans h.bodies
  reports j hj := (h'.reports j hj).trans (h.reports j hj)

theorem touches_record (s : Session) {e : Event} (hbody : e.body? = none)
    (hreport : ∀ j, j ≠ request → e.report? j = none) : Touches request s (s.record e) where
  composer := rfl
  builders := rfl
  length := rfl
  others _ _ := rfl
  bodies := by simp [hbody]
  reports j hj := by simp [hreport j hj]

theorem touches_log (request : Nat) (setup : Setup) (s : Session) (entry : LogRecord) :
    Touches request s (s.log setup entry) := by
  unfold log
  split
  · exact touches_record s rfl fun _ _ => rfl
  · exact .refl request s

theorem touches_setRequest (request : Nat) (r : Request) (s : Session) :
    Touches request s (s.setRequest request r) where
  composer := rfl
  builders := rfl
  length := by simp [setRequest]
  others j hj := by simp [setRequest, List.getElem?_set_ne (Ne.symm hj)]
  bodies := rfl
  reports _ _ := rfl

theorem touches_success (request : Nat) (value : Delivery) (s : Session) :
    Touches request s (s.record (.success request value)) :=
  touches_record s rfl fun j hj => by simp [Event.report?, Ne.symm hj]

theorem touches_failure (request : Nat) (fault : Fault) (s : Session) :
    Touches request s (s.record (.failure request fault)) :=
  touches_record s rfl fun j hj => by simp [Event.report?, Ne.symm hj]

theorem touches_settlePromise (request : Nat) (isDone pending : Bool) {e : Event} (s : Session)
    (hbody : e.body? = none) (hreport : ∀ j, e.report? j = none) :
    Touches request s (s.settlePromise request isDone pending e) := by
  unfold settlePromise
  split
  · exact (touches_setRequest request _ s).trans (touches_record _ hbody fun j _ => hreport j)
  · exact touches_setRequest request _ s

theorem touches_succeed (request : Nat) (value : Delivery) (s : Session) :
    Touches request s (s.succeed request value).1 := by
  unfold succeed
  match s.requests[request]? with
  | none => exact .refl request s
  | some ⟨_, true⟩ => exact .refl request s
  | some ⟨.callbacks success failure, false⟩ =>
      have h := (touches_setRequest request ⟨.callbacks success failure, true⟩ s).trans
        (touches_success request value _)
      cases success <;> exact h
  | some ⟨.promise pending, false⟩ =>
      exact (touches_success request value s).trans
        (touches_settlePromise request true pending _ rfl fun _ => rfl)

theorem touches_announceFailure (setup : Setup) (request : Nat) (fault : Fault)
    (listener : Listener) (s : Session) :
    Touches request s (s.announceFailure setup request fault listener).1 := by
  have h := touches_failure request fault s
  match listener with
  | .callbacks _ (some callback) => exact h
  | .callbacks _ none => exact h.trans (touches_log request setup _ _)
  | .promise pending =>
      exact h.trans (touches_settlePromise request true pending _ rfl fun _ => rfl)

theorem touches_fail (setup : Setup) (request : Nat) (reason : Reason) (s : Session) :
    Touches request s (s.fail setup request reason).1 := by
  unfold fail
  match s.requests[request]? with
  | none => exact .refl request s
  | some ⟨_, true⟩ => exact .refl request s
  | some ⟨listener, false⟩ =>
      have h := touches_setRequest request ⟨listener, true⟩ s
      match hreason : reason.toFault with
      | .error cause => simpa only [hreason] using h
      | .ok fault =>
          simpa only [hreason] using
            h.trans (touches_announceFailure setup request fault listener _)

theorem touches_logCreated {setup : Setup} {delivery : Delivery} (request : Nat)
    (h : s.logCreated setup delivery = .ok s') : Touches request s s' := by
  unfold logCreated at h
  split at h
  · split at h <;> cases h
    exact touches_log request setup s _
  · cases h
    exact .refl request s

theorem touches_handleSuccess (setup : Setup) (request : Nat)
    (response : Except Absence Response) (s : Session) :
    Touches request s (s.handleSuccess setup request response).1 := by
  unfold handleSuccess
  cases Response.objectOf response with
  | error fault => exact .refl request s
  | ok payload =>
      have h : Touches request s (s.record (.assemble payload setup.channel false)) :=
        touches_record s rfl fun _ _ => rfl
      cases hmade : setup.assembler payload setup.channel false with
      | error fault => simpa only [hmade] using h
      | ok delivery =>
          simp only [hmade]
          split
          · exact h
          · rename_i hlog
            exact (h.trans (touches_logCreated request hlog)).trans
              (touches_succeed request delivery _)

theorem touches_settle (setup : Setup) (request : Nat) (response : Response) (s : Session) :
    Touches request s (s.settle setup request response).1 := by
  unfold settle
  split
  · exact .refl request s
  · exact touches_fail setup request _ s
  · have h := touches_handleSuccess setup request (.ok response) s
    split
    · rename_i heq
      simpa [heq] using h
    · rename_i heq
      simp only [heq] at h
      split
      · exact h
      · exact h.trans (touches_fail setup request _ _)

theorem touches_handleResponse (setup : Setup) (request : Nat)
    (response : Except Absence Response) (s : Session) :
    Touches request s (s.handleResponse setup request response).1 := by
  unfold handleResponse
  split
  · exact .refl request s
  · exact .refl request s
  · split
    · exact touches_settle setup request _ s
    · exact .refl request s

theorem touches_perform (setup : Setup) (request : Nat) (s : Session) {call : EngineCall}
    (h : call.isReport = true) : Touches request s (s.perform setup request call).1 := by
  cases call with
  | finalize => cases h
  | respond response => exact touches_handleResponse setup request response s
  | succeed value => exact touches_succeed request value s
  | fail reason => exact touches_fail setup request reason s

theorem touches_reject (request : Nat) (fault : Fault) (s : Session) :
    Touches request s (s.reject request fault) := by
  unfold reject
  split
  · exact touches_settlePromise request _ _ s rfl fun _ => rfl
  · exact .refl request s

def nextBody (s : Session) : Except Fault WireBody :=
  WireBody.build s.builders s.composer.draft s.composer.files

def recordBody (s : Session) : Except Fault WireBody → Session
  | .ok body => s.record (.body body)
  | .error _ => s

theorem finalize_eq_record (setup : Setup) (s : Session) :
    ∃ s', (∀ request, Touches request
        { s with composer := (s.composer.finalize s.builders).composer } s') ∧
      s.finalize setup = (s.nextBody, s'.recordBody s.nextBody) := by
  have hbody : (s.composer.finalize s.builders).body = s.nextBody := rfl
  unfold finalize
  dsimp only
  rw [hbody]
  cases (s.composer.finalize s.builders).missing with
  | none =>
      cases s.nextBody with
      | error fault => exact ⟨_, fun request => .refl request _, rfl⟩
      | ok body => exact ⟨_, fun request => touches_log request setup _ _, rfl⟩
  | some consumed =>
      have hwarned (request : Nat) := touches_log request setup
        { s with composer := (s.composer.finalize s.builders).composer }
        (.finalizedAgain setup.route.redacted consumed)
      cases s.nextBody with
      | error fault => exact ⟨_, hwarned, rfl⟩
      | ok body =>
          exact ⟨_, fun request => (hwarned request).trans (touches_log request setup _ _), rfl⟩

theorem fst_finalize (setup : Setup) (s : Session) : (s.finalize setup).1 = s.nextBody := by
  obtain ⟨s', -, heq⟩ := finalize_eq_record setup s
  rw [heq]

theorem composer_finalize (setup : Setup) (s : Session) :
    (s.finalize setup).2.composer = (s.composer.finalize s.builders).composer := by
  obtain ⟨s', ht, heq⟩ := finalize_eq_record setup s
  refine Eq.trans ?_ (ht 0).composer
  rw [heq]
  cases s.nextBody <;> rfl

theorem bodies_finalize (setup : Setup) (s : Session) :
    (s.finalize setup).2.bodies = s.bodies ++ s.nextBody.toOption.toList := by
  obtain ⟨s', ht, heq⟩ := finalize_eq_record setup s
  have hbodies : s'.bodies = s.bodies := (ht 0).bodies
  rw [heq, ← hbodies]
  cases s.nextBody with
  | error fault => exact (List.append_nil _).symm
  | ok body => exact bodies_record s' (.body body)

end Session

end Courier
