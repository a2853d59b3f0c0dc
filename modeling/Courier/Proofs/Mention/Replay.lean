import Courier.Proofs.Mention.Copying
import Courier.Proofs.Mention.History

/-!
A copy goes on as the tracker that it was made of would have gone on with other defaults. What
becomes of a tracker depends on the calls on it alone, the defaults are not looked at before the
policy is written, and two trackers share nothing once one was copied from the other.
-/

namespace Courier.Mention

namespace Tracker

theorem perform_withDefaults (c : Call) (t : Tracker) (defaults : Defaults) :
    (call c).perform (t.withDefaults defaults) =
      (((call c).perform t).1.withDefaults defaults, ((call c).perform t).2) := by
  rcases perform_cases c with h | ⟨fault, h⟩
  · rw [h, h]
    rfl
  · rw [h, h]

theorem run_withDefaults (script : List Call) (t : Tracker) (defaults : Defaults) :
    run script (t.withDefaults defaults) =
      ((run script t).1.withDefaults defaults, (run script t).2) := by
  induction script generalizing t with
  | nil => rfl
  | cons c rest ih =>
      simp only [run, Script.run_cons, perform_withDefaults] at ih ⊢
      rw [ih]

theorem defaults_perform (c : Call) (t : Tracker) :
    ((call c).perform t).1.defaults = t.defaults := by
  rcases perform_cases c with h | ⟨fault, h⟩
  · rw [h]
    rfl
  · rw [h]

end Tracker

namespace Roster

namespace Step

/-- The call that a step makes on a tracker, if it makes one. -/
def callOn? (name : String) : Step → Option Call
  | call on c => if on = name then some c else none
  | copy _ _ => none

def copiesInto (name : String) : Step → Bool
  | call _ _ => false
  | copy target _ => target = name

end Step

def callsOn (name : String) (steps : List Step) : List Call :=
  steps.filterMap (Step.callOn? name)

def outcomesOn (name : String) (steps : List Step) (outcomes : List (Except Fault Unit)) :
    List (Except Fault Unit) :=
  (steps.zip outcomes).filterMap fun entry => (entry.1.callOn? name).map fun _ => entry.2

variable {r : Roster} {name : String} {t : Tracker} {next : Step}

theorem callsOn_cons_of_some {c : Call} (h : next.callOn? name = some c) (rest : List Step) :
    callsOn name (next :: rest) = c :: callsOn name rest := by
  simp [callsOn, h]

theorem callsOn_cons_of_none (h : next.callOn? name = none) (rest : List Step) :
    callsOn name (next :: rest) = callsOn name rest := by
  simp [callsOn, h]

theorem outcomesOn_cons_of_some {c : Call} (h : next.callOn? name = some c) (rest : List Step)
    (outcome : Except Fault Unit) (outcomes : List (Except Fault Unit)) :
    outcomesOn name (next :: rest) (outcome :: outcomes) =
      outcome :: outcomesOn name rest outcomes := by
  simp [outcomesOn, h]

theorem outcomesOn_cons_of_none (h : next.callOn? name = none) (rest : List Step)
    (outcome : Except Fault Unit) (outcomes : List (Except Fault Unit)) :
    outcomesOn name (next :: rest) (outcome :: outcomes) = outcomesOn name rest outcomes := by
  simp [outcomesOn, h]

theorem step_callOn {c : Call} (ht : r.get? name = some t) (hcall : next.callOn? name = some c) :
    (r.step next).1.get? name = some ((Tracker.call c).perform t).1 ∧
      (r.step next).2 = ((Tracker.call c).perform t).2 := by
  cases next with
  | copy target source => cases hcall
  | call on other =>
      rw [Step.callOn?] at hcall
      split at hcall
      · rename_i hon
        subst hon
        cases hcall
        simp only [step, ht]
        exact ⟨get?_update_self ht _, trivial⟩
      · cases hcall

theorem get?_step_of_none (hcall : next.callOn? name = none)
    (hcopy : next.copiesInto name = false) : (r.step next).1.get? name = r.get? name := by
  cases next with
  | call on c =>
      have hon : name ≠ on := by
        rintro rfl
        simp [Step.callOn?] at hcall
      simp only [step]
      split
      · rfl
      · exact get?_update_of_ne r hon _
  | copy target source =>
      have htarget : name ≠ target := by
        rintro rfl
        simp [Step.copiesInto] at hcopy
      simp only [step]
      split
      · rfl
      · rfl
      · exact get?_copy_of_ne r htarget source

/-- As long as nothing is copied into a tracker, it goes through the calls on it alone. -/
theorem run_callsOn {steps : List Step} (hsteps : ∀ next ∈ steps, next.copiesInto name = false)
    (ht : r.get? name = some t) :
    (r.run steps).1.get? name = some (Tracker.run (callsOn name steps) t).1 ∧
      outcomesOn name steps (r.run steps).2 = (Tracker.run (callsOn name steps) t).2 := by
  induction steps generalizing r t with
  | nil => exact ⟨ht, rfl⟩
  | cons next rest ih =>
      have hrest := fun later h => hsteps later (List.mem_cons_of_mem next h)
      rw [run, Script.run_cons, ← run]
      cases hcall : next.callOn? name with
      | some c =>
          obtain ⟨hstep, houtcome⟩ := step_callOn ht hcall
          obtain ⟨htracker, houtcomes⟩ := ih hrest hstep
          rw [callsOn_cons_of_some hcall, outcomesOn_cons_of_some hcall, houtcomes, houtcome]
          exact ⟨htracker, rfl⟩
      | none =>
          have hstep := (get?_step_of_none hcall (hsteps next List.mem_cons_self)).trans ht
          rw [callsOn_cons_of_none hcall, outcomesOn_cons_of_none hcall]
          exact ih hrest hstep

theorem exists_get?_copy {o : Tracker} {source : String} (ht : r.get? name = some t)
    (ho : r.get? source = some o) :
    ∃ t', (r.copy name source).get? name = some t' ∧ t'.defaults = t.defaults := by
  by_cases heq : name = source
  · subst heq
    exact ⟨t.unlisted, get?_copy_self ht, rfl⟩
  · exact ⟨_, get?_copy heq ht ho, rfl⟩

/-- Whatever happens to a tracker, it keeps its defaults. -/
theorem exists_get?_step (ht : r.get? name = some t) (next : Step) :
    ∃ t', (r.step next).1.get? name = some t' ∧ t'.defaults = t.defaults := by
  cases hcall : next.callOn? name with
  | some c => exact ⟨_, (step_callOn ht hcall).1, Tracker.defaults_perform c t⟩
  | none =>
      cases hcopy : next.copiesInto name with
      | false => exact ⟨t, (get?_step_of_none hcall hcopy).trans ht, rfl⟩
      | true =>
          cases next with
          | call on c => cases hcopy
          | copy target source =>
              obtain rfl : target = name := of_decide_eq_true hcopy
              cases ho : r.get? source with
              | none =>
                  have hstep : (r.step (.copy target source)).1 = r := by simp only [step, ht, ho]
                  exact ⟨t, hstep.symm ▸ ht, rfl⟩
              | some o =>
                  rw [step_copy ht ho]
                  exact exists_get?_copy ht ho

theorem exists_get?_run (ht : r.get? name = some t) (steps : List Step) :
    ∃ t', (r.run steps).1.get? name = some t' ∧ t'.defaults = t.defaults := by
  induction steps generalizing r t with
  | nil => exact ⟨t, ht, rfl⟩
  | cons next rest ih =>
      obtain ⟨t₁, hstep, hdefaults₁⟩ := exists_get?_step ht next
      obtain ⟨t₂, hrun, hdefaults₂⟩ := ih hstep
      exact ⟨t₂, hrun, hdefaults₂.trans hdefaults₁⟩

theorem get?_fresh (defaults : List (String × Defaults)) (name : String) :
    (fresh defaults).get? name = (defaults.lookup name).map fun given => { defaults := given } := by
  induction defaults with
  | nil => rfl
  | cons first rest ih =>
      obtain ⟨n, given⟩ := first
      simp only [get?, fresh, List.map_cons, List.lookup_cons] at ih ⊢
      cases name == n with
      | true => rfl
      | false => exact ih

end Roster

open Roster in
/-- One tracker copies another that was called from its beginning and copied nothing, and then both
are called further. The copy is then what its own defaults and the calls on the other one, followed
by those on itself, make of a new tracker, and every call on it comes to what it comes to there; and
the other one never notices that it was copied. -/
theorem copied_tracker_replays {defaults : List (String × Defaults)} {target source : String}
    {own theirs : Defaults} (hne : target ≠ source) (htarget : defaults.lookup target = some own)
    (hsource : defaults.lookup source = some theirs) {before later : List Roster.Step}
    (hbefore : ∀ next ∈ before, next.copiesInto source = false)
    (hlater : ∀ next ∈ later, next.copiesInto target = false ∧ next.copiesInto source = false) :
    let copied := ((Roster.fresh defaults).run before).1.step (.copy target source)
    let ended := copied.1.run later
    let replayed (given : Defaults) (name : String) :=
      Tracker.run (callsOn name later)
        (Tracker.run (callsOn source before) { defaults := given }).1
    copied.2 = .ok () ∧
      ended.1.get? target = some (replayed own target).1 ∧
      outcomesOn target later ended.2 = (replayed own target).2 ∧
      ended.1.get? source = some (replayed theirs source).1 ∧
      outcomesOn source later ended.2 = (replayed theirs source).2 := by
  intro copied ended replayed
  have hfresh {name : String} {given : Defaults} (h : defaults.lookup name = some given) :
      (fresh defaults).get? name = some { defaults := given } := by
    rw [get?_fresh, h]
    rfl
  obtain ⟨ho, -⟩ := run_callsOn hbefore (hfresh hsource)
  obtain ⟨t, ht, hdefaults⟩ := exists_get?_run (hfresh htarget) before
  have hcopied : copied = _ := step_copy ht ho
  -- The copy stands where the history of the source would have led it.
  have hclone : copied.1.get? target =
      some (Tracker.run (callsOn source before) { defaults := own }).1 := by
    have hlists := ((lists_fresh defaults).run fun _ _ _ hvalid => hvalid.lists).get? ho
    have hrun := Tracker.run_withDefaults (callsOn source before) { defaults := theirs } own
    rw [hcopied, get?_copy hne ht ho, takeIds_takeState hlists, hdefaults]
    exact congrArg some (congrArg Prod.fst hrun).symm
  have hkept : copied.1.get? source =
      some (Tracker.run (callsOn source before) { defaults := theirs }).1 := by
    rw [hcopied, get?_copy_of_ne _ hne.symm, ho]
  have hcopy := run_callsOn (fun next h => (hlater next h).1) hclone
  have horiginal := run_callsOn (fun next h => (hlater next h).2) hkept
  refine ⟨?_, hcopy.1, hcopy.2, horiginal.1, horiginal.2⟩
  rw [hcopied]

open Roster in
/-- A tracker that lists a role is copied onto, and each of the two goes on by itself: a call is
refused, users are added to both, and the copy keeps its own defaults. -/
theorem copied_users_replayed :
    let asks : Defaults := { repliedUser := .ofBool true }
    let before : List Roster.Step := [
      .call "a" (.choose (.users [some (.string "1")])),
      .call "b" (.choose (.roles [some (.string "8")])),
      .call "a" (.choose (.users [none]))]
    let later : List Roster.Step := [
      .call "b" (.choose (.users [some (.string "2"), some (.string "1")])),
      .call "a" (.choose (.users [some (.string "3")])),
      .call "b" (.choose (.roles [none]))]
    let copied := ((Roster.fresh [("a", {}), ("b", asks)]).run before).1.step (.copy "b" "a")
    let ended := copied.1.run later
    (∀ next ∈ before, next.copiesInto "a" = false) ∧
      (∀ next ∈ later, next.copiesInto "b" = false ∧ next.copiesInto "a" = false) ∧
      ended.1.get? "b" = some { defaults := asks, users := [.string "1", .string "2"] } ∧
      outcomesOn "b" later ended.2 = [.ok (), .error (.refused (.absentElement "Role id"))] ∧
      ended.1.get? "a" = some { users := [.string "1", .string "3"] } ∧
      outcomesOn "a" later ended.2 = [.ok ()] := by
  intro asks before later copied ended
  have hbefore : ∀ next ∈ before, next.copiesInto "a" = false := by
    simp [before, Step.copiesInto]
  have hlater : ∀ next ∈ later, next.copiesInto "b" = false ∧ next.copiesInto "a" = false := by
    simp [later, Step.copiesInto]
  have htarget : [("a", {}), ("b", asks)].lookup "b" = some asks := rfl
  have hsource : [("a", {}), ("b", asks)].lookup "a" = some {} := rfl
  obtain ⟨-, hcopy, hcopyOutcomes, horiginal, horiginalOutcomes⟩ :=
    copied_tracker_replays (by decide) htarget hsource hbefore hlater
  exact ⟨hbefore, hlater, hcopy, hcopyOutcomes, horiginal, horiginalOutcomes⟩

end Courier.Mention
