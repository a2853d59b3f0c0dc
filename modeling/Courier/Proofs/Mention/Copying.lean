import Courier.Proofs.Mention.NormalForm

namespace Courier.Mention

namespace Tracker

def withDefaults (t : Tracker) (defaults : Defaults) : Tracker :=
  { t with defaults }

def unlisted (t : Tracker) : Tracker :=
  { t with users := [], roles := [] }

theorem unlisted_eq_self_iff (t : Tracker) : t.unlisted = t ↔ t.users = [] ∧ t.roles = [] := by
  constructor
  · intro h
    exact ⟨(congrArg Tracker.users h).symm, (congrArg Tracker.roles h).symm⟩
  · rintro ⟨husers, hroles⟩
    obtain ⟨defaults, categories, users, roles, repliedUser⟩ := t
    cases husers
    cases hroles
    rfl

end Tracker

namespace Roster

variable {r : Roster} {name other target source : String} {t o : Tracker}

theorem lookup_change_self (name : String) (f : Tracker → Tracker)
    (trackers : List (String × Tracker)) :
    (change name f trackers).lookup name = (trackers.lookup name).map f := by
  induction trackers with
  | nil => rfl
  | cons first rest ih =>
      obtain ⟨n, t⟩ := first
      by_cases hn : n = name
      · simp [change, hn]
      · simpa [change, hn, List.lookup_cons, beq_false_of_ne (Ne.symm hn)] using ih

theorem lookup_change_of_ne (h : other ≠ name) (f : Tracker → Tracker)
    (trackers : List (String × Tracker)) :
    (change name f trackers).lookup other = trackers.lookup other := by
  induction trackers with
  | nil => rfl
  | cons first rest ih =>
      obtain ⟨n, t⟩ := first
      by_cases hn : n = name
      · have hother : (other == name) = false := beq_false_of_ne h
        simp [change, hn, List.lookup_cons, hother]
      · simp only [change, if_neg hn, List.lookup_cons, ih]

theorem get?_update_self (ht : r.get? name = some t) (f : Tracker → Tracker) :
    (r.update name f).get? name = some (f t) := by
  have hlookup := lookup_change_self name f r.trackers
  rwa [show r.trackers.lookup name = some t from ht] at hlookup

theorem get?_update_of_ne (r : Roster) (h : other ≠ name) (f : Tracker → Tracker) :
    (r.update name f).get? other = r.get? other :=
  lookup_change_of_ne h f r.trackers

theorem get?_copy_of_ne (r : Roster) (h : other ≠ target) (source : String) :
    (r.copy target source).get? other = r.get? other := by
  unfold copy
  split
  · rfl
  · dsimp only
    split
    · exact get?_update_of_ne r h _
    · rw [get?_update_of_ne _ h, get?_update_of_ne r h]

theorem get?_copy (hne : target ≠ source) (ht : r.get? target = some t)
    (ho : r.get? source = some o) :
    (r.copy target source).get? target = some (takeIds (takeState t o) o) := by
  have ho' : (r.update target (takeState · o)).get? source = some o := by
    rw [get?_update_of_ne r hne.symm, ho]
  simp only [copy, ho, ho']
  exact get?_update_self (get?_update_self ht _) _

/-- A tracker that copies itself reads its identifiers when they are gone. -/
theorem get?_copy_self (ht : r.get? name = some t) :
    (r.copy name name).get? name = some t.unlisted := by
  have hcleared := get?_update_self ht (takeState · t)
  simp only [copy, ht, hcleared]
  exact get?_update_self hcleared _

/-- Identifiers that are listed apart are taken over as they are. -/
theorem takeIds_takeState {P : Json → Prop} (ho : o.Lists P) (t : Tracker) :
    takeIds (takeState t o) o = o.withDefaults t.defaults := by
  have husers : addAll [] o.users = o.users := addAll_of_apart ho.users_apart
  have hroles : addAll [] o.roles = o.roles := addAll_of_apart ho.roles_apart
  simp only [takeIds, takeState, Tracker.withDefaults, husers, hroles]

theorem step_copy (ht : r.get? target = some t) (ho : r.get? source = some o) :
    r.step (.copy target source) = (r.copy target source, .ok ()) := by
  simp only [step, ht, ho]

end Roster

/-- However some trackers came to be, a copy between two of them is never refused, and it changes
none but the target. That has the categories, the identifiers and the reply of the source from then
on, and its own defaults, unless it is the source itself: then it loses its identifiers. So a copy
always gives the state that the source had, but for a tracker that lists somebody and copies
itself. -/
theorem copy_clones_iff (defaults : List (String × Defaults)) (steps : List Roster.Step) :
    let r := ((Roster.fresh defaults).run steps).1
    ∀ target source t o, r.get? target = some t → r.get? source = some o →
      let copied := r.step (.copy target source)
      copied.2 = .ok () ∧
      (∀ other, other ≠ target → copied.1.get? other = r.get? other) ∧
      copied.1.get? target =
        some (if target = source then t.unlisted else o.withDefaults t.defaults) ∧
      (copied.1.get? target = some (o.withDefaults t.defaults) ↔
        target ≠ source ∨ o.users = [] ∧ o.roles = []) := by
  intro r target source t o ht ho copied
  have hlists : o.Lists fun id => Given.isSnowflake (some id) = .ok true :=
    ((Roster.lists_fresh defaults).run fun _ _ _ hvalid => hvalid.lists).get? ho
  have hcopied : copied = _ := Roster.step_copy ht ho
  rw [hcopied]
  refine ⟨rfl, fun other h => Roster.get?_copy_of_ne r h source, ?_⟩
  by_cases heq : target = source
  · subst heq
    obtain rfl : t = o := Option.some.inj (ht.symm.trans ho)
    have hself := Roster.get?_copy_self ht
    have hsame : t.withDefaults t.defaults = t := rfl
    rw [if_pos rfl, hself, hsame]
    refine ⟨rfl, ?_⟩
    simpa using t.unlisted_eq_self_iff
  · have hother := Roster.get?_copy heq ht ho
    rw [Roster.takeIds_takeState hlists] at hother
    rw [if_neg heq, hother]
    simp [heq]

/-- A tracker takes over the user that another one lists, while a copy of itself leaves it as it is
so long as it lists nobody. -/
theorem listed_user_copied :
    let r := ((Roster.fresh [("a", {}), ("b", { repliedUser := .ofBool true })]).run
      [.call "a" (.choose (.users [some (.string "1")]))]).1
    r.get? "a" = some { users := [.string "1"] } ∧
      r.get? "b" = some { defaults := { repliedUser := .ofBool true } } ∧
      (r.step (.copy "b" "a")).1.get? "b" =
        some { defaults := { repliedUser := .ofBool true }, users := [.string "1"] } ∧
      (r.step (.copy "b" "b")).1.get? "b" = r.get? "b" := by
  intro r
  have ha : r.get? "a" = some { users := [.string "1"] } := rfl
  have hb : r.get? "b" = some { defaults := { repliedUser := .ofBool true } } := rfl
  obtain ⟨-, -, -, hcloned⟩ := copy_clones_iff _ _ "b" "a" _ _ hb ha
  obtain ⟨-, -, -, hself⟩ := copy_clones_iff _ _ "b" "b" _ _ hb hb
  exact ⟨ha, hb, hcloned.mpr (.inl (by decide)), hself.mpr (.inr ⟨rfl, rfl⟩)⟩

/-- A tracker that lists a user and a role copies itself and lists nobody any more. -/
theorem self_copy_loses_identifiers :
    let r := ((Roster.fresh [("a", {})]).run
      [.call "a" (.choose (.users [some (.string "1")])),
        .call "a" (.choose (.roles [some (.string "8")]))]).1
    ∃ t, r.get? "a" = some t ∧ t.policy.users = some [.string "1"] ∧
      t.policy.roles = some [.string "8"] ∧
      ∃ t', (r.step (.copy "a" "a")).1.get? "a" = some t' ∧ t' ≠ t ∧
        t'.policy = ⟨[.users, .roles, .everyone], none, none, none⟩ := by
  intro r
  refine ⟨{ users := [.string "1"], roles := [.string "8"] }, rfl, rfl, rfl, {}, rfl, ?_, rfl⟩
  intro h
  cases congrArg Tracker.users h

end Courier.Mention
