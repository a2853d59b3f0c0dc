import Courier.Proofs.Mention.Call
import Courier.Proofs.Mention.Policy

namespace Courier.Mention

/-- What the latest of the calls that decide about something decides. -/
def latest {ν : Type} (decision : Call → Option ν) (history : List Call) : Option ν :=
  (history.filterMap decision).getLast?

/-- The calls from the last directive on, and all of them where there is none. -/
def fromDirective : List Call → List Call
  | [] => []
  | c :: rest =>
    if rest.any fun later => later.directive?.isSome then fromDirective rest else c :: rest

namespace History

def users (history : List Call) : List Json :=
  ((fromDirective history).flatMap Call.users).eraseDupsBy Json.isSame

def roles (history : List Call) : List Json :=
  ((fromDirective history).flatMap Call.roles).eraseDupsBy Json.isSame

/-- The category of that name was among those named last, or it is one of the defaults where no
names were given or the last of them were taken back. -/
def parses (defaults : Defaults) (history : List Call) (name : String) : Bool :=
  match (latest Call.categoryNames? history).join with
  | some names => names.any (Json.isSame (.string name))
  | none => defaults.parse.toList.any (·.name = name)

def repliedUser (defaults : Defaults) (history : List Call) : Given :=
  (latest Call.repliedUser? history).join.or defaults.repliedUser

def tracker (defaults : Defaults) (history : List Call) : Tracker where
  defaults := defaults
  categories := (latest Call.categories? history).join
  users := users history
  roles := roles history
  repliedUser := (latest Call.repliedUser? history).join

end History

theorem join_latest_concat {ν : Type} (decision : Call → Option (Option ν))
    (history : List Call) (c : Call) :
    (latest decision (history ++ [c])).join =
      (decision c).getD (latest decision history).join := by
  cases hc : decision c <;> simp [latest, List.filterMap_append, hc]

theorem fromDirective_concat (history : List Call) (c : Call) :
    fromDirective (history ++ [c]) =
      (if c.directive?.isSome then [] else fromDirective history) ++ [c] := by
  induction history with
  | nil => simp [fromDirective]
  | cons first rest ih =>
      rw [List.cons_append, fromDirective, ih, List.any_append]
      cases hc : c.directive? with
      | some d => simp [hc]
      | none =>
          rw [fromDirective]
          cases rest.any fun later => later.directive?.isSome <;> simp [hc]

theorem latest_map {ν μ : Type} (f : ν → μ) (decision : Call → Option ν) (history : List Call) :
    latest (fun c => (decision c).map f) history = (latest decision history).map f := by
  rw [latest, latest, ← List.getLast?_map, List.map_filterMap]

theorem any_toList (s : CategorySet) (c : Category) :
    s.toList.any (·.name = c.name) = s.contains c := by
  rw [Bool.eq_iff_iff, List.any_eq_true]
  constructor
  · rintro ⟨c', hc', hname⟩
    rw [Category.name_inj.mp (of_decide_eq_true hname)] at hc'
    exact (List.mem_filter.mp hc').2
  · intro hc
    have hall : c ∈ Category.all := by cases c <;> decide
    exact ⟨c, List.mem_filter.mpr ⟨hall, hc⟩, decide_eq_true rfl⟩

theorem contains_categories (defaults : Defaults) (history : List Call) (c : Category) :
    ((History.tracker defaults history).categories.getD defaults.parse).contains c =
      History.parses defaults history c.name := by
  have hlatest : latest Call.categories? history =
      (latest Call.categoryNames? history).map (Option.map CategorySet.ofJson) :=
    latest_map _ Call.categoryNames? history
  rw [History.tracker, hlatest, History.parses]
  match latest Call.categoryNames? history with
  | some (some names) => exact CategorySet.contains_ofJson names c
  | some none => exact (any_toList defaults.parse c).symm
  | none => exact (any_toList defaults.parse c).symm

theorem map_name_filter (keep : String → Bool) :
    (Category.all.filter fun c => keep c.name).map Category.name =
      ["users", "roles", "everyone"].filter keep :=
  List.filter_map.symm

theorem listed_concat (ids : Call → List Json) (history : List Call) (c : Call) :
    ((fromDirective (history ++ [c])).flatMap ids).eraseDupsBy Json.isSame =
      addAll (if c.directive?.isSome then []
        else ((fromDirective history).flatMap ids).eraseDupsBy Json.isSame) (ids c) := by
  rw [fromDirective_concat, List.flatMap_append, List.flatMap_singleton]
  split
  · exact (addAll_nil (ids c)).symm
  · exact (addAll_eraseDupsBy _ _).symm

theorem effect_tracker (defaults : Defaults) (history : List Call) (c : Call) :
    c.effect (History.tracker defaults history) = History.tracker defaults (history ++ [c]) := by
  simp only [Call.effect, History.tracker, History.users, History.roles, join_latest_concat,
    listed_concat]

namespace Tracker

def run : List Call → Tracker → Tracker × List (Except Fault Unit) :=
  Script.run fun t c => (call c).perform t

/-- The calls of a script that do not throw, in order. -/
def accepted (script : List Call) (t : Tracker) : List Call :=
  (Script.survivors (fun _ => true) script (run script t).2).map Prod.fst

theorem accepted_cons_of_isValid {c : Call} (h : c.IsValid) (rest : List Call) (t : Tracker) :
    accepted (c :: rest) t = c :: accepted rest (c.effect t) := by
  rw [accepted, run, Script.run_cons, perform_of_isValid t h]
  rfl

theorem accepted_cons_of_not_isValid {c : Call} (h : ¬ c.IsValid) (rest : List Call)
    (t : Tracker) : accepted (c :: rest) t = accepted rest t := by
  obtain ⟨fault, hfault⟩ := perform_of_not_isValid t h
  rw [accepted, run, Script.run_cons, hfault]
  rfl

theorem run_tracker (defaults : Defaults) (script : List Call) (history : List Call) :
    (run script (History.tracker defaults history)).1 =
      History.tracker defaults
        (history ++ accepted script (History.tracker defaults history)) := by
  -- The tracker always stands for some history, to which each call that is accepted adds itself.
  induction script generalizing history with
  | nil =>
      show _ = History.tracker defaults (history ++ [])
      rw [List.append_nil]
      rfl
  | cons c rest ih =>
      rw [run, Script.run_cons, ← run]
      by_cases h : c.IsValid
      · rw [perform_of_isValid _ h, effect_tracker, ih, accepted_cons_of_isValid h,
          effect_tracker, List.append_assoc, List.singleton_append]
      · obtain ⟨fault, hfault⟩ := perform_of_not_isValid (History.tracker defaults history) h
        rw [hfault, ih, accepted_cons_of_not_isValid h]

end Tracker

/-- The policy of a tracker is a function of its defaults and of the calls that were accepted since
it was made, and which calls are accepted is seen from each call alone. The categories are those
named last; identifiers are listed from the last directive on, in the order in which they first
came; what is listed takes the place of its category; and the reply is as decided last. -/
theorem policy_of_history (defaults : Defaults) (script : List Call) :
    let t₀ : Tracker := { defaults }
    let history := Tracker.accepted script t₀
    let P := History.parses defaults history
    let U := History.users history
    let R := History.roles history
    (Tracker.run script t₀).1.policy.toJson = .object (
      [("parse", .array ((["users", "roles", "everyone"].filter fun name => P name &&
        !(name = "users" && !U.isEmpty) && !(name = "roles" && !R.isEmpty)).map .string))] ++
      (if U.isEmpty then [] else [("users", .array U)]) ++
      (if R.isEmpty then [] else [("roles", .array R)]) ++
      ((History.repliedUser defaults history).map ("replied_user", ·)).toList) ∧
    ∀ c t, ((Tracker.call c).perform t).2 = .ok () ↔ c.IsValid := by
  intro t₀ history P U R
  have hrun : (Tracker.run script t₀).1 = History.tracker defaults history :=
    Tracker.run_tracker defaults script []
  have hparse : (History.tracker defaults history).policy.parse.map Category.name =
      ["users", "roles", "everyone"].filter fun name => P name &&
        !(name = "users" && !U.isEmpty) && !(name = "roles" && !R.isEmpty) := by
    rw [← map_name_filter, Tracker.parse_policy]
    refine congrArg (List.map Category.name) (List.filter_congr fun c _ => ?_)
    rw [show P c.name = _ from (contains_categories defaults history c).symm]
    cases c <;> rfl
  refine ⟨?_, fun c t => Tracker.ok_iff_isValid t c⟩
  rw [hrun, toJson_eq, ← hparse, List.map_map]
  simp only [Tracker.policy, Tracker.idMember_listed]
  rfl

/-- Names of no category are passed over, a refused call leaves no trace, and a directive takes the
place of what was named and listed before it, with the author no longer notified. -/
theorem decisions_serialized :
    let defaults : Defaults := { parse := { users := true }, repliedUser := some (.bool true) }
    let named : List Call := [.choose (.categories (.elements
        [some (.string "everyone"), some (.string "nobody"), some (.string "roles")])),
      .choose (.mentionables [some ⟨.member, some (.string "7")⟩]),
      .choose (.users [some (.string "8"), some (.string "x")])]
    let directive : Directive := {
      parse := .elements [.string "everyone", .string "users"]
      users := .elements [some (.string "1")] }
    let adopted := named ++ [.applyMessage (some (some directive)),
      .choose (.users [some (.string "5"), some (.string "1")])]
    (Tracker.run named { defaults }).1.policy.toJson = .object [
      ("parse", .array [.string "roles", .string "everyone"]), ("users", .array [.string "7"]),
      ("replied_user", .bool true)] ∧
    (Tracker.run adopted { defaults }).1.policy.toJson = .object [
      ("parse", .array [.string "everyone"]),
      ("users", .array [.string "1", .string "5"]), ("replied_user", .bool false)] := by
  intro defaults named directive adopted
  constructor
  · rw [(policy_of_history defaults named).1]
    rfl
  · rw [(policy_of_history defaults adopted).1]
    rfl

end Courier.Mention
