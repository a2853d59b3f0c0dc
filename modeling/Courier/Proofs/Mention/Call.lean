import Courier.Proofs.Mention.Identifiers
import Courier.Proofs.Refusal
import Courier.Proofs.Requirement

namespace Courier

def Listing.toList {α : Type} : Listing α → List α
  | elements items => items
  | _ => []

namespace Mention

def Mentionable.user? (m : Mentionable) : Option Json :=
  match m.kind with
  | .user => m.id
  | .member => m.id
  | _ => none

def Mentionable.role? (m : Mentionable) : Option Json :=
  match m.kind with
  | .role => m.id
  | _ => none

namespace Call

def directive? : Call → Option Directive
  | .applyMessage (some d) => d
  | _ => none

/-- The names of categories that the call gives, or that the defaults apply. -/
def categoryNames? : Call → Option (Option (List Json))
  | .choose (.categories (.absent _)) => some none
  | .choose (.categories names) => some (some names.toList.reduceOption)
  | .applyMessage (some (some d)) => some (some d.parse.toList)
  | _ => none

/-- What the call decides about categories: a set of them, or that the defaults apply. -/
def categories? (c : Call) : Option (Option CategorySet) :=
  c.categoryNames?.map (Option.map .ofJson)

def users : Call → List Json
  | .choose (.mentionables ms) => ms.reduceOption.filterMap Mentionable.user?
  | .choose (.users ids) => ids.reduceOption
  | .applyMessage (some (some d)) => d.users.toList.reduceOption
  | _ => []

def roles : Call → List Json
  | .choose (.mentionables ms) => ms.reduceOption.filterMap Mentionable.role?
  | .choose (.roles ids) => ids.reduceOption
  | .applyMessage (some (some d)) => d.roles.toList.reduceOption
  | _ => []

/-- What the call decides about the author replied to: a value, or that the defaults apply. A
directive that says nothing decides against it. -/
def repliedUser? : Call → Option Given
  | .choose (.repliedUser ping) => some ping.present?
  | .applyMessage (some (some d)) => some (some (d.repliedUser.present?.getD (.bool false)))
  | _ => none

/-- Nothing is missing from the lists of the call, and its identifiers are snowflakes. -/
def IsValid : Call → Prop
  | .choose (.repliedUser _) => True
  | .choose (.categories (.absent _)) => True
  | .choose (.categories names) => ∃ values : List Json, names = .elements (values.map some)
  | .choose (.mentionables ms) =>
    ∃ values : List Mentionable,
      ms = values.map some ∧ ∀ m ∈ values, Given.isSnowflake m.id = .ok true
  | .choose (.users ids) => ∃ values, (Listing.elements ids).Identifies values
  | .choose (.roles ids) => ∃ values, (Listing.elements ids).Identifies values
  | .applyMessage none => False
  | .applyMessage (some none) => True
  | .applyMessage (some (some d)) =>
    (∃ values, d.users.orEmpty.Identifies values) ∧
      (∃ values, d.roles.orEmpty.Identifies values) ∧ ∀ value, d.parse ≠ .notAList value

def effect (c : Call) (t : Tracker) : Tracker where
  defaults := t.defaults
  categories := c.categories?.getD t.categories
  users := addAll (if c.directive?.isSome then [] else t.users) c.users
  roles := addAll (if c.directive?.isSome then [] else t.roles) c.roles
  repliedUser := c.repliedUser?.getD t.repliedUser

end Call

namespace Tracker

open Mutator Requirement

variable (t : Tracker)

theorem foldl_addUser (ids : List Json) :
    ids.foldl addUser t = { t with users := addAll t.users ids } := by
  induction ids generalizing t with
  | nil => rfl
  | cons id rest ih => exact ih (t.addUser id)

theorem foldl_addRole (ids : List Json) :
    ids.foldl addRole t = { t with roles := addAll t.roles ids } := by
  induction ids generalizing t with
  | nil => rfl
  | cons id rest ih => exact ih (t.addRole id)

theorem add_eq (m : Mentionable) :
    t.add m = { t with
      users := addAll t.users m.user?.toList, roles := addAll t.roles m.role?.toList } := by
  match m with
  | ⟨.user, some id⟩ => rfl
  | ⟨.member, some id⟩ => rfl
  | ⟨.role, some id⟩ => rfl
  | ⟨.user, none⟩ => rfl
  | ⟨.member, none⟩ => rfl
  | ⟨.role, none⟩ => rfl
  | ⟨.silent, _⟩ => rfl

theorem foldl_add (ms : List Mentionable) :
    ms.foldl add t = { t with
      users := addAll t.users (ms.filterMap Mentionable.user?)
      roles := addAll t.roles (ms.filterMap Mentionable.role?) } := by
  induction ms generalizing t with
  | nil => rfl
  | cons m rest ih =>
      rw [List.foldl_cons, ih, add_eq]
      cases hu : m.user? <;> cases hr : m.role? <;> simp [hu, hr, addAll]

theorem perform_mention {ms : List Mentionable}
    (h : ∀ m ∈ ms, Given.isSnowflake m.id = .ok true) :
    (mention (ms.map some)).perform t = (ms.foldl add t, .ok ()) := by
  have hids : snowflakes "Mentionable id" (ms.map (·.id)) = .ok () := by
    rw [snowflakes_eq_ok_iff, List.forall_mem_map]
    exact h
  simp only [mention, perform_check_bind, elements_map_some, hids, perform_forM_modify]

theorem perform_mentionUsers {ids : List (Option Json)} {values : List Json}
    (h : (Listing.elements ids).Identifies values) :
    (mentionUsers ids).perform t = ({ t with users := addAll t.users values }, .ok ()) := by
  have hids := (identifiers_eq_ok_iff "User id").mpr h
  simp only [mentionUsers, perform_check_bind, hids, perform_forM_modify, foldl_addUser]

theorem perform_mentionRoles {ids : List (Option Json)} {values : List Json}
    (h : (Listing.elements ids).Identifies values) :
    (mentionRoles ids).perform t = ({ t with roles := addAll t.roles values }, .ok ()) := by
  have hids := (identifiers_eq_ok_iff "Role id").mpr h
  simp only [mentionRoles, perform_check_bind, hids, perform_forM_modify, foldl_addRole]

theorem collect_of_ne {names : Listing Json} (h : ∀ value, names ≠ .notAList value) :
    names.collect = .ok names.toList := by
  cases names with
  | notAList value => exact absurd rfl (h value)
  | _ => rfl

theorem perform_adopt {d : Directive} {users roles : List Json}
    (husers : d.users.orEmpty.Identifies users) (hroles : d.roles.orEmpty.Identifies roles)
    (hparse : ∀ value, d.parse ≠ .notAList value) :
    (adopt d).perform t = ({ t with
      categories := some (.ofJson d.parse.toList)
      users := addAll [] users
      roles := addAll [] roles
      repliedUser := some (d.repliedUser.present?.getD (.bool false)) }, .ok ()) := by
  have husers := (identifiers_eq_ok_iff "User id").mpr husers
  have hroles := (identifiers_eq_ok_iff "Role id").mpr hroles
  simp only [adopt, perform_check_bind, husers, hroles, collect_of_ne hparse, Fault.lift]
  simp only [perform_bind, perform_modify, perform_forM_modify, foldl_addUser, foldl_addRole]

theorem reduceOption_map_some {α : Type} (items : List α) :
    (items.map some).reduceOption = items := by
  show (items.map some).filterMap id = items
  rw [List.filterMap_map]
  exact List.filterMap_some

theorem toList_orEmpty {α : Type} (values : Listing α) : values.orEmpty.toList = values.toList := by
  cases values <;> rfl

theorem perform_of_isValid {c : Call} (h : c.IsValid) :
    (call c).perform t = (c.effect t, .ok ()) := by
  match c with
  | .choose (.repliedUser ping) => rfl
  | .choose (.categories (.absent how)) => rfl
  | .choose (.categories (.notAList value)) =>
      obtain ⟨values, hvalues⟩ := h
      cases hvalues
  | .choose (.categories (.elements names)) =>
      obtain ⟨values, hvalues⟩ := h
      cases hvalues
      have hpresent := elements_map_some "Mention types" values
      simp only [call, choose, allow, allPresent, perform_check_bind, hpresent, perform_modify]
      simp only [Call.effect, Call.categories?, Call.categoryNames?, Listing.toList,
        reduceOption_map_some]
      rfl
  | .choose (.mentionables ms) =>
      obtain ⟨values, rfl, hids⟩ := h
      rw [call, choose, perform_mention t hids, foldl_add]
      simp only [Call.effect, Call.users, Call.roles, reduceOption_map_some]
      rfl
  | .choose (.users ids) =>
      obtain ⟨values, hids⟩ := h
      rw [call, choose, perform_mentionUsers t hids]
      cases hids.1
      simp only [Call.effect, Call.users, reduceOption_map_some]
      rfl
  | .choose (.roles ids) =>
      obtain ⟨values, hids⟩ := h
      rw [call, choose, perform_mentionRoles t hids]
      cases hids.1
      simp only [Call.effect, Call.roles, reduceOption_map_some]
      rfl
  | .applyMessage none => exact h.elim
  | .applyMessage (some none) => rfl
  | .applyMessage (some (some d)) =>
      obtain ⟨⟨users, husers⟩, ⟨roles, hroles⟩, hparse⟩ := h
      have hu : d.users.toList.reduceOption = users := by
        rw [← toList_orEmpty, husers.1]
        exact reduceOption_map_some users
      have hr : d.roles.toList.reduceOption = roles := by
        rw [← toList_orEmpty, hroles.1]
        exact reduceOption_map_some roles
      rw [call, applyMessage, perform_adopt t husers hroles hparse]
      simp only [Call.effect, Call.users, Call.roles, hu, hr]
      rfl

theorem isValid_of_ok {c : Call} (h : ((call c).perform t).2 = .ok ()) : c.IsValid := by
  match c with
  | .choose (.repliedUser ping) => trivial
  | .choose (.categories (.absent how)) => trivial
  | .choose (.categories (.notAList value)) => cases h
  | .choose (.categories (.elements names)) =>
      obtain ⟨values, hvalues, -⟩ := ok_of_check_bind h
      exact ⟨values, (allPresent_eq_ok_iff _).mp hvalues⟩
  | .choose (.mentionables ms) =>
      obtain ⟨values, hvalues, h⟩ := ok_of_check_bind h
      obtain ⟨_, hids, -⟩ := ok_of_check_bind h
      refine ⟨values, eq_map_some_of_elements hvalues, ?_⟩
      rwa [snowflakes_eq_ok_iff, List.forall_mem_map] at hids
  | .choose (.users ids) =>
      obtain ⟨values, hids, -⟩ := ok_of_check_bind h
      exact ⟨values, (identifiers_eq_ok_iff _).mp hids⟩
  | .choose (.roles ids) =>
      obtain ⟨values, hids, -⟩ := ok_of_check_bind h
      exact ⟨values, (identifiers_eq_ok_iff _).mp hids⟩
  | .applyMessage none => cases h
  | .applyMessage (some none) => trivial
  | .applyMessage (some (some d)) =>
      obtain ⟨users, husers, h⟩ := ok_of_check_bind h
      obtain ⟨roles, hroles, h⟩ := ok_of_check_bind h
      obtain ⟨names, hnames, -⟩ := ok_of_check_bind h
      refine ⟨⟨users, (identifiers_eq_ok_iff _).mp husers⟩,
        ⟨roles, (identifiers_eq_ok_iff _).mp hroles⟩, ?_⟩
      intro value hvalue
      rw [hvalue] at hnames
      cases hnames

theorem ok_iff_isValid (c : Call) : ((call c).perform t).2 = .ok () ↔ c.IsValid := by
  constructor
  · exact isValid_of_ok t
  · intro h
    rw [perform_of_isValid t h]

theorem perform_of_not_isValid {c : Call} (h : ¬ c.IsValid) :
    ∃ fault, (call c).perform t = (t, .error fault) := by
  cases hout : ((call c).perform t).2 with
  | ok _ => exact absurd (isValid_of_ok t hout) h
  | error fault => exact ⟨fault, Prod.ext (call_allOrNothing c t fault hout) hout⟩

/-- Whether a call is accepted is seen from the call alone, and so is the error if it is not. -/
theorem perform_cases (c : Call) :
    (∀ t, (call c).perform t = (c.effect t, .ok ())) ∨
      ∃ fault, ∀ t, (call c).perform t = (t, .error fault) := by
  by_cases h : c.IsValid
  · exact .inl fun t => perform_of_isValid t h
  · obtain ⟨outcome, houtcome⟩ := (call_checksFirst c).outcome
    cases outcome with
    | ok _ => exact absurd (isValid_of_ok {} (houtcome {})) h
    | error fault =>
        exact .inr ⟨fault, fun t =>
          Prod.ext (call_allOrNothing c t fault (houtcome t)) (houtcome t)⟩

end Tracker

end Mention

end Courier
