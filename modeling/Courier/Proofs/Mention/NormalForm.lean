import Courier.Mention.Roster
import Courier.Proofs.Mention.Call
import Courier.Proofs.Mention.Policy

namespace Courier.Mention

/-- A list of identifiers as a policy holds it, if it holds one. -/
structure IsListing (ids : List Json) : Prop where
  ne_nil : ids ≠ []
  apart : Apart ids
  snowflakes : ∀ id ∈ ids, Given.isSnowflake (some id) = .ok true

/-- The categories stand in their order, each at most once and none beside identifiers that take its
place. -/
structure Policy.IsNormal (p : Policy) : Prop where
  parse : p.parse.Sublist Category.all
  users : ∀ ids, p.users = some ids → IsListing ids ∧ .users ∉ p.parse
  roles : ∀ ids, p.roles = some ids → IsListing ids ∧ .roles ∉ p.parse

def Call.Lists (P : Json → Prop) (c : Call) : Prop :=
  (∀ id ∈ c.users, P id) ∧ ∀ id ∈ c.roles, P id

theorem user?_eq_some {m : Mentionable} {id : Json} (h : m.user? = some id) : m.id = some id := by
  unfold Mentionable.user? at h
  split at h
  · exact h
  · exact h
  · cases h

theorem role?_eq_some {m : Mentionable} {id : Json} (h : m.role? = some id) : m.id = some id := by
  unfold Mentionable.role? at h
  split at h
  · exact h
  · cases h

theorem identifies_reduceOption (values : Listing (Option Json))
    (h : ∃ ids, values.orEmpty.Identifies ids) :
    ∀ id ∈ values.toList.reduceOption, Given.isSnowflake (some id) = .ok true := by
  obtain ⟨ids, hids, hsnowflakes⟩ := h
  rwa [← Tracker.toList_orEmpty, hids, Listing.toList, Tracker.reduceOption_map_some]

theorem Call.IsValid.lists {c : Call} (h : c.IsValid) :
    c.Lists fun id => Given.isSnowflake (some id) = .ok true := by
  match c with
  | .choose (.repliedUser _) => exact ⟨List.forall_mem_nil _, List.forall_mem_nil _⟩
  | .choose (.categories _) => exact ⟨List.forall_mem_nil _, List.forall_mem_nil _⟩
  | .choose (.mentionables ms) =>
      obtain ⟨values, rfl, hids⟩ := h
      simp only [Call.Lists, Call.users, Call.roles, Tracker.reduceOption_map_some,
        List.mem_filterMap]
      constructor
      · rintro id ⟨m, hm, hid⟩
        rw [← user?_eq_some hid]
        exact hids m hm
      · rintro id ⟨m, hm, hid⟩
        rw [← role?_eq_some hid]
        exact hids m hm
  | .choose (.users ids) =>
      exact ⟨identifies_reduceOption (.elements ids) h, List.forall_mem_nil _⟩
  | .choose (.roles ids) =>
      exact ⟨List.forall_mem_nil _, identifies_reduceOption (.elements ids) h⟩
  | .applyMessage none => exact h.elim
  | .applyMessage (some none) => exact ⟨List.forall_mem_nil _, List.forall_mem_nil _⟩
  | .applyMessage (some (some d)) =>
      exact ⟨identifies_reduceOption _ h.1, identifies_reduceOption _ h.2.1⟩

/-- The lists of the tracker hold no identifier twice, and all that they hold has a property. -/
structure Tracker.Lists (P : Json → Prop) (t : Tracker) : Prop where
  users_apart : Apart t.users
  roles_apart : Apart t.roles
  users : ∀ id ∈ t.users, P id
  roles : ∀ id ∈ t.roles, P id

namespace Tracker.Lists

variable {P : Json → Prop} {t other : Tracker}

theorem fresh (defaults : Defaults) : Tracker.Lists P { defaults } where
  users_apart := .nil
  roles_apart := .nil
  users _ h := by cases h
  roles _ h := by cases h

theorem apart_restart {ids : List Json} (h : Apart ids) (restart : Bool) (more : List Json) :
    Apart (addAll (if restart then [] else ids) more) := by
  apply apart_addAll
  split
  · exact .nil
  · exact h

theorem mem_restart {ids more : List Json} (h : ∀ id ∈ ids, P id) (hmore : ∀ id ∈ more, P id)
    (restart : Bool) : ∀ id ∈ addAll (if restart then [] else ids) more, P id := by
  intro id hid
  rcases mem_of_mem_addAll hid with hid | hid
  · split at hid
    · cases hid
    · exact h id hid
  · exact hmore id hid

theorem effect (h : t.Lists P) {c : Call} (hc : c.Lists P) : (c.effect t).Lists P where
  users_apart := apart_restart h.users_apart _ c.users
  roles_apart := apart_restart h.roles_apart _ c.roles
  users := mem_restart h.users hc.1 _
  roles := mem_restart h.roles hc.2 _

theorem call (h : t.Lists P) {c : Call} (hc : c.IsValid → c.Lists P) :
    ((call c).perform t).1.Lists P := by
  by_cases hvalid : c.IsValid
  · rw [perform_of_isValid t hvalid]
    exact h.effect (hc hvalid)
  · obtain ⟨fault, hfault⟩ := perform_of_not_isValid t hvalid
    rw [hfault]
    exact h

theorem takeState (t other : Tracker) : (Roster.takeState t other).Lists P where
  users_apart := .nil
  roles_apart := .nil
  users _ h := by cases h
  roles _ h := by cases h

theorem takeIds (h : t.Lists P) (ho : other.Lists P) : (Roster.takeIds t other).Lists P where
  users_apart := apart_addAll h.users_apart _
  roles_apart := apart_addAll h.roles_apart _
  users := mem_restart h.users ho.users false
  roles := mem_restart h.roles ho.roles false

end Tracker.Lists

namespace Roster

def fresh (defaults : List (String × Defaults)) : Roster where
  trackers := defaults.map fun entry => (entry.1, { defaults := entry.2 })

variable {P : Json → Prop} {r : Roster}

theorem mem_of_get? {name : String} {t : Tracker} (h : r.get? name = some t) :
    (name, t) ∈ r.trackers := by
  obtain ⟨before, after, heq, -⟩ := List.lookup_eq_some_iff.mp h
  rw [heq]
  exact List.mem_append_right _ List.mem_cons_self

theorem mem_change {name : String} {f : Tracker → Tracker} {trackers : List (String × Tracker)}
    {entry : String × Tracker} (h : entry ∈ change name f trackers) :
    entry ∈ trackers ∨ ∃ old ∈ trackers, entry = (name, f old.2) := by
  induction trackers with
  | nil => cases h
  | cons first rest ih =>
      obtain ⟨n, t⟩ := first
      rw [change] at h
      split at h
      · rename_i hn
        subst hn
        rcases List.mem_cons.mp h with rfl | h
        · exact .inr ⟨_, List.mem_cons_self, rfl⟩
        · exact .inl (List.mem_cons_of_mem _ h)
      · rcases List.mem_cons.mp h with rfl | h
        · exact .inl List.mem_cons_self
        · rcases ih h with h | ⟨old, hold, rfl⟩
          · exact .inl (List.mem_cons_of_mem _ h)
          · exact .inr ⟨old, List.mem_cons_of_mem _ hold, rfl⟩

def Lists (P : Json → Prop) (r : Roster) : Prop :=
  ∀ entry ∈ r.trackers, entry.2.Lists P

theorem lists_fresh (defaults : List (String × Defaults)) : (fresh defaults).Lists P := by
  intro entry hentry
  obtain ⟨given, -, rfl⟩ := List.mem_map.mp hentry
  exact .fresh given.2

theorem Lists.update (h : r.Lists P) {name : String} {f : Tracker → Tracker}
    (hf : ∀ t, t.Lists P → (f t).Lists P) : (r.update name f).Lists P := by
  intro entry hentry
  rcases mem_change hentry with hentry | ⟨old, hold, rfl⟩
  · exact h entry hentry
  · exact hf old.2 (h old hold)

theorem Lists.get? (h : r.Lists P) {name : String} {t : Tracker} (ht : r.get? name = some t) :
    t.Lists P :=
  h (name, t) (mem_of_get? ht)

theorem Lists.copy (h : r.Lists P) (target source : String) : (r.copy target source).Lists P := by
  unfold Roster.copy
  split
  · exact h
  · rename_i other _
    have hcleared : (r.update target (Roster.takeState · other)).Lists P :=
      h.update fun t _ => .takeState t other
    dsimp only
    split
    · exact hcleared
    · rename_i hother
      exact hcleared.update fun t ht => ht.takeIds (hcleared.get? hother)

theorem Lists.step (h : r.Lists P) {next : Step}
    (hnext : ∀ name c, next = .call name c → c.IsValid → c.Lists P) :
    (r.step next).1.Lists P := by
  cases next with
  | copy target source =>
      simp only [Roster.step]
      split
      · exact h
      · exact h
      · exact h.copy target source
  | call name c =>
      simp only [Roster.step]
      split
      · exact h
      · rename_i ht
        exact h.update fun _ _ => (h.get? ht).call (hnext name c rfl)

theorem Lists.run (h : r.Lists P) {steps : List Step}
    (hsteps : ∀ name c, .call name c ∈ steps → c.IsValid → c.Lists P) :
    (r.run steps).1.Lists P := by
  induction steps generalizing r with
  | nil => exact h
  | cons next rest ih =>
      rw [Roster.run, Script.run_cons, ← Roster.run]
      apply ih
      · apply h.step
        rintro name c rfl
        exact hsteps name c List.mem_cons_self
      · intro name c hc
        exact hsteps name c (List.mem_cons_of_mem _ hc)

end Roster

namespace Tracker

theorem listed_eq_some {ids listing : List Json} (h : listed ids = some listing) :
    ids = listing ∧ ids ≠ [] := by
  cases ids with
  | nil => cases h
  | cons id rest =>
      cases h
      exact ⟨rfl, List.cons_ne_nil _ _⟩

variable {t : Tracker}

theorem isNormal_policy (h : t.Lists fun id => Given.isSnowflake (some id) = .ok true) :
    t.policy.IsNormal := by
  have hparse := t.parse_policy
  refine ⟨?_, ?_, ?_⟩
  · rw [hparse]
    exact List.filter_sublist
  · intro ids hids
    obtain ⟨rfl, hne⟩ := listed_eq_some hids
    refine ⟨⟨hne, h.users_apart, h.users⟩, ?_⟩
    rw [hparse]
    simp [hne]
  · intro ids hids
    obtain ⟨rfl, hne⟩ := listed_eq_some hids
    refine ⟨⟨hne, h.roles_apart, h.roles⟩, ?_⟩
    rw [hparse]
    simp [hne]

theorem getD_listed (ids : List Json) : (listed ids).getD [] = ids := by
  cases ids <;> rfl

theorem identifies_listing {ids : List Json}
    (h : ∀ id ∈ ids, Given.isSnowflake (some id) = .ok true) :
    (Policy.listing (listed ids)).orEmpty.Identifies ids := by
  cases ids with
  | nil => exact ⟨rfl, h⟩
  | cons id rest => exact ⟨rfl, h⟩

theorem parsed_adopted (t u : Tracker) (ping : Option Json) :
    Tracker.parsed { u with
      categories := some t.parsed, users := t.users, roles := t.roles, repliedUser := ping } =
      t.parsed := by
  unfold Tracker.parsed
  cases t.users.isEmpty <;> cases t.roles.isEmpty <;> rfl

/-- A tracker that adopts what another one wrote keeps nothing of its own but its defaults, which no
longer matter. -/
theorem perform_adopt_policy (h : t.Lists fun id => Given.isSnowflake (some id) = .ok true)
    (u : Tracker) :
    (call (.applyMessage (some (some (.ofJson t.policy.toJson))))).perform u = ({ u with
      categories := some t.parsed
      users := t.users
      roles := t.roles
      repliedUser := some (t.policy.repliedUser.present?.getD (.bool false)) }, .ok ()) := by
  have hread : Directive.ofJson t.policy.toJson = t.policy.toDirective := by
    apply ofJson_toJson
    · rw [Tracker.policy, getD_listed]
      exact h.users
    · rw [Tracker.policy, getD_listed]
      exact h.roles
  have hlist : ∀ value, t.policy.toDirective.parse ≠ .notAList value := by
    intro value heq
    cases heq
  have hadopt := perform_adopt u (identifies_listing h.users) (identifies_listing h.roles) hlist
  have hparse : CategorySet.ofJson t.policy.toDirective.parse.toList = t.parsed :=
    ofJson_toList t.parsed
  have husers : addAll [] t.users = t.users := addAll_of_apart h.users_apart
  have hroles : addAll [] t.roles = t.roles := addAll_of_apart h.roles_apart
  rw [hread, call, applyMessage, hadopt, hparse, husers, hroles]
  rfl

end Tracker

def Call.ListsTexts (c : Call) : Prop :=
  c.Lists fun id => ∃ text, id = .string text

theorem eq_map_string {ids : List Json} (h : ∀ id ∈ ids, ∃ text, id = .string text) :
    ∃ texts : List String, ids = texts.map .string := by
  induction ids with
  | nil => exact ⟨[], rfl⟩
  | cons id rest ih =>
      obtain ⟨text, rfl⟩ := h id List.mem_cons_self
      obtain ⟨texts, rfl⟩ := ih fun id hid => h id (List.mem_cons_of_mem _ hid)
      exact ⟨text :: texts, rfl⟩

theorem IsListing.texts {ids : List Json} (h : IsListing ids)
    (htexts : ∀ id ∈ ids, ∃ text, id = .string text) :
    ∃ texts : List String, ids = texts.map .string ∧ texts ≠ [] ∧ texts.Nodup ∧
      ∀ text ∈ texts, isSnowflake text = true := by
  obtain ⟨texts, rfl⟩ := eq_map_string htexts
  refine ⟨texts, rfl, ?_, ?_, ?_⟩
  · rintro rfl
    exact h.ne_nil rfl
  · have hapart := List.pairwise_map.mp h.apart
    exact hapart.imp fun hne heq => by simp [Json.isSame, heq] at hne
  · intro text htext
    have hsnowflake := h.snowflakes (.string text) (List.mem_map_of_mem htext)
    cases hflag : isSnowflake text with
    | true => rfl
    | false =>
        have hfalse : Given.isSnowflake (some (.string text)) = .ok (isSnowflake text) := rfl
        rw [hfalse, hflag] at hsnowflake
        cases hsnowflake

/-- However some trackers came to be, by calls and by copies of one another or of themselves, each
writes a policy in normal form, whose identifiers are texts if only texts were given; and any
tracker that is given what one of them wrote accepts it and writes the same, with the reply decided
against where it was left open. -/
theorem policies_normal_and_adopted (defaults : List (String × Defaults))
    (steps : List Roster.Step) :
    let r := ((Roster.fresh defaults).run steps).1
    ∀ name t, r.get? name = some t →
      t.policy.IsNormal ∧
      ((∀ on c, .call on c ∈ steps → c.ListsTexts) →
        ∀ ids, t.policy.users = some ids ∨ t.policy.roles = some ids →
          ∃ texts : List String, ids = texts.map .string ∧ texts ≠ [] ∧ texts.Nodup ∧
            ∀ text ∈ texts, isSnowflake text = true) ∧
      ∀ u : Tracker, ∃ u',
        (Tracker.call (.applyMessage (some (some (.ofJson t.policy.toJson))))).perform u =
          (u', .ok ()) ∧
        u'.policy = { t.policy with
          repliedUser := some (t.policy.repliedUser.present?.getD (.bool false)) } := by
  intro r name t ht
  have hsnowflakes : t.Lists fun id => Given.isSnowflake (some id) = .ok true :=
    ((Roster.lists_fresh defaults).run fun _ _ _ hvalid => hvalid.lists).get? ht
  have hnormal := Tracker.isNormal_policy hsnowflakes
  refine ⟨hnormal, ?_, ?_⟩
  · intro htexts ids hids
    have hlists : t.Lists fun id => ∃ text, id = .string text :=
      ((Roster.lists_fresh defaults).run fun on c hc _ => htexts on c hc).get? ht
    rcases hids with hids | hids
    · obtain ⟨rfl, -⟩ := Tracker.listed_eq_some hids
      exact (hnormal.users _ hids).1.texts hlists.users
    · obtain ⟨rfl, -⟩ := Tracker.listed_eq_some hids
      exact (hnormal.roles _ hids).1.texts hlists.roles
  · intro u
    refine ⟨_, Tracker.perform_adopt_policy hsnowflakes u, ?_⟩
    rw [Tracker.policy, Tracker.parsed_adopted]
    rfl

/-- A tracker that lists two users is adopted by one that notifies the author and copies itself. -/
theorem listed_users_adopted :
    let steps : List Roster.Step := [
      .call "a" (.choose (.users [some (.string "1"), some (.string "2"), some (.string "1")])),
      .copy "b" "b"]
    let r := ((Roster.fresh [("a", {}), ("b", { repliedUser := .ofBool true })]).run steps).1
    ∃ t u, r.get? "a" = some t ∧ r.get? "b" = some u ∧ t.policy.IsNormal ∧
      (∃ texts : List String, t.policy.users = some (texts.map .string) ∧ texts.Nodup) ∧
      ∃ u', (Tracker.call (.applyMessage (some (some (.ofJson t.policy.toJson))))).perform u =
          (u', .ok ()) ∧
        u'.policy = ⟨[.roles, .everyone], some [.string "1", .string "2"], none,
          some (.bool false)⟩ := by
  intro steps r
  have ha : r.get? "a" = some { users := [.string "1", .string "2"] } := rfl
  have hb : r.get? "b" = some { defaults := { repliedUser := .ofBool true } } := rfl
  obtain ⟨hnormal, htexts, hadopted⟩ := policies_normal_and_adopted _ steps "a" _ ha
  have hgiven : ∀ on c, .call on c ∈ steps → c.ListsTexts := by
    intro on c hc
    obtain ⟨-, rfl⟩ : on = "a" ∧
        c = .choose (.users [some (.string "1"), some (.string "2"), some (.string "1")]) := by
      simpa [steps] using hc
    refine ⟨?_, List.forall_mem_nil _⟩
    rintro id (_ | ⟨_, _ | ⟨_, _ | ⟨_, ⟨⟩⟩⟩⟩) <;> exact ⟨_, rfl⟩
  obtain ⟨texts, hids, -, hnodup, -⟩ := htexts hgiven _ (.inl rfl)
  exact ⟨_, _, ha, hb, hnormal, ⟨texts, congrArg some hids, hnodup⟩, hadopted _⟩

end Courier.Mention
