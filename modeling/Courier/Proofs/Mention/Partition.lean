import Courier.Proofs.Mention.Adoption

namespace Courier.Mention

theorem isDigits_iff {id : Given} : IsDigits id ↔ Given.isSnowflake id = .ok true := by
  cases id with
  | none => exact iff_of_false nofun (by decide)
  | some value => exact isDigits_some_iff

theorem addAll_of_listed {ids more : List Json}
    (h : ∀ id ∈ more, ids.any (Json.isSame id) = true) : addAll ids more = ids := by
  induction more with
  | nil => rfl
  | cons id rest ih =>
      obtain ⟨hid, hrest⟩ := List.forall_mem_cons.mp h
      rw [addAll, List.foldl_cons, addOnce_of_any hid]
      exact ih hrest

theorem any_addOnce {ids : List Json} {id x : Json}
    (h : ids.any (Json.isSame x) = true ∨ x.isSame id = true) :
    (addOnce ids id).any (Json.isSame x) = true := by
  cases hany : ids.any (Json.isSame id) with
  | true =>
      rw [addOnce_of_any hany]
      rcases h with h | h
      · exact h
      · rwa [Json.eq_of_isSame h]
  | false =>
      rw [addOnce_of_not_any hany, List.any_append]
      simpa using h

theorem any_addAll {ids more : List Json} {x : Json}
    (h : (ids ++ more).any (Json.isSame x) = true) :
    (addAll ids more).any (Json.isSame x) = true := by
  induction more generalizing ids with
  | nil => rwa [List.append_nil] at h
  | cons id rest ih =>
      refine ih ?_
      rw [List.any_append, List.any_cons, Bool.or_eq_true, Bool.or_eq_true] at h
      rw [List.any_append, Bool.or_eq_true]
      rcases h with h | h | h
      · exact .inl (any_addOnce (.inl h))
      · exact .inl (any_addOnce (.inr h))
      · exact .inr h

/-- Identifiers are listed batch by batch: batches are accepted and come to one batch of all, what is
listed already changes nothing, and neither does what is repeated. -/
structure ListsInBatches (list : List (Option Json) → Mutator Tracker Unit)
    (listed : Tracker → List Json) : Prop where
  accepts : ∀ t (a : List Json), (∀ id ∈ a, IsDigits (some id)) →
    ((list (a.map some)).perform t).2 = .ok ()
  append : ∀ t (a b : List Json), (∀ id ∈ a ++ b, IsDigits (some id)) →
    (list ((a ++ b).map some)).perform t =
      (do list (a.map some); list (b.map some)).perform t
  listed : ∀ t (a : List Json), (∀ id ∈ a, IsDigits (some id)) →
    (∀ id ∈ a, (listed t).any (Json.isSame id) = true) → (list (a.map some)).perform t = (t, .ok ())
  repeated : ∀ t (a b : List Json), (∀ id ∈ a ++ b, IsDigits (some id)) →
    (∀ id ∈ b, a.any (Json.isSame id) = true) →
      (list ((a ++ b).map some)).perform t = (list (a.map some)).perform t

/-- A mutator that does no more than to add identifiers to a list of a tracker takes them in
batches. -/
theorem listsInBatches_of_adds {list : List (Option Json) → Mutator Tracker Unit}
    {listed : Tracker → List Json} (put : Tracker → List Json → Tracker)
    (hadds : ∀ t (ids : List Json), (∀ id ∈ ids, IsDigits (some id)) →
      (list (ids.map some)).perform t = (put t (addAll (listed t) ids), .ok ()))
    (hlisted : ∀ t ids, listed (put t ids) = ids) (hput : ∀ t, put t (listed t) = t)
    (hputs : ∀ t ids ids', put (put t ids) ids' = put t ids') : ListsInBatches list listed where
  accepts t a ha := by rw [hadds t a ha]
  append t a b hab := by
    obtain ⟨ha, hb⟩ := List.forall_mem_append.mp hab
    rw [hadds t _ hab, Mutator.perform_bind_of_ok (hadds t a ha), hadds _ b hb, hlisted, hputs,
      addAll_append]
  listed t a ha hmem := by rw [hadds t a ha, addAll_of_listed hmem, hput]
  repeated t a b hab hmem := by
    have hlist : addAll (addAll (listed t) a) b = addAll (listed t) a := by
      refine addAll_of_listed fun id hid => any_addAll ?_
      rw [List.any_append, hmem id hid, Bool.or_true]
    rw [hadds t _ hab, hadds t a (List.forall_mem_append.mp hab).1, addAll_append, hlist]

namespace Tracker

open Mutator Requirement

variable (t : Tracker)

theorem perform_mention_of_absent {ms : List (Option Mentionable)} (h : none ∈ ms) :
    (mention ms).perform t = (t, .error (.refused (.absentElement "Mentionables"))) := by
  have hall : ms.all Option.isSome = false := List.all_eq_false.mpr ⟨none, h, nofun⟩
  have helements : elements "Mentionables" ms = refuse (.absentElement "Mentionables") := by
    rw [elements_eq, hall]
    rfl
  rw [mention, helements]
  rfl

theorem perform_mention_of_first {before after : List Mentionable} {m : Mentionable}
    {fault : Fault} (hbefore : ∀ earlier ∈ before, IsDigits earlier.id)
    (hm : snowflake "Mentionable id" m.id = .error fault) :
    (mention ((before ++ m :: after).map some)).perform t = (t, .error fault) := by
  have hids : snowflakes "Mentionable id" ((before ++ m :: after).map (·.id)) = .error fault := by
    rw [List.map_append, List.map_cons]
    refine snowflakes_of_first ?_ hm
    exact List.forall_mem_map.mpr fun earlier h => isDigits_iff.mp (hbefore earlier h)
  rw [mention, elements_map_some, perform_check_bind]
  simp only [perform_check_bind, hids]

theorem identifies_of_isDigits {ids : List Json} (h : ∀ id ∈ ids, IsDigits (some id)) :
    (Listing.elements (ids.map some)).Identifies ids :=
  ⟨rfl, fun id hid => isDigits_iff.mp (h id hid)⟩

theorem mentionUsers_listsInBatches : ListsInBatches mentionUsers Tracker.users :=
  listsInBatches_of_adds (fun t ids => { t with users := ids })
    (fun t _ h => perform_mentionUsers t (identifies_of_isDigits h))
    (fun _ _ => rfl) (fun _ => rfl) (fun _ _ _ => rfl)

theorem mentionRoles_listsInBatches : ListsInBatches mentionRoles Tracker.roles :=
  listsInBatches_of_adds (fun t ids => { t with roles := ids })
    (fun t _ h => perform_mentionRoles t (identifies_of_isDigits h))
    (fun _ _ => rfl) (fun _ => rfl) (fun _ _ _ => rfl)

theorem isValid_mentionables_iff {ms : List (Option Mentionable)} :
    (Call.choose (.mentionables ms)).IsValid ↔
      none ∉ ms ∧ ∀ m, some m ∈ ms → IsDigits m.id := by
  constructor
  · rintro ⟨values, rfl, hids⟩
    refine ⟨by simp, fun m hm => ?_⟩
    obtain ⟨value, hvalue, heq⟩ := List.mem_map.mp hm
    cases heq
    exact isDigits_iff.mpr (hids m hvalue)
  · rintro ⟨hnone, hids⟩
    have hall : ms.all Option.isSome = true := List.all_eq_true.mpr fun m hm => by
      cases m with
      | none => exact absurd hm hnone
      | some m => rfl
    obtain ⟨values, rfl⟩ := all_isSome_iff.mp hall
    refine ⟨values, rfl, fun m hm => ?_⟩
    exact isDigits_iff.mp (hids m (List.mem_map_of_mem hm))

theorem perform_mention_eq {ms : List Mentionable} (h : ∀ m ∈ ms, IsDigits m.id) :
    (mention (ms.map some)).perform t =
      (do mentionUsers ((ms.filterMap Mentionable.user?).map some)
          mentionRoles ((ms.filterMap Mentionable.role?).map some)).perform t := by
  have husers : ∀ id ∈ ms.filterMap Mentionable.user?, IsDigits (some id) := by
    intro id hid
    obtain ⟨m, hm, hid⟩ := List.mem_filterMap.mp hid
    rw [← user?_eq_some hid]
    exact h m hm
  have hroles : ∀ id ∈ ms.filterMap Mentionable.role?, IsDigits (some id) := by
    intro id hid
    obtain ⟨m, hm, hid⟩ := List.mem_filterMap.mp hid
    rw [← role?_eq_some hid]
    exact h m hm
  rw [perform_mention t fun m hm => isDigits_iff.mp (h m hm), foldl_add,
    perform_bind_of_ok (perform_mentionUsers t (identifies_of_isDigits husers)),
    perform_mentionRoles _ (identifies_of_isDigits hroles)]

end Tracker

/-- Mentioning things is listing the users and members among them, and then the roles, in the order
in which they are mentioned. It is refused exactly if something is absent or has an identifier that
is no run of digits, of whatever kind it is: what is absent is reported before all else, and else the
first identifier that is none; then nothing has changed. Users and roles may be listed in any number
of batches, and listing them again changes nothing. -/
theorem mention_lists_by_kind :
    (∀ (t : Tracker) (ms : List (Option Mentionable)),
      let mentioned := (Tracker.mention ms).perform t
      (mentioned.2 ≠ .ok () ↔ none ∈ ms ∨ ∃ m, some m ∈ ms ∧ ¬ IsDigits m.id) ∧
      (none ∈ ms → mentioned = (t, .error (.refused (.absentElement "Mentionables")))) ∧
      (∀ before m after, ms = (before ++ m :: after).map some →
        (∀ earlier ∈ before, IsDigits earlier.id) → ¬ IsDigits m.id →
          mentioned = (t, .error (match m.id.text with
            | .ok text => .refused (.notSnowflake "Mentionable id" text)
            | .error cause => .mismatch cause))) ∧
      (mentioned.2 = .ok () →
        mentioned = (do
          Tracker.mentionUsers ((ms.reduceOption.filterMap Mentionable.user?).map some)
          Tracker.mentionRoles ((ms.reduceOption.filterMap Mentionable.role?).map some)).perform t)) ∧
    ListsInBatches Tracker.mentionUsers Tracker.users ∧
    ListsInBatches Tracker.mentionRoles Tracker.roles ∧
    (∀ text : String, IsDigits (some (.string text)) ↔
      text ≠ "" ∧ ∀ c ∈ text.toList, c.isDigit = true) ∧
    ¬ IsDigits none := by
  refine ⟨fun t ms => ⟨?_, Tracker.perform_mention_of_absent t, ?_, fun hok => ?_⟩,
    Tracker.mentionUsers_listsInBatches, Tracker.mentionRoles_listsInBatches,
    fun _ => isDigits_text_iff, nofun⟩
  · have hvalid := Tracker.ok_iff_isValid t (.choose (.mentionables ms))
    rw [Tracker.isValid_mentionables_iff] at hvalid
    rw [ne_eq]
    refine (not_congr hvalid).trans ?_
    simp only [not_and_or, not_not, not_forall, exists_prop]
  · rintro before m after rfl hbefore hm
    refine Tracker.perform_mention_of_first t hbefore ?_
    exact Requirement.snowflake_of_not_isSnowflake fun h => hm (isDigits_iff.mpr h)
  · obtain ⟨values, rfl, hids⟩ := (Tracker.ok_iff_isValid t (.choose (.mentionables ms))).mp hok
    rw [Tracker.reduceOption_map_some]
    exact Tracker.perform_mention_eq t fun m hm => isDigits_iff.mpr (hids m hm)

/-- A role, a channel, a member and a user are mentioned together. Beside them a channel without a
good identifier is reported, and only the absent thing behind it if there is one. -/
theorem mixed_mention_listed :
    let t : Tracker := { users := [.string "2"] }
    let ms : List (Option Mentionable) := [some ⟨.role, .ofText "8"⟩, some ⟨.silent, .ofText "9"⟩,
      some ⟨.member, .ofText "1"⟩, some ⟨.user, .ofText "2"⟩]
    let bad : Mentionable := ⟨.silent, .ofText "9x"⟩
    (Tracker.mention ms).perform t = ({ t with
      users := [.string "2", .string "1"], roles := [.string "8"] }, .ok ()) ∧
    (Tracker.mention ms).perform t = (do
      Tracker.mentionUsers [some (.string "1"), some (.string "2")]
      Tracker.mentionRoles [some (.string "8")]).perform t ∧
    (Tracker.mention (some bad :: none :: ms)).perform t =
      (t, .error (.refused (.absentElement "Mentionables"))) ∧
    (Tracker.mention [some ⟨.role, .ofText "8"⟩, some bad, some ⟨.user, none⟩]).perform t =
      (t, .error (.refused (.notSnowflake "Mentionable id" "9x"))) ∧
    (Tracker.mentionUsers [some (.string "2")]).perform t = (t, .ok ()) := by
  intro t ms bad
  obtain ⟨hmention, husers, -, -, -⟩ := mention_lists_by_kind
  have hlisted : (Tracker.mention ms).perform t = ({ t with
      users := [.string "2", .string "1"], roles := [.string "8"] }, .ok ()) := rfl
  have hbad : ¬ IsDigits bad.id := fun h => absurd (isDigits_iff.mp h) (by decide)
  refine ⟨hlisted, (hmention t ms).2.2.2 (congrArg Prod.snd hlisted),
    (hmention t _).2.1 (.tail _ (.head _)), ?_, ?_⟩
  · refine (hmention t _).2.2.1 [⟨.role, .ofText "8"⟩] bad [⟨.user, none⟩] rfl ?_ ?_
    · exact List.forall_mem_singleton.mpr (isDigits_iff.mpr rfl)
    · exact hbad
  · refine husers.listed t [.string "2"] ?_ ?_
    · exact List.forall_mem_singleton.mpr (isDigits_iff.mpr rfl)
    · exact List.forall_mem_singleton.mpr rfl

end Courier.Mention
