import Courier.Mention.Tracker

namespace Courier.Mention

theorem Category.ofName?_eq_some_iff {s : String} {c : Category} :
    ofName? s = some c ↔ s = c.name := by
  constructor
  · intro h
    have hname := List.find?_some h
    exact (beq_iff_eq.mp hname).symm
  · rintro rfl
    cases c <;> rfl

theorem Category.name_inj {c c' : Category} : c.name = c'.name ↔ c = c' := by
  cases c <;> cases c' <;> decide

namespace CategorySet

theorem contains_insert (s : CategorySet) (c c' : Category) :
    (s.insert c').contains c = (s.contains c || decide (c' = c)) := by
  cases c <;> cases c' <;> simp [insert, contains]

theorem contains_foldl_insert (cs : List Category) (s : CategorySet) (c : Category) :
    (cs.foldl insert s).contains c = (s.contains c || cs.any fun c' => decide (c' = c)) := by
  induction cs generalizing s with
  | nil => exact (Bool.or_false _).symm
  | cons first rest ih => rw [List.foldl_cons, ih, contains_insert, List.any_cons, Bool.or_assoc]

theorem contains_ofList (cs : List Category) (c : Category) :
    (ofList cs).contains c = true ↔ c ∈ cs := by
  have hempty : contains {} c = false := by cases c <;> rfl
  rw [ofList, contains_foldl_insert, hempty, Bool.false_or, List.any_eq_true]
  simp

/-- The set has the categories whose names are among the values. -/
theorem contains_ofJson (values : List Json) (c : Category) :
    (ofJson values).contains c = values.any (Json.isSame (.string c.name)) := by
  rw [Bool.eq_iff_iff, ofJson, ofNames, contains_ofList, List.any_eq_true]
  simp only [List.mem_filterMap, Category.ofName?_eq_some_iff]
  constructor
  · rintro ⟨_, ⟨value, hvalue, htext⟩, rfl⟩
    refine ⟨value, hvalue, ?_⟩
    cases value with
    | string s =>
        cases htext
        simp [Json.isSame]
    | _ => cases htext
  · rintro ⟨value, hvalue, hsame⟩
    rw [← Json.eq_of_isSame hsame] at hvalue
    exact ⟨c.name, ⟨_, hvalue, rfl⟩, rfl⟩

end CategorySet

namespace Tracker

theorem contains_parsed (t : Tracker) (c : Category) :
    t.parsed.contains c = ((t.categories.getD t.defaults.parse).contains c &&
      !(c = .users && !t.users.isEmpty) && !(c = .roles && !t.roles.isEmpty)) := by
  unfold parsed
  cases t.users.isEmpty <;> cases t.roles.isEmpty <;> cases c <;>
    simp [CategorySet.erase, CategorySet.contains]

theorem parse_policy (t : Tracker) :
    t.policy.parse = Category.all.filter fun c => (t.categories.getD t.defaults.parse).contains c &&
      !(c = .users && !t.users.isEmpty) && !(c = .roles && !t.roles.isEmpty) := by
  simp only [← contains_parsed]
  rfl

theorem idMember_listed (key : String) (ids : List Json) :
    Policy.idMember key (listed ids) = if ids.isEmpty then [] else [(key, .array ids)] := by
  cases ids <;> rfl

end Tracker

theorem ofJson_toList (s : CategorySet) :
    CategorySet.ofJson (s.toList.map (.string ·.name)) = s := by
  obtain ⟨users, roles, everyone⟩ := s
  cases users <;> cases roles <;> cases everyone <;> rfl

theorem nonNull_of_isSnowflake {id : Json} (h : Given.isSnowflake (some id) = .ok true) :
    id.nonNull = some id := by
  cases id with
  | null =>
      have hnull : Given.isSnowflake (some .null) = .ok false := rfl
      rw [hnull] at h
      cases h
  | _ => rfl

theorem toJson_eq (p : Policy) :
    p.toJson = .object ([("parse", .array (p.parse.map (.string ·.name)))] ++
      Policy.idMember "users" p.users ++ Policy.idMember "roles" p.roles ++
      (p.repliedUser.map ("replied_user", ·)).toList) := by
  obtain ⟨parse, users, roles, repliedUser⟩ := p
  cases repliedUser <;> rfl

theorem get?_toJson_parse (p : Policy) :
    p.toJson.get? "parse" = some (.array (p.parse.map (.string ·.name))) :=
  rfl

theorem get?_toJson_users (p : Policy) : p.toJson.get? "users" = p.users.map .array := by
  obtain ⟨parse, users, roles, repliedUser⟩ := p
  cases users <;> cases roles <;> cases repliedUser <;> rfl

theorem get?_toJson_roles (p : Policy) : p.toJson.get? "roles" = p.roles.map .array := by
  obtain ⟨parse, users, roles, repliedUser⟩ := p
  cases users <;> cases roles <;> cases repliedUser <;> rfl

theorem get?_toJson_repliedUser (p : Policy) :
    p.toJson.get? "replied_user" = p.repliedUser := by
  obtain ⟨parse, users, roles, repliedUser⟩ := p
  cases users <;> cases roles <;> cases repliedUser <;> rfl

theorem read_listing {ids : Option (List Json)}
    (h : ∀ id ∈ ids.getD [], Given.isSnowflake (some id) = .ok true) :
    Listing.read Json.nonNull (ids.map .array) = Policy.listing ids := by
  cases ids with
  | none => rfl
  | some ids =>
      show Listing.elements (ids.map Json.nonNull) = .elements (ids.map some)
      exact congrArg _ (List.map_congr_left fun id hid => nonNull_of_isSnowflake (h id hid))

/-- What is written of a policy whose lists hold snowflakes is read back as it was. -/
theorem ofJson_toJson {p : Policy}
    (husers : ∀ id ∈ p.users.getD [], Given.isSnowflake (some id) = .ok true)
    (hroles : ∀ id ∈ p.roles.getD [], Given.isSnowflake (some id) = .ok true) :
    Directive.ofJson p.toJson = p.toDirective := by
  rw [Directive.ofJson, get?_toJson_parse, get?_toJson_users, get?_toJson_roles,
    get?_toJson_repliedUser, read_listing husers, read_listing hroles]
  simp only [Listing.read, List.map_id, Policy.toDirective]

end Courier.Mention
