import Mathlib.Data.List.ReduceOption
import Courier.Mutator

namespace Courier

namespace Number

theorem ofNat_inj {m n : Nat} (h : ofNat m = ofNat n) : m = n := by
  have hnum : ((m : Int) : Rat).num = ((n : Int) : Rat).num :=
    congrArg Rat.num (finite.inj h)
  exact Int.ofNat_inj.mp hnum

theorem isLess_ofNat (m n : Nat) : (ofNat m).isLess (ofNat n) = decide (m < n) := by
  have hcast : ((m : Int) : Rat) < ((n : Int) : Rat) ↔ m < n := by
    rw [Rat.intCast_lt_intCast, Int.ofNat_lt]
  exact decide_eq_decide.mpr hcast

end Number

/-- The values are identifiers: none is missing, and each is a snowflake. -/
def Listing.Identifies (values : Listing (Option Json)) (ids : List Json) : Prop :=
  values = .elements (ids.map some) ∧ ∀ id ∈ ids, Given.isSnowflake (some id) = .ok true

namespace Requirement

variable {α : Type}

theorem elements_map_some (name : String) (items : List α) :
    elements name (items.map some) = .ok items := by
  induction items with
  | nil => rfl
  | cons item rest ih => rw [List.map_cons, elements, ih]

theorem eq_map_some_of_elements {name : String} {values : List (Option α)} {items : List α}
    (h : elements name values = .ok items) : values = items.map some := by
  induction values generalizing items with
  | nil =>
      cases h
      rfl
  | cons value rest ih =>
      cases value with
      | none => cases h
      | some value =>
          rw [elements] at h
          split at h
          · rename_i values hrest
            cases h
            rw [List.map_cons, ih hrest]
          · cases h

theorem elements_eq (name : String) (values : List (Option α)) :
    elements name values =
      if values.all Option.isSome then .ok values.reduceOption
      else refuse (.absentElement name) := by
  induction values with
  | nil => rfl
  | cons value rest ih =>
      cases value with
      | none => rfl
      | some value =>
          rw [elements, ih]
          cases h : rest.all Option.isSome <;>
            simp [h, refuse, List.reduceOption_cons_of_some]

theorem all_isSome_iff {values : List (Option α)} :
    values.all Option.isSome = true ↔ ∃ items : List α, values = items.map some := by
  constructor
  · intro h
    have helements : elements "" values = .ok values.reduceOption := by
      rw [elements_eq, if_pos h]
    exact ⟨_, eq_map_some_of_elements helements⟩
  · rintro ⟨items, rfl⟩
    simp

theorem allPresent_eq_ok_iff (name : String) {values : Listing (Option α)}
    {items : List α} :
    allPresent name values = .ok items ↔ values = .elements (items.map some) := by
  constructor
  · intro h
    cases values with
    | absent how => cases h
    | notAList value => cases h
    | elements values => rw [eq_map_some_of_elements h]
  · rintro rfl
    exact elements_map_some name items

theorem notEmpty_eq_ok_iff (name s : String) :
    notEmpty name (.ofText s) = .ok () ↔ 1 ≤ Text.units16 s := by
  have hlength : Given.length (.ofText s) = .ok (some (.number (.ofNat (Text.units16 s)))) :=
    rfl
  have hzero : (0 : Number) = .ofNat (Text.units16 s) ↔ Text.units16 s = 0 := by
    constructor
    · intro h
      exact (Number.ofNat_inj h).symm
    · rintro h
      rw [h]
      rfl
  simp only [notEmpty, hlength, Option.any_some, Json.isSame, hzero, decide_eq_true_eq]
  split <;> simp_all [refuse, Nat.one_le_iff_ne_zero]

theorem notLonger_eq_ok_iff (name s : String) (limit : Nat) :
    notLonger name (some (.number (.ofNat limit))) (.ofText s) = .ok () ↔
      Text.units16 s ≤ limit := by
  have hlength : Given.length (.ofText s) = .ok (some (.number (.ofNat (Text.units16 s)))) :=
    rfl
  have hless : Given.isLess (some (.number (.ofNat limit)))
      (some (.number (.ofNat (Text.units16 s)))) = .ok (decide (limit < Text.units16 s)) :=
    congrArg Except.ok (Number.isLess_ofNat limit (Text.units16 s))
  simp only [notLonger, hlength, hless]
  by_cases h : limit < Text.units16 s
  · simp [h, refuse]
  · simp only [h, decide_false, true_iff]
    exact Nat.le_of_not_lt h

theorem snowflake_eq_ok_iff (name : String) {value : Given} :
    snowflake name value = .ok () ↔ value.isSnowflake = .ok true := by
  unfold snowflake Given.isSnowflake
  cases Given.text value with
  | error cause => simp [Except.map]
  | ok text => by_cases h : isSnowflake text = true <;> simp [Except.map, h, refuse]

theorem snowflake_of_not_isSnowflake {name : String} {value : Given}
    (h : value.isSnowflake ≠ .ok true) :
    snowflake name value = .error (match value.text with
      | .ok text => .refused (.notSnowflake name text)
      | .error cause => .mismatch cause) := by
  unfold snowflake
  unfold Given.isSnowflake at h
  cases htext : value.text with
  | error cause => rfl
  | ok text =>
      rw [htext] at h
      have htext : ¬ isSnowflake text = true := fun heq => h (congrArg Except.ok heq)
      simp only [htext]
      rfl

theorem snowflakes_eq_ok_iff (name : String) {values : List Given} :
    snowflakes name values = .ok () ↔ ∀ value ∈ values, Given.isSnowflake value = .ok true := by
  induction values with
  | nil => simp [snowflakes]
  | cons value rest ih =>
      rw [List.forall_mem_cons, ← ih, ← snowflake_eq_ok_iff name, snowflakes]
      cases snowflake name value <;> simp

theorem snowflakes_of_first {name : String} {before after : List Given} {value : Given}
    {fault : Fault} (hbefore : ∀ earlier ∈ before, Given.isSnowflake earlier = .ok true)
    (hvalue : snowflake name value = .error fault) :
    snowflakes name (before ++ value :: after) = .error fault := by
  induction before with
  | nil => rw [List.nil_append, snowflakes, hvalue]
  | cons earlier rest ih =>
      obtain ⟨hearlier, hrest⟩ := List.forall_mem_cons.mp hbefore
      rw [List.cons_append, snowflakes, (snowflake_eq_ok_iff name).mpr hearlier]
      exact ih hrest

theorem identifiers_eq_ok_iff (name : String) {values : Listing (Option Json)}
    {ids : List Json} :
    identifiers name values = .ok ids ↔ values.Identifies ids := by
  have hsnowflakes : snowflakes name (ids.map some) = .ok () ↔
      ∀ id ∈ ids, Given.isSnowflake (some id) = .ok true := by
    rw [snowflakes_eq_ok_iff, List.forall_mem_map]
  rw [Listing.Identifies, ← hsnowflakes]
  constructor
  · intro h
    unfold identifiers at h
    split at h
    · cases h
    · rename_i hpresent
      split at h
      · rename_i hsnow
        cases h
        exact ⟨(allPresent_eq_ok_iff name).mp hpresent, hsnow⟩
      · cases h
  · rintro ⟨rfl, hsnow⟩
    have hpresent : allPresent name (.elements (ids.map some)) = .ok ids :=
      (allPresent_eq_ok_iff name).mpr rfl
    simp only [identifiers, hpresent, hsnow]

end Requirement

end Courier
