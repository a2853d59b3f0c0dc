import Courier.Mention.Tracker

namespace Courier.Mention

/-- No two of the values are one and the same. -/
def Apart (ids : List Json) : Prop :=
  ids.Pairwise fun a b => a.isSame b = false

theorem isSame_comm (a b : Json) : a.isSame b = b.isSame a := by
  cases a <;> cases b <;> simp [Json.isSame, eq_comm]

theorem apart_concat_iff {ids : List Json} {id : Json} :
    Apart (ids ++ [id]) ↔ Apart ids ∧ ids.any (Json.isSame id) = false := by
  simp [Apart, List.pairwise_append, isSame_comm id]

theorem addOnce_of_any {ids : List Json} {id : Json} (h : ids.any (Json.isSame id) = true) :
    addOnce ids id = ids := by
  simp only [addOnce, h, if_true]

theorem addOnce_of_not_any {ids : List Json} {id : Json}
    (h : ids.any (Json.isSame id) = false) : addOnce ids id = ids ++ [id] := by
  simp only [addOnce, h, Bool.false_eq_true, if_false]

theorem apart_addOnce {ids : List Json} (h : Apart ids) (id : Json) :
    Apart (addOnce ids id) := by
  cases hany : ids.any (Json.isSame id) with
  | true => rwa [addOnce_of_any hany]
  | false =>
      rw [addOnce_of_not_any hany]
      exact apart_concat_iff.mpr ⟨h, hany⟩

theorem mem_of_mem_addOnce {ids : List Json} {id x : Json} (h : x ∈ addOnce ids id) :
    x ∈ ids ∨ x = id := by
  unfold addOnce at h
  split at h
  · exact .inl h
  · simpa using h

theorem addAll_append (ids first second : List Json) :
    addAll ids (first ++ second) = addAll (addAll ids first) second :=
  List.foldl_append

theorem apart_addAll {ids : List Json} (h : Apart ids) (more : List Json) :
    Apart (addAll ids more) := by
  induction more generalizing ids with
  | nil => exact h
  | cons id rest ih => exact ih (apart_addOnce h id)

theorem mem_of_mem_addAll {ids more : List Json} {x : Json} (h : x ∈ addAll ids more) :
    x ∈ ids ∨ x ∈ more := by
  induction more generalizing ids with
  | nil => exact .inl h
  | cons id rest ih =>
      rcases ih h with hx | hx
      · rcases mem_of_mem_addOnce hx with hx | rfl
        · exact .inl hx
        · exact .inr List.mem_cons_self
      · exact .inr (List.mem_cons_of_mem _ hx)

theorem addAll_of_apart {ids more : List Json} (h : Apart (ids ++ more)) :
    addAll ids more = ids ++ more := by
  induction more generalizing ids with
  | nil => exact (List.append_nil ids).symm
  | cons id rest ih =>
      rw [List.append_cons] at h ⊢
      have hid := (apart_concat_iff.mp (List.pairwise_append.mp h).1).2
      rw [addAll, List.foldl_cons, addOnce_of_not_any hid]
      exact ih h

theorem loop_eq_addAll (ids : List Json) (listed : List Json) :
    List.eraseDupsBy.loop Json.isSame ids listed.reverse = addAll listed ids := by
  -- The loop holds what it has listed in the reverse order.
  induction ids generalizing listed with
  | nil => exact List.reverse_reverse listed
  | cons id rest ih =>
      rw [List.eraseDupsBy.loop, List.any_reverse, addAll, List.foldl_cons]
      cases hany : listed.any (Json.isSame id) with
      | true => rw [addOnce_of_any hany, ← addAll, ← ih]
      | false =>
          rw [addOnce_of_not_any hany, ← addAll, ← ih, List.reverse_append]
          rfl

/-- Adding identifiers to an empty list leaves the first occurrence of each. -/
theorem addAll_nil (ids : List Json) : addAll [] ids = ids.eraseDupsBy Json.isSame :=
  (loop_eq_addAll ids []).symm

theorem addAll_eraseDupsBy (first second : List Json) :
    addAll (first.eraseDupsBy Json.isSame) second =
      (first ++ second).eraseDupsBy Json.isSame := by
  rw [← addAll_nil, ← addAll_nil, addAll_append]

end Courier.Mention
