import Courier.Proofs.Mention.NormalForm

namespace Courier.Mention

/-- There is a value, and its text is a non-empty run of ASCII digits. -/
def IsDigits (id : Option Json) : Prop :=
  ∃ value text, id = some value ∧ Given.text (some value) = .ok text ∧ text ≠ "" ∧
    ∀ c ∈ text.toList, c.isDigit = true

theorem isDigits_some_iff {value : Json} :
    IsDigits (some value) ↔ Given.isSnowflake (some value) = .ok true := by
  unfold IsDigits Given.isSnowflake
  cases htext : Given.text (some value) with
  | error cause => simp [Except.map, htext]
  | ok text => simp [Except.map, isSnowflake, htext]

theorem isDigits_text_iff {text : String} :
    IsDigits (some (.string text)) ↔ text ≠ "" ∧ ∀ c ∈ text.toList, c.isDigit = true := by
  have htext : Given.text (some (.string text)) = .ok text := rfl
  simp [IsDigits, htext]

namespace Directive

/-- The parts of the directive are lists, as far as they are there. -/
structure HasLists (d : Directive) : Prop where
  parse : ∀ value, d.parse ≠ .notAList value
  users : ∀ value, d.users ≠ .notAList value
  roles : ∀ value, d.roles ≠ .notAList value

def ids (d : Directive) : List (Option Json) :=
  d.users.toList ++ d.roles.toList

/-- The policy that a directive comes to. The categories stand in the order of all of them, without
those that identifiers take the place of; each identifier is listed once; and the author is notified
only if the directive says so. -/
def policy (d : Directive) : Policy where
  parse := Category.all.filter fun c => d.parse.toList.any (Json.isSame (.string c.name)) &&
    !(c = .users && !d.users.toList.isEmpty) && !(c = .roles && !d.roles.toList.isEmpty)
  users := Tracker.listed (d.users.toList.reduceOption.eraseDupsBy Json.isSame)
  roles := Tracker.listed (d.roles.toList.reduceOption.eraseDupsBy Json.isSame)
  repliedUser := some (d.repliedUser.present?.getD (.bool false))

theorem isEmpty_eraseDupsBy {α : Type} (r : α → α → Bool) (items : List α) :
    (items.eraseDupsBy r).isEmpty = items.isEmpty := by
  cases items with
  | nil => rfl
  | cons item rest => rw [List.eraseDupsBy_cons]; rfl

end Directive

namespace Policy

variable {p : Policy} {ids : Option (List Json)}

theorem snowflakes_getD (h : ∀ listed, ids = some listed → IsListing listed) :
    ∀ id ∈ ids.getD [], Given.isSnowflake (some id) = .ok true := by
  cases ids with
  | none => exact nofun
  | some listed => exact (h listed rfl).snowflakes

theorem filter_mem_of_sublist {α : Type} [DecidableEq α] {xs ys : List α} (h : xs.Sublist ys)
    (hnodup : ys.Nodup) : ys.filter (· ∈ xs) = xs := by
  induction h with
  | slnil => rfl
  | cons y hsub ih =>
      obtain ⟨hy, hnodup⟩ := List.nodup_cons.mp hnodup
      rw [List.filter_cons_of_neg, ih hnodup]
      simpa using fun hmem => hy (hsub.subset hmem)
  | @cons_cons xs ys y hsub ih =>
      obtain ⟨hy, hnodup⟩ := List.nodup_cons.mp hnodup
      rw [List.filter_cons_of_pos (by simp)]
      refine congrArg (y :: ·) (Eq.trans (List.filter_congr fun z hz => ?_) (ih hnodup))
      have hne : z ≠ y := fun heq => hy (heq ▸ hz)
      simp [hne]

theorem IsNormal.ofJson_toJson (h : p.IsNormal) : Directive.ofJson p.toJson = p.toDirective :=
  Mention.ofJson_toJson (snowflakes_getD fun ids hids => (h.users ids hids).1)
    (snowflakes_getD fun ids hids => (h.roles ids hids).1)

end Policy

end Courier.Mention
