import Mathlib.Data.Fin.VecNotation
import Mathlib.Data.List.Lattice
import Courier.Proofs.Composer.Field
import Courier.Proofs.Reordering
import Courier.Session

namespace Courier

def Edit.SharesField (a b : Edit) : Prop :=
  ∃ f ∈ a.fields, f ∈ b.fields

instance (a b : Edit) : Decidable (a.SharesField b) :=
  inferInstanceAs (Decidable (∃ f ∈ a.fields, f ∈ b.fields))

namespace Composer.Confined

open Mutator

variable {m n : Mutator Composer Unit} {fields more : List Field}

theorem outcome_after (hm : Confined fields m) (hn : Confined more n)
    (h : fields.Disjoint more) (c : Composer) :
    (n.perform (m.perform c).1).2 = (n.perform c).2 :=
  (hn.reads _ _ fun f hf => hm.keeps f (fun hmem => h hmem hf) c).1

theorem value_after (hm : Confined fields m) (hn : Confined more n)
    (h : fields.Disjoint more) (c : Composer) {f : Field} (hf : f ∉ fields) :
    (n.perform (m.perform c).1).1.value f = (n.perform c).1.value f := by
  by_cases hmore : f ∈ more
  · exact (hn.reads _ _ fun g hg => hm.keeps g (fun hmem => h hmem hg) c).2 f hmore
  · calc (n.perform (m.perform c).1).1.value f
      _ = (m.perform c).1.value f := hn.keeps f hmore _
      _ = c.value f := hm.keeps f hf c
      _ = (n.perform c).1.value f := (hn.keeps f hmore c).symm

theorem commute (hm : Confined fields m) (hn : Confined more n) (h : fields.Disjoint more)
    (c : Composer) : (n.perform (m.perform c).1).1 = (m.perform (n.perform c).1).1 := by
  refine ext_value fun f => ?_
  -- At most one of the two concerns the field, and it does not see what the other has done.
  by_cases hf : f ∈ fields
  · have hmore : f ∉ more := fun hmem => h hf hmem
    calc (n.perform (m.perform c).1).1.value f
      _ = (m.perform c).1.value f := hn.keeps f hmore _
      _ = (m.perform (n.perform c).1).1.value f := (hn.value_after hm h.symm c hmore).symm
  · calc (n.perform (m.perform c).1).1.value f
      _ = (n.perform c).1.value f := hm.value_after hn h c hf
      _ = (m.perform (n.perform c).1).1.value f := (hm.keeps f hf _).symm

end Composer.Confined

namespace Session

theorem step_edit (setup : Setup) (s : Session) (change : Edit) :
    s.step setup (.edit change) =
      ({ s with composer := ((Composer.edit change).perform s.composer).1 },
        ((Composer.edit change).perform s.composer).2) :=
  rfl

theorem independent_edits (setup : Setup) {ι : Type} {calls : ι → Edit} {i j : ι}
    (h : ¬(calls i).SharesField (calls j)) :
    Script.Independent (fun s i => step setup s (.edit (calls i))) i j := by
  have hdisjoint : (calls i).fields.Disjoint (calls j).fields :=
    fun f hi hj => h ⟨f, hi, hj⟩
  have hleft := Composer.edit_confined (calls i)
  have hright := Composer.edit_confined (calls j)
  constructor
  · intro s
    simp only [step_edit, hleft.commute hright hdisjoint]
  · intro s
    exact hright.outcome_after hleft hdisjoint.symm s.composer
  · intro s
    exact hleft.outcome_after hright hdisjoint s.composer

end Session

/-- Changes of a message may be made in another order, as long as any two that concern a common
field keep theirs: the message comes out the same, so does the next body, and each change returns
or throws as it did before. -/
theorem independent_changes_commute (setup : Setup) (s : Session) {ι : Type} (calls : ι → Edit)
    (first second : List ι) (hnodup : first.Nodup) (hperm : first.Perm second)
    (horder : ∀ i j, [i, j].Sublist first → (calls i).SharesField (calls j) →
      [i, j].Sublist second) :
    let script (order : List ι) := order.map fun i => Session.Step.edit (calls i)
    let run₁ := s.run setup (script first)
    let run₂ := s.run setup (script second)
    run₁.1 = run₂.1 ∧ (run₁.1.finalize setup).1 = (run₂.1.finalize setup).1 ∧
      (first.zip run₁.2).Perm (second.zip run₂.2) := by
  intro script run₁ run₂
  have hrun (order : List ι) : s.run setup (script order) =
      Script.run (fun s i => Session.step setup s (.edit (calls i))) order s :=
    Script.run_map _ _ order s
  have hsame : Script.SameEffect (fun s i => Session.step setup s (.edit (calls i)))
      first second s := by
    apply Script.sameEffect_of_perm hnodup hperm
    intro i j hij
    by_cases h : (calls i).SharesField (calls j)
    · exact .inl (horder i j hij h)
    · exact .inr (Session.independent_edits setup h)
  have hstate : run₁.1 = run₂.1 := by
    simp only [run₁, run₂, hrun, hsame.state]
  have hlog : (first.zip run₁.2).Perm (second.zip run₂.2) := by
    simp only [run₁, run₂, hrun]
    exact hsame.log
  exact ⟨hstate, by rw [hstate], hlog⟩

/-- A user and then a mentionable user are listed in this order; the name that is refused and the
content may come before or after. -/
theorem listed_users_keep_order :
    let setup : Setup := { route := .followUp "7" "token", channel := .ofText "1" }
    let calls : Fin 4 → Edit := ![.choose (.users [some (.string "22")]), .setUsername (.ofText ""),
      .choose (.mentionables [some ⟨.user, .ofText "11"⟩]), .setContent (.ofText "text")]
    let s := Session.start {} .unset
    let first : List (Fin 4) := [0, 1, 2, 3]
    let second : List (Fin 4) := [3, 0, 2, 1]
    let script (order : List (Fin 4)) := order.map fun i => Session.Step.edit (calls i)
    let run₁ := s.run setup (script first)
    let run₂ := s.run setup (script second)
    run₁.1.composer.mentions.users = [.string "22", .string "11"] ∧
      run₁.2 = [.ok (), .error (.refused (.empty "Name")), .ok (), .ok ()] ∧
      run₁.1 = run₂.1 ∧ (run₁.1.finalize setup).1 = (run₂.1.finalize setup).1 ∧
      (first.zip run₁.2).Perm (second.zip run₂.2) := by
  intro setup calls s first second script run₁ run₂
  refine ⟨rfl, rfl, ?_⟩
  exact independent_changes_commute setup s calls first second (by decide) (by decide) (by decide)

end Courier
