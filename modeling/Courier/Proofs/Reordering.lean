import Courier.Proofs.Mutator

/-!
Scripts in another order. Two steps are independent if either may come first. A script whose steps
are put in another order does the same, as long as all steps but independent ones keep their order.
-/

namespace Courier.Script

variable {σ ι : Type} {step : σ → ι → σ × Except Fault Unit}

/-- Whichever of the two steps comes first, they lead to the same state, each with the outcome that
it has alone. -/
structure Independent (step : σ → ι → σ × Except Fault Unit) (i j : ι) : Prop where
  state : ∀ s, (step (step s i).1 j).1 = (step (step s j).1 i).1
  left : ∀ s, (step (step s j).1 i).2 = (step s i).2
  right : ∀ s, (step (step s i).1 j).2 = (step s j).2

def log (step : σ → ι → σ × Except Fault Unit) (script : List ι) (s : σ) :
    List (ι × Except Fault Unit) :=
  script.zip (run step script s).2

theorem run_map {κ : Type} (step : σ → κ → σ × Except Fault Unit) (g : ι → κ) (script : List ι)
    (s : σ) : run step (script.map g) s = run (fun s i => step s (g i)) script s := by
  induction script generalizing s with
  | nil => rfl
  | cons i rest ih => rw [List.map_cons, run_cons, run_cons, ih]

theorem log_cons (i : ι) (rest : List ι) (s : σ) :
    log step (i :: rest) s = (i, (step s i).2) :: log step rest (step s i).1 :=
  rfl

/-- Two scripts of the same steps lead to the same state, and each step has the same outcome in
both. -/
structure SameEffect (step : σ → ι → σ × Except Fault Unit) (first second : List ι) (s : σ) :
    Prop where
  state : (run step first s).1 = (run step second s).1
  log : (log step first s).Perm (log step second s)

namespace SameEffect

variable {first second third : List ι} {s : σ}

theorem refl (script : List ι) (s : σ) : SameEffect step script script s :=
  ⟨rfl, .refl _⟩

theorem symm (h : SameEffect step first second s) : SameEffect step second first s :=
  ⟨h.state.symm, h.log.symm⟩

theorem trans (h : SameEffect step first second s) (h' : SameEffect step second third s) :
    SameEffect step first third s :=
  ⟨h.state.trans h'.state, h.log.trans h'.log⟩

theorem cons {i : ι} (h : SameEffect step first second (step s i).1) :
    SameEffect step (i :: first) (i :: second) s :=
  ⟨h.state, h.log.cons _⟩

theorem swap {i j : ι} (h : Independent step i j) (rest : List ι) (s : σ) :
    SameEffect step (j :: i :: rest) (i :: j :: rest) s := by
  constructor
  · rw [run_cons, run_cons, run_cons, run_cons, h.state]
  · rw [log_cons, log_cons, log_cons, log_cons, h.state, h.left, h.right]
    exact .swap _ _ _

theorem middle {i : ι} {before : List ι} (h : ∀ j ∈ before, Independent step i j)
    (rest : List ι) (s : σ) :
    SameEffect step (before ++ i :: rest) (i :: (before ++ rest)) s := by
  induction before generalizing s with
  | nil => exact refl _ s
  | cons j before ih =>
      have hrest := ih (fun k hk => h k (List.mem_cons_of_mem j hk)) (step s j).1
      exact hrest.cons.trans (swap (h j List.mem_cons_self) _ s)

end SameEffect

theorem not_mem_of_pair_sublist {i j : ι} {before rest : List ι}
    (hnodup : (before ++ i :: rest).Nodup) (h : [i, j].Sublist (before ++ i :: rest)) :
    j ∉ before := by
  induction before with
  | nil => exact List.not_mem_nil
  | cons k before ih =>
      obtain ⟨hk, hnodup⟩ := List.nodup_cons.mp hnodup
      cases h with
      | cons _ h =>
          have hj := h.subset (List.mem_cons_of_mem i List.mem_cons_self)
          rintro (_ | ⟨_, hmem⟩)
          · exact hk hj
          · exact ih hnodup h hmem
      | cons_cons _ h => exact absurd (List.mem_append_right before List.mem_cons_self) hk

theorem pair_sublist_of_ne {i j k : ι} {before rest : List ι} (hi : i ≠ k) (hj : j ≠ k)
    (h : [i, j].Sublist (before ++ k :: rest)) : [i, j].Sublist (before ++ rest) := by
  induction before with
  | nil =>
      cases h with
      | cons _ h => exact h
      | cons_cons _ h => exact absurd rfl hi
  | cons b before ih =>
      cases h with
      | cons _ h => exact (ih h).cons b
      | cons_cons _ h =>
          have hmem : j ∈ before ++ rest := by
            simpa [hj] using List.singleton_sublist.mp h
          exact (List.singleton_sublist.mpr hmem).cons_cons i

/-- Putting a script in another order that keeps all steps in place but independent ones. -/
theorem sameEffect_of_perm {first second : List ι} (hnodup : first.Nodup)
    (hperm : first.Perm second)
    (horder : ∀ i j, [i, j].Sublist first → [i, j].Sublist second ∨ Independent step i j)
    (s : σ) : SameEffect step first second s := by
  induction first generalizing second s with
  | nil =>
      rw [hperm.nil_eq]
      exact .refl _ s
  | cons i rest ih =>
      obtain ⟨hi, hrest⟩ := List.nodup_cons.mp hnodup
      -- In the second script the first step only stands behind steps that it is independent of, so
      -- it may come first there too.
      obtain ⟨before, later, rfl⟩ := List.append_of_mem (hperm.subset List.mem_cons_self)
      have hperm' : rest.Perm (before ++ later) :=
        (hperm.trans List.perm_middle).cons_inv
      have hbefore : ∀ j ∈ before, Independent step i j := by
        intro j hj
        have hmem : j ∈ rest := hperm'.symm.subset (List.mem_append_left later hj)
        have hpair : [i, j].Sublist (i :: rest) :=
          (List.singleton_sublist.mpr hmem).cons_cons i
        rcases horder i j hpair with hkept | hfree
        · exact absurd hj (not_mem_of_pair_sublist (hperm.nodup hnodup) hkept)
        · exact hfree
      have hsame : SameEffect step rest (before ++ later) (step s i).1 := by
        apply ih hrest hperm'
        intro j k hpair
        have hj : j ≠ i := by
          rintro rfl
          exact hi (hpair.subset List.mem_cons_self)
        have hk : k ≠ i := by
          rintro rfl
          exact hi (hpair.subset (List.mem_cons_of_mem _ List.mem_cons_self))
        exact (horder j k (hpair.cons i)).imp_left (pair_sublist_of_ne hj hk)
      exact hsame.cons.trans (SameEffect.middle hbefore later s).symm

end Courier.Script
