import Courier.Mutator

/-!
What can be said of a mutator without looking at its state: that it never throws, that an error of
it leaves the state as it was, and that it keeps a part of the state. Checks that come before all
writes make a mutator that changes everything or nothing.
-/

namespace Courier.Mutator

variable {σ τ α β γ : Type}

@[simp]
theorem perform_pure (a : α) (s : σ) : (pure a : Mutator σ α).perform s = (s, .ok a) :=
  rfl

@[simp]
theorem perform_get (s : σ) : (get : Mutator σ σ).perform s = (s, .ok s) :=
  rfl

@[simp]
theorem perform_modify (f : σ → σ) (s : σ) :
    (modify f : Mutator σ PUnit).perform s = (f s, .ok ()) :=
  rfl

@[simp]
theorem perform_check (e : Except Fault α) (s : σ) :
    (liftM e : Mutator σ α).perform s = (s, e) :=
  rfl

@[simp]
theorem perform_onPart (part : τ → σ) (put : τ → σ → τ) (m : Mutator σ α) (t : τ) :
    (m.onPart part put).perform t = (put t (m.perform (part t)).1, (m.perform (part t)).2) :=
  rfl

theorem perform_bind (m : Mutator σ α) (f : α → Mutator σ β) (s : σ) :
    (m >>= f).perform s =
      match m.perform s with
      | (s, .ok a) => (f a).perform s
      | (s, .error fault) => (s, .error fault) := by
  simp only [perform, ExceptT.run_bind, StateT.run_bind]
  cases h : m.run.run s with
  | mk outcome s' => cases outcome <;> rfl

theorem perform_bind_of_ok {m : Mutator σ α} {f : α → Mutator σ β} {s s' : σ} {a : α}
    (h : m.perform s = (s', .ok a)) : (m >>= f).perform s = (f a).perform s' := by
  rw [perform_bind, h]

theorem perform_bind_of_error {m : Mutator σ α} {f : α → Mutator σ β} {s s' : σ}
    {fault : Fault} (h : m.perform s = (s', .error fault)) :
    (m >>= f).perform s = (s', .error fault) := by
  rw [perform_bind, h]

theorem perform_check_bind (e : Except Fault α) (f : α → Mutator σ β) (s : σ) :
    (liftM e >>= f).perform s =
      match e with
      | .ok a => (f a).perform s
      | .error fault => (s, .error fault) := by
  rw [perform_bind, perform_check]
  cases e <;> rfl

theorem ok_of_check_bind {e : Except Fault α} {f : α → Mutator σ β} {s : σ} {b : β}
    (h : ((liftM e >>= f).perform s).2 = .ok b) :
    ∃ a, e = .ok a ∧ ((f a).perform s).2 = .ok b := by
  rw [perform_check_bind] at h
  cases e with
  | ok a => exact ⟨a, rfl, h⟩
  | error fault => cases h

@[simp]
theorem perform_forM_modify (f : σ → β → σ) (items : List β) (s : σ) :
    (forM items fun b => (modify (f · b) : Mutator σ PUnit)).perform s =
      (items.foldl f s, .ok ()) := by
  induction items generalizing s with
  | nil => rfl
  | cons b rest ih =>
      rw [List.forM_cons, perform_bind_of_ok (perform_modify (f · b) s), ih]
      rfl

/-- The mutator does not throw, whatever the state is. -/
def NeverThrows (m : Mutator σ α) : Prop :=
  ∀ s, ∃ a, (m.perform s).2 = .ok a

/-- If the mutator throws, the state is what it was before. -/
def AllOrNothing (m : Mutator σ α) : Prop :=
  ∀ s fault, (m.perform s).2 = .error fault → (m.perform s).1 = s

/-- All checks of the mutator come before its writes and look at its arguments alone: what comes of
it is the same in every state. -/
structure ChecksFirst (m : Mutator σ α) : Prop where
  outcome : ∃ outcome, ∀ s, (m.perform s).2 = outcome
  allOrNothing : m.AllOrNothing

/-- The mutator leaves a part of the state alone, whether it throws or not. -/
def Keeps (part : σ → γ) (m : Mutator σ α) : Prop :=
  ∀ s, part (m.perform s).1 = part s

theorem neverThrows_pure (a : α) : NeverThrows (pure a : Mutator σ α) :=
  fun _ => ⟨a, rfl⟩

theorem neverThrows_modify (f : σ → σ) : NeverThrows (modify f : Mutator σ PUnit) :=
  fun _ => ⟨(), rfl⟩

theorem NeverThrows.bind {m : Mutator σ α} {f : α → Mutator σ β} (hm : m.NeverThrows)
    (hf : ∀ a, (f a).NeverThrows) : (m >>= f).NeverThrows := by
  intro s
  obtain ⟨a, ha⟩ := hm s
  rw [perform_bind_of_ok (Prod.ext rfl ha)]
  exact hf a _

theorem NeverThrows.forM {f : β → Mutator σ PUnit} (hf : ∀ b, (f b).NeverThrows)
    (items : List β) : NeverThrows (forM items f) := by
  induction items with
  | nil => exact neverThrows_pure _
  | cons b rest ih => exact (hf b).bind fun _ => ih

theorem NeverThrows.allOrNothing {m : Mutator σ α} (h : m.NeverThrows) : m.AllOrNothing := by
  intro s fault hfault
  obtain ⟨a, ha⟩ := h s
  rw [ha] at hfault
  cases hfault

theorem allOrNothing_check (e : Except Fault α) : AllOrNothing (liftM e : Mutator σ α) :=
  fun _ _ _ => rfl

theorem AllOrNothing.check_bind (e : Except Fault α) {f : α → Mutator σ β}
    (hf : ∀ a, (f a).AllOrNothing) : AllOrNothing (liftM e >>= f) := by
  intro s fault
  cases e with
  | error cause =>
      intro _
      rw [perform_bind_of_error (perform_check _ s)]
  | ok a =>
      rw [perform_bind_of_ok (perform_check _ s)]
      exact hf a s fault

theorem NeverThrows.checksFirst {m : Mutator σ Unit} (h : m.NeverThrows) : m.ChecksFirst where
  outcome := by
    refine ⟨.ok (), fun s => ?_⟩
    obtain ⟨_, hs⟩ := h s
    exact hs
  allOrNothing := h.allOrNothing

theorem checksFirst_check (e : Except Fault α) : ChecksFirst (liftM e : Mutator σ α) where
  outcome := ⟨e, fun _ => rfl⟩
  allOrNothing := allOrNothing_check e

theorem ChecksFirst.check_bind (e : Except Fault α) {f : α → Mutator σ β}
    (hf : ∀ a, (f a).ChecksFirst) : ChecksFirst (liftM e >>= f) where
  outcome := by
    cases e with
    | error fault => exact ⟨.error fault, fun s => by rw [perform_check_bind]⟩
    | ok a =>
        obtain ⟨outcome, houtcome⟩ := (hf a).outcome
        exact ⟨outcome, fun s => by rw [perform_check_bind, houtcome]⟩
  allOrNothing := .check_bind e fun a => (hf a).allOrNothing

theorem AllOrNothing.get_bind {f : σ → Mutator σ β} (hf : ∀ s, (f s).AllOrNothing) :
    AllOrNothing (get >>= f) := by
  intro s fault
  rw [perform_bind_of_ok (perform_get s)]
  exact hf s s fault

theorem AllOrNothing.bind_neverThrows {m : Mutator σ α} {f : α → Mutator σ β}
    (hm : m.AllOrNothing) (hf : ∀ a, (f a).NeverThrows) : (m >>= f).AllOrNothing := by
  intro s fault
  cases h : m.perform s with
  | mk s' outcome =>
      cases outcome with
      | error cause =>
          intro _
          rw [perform_bind_of_error h]
          simpa [h] using hm s cause (by rw [h])
      | ok a =>
          rw [perform_bind_of_ok h]
          intro hfault
          obtain ⟨b, hb⟩ := hf a s'
          rw [hb] at hfault
          cases hfault

theorem AllOrNothing.onPart {part : τ → σ} {put : τ → σ → τ} {m : Mutator σ α}
    (hm : m.AllOrNothing) (hput : ∀ t, put t (part t) = t) :
    (m.onPart part put).AllOrNothing := by
  intro t fault hfault
  rw [perform_onPart] at hfault ⊢
  rw [hm (part t) fault hfault]
  exact hput t

theorem keeps_check (part : σ → γ) (e : Except Fault α) :
    Keeps part (liftM e : Mutator σ α) :=
  fun _ => rfl

theorem keeps_get (part : σ → γ) : Keeps part (get : Mutator σ σ) :=
  fun _ => rfl

theorem keeps_modify {part : σ → γ} {f : σ → σ} (h : ∀ s, part (f s) = part s) :
    Keeps part (modify f : Mutator σ PUnit) :=
  h

theorem Keeps.bind {part : σ → γ} {m : Mutator σ α} {f : α → Mutator σ β}
    (hm : m.Keeps part) (hf : ∀ a, (f a).Keeps part) : (m >>= f).Keeps part := by
  intro s
  cases h : m.perform s with
  | mk s' outcome =>
      have hs' : part s' = part s := by simpa [h] using hm s
      cases outcome with
      | error fault => rw [perform_bind_of_error h, hs']
      | ok a => rw [perform_bind_of_ok h, hf a s', hs']

theorem Keeps.onPart {part : τ → σ} {put : τ → σ → τ} {kept : τ → γ} (m : Mutator σ α)
    (h : ∀ t s, kept (put t s) = kept t) : (m.onPart part put).Keeps kept :=
  fun t => h t _

end Courier.Mutator

namespace Courier.Script

variable {σ ι : Type}

/-- The steps of a script that were not refused, with their outcomes. A step is refused if it is one
of those that count and threw an error. -/
def survivors (counts : ι → Bool) (script : List ι) (outcomes : List (Except Fault Unit)) :
    List (ι × Except Fault Unit) :=
  (script.zip outcomes).filter fun entry => !counts entry.1 || entry.2.isOk

theorem run_cons (step : σ → ι → σ × Except Fault Unit) (next : ι) (rest : List ι) (s : σ) :
    run step (next :: rest) s =
      ((run step rest (step s next).1).1,
        (step s next).2 :: (run step rest (step s next).1).2) :=
  rfl

theorem run_survivors {step : σ → ι → σ × Except Fault Unit} {counts : ι → Bool}
    (script : List ι) (s : σ)
    (h : ∀ next ∈ script, counts next → ∀ s fault, (step s next).2 = .error fault →
      (step s next).1 = s) :
    run step ((survivors counts script (run step script s).2).map Prod.fst) s =
      ((run step script s).1, (survivors counts script (run step script s).2).map Prod.snd) := by
  induction script generalizing s with
  | nil => rfl
  | cons next rest ih =>
      have hrest := ih (step s next).1 fun i hi => h i (List.mem_cons_of_mem next hi)
      simp only [run_cons, survivors, List.zip_cons_cons, List.filter_cons] at hrest ⊢
      by_cases hkept : (!counts next || (step s next).2.isOk) = true
      · rw [if_pos hkept, List.map_cons, run_cons, hrest]
        rfl
      · -- A refused step is as if it had not been there.
        rw [if_neg hkept]
        have hcounts : counts next = true := by
          cases hc : counts next <;> simp [hc] at hkept ⊢
        have hsame : (step s next).1 = s := by
          cases hout : (step s next).2 with
          | ok _ => simp [hout, Except.isOk, Except.toBool] at hkept
          | error fault => exact h next List.mem_cons_self hcounts s fault hout
        rw [hsame] at hrest ⊢
        exact hrest

end Courier.Script
