import Courier.Composer
import Courier.Proofs.Mutator
import Courier.Proofs.Requirement

namespace Courier.Composer

open Mutator

/-- What comes of a batch where `count` elements are and `limit` may be: one that lacks an element
is refused for that, and one that does not fit for the limit. -/
def batchOutcome (name : String) (full : Refusal) (limit count : Nat)
    (batch : List (Option Element)) : Except Fault Unit :=
  if batch.all Option.isSome then
    if count + batch.length ≤ limit then .ok () else refuse full
  else refuse (.absentElement name)

section

variable {name : String} {full : Refusal} {limit count : Nat}

theorem batchOutcome_eq_ok_iff {batch : List (Option Element)} :
    batchOutcome name full limit count batch = .ok () ↔
      batch.all Option.isSome = true ∧ count + batch.length ≤ limit := by
  unfold batchOutcome
  split
  · rename_i hall
    split
    · rename_i hfits
      exact iff_of_true rfl ⟨hall, hfits⟩
    · rename_i hfull
      exact iff_of_false nofun fun h => hfull h.2
  · rename_i habsent
    exact iff_of_false nofun fun h => habsent h.1

theorem batchOutcome_eq_ok_iff_exists {batch : List (Option Element)} :
    batchOutcome name full limit count batch = .ok () ↔
      ∃ items : List Element, batch = items.map some ∧ count + items.length ≤ limit := by
  rw [batchOutcome_eq_ok_iff, Requirement.all_isSome_iff]
  constructor
  · rintro ⟨⟨items, rfl⟩, hfits⟩
    rw [List.length_map] at hfits
    exact ⟨items, rfl, hfits⟩
  · rintro ⟨items, rfl, hfits⟩
    refine ⟨⟨items, rfl⟩, ?_⟩
    rwa [List.length_map]

theorem batchOutcome_append {first second : List (Option Element)}
    (h : batchOutcome name full limit count (first ++ second) = .ok ()) :
    batchOutcome name full limit count first = .ok () ∧
      batchOutcome name full limit (count + first.length) second = .ok () := by
  rw [batchOutcome_eq_ok_iff, List.all_append, Bool.and_eq_true, List.length_append] at h
  obtain ⟨⟨hfirst, hsecond⟩, hfits⟩ := h
  rw [batchOutcome_eq_ok_iff, batchOutcome_eq_ok_iff]
  exact ⟨⟨hfirst, by omega⟩, hsecond, by omega⟩

end

theorem length_reduceOption {batch : List (Option Element)}
    (h : batch.all Option.isSome = true) : batch.reduceOption.length = batch.length :=
  List.reduceOption_length_eq_iff.mpr (List.all_eq_true.mp h)

theorem perform_batch (name : String) (full : Refusal) (limit : Nat) (count : Composer → Nat)
    (append : List Element → Composer → Composer) (batch : List (Option Element)) (c : Composer) :
    (do
      let items ← Requirement.elements name batch
      let c ← get
      if count c + items.length ≤ limit then modify (append items) else refuse full :
        Mutator Composer Unit).perform c =
      match batchOutcome name full limit (count c) batch with
      | .ok () => (append batch.reduceOption c, .ok ())
      | .error fault => (c, .error fault) := by
  rw [perform_check_bind, Requirement.elements_eq, batchOutcome]
  by_cases hall : batch.all Option.isSome = true
  · simp only [hall, if_true, length_reduceOption hall, perform_bind_of_ok (perform_get c)]
    split <;> rfl
  · simp only [hall]
    rfl

def embedsOutcome (c : Composer) (batch : List (Option Element)) : Except Fault Unit :=
  batchOutcome "Message Embeds" (.tooManyEmbeds maxEmbeds) maxEmbeds c.embeds.length batch

def rowsOutcome (c : Composer) (batch : List (Option Element)) : Except Fault Unit :=
  batchOutcome "ActionRows" (.tooManyRows maxRows) maxRows c.rows.length batch

theorem perform_addEmbeds (batch : List (Option Element)) (c : Composer) :
    (addEmbeds (.elements batch)).perform c =
      match c.embedsOutcome batch with
      | .ok () => ({ c with embeds := c.embeds ++ batch.reduceOption }, .ok ())
      | .error fault => (c, .error fault) :=
  perform_batch _ _ maxEmbeds (·.embeds.length)
    (fun items c => { c with embeds := c.embeds ++ items }) batch c

theorem perform_addRows (batch : List (Option Element)) (c : Composer) :
    (addRows batch).perform c =
      match c.rowsOutcome batch with
      | .ok () => ({ c with rows := c.rows ++ batch.reduceOption }, .ok ())
      | .error fault => (c, .error fault) :=
  perform_batch _ _ maxRows (·.rows.length)
    (fun items c => { c with rows := c.rows ++ items }) batch c

theorem outcome_addEmbeds (batch : List (Option Element)) (c : Composer) :
    ((addEmbeds (.elements batch)).perform c).2 = c.embedsOutcome batch := by
  rw [perform_addEmbeds]
  split <;> exact Eq.symm ‹_›

theorem outcome_addRows (batch : List (Option Element)) (c : Composer) :
    ((addRows batch).perform c).2 = c.rowsOutcome batch := by
  rw [perform_addRows]
  split <;> exact Eq.symm ‹_›

theorem addEmbeds_eq_ok_iff (embeds : Listing (Option Element)) (c : Composer) :
    ((addEmbeds embeds).perform c).2 = .ok () ↔
      ∃ items : List Element, embeds = .elements (items.map some) ∧
        c.embeds.length + items.length ≤ maxEmbeds := by
  cases embeds with
  | absent how => exact iff_of_false nofun fun ⟨_, h, _⟩ => nomatch h
  | notAList value => exact iff_of_false nofun fun ⟨_, h, _⟩ => nomatch h
  | elements batch =>
      rw [outcome_addEmbeds, embedsOutcome, batchOutcome_eq_ok_iff_exists]
      simp only [Listing.elements.injEq]

theorem addRows_eq_ok_iff (batch : List (Option Element)) (c : Composer) :
    ((addRows batch).perform c).2 = .ok () ↔
      ∃ items : List Element, batch = items.map some ∧
        c.rows.length + items.length ≤ maxRows := by
  rw [outcome_addRows, rowsOutcome, batchOutcome_eq_ok_iff_exists]

/-- What is accepted at once is accepted one part after the other, with the same result. -/
theorem perform_addEmbeds_append {first second : List (Option Element)} {c c' : Composer}
    (h : (addEmbeds (.elements (first ++ second))).perform c = (c', .ok ())) :
    ∃ between, (addEmbeds (.elements first)).perform c = (between, .ok ()) ∧
      (addEmbeds (.elements second)).perform between = (c', .ok ()) := by
  rw [perform_addEmbeds] at h
  split at h
  · rename_i hboth
    obtain ⟨hfirst, hsecond⟩ := batchOutcome_append hboth
    obtain ⟨hall, -⟩ := batchOutcome_eq_ok_iff.mp hfirst
    rw [← length_reduceOption hall, ← List.length_append] at hsecond
    refine ⟨{ c with embeds := c.embeds ++ first.reduceOption }, ?_, ?_⟩
    · rw [perform_addEmbeds, embedsOutcome, hfirst]
    · rw [perform_addEmbeds, embedsOutcome, hsecond, ← h, List.reduceOption_append,
        List.append_assoc]
  · cases h

end Courier.Composer
