import Courier.Proofs.Composer.Batch
import Courier.Proofs.Session.Limits

namespace Courier

namespace Edit

def embeds : Edit → List Element
  | addEmbeds batch => batch.toList.reduceOption
  | applyMessage (some m) => m.embeds.toList
  | _ => []

def rows : Edit → List Element
  | addRows batch => batch.reduceOption
  | applyMessage (some m) => m.rows.toList
  | _ => []

end Edit

namespace Composer

open Mutator

/-- The second composer has what the first has, and some embeds and rows behind it. -/
structure Grows (c c' : Composer) (embeds rows : List Element) : Prop where
  embeds : c'.embeds = c.embeds ++ embeds
  rows : c'.rows = c.rows ++ rows

variable {c c' c'' : Composer} {embeds rows embeds' rows' : List Element} {change : Edit}

theorem Grows.of_eq (hembeds : c'.embeds = c.embeds) (hrows : c'.rows = c.rows) :
    Grows c c' [] [] :=
  ⟨hembeds.trans (List.append_nil _).symm, hrows.trans (List.append_nil _).symm⟩

theorem Grows.trans (h : Grows c c' embeds rows) (h' : Grows c' c'' embeds' rows') :
    Grows c c'' (embeds ++ embeds') (rows ++ rows') where
  embeds := by rw [h'.embeds, h.embeds, List.append_assoc]
  rows := by rw [h'.rows, h.rows, List.append_assoc]

theorem grows_of_ok (h : (edit change).perform c = (c', .ok ())) :
    Grows c c' change.embeds change.rows := by
  have hcases := edit_lists_cases change
  cases change with
  | addEmbeds batch =>
      obtain ⟨items, rfl, -⟩ := (addEmbeds_eq_ok_iff batch c).mp (congrArg Prod.snd h)
      rw [edit, perform_addEmbeds] at h
      split at h <;> cases h
      exact ⟨rfl, (List.append_nil _).symm⟩
  | addRows batch =>
      rw [edit, perform_addRows] at h
      split at h <;> cases h
      exact ⟨(List.append_nil _).symm, rfl⟩
  | applyMessage message =>
      cases message with
      | none => cases h
      | some m =>
          obtain ⟨_, embeds, rows, -, hembeds, hrows, hc'⟩ := applyMessage_of_ok h
          constructor
          · rw [hc', Edit.embeds, hembeds]
            rfl
          · rw [hc', Edit.rows, hrows]
            rfl
  | _ =>
      obtain ⟨_, ⟨⟩⟩ | ⟨_, ⟨⟩⟩ | ⟨_, ⟨⟩⟩ | ⟨-, hkept⟩ := hcases
      obtain ⟨hembeds, hrows⟩ := hkept c
      rw [h] at hembeds hrows
      exact .of_eq hembeds hrows

theorem eq_of_refused {fault : Fault} (hlists : change.HasLists)
    (h : (edit change).perform c = (c', .error fault)) : c' = c := by
  have hsame := edit_allOrNothing change hlists c fault (congrArg Prod.snd h)
  rwa [h] at hsame

/-- A change takes nothing away, even if it is refused. -/
theorem exists_grows_edit (change : Edit) (c : Composer) :
    ∃ embeds rows, Grows c ((edit change).perform c).1 embeds rows := by
  cases hout : (edit change).perform c with
  | mk c' outcome =>
      cases outcome with
      | ok _ => exact ⟨_, _, grows_of_ok hout⟩
      | error fault =>
          by_cases hlists : change.HasLists
          · obtain rfl := eq_of_refused hlists hout
            exact ⟨[], [], .of_eq rfl rfl⟩
          · -- Only a message may lack its lists, and then it leaves behind what it has of them.
            obtain ⟨m, rfl⟩ : ∃ m, change = .applyMessage (some m) := by
              unfold Edit.HasLists at hlists
              split at hlists
              · exact ⟨_, rfl⟩
              · exact absurd trivial hlists
            obtain ⟨hembeds, hrows⟩ := applyMessage_appends m c
            rw [edit] at hout
            rw [hout] at hembeds hrows
            exact ⟨_, _, hembeds, hrows⟩

end Composer

namespace Session

open Composer

variable {setup : Setup} {s : Session}

/-- The change that an act makes to the message, if it is accepted. -/
def acceptedEdit (s : Session) : Act → Option Edit
  | .edit change =>
    match ((Composer.edit change).perform s.composer).2 with
    | .ok () => some change
    | .error _ => none
  | _ => none

def acceptedEdits (setup : Setup) : Session → List Act → List Edit :=
  trace setup acceptedEdit

theorem grows_act_of_noEdit (setup : Setup) (s : Session) {a : Act}
    (ha : ∀ change, a ≠ .edit change) : Grows s.composer (s.act setup a).1.composer [] [] := by
  rcases composer_act setup s ha with heq | heq
  · exact .of_eq (congrArg Composer.embeds heq) (congrArg Composer.rows heq)
  · -- Finalizing moves the files only.
    exact .of_eq (by rw [heq]; rfl) (by rw [heq]; rfl)

theorem grows_act (setup : Setup) (s : Session) {a : Act}
    (ha : ∀ change, a = .edit change → change.HasLists) :
    Grows s.composer (s.act setup a).1.composer
      ((s.acceptedEdit a).toList.flatMap Edit.embeds)
      ((s.acceptedEdit a).toList.flatMap Edit.rows) := by
  cases a with
  | edit change =>
      rw [acceptedEdit, act, step]
      cases hout : (Composer.edit change).perform s.composer with
      | mk c' outcome =>
          cases outcome with
          | ok _ => simpa using grows_of_ok hout
          | error fault =>
              obtain rfl := eq_of_refused (ha change rfl) hout
              exact .of_eq rfl rfl
  | _ => exact grows_act_of_noEdit setup s fun _ => Act.noConfusion

theorem grows_after (setup : Setup) (s : Session) {acts : List Act}
    (hacts : ∀ change, .edit change ∈ acts → change.HasLists) :
    Grows s.composer (s.after setup acts).composer
      ((s.acceptedEdits setup acts).flatMap Edit.embeds)
      ((s.acceptedEdits setup acts).flatMap Edit.rows) := by
  induction acts generalizing s with
  | nil => exact .of_eq rfl rfl
  | cons a rest ih =>
      have hfirst := grows_act setup s (a := a)
        fun change heq => hacts change (heq ▸ List.mem_cons_self)
      have hrest := ih (s.act setup a).1
        fun change hmem => hacts change (List.mem_cons_of_mem a hmem)
      rw [acceptedEdits, trace, List.flatMap_append, List.flatMap_append]
      exact hfirst.trans hrest

theorem exists_grows_after (setup : Setup) (s : Session) (acts : List Act) :
    ∃ embeds rows, Grows s.composer (s.after setup acts).composer embeds rows := by
  induction acts generalizing s with
  | nil => exact ⟨[], [], .of_eq rfl rfl⟩
  | cons a rest ih =>
      obtain ⟨embeds, rows, hfirst⟩ : ∃ embeds rows,
          Grows s.composer (s.act setup a).1.composer embeds rows := by
        cases a with
        | edit change => exact exists_grows_edit change s.composer
        | _ => exact ⟨[], [], grows_act_of_noEdit setup s fun _ => Act.noConfusion⟩
      obtain ⟨_, _, hrest⟩ := ih (s.act setup a).1
      exact ⟨_, _, hfirst.trans hrest⟩

end Session

open Session in
/-- The embeds and the rows of a message are those that the accepted changes brought, batch after
batch, and whatever happens later leaves them at their places. A batch is accepted exactly if it is
there, lacks no element and fits, and of what is wrong with it the first in this order is reported.
So without messages that are taken over the limits hold, and a batch of embeds that is accepted can
be cut in two that are accepted one after the other with the same result. -/
theorem lists_accumulate (setup : Setup) (defaults : Mention.Defaults) (builders : Builders) :
    let s₀ := Session.start defaults builders
    (∀ acts, (∀ change, Act.edit change ∈ acts → change.HasLists) →
      (s₀.after setup acts).composer.draft.embeds =
          (s₀.acceptedEdits setup acts).flatMap Edit.embeds ∧
        (s₀.after setup acts).composer.draft.rows =
          (s₀.acceptedEdits setup acts).flatMap Edit.rows) ∧
    (∀ before later,
      let s := s₀.after setup before
      let s' := s₀.after setup (before ++ later)
      s.composer.embeds <+: s'.composer.embeds ∧ s.composer.rows <+: s'.composer.rows) ∧
    (∀ (c : Composer) embeds, ((Composer.edit (.addEmbeds embeds)).perform c).2 = .ok () ↔
      ∃ items : List Element, embeds = .elements (items.map some) ∧
        c.embeds.length + items.length ≤ 10) ∧
    (∀ (c : Composer) rows, ((Composer.edit (.addRows rows)).perform c).2 = .ok () ↔
      ∃ items : List Element, rows = items.map some ∧ c.rows.length + items.length ≤ 5) ∧
    (∀ (c : Composer) how, ((Composer.edit (.addEmbeds (.absent how))).perform c).2 =
      refuse (.absent "Message Embeds")) ∧
    (∀ (c : Composer) batch, ((Composer.edit (.addEmbeds (.elements batch))).perform c).2 =
      Composer.batchOutcome "Message Embeds" (.tooManyEmbeds 10) 10 c.embeds.length batch) ∧
    (∀ (c : Composer) batch, ((Composer.edit (.addRows batch)).perform c).2 =
      Composer.batchOutcome "ActionRows" (.tooManyRows 5) 5 c.rows.length batch) ∧
    (∀ acts, (∀ message, Act.edit (.applyMessage message) ∉ acts) →
      (s₀.after setup acts).composer.embeds.length ≤ 10 ∧
        (s₀.after setup acts).composer.rows.length ≤ 5) ∧
    (∀ (c c' : Composer) first second,
      (Composer.edit (.addEmbeds (.elements (first ++ second)))).perform c = (c', .ok ()) →
      ∃ between,
        (Composer.edit (.addEmbeds (.elements first))).perform c = (between, .ok ()) ∧
          (Composer.edit (.addEmbeds (.elements second))).perform between = (c', .ok ())) ∧
    ∀ steps, s₀.after setup (s₀.acts setup steps) = (s₀.run setup steps).1 := by
  intro s₀
  refine ⟨?_, ?_, ?_, ?_, ?_, ?_, ?_, ?_, ?_, ?_⟩
  · intro acts hacts
    have hgrows := grows_after setup s₀ hacts
    exact ⟨hgrows.embeds, hgrows.rows⟩
  · intro before later s s'
    obtain ⟨embeds, rows, hgrows⟩ := exists_grows_after setup s later
    rw [← after_append] at hgrows
    exact ⟨⟨embeds, hgrows.embeds.symm⟩, ⟨rows, hgrows.rows.symm⟩⟩
  · exact fun c embeds => Composer.addEmbeds_eq_ok_iff embeds c
  · exact fun c rows => Composer.addRows_eq_ok_iff rows c
  · exact fun c how => rfl
  · exact fun c batch => Composer.outcome_addEmbeds batch c
  · exact fun c batch => Composer.outcome_addRows batch c
  · intro acts hacts
    refine (withinLimits_after setup acts (withinLimits_start defaults builders) ?_).composer
    rintro before m later rfl
    exact absurd (List.mem_append_right before List.mem_cons_self) (hacts (some m))
  · exact fun c c' first second h => Composer.perform_addEmbeds_append h
  · exact fun steps => after_acts setup steps s₀

/-- A batch that is one embed too long is refused as a whole, after one that was accepted, a message
that was taken over and a body that was made. -/
theorem long_batch_left_out :
    let setup : Setup := { route := .followUp "7" "token", channel := .ofText "1" }
    let s₀ := Session.start {} .unset
    let card (name : String) : Option Element := some (.live name)
    let message : Template :=
      { content := none, tts := none, embeds := .elements [.live "b"], rows := .elements [] }
    let acts : List Act := [
      .edit (.addEmbeds (.elements [card "a"])), .edit (.applyMessage (some message)), .finalize,
      .edit (.addEmbeds (.elements (List.replicate 9 (card "c")))),
      .edit (.addRows [card "row"])]
    let s := s₀.after setup acts
    (∀ change, Act.edit change ∈ acts → change.HasLists) ∧
      s.composer.draft.embeds = [.live "a", .live "b"] ∧ s.composer.draft.rows = [.live "row"] ∧
      ((Composer.edit (.addEmbeds (.elements [card "d", card "e"]))).perform s.composer).2 = .ok () ∧
      ∃ between,
        (Composer.edit (.addEmbeds (.elements [card "d"]))).perform s.composer =
          (between, .ok ()) ∧
        ((Composer.edit (.addEmbeds (.elements [card "e"]))).perform between).2 = .ok () := by
  intro setup s₀ card message acts s
  obtain ⟨hlog, -, haccepted, -, -, -, -, -, hcut, -⟩ :=
    lists_accumulate setup {} .unset
  have hlists : ∀ change, Act.edit change ∈ acts → change.HasLists := by
    intro change hmem
    simp only [acts, List.mem_cons, List.not_mem_nil, or_false, Act.edit.injEq, reduceCtorEq,
      false_or] at hmem
    rcases hmem with rfl | rfl | rfl | rfl
    · trivial
    · exact ⟨⟨_, rfl⟩, ⟨_, rfl⟩⟩
    · trivial
    · trivial
  have hedits : s₀.acceptedEdits setup acts = [
      .addEmbeds (.elements [card "a"]), .applyMessage (some message),
      .addRows [card "row"]] := rfl
  obtain ⟨hembeds, hrows⟩ := hlog acts hlists
  rw [hedits] at hembeds hrows
  have hboth : ((Composer.edit (.addEmbeds (.elements [card "d", card "e"]))).perform
      s.composer).2 = .ok () :=
    (haccepted _ _).mpr ⟨[.live "d", .live "e"], rfl, by decide⟩
  obtain ⟨between, hfirst, hsecond⟩ :=
    hcut s.composer _ [card "d"] [card "e"] (Prod.ext rfl hboth)
  exact ⟨hlists, hembeds.trans rfl, hrows.trans rfl, hboth, between, hfirst,
    congrArg Prod.snd hsecond⟩

end Courier
