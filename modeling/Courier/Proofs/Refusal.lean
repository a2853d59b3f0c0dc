import Courier.Mention.Roster
import Courier.Proofs.Mutator
import Courier.Session

namespace Courier

namespace Mention.Tracker

open Mutator

theorem allow_checksFirst (names : Listing (Option Json)) : (allow names).ChecksFirst := by
  cases names with
  | absent how => exact (neverThrows_modify _).checksFirst
  | notAList value => exact .check_bind _ fun _ => (neverThrows_modify _).checksFirst
  | elements names => exact .check_bind _ fun _ => (neverThrows_modify _).checksFirst

theorem mention_checksFirst (ms : List (Option Mentionable)) : (mention ms).ChecksFirst := by
  refine .check_bind _ fun checked => .check_bind _ fun _ => ?_
  exact NeverThrows.checksFirst (.forM (fun _ => neverThrows_modify _) checked)

theorem mentionUsers_checksFirst (ids : List (Option Json)) :
    (mentionUsers ids).ChecksFirst := by
  refine .check_bind _ fun checked => ?_
  exact NeverThrows.checksFirst (.forM (fun _ => neverThrows_modify _) checked)

theorem mentionRoles_checksFirst (ids : List (Option Json)) :
    (mentionRoles ids).ChecksFirst := by
  refine .check_bind _ fun checked => ?_
  exact NeverThrows.checksFirst (.forM (fun _ => neverThrows_modify _) checked)

/-- Users, roles and categories are all checked before the first of them is written. -/
theorem adopt_checksFirst (d : Directive) : (adopt d).ChecksFirst := by
  refine .check_bind _ fun users => .check_bind _ fun roles => .check_bind _ fun names => ?_
  refine NeverThrows.checksFirst ?_
  refine (neverThrows_modify _).bind fun _ => (neverThrows_modify _).bind fun _ => ?_
  refine (neverThrows_modify _).bind fun _ => ?_
  refine .bind (.forM (fun _ => neverThrows_modify _) users) fun _ => ?_
  refine .bind (.forM (fun _ => neverThrows_modify _) roles) fun _ => ?_
  exact neverThrows_modify _

theorem applyMessage_checksFirst (message : Option (Option Directive)) :
    (applyMessage message).ChecksFirst := by
  match message with
  | none => exact checksFirst_check _
  | some none => exact (neverThrows_pure _).checksFirst
  | some (some d) => exact adopt_checksFirst d

theorem choose_checksFirst (choice : Choice) : (choose choice).ChecksFirst := by
  cases choice with
  | repliedUser ping => exact (neverThrows_modify _).checksFirst
  | categories names => exact allow_checksFirst names
  | mentionables ms => exact mention_checksFirst ms
  | users ids => exact mentionUsers_checksFirst ids
  | roles ids => exact mentionRoles_checksFirst ids

theorem call_checksFirst (c : Call) : (call c).ChecksFirst := by
  cases c with
  | choose choice => exact choose_checksFirst choice
  | applyMessage message => exact applyMessage_checksFirst message

theorem call_allOrNothing (c : Call) : (call c).AllOrNothing :=
  (call_checksFirst c).allOrNothing

end Mention.Tracker

namespace Mention.Roster

theorem change_eq_of_lookup {name : String} {t : Tracker} {trackers : List (String × Tracker)}
    (h : trackers.lookup name = some t) : change name (fun _ => t) trackers = trackers := by
  induction trackers with
  | nil => rfl
  | cons entry rest ih =>
      obtain ⟨n, u⟩ := entry
      by_cases hn : n = name
      · subst hn
        simp only [List.lookup_cons_self, Option.some.injEq] at h
        simp [change, h]
      · have hlookup : rest.lookup name = some t := by
          simpa [List.lookup_cons, beq_eq_false_iff_ne.mpr (Ne.symm hn)] using h
        simp [change, hn, ih hlookup]

theorem update_eq_of_get? {r : Roster} {name : String} {t : Tracker}
    (h : r.get? name = some t) : (r.update name fun _ => t) = r := by
  simp only [update, change_eq_of_lookup h]

theorem step_eq_of_error (r : Roster) (next : Step) (fault : Fault)
    (h : (r.step next).2 = .error fault) : (r.step next).1 = r := by
  cases next with
  | copy target source =>
      simp only [step] at h ⊢
      split at h <;> simp_all
  | call name c =>
      simp only [step] at h ⊢
      cases ht : r.get? name with
      | none => rfl
      | some t =>
          simp only [ht] at h ⊢
          rw [Tracker.call_allOrNothing c t fault h]
          exact update_eq_of_get? ht

end Mention.Roster

/-- A message from which a composer can take the embeds and the rows. -/
structure Template.HasLists (m : Template) : Prop where
  embeds : ∃ embeds, m.embeds = .elements embeds
  rows : ∃ rows, m.rows = .elements rows

def Edit.HasLists : Edit → Prop
  | .applyMessage (some m) => m.HasLists
  | _ => True

namespace Composer

open Mutator

theorem setUsername_allOrNothing (name : Given) : (setUsername name).AllOrNothing :=
  .check_bind _ fun _ => (neverThrows_modify _).allOrNothing

theorem addEmbeds_allOrNothing (embeds : Listing (Option Element)) :
    (addEmbeds embeds).AllOrNothing := by
  refine .check_bind _ fun embeds => .get_bind fun c => ?_
  split
  · exact (neverThrows_modify _).allOrNothing
  · exact allOrNothing_check _

theorem addRows_allOrNothing (rows : List (Option Element)) : (addRows rows).AllOrNothing := by
  refine .check_bind _ fun rows => .get_bind fun c => ?_
  split
  · exact (neverThrows_modify _).allOrNothing
  · exact allOrNothing_check _

theorem addFile_allOrNothing (name : Given) (source : Option ByteSource) (spoiler : Bool) :
    (addFile name source spoiler).AllOrNothing := by
  refine .check_bind _ fun name => .check_bind _ fun source => .get_bind fun c => ?_
  split
  · exact .check_bind _ fun _ => (neverThrows_modify _).allOrNothing
  · exact allOrNothing_check _

theorem onMentions_allOrNothing {m : Mutator Mention.Tracker Unit} (h : m.AllOrNothing) :
    (onMentions m).AllOrNothing :=
  h.onPart fun _ => rfl

/-- Behind the policy nothing is checked any more, as long as the message has its lists. -/
theorem applyMessage_allOrNothing (message : Option Template)
    (h : ∀ m, message = some m → m.HasLists) : (applyMessage message).AllOrNothing := by
  cases message with
  | none => exact allOrNothing_check _
  | some m =>
      obtain ⟨⟨embeds, hembeds⟩, ⟨rows, hrows⟩⟩ := h m rfl
      simp only [applyMessage, hembeds, hrows, Listing.spread, Fault.lift]
      refine (onMentions_allOrNothing
        (Mention.Tracker.applyMessage_checksFirst _).allOrNothing).bind_neverThrows fun _ => ?_
      refine (neverThrows_modify _).bind fun _ => ?_
      refine (neverThrows_pure embeds).bind fun _ => (neverThrows_modify _).bind fun _ => ?_
      refine (neverThrows_pure rows).bind fun _ => (neverThrows_modify _).bind fun _ => ?_
      exact neverThrows_modify _

theorem edit_allOrNothing (e : Edit) (h : e.HasLists) : (edit e).AllOrNothing := by
  cases e with
  | setContent content => exact (neverThrows_modify _).allOrNothing
  | setTts tts => exact (neverThrows_modify _).allOrNothing
  | setEphemeral ephemeral => exact (neverThrows_modify _).allOrNothing
  | setUsername name => exact setUsername_allOrNothing name
  | setAvatarUrl url => exact (neverThrows_modify _).allOrNothing
  | addEmbeds embeds => exact addEmbeds_allOrNothing embeds
  | addRows rows => exact addRows_allOrNothing rows
  | addFile name source spoiler => exact addFile_allOrNothing name source spoiler
  | choose choice =>
      exact onMentions_allOrNothing (Mention.Tracker.choose_checksFirst choice).allOrNothing
  | applyMessage message =>
      refine applyMessage_allOrNothing message fun m hm => ?_
      subst hm
      exact h

end Composer

namespace Session

def Step.isEdit : Step → Bool
  | .edit _ => true
  | _ => false

def Step.HasLists : Step → Prop
  | .edit e => e.HasLists
  | _ => True

theorem step_eq_of_error (setup : Setup) (s : Session) (next : Step) (fault : Fault)
    (hedit : next.isEdit) (hlists : next.HasLists)
    (h : (s.step setup next).2 = .error fault) : (s.step setup next).1 = s := by
  cases next with
  | edit e =>
      have hc := Composer.edit_allOrNothing e hlists s.composer fault h
      simp only [step, hc]
  | _ => cases hedit

end Session

/-- Refused changes can be erased. A change of a composer or of a tracker that throws leaves the
composer or the tracker exactly as it was. So a script without its refused changes leads to the
same session, with the same events and bodies in it, and each step that is left has the outcome
that it had; the same holds of scripts over trackers. -/
theorem refused_changes_erasable :
    (∀ (c : Composer) (e : Edit) (fault : Fault), e.HasLists →
      ((Composer.edit e).perform c).2 = .error fault → ((Composer.edit e).perform c).1 = c) ∧
    (∀ (t : Mention.Tracker) (c : Mention.Call) (fault : Fault),
      ((Mention.Tracker.call c).perform t).2 = .error fault →
        ((Mention.Tracker.call c).perform t).1 = t) ∧
    (∀ (setup : Setup) (s : Session) (steps : List Session.Step),
      (∀ next ∈ steps, next.HasLists) →
        let left := Script.survivors Session.Step.isEdit steps (s.run setup steps).2
        s.run setup (left.map Prod.fst) = ((s.run setup steps).1, left.map Prod.snd)) ∧
    (∀ (r : Mention.Roster) (steps : List Mention.Roster.Step),
      let left := Script.survivors (fun _ => true) steps (r.run steps).2
      r.run (left.map Prod.fst) = ((r.run steps).1, left.map Prod.snd)) := by
  refine ⟨fun c e fault hlists => Composer.edit_allOrNothing e hlists c fault,
    fun t c fault => Mention.Tracker.call_allOrNothing c t fault, ?_, ?_⟩
  · intro setup s steps hlists
    exact Script.run_survivors steps s fun next hnext hedit s fault =>
      Session.step_eq_of_error setup s next fault hedit (hlists next hnext)
  · intro r steps
    exact Script.run_survivors steps r fun next _ _ r fault =>
      Mention.Roster.step_eq_of_error r next fault

/-- A directive with good users and bad roles is refused as a whole, and the script goes on as if it
had not been applied. -/
theorem refused_directive_erased :
    let setup : Setup := { route := .followUp "1" "token", channel := .ofText "1" }
    let m : Template := {
      content := .ofText "text", tts := .ofBool true, embeds := .elements [], rows := .elements []
      directive := some
        { users := .elements [some (.string "1")], roles := .elements [some (.string "x")] } }
    let refused : Session.Step := .edit (.applyMessage (some m))
    let kept : Session.Step := .edit (.setContent (.ofText "hello"))
    (∀ next ∈ [refused, kept], next.HasLists) ∧
      Session.run setup [kept] {} = ((Session.run setup [refused, kept] {}).1, [.ok ()]) := by
  intro setup m refused kept
  have hlists : ∀ next ∈ [refused, kept], next.HasLists := by
    intro next hnext
    simp only [List.mem_cons, List.not_mem_nil, or_false] at hnext
    rcases hnext with rfl | rfl
    · exact ⟨⟨[], rfl⟩, ⟨[], rfl⟩⟩
    · trivial
  exact ⟨hlists, refused_changes_erasable.2.2.1 setup {} [refused, kept] hlists⟩

end Courier
