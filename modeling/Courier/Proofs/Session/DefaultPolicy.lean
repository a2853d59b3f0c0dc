import Courier.Proofs.Mention.Adoption
import Courier.Proofs.Session.Accumulation

namespace Courier

namespace Edit

/-- The change decides nothing about categories or about the author replied to, not even by a policy
that it takes over. -/
def LeavesDefaults : Edit → Prop
  | choose (.categories _) => False
  | choose (.repliedUser _) => False
  | applyMessage (some m) => m.directive = none
  | _ => True

def users : Edit → List Json
  | choose choice => (Mention.Call.choose choice).users
  | _ => []

def roles : Edit → List Json
  | choose choice => (Mention.Call.choose choice).roles
  | _ => []

end Edit

namespace Mention.Tracker

def listing (t : Tracker) (users roles : List Json) : Tracker :=
  { t with users := addAll t.users users, roles := addAll t.roles roles }

theorem listing_listing (t : Tracker) (users roles users' roles' : List Json) :
    (t.listing users roles).listing users' roles' =
      t.listing (users ++ users') (roles ++ roles') := by
  simp only [listing, addAll_append]

theorem effect_choose {choice : Choice} (h : (Edit.choose choice).LeavesDefaults) (t : Tracker) :
    (Call.choose choice).effect t =
      t.listing (Edit.choose choice).users (Edit.choose choice).roles := by
  cases choice with
  | categories names => exact h.elim
  | repliedUser ping => exact h.elim
  | _ => rfl

theorem policy_listing (defaults : Defaults) (users roles : List Json) :
    (listing { defaults } users roles).policy.parse = Category.all.filter (fun c =>
        defaults.parse.contains c && !(c = .users && !users.isEmpty) &&
          !(c = .roles && !roles.isEmpty)) ∧
      (listing { defaults } users roles).policy.repliedUser = defaults.repliedUser := by
  have hempty (ids : List Json) : (addAll [] ids).isEmpty = ids.isEmpty := by
    rw [addAll_nil, Directive.isEmpty_eraseDupsBy]
  refine ⟨?_, Option.none_or⟩
  rw [parse_policy, ← hempty users, ← hempty roles]
  rfl

end Mention.Tracker

namespace Composer

open Mutator Mention

variable {change : Edit} {c c' : Composer}

theorem mentions_eq_of_value
    (h : ∀ f ∈ [Field.repliedUser, .categories, .users, .roles, .record], c.value f = c'.value f) :
    c.mentions = c'.mentions := by
  obtain ⟨hdefaults, -⟩ := Prod.mk.inj (h .record (by decide))
  have hrepliedUser := h .repliedUser (by decide)
  have hcategories := h .categories (by decide)
  have husers := h .users (by decide)
  have hroles := h .roles (by decide)
  obtain ⟨_, _, _, _, _, _, _, _, ⟨_, _, _, _, _⟩, _, _⟩ := c
  obtain ⟨_, _, _, _, _, _, _, _, ⟨_, _, _, _, _⟩, _, _⟩ := c'
  exact (Tracker.mk.injEq ..).mpr ⟨hdefaults, hcategories, husers, hroles, hrepliedUser⟩

theorem mentions_edit_of_fields
    (h : ∀ f ∈ [Field.repliedUser, .categories, .users, .roles, .record], f ∉ change.fields)
    (c : Composer) : ((edit change).perform c).1.mentions = c.mentions :=
  mentions_eq_of_value fun f hf => (edit_confined change).keeps f (h f hf) c

theorem mentions_applyMessage {m : Template} (h : m.directive = none) (c : Composer) :
    ((applyMessage (some m)).perform c).1.mentions = c.mentions := by
  have hpolicy : (Tracker.applyMessage (some m.directive)).perform c.mentions =
      (c.mentions, .ok ()) := by
    rw [h]
    rfl
  rw [perform_applyMessage, hpolicy]
  cases m.embeds.spread "message.embeds" with
  | error cause => rfl
  | ok embeds => cases m.rows.spread "message.components" <;> rfl

theorem mentions_edit (h : change.LeavesDefaults) (c : Composer) :
    ((edit change).perform c).1.mentions =
      match ((edit change).perform c).2 with
      | .ok () => c.mentions.listing change.users change.roles
      | .error _ => c.mentions := by
  have hkept (hmentions : ((edit change).perform c).1.mentions = c.mentions)
      (husers : change.users = []) (hroles : change.roles = []) :
      ((edit change).perform c).1.mentions =
        match ((edit change).perform c).2 with
        | .ok () => c.mentions.listing change.users change.roles
        | .error _ => c.mentions := by
    rw [hmentions, husers, hroles]
    cases ((edit change).perform c).2 <;> rfl
  cases change with
  | choose choice =>
      rw [edit, onMentions, perform_onPart]
      obtain hcall | ⟨fault, hcall⟩ := Tracker.perform_cases (.choose choice)
      · have hperform : (Tracker.choose choice).perform c.mentions = _ := hcall c.mentions
        rw [hperform]
        exact Tracker.effect_choose h c.mentions
      · have hperform : (Tracker.choose choice).perform c.mentions = _ := hcall c.mentions
        rw [hperform]
  | applyMessage message =>
      cases message with
      | none => rfl
      | some m => exact hkept (mentions_applyMessage h c) rfl rfl
  | _ => exact hkept (mentions_edit_of_fields (by simp [Edit.fields]) c) rfl rfl

end Composer

namespace Session

theorem mentions_act (setup : Setup) (s : Session) {a : Act}
    (ha : ∀ change, a = .edit change → change.LeavesDefaults) :
    (s.act setup a).1.composer.mentions =
      s.composer.mentions.listing ((s.acceptedEdit a).toList.flatMap Edit.users)
        ((s.acceptedEdit a).toList.flatMap Edit.roles) := by
  by_cases hedit : ∃ change, a = .edit change
  · obtain ⟨change, rfl⟩ := hedit
    refine (Composer.mentions_edit (ha change rfl) s.composer).trans ?_
    rw [acceptedEdit]
    cases ((Composer.edit change).perform s.composer).2 with
    | error fault => rfl
    | ok _ => simp
  · have hnone : s.acceptedEdit a = none := by
      cases a with
      | edit change => exact absurd ⟨change, rfl⟩ hedit
      | _ => rfl
    rw [hnone]
    -- Finalizing moves the files only.
    rcases composer_act setup s fun change heq => hedit ⟨change, heq⟩ with heq | heq
    · rw [heq]
      rfl
    · rw [heq]
      rfl

/-- A message that leaves its policy to the defaults lists what its accepted changes list. -/
theorem mentions_after (setup : Setup) (s : Session) {acts : List Act}
    (hacts : ∀ change, .edit change ∈ acts → change.LeavesDefaults) :
    (s.after setup acts).composer.mentions =
      s.composer.mentions.listing ((s.acceptedEdits setup acts).flatMap Edit.users)
        ((s.acceptedEdits setup acts).flatMap Edit.roles) := by
  induction acts generalizing s with
  | nil => rfl
  | cons a rest ih =>
      have hfirst := mentions_act setup s (a := a)
        fun change heq => hacts change (heq ▸ List.mem_cons_self)
      have hrest := ih (s.act setup a).1
        fun change hmem => hacts change (List.mem_cons_of_mem a hmem)
      rw [after_cons, hrest, hfirst, Mention.Tracker.listing_listing, acceptedEdits, trace,
        List.flatMap_append, List.flatMap_append]

theorem allowedMentions_of_finalize {setup : Setup} {s : Session} {body : WireBody}
    (h : (s.finalize setup).1 = .ok body) :
    body.payload.allowedMentions = some s.composer.mentions.policy.toJson := by
  rw [fst_finalize] at h
  obtain ⟨embeds, rows, -, -, hpayload⟩ :=
    Payload.ofDraft_eq_ok_iff.mp (WireBody.payload_of_build h)
  rw [hpayload]
  rfl

end Session

end Courier
