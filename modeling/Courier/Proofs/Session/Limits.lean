import Courier.Proofs.Attachment.Conservation

namespace Courier

/-- The message has no more embeds and rows than it may have. -/
def Composer.WithinLimits (c : Composer) : Prop :=
  c.embeds.length ≤ Composer.maxEmbeds ∧ c.rows.length ≤ Composer.maxRows

def WireBody.WithinLimits (b : WireBody) : Prop :=
  (b.payload.embeds.getD []).length ≤ Composer.maxEmbeds ∧
    (b.payload.rows.getD []).length ≤ Composer.maxRows

/-- The embeds and the rows that are taken over of a message, if its policy is not refused. -/
def Composer.taken (c : Composer) (m : Template) : List Element × List Element :=
  match ((Mention.Tracker.applyMessage (some m.directive)).perform c.mentions).2 with
  | .error _ => ([], [])
  | .ok () =>
    match m.embeds, m.rows with
    | .elements embeds, .elements rows => (embeds, rows)
    | .elements embeds, _ => (embeds, [])
    | _, _ => ([], [])

def Template.Fits (m : Template) (c : Composer) : Prop :=
  c.embeds.length + (c.taken m).1.length ≤ Composer.maxEmbeds ∧
    c.rows.length + (c.taken m).2.length ≤ Composer.maxRows

namespace Composer

open Mutator

theorem addEmbeds_withinLimits {c : Composer} (h : c.WithinLimits)
    (embeds : Listing (Option Element)) : ((addEmbeds embeds).perform c).1.WithinLimits := by
  rw [addEmbeds, perform_check_bind]
  split
  · rw [perform_bind_of_ok (perform_get c)]
    split
    · rename_i hcount
      refine ⟨?_, h.2⟩
      rw [perform_modify, List.length_append]
      exact hcount
    · exact h
  · exact h

theorem addRows_withinLimits {c : Composer} (h : c.WithinLimits) (rows : List (Option Element)) :
    ((addRows rows).perform c).1.WithinLimits := by
  rw [addRows, perform_check_bind]
  split
  · rw [perform_bind_of_ok (perform_get c)]
    split
    · rename_i hcount
      refine ⟨h.1, ?_⟩
      rw [perform_modify, List.length_append]
      exact hcount
    · exact h
  · exact h

/-- Applying a message appends what is taken over of it, whatever there is already. -/
theorem applyMessage_appends (m : Template) (c : Composer) :
    ((applyMessage (some m)).perform c).1.embeds = c.embeds ++ (c.taken m).1 ∧
      ((applyMessage (some m)).perform c).1.rows = c.rows ++ (c.taken m).2 := by
  have hnothing {items : List Element} : items = items ++ [] := (List.append_nil items).symm
  rw [perform_applyMessage, taken]
  cases hpolicy : (Mention.Tracker.applyMessage (some m.directive)).perform c.mentions with
  | mk mentions outcome =>
      cases outcome with
      | error fault => exact ⟨hnothing, hnothing⟩
      | ok _ =>
          cases hembeds : m.embeds with
          | elements embeds =>
              cases hrows : m.rows with
              | elements rows => exact ⟨rfl, rfl⟩
              | _ => exact ⟨rfl, hnothing⟩
          | _ => exact ⟨hnothing, hnothing⟩

theorem applyMessage_withinLimits_iff (m : Template) (c : Composer) :
    ((applyMessage (some m)).perform c).1.WithinLimits ↔ m.Fits c := by
  obtain ⟨hembeds, hrows⟩ := applyMessage_appends m c
  rw [WithinLimits, hembeds, hrows, List.length_append, List.length_append]
  rfl

/-- Of all changes only a message that does not fit breaks the limits. -/
theorem edit_withinLimits_iff {c : Composer} (h : c.WithinLimits) (change : Edit) :
    ((edit change).perform c).1.WithinLimits ↔
      ∀ m, change = .applyMessage (some m) → m.Fits c := by
  have hother (hne : ∀ m, change ≠ .applyMessage (some m))
      (hkept : ((edit change).perform c).1.WithinLimits) :
      ((edit change).perform c).1.WithinLimits ↔
        ∀ m, change = .applyMessage (some m) → m.Fits c :=
    ⟨fun _ m hm => absurd hm (hne m), fun _ => hkept⟩
  rcases edit_lists_cases change with ⟨batch, rfl⟩ | ⟨batch, rfl⟩ | ⟨m, rfl⟩ | ⟨hne, hkept⟩
  · exact hother (fun _ => Edit.noConfusion) (addEmbeds_withinLimits h batch)
  · exact hother (fun _ => Edit.noConfusion) (addRows_withinLimits h batch)
  · rw [edit, applyMessage_withinLimits_iff]
    constructor
    · rintro hfits _ ⟨⟩
      exact hfits
    · exact fun hfits => hfits m rfl
  · obtain ⟨hembeds, hrows⟩ := hkept c
    refine hother hne ?_
    rw [WithinLimits, hembeds, hrows]
    exact h

end Composer

namespace WireBody

/-- Each embed and each row of a body comes from one of the message. -/
theorem withinLimits_build {c : Composer} (h : c.WithinLimits) {builders : Builders}
    {files : List Attachment} {body : WireBody} (hbody : build builders c.draft files = .ok body) :
    body.WithinLimits := by
  obtain ⟨embeds, rows, hembeds, hrows, hpayload⟩ :=
    Payload.ofDraft_eq_ok_iff.mp (payload_of_build hbody)
  rw [WithinLimits, hpayload, Payload.ofBuilt, Payload.getD_listed, Payload.getD_listed,
    List.length_map, List.length_map, Payload.length_of_resolveAll hembeds,
    Payload.length_of_resolveAll hrows]
  exact h

end WireBody

namespace Session

theorem composer_act (setup : Setup) (s : Session) {a : Act}
    (ha : ∀ change, a ≠ .edit change) :
    (s.act setup a).1.composer = s.composer ∨
      (s.act setup a).1.composer = (s.composer.finalize s.builders).composer := by
  rcases act_cases setup s a with ⟨change, rfl⟩ | ⟨-, hact⟩ | ⟨-, hcomposer, -⟩
  · exact absurd rfl (ha change)
  · rw [hact]
    exact .inr (composer_finalize setup s)
  · exact .inl hcomposer

theorem act_withinLimits_iff (setup : Setup) {s : Session} (h : s.composer.WithinLimits)
    (a : Act) :
    (s.act setup a).1.composer.WithinLimits ↔
      ∀ m, a = .edit (.applyMessage (some m)) → m.Fits s.composer := by
  by_cases hedit : ∃ change, a = .edit change
  · obtain ⟨change, rfl⟩ := hedit
    rw [act, step]
    refine (Composer.edit_withinLimits_iff h change).trans (forall_congr' fun m => ?_)
    rw [Act.edit.injEq]
  · -- Only an edit touches the lists: finalizing takes nothing but the files.
    have hkept : (s.act setup a).1.composer.WithinLimits := by
      rcases composer_act setup s fun change heq => hedit ⟨change, heq⟩ with heq | heq
      · rw [heq]
        exact h
      · rw [heq]
        exact h
    exact ⟨fun _ m hm => absurd ⟨_, hm⟩ hedit, fun _ => hkept⟩

theorem act_bodies (setup : Setup) (s : Session) (a : Act) :
    (s.act setup a).1.bodies = s.bodies ∨
      ∃ body, s.nextBody = .ok body ∧ (s.act setup a).1.bodies = s.bodies ++ [body] := by
  match h : s.fileMove a with
  | some (.accepted _) => exact .inl (act_of_accepted setup h).2
  | some .takenOut =>
      have hbodies := (act_of_takenOut setup h).2
      cases hbody : s.nextBody with
      | error fault =>
          rw [hbody] at hbodies
          exact .inl (hbodies.trans (List.append_nil _))
      | ok body =>
          rw [hbody] at hbodies
          exact .inr ⟨body, rfl, hbodies⟩
  | none => exact .inl (act_of_noMove setup h).2

structure WithinLimits (s : Session) : Prop where
  composer : s.composer.WithinLimits
  bodies : ∀ body ∈ s.bodies, body.WithinLimits

/-- Each message that some acts take over fits at that moment. -/
def TakenFit (setup : Setup) (s : Session) (acts : List Act) : Prop :=
  ∀ before m later, acts = before ++ .edit (.applyMessage (some m)) :: later →
    m.Fits (s.after setup before).composer

theorem takenFit_nil (setup : Setup) (s : Session) : s.TakenFit setup [] := by
  intro before m later hacts
  cases before <;> cases hacts

theorem takenFit_cons {setup : Setup} {s : Session} {a : Act} {rest : List Act} :
    s.TakenFit setup (a :: rest) ↔
      (∀ m, a = .edit (.applyMessage (some m)) → m.Fits s.composer) ∧
        (s.act setup a).1.TakenFit setup rest := by
  constructor
  · intro h
    constructor
    · rintro m rfl
      exact h [] m rest rfl
    · rintro before m later rfl
      exact h (a :: before) m later rfl
  · rintro ⟨hhead, htail⟩ before m later hacts
    cases before with
    | nil =>
        cases hacts
        exact hhead m rfl
    | cons b before =>
        cases hacts
        exact htail before m later rfl

theorem TakenFit.left {setup : Setup} {s : Session} {first second : List Act}
    (h : s.TakenFit setup (first ++ second)) : s.TakenFit setup first := by
  rintro before m later rfl
  exact h before m (later ++ second) (List.append_assoc _ _ _)

theorem withinLimits_act (setup : Setup) {s : Session} (h : s.WithinLimits) {a : Act}
    (ha : ∀ m, a = .edit (.applyMessage (some m)) → m.Fits s.composer) :
    (s.act setup a).1.WithinLimits where
  composer := (act_withinLimits_iff setup h.composer a).mpr ha
  bodies body hbody := by
    rcases act_bodies setup s a with hsame | ⟨last, hlast, hmore⟩
    · exact h.bodies body (hsame ▸ hbody)
    · rw [hmore] at hbody
      rcases List.mem_append.mp hbody with hold | hnew
      · exact h.bodies body hold
      · rw [List.mem_singleton.mp hnew]
        exact WireBody.withinLimits_build h.composer hlast

theorem withinLimits_after (setup : Setup) (acts : List Act) {s : Session}
    (h : s.WithinLimits) (hfit : s.TakenFit setup acts) : (s.after setup acts).WithinLimits := by
  induction acts generalizing s with
  | nil => exact h
  | cons a rest ih =>
      obtain ⟨hhead, htail⟩ := takenFit_cons.mp hfit
      exact ih (withinLimits_act setup h hhead) htail

theorem withinLimits_start (defaults : Mention.Defaults) (builders : Builders) :
    (start defaults builders).WithinLimits where
  composer := ⟨Nat.zero_le _, Nat.zero_le _⟩
  bodies := by rintro body ⟨⟩

end Session

/-- The limits on embeds and rows hold in all states that a message and its requests go through,
and of all bodies made of it, exactly if each message that is taken over fits when it is: the
adders refuse what would exceed a limit, but a message is taken over uncounted. -/
theorem limits_hold_iff_taken_fit (setup : Setup) (defaults : Mention.Defaults)
    (builders : Builders) (acts : List Act) :
    let s₀ := Session.start defaults builders
    (s₀.TakenFit setup acts ↔
      ∀ before later, acts = before ++ later → (s₀.after setup before).WithinLimits) ∧
    (∀ steps, acts = s₀.acts setup steps → s₀.after setup acts = (s₀.run setup steps).1) := by
  intro s₀
  refine ⟨⟨?_, ?_⟩, ?_⟩
  · rintro hfit before later rfl
    exact Session.withinLimits_after setup before (Session.withinLimits_start _ _) hfit.left
  · -- The limits hold before and behind each message that is taken over, so that it fits.
    intro hlimits before m later hacts
    have hbefore := hlimits before _ hacts
    have happlied := hlimits (before ++ [.edit (.applyMessage (some m))]) later (by
      rw [hacts, List.append_assoc]
      rfl)
    rw [Session.after_append] at happlied
    exact (Session.act_withinLimits_iff setup hbefore.composer _).mp happlied.composer m rfl
  · rintro steps rfl
    exact Session.after_acts setup steps s₀

theorem taken_tenth_embed_fits :
    let setup : Setup := { route := .followUp "7" "token", channel := .ofText "1" }
    let embed := Element.fixed (.object [])
    let message : Template := {
      content := .ofText "copied"
      tts := .ofBool false
      embeds := .elements [embed]
      rows := .elements [embed] }
    let acts : List Act := [.edit (.addEmbeds (.elements (.replicate 9 (some embed)))),
      .edit (.applyMessage (some message))]
    let s₀ := Session.start {} .unset
    s₀.TakenFit setup acts ∧ (s₀.after setup acts).WithinLimits := by
  intro setup embed message acts s₀
  have hfits : message.Fits (s₀.act setup (.edit (.addEmbeds (.elements
      (.replicate 9 (some embed)))))).1.composer := ⟨Nat.le_refl 10, Nat.le_add_left 1 4⟩
  have hfit : s₀.TakenFit setup acts := by
    refine Session.takenFit_cons.mpr ⟨?_, Session.takenFit_cons.mpr ⟨?_, Session.takenFit_nil _ _⟩⟩
    · rintro m ⟨⟩
    · rintro m ⟨⟩
      exact hfits
  exact ⟨hfit, (limits_hold_iff_taken_fit setup {} .unset acts).1.mp hfit acts []
    (List.append_nil _).symm⟩

/-- A message that is taken over by a full one is not refused, and the next body exceeds both
limits. -/
theorem taken_message_exceeds_limits :
    let element := Element.fixed (.object [])
    let message : Template := {
      content := .ofText "copied"
      tts := .ofBool false
      embeds := .elements [element]
      rows := .elements [element] }
    let steps : List Session.Step := [.edit (.addEmbeds (.elements (.replicate 10 (some element)))),
      .edit (.addRows (.replicate 5 (some element))), .edit (.applyMessage (some message)),
      .finalize]
    let run := (Session.start {} .unset).run
      { route := .followUp "7" "token", channel := .ofText "1" } steps
    run.2 = [.ok (), .ok (), .ok (), .ok ()] ∧
      run.1.composer.embeds.length = 11 ∧ run.1.composer.rows.length = 6 ∧
      ∃ body, run.1.bodies = [body] ∧ (body.payload.embeds.getD []).length = 11 ∧
        (body.payload.rows.getD []).length = 6 := by
  intro element message steps run
  exact ⟨rfl, rfl, rfl, _, rfl, rfl, rfl⟩

end Courier
