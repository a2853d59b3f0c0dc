import Courier.Proofs.Composer.WellFormed
import Courier.Proofs.Session.Limits

namespace Courier

namespace WireBody

/-- The parts are files under different names, numbered without a gap, and then the payload. -/
structure IsArranged (body : WireBody) (count : Nat) : Prop where
  one_le : 1 ≤ count
  le_ten : count ≤ 10
  length_eq : body.parts.length = count + 1
  file : ∀ i < count, ∃ filename source, body.parts[i]? =
    some (.file ("file" ++ i.repr) (.ofText filename) "application/octet-stream" source)
  payload : ∃ text, body.parts[count]? = some (.field "payload_json" text)
  nodup : (body.files.map Prod.fst).Nodup

/-- All fields of the body are there and within their limits, or are missing; the flag says whether
only the addressee sees the message. -/
structure IsWellFormed (body : WireBody) (ephemeral : Bool) : Prop where
  content : ∃ s, body.payload.content = .ofText s
  username : body.payload.username.IsUsername
  avatarUrl : body.payload.avatarUrl.IsAvatarUrl
  flags : body.payload.flags = if ephemeral then some 64 else none
  embeds : body.payload.embeds ≠ some []
  rows : body.payload.rows ≠ some []
  json : body.isMultipart = false → body.parts = []
  multipart : body.isMultipart = true → ∃ count, body.IsArranged count

theorem IsWellFormed.isSome_flags {body : WireBody} {ephemeral : Bool}
    (h : body.IsWellFormed ephemeral) : body.payload.flags.isSome = ephemeral := by
  rw [h.flags]
  cases ephemeral <;> rfl

theorem isArranged_build {builders : Builders} {d : Draft} {files : List Attachment}
    {body : WireBody} (h : build builders d files = .ok body) (hfiles : files ≠ [])
    (hnames : Composer.AreFileNames (files.map (·.name))) : body.IsArranged files.length := by
  have hcarries := carries_of_build h hfiles
  constructor
  · exact List.length_pos_iff.mpr hfiles
  · simpa using hnames.count
  · exact hcarries.length_eq
  · intro i hi
    obtain ⟨name, hname⟩ := hnames.strings files[i].name (List.mem_map_of_mem (List.getElem_mem hi))
    refine ⟨name, files[i].source, ?_⟩
    rw [hcarries.file i files[i] (List.getElem?_eq_getElem hi), hname]
    rfl
  · exact ⟨_, hcarries.payload⟩
  · have hfst : body.files.map Prod.fst = (files.map (·.name)).map some := by
      rw [files_of_build h, List.map_map, List.map_map]
      rfl
    rw [hfst]
    exact List.Pairwise.map some (fun _ _ hne h => hne (Option.some.inj h)) hnames.nodup

theorem isWellFormed_build {c : Composer} (h : c.IsWellFormed) {builders : Builders}
    {body : WireBody} (hbody : build builders c.draft c.files = .ok body) :
    body.IsWellFormed c.ephemeral.isOn := by
  obtain ⟨embeds, rows, -, -, hpayload⟩ := Payload.ofDraft_eq_ok_iff.mp (payload_of_build hbody)
  constructor
  · obtain ⟨s, hs⟩ := h.content
    exact ⟨s, by rw [hpayload]; exact congrArg some hs⟩
  · rw [hpayload]
    exact h.username
  · rw [hpayload]
    exact h.avatarUrl
  · rw [hpayload]
    rfl
  · rw [hpayload]
    exact Payload.listed_ne embeds
  · rw [hpayload]
    exact Payload.listed_ne rows
  · intro hjson
    cases body with
    | json payload => rfl
    | multipart payload parts => cases hjson
  · intro hmultipart
    have hfiles := (isMultipart_of_build hbody).mp hmultipart
    exact ⟨_, isArranged_build hbody hfiles h.attachmentNames⟩

end WireBody

namespace Session

variable {setup : Setup} {s : Session}

theorem isWellFormed_act (h : s.composer.IsWellFormed) {a : Act}
    (ha : ∀ change, a = .edit change → change.GivesTexts) :
    (s.act setup a).1.composer.IsWellFormed := by
  by_cases hedit : ∃ change, a = .edit change
  · obtain ⟨change, rfl⟩ := hedit
    exact h.edit (ha change rfl)
  · rcases composer_act setup s fun change heq => hedit ⟨change, heq⟩ with heq | heq
    · rw [heq]
      exact h
    · rw [heq]
      exact h.finalize s.builders

theorem isWellFormed_after {acts : List Act} (h : s.composer.IsWellFormed)
    (hacts : ∀ change, .edit change ∈ acts → change.GivesTexts) :
    (s.after setup acts).composer.IsWellFormed := by
  induction acts generalizing s with
  | nil => exact h
  | cons a rest ih =>
      have hact : (s.act setup a).1.composer.IsWellFormed :=
        isWellFormed_act h fun change heq => hacts change (heq ▸ List.mem_cons_self)
      exact ih hact fun change hmem => hacts change (List.mem_cons_of_mem a hmem)

theorem isWellFormed_start (defaults : Mention.Defaults) (builders : Builders) :
    (start defaults builders).composer.IsWellFormed where
  content := ⟨"", rfl⟩
  username := .inl rfl
  avatarUrl := .inl rfl
  attachmentNames := ⟨Nat.zero_le _, by rintro name ⟨⟩, List.nodup_nil⟩

theorem nextBody_of_bodies {a : Act} {body : WireBody}
    (h : (s.act setup a).1.bodies = s.bodies ++ [body]) : s.nextBody = .ok body := by
  rcases act_bodies setup s a with hsame | ⟨last, hlast, hmore⟩
  · rw [hsame] at h
    exact absurd (congrArg List.length h) (by simp)
  · rw [hmore] at h
    rw [← List.singleton_inj.mp (List.append_cancel_left h)]
    exact hlast

theorem mem_bodies_after {acts : List Act} {body : WireBody}
    (h : body ∈ (s.after setup acts).bodies) :
    body ∈ s.bodies ∨ ∃ before a later, acts = before ++ a :: later ∧
      ((s.after setup before).act setup a).1.bodies =
        (s.after setup before).bodies ++ [body] := by
  induction acts generalizing s with
  | nil => exact .inl h
  | cons a rest ih =>
      -- The body was there after the first act, or a later one made it.
      rcases ih h with hmem | ⟨before, b, later, rfl, hbody⟩
      · rcases act_bodies setup s a with hsame | ⟨last, -, hmore⟩
        · exact .inl (hsame ▸ hmem)
        · rw [hmore] at hmem
          rcases List.mem_append.mp hmem with hold | hnew
          · exact .inl hold
          · rw [← List.mem_singleton.mp hnew] at hmore
            exact .inr ⟨[], a, rest, rfl, hmore⟩
      · exact .inr ⟨a :: before, b, later, rfl, hbody⟩

theorem not_edit_mem_actsOfLaunch {listener : Listener} {engine : Behaviour} {change : Edit} :
    Act.edit change ∉ s.actsOfLaunch setup listener engine := by
  simp [actsOfLaunch]

theorem edit_mem_acts {steps : List Step} {change : Edit}
    (h : .edit change ∈ s.acts setup steps) : .edit change ∈ steps := by
  obtain ⟨next, hnext, s', hmem⟩ := exists_step_of_mem_acts h
  cases next with
  | edit other =>
      cases List.mem_singleton.mp hmem
      exact hnext
  | queue success failure engine => exact absurd hmem not_edit_mem_actsOfLaunch
  | submit engine =>
      rcases List.mem_append.mp hmem with hlaunch | hreject
      · exact absurd hlaunch not_edit_mem_actsOfLaunch
      · unfold rejection at hreject
        split at hreject
        · cases hreject
        · cases List.mem_singleton.mp hreject
  | _ => cases List.mem_singleton.mp hmem

theorem isWellFormed_run {defaults : Mention.Defaults} {builders : Builders} {steps : List Step}
    (htexts : ∀ change, .edit change ∈ steps → change.GivesTexts) :
    ((start defaults builders).run setup steps).1.composer.IsWellFormed := by
  rw [← after_acts]
  exact isWellFormed_after (isWellFormed_start defaults builders)
    fun change hmem => htexts change (edit_mem_acts hmem)

end Session

/-- Whatever is done with a message, refused changes and earlier bodies included: a body that is
made of it is well formed, and so is every body that was made of it before. -/
theorem bodies_well_formed (setup : Setup) (defaults : Mention.Defaults) (builders : Builders)
    (steps : List Session.Step)
    (htexts : ∀ change, Session.Step.edit change ∈ steps → change.GivesTexts) :
    let s₀ := Session.start defaults builders
    let s := (s₀.run setup steps).1
    (∀ body, (s.finalize setup).1 = .ok body → body.IsWellFormed s.composer.ephemeral.isOn) ∧
      ∀ body ∈ s.bodies, ∃ before a later, s₀.acts setup steps = before ++ a :: later ∧
        ((s₀.after setup before).act setup a).1.bodies =
          (s₀.after setup before).bodies ++ [body] ∧
        body.IsWellFormed (s₀.after setup before).composer.ephemeral.isOn := by
  intro s₀ s
  constructor
  · intro body hbody
    rw [Session.fst_finalize] at hbody
    exact WireBody.isWellFormed_build (Session.isWellFormed_run htexts) hbody
  · intro body hbody
    have hs : s = s₀.after setup (s₀.acts setup steps) := (Session.after_acts setup steps s₀).symm
    rw [hs] at hbody
    rcases Session.mem_bodies_after hbody with hnone | ⟨before, a, later, hsplit, hmade⟩
    · cases hnone
    · refine ⟨before, a, later, hsplit, hmade, ?_⟩
      have hbefore : (s₀.after setup before).composer.IsWellFormed := by
        apply Session.isWellFormed_after (Session.isWellFormed_start defaults builders)
        intro change hmem
        exact htexts change (Session.edit_mem_acts (hsplit ▸ List.mem_append_left _ hmem))
      exact WireBody.isWellFormed_build hbefore (Session.nextBody_of_bodies hmade)

/-- Two bodies around a refused name: the first carries the file, the second only the mark. -/
theorem marked_bodies_well_formed :
    let setup : Setup := { route := .followUp "7" "token", channel := .ofText "1" }
    let steps : List Session.Step := [
      .edit (.addFile (.ofText "notes.txt") (some ⟨0, .buffer []⟩) true), .finalize,
      .edit (.setUsername (.ofText "")), .edit (.setAvatarUrl (.ofText "")),
      .edit (.setEphemeral (.ofBool true)), .finalize]
    let s₀ := Session.start {} .unset
    let s := (s₀.run setup steps).1
    s.bodies.map (·.parts.length) = [2, 0] ∧
      s.bodies.map (·.payload.flags) = [none, some 64] ∧
      (∃ body, (s.finalize setup).1 = .ok body ∧ body.IsWellFormed true) ∧
      ∀ body ∈ s.bodies, body.IsWellFormed body.payload.flags.isSome := by
  intro setup steps s₀ s
  have htexts : ∀ change, Session.Step.edit change ∈ steps → change.GivesTexts := by
    intro change hmem
    have htext (s : String) : ∀ given ∈ [Given.ofText s], given.IsOptionalText :=
      List.forall_mem_singleton.mpr (Given.isOptionalText_ofText s)
    simp only [steps, List.mem_cons, Session.Step.edit.injEq, reduceCtorEq, List.not_mem_nil,
      or_false, false_or] at hmem
    rcases hmem with rfl | rfl | rfl | rfl
    · exact htext "notes.txt"
    · exact htext ""
    · exact htext ""
    · rintro given ⟨⟩
  obtain ⟨hnext, hbodies⟩ := bodies_well_formed setup {} .unset steps htexts
  have hmarked : s.composer.ephemeral.isOn = true := by decide
  have hmade : (s.finalize setup).1.isOk = true := by decide
  refine ⟨by decide, by decide, ?_, fun body hbody => ?_⟩
  · dsimp only [s, s₀] at hmarked hmade ⊢
    cases hbody : (((Session.start {} .unset).run setup steps).1.finalize setup).1 with
    | error fault =>
        rw [hbody] at hmade
        cases hmade
    | ok body => exact ⟨body, rfl, hmarked ▸ hnext body hbody⟩
  obtain ⟨before, a, later, -, -, hbody⟩ := hbodies body hbody
  rw [hbody.isSome_flags]
  exact hbody

end Courier
