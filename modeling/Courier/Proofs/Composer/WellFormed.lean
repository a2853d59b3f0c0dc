import Courier.Proofs.Attachment.Conservation
import Courier.Proofs.Composer.Field
import Courier.Proofs.Requirement

namespace Courier

def Json.IsString (value : Json) : Prop :=
  ∃ s, value = .string s

def Given.IsOptionalText (given : Given) : Prop :=
  ∀ v ∈ given.present?, v.IsString

theorem Given.isOptionalText_ofText (s : String) : (Given.ofText s).IsOptionalText := by
  rintro v ⟨⟩
  exact ⟨s, rfl⟩

namespace Edit

/-- What a change gives where a text is wanted. -/
def texts : Edit → List Given
  | setContent content => [content]
  | setUsername name => [name]
  | setAvatarUrl url => [url]
  | addFile name _ _ => [name]
  | applyMessage (some m) => [m.content]
  | _ => []

def GivesTexts (change : Edit) : Prop :=
  ∀ given ∈ change.texts, given.IsOptionalText

end Edit

def Given.IsUsername (given : Given) : Prop :=
  given = none ∨ ∃ s, given = .ofText s ∧ 1 ≤ Text.units16 s ∧ Text.units16 s ≤ 128

def Given.IsAvatarUrl (given : Given) : Prop :=
  given = none ∨ ∃ s, given = .ofText s ∧ s ≠ ""

namespace Composer

/-- No more than ten names, all of them different texts. -/
structure AreFileNames (names : List Json) : Prop where
  count : names.length ≤ 10
  strings : ∀ name ∈ names, name.IsString
  nodup : names.Nodup

structure IsWellFormed (c : Composer) : Prop where
  content : c.content.IsString
  username : c.username.IsUsername
  avatarUrl : c.avatarUrl.IsAvatarUrl
  attachmentNames : AreFileNames c.attachmentNames

end Composer

theorem Json.isString_getD {given : Given} (h : given.IsOptionalText) :
    (given.present?.getD (.string "")).IsString := by
  cases hpresent : given.present? with
  | none => exact ⟨"", rfl⟩
  | some v => exact h v hpresent

theorem Given.isAvatarUrl_normalize {url : Given} (h : url.IsOptionalText) :
    (normalizeAvatarUrl url).IsAvatarUrl := by
  unfold normalizeAvatarUrl
  split
  · rename_i hon
    match url with
    | some .null => cases hon
    | some (.string s) =>
        refine .inr ⟨s, rfl, ?_⟩
        rintro rfl
        cases hon
    | some (.bool _) | some (.number _) | some (.array _) | some (.object _) =>
        obtain ⟨s, hs⟩ := h _ rfl
        cases hs
  · exact .inl rfl

namespace Attachment

theorem map_name_put (files : List Attachment) (a : Attachment) :
    (put files a).map (·.name) =
      if files.any (·.name.isSame a.name) then files.map (·.name)
      else files.map (·.name) ++ [a.name] := by
  induction files with
  | nil => rfl
  | cons b rest ih =>
      by_cases hsame : b.name.isSame a.name = true
      · rw [put, if_pos hsame, List.any_cons, hsame, Bool.true_or, if_pos rfl, List.map_cons,
          List.map_cons, Json.eq_of_isSame hsame]
      · rw [put, if_neg hsame, List.map_cons, ih, List.any_cons, Bool.eq_false_iff.mpr hsame,
          Bool.false_or]
        split <;> rfl

theorem isString_finalName {name final : Json} {spoiler : Bool} (hname : name.IsString)
    (h : finalName name spoiler = .ok final) : final.IsString := by
  unfold finalName at h
  split at h
  · obtain ⟨s, rfl⟩ := hname
    cases h
    exact ⟨_, rfl⟩
  · cases h
    exact hname

end Attachment

theorem Edit.isString_file_name {change : Edit} (h : change.GivesTexts) {file : Attachment}
    (hfile : change.file? = some file) : file.name.IsString := by
  cases change with
  | addFile name source spoiler =>
      simp only [Edit.file?, Option.bind_eq_bind, Option.bind_eq_some_iff, Option.some.injEq] at hfile
      obtain ⟨given, hgiven, _, rfl, final, hfinal, rfl⟩ := hfile
      cases hname : Attachment.finalName given spoiler with
      | error cause =>
          rw [hname] at hfinal
          cases hfinal
      | ok name =>
          rw [hname] at hfinal
          cases hfinal
          exact Attachment.isString_finalName (h _ List.mem_cons_self given hgiven) hname
  | _ => cases hfile

namespace Composer

open Mutator

theorem AreFileNames.put {files : List Attachment} (h : AreFileNames (files.map (·.name)))
    {a : Attachment} (hcount : files.length < maxFiles) (hname : a.name.IsString) :
    AreFileNames ((Attachment.put files a).map (·.name)) := by
  rw [Attachment.map_name_put]
  split
  · exact h
  · rename_i hnew
    obtain ⟨s, hs⟩ := hname
    -- Names that are no texts could be equal and still count as different.
    have hfresh : a.name ∉ files.map (·.name) := by
      intro hmem
      obtain ⟨b, hb, hbname⟩ := List.mem_map.mp hmem
      refine hnew (List.any_eq_true.mpr ⟨b, hb, ?_⟩)
      rw [hbname, hs]
      exact decide_eq_true rfl
    constructor
    · rw [List.length_append, List.length_map]
      exact hcount
    · intro name hmem
      rcases List.mem_append.mp hmem with hold | hlast
      · exact h.strings name hold
      · exact ⟨s, (List.mem_singleton.mp hlast).trans hs⟩
    · exact List.nodup_append.mpr ⟨h.nodup, List.pairwise_singleton _ _, fun b hb b' hb' heq =>
        hfresh (by rwa [← List.mem_singleton.mp hb', ← heq])⟩

theorem checkUsername_eq_ok_iff (name : String) :
    checkUsername (.ofText name) = .ok () ↔
      1 ≤ Text.units16 name ∧ Text.units16 name ≤ 128 := by
  rw [← Requirement.notEmpty_eq_ok_iff "Name", ← Requirement.notLonger_eq_ok_iff "Name"]
  change (Requirement.notEmpty "Name" (.ofText name) >>= fun _ =>
    Requirement.notLonger "Name" usernameLimit (.ofText name)) = .ok () ↔ _
  cases Requirement.notEmpty "Name" (.ofText name) with
  | error fault => simp [bind, Except.bind]
  | ok _ => simp [bind, Except.bind, usernameLimit, maxUsernameLength]

theorem isUsername_of_check {name : Given} (h : name.IsOptionalText)
    (hcheck : checkUsername name = .ok ()) : Given.IsUsername name.present? := by
  cases hpresent : name.present? with
  | none => exact .inl rfl
  | some v =>
      obtain ⟨s, rfl⟩ := h v hpresent
      refine .inr ⟨s, rfl, (checkUsername_eq_ok_iff s).mp ?_⟩
      have hsame : checkUsername name = checkUsername (.ofText s) := by
        rw [checkUsername, hpresent]
        rfl
      rw [← hsame]
      exact hcheck

/-- Applying a message replaces the content, unless the message is refused before. -/
theorem applyMessage_content (m : Template) (c : Composer) :
    ((applyMessage (some m)).perform c).1.content = c.content ∨
      ((applyMessage (some m)).perform c).1.content = m.content.present?.getD (.string "") := by
  rw [perform_applyMessage]
  split
  · exact .inl rfl
  · split
    · exact .inl rfl
    · split
      · exact .inl rfl
      · exact .inr rfl

namespace IsWellFormed

variable {c : Composer} {change : Edit}

theorem edit_content (h : c.content.IsString) (htexts : change.GivesTexts) :
    ((edit change).perform c).1.content.IsString := by
  refine edit_of_field .content h fun hmem => ?_
  cases change with
  | setContent content => exact Json.isString_getD (htexts content List.mem_cons_self)
  | applyMessage message =>
      cases message with
      | none => exact h
      | some m =>
          change ((applyMessage (some m)).perform c).1.content.IsString
          rcases applyMessage_content m c with heq | heq
          · rw [heq]
            exact h
          · rw [heq]
            exact Json.isString_getD (htexts m.content List.mem_cons_self)
  | choose choice => exact absurd (Edit.fields_choose_subset choice hmem) (by decide)
  | _ => simp [Edit.fields] at hmem

theorem edit_username (h : c.username.IsUsername) (htexts : change.GivesTexts) :
    ((edit change).perform c).1.username.IsUsername := by
  refine edit_of_field .username h fun hmem => ?_
  cases change with
  | setUsername name =>
      change ((setUsername name).perform c).1.username.IsUsername
      rw [setUsername, perform_check_bind]
      split
      · rename_i hcheck
        exact isUsername_of_check (htexts name List.mem_cons_self) hcheck
      · exact h
  | choose choice => exact absurd (Edit.fields_choose_subset choice hmem) (by decide)
  | _ => simp [Edit.fields] at hmem

theorem edit_avatarUrl (h : c.avatarUrl.IsAvatarUrl) (htexts : change.GivesTexts) :
    ((edit change).perform c).1.avatarUrl.IsAvatarUrl := by
  refine edit_of_field .avatarUrl h fun hmem => ?_
  cases change with
  | setAvatarUrl url => exact Given.isAvatarUrl_normalize (htexts url List.mem_cons_self)
  | choose choice => exact absurd (Edit.fields_choose_subset choice hmem) (by decide)
  | _ => simp [Edit.fields] at hmem

theorem edit_attachmentNames (h : AreFileNames c.attachmentNames) (htexts : change.GivesTexts) :
    AreFileNames ((edit change).perform c).1.attachmentNames := by
  refine edit_of_field .files (P := fun files => AreFileNames (files.map Attachment.name)) h fun hmem => ?_
  cases change with
  | addFile name source spoiler =>
      obtain ⟨file, hfile, hcount, hadd⟩ | ⟨fault, -, hadd⟩ := addFile_cases name source spoiler c
      · rw [edit, hadd]
        exact h.put hcount (Edit.isString_file_name htexts hfile)
      · rw [edit, hadd]
        exact h
  | choose choice => exact absurd (Edit.fields_choose_subset choice hmem) (by decide)
  | _ => simp [Edit.fields] at hmem

theorem edit (h : c.IsWellFormed) (htexts : change.GivesTexts) :
    ((Composer.edit change).perform c).1.IsWellFormed where
  content := edit_content h.content htexts
  username := edit_username h.username htexts
  avatarUrl := edit_avatarUrl h.avatarUrl htexts
  attachmentNames := edit_attachmentNames h.attachmentNames htexts

theorem finalize (h : c.IsWellFormed) (builders : Builders) :
    (c.finalize builders).composer.IsWellFormed where
  content := h.content
  username := h.username
  avatarUrl := h.avatarUrl
  attachmentNames := ⟨Nat.zero_le _, by rintro name ⟨⟩, List.nodup_nil⟩

end IsWellFormed

end Composer

end Courier
