import Courier.Proofs.Mention.Call

/-!
The fields of a composer, and which of them a change concerns. A change leaves all other fields
alone, and what it does to its own fields and whether it throws depends on nothing but these.
-/

namespace Courier

namespace Composer

/-- A part of a composer that changes on its own. What is left over, the defaults and the numbers of
bodies and files so far, is the record. -/
inductive Field where
  | content | tts | ephemeral | username | avatarUrl | embeds | rows | files
  | repliedUser | categories | users | roles | record
  deriving DecidableEq

namespace Field

abbrev State : Field → Type
  | content => Json
  | tts => Given
  | ephemeral => Given
  | username => Given
  | avatarUrl => Given
  | embeds => List Element
  | rows => List Element
  | files => List Attachment
  | repliedUser => Option Json
  | categories => Option Mention.CategorySet
  | users => List Json
  | roles => List Json
  | record => Mention.Defaults × Nat × Nat

end Field

def value (c : Composer) : (f : Field) → f.State
  | .content => c.content
  | .tts => c.tts
  | .ephemeral => c.ephemeral
  | .username => c.username
  | .avatarUrl => c.avatarUrl
  | .embeds => c.embeds
  | .rows => c.rows
  | .files => c.files
  | .repliedUser => c.mentions.repliedUser
  | .categories => c.mentions.categories
  | .users => c.mentions.users
  | .roles => c.mentions.roles
  | .record => (c.mentions.defaults, c.finalized, c.consumed)

def put (c : Composer) : (f : Field) → f.State → Composer
  | .content, content => { c with content }
  | .tts, tts => { c with tts }
  | .ephemeral, ephemeral => { c with ephemeral }
  | .username, username => { c with username }
  | .avatarUrl, avatarUrl => { c with avatarUrl }
  | .embeds, embeds => { c with embeds }
  | .rows, rows => { c with rows }
  | .files, files => { c with files }
  | .repliedUser, repliedUser => { c with mentions := { c.mentions with repliedUser } }
  | .categories, categories => { c with mentions := { c.mentions with categories } }
  | .users, users => { c with mentions := { c.mentions with users } }
  | .roles, roles => { c with mentions := { c.mentions with roles } }
  | .record, (defaults, finalized, consumed) =>
    { c with mentions := { c.mentions with defaults }, finalized, consumed }

@[simp]
theorem value_put (c : Composer) (f : Field) (value : f.State) : (c.put f value).value f = value := by
  cases f <;> rfl

theorem value_put_of_ne {f g : Field} (h : g ≠ f) (c : Composer) (value : f.State) :
    (c.put f value).value g = c.value g := by
  cases f <;> cases g <;> first | rfl | exact absurd rfl h

theorem ext_value {c c' : Composer} (h : ∀ f, c.value f = c'.value f) : c = c' := by
  obtain ⟨hdefaults, hcounts⟩ := Prod.mk.inj (h .record)
  obtain ⟨hfinalized, hconsumed⟩ := Prod.mk.inj hcounts
  obtain ⟨_, _, _, _, _, _, _, _, ⟨_, _, _, _, _⟩, _, _⟩ := c
  obtain ⟨_, _, _, _, _, _, _, _, ⟨_, _, _, _, _⟩, _, _⟩ := c'
  simp only [Composer.mk.injEq, Mention.Tracker.mk.injEq]
  exact ⟨h .content, h .tts, h .ephemeral, h .username, h .avatarUrl, h .embeds, h .rows,
    h .files, ⟨hdefaults, h .categories, h .users, h .roles, h .repliedUser⟩, hfinalized,
    hconsumed⟩

def Agree (fields : List Field) (c c' : Composer) : Prop :=
  ∀ f ∈ fields, c.value f = c'.value f

open Mutator

variable {α β : Type} {fields more : List Field}

/-- The mutator leaves all but some fields alone, and what comes of it and what it makes of these
fields depends on nothing else. -/
structure Confined (fields : List Field) (m : Mutator Composer α) : Prop where
  keeps : ∀ f ∉ fields, m.Keeps (·.value f)
  reads : ∀ c c', Agree fields c c' →
    (m.perform c).2 = (m.perform c').2 ∧ Agree fields (m.perform c).1 (m.perform c').1

theorem confined_check (fields : List Field) (e : Except Fault α) :
    Confined fields (liftM e) where
  keeps _ _ := keeps_check _ e
  reads _ _ h := ⟨rfl, h⟩

theorem confined_put (f : Field) (write : f.State → f.State) :
    Confined [f] (modify fun c => c.put f (write (c.value f))) where
  keeps g hg := keeps_modify fun c => value_put_of_ne (by simpa using hg) c _
  reads c c' h := by
    refine ⟨rfl, fun g hg => ?_⟩
    cases List.mem_singleton.mp hg
    simp only [perform_modify, value_put, h f hg]

namespace Confined

theorem bind {m : Mutator Composer α} {n : α → Mutator Composer β} (hm : Confined fields m)
    (hn : ∀ a, Confined fields (n a)) : Confined fields (m >>= n) where
  keeps f hf := (hm.keeps f hf).bind fun a => (hn a).keeps f hf
  reads c c' h := by
    obtain ⟨hout, hagree⟩ := hm.reads c c' h
    cases hc : m.perform c with
    | mk s outcome =>
        rw [hc] at hout hagree
        have hc' : m.perform c' = ((m.perform c').1, outcome) := Prod.ext rfl hout.symm
        cases outcome with
        | error fault =>
            rw [perform_bind_of_error hc, perform_bind_of_error hc']
            exact ⟨rfl, hagree⟩
        | ok a =>
            rw [perform_bind_of_ok hc, perform_bind_of_ok hc']
            exact (hn a).reads _ _ hagree

theorem get_bind {n : Composer → Mutator Composer β} (hn : ∀ c, Confined fields (n c))
    (hread : ∀ c c', Agree fields c c' → n c = n c') : Confined fields (get >>= n) where
  keeps f hf := (keeps_get _).bind fun c => (hn c).keeps f hf
  reads c c' h := by
    rw [perform_bind_of_ok (perform_get c), perform_bind_of_ok (perform_get c'), hread c c' h]
    exact (hn c').reads c c' h

theorem mono {m : Mutator Composer α} (hm : Confined fields m) (hsub : fields ⊆ more) :
    Confined more m where
  keeps f hf := hm.keeps f fun h => hf (hsub h)
  reads c c' h := by
    obtain ⟨hout, hagree⟩ := hm.reads c c' fun f hf => h f (hsub hf)
    refine ⟨hout, fun f hf => ?_⟩
    by_cases hmem : f ∈ fields
    · exact hagree f hmem
    · calc (m.perform c).1.value f
        _ = c.value f := hm.keeps f hmem c
        _ = c'.value f := h f hf
        _ = (m.perform c').1.value f := (hm.keeps f hmem c').symm

end Confined

end Composer

namespace Mention.Call

open Composer

def fields : Call → List Field
  | .choose (.repliedUser _) => [.repliedUser]
  | .choose (.categories _) => [.categories]
  | .choose (.mentionables _) => [.users, .roles]
  | .choose (.users _) => [.users]
  | .choose (.roles _) => [.roles]
  | .applyMessage _ => [.categories, .users, .roles, .repliedUser]

end Mention.Call

namespace Composer

open Mutator

def withCall (call : Mention.Call) (c : Composer) : Composer :=
  { c with mentions := call.effect c.mentions }

theorem value_withCall_of_not_mem {call : Mention.Call} {f : Field} (h : f ∉ call.fields)
    (c : Composer) : (c.withCall call).value f = c.value f := by
  unfold Mention.Call.fields at h
  split at h <;> cases f <;> first | rfl | simp at h

/-- What a call makes of a field depends on that field only. -/
theorem value_withCall_congr (call : Mention.Call) {c c' : Composer} {f : Field}
    (h : c.value f = c'.value f) : (c.withCall call).value f = (c'.withCall call).value f := by
  have hids {ids ids' : List Json} (more : List Json) (heq : ids = ids') :
      Mention.addAll (if call.directive?.isSome then [] else ids) more =
        Mention.addAll (if call.directive?.isSome then [] else ids') more := by
    rw [heq]
  cases f with
  | categories => exact congrArg (call.categories?.getD ·) h
  | repliedUser => exact congrArg (call.repliedUser?.getD ·) h
  | users => exact hids call.users h
  | roles => exact hids call.roles h
  | _ => exact h

theorem confined_call (call : Mention.Call) :
    Confined call.fields (onMentions (Mention.Tracker.call call)) := by
  obtain h | ⟨fault, h⟩ := Mention.Tracker.perform_cases call
  · have hperform (c : Composer) :
        (onMentions (Mention.Tracker.call call)).perform c = (c.withCall call, .ok ()) := by
      rw [onMentions, perform_onPart, h]
      rfl
    constructor
    · intro f hf c
      rw [hperform]
      exact value_withCall_of_not_mem hf c
    · intro c c' hagree
      rw [hperform, hperform]
      exact ⟨rfl, fun f hf => value_withCall_congr call (hagree f hf)⟩
  · have hperform (c : Composer) :
        (onMentions (Mention.Tracker.call call)).perform c = (c, .error fault) := by
      rw [onMentions, perform_onPart, h]
    constructor
    · intro f _ c
      rw [hperform]
    · intro c c' hagree
      rw [hperform, hperform]
      exact ⟨rfl, hagree⟩

end Composer

def Edit.fields : Edit → List Composer.Field
  | .setContent _ => [.content]
  | .setTts _ => [.tts]
  | .setEphemeral _ => [.ephemeral]
  | .setUsername _ => [.username]
  | .setAvatarUrl _ => [.avatarUrl]
  | .addEmbeds _ => [.embeds]
  | .addRows _ => [.rows]
  | .addFile _ _ _ => [.files]
  | .choose choice => (Mention.Call.choose choice).fields
  | .applyMessage _ =>
    [.content, .tts, .embeds, .rows, .categories, .users, .roles, .repliedUser]

theorem Edit.fields_choose_subset (choice : Mention.Choice) :
    (Edit.choose choice).fields ⊆ [.repliedUser, .categories, .users, .roles] := by
  cases choice <;> simp [Edit.fields, Mention.Call.fields]

namespace Composer

open Mutator

theorem perform_applyMessage (m : Template) (c : Composer) :
    (applyMessage (some m)).perform c =
      match (Mention.Tracker.applyMessage (some m.directive)).perform c.mentions with
      | (mentions, .error fault) => ({ c with mentions }, .error fault)
      | (mentions, .ok ()) =>
        match m.embeds.spread "message.embeds" with
        | .error cause => ({ c with mentions, tts := m.tts }, .error (.mismatch cause))
        | .ok embeds =>
          match m.rows.spread "message.components" with
          | .error cause =>
            ({ c with mentions, tts := m.tts, embeds := c.embeds ++ embeds },
              .error (.mismatch cause))
          | .ok rows =>
            ({ c with
              mentions, tts := m.tts, embeds := c.embeds ++ embeds, rows := c.rows ++ rows
              content := m.content.present?.getD (.string "") }, .ok ()) := by
  cases hpolicy : (Mention.Tracker.applyMessage (some m.directive)).perform c.mentions with
  | mk mentions outcome =>
      have honMentions : (onMentions (Mention.Tracker.applyMessage (some m.directive))).perform c =
          ({ c with mentions }, outcome) := by
        rw [onMentions, perform_onPart, hpolicy]
      cases outcome with
      | error fault => exact perform_bind_of_error honMentions
      | ok _ =>
          rw [applyMessage, perform_bind_of_ok honMentions]
          cases m.embeds with
          | elements embeds => cases m.rows <;> rfl
          | _ => rfl

/-- What an accepted message does. It has its lists, and its policy is accepted. -/
theorem applyMessage_of_ok {m : Template} {c c' : Composer}
    (h : (applyMessage (some m)).perform c = (c', .ok ())) :
    ∃ mentions embeds rows,
      (Mention.Tracker.applyMessage (some m.directive)).perform c.mentions = (mentions, .ok ()) ∧
      m.embeds = .elements embeds ∧ m.rows = .elements rows ∧
      c' = { c with
        mentions, tts := m.tts, embeds := c.embeds ++ embeds, rows := c.rows ++ rows
        content := m.content.present?.getD (.string "") } := by
  rw [perform_applyMessage] at h
  split at h
  · cases h
  · rename_i mentions hpolicy
    cases hembeds : m.embeds with
    | elements embeds =>
        cases hrows : m.rows with
        | elements rows =>
            rw [hembeds, hrows] at h
            cases h
            exact ⟨mentions, embeds, rows, hpolicy, rfl, rfl, rfl⟩
        | _ =>
            rw [hembeds, hrows] at h
            cases h
    | _ =>
        rw [hembeds] at h
        cases h

theorem confined_addEmbeds (embeds : Listing (Option Element)) :
    Confined [.embeds] (addEmbeds embeds) := by
  refine (confined_check _ _).bind fun embeds => Confined.get_bind ?_ ?_
  · intro c
    split
    · exact confined_put .embeds (· ++ embeds)
    · exact confined_check _ _
  · intro c c' h
    have hembeds : c.embeds = c'.embeds := h .embeds List.mem_cons_self
    rw [hembeds]

theorem confined_addRows (rows : List (Option Element)) : Confined [.rows] (addRows rows) := by
  refine (confined_check _ _).bind fun rows => Confined.get_bind ?_ ?_
  · intro c
    split
    · exact confined_put .rows (· ++ rows)
    · exact confined_check _ _
  · intro c c' h
    have hrows : c.rows = c'.rows := h .rows List.mem_cons_self
    rw [hrows]

theorem confined_addFile (name : Given) (source : Option ByteSource) (spoiler : Bool) :
    Confined [.files] (addFile name source spoiler) := by
  refine (confined_check _ _).bind fun name => (confined_check _ _).bind fun source =>
    Confined.get_bind ?_ ?_
  · intro c
    split
    · exact (confined_check _ _).bind fun name =>
        confined_put .files (Attachment.put · ⟨name, source⟩)
    · exact confined_check _ _
  · intro c c' h
    have hfiles : c.files = c'.files := h .files List.mem_cons_self
    rw [hfiles]

theorem confined_applyMessage (message : Option Template) :
    Confined (Edit.applyMessage message).fields (applyMessage message) := by
  cases message with
  | none => exact confined_check _ _
  | some m =>
      have hwrite {f : Field} (hf : f ∈ (Edit.applyMessage (some m)).fields)
          (write : f.State → f.State) :
          Confined (Edit.applyMessage (some m)).fields
            (modify fun c => c.put f (write (c.value f))) :=
        (confined_put f write).mono (List.cons_subset.mpr ⟨hf, List.nil_subset _⟩)
      refine .bind ((confined_call (.applyMessage (some m.directive))).mono ?_) fun _ => ?_
      · intro f hf
        exact List.mem_append_right [.content, .tts, .embeds, .rows] hf
      refine .bind (hwrite (f := .tts) (by simp [Edit.fields]) fun _ => m.tts) fun _ => ?_
      refine (confined_check _ _).bind fun embeds => ?_
      refine .bind (hwrite (f := .embeds) (by simp [Edit.fields]) (· ++ embeds)) fun _ => ?_
      refine (confined_check _ _).bind fun rows => ?_
      refine .bind (hwrite (f := .rows) (by simp [Edit.fields]) (· ++ rows)) fun _ => ?_
      exact hwrite (f := .content) (by simp [Edit.fields]) fun _ => m.content.present?.getD (.string "")

theorem edit_confined (change : Edit) : Confined change.fields (edit change) := by
  cases change with
  | setContent content => exact confined_put .content fun _ => content.present?.getD (.string "")
  | setTts tts => exact confined_put .tts fun _ => tts
  | setEphemeral ephemeral => exact confined_put .ephemeral fun _ => ephemeral
  | setUsername name =>
      exact (confined_check _ _).bind fun _ => confined_put .username fun _ => name.present?
  | setAvatarUrl url => exact confined_put .avatarUrl fun _ => normalizeAvatarUrl url
  | addEmbeds embeds => exact confined_addEmbeds embeds
  | addRows rows => exact confined_addRows rows
  | addFile name source spoiler => exact confined_addFile name source spoiler
  | choose choice => exact confined_call (.choose choice)
  | applyMessage message => exact confined_applyMessage message

/-- What a change does to the embeds and to the rows: it adds some to either, or it takes over those
of a message, or it leaves both alone. -/
theorem edit_lists_cases (change : Edit) :
    (∃ batch, change = .addEmbeds batch) ∨ (∃ batch, change = .addRows batch) ∨
      (∃ m, change = .applyMessage (some m)) ∨
      ((∀ m, change ≠ .applyMessage (some m)) ∧ ∀ c,
        ((edit change).perform c).1.embeds = c.embeds ∧
          ((edit change).perform c).1.rows = c.rows) := by
  have hkept (hembeds : Field.embeds ∉ change.fields) (hrows : Field.rows ∉ change.fields) (c) :
      ((edit change).perform c).1.embeds = c.embeds ∧
        ((edit change).perform c).1.rows = c.rows :=
    ⟨(edit_confined change).keeps .embeds hembeds c, (edit_confined change).keeps .rows hrows c⟩
  cases change with
  | addEmbeds batch => exact .inl ⟨batch, rfl⟩
  | addRows batch => exact .inr (.inl ⟨batch, rfl⟩)
  | applyMessage message =>
      cases message with
      | none => exact .inr (.inr (.inr ⟨by simp, fun _ => ⟨rfl, rfl⟩⟩))
      | some m => exact .inr (.inr (.inl ⟨m, rfl⟩))
  | choose choice =>
      have hsubset := Edit.fields_choose_subset choice
      exact .inr (.inr (.inr ⟨by simp, hkept (fun hmem => absurd (hsubset hmem) (by decide))
        fun hmem => absurd (hsubset hmem) (by decide)⟩))
  | _ =>
      exact .inr (.inr (.inr ⟨by simp, hkept (by simp [Edit.fields]) (by simp [Edit.fields])⟩))

/-- What holds of a field still holds after a change, if it does after those that concern it. -/
theorem edit_of_field (f : Field) {P : f.State → Prop} {c : Composer} {change : Edit}
    (h : P (c.value f))
    (hown : f ∈ change.fields → P (((edit change).perform c).1.value f)) :
    P (((edit change).perform c).1.value f) := by
  by_cases hmem : f ∈ change.fields
  · exact hown hmem
  · have hkept : ((edit change).perform c).1.value f = c.value f :=
      (edit_confined change).keeps f hmem c
    rw [hkept]
    exact h

end Composer

end Courier
