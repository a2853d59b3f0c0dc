import Mathlib.Data.List.Nodup
import Courier.Proofs.WireBody

namespace Courier

def Part.name : Part → String
  | .file name _ _ _ => name
  | .field name _ => name

/-- The file of a part, with the number that stands behind the common beginning of the names. -/
def Part.numbered? : Part → Option (Attachment × Nat)
  | .file name (some filename) _ source =>
    some (⟨filename, source⟩, Nat.ofDigitChars 10 (name.toList.drop "file".length) 0)
  | .file _ none _ _ => none
  | .field _ _ => none

/-- The files of some parts, sorted by the numbers in the names of the parts. -/
def Part.files (parts : List Part) : List Attachment :=
  ((parts.filterMap numbered?).mergeSort fun a b => decide (a.2 ≤ b.2)).map Prod.fst

/-- Every field that a draft cannot be without has a value. -/
structure Draft.IsComplete (d : Draft) : Prop where
  content : d.content.isSome
  tts : d.tts.isSome
  allowedMentions : d.allowedMentions.isSome

/-- Whether the payload of a complete draft has a member of this name. -/
def Draft.shows (d : Draft) : String → Bool
  | "username" => d.username.isSome
  | "avatar_url" => d.avatarUrl.isSome
  | "flags" => d.ephemeral.isOn
  | "embeds" => ! d.embeds.isEmpty
  | "components" => ! d.rows.isEmpty
  | _ => true

def Payload.keys : List String :=
  ["content", "tts", "username", "avatar_url", "flags", "embeds", "components",
    "allowed_mentions"]

namespace WireBody

theorem ofDigitChars_fileName (i : Nat) :
    Nat.ofDigitChars 10 ((fileName i).toList.drop "file".length) 0 = i := by
  have hname : (fileName i).toList = "file".toList ++ Nat.toDigits 10 i := by
    rw [fileName, String.toList_append, Nat.toList_repr]
  rw [hname, ← String.length_toList, List.drop_left]
  exact Nat.ofDigitChars_ten_toDigits

theorem fileName_injective : Function.Injective fileName := fun i j h => by
  rw [← ofDigitChars_fileName i, h, ofDigitChars_fileName]

theorem fileName_ne_payloadField (i : Nat) : fileName i ≠ payloadField := by
  intro h
  have hchars : "file".toList ++ i.repr.toList = payloadField.toList := by
    rw [← String.toList_append]
    exact congrArg String.toList h
  have hhead : 'f' = 'p' := (List.cons.inj hchars).1
  exact absurd hhead (by decide)

theorem names_fileParts (start : Nat) (files : List Attachment) :
    (fileParts start files).map Part.name = (List.range' start files.length).map fileName := by
  induction files generalizing start with
  | nil => rfl
  | cons a rest ih => exact congrArg (fileName start :: ·) (ih (start + 1))

theorem numbered_fileParts (start : Nat) (files : List Attachment) :
    (fileParts start files).filterMap Part.numbered? = files.zipIdx start := by
  induction files generalizing start with
  | nil => rfl
  | cons a rest ih =>
      have hhead : Part.numbered? (.file (fileName start) (some a.name) MediaType.octetStream
          a.source) = some (a, start) := by
        rw [Part.numbered?, ofDigitChars_fileName]
      rw [fileParts, List.filterMap_cons_some hhead, ih, List.zipIdx_cons]

variable {builders : Builders} {d : Draft} {files : List Attachment} {body : WireBody}

theorem nodup_names_of_build (h : build builders d files = .ok body) :
    (body.parts.map Part.name).Nodup := by
  by_cases hfiles : files = []
  · subst hfiles
    rw [parts_of_build_nil h]
    exact List.nodup_nil
  · rw [parts_of_build h hfiles, List.map_append, names_fileParts]
    refine List.nodup_append.mpr ⟨?_, List.nodup_singleton _, ?_⟩
    · exact List.Nodup.map fileName_injective List.nodup_range'
    · intro name hname other hother
      obtain ⟨i, -, rfl⟩ := List.mem_map.mp hname
      rw [List.mem_singleton.mp hother]
      exact fileName_ne_payloadField i

theorem name_ne_of_file_mem (h : build builders d files = .ok body) {name mediaType : String}
    {filename : Given} {source : ByteSource}
    (hfile : .file name filename mediaType source ∈ body.parts) : name ≠ payloadField := by
  by_cases hfiles : files = []
  · subst hfiles
    rw [parts_of_build_nil h] at hfile
    cases hfile
  · rw [parts_of_build h hfiles, List.mem_append, List.mem_singleton] at hfile
    have hmem : Part.file name filename mediaType source ∈ fileParts 0 files := by
      simpa using hfile
    have hname := List.mem_map_of_mem (f := Part.name) hmem
    rw [names_fileParts] at hname
    obtain ⟨i, -, hi⟩ := List.mem_map.mp hname
    exact fun heq => fileName_ne_payloadField i (hi.trans heq)

theorem numbered_of_build (h : build builders d files = .ok body) :
    body.parts.filterMap Part.numbered? = files.zipIdx := by
  by_cases hfiles : files = []
  · subst hfiles
    rw [parts_of_build_nil h]
    rfl
  · rw [parts_of_build h hfiles, List.filterMap_append, numbered_fileParts]
    exact List.append_nil _

theorem eq_json_iff_of_build (h : build builders d files = .ok body) :
    body = .json body.payload ↔ files.length = 0 := by
  rw [List.length_eq_zero_iff, ← not_iff_not]
  refine Iff.trans ?_ (isMultipart_of_build h)
  cases body <;> simp [isMultipart, payload]

end WireBody

theorem pairwise_zipIdx {α : Type} (items : List α) (start : Nat) :
    (items.zipIdx start).Pairwise fun a b => a.2 ≤ b.2 := by
  apply List.pairwise_map.mp
  rw [List.zipIdx_map_snd]
  exact List.pairwise_le_range' 1

theorem mergeSort_eq_zipIdx {α : Type} {items : List α} {shuffled : List (α × Nat)}
    (h : shuffled.Perm items.zipIdx) :
    shuffled.mergeSort (fun a b => decide (a.2 ≤ b.2)) = items.zipIdx := by
  have hsorted : (shuffled.mergeSort fun a b => decide (a.2 ≤ b.2)).Pairwise
      fun a b => decide (a.2 ≤ b.2) = true := by
    refine List.pairwise_mergeSort (fun a b c hab hbc => ?_) (fun a b => ?_) shuffled
    · exact decide_eq_true (Nat.le_trans (of_decide_eq_true hab) (of_decide_eq_true hbc))
    · rw [Bool.or_eq_true]
      exact (Nat.le_total a.2 b.2).imp decide_eq_true decide_eq_true
  have hperm := (List.mergeSort_perm shuffled fun a b => decide (a.2 ≤ b.2)).trans h
  refine hperm.eq_of_pairwise ?_ hsorted ?_
  · -- No number is given twice, so an item is determined by its number.
    intro a b ha hb hab hba
    have hnodup : (items.zipIdx.map Prod.snd).Nodup := by
      rw [List.zipIdx_map_snd]
      exact List.nodup_range'
    exact List.inj_on_of_nodup_map hnodup (hperm.mem_iff.mp ha) hb
      (Nat.le_antisymm (of_decide_eq_true hab) (of_decide_eq_true hba))
  · exact (pairwise_zipIdx items 0).imp decide_eq_true

theorem Part.files_of_perm {builders : Builders} {d : Draft} {files : List Attachment}
    {body : WireBody} (h : WireBody.build builders d files = .ok body) {parts : List Part}
    (hparts : parts.Perm body.parts) : Part.files parts = files := by
  have hnumbered := hparts.filterMap Part.numbered?
  rw [WireBody.numbered_of_build h] at hnumbered
  rw [Part.files, mergeSort_eq_zipIdx hnumbered, List.zipIdx_map_fst]

namespace Payload

theorem keys_member {α : Type} {key : String} {f : α → Json} {value : Option α}
    {shown : String → Bool} (h : value.isSome = shown key) :
    (member key f value).map Prod.fst = [key].filter shown := by
  cases value <;> simp_all [member]

theorem isSome_listed {builders : Builders} {elements : List Element} {items : List Built}
    (h : resolveAll builders elements = .ok items) :
    (listed items).isSome = ! elements.isEmpty := by
  have hlength := length_of_resolveAll h
  cases items <;> cases elements <;> simp_all [listed]

theorem keys_of_ofDraft {builders : Builders} {d : Draft} {p : Payload}
    (hp : ofDraft builders d = .ok p) (h : d.IsComplete) :
    p.members.map Prod.fst = keys.filter d.shows := by
  obtain ⟨embeds, rows, hembeds, hrows, rfl⟩ := ofDraft_eq_ok_iff.mp hp
  have hkeys : keys = ["content"] ++ ["tts"] ++ ["username"] ++ ["avatar_url"] ++ ["flags"] ++
      ["embeds"] ++ ["components"] ++ ["allowed_mentions"] := rfl
  have hcontent : (ofBuilt d embeds rows).content.isSome = d.shows "content" := h.content
  have htts : (ofBuilt d embeds rows).tts.isSome = d.shows "tts" := h.tts
  have husername : (ofBuilt d embeds rows).username.isSome = d.shows "username" := rfl
  have havatarUrl : (ofBuilt d embeds rows).avatarUrl.isSome = d.shows "avatar_url" := rfl
  have hflags : (ofBuilt d embeds rows).flags.isSome = d.shows "flags" := by
    rw [ofBuilt, Draft.shows]
    split <;> simp_all
  have hembeds : (ofBuilt d embeds rows).embeds.isSome = d.shows "embeds" := isSome_listed hembeds
  have hrows : (ofBuilt d embeds rows).rows.isSome = d.shows "components" := isSome_listed hrows
  have hmentions : (ofBuilt d embeds rows).allowedMentions.isSome = d.shows "allowed_mentions" :=
    h.allowedMentions
  rw [hkeys, members]
  simp only [List.map_append, List.filter_append]
  rw [keys_member hcontent, keys_member htts, keys_member husername, keys_member havatarUrl,
    keys_member hflags, keys_member hembeds, keys_member hrows, keys_member hmentions]

end Payload

/-- A body shows what it was made of. Its payload is the one of the draft, with or without files,
and has just the members that the draft calls for. Its parts have different names, and from these
the files are recovered with their names and sources, however the parts were shuffled. A body is made
exactly if there is a payload, which beside files must have a text. -/
theorem files_recovered_from_parts (builders : Builders) (d : Draft) (files : List Attachment) :
    ((∃ body, WireBody.build builders d files = .ok body) ↔
      ∃ payload, Payload.ofDraft builders d = .ok payload ∧ (files ≠ [] →
        payload.writing = .ok () ∧ Text.units16 payload.toJson.write ≤ 536870888)) ∧
    ∀ body, WireBody.build builders d files = .ok body →
      Payload.ofDraft builders d = .ok body.payload ∧
      (body = .json body.payload ↔ files.length = 0) ∧
      (files ≠ [] → body.Carries files body.payload.toJson.write) ∧
      (body.parts.map Part.name).Nodup ∧
      (∀ name filename mediaType source,
        .file name filename mediaType source ∈ body.parts → name ≠ "payload_json") ∧
      (∀ parts : List Part, parts.Perm body.parts → Part.files parts = files) ∧
      (d.IsComplete → body.payload.members.map Prod.fst = Payload.keys.filter d.shows) := by
  constructor
  · rw [WireBody.exists_build_iff]
    simp only [Payload.text_eq_ok_iff, exists_and_left, exists_eq, and_true]
    rfl
  · intro body h
    have hpayload := WireBody.payload_of_build h
    exact ⟨hpayload, WireBody.eq_json_iff_of_build h, WireBody.carries_of_build h,
      WireBody.nodup_names_of_build h, fun _ _ _ _ hfile => WireBody.name_ne_of_file_mem h hfile,
      fun _ hparts => Part.files_of_perm h hparts, Payload.keys_of_ofDraft hpayload⟩

/-- A dozen files of one name come out of reversed parts in the order in which they went in. -/
theorem equal_names_recovered :
    let files : List Attachment :=
      (List.range 12).map fun i => ⟨.string "a.txt", ⟨i, .buffer []⟩⟩
    let d : Draft := {
      username := .ofText "", ephemeral := .ofBool true, allowedMentions := some .null }
    ∃ body, WireBody.build .unset d files = .ok body ∧ body.parts.length = 13 ∧
      Part.files body.parts.reverse = files ∧
      body.payload.members.map Prod.fst =
        ["content", "tts", "username", "flags", "allowed_mentions"] := by
  intro files d
  obtain ⟨hmade, hshown⟩ := files_recovered_from_parts .unset d files
  obtain ⟨body, hbody⟩ := hmade.mpr ⟨_, rfl, fun _ => ⟨rfl, by decide⟩⟩
  obtain ⟨-, -, hcarries, -, -, hfiles, hkeys⟩ := hshown body hbody
  refine ⟨body, hbody, (hcarries (List.cons_ne_nil _ _)).length_eq,
    hfiles _ (List.reverse_perm _), ?_⟩
  exact (hkeys ⟨rfl, rfl, rfl⟩).trans (by decide)

end Courier
