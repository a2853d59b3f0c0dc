import Mathlib.Data.List.DropRight
import Courier.Proofs.Composer.WellFormed
import Courier.Proofs.Mention.Identifiers

namespace Courier

namespace Attachment

open Mention

/-- The latest of some files that has the name of this one. -/
def latest (files : List Attachment) (a : Attachment) : Attachment :=
  (files.reverse.find? (·.name.isSame a.name)).getD a

/-- The ordered map that some files make up: of each name, at the place of the first file that has
it, the latest. -/
def ordered (files : List Attachment) : List Attachment :=
  (files.eraseDupsBy fun a b => b.name.isSame a.name).map (latest files)

theorem latest_concat (files : List Attachment) (a b : Attachment) :
    latest (files ++ [a]) b = if a.name.isSame b.name then a else latest files b := by
  rw [latest, List.reverse_concat, List.find?_cons]
  cases a.name.isSame b.name <;> rfl

theorem latest_cases (files : List Attachment) (a : Attachment) :
    latest files a = a ∨ (latest files a).name.isSame a.name = true := by
  unfold latest
  cases hfind : files.reverse.find? (·.name.isSame a.name) with
  | none => exact .inl rfl
  | some b =>
      have hsame := List.find?_some hfind
      exact .inr hsame

theorem name_latest (files : List Attachment) (a : Attachment) :
    (latest files a).name = a.name := by
  rcases latest_cases files a with heq | hsame
  · rw [heq]
  · exact Json.eq_of_isSame hsame

theorem latest_concat_self (files : List Attachment) (a : Attachment) :
    latest (files ++ [a]) a = a := by
  rw [latest_concat]
  split
  · rfl
  · rename_i hnot
    rcases latest_cases files a with heq | hsame
    · exact heq
    · rw [Json.eq_of_isSame hsame] at hsame
      exact absurd hsame hnot

theorem eraseDupsBy_loop_concat {α : Type} (r : α → α → Bool) (as : List α) (a : α)
    (seen : List α) :
    List.eraseDupsBy.loop r (as ++ [a]) seen =
      if (List.eraseDupsBy.loop r as seen).any (r a) then List.eraseDupsBy.loop r as seen
      else List.eraseDupsBy.loop r as seen ++ [a] := by
  induction as generalizing seen with
  | nil =>
      rw [List.nil_append, List.eraseDupsBy.loop, List.eraseDupsBy.loop, List.any_reverse]
      cases seen.any (r a)
      · exact List.reverse_cons
      · rfl
  | cons b rest ih =>
      rw [List.cons_append, List.eraseDupsBy.loop, List.eraseDupsBy.loop]
      cases seen.any (r b)
      · exact ih _
      · exact ih _

theorem put_eq {files : List Attachment} (h : Apart (files.map (·.name))) (a : Attachment) :
    put files a =
      if files.any (·.name.isSame a.name) then
        files.map fun b => if b.name.isSame a.name then a else b
      else files ++ [a] := by
  induction files with
  | nil => rfl
  | cons b rest ih =>
      obtain ⟨hb, hrest⟩ := List.pairwise_cons.mp h
      rw [put, List.any_cons, List.map_cons]
      cases hsame : b.name.isSame a.name with
      | true =>
          -- The others differ from `b`, and so from `a`, whose name is that of `b`.
          have hothers : rest.map (fun c => if c.name.isSame a.name then a else c) = rest := by
            refine (List.map_congr_left fun c hc => ?_).trans (List.map_id rest)
            have hdiffer : b.name.isSame c.name = false := hb c.name (List.mem_map_of_mem hc)
            rw [Json.eq_of_isSame hsame, isSame_comm] at hdiffer
            rw [hdiffer]
            rfl
          rw [hothers]
          rfl
      | false =>
          rw [ih hrest, Bool.false_or]
          cases rest.any (·.name.isSame a.name) <;> rfl

/-- With one file more the ordered map changes as the pending files do. -/
theorem ordered_concat {files : List Attachment} (h : Apart ((ordered files).map (·.name)))
    (a : Attachment) : ordered (files ++ [a]) = put (ordered files) a := by
  have hany : (ordered files).any (·.name.isSame a.name) =
      (files.eraseDupsBy fun a b => b.name.isSame a.name).any (·.name.isSame a.name) := by
    rw [ordered, List.any_map]
    exact congrArg _ (funext fun b => by rw [Function.comp, name_latest])
  rw [put_eq h, hany, ordered, List.eraseDupsBy, eraseDupsBy_loop_concat, ordered,
    List.eraseDupsBy]
  split
  · -- The name is there already: only the latest file of it is another one.
    rw [List.map_map]
    refine List.map_congr_left fun b _ => ?_
    rw [latest_concat, Function.comp, name_latest, isSame_comm]
  · rename_i hnew
    rw [List.map_append, List.map_singleton, latest_concat_self]
    refine congrArg (· ++ [a]) (List.map_congr_left fun b hb => ?_)
    rw [latest_concat, if_neg]
    intro hsame
    rw [isSame_comm] at hsame
    exact hnew (List.any_eq_true.mpr ⟨b, hb, hsame⟩)

theorem apart_map_name_put {files : List Attachment} (h : Apart (files.map (·.name)))
    (a : Attachment) : Apart ((put files a).map (·.name)) := by
  have hany : files.any (·.name.isSame a.name) = (files.map (·.name)).any (Json.isSame a.name) := by
    rw [List.any_map]
    exact congrArg _ (funext fun b => isSame_comm _ _)
  rw [map_name_put, hany]
  exact apart_addOnce h a.name

theorem apart_ordered (files : List Attachment) : Apart ((ordered files).map (·.name)) := by
  induction files using List.reverseRecOn with
  | nil => exact .nil
  | append_singleton files a ih =>
      rw [ordered_concat ih]
      exact apart_map_name_put ih a

end Attachment

namespace FileMove

def file? : FileMove → Option Attachment
  | accepted file => some file
  | takenOut => none

def acceptedSince (moves : List FileMove) : List Attachment :=
  (moves.rtakeWhile (! ·.isTakenOut)).filterMap file?

theorem acceptedSince_accepted (moves : List FileMove) (file : Attachment) :
    acceptedSince (moves ++ [accepted file]) = acceptedSince moves ++ [file] := by
  rw [acceptedSince, List.rtakeWhile_concat_pos _ _ _ rfl, List.filterMap_append]
  rfl

theorem acceptedSince_takenOut (moves : List FileMove) :
    acceptedSince (moves ++ [takenOut]) = [] := by
  rw [acceptedSince, List.rtakeWhile_concat_neg _ _ _ (by decide)]
  rfl

end FileMove

namespace Attachment

theorem length_put_le (files : List Attachment) (a : Attachment) :
    (put files a).length ≤ files.length + 1 := by
  induction files with
  | nil => exact Nat.le_refl 1
  | cons b rest ih =>
      rw [put]
      split
      · exact Nat.le_succ _
      · exact Nat.succ_le_succ ih

end Attachment

namespace Edit

theorem exists_file?_addFile_iff (name : Given) (source : Option ByteSource) (spoiler : Bool) :
    (∃ file, (Edit.addFile name source spoiler).file? = some file) ↔
      (∃ given, name.present? = some given ∧
        (spoiler = true → ∃ text, Given.text (some given) = .ok text)) ∧
      source.isSome = true := by
  cases hname : name.present? with
  | none => simp [file?, hname]
  | some given =>
      cases source with
      | none => simp [file?, hname]
      | some source =>
          cases spoiler with
          | false => simp [file?, hname, Attachment.finalName, Except.toOption]
          | true =>
              cases htext : Given.text (some given) <;>
                simp [file?, hname, Attachment.finalName, htext, Except.map, Except.toOption]

theorem exists_file?_addFile_iff_of_text {name : Given} (hname : name.IsOptionalText)
    (source : Option ByteSource) (spoiler : Bool) :
    (∃ file, (Edit.addFile name source spoiler).file? = some file) ↔
      name.present?.isSome = true ∧ source.isSome = true := by
  rw [exists_file?_addFile_iff]
  refine and_congr_left' (Iff.trans ?_ Option.isSome_iff_exists.symm)
  refine exists_congr fun given => and_iff_left_of_imp fun hgiven _ => ?_
  obtain ⟨text, rfl⟩ := hname given hgiven
  exact ⟨text, rfl⟩

end Edit

namespace Composer

theorem addFile_eq_ok_iff (name : Given) (source : Option ByteSource) (spoiler : Bool)
    (c : Composer) :
    ((edit (.addFile name source spoiler)).perform c).2 = .ok () ↔
      (∃ file, (Edit.addFile name source spoiler).file? = some file) ∧
        c.files.length < maxFiles := by
  obtain ⟨file, hfile, hcount, h⟩ | ⟨fault, hwhy, h⟩ := addFile_cases name source spoiler c
  · rw [edit, h]
    exact iff_of_true rfl ⟨⟨file, hfile⟩, hcount⟩
  · rw [edit, h]
    refine iff_of_false (by simp) ?_
    rintro ⟨⟨file, hfile⟩, hcount⟩
    rcases hwhy with hnone | hfull
    · rw [hnone] at hfile
      cases hfile
    · exact hfull hcount

theorem acceptedFile_eq_some_iff {c : Composer} {change : Edit} {file : Attachment} :
    c.acceptedFile change = some file ↔
      change.file? = some file ∧ ((edit change).perform c).2 = .ok () := by
  unfold acceptedFile
  split
  · rename_i hok
    exact ⟨fun h => ⟨h, hok⟩, And.left⟩
  · rename_i herror
    rw [herror]
    exact iff_of_false nofun fun h => nomatch h.2

theorem length_lt_of_acceptedFile {c : Composer} {change : Edit} {file : Attachment}
    (h : c.acceptedFile change = some file) : c.files.length < maxFiles := by
  obtain ⟨hfile, hok⟩ := acceptedFile_eq_some_iff.mp h
  cases change with
  | addFile name source spoiler => exact ((addFile_eq_ok_iff name source spoiler c).mp hok).2
  | _ => cases hfile

end Composer

namespace Session

open Attachment FileMove

/-- The pending files are the ordered map of what was accepted since the last finalization, and no
more than there may be. -/
structure KeepsMap (moves : List FileMove) (s : Session) : Prop where
  files : s.composer.files = ordered (acceptedSince moves)
  count : s.composer.files.length ≤ Composer.maxFiles

theorem fileMove_eq_accepted_iff {s : Session} {a : Act} {file : Attachment} :
    s.fileMove a = some (.accepted file) ↔
      ∃ change, a = .edit change ∧ s.composer.acceptedFile change = some file := by
  constructor
  · intro h
    cases a with
    | edit change =>
        obtain ⟨_, haccepted, hmove⟩ := Option.map_eq_some_iff.mp h
        cases hmove
        exact ⟨change, rfl, haccepted⟩
    | call request call => cases call <;> simp [fileMove] at h
    | _ => cases h
  · rintro ⟨change, rfl, h⟩
    rw [fileMove, h]
    rfl

theorem KeepsMap.act {moves : List FileMove} {s : Session} (h : s.KeepsMap moves)
    (setup : Setup) (a : Act) :
    (s.act setup a).1.KeepsMap (moves ++ (s.fileMove a).toList) := by
  match hmove : s.fileMove a with
  | some (.accepted file) =>
      obtain ⟨change, -, haccepted⟩ := fileMove_eq_accepted_iff.mp hmove
      have hfiles := (act_of_accepted setup hmove).1
      constructor
      · rw [hfiles, h.files, ← ordered_concat (apart_ordered _), ← acceptedSince_accepted]
        rfl
      · rw [hfiles]
        exact (length_put_le _ _).trans (Composer.length_lt_of_acceptedFile haccepted)
  | some .takenOut =>
      have hfiles := (act_of_takenOut setup hmove).1
      constructor
      · rw [hfiles, Option.toList_some, acceptedSince_takenOut]
        rfl
      · rw [hfiles]
        exact Nat.zero_le _
  | none =>
      have hfiles := (act_of_noMove setup hmove).1
      constructor
      · rw [hfiles, h.files, Option.toList_none, List.append_nil]
      · rw [hfiles]
        exact h.count

theorem KeepsMap.after {moves : List FileMove} {s : Session} (h : s.KeepsMap moves)
    (setup : Setup) (acts : List Act) :
    (s.after setup acts).KeepsMap (moves ++ s.fileMoves setup acts) := by
  induction acts generalizing s moves with
  | nil => rwa [fileMoves, trace, List.append_nil]
  | cons a rest ih =>
      rw [fileMoves, trace, ← List.append_assoc]
      exact ih (h.act setup a)

theorem keepsMap_start (defaults : Mention.Defaults) (builders : Builders) :
    (start defaults builders).KeepsMap [] where
  files := rfl
  count := Nat.zero_le _

theorem fileMove_eq_takenOut_iff {s : Session} {a : Act} :
    s.fileMove a = some .takenOut ↔
      a = .finalize ∨ ∃ request < s.requests.length, a = .call request .finalize := by
  cases a with
  | edit change => simp [fileMove_edit_ne]
  | call request call => cases call <;> simp [fileMove]
  | _ => simp [fileMove]

theorem takenOut_of_bodies_act_ne {setup : Setup} {s : Session} {a : Act}
    (h : (s.act setup a).1.bodies ≠ s.bodies) : s.fileMove a = some .takenOut := by
  by_contra hother
  rw [bodies_act, result?_eq_none hother] at h
  exact h (List.append_nil _)

end Session

open Session in
/-- The pending files are the ordered map of the files that were accepted since the last
finalization, at most ten, of which no two have the same name. A file is accepted exactly if it has a
name and a source and fewer than ten are pending, even if one of its name is; its final name has the
mark in front exactly if the first option asks for it. Once the message is finalized no file is
pending, also if no body could be made. -/
theorem pending_files_ordered (setup : Setup) (defaults : Mention.Defaults) (builders : Builders)
    (acts : List Act) :
    let s₀ := Session.start defaults builders
    let s := s₀.after setup acts
    let pending := Attachment.ordered (FileMove.acceptedSince (s₀.fileMoves setup acts))
    s.composer.files = pending ∧
    Mention.Apart (pending.map (·.name)) ∧
    pending.length ≤ 10 ∧
    (∀ name source options,
      let add := Act.edit (.addFile name source (Attachment.isMarked options))
      (s.act setup add).2 = .ok () ↔
        ((∃ given, name.present? = some given ∧
          (options.head? = some (.string "spoiler") → ∃ text, Given.text (some given) = .ok text)) ∧
        source.isSome = true) ∧ pending.length < 10) ∧
    (∀ name source options, name.IsOptionalText →
      let add := Act.edit (.addFile name source (Attachment.isMarked options))
      (s.act setup add).2 = .ok () ↔
        (name.present?.isSome = true ∧ source.isSome = true) ∧ pending.length < 10) ∧
    (∀ text source options,
      let add := Act.edit (.addFile (.ofText text) (some source) (Attachment.isMarked options))
      (s.act setup add).2 = .ok () →
        ∃ final, s.fileMove add = some (.accepted ⟨.string final, source⟩) ∧
          (options.head? = some (.string "spoiler") → final = "SPOILER_" ++ text) ∧
          (options.head? ≠ some (.string "spoiler") → final = text)) ∧
    (∀ a file, s.fileMove a = some (.accepted file) ↔
      ∃ change, a = .edit change ∧ change.file? = some file ∧ (s.act setup a).2 = .ok ()) ∧
    (∀ a, s.fileMove a = some .takenOut ↔
      a = .finalize ∨ ∃ request < s.requests.length, a = .call request .finalize) ∧
    (∀ a, (s.act setup a).1.bodies ≠ s.bodies → s.fileMove a = some .takenOut) ∧
    (∀ a, s.fileMove a = some .takenOut → (s.act setup a).1.composer.files = []) ∧
    ∀ steps, s₀.after setup (s₀.acts setup steps) = (s₀.run setup steps).1 := by
  intro s₀ s pending
  have hmap : s.KeepsMap (s₀.fileMoves setup acts) :=
    (keepsMap_start defaults builders).after setup acts
  have haccepted (name source options) :
      (s.act setup (.edit (.addFile name source (Attachment.isMarked options)))).2 = .ok () ↔
        (∃ file, (Edit.addFile name source (Attachment.isMarked options)).file? = some file) ∧
          pending.length < 10 := by
    rw [show pending = s.composer.files from hmap.files.symm]
    exact Composer.addFile_eq_ok_iff name source _ s.composer
  refine ⟨hmap.files, Attachment.apart_ordered _, ?_, ?_, ?_, ?_, ?_, ?_, ?_, ?_, ?_⟩
  · rw [show pending = s.composer.files from hmap.files.symm]
    exact hmap.count
  · intro name source options add
    rw [haccepted, Edit.exists_file?_addFile_iff, Attachment.isMarked_iff]
  · intro name source options hname add
    rw [haccepted, Edit.exists_file?_addFile_iff_of_text hname]
  · intro text source options add hok
    refine ⟨_, fileMove_eq_accepted_iff.mpr ⟨_, rfl, Composer.acceptedFile_eq_some_iff.mpr
      ⟨Edit.file?_addFile_text text source _, hok⟩⟩, ?_, ?_⟩
    · intro hhead
      rw [(Attachment.isMarked_iff options).mpr hhead]
      rfl
    · intro hhead
      rw [if_neg (mt (Attachment.isMarked_iff options).mp hhead)]
  · intro a file
    rw [fileMove_eq_accepted_iff]
    refine exists_congr fun change => and_congr_right ?_
    rintro rfl
    exact Composer.acceptedFile_eq_some_iff
  · exact fun _ => fileMove_eq_takenOut_iff
  · exact fun _ => takenOut_of_bodies_act_ne
  · exact fun a hmove => (act_of_takenOut setup hmove).1
  · exact fun steps => after_acts setup steps s₀

/-- A file that gets the mark takes the place of the one that was given the name with the mark in
it, and a finalization takes both of the files that there are. -/
theorem marked_file_keeps_place :
    let setup : Setup := { route := .followUp "7" "token", channel := .ofText "1" }
    let add (name : String) (number : Nat) (options : List Json) : Act :=
      .edit (.addFile (.ofText name) (some ⟨number, .buffer []⟩) (Attachment.isMarked options))
    let acts := [add "SPOILER_plot.png" 0 [], add "notes.txt" 1 []]
    let marked := add "plot.png" 2 [.string "spoiler"]
    let s₀ := Session.start {} .unset
    let s := s₀.after setup acts
    let s' := s₀.after setup (acts ++ [marked])
    (s.act setup marked).2 = .ok () ∧
      s.fileMove marked = some (.accepted ⟨.string "SPOILER_plot.png", ⟨2, .buffer []⟩⟩) ∧
      s'.composer.files = [⟨.string "SPOILER_plot.png", ⟨2, .buffer []⟩⟩,
        ⟨.string "notes.txt", ⟨1, .buffer []⟩⟩] ∧
      (s'.act setup .finalize).1.composer.files = [] := by
  intro setup add acts marked s₀ s s'
  obtain ⟨-, -, -, -, htext, hfinal, -⟩ := pending_files_ordered setup {} .unset acts
  obtain ⟨hfiles, -, -, -, -, -, -, -, -, hempty, -⟩ :=
    pending_files_ordered setup {} .unset (acts ++ [marked])
  have hok : (s.act setup marked).2 = .ok () :=
    (htext (.ofText "plot.png") (some ⟨2, .buffer []⟩) [.string "spoiler"]
      (Given.isOptionalText_ofText "plot.png")).mpr ⟨⟨rfl, rfl⟩, by decide⟩
  obtain ⟨final, hmove, hmarked, -⟩ := hfinal "plot.png" ⟨2, .buffer []⟩ [.string "spoiler"] hok
  have hmoves : s₀.fileMoves setup (acts ++ [marked]) = [
      .accepted ⟨.string "SPOILER_plot.png", ⟨0, .buffer []⟩⟩,
      .accepted ⟨.string "notes.txt", ⟨1, .buffer []⟩⟩,
      .accepted ⟨.string "SPOILER_plot.png", ⟨2, .buffer []⟩⟩] := rfl
  refine ⟨hok, ?_, ?_, ?_⟩
  · rw [hmarked rfl] at hmove
    exact hmove
  · rw [hfiles, hmoves]
    rfl
  · dsimp only [s', s₀]
    exact hempty .finalize rfl

end Courier
