import Courier.Proofs.Composer.Field
import Courier.Proofs.Session.Act
import Courier.Proofs.Session.Report
import Courier.Proofs.WireBody

namespace Courier

/-- The file that a change is about: its final name and its source. -/
def Edit.file? : Edit → Option Attachment
  | .addFile name source spoiler => do
    let name ← name.present?
    let source ← source
    let name ← (Attachment.finalName name spoiler).toOption
    some ⟨name, source⟩
  | _ => none

theorem Attachment.isMarked_iff (options : List Json) :
    isMarked options = true ↔ options.head? = some (.string "spoiler") := by
  rw [isMarked, Option.any_eq_true]
  constructor
  · rintro ⟨first, hhead, hsame⟩
    rw [hhead, ← Json.eq_of_isSame hsame]
  · intro hhead
    exact ⟨_, hhead, by decide⟩

theorem Edit.file?_addFile_text (text : String) (source : ByteSource) (spoiler : Bool) :
    (Edit.addFile (.ofText text) (some source) spoiler).file? =
      some ⟨.string (if spoiler then Attachment.spoilerMark ++ text else text), source⟩ := by
  cases spoiler <;> rfl

namespace Composer

open Mutator

def acceptedFile (c : Composer) (change : Edit) : Option Attachment :=
  match ((edit change).perform c).2 with
  | .ok () => change.file?
  | .error _ => none

theorem addFile_cases (name : Given) (source : Option ByteSource) (spoiler : Bool)
    (c : Composer) :
    (∃ file, (Edit.addFile name source spoiler).file? = some file ∧ c.files.length < maxFiles ∧
      (addFile name source spoiler).perform c =
        ({ c with files := Attachment.put c.files file }, .ok ())) ∨
    ∃ fault, ((Edit.addFile name source spoiler).file? = none ∨ ¬ c.files.length < maxFiles) ∧
      (addFile name source spoiler).perform c = (c, .error fault) := by
  cases hname : name.present? with
  | none =>
      exact .inr ⟨_, .inl (by rw [Edit.file?, hname]; rfl),
        by rw [addFile, hname, Requirement.present]; rfl⟩
  | some given =>
      cases source with
      | none =>
          exact .inr ⟨_, .inl (by rw [Edit.file?, hname]; rfl),
            by rw [addFile, hname, Requirement.present]; rfl⟩
      | some source =>
          simp only [addFile, hname, Requirement.present, perform_bind, perform_check,
            perform_get]
          split
          · rename_i hcount
            cases hfinal : Attachment.finalName given spoiler with
            | error cause => exact .inr ⟨_, .inl (by simp [Edit.file?, hname, hfinal,
                Except.toOption]), rfl⟩
            | ok final => exact .inl ⟨⟨final, source⟩, by simp [Edit.file?, hname, hfinal,
                Except.toOption], hcount, rfl⟩
          · rename_i hfull
            exact .inr ⟨_, .inr hfull, rfl⟩

theorem addFile_files (name : Given) (source : Option ByteSource) (spoiler : Bool)
    (c : Composer) :
    ((addFile name source spoiler).perform c).1.files =
      (c.acceptedFile (.addFile name source spoiler)).elim c.files (Attachment.put c.files) := by
  obtain ⟨file, hfile, -, h⟩ | ⟨fault, -, h⟩ := addFile_cases name source spoiler c
  · rw [acceptedFile, edit, h, hfile]
    rfl
  · rw [acceptedFile, edit, h]
    rfl

theorem edit_files (change : Edit) (c : Composer) :
    ((edit change).perform c).1.files =
      (c.acceptedFile change).elim c.files (Attachment.put c.files) := by
  have hother (hfile : change.file? = none) (hfields : Field.files ∉ change.fields) :
      ((edit change).perform c).1.files =
        (c.acceptedFile change).elim c.files (Attachment.put c.files) := by
    have hnone : c.acceptedFile change = none := by
      unfold acceptedFile
      split <;> first | exact hfile | rfl
    rw [hnone]
    exact (edit_confined change).keeps .files hfields c
  cases change with
  | addFile name source spoiler => exact addFile_files name source spoiler c
  | choose choice =>
      exact hother rfl fun hmem => absurd (Edit.fields_choose_subset choice hmem) (by decide)
  | _ => exact hother rfl (by simp [Edit.fields])

end Composer

namespace Session

def fileMove (s : Session) : Act → Option FileMove
  | .edit change => (s.composer.acceptedFile change).map .accepted
  | .finalize => some .takenOut
  | .call request .finalize => if request < s.requests.length then some .takenOut else none
  | _ => none

def fileMoves (setup : Setup) : Session → List Act → List FileMove :=
  trace setup fileMove

theorem files_finalize (setup : Setup) (s : Session) :
    (s.finalize setup).2.composer.files = [] :=
  congrArg Composer.files (composer_finalize setup s)

/-- What comes of an act that finalizes the message. -/
def result? (s : Session) (a : Act) : Option (Except Fault WireBody) :=
  match s.fileMove a with
  | some .takenOut => some s.nextBody
  | _ => none

def results (setup : Setup) : Session → List Act → List (Except Fault WireBody) :=
  trace setup result?

/-- What an act does to the message and its bodies: it changes the message, or it finalizes it, or it
leaves both alone. -/
theorem act_cases (setup : Setup) (s : Session) (a : Act) :
    (∃ change, a = .edit change) ∨
      (s.fileMove a = some .takenOut ∧
        s.act setup a = ((s.finalize setup).2, s.nextBody.map fun _ => ())) ∨
      (s.fileMove a = none ∧ (s.act setup a).1.composer = s.composer ∧
        (s.act setup a).1.bodies = s.bodies) := by
  rw [← fst_finalize setup s]
  cases a with
  | edit change => exact .inl ⟨change, rfl⟩
  | setBuilder name built => exact .inr (.inr ⟨rfl, rfl, rfl⟩)
  | finalize => exact .inr (.inl ⟨rfl, rfl⟩)
  | receive listener =>
      refine .inr (.inr ⟨rfl, rfl, ?_⟩)
      rw [act, receive, bodies_record]
      exact List.append_nil _
  | call request call =>
      cases hcall : call.isReport with
      | true =>
          have ht := touches_perform setup request s hcall
          refine .inr (.inr ⟨?_, ht.composer, ht.bodies⟩)
          cases call <;> first | rfl | cases hcall
      | false =>
          cases call with
          | finalize =>
              rw [fileMove, act, perform, finalizeFor]
              by_cases hrequest : request < s.requests.length
              · rw [if_pos hrequest, List.getElem?_eq_getElem hrequest]
                exact .inr (.inl ⟨rfl, rfl⟩)
              · rw [if_neg hrequest, List.getElem?_eq_none (Nat.le_of_not_lt hrequest)]
                exact .inr (.inr ⟨rfl, rfl, rfl⟩)
          | _ => cases hcall
  | handleSuccess request response =>
      have ht := touches_handleSuccess setup request response s
      exact .inr (.inr ⟨rfl, ht.composer, ht.bodies⟩)
  | reject request fault =>
      have ht := touches_reject request fault s
      exact .inr (.inr ⟨rfl, ht.composer, ht.bodies⟩)

theorem fileMove_edit_ne (s : Session) (change : Edit) :
    s.fileMove (.edit change) ≠ some .takenOut := by
  intro h
  obtain ⟨_, -, hmove⟩ := Option.map_eq_some_iff.mp h
  cases hmove

theorem act_eq_finalize (setup : Setup) {s : Session} {a : Act}
    (h : s.fileMove a = some .takenOut) :
    s.act setup a = ((s.finalize setup).2, s.nextBody.map fun _ => ()) := by
  rcases act_cases setup s a with ⟨change, rfl⟩ | ⟨-, hact⟩ | ⟨hnone, -⟩
  · exact absurd h (fileMove_edit_ne s change)
  · exact hact
  · rw [hnone] at h
    cases h

theorem fileMove_addFile_of_ok (setup : Setup) {s : Session} {name : Given}
    {source : Option ByteSource} {spoiler : Bool}
    (h : (s.act setup (.edit (.addFile name source spoiler))).2 = .ok ()) :
    ∃ file, (Edit.addFile name source spoiler).file? = some file ∧
      s.fileMove (.edit (.addFile name source spoiler)) = some (.accepted file) := by
  obtain ⟨file, hfile, -, hadd⟩ | ⟨fault, -, hadd⟩ :=
    Composer.addFile_cases name source spoiler s.composer
  · refine ⟨file, hfile, ?_⟩
    rw [fileMove, Composer.acceptedFile, Composer.edit, hadd, hfile]
    rfl
  · rw [act, step, Composer.edit, hadd] at h
    cases h

theorem act_of_accepted (setup : Setup) {s : Session} {a : Act} {file : Attachment}
    (h : s.fileMove a = some (.accepted file)) :
    (s.act setup a).1.composer.files = Attachment.put s.composer.files file ∧
      (s.act setup a).1.bodies = s.bodies := by
  rcases act_cases setup s a with ⟨change, rfl⟩ | ⟨hmove, -⟩ | ⟨hmove, -⟩
  · obtain ⟨_, hfile, hmove⟩ := Option.map_eq_some_iff.mp h
    cases hmove
    refine ⟨?_, rfl⟩
    rw [act, step, Composer.edit_files, hfile]
    rfl
  · rw [h] at hmove
    cases hmove
  · rw [h] at hmove
    cases hmove

theorem act_of_takenOut (setup : Setup) {s : Session} {a : Act}
    (h : s.fileMove a = some .takenOut) :
    (s.act setup a).1.composer.files = [] ∧
      (s.act setup a).1.bodies = s.bodies ++ s.nextBody.toOption.toList := by
  rw [act_eq_finalize setup h]
  exact ⟨files_finalize setup s, bodies_finalize setup s⟩

theorem act_of_noMove (setup : Setup) {s : Session} {a : Act} (h : s.fileMove a = none) :
    (s.act setup a).1.composer.files = s.composer.files ∧
      (s.act setup a).1.bodies = s.bodies := by
  rcases act_cases setup s a with ⟨change, rfl⟩ | ⟨hmove, -⟩ | ⟨-, hcomposer, hbodies⟩
  · refine ⟨?_, rfl⟩
    rw [act, step, Composer.edit_files, Option.map_eq_none_iff.mp h]
    rfl
  · rw [h] at hmove
    cases hmove
  · exact ⟨congrArg _ hcomposer, hbodies⟩

theorem result?_of_takenOut {s : Session} {a : Act} (h : s.fileMove a = some .takenOut) :
    s.result? a = some s.nextBody := by
  rw [result?, h]

theorem result?_eq_none {s : Session} {a : Act} (h : s.fileMove a ≠ some .takenOut) :
    s.result? a = none := by
  unfold result?
  split
  · rename_i hmove
    exact absurd hmove h
  · rfl

theorem bodies_act (setup : Setup) (s : Session) (a : Act) :
    (s.act setup a).1.bodies = s.bodies ++ (s.result? a).toList.filterMap Except.toOption := by
  match h : s.fileMove a with
  | some (.accepted _) =>
      rw [(act_of_accepted setup h).2, result?, h]
      exact (List.append_nil _).symm
  | some .takenOut =>
      rw [(act_of_takenOut setup h).2, result?_of_takenOut h]
      cases s.nextBody <;> rfl
  | none =>
      rw [(act_of_noMove setup h).2, result?, h]
      exact (List.append_nil _).symm

theorem bodies_after (setup : Setup) (s : Session) (acts : List Act) :
    (s.after setup acts).bodies =
      s.bodies ++ (s.results setup acts).filterMap Except.toOption := by
  induction acts generalizing s with
  | nil => exact (List.append_nil _).symm
  | cons a rest ih =>
      rw [after_cons, ih, bodies_act, results, trace, List.filterMap_append, List.append_assoc]

theorem carries_nextBody {s : Session} {pending : List Entry}
    (h : pending.map Prod.snd = s.composer.files) : Carries pending s.nextBody := by
  intro body hbody
  constructor
  · rw [WireBody.files_of_build hbody, ← h, List.map_map]
    rfl
  · rw [WireBody.isMultipart_of_build hbody, ← h, ne_eq, List.map_eq_nil_iff]

theorem act_distribution (setup : Setup) {s : Session} {moves : List FileMove}
    {results : List (Except Fault WireBody)} {groups : List (List Entry)} {pending : List Entry}
    (d : Distribution moves results s.composer.files groups pending) (a : Act) :
    ∃ groups pending, Distribution (moves ++ (s.fileMove a).toList)
      (results ++ (s.result? a).toList) (s.act setup a).1.composer.files groups pending := by
  match h : s.fileMove a with
  | some (.accepted file) =>
      rw [(act_of_accepted setup h).1, result?_eq_none (by rw [h]; rintro ⟨⟩)]
      exact ⟨_, _, (List.append_nil results).symm ▸ d.accept file⟩
  | some .takenOut =>
      rw [(act_of_takenOut setup h).1, result?_of_takenOut h]
      exact ⟨_, _, d.takeOut (carries_nextBody d.pending_files)⟩
  | none =>
      rw [(act_of_noMove setup h).1, result?_eq_none (by rw [h]; rintro ⟨⟩)]
      exact ⟨_, _, (List.append_nil moves).symm ▸ (List.append_nil results).symm ▸ d⟩

theorem after_distribution (setup : Setup) (acts : List Act) {s : Session}
    {moves : List FileMove} {results : List (Except Fault WireBody)} {groups : List (List Entry)}
    {pending : List Entry} (d : Distribution moves results s.composer.files groups pending) :
    ∃ groups pending, Distribution (moves ++ s.fileMoves setup acts)
      (results ++ s.results setup acts) (s.after setup acts).composer.files groups pending := by
  -- What an act adds to the history and to the results comes behind what is there already.
  induction acts generalizing s moves results groups pending with
  | nil => exact ⟨_, _, (List.append_nil moves).symm ▸ (List.append_nil results).symm ▸ d⟩
  | cons a rest ih =>
      obtain ⟨_, _, hd⟩ := act_distribution setup d a
      rw [fileMoves, Session.results, trace, trace, ← List.append_assoc, ← List.append_assoc]
      exact ih hd

end Session

open Session in
/-- What becomes of files in any acts in any order, and so in every run. Each accepted call has its
place in the history of the files, and each finalization takes all that is pending then; its body, if
it makes one, has them as parts in their order. So a file that was accepted is in exactly one body or
still pending, unless it is overwritten, or the first finalization after it throws: then it is lost. -/
theorem files_conserved (setup : Setup) (defaults : Mention.Defaults) (builders : Builders)
    (acts : List Act) :
    let s₀ := Session.start defaults builders
    let moves := s₀.fileMoves setup acts
    let results := s₀.results setup acts
    let final := s₀.after setup acts
    (∃ groups pending, Distribution moves results final.composer.files groups pending ∧
      ∀ i a, moves[i]? = some (.accepted a) →
        (Entry.IsKept groups results pending (i, a) ↔
          ¬ FileMove.Overwritten moves i ∧ ¬ FileMove.Lost moves results i)) ∧
    final.bodies = results.filterMap Except.toOption ∧
    (∀ before name source spoiler later,
      acts = before ++ .edit (.addFile name source spoiler) :: later →
      ((s₀.after setup before).act setup (.edit (.addFile name source spoiler))).2 = .ok () →
      ∃ file, (Edit.addFile name source spoiler).file? = some file ∧
        moves[(s₀.fileMoves setup before).length]? = some (.accepted file)) ∧
    (∀ text source options file,
      (Edit.addFile (.ofText text) (some source) (Attachment.isMarked options)).file? =
        some file → file.source = source ∧
      (options.head? = some (.string "spoiler") → file.name = .string ("SPOILER_" ++ text)) ∧
      (options.head? ≠ some (.string "spoiler") → file.name = .string text)) ∧
    (∀ before a later, acts = before ++ a :: later →
      let s := s₀.after setup before
      s.fileMove a = some .takenOut →
      moves[(s₀.fileMoves setup before).length]? = some .takenOut ∧
      results[(s₀.results setup before).length]? = some s.nextBody ∧
      (s.act setup a).1.composer.files = [] ∧ (s.act setup a).2 = s.nextBody.map (fun _ => ()) ∧
      ∀ body, s.nextBody = .ok body →
        (body.isMultipart = true ↔ s.composer.files ≠ []) ∧
        body.files.map Prod.fst = s.composer.attachmentNames.map some) ∧
    (∀ steps, acts = s₀.acts setup steps → final = (s₀.run setup steps).1) := by
  intro s₀ moves results final
  refine ⟨?_, ?_, ?_, ?_, ?_, ?_⟩
  · obtain ⟨groups, pending, hd⟩ := after_distribution setup acts (s := s₀) Distribution.nil
    exact ⟨groups, pending, hd, fun i a hi => hd.isKept_iff hi⟩
  · exact bodies_after setup s₀ acts
  · intro before name source spoiler later hacts hok
    obtain ⟨file, hfile, hmove⟩ := fileMove_addFile_of_ok setup hok
    refine ⟨file, hfile, ?_⟩
    have hplace := getElem?_trace setup hmove later
    rwa [← hacts] at hplace
  · intro text source options file hfile
    rw [Edit.file?_addFile_text, Option.some.injEq] at hfile
    subst hfile
    refine ⟨rfl, fun hhead => ?_, fun hhead => ?_⟩
    · rw [(Attachment.isMarked_iff options).mpr hhead]
      rfl
    · rw [if_neg (mt (Attachment.isMarked_iff options).mp hhead)]
  · intro before a later hacts s hmove
    have hplace := getElem?_trace setup hmove later
    have hresult := getElem?_trace setup (result?_of_takenOut hmove) later
    rw [← hacts] at hplace hresult
    refine ⟨hplace, hresult, (act_of_takenOut setup hmove).1,
      congrArg Prod.snd (act_eq_finalize setup hmove), fun body hbody => ?_⟩
    refine ⟨WireBody.isMultipart_of_build hbody, ?_⟩
    rw [WireBody.files_of_build hbody, List.map_map, Composer.attachmentNames, List.map_map]
    rfl
  · intro steps hsteps
    rw [← after_acts, ← hsteps]

open Session in
/-- A marked file takes the place of an earlier one under its final name: only the later source is
sent, once, in front of the file that was added between the two. -/
theorem later_file_sent_once :
    let setup : Setup := { route := .followUp "1" "token", channel := .ofText "1" }
    let add (name : String) (number : Nat) (options : List Json) : Act :=
      .edit (.addFile (.ofText name) (some ⟨number, .buffer []⟩) (Attachment.isMarked options))
    let before := [add "SPOILER_plot.png" 0 [], add "notes.txt" 1 [],
      add "plot.png" 2 [.string "spoiler"], .receive (.callbacks none none)]
    let acts := before ++ [.call 0 .finalize]
    let moves := (Session.start {} .unset).fileMoves setup acts
    let results := (Session.start {} .unset).results setup acts
    let plot (number : Nat) : Attachment := ⟨.string "SPOILER_plot.png", ⟨number, .buffer []⟩⟩
    (∃ groups pending, Distribution moves results [] groups pending ∧
      ¬ Entry.IsKept groups results pending (0, plot 0) ∧
      Entry.IsKept groups results pending (2, plot 2)) ∧
    ∃ body, ((Session.start {} .unset).after setup acts).bodies = [body] ∧
      body.isMultipart = true ∧ body.files =
        [(.ofText "SPOILER_plot.png", ⟨2, .buffer []⟩), (.ofText "notes.txt", ⟨1, .buffer []⟩)] := by
  intro setup add before acts moves results plot
  obtain ⟨⟨groups, pending, hd, hkept⟩, hbodies, -, -, htaken, -⟩ :=
    files_conserved setup {} .unset acts
  obtain ⟨-, -, hempty, -, hbody⟩ := htaken before (.call 0 .finalize) [] rfl rfl
  have hlast : (Session.start {} .unset).after setup acts =
      (((Session.start {} .unset).after setup before).act setup (.call 0 .finalize)).1 := by
    rw [show acts = before ++ [.call 0 .finalize] from rfl, after_append, after_cons, after_nil]
  rw [hlast, hempty] at hd
  obtain ⟨body, hmade⟩ : ∃ body, ((Session.start {} .unset).after setup before).nextBody = .ok body :=
    WireBody.exists_build_iff.mpr ⟨_, rfl, fun _ =>
      ⟨_, Payload.text_eq_ok_iff.mpr ⟨rfl, by decide, rfl⟩⟩⟩
  have hmoves : (Session.start {} .unset).fileMoves setup acts = [.accepted (plot 0),
      .accepted ⟨.string "notes.txt", ⟨1, .buffer []⟩⟩, .accepted (plot 2), .takenOut] := rfl
  have hresults : (Session.start {} .unset).results setup acts = [.ok body] := by
    rw [← hmade]
    rfl
  rw [hmoves, hresults] at hkept
  rw [hresults] at hbodies
  refine ⟨⟨groups, pending, hd, fun h => ?_, ?_⟩, body, hbodies,
    (hbody body hmade).1.mpr (List.cons_ne_nil _ _), WireBody.files_of_build hmade⟩
  · rw [show results = [.ok body] from hresults] at h
    exact ((hkept 0 (plot 0) rfl).mp h).1 ⟨2, plot 0, plot 2, by decide, rfl, rfl, by decide, rfl⟩
  · rw [show results = [.ok body] from hresults]
    refine (hkept 2 (plot 2) rfl).mpr ⟨?_, ?_⟩
    · rintro ⟨j, a, b, hlt, -, hj, -⟩
      match j, hlt, hj with
      | 3, _, hj => cases hj
      | j + 4, _, hj => cases hj
    · rintro ⟨fault, hfault⟩
      cases hfault

/-- An accepted file is in no body and not pending, though its name is not used again: the row beside
it throws when the body is made, and the file has been taken out by then. -/
theorem file_lost_with_throwing_row :
    let setup : Setup := { route := .followUp "1" "token", channel := .ofText "1" }
    let steps : List Session.Step := [
      .edit (.addFile (.ofText "a.txt") (some ⟨0, .buffer []⟩) false),
      .edit (.addRows [some (.live "row")]), .finalize]
    let run := (Session.start {} fun _ => .error (.error "x")).run setup steps
    run.2 = [.ok (), .ok (), .error (.error "x")] ∧ run.1.composer.finalized = 1 ∧
      run.1.bodies = [] ∧ run.1.composer.files = [] :=
  ⟨rfl, rfl, rfl, rfl⟩

end Courier
