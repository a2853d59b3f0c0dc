import Mathlib.Algebra.GroupWithZero.Nat
import Courier.Proofs.Route.Redaction
import Courier.Proofs.Session.Limits
import Courier.Proofs.Session.Promise

/-!
What finalizing keeps account of. The two numbers that a message keeps are those of the finalizations
and of the files that they took out, whether a body was made for them or not. So a body is reported to
lack files exactly if it has none and files were taken out before it. A body says what the message and
its builders say at the moment when it is made, and the message says the same behind it.
-/

namespace Courier

/-- What a builder turns into from an act on. -/
def Act.built? (name : String) : Act → Option (Except Fault Built)
  | .setBuilder other built => if name = other then some built else none
  | _ => none

/-- What the builders turn into after some acts: what was set last, or what they turned into at the
beginning. -/
def Builders.after (builders : Builders) (acts : List Act) : Builders :=
  fun name => (acts.filterMap (Act.built? name)).getLast?.getD (builders name)

theorem Builders.after_cons (builders : Builders) (a : Act) (rest : List Act) :
    builders.after (a :: rest) = Builders.after (builders.after [a]) rest := by
  funext name
  cases h : a.built? name with
  | none => simp [Builders.after, h]
  | some built => simp [Builders.after, h, List.getLast?_cons]

theorem Builders.after_singleton {a : Act} (h : ∀ name, a.built? name = none)
    (builders : Builders) : builders.after [a] = builders := by
  funext name
  simp [Builders.after, h name]

def WireBody.filesSent (bodies : List WireBody) : Nat :=
  (bodies.flatMap WireBody.files).length

theorem WireBody.filesSent_append (first second : List WireBody) :
    filesSent (first ++ second) = filesSent first + filesSent second := by
  simp [filesSent]

theorem WireBody.filesSent_of_build {builders : Builders} {d : Draft} {files : List Attachment}
    {body : WireBody} (h : build builders d files = .ok body) :
    filesSent [body] = files.length := by
  rw [filesSent, List.flatMap_singleton, files_of_build h, List.length_map]

namespace Composer

open Mutator

theorem counts_edit (change : Edit) (c : Composer) :
    ((edit change).perform c).1.finalized = c.finalized ∧
      ((edit change).perform c).1.consumed = c.consumed := by
  have hfields : Field.record ∉ change.fields := by
    cases change with
    | choose choice =>
        exact fun hmem => absurd (Edit.fields_choose_subset choice hmem) (by decide)
    | _ => simp [Edit.fields]
  obtain ⟨-, hcounts⟩ := Prod.mk.inj ((edit_confined change).keeps .record hfields c)
  exact Prod.mk.inj hcounts

end Composer

namespace Session

/-- The number of files that an act takes out of the message although no body can be made. -/
def filesLost? (s : Session) (a : Act) : Option Nat :=
  match s.result? a with
  | some (.error _) => some s.composer.files.length
  | _ => none

def filesLost (setup : Setup) (s : Session) (acts : List Act) : Nat :=
  (s.trace setup filesLost? acts).sum

/-- The numbers that the message keeps are those of its finalizations and of the files that they took
out, which are in bodies or lost. -/
structure IsAccounted (results : List (Except Fault WireBody)) (lost : Nat) (s : Session) :
    Prop where
  finalized : s.composer.finalized = results.length
  consumed : s.composer.consumed = WireBody.filesSent s.bodies + lost
  finalized_first : 0 < s.composer.consumed → 0 < s.composer.finalized

variable {setup : Setup} {s : Session} {results : List (Except Fault WireBody)} {lost : Nat}

theorem isAccounted_start (defaults : Mention.Defaults) (builders : Builders) :
    (start defaults builders).IsAccounted [] 0 :=
  ⟨rfl, rfl, id⟩

theorem composer_of_takenOut (setup : Setup) {a : Act} (ha : s.fileMove a = some .takenOut) :
    (s.act setup a).1.composer = (s.composer.finalize s.builders).composer := by
  rw [act_eq_finalize setup ha, composer_finalize]

/-- The files that a finalization takes out are in its body, or they are lost. -/
theorem IsAccounted.takeOut (h : s.IsAccounted results lost) (setup : Setup) {a : Act}
    (ha : s.fileMove a = some .takenOut) :
    (s.act setup a).1.IsAccounted (results ++ [s.nextBody])
      (lost + (s.filesLost? a).toList.sum) := by
  have hcomposer := composer_of_takenOut setup ha
  constructor
  · rw [hcomposer, List.length_append, ← h.finalized]
    rfl
  · rw [hcomposer, (act_of_takenOut setup ha).2, WireBody.filesSent_append, filesLost?,
      result?_of_takenOut ha]
    have hconsumed : (s.composer.finalize s.builders).composer.consumed =
        WireBody.filesSent s.bodies + lost + s.composer.files.length := by
      rw [← h.consumed]
      rfl
    rw [hconsumed]
    cases hbody : s.nextBody with
    | error fault =>
        -- No body has the files: they are lost.
        exact Nat.add_assoc _ _ _
    | ok body =>
        have hsent : WireBody.filesSent [body] = s.composer.files.length :=
          WireBody.filesSent_of_build hbody
        exact (Nat.add_right_comm _ _ _).trans (by rw [← hsent]; rfl)
  · intro
    rw [hcomposer]
    exact Nat.succ_pos _

theorem IsAccounted.act (h : s.IsAccounted results lost) (setup : Setup) (a : Act) :
    (s.act setup a).1.IsAccounted (results ++ (s.result? a).toList)
      (lost + (s.filesLost? a).toList.sum) := by
  by_cases ha : s.fileMove a = some .takenOut
  · rw [result?_of_takenOut ha]
    exact h.takeOut setup ha
  · have hresult : s.result? a = none := result?_eq_none ha
    have hbodies : (s.act setup a).1.bodies = s.bodies := by
      rw [bodies_act, hresult]
      exact List.append_nil _
    have hsame : (s.act setup a).1.composer.finalized = s.composer.finalized ∧
        (s.act setup a).1.composer.consumed = s.composer.consumed := by
      rcases act_cases setup s a with ⟨change, rfl⟩ | ⟨hmove, -⟩ | ⟨-, hcomposer, -⟩
      · exact Composer.counts_edit change s.composer
      · exact absurd hmove ha
      · rw [hcomposer]
        exact ⟨rfl, rfl⟩
    rw [filesLost?, hresult, Option.toList_none, Option.toList_none, List.append_nil]
    obtain ⟨hfinalized, hconsumed⟩ := hsame
    constructor
    · rw [hfinalized, h.finalized]
    · rw [hconsumed, hbodies, h.consumed]
      rfl
    · rw [hfinalized, hconsumed]
      exact h.finalized_first

theorem IsAccounted.after (h : s.IsAccounted results lost) (setup : Setup) (acts : List Act) :
    (s.after setup acts).IsAccounted (results ++ s.results setup acts)
      (lost + s.filesLost setup acts) := by
  induction acts generalizing s results lost with
  | nil => rwa [Session.results, trace, List.append_nil]
  | cons a rest ih =>
      have hrest := ih (h.act setup a)
      rwa [List.append_assoc, Nat.add_assoc, filesLost, ← List.sum_append] at hrest

/-- No file is lost as long as every finalization makes a body. -/
theorem filesLost_eq_zero (setup : Setup) (s : Session) {acts : List Act}
    (h : ∀ fault, .error fault ∉ s.results setup acts) : s.filesLost setup acts = 0 := by
  induction acts generalizing s with
  | nil => rfl
  | cons a rest ih =>
      have hfirst : s.filesLost? a = none := by
        unfold filesLost?
        split
        · rename_i fault hresult
          refine absurd (List.mem_append_left _ ?_) (h fault)
          rw [hresult]
          exact List.mem_singleton_self _
        · rfl
      have hrest := ih (s.act setup a).1 fun fault hmem => h fault (List.mem_append_right _ hmem)
      rw [filesLost, trace, hfirst]
      exact hrest

/-- Files are missed exactly if none is pending while some were taken out before. -/
theorem IsAccounted.missing_eq (h : s.IsAccounted results lost) :
    let n := WireBody.filesSent s.bodies + lost
    (s.composer.finalize s.builders).missing =
      if 0 < n ∧ s.composer.files = [] then some n else none := by
  intro n
  have hn : s.composer.consumed = n := h.consumed
  have hfirst := h.finalized_first
  rw [hn] at hfirst
  simp only [Composer.finalize, hn]
  refine if_congr ⟨fun hall => ⟨hall.2.2, hall.2.1⟩, fun hall => ?_⟩ rfl rfl
  exact ⟨hfirst hall.1, hall.2, hall.1⟩

theorem builders_act (setup : Setup) (s : Session) (a : Act) :
    (s.act setup a).1.builders = s.builders.after [a] := by
  have hsame (ha : ∀ name, a.built? name = none) : s.builders = s.builders.after [a] :=
    (Builders.after_singleton ha s.builders).symm
  have hfinalize : (s.finalize setup).2.builders = s.builders := by
    rw [finalize_eq]
    rfl
  cases a with
  | setBuilder other value =>
      funext name
      by_cases hname : name = other <;>
        simp [act, step, Builders.set, Builders.after, Act.built?, hname]
  | finalize => exact hfinalize.trans (hsame fun _ => rfl)
  | call request call =>
      refine Eq.trans ?_ (hsame fun _ => rfl)
      cases call with
      | finalize =>
          rw [act, perform, finalizeFor]
          split
          · rfl
          · exact hfinalize
      | _ => exact (touches_perform setup request s rfl).builders
  | handleSuccess request response =>
      exact (touches_handleSuccess setup request response s).builders.trans (hsame fun _ => rfl)
  | reject request fault =>
      exact (touches_reject request fault s).builders.trans (hsame fun _ => rfl)
  | _ => exact hsame fun _ => rfl

theorem builders_after (setup : Setup) (s : Session) (acts : List Act) :
    (s.after setup acts).builders = s.builders.after acts := by
  induction acts generalizing s with
  | nil => rfl
  | cons a rest ih => rw [after_cons, ih, builders_act, ← Builders.after_cons]

theorem after_of_noEdit (setup : Setup) (s : Session) {acts : List Act}
    (h : ∀ change, .edit change ∉ acts) :
    (s.after setup acts).composer.draft = s.composer.draft ∧
      (s.composer.files = [] → (s.after setup acts).composer.files = []) := by
  induction acts generalizing s with
  | nil => exact ⟨rfl, id⟩
  | cons a rest ih =>
      obtain ⟨hdraft, hfiles⟩ := ih (s.act setup a).1
        fun change hmem => h change (List.mem_cons_of_mem a hmem)
      have ha : ∀ change, a ≠ .edit change := by
        rintro change rfl
        exact h change List.mem_cons_self
      rw [after_cons, hdraft]
      rcases composer_act setup s ha with heq | heq
      · rw [heq] at hfiles ⊢
        exact ⟨rfl, hfiles⟩
      · rw [heq] at hfiles ⊢
        exact ⟨rfl, fun _ => hfiles rfl⟩

/-- What is noted when a message is finalized: the report of missing files, and the record of the
body and the body itself if one is made. -/
theorem IsAccounted.events_act (h : s.IsAccounted results lost) (setup : Setup) {a : Act}
    (ha : s.fileMove a = some .takenOut) :
    let n := WireBody.filesSent s.bodies + lost
    (s.act setup a).1.events = s.events ++
      ((((if 0 < n ∧ s.composer.files = [] then
          [LogRecord.finalizedAgain setup.route.redacted n] else []) ++
        setup.bodyRecords s.composer.files.length s.nextBody).filter
          (setup.logger.writes ·.level)).map .log ++ s.nextBody.toOption.toList.map .body) := by
  intro n
  have hbody : (s.composer.finalize s.builders).body = s.nextBody := rfl
  rw [act_eq_finalize setup ha, finalize_eq, noted, Setup.finalRecords, h.missing_eq, hbody]
  split <;> rfl

theorem nextBody_of_thrown {a : Act} (ha : s.fileMove a = some .takenOut) {fault : Fault}
    (h : (s.act setup a).2 = .error fault) : s.nextBody = .error fault := by
  rw [act_eq_finalize setup ha] at h
  cases hbody : s.nextBody with
  | ok body =>
      rw [hbody] at h
      cases h
  | error cause =>
      rw [hbody] at h
      exact congrArg Except.error (Except.error.inj h)

theorem returned_iff {a : Act} (ha : s.fileMove a = some .takenOut) :
    (s.act setup a).2 = .ok () ↔ ∃ body, s.nextBody = .ok body := by
  rw [act_eq_finalize setup ha]
  cases s.nextBody <;> simp [Except.map]

/-- A message that was finalized and then left alone has no files. So its next body is the last one
over again, without the files. -/
theorem finalized_again {a : Act} (ha : s.fileMove a = some .takenOut) {body : WireBody}
    (hbody : s.nextBody = .ok body) {between : List Act} (hnoEdit : ∀ change, .edit change ∉ between)
    {b : Act} :
    let t := (s.act setup a).1.after setup between
    t.builders = s.builders → t.fileMove b = some .takenOut →
      (t.act setup b).1.bodies = t.bodies ++ [.json body.payload] := by
  intro t hsame hb
  have hcomposer := composer_of_takenOut setup ha
  obtain ⟨hdraft, hempty⟩ := after_of_noEdit setup (s.act setup a).1 hnoEdit
  have hdraft : t.composer.draft = s.composer.draft := by
    rw [hdraft, hcomposer]
    rfl
  have hfiles : t.composer.files = [] := hempty (act_of_takenOut setup ha).1
  have hagain : t.nextBody = .ok (.json body.payload) := by
    rw [nextBody, hfiles, WireBody.build_nil, hdraft, hsame, WireBody.payload_of_build hbody]
    rfl
  rw [(act_of_takenOut setup hb).2, hagain]
  rfl

end Session

open Session in
/-- The `k`-th finalization of a message, whatever happened before. The count becomes `k`; files are
reported as missing exactly if none is pending and earlier finalizations took some out, and their
number with the report, which is that of the files in the earlier bodies unless a finalization threw.
Then the new body is recorded, in a log that takes such records, unless none can be made. The message
says the same as before, and the payload says it with the values that the builders have by now. As long
as the message and its builders stay as they are, later bodies have the same payload and no files. -/
theorem finalization_accounted (setup : Setup) (defaults : Mention.Defaults) (builders : Builders)
    (before : List Act) (a : Act) :
    let s₀ := Session.start defaults builders
    let s := s₀.after setup before
    let s' := (s.act setup a).1
    let earlier := (s₀.fileMoves setup before).countP FileMove.isTakenOut
    let n := WireBody.filesSent s.bodies + s₀.filesLost setup before
    let payload := Payload.ofDraft (builders.after before) s.composer.draft
    let written (records : List LogRecord) :=
      (records.filter (setup.logger.writes ·.level)).map Event.log
    s.fileMove a = some .takenOut →
    (s₀.results setup before).length = earlier ∧ s'.composer.finalized = earlier + 1 ∧
    ((∀ fault, .error fault ∉ s₀.results setup before) → s₀.filesLost setup before = 0) ∧
    s'.composer.draft = s.composer.draft ∧
    ((s.act setup a).2 = .ok () ↔
      ∃ p, payload = .ok p ∧ (s.composer.files ≠ [] → ∃ text, p.text = .ok text)) ∧
    (∃ shown, setup.route.ShownAs shown ∧
      let warning :=
        if 0 < n ∧ s.composer.files = [] then [LogRecord.finalizedAgain shown n] else []
      (∀ fault, (s.act setup a).2 = .error fault →
        s'.bodies = s.bodies ∧ s'.events = s.events ++ written warning) ∧
      ((s.act setup a).2 = .ok () → ∃ body, s'.bodies = s.bodies ++ [body] ∧
        s'.events = s.events ++ (written (warning ++
          [.finalized shown body.kindName body.files.length]) ++ [.body body]) ∧
        payload = .ok body.payload ∧
        ∀ between b,
          let t := s'.after setup between
          (∀ change, .edit change ∉ between) → t.builders = s.builders →
          t.fileMove b = some .takenOut →
          ∃ again, (t.act setup b).1.bodies = t.bodies ++ [again] ∧
            again.payload = body.payload ∧ again.isMultipart = false)) ∧
    ∀ steps later, s₀.acts setup steps = before ++ a :: later →
      (s₀.run setup steps).1 = s'.after setup later := by
  intro s₀ s s' earlier n payload written ha
  have haccounted : s.IsAccounted (s₀.results setup before) (s₀.filesLost setup before) := by
    have h := (isAccounted_start defaults builders).after setup before
    rwa [List.nil_append, Nat.zero_add] at h
  obtain ⟨_, _, hdistribution⟩ := after_distribution setup before (s := s₀) Distribution.nil
  have hearlier : (s₀.results setup before).length = earlier := by
    have hmade := hdistribution.results_made
    rw [FileMove.finalizedBefore, List.take_length] at hmade
    exact hmade.symm
  have hcomposer := composer_of_takenOut setup ha
  have hbuilders : s.builders = builders.after before := builders_after setup s₀ before
  have hbodies := (act_of_takenOut setup ha).2
  have hevents := haccounted.events_act setup ha
  refine ⟨hearlier, ?_, filesLost_eq_zero setup s₀, ?_, ?_,
    ⟨_, Route.shownAs_iff.mpr rfl, ?_, ?_⟩, ?_⟩
  · rw [hcomposer, ← hearlier, ← haccounted.finalized]
    rfl
  · rw [hcomposer]
    rfl
  · have hmade : (∃ body, s.nextBody = .ok body) ↔ _ := WireBody.exists_build_iff
    rw [hbuilders] at hmade
    exact (returned_iff ha).trans hmade
  · intro fault hthrown
    have hbody := nextBody_of_thrown ha hthrown
    rw [hbody] at hbodies hevents
    refine ⟨hbodies.trans (List.append_nil _), hevents.trans ?_⟩
    simp only [Setup.bodyRecords, List.append_nil]
    exact congrArg _ (List.append_nil _)
  · intro hreturned
    obtain ⟨body, hbody⟩ := (returned_iff ha).mp hreturned
    have hpayload : payload = .ok body.payload := by
      rw [show payload = Payload.ofDraft (builders.after before) _ from rfl, ← hbuilders]
      exact WireBody.payload_of_build hbody
    have hcount : s.composer.files.length = body.files.length := by
      rw [WireBody.files_of_build hbody, List.length_map]
    rw [hbody] at hbodies hevents
    rw [hcount] at hevents
    refine ⟨body, hbodies, hevents, hpayload, ?_⟩
    intro between b t hnoEdit hsame hb
    exact ⟨.json body.payload, finalized_again ha hbody hnoEdit hsame hb, rfl, rfl⟩
  · intro steps later hsteps
    rw [← after_acts, hsteps, after_append]
    rfl

/-- A file was sent, and another one was lost when the builder threw: the body that has neither is
reported to miss two. It shows what the builder turns into by then. -/
theorem missing_files_reported :
    let setup : Setup := { route := .followUp "7" "token", channel := .ofText "1" }
    let card (built : Except Fault Built) : Act := .setBuilder "card" built
    let add (name : String) (number : Nat) : Act :=
      .edit (.addFile (.ofText name) (some ⟨number, .buffer []⟩) false)
    let before : List Act := [
      .edit (.addEmbeds (.elements [some (.live "card")])), add "notes.txt" 0, .finalize,
      add "plot.png" 1, card (.error (.error "busy")), .finalize,
      card (.ok { value := .object [("title", .string "late")] })]
    let s := (Session.start {} .unset).after setup before
    let s' := (s.act setup .finalize).1
    s.fileMove .finalize = some .takenOut ∧ s'.composer.finalized = 3 ∧
      WireBody.filesSent s.bodies = 1 ∧ (Session.start {} .unset).filesLost setup before = 1 ∧
      ∃ body, s'.bodies = s.bodies ++ [body] ∧
        s'.events = s.events ++ [.log (.finalizedAgain "POST /webhooks/7/:token" 2),
          .log (.finalized "POST /webhooks/7/:token" body.kindName body.files.length),
          .body body] ∧
        body.payload.embeds.map (List.map (Json.text? "title")) = some [some "late"] ∧
        ∃ again, (s'.act setup .finalize).1.bodies = s'.bodies ++ [again] ∧
          again.payload = body.payload ∧ again.isMultipart = false := by
  intro setup card add before s s'
  have hsent : WireBody.filesSent s.bodies = 1 := by decide +kernel
  have hlost : (Session.start {} .unset).filesLost setup before = 1 := by decide +kernel
  have htaken : ((Session.start {} .unset).fileMoves setup before).countP FileMove.isTakenOut = 2 := by
    decide +kernel
  have hfiles : s.composer.files = [] := List.isEmpty_iff.mp (by decide +kernel)
  have hlate : (Payload.ofDraft (Builders.after .unset before) s.composer.draft).toOption.bind
      (fun p => p.embeds.map (List.map (Json.text? "title"))) = some [some "late"] := by
    decide +kernel
  have hpayload : ∃ p, Payload.ofDraft (Builders.after .unset before) s.composer.draft = .ok p := by
    cases hmade : Payload.ofDraft (Builders.after .unset before) s.composer.draft with
    | ok p => exact ⟨p, rfl⟩
    | error fault =>
        rw [hmade] at hlate
        cases hlate
  dsimp only [s', s] at hsent hlost hfiles hlate hpayload ⊢
  obtain ⟨-, hcount, -, -, hmade, ⟨shown, hshown, -, hreturns⟩, -⟩ :=
    finalization_accounted setup {} .unset before .finalize rfl
  obtain ⟨body, hbodies, hevents, hbody, hagain⟩ :=
    hreturns (hmade.mpr (hpayload.imp fun _ hp => ⟨hp, fun hne => absurd hfiles hne⟩))
  have hroute : shown = "POST /webhooks/7/:token" :=
    (Route.shownAs_iff.mp hshown).trans (by decide)
  rw [htaken] at hcount
  rw [hsent, hlost, hfiles, hroute] at hevents
  rw [hbody] at hlate
  refine ⟨rfl, hcount, hsent, hlost, body, hbodies, hevents, hlate, ?_⟩
  have hnext := hagain [] .finalize (by rintro change ⟨⟩)
  simp only [Session.after_nil] at hnext
  exact hnext ((Session.builders_act setup _ .finalize).trans
    (Builders.after_singleton (fun _ => rfl) _)) rfl

/-- A file that is pending while the row beside it throws is in no body, and yet a later body without
files is reported to miss it. -/
theorem lost_file_reported :
    let setup : Setup := { route := .followUp "7" "token", channel := .ofText "1" }
    let steps : List Session.Step := [
      .edit (.addFile (.ofText "a.txt") (some ⟨0, .buffer []⟩) false),
      .edit (.addRows [some (.live "row")]), .finalize,
      .setBuilder "row" (.ok { value := .null })]
    let s := ((Session.start {} fun _ => .error (.error "busy")).run setup steps).1
    s.composer.finalized = 1 ∧ s.bodies = [] ∧ WireBody.filesSent s.bodies = 0 ∧
      ∃ body, (s.finalize setup).2.bodies = [body] ∧
        (s.finalize setup).2.events = s.events ++ [
          .log (.finalizedAgain "POST /webhooks/7/:token" 1),
          .log (.finalized "POST /webhooks/7/:token" "json" 0), .body body] :=
  ⟨rfl, rfl, rfl, _, rfl, rfl⟩

end Courier
