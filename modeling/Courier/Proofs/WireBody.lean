import Courier.Proofs.Attachment.Distribution

namespace Courier

theorem Text.countUnits_append (first second : List Char) :
    countUnits (first ++ second) = countUnits first + countUnits second := by
  induction first with
  | nil => exact (Nat.zero_add _).symm
  | cons c rest ih => rw [List.cons_append, countUnits, countUnits, ih, Nat.add_assoc]

namespace Json

open Text (countUnits countUnits_append)

theorem countUnits_escapeChar (c : Char) : countUnits (escapeChar c) = escapedUnits c := by
  have hdigit : ∀ n < 16, Text.charUnits (Nat.digitChar n) = 1 := by decide
  by_cases hcontrol : c.toNat < 0x20
  · have hhigh := hdigit (c.toNat / 16) (by omega)
    have hlow := hdigit (c.toNat % 16) (by omega)
    unfold escapeChar escapedUnits
    repeat' split
    all_goals simp_all [countUnits, Text.charUnits]
  · unfold escapeChar escapedUnits
    repeat' split
    all_goals simp_all [countUnits, Text.charUnits]

theorem countUnits_quote (s : String) : countUnits (quote s) = quotedUnits s := by
  have hfold (cs : List Char) (n : Nat) : cs.foldl (fun n c => n + escapedUnits c) n =
      n + countUnits (cs.flatMap escapeChar) := by
    induction cs generalizing n with
    | nil => rfl
    | cons c rest ih =>
        rw [List.foldl_cons, ih, List.flatMap_cons, countUnits_append, countUnits_escapeChar,
          Nat.add_assoc]
  have hquote : Text.charUnits '"' = 1 := rfl
  rw [quotedUnits, hfold, quote, List.cons_append, countUnits, countUnits_append, hquote]
  show 1 + (_ + 1) = _
  omega

mutual

theorem countUnits_writeChars : ∀ v : Json, countUnits (writeChars v) = v.units
  | .null => rfl
  | .bool true => rfl
  | .bool false => rfl
  | .number n => rfl
  | .string s => countUnits_quote s
  | .array [] => rfl
  | .array (v :: vs) => by
      have hbracket : Text.charUnits '[' = 1 := rfl
      simp only [writeChars, units, List.cons_append, countUnits, countUnits_append,
        countUnits_writeChars v, countUnits_writeItems vs, hbracket, Nat.add_assoc]
  | .object [] => rfl
  | .object ((k, v) :: ms) => by
      have hbrace : Text.charUnits '\x7b' = 1 := rfl
      have hcolon : Text.charUnits ':' = 1 := rfl
      simp only [writeChars, units, List.cons_append, countUnits, countUnits_append,
        countUnits_quote, countUnits_writeChars v, countUnits_writeMembers ms, hbrace, hcolon]
      omega

theorem countUnits_writeItems : ∀ vs : List Json, countUnits (writeItems vs) = itemsUnits vs
  | [] => rfl
  | v :: vs => by
      have hcomma : Text.charUnits ',' = 1 := rfl
      simp only [writeItems, itemsUnits, List.cons_append, countUnits, countUnits_append,
        countUnits_writeChars v, countUnits_writeItems vs, hcomma, Nat.add_assoc]

theorem countUnits_writeMembers :
    ∀ ms : List (String × Json), countUnits (writeMembers ms) = membersUnits ms
  | [] => rfl
  | (k, v) :: ms => by
      have hcomma : Text.charUnits ',' = 1 := rfl
      have hcolon : Text.charUnits ':' = 1 := rfl
      simp only [writeMembers, membersUnits, List.cons_append, countUnits, countUnits_append,
        countUnits_quote, countUnits_writeChars v, countUnits_writeMembers ms, hcomma, hcolon]
      omega

end

/-- The length of a text is known before it is written. -/
theorem units_eq (v : Json) : v.units = Text.units16 v.write := by
  rw [Text.units16, write, String.toList_ofList, countUnits_writeChars]

end Json

/-- The parts of a body are some files in their order, each under its number, and then a text. -/
structure WireBody.Carries (body : WireBody) (files : List Attachment) (text : String) : Prop where
  length_eq : body.parts.length = files.length + 1
  file : ∀ (i : Nat) (a : Attachment), files[i]? = some a → body.parts[i]? =
    some (.file ("file" ++ i.repr) (some a.name) "application/octet-stream" a.source)
  payload : body.parts[files.length]? = some (.field "payload_json" text)

namespace Payload

variable {builders : Builders} {elements : List Element} {items : List Built} {d : Draft}
  {p : Payload}

theorem resolveAll_eq_ok_iff : resolveAll builders elements = .ok items ↔
    List.Forall₂ (fun e built => e.resolve builders = .ok built) elements items := by
  induction elements generalizing items with
  | nil => cases items <;> simp [resolveAll, pure, Except.pure]
  | cons e rest ih =>
      rw [resolveAll, List.mapM_cons]
      cases he : e.resolve builders with
      | error fault => cases items <;> simp [bind, Except.bind, he]
      | ok built =>
          cases hrest : resolveAll builders rest with
          | error fault =>
              rw [resolveAll] at hrest
              cases items <;> simp [bind, Except.bind, he, hrest, ← ih, resolveAll]
          | ok others =>
              rw [resolveAll] at hrest
              cases items <;>
                simp [bind, Except.bind, pure, Except.pure, he, hrest, ← ih, resolveAll]

theorem length_of_resolveAll (h : resolveAll builders elements = .ok items) :
    items.length = elements.length :=
  (resolveAll_eq_ok_iff.mp h).length_eq.symm

theorem resolveAll_map_fixed (builders : Builders) (values : List Json) :
    resolveAll builders (values.map .fixed) = .ok (values.map fun value => { value }) := by
  rw [resolveAll_eq_ok_iff, List.forall₂_map_left_iff, List.forall₂_map_right_iff,
    List.forall₂_same]
  exact fun value _ => rfl

theorem listed_ne (items : List Built) : listed items ≠ some [] := by
  cases items <;> simp [listed]

theorem getD_listed (items : List Built) : (listed items).getD [] = items.map (·.value) := by
  cases items <;> rfl

theorem forM_writing_of_plain {items : List Built} (h : ∀ built ∈ items, built.writing = .ok ()) :
    items.forM (·.writing) = .ok () := by
  induction items with
  | nil => rfl
  | cons built rest ih =>
      show (built.writing >>= fun _ => rest.forM (·.writing)) = .ok ()
      rw [h built List.mem_cons_self]
      exact ih fun other hother => h other (List.mem_cons_of_mem built hother)

theorem ofDraft_eq_ok_iff : ofDraft builders d = .ok p ↔ ∃ embeds rows,
    resolveAll builders d.embeds = .ok embeds ∧ resolveAll builders d.rows = .ok rows ∧
      p = ofBuilt d embeds rows := by
  unfold ofDraft
  cases resolveAll builders d.embeds with
  | error fault => simp [bind, Except.bind]
  | ok embeds =>
      cases resolveAll builders d.rows with
      | error fault => simp [bind, Except.bind]
      | ok rows => simp [bind, Except.bind, pure, Except.pure, eq_comm]

theorem text_eq_ok_iff {text : String} : p.text = .ok text ↔
    p.writing = .ok () ∧ Text.units16 p.toJson.write ≤ Text.maxUnits ∧
      text = p.toJson.write := by
  rw [← Json.units_eq]
  unfold Payload.text
  cases p.writing with
  | error fault => simp [bind, Except.bind]
  | ok _ =>
      by_cases hunits : p.toJson.units ≤ Text.maxUnits
      · simp [bind, Except.bind, pure, Except.pure, hunits, eq_comm]
      · simp [bind, Except.bind, hunits]

end Payload

namespace WireBody

variable {builders : Builders} {d : Draft} {files : List Attachment} {body : WireBody}

theorem length_fileParts (start : Nat) (files : List Attachment) :
    (fileParts start files).length = files.length := by
  induction files generalizing start with
  | nil => rfl
  | cons a rest ih => exact congrArg (· + 1) (ih (start + 1))

theorem getElem?_fileParts (start : Nat) (files : List Attachment) (i : Nat) :
    (fileParts start files)[i]? = files[i]?.map fun a =>
      .file (fileName (start + i)) (some a.name) MediaType.octetStream a.source := by
  induction files generalizing start i with
  | nil => rfl
  | cons a rest ih =>
      cases i with
      | zero => rfl
      | succ i =>
          rw [fileParts, List.getElem?_cons_succ, List.getElem?_cons_succ, ih, Nat.add_assoc,
            Nat.add_comm 1 i]

theorem build_nil (builders : Builders) (d : Draft) :
    build builders d [] = (Payload.ofDraft builders d).map .json := by
  unfold build
  cases Payload.ofDraft builders d <;> rfl

theorem build_eq_ok_iff (h : files ≠ []) : build builders d files = .ok body ↔
    ∃ payload text, Payload.ofDraft builders d = .ok payload ∧ payload.text = .ok text ∧
      body = .multipart payload (fileParts 0 files ++ [.field payloadField text]) := by
  have hfiles : files.isEmpty = false := by simpa using h
  unfold build
  cases Payload.ofDraft builders d with
  | error fault => simp [bind, Except.bind]
  | ok payload =>
      cases htext : payload.text <;>
        simp [bind, Except.bind, pure, Except.pure, hfiles, htext, eq_comm]

/-- A body is made exactly if its payload is, and the text of the payload where there are files. -/
theorem exists_build_iff : (∃ body, build builders d files = .ok body) ↔
    ∃ payload, Payload.ofDraft builders d = .ok payload ∧
      (files ≠ [] → ∃ text, payload.text = .ok text) := by
  by_cases hfiles : files = []
  · rw [hfiles, build_nil]
    cases Payload.ofDraft builders d <;> simp [Except.map]
  · simp [build_eq_ok_iff hfiles, hfiles]

theorem payload_of_build (h : build builders d files = .ok body) :
    Payload.ofDraft builders d = .ok body.payload := by
  by_cases hfiles : files = []
  · rw [hfiles, build_nil] at h
    cases hpayload : Payload.ofDraft builders d with
    | error fault =>
        rw [hpayload] at h
        cases h
    | ok payload =>
        rw [hpayload] at h
        cases h
        rfl
  · obtain ⟨payload, text, hpayload, -, rfl⟩ := (build_eq_ok_iff hfiles).mp h
    exact hpayload

theorem parts_of_build (h : build builders d files = .ok body) (hfiles : files ≠ []) :
    body.parts = fileParts 0 files ++ [.field payloadField body.payload.toJson.write] := by
  obtain ⟨payload, text, -, htext, rfl⟩ := (build_eq_ok_iff hfiles).mp h
  rw [(Payload.text_eq_ok_iff.mp htext).2.2]
  rfl

theorem isMultipart_of_build (h : build builders d files = .ok body) :
    body.isMultipart = true ↔ files ≠ [] := by
  by_cases hfiles : files = []
  · rw [hfiles, build_nil] at h
    cases hpayload : Payload.ofDraft builders d <;> rw [hpayload] at h <;> cases h
    simp [hfiles, isMultipart]
  · obtain ⟨payload, text, -, -, rfl⟩ := (build_eq_ok_iff hfiles).mp h
    exact iff_of_true rfl hfiles

theorem parts_of_build_nil (h : build builders d [] = .ok body) : body.parts = [] := by
  rw [build_nil] at h
  cases hpayload : Payload.ofDraft builders d <;> rw [hpayload] at h <;> cases h
  rfl

theorem carries_of_build (h : build builders d files = .ok body) (hfiles : files ≠ []) :
    body.Carries files body.payload.toJson.write := by
  have hlength := length_fileParts 0 files
  refine ⟨?_, fun i a ha => ?_, ?_⟩
  · rw [parts_of_build h hfiles, List.length_append, hlength]
    rfl
  · obtain ⟨hi, -⟩ := List.getElem?_eq_some_iff.mp ha
    rw [parts_of_build h hfiles, List.getElem?_append_left (hlength ▸ hi), getElem?_fileParts, ha,
      Nat.zero_add]
    rfl
  · rw [parts_of_build h hfiles, ← hlength, List.getElem?_concat_length]
    rfl

theorem filterMap_fileParts (i : Nat) (files : List Attachment) :
    (fileParts i files).filterMap Part.file? = files.map fun a => (some a.name, a.source) := by
  induction files generalizing i with
  | nil => rfl
  | cons a rest ih => exact congrArg _ (ih (i + 1))

theorem files_of_build (h : build builders d files = .ok body) :
    body.files = files.map fun a => (some a.name, a.source) := by
  by_cases hfiles : files = []
  · subst hfiles
    rw [WireBody.files, parts_of_build_nil h]
    rfl
  · rw [WireBody.files, parts_of_build h hfiles, List.filterMap_append, filterMap_fileParts]
    exact List.append_nil _

end WireBody

end Courier
