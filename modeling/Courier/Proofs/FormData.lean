import Courier.WireBody

/-!
Forms of bodies. A form has one entry for each part of its body, in the order of the parts, unless a
stream breaks off. What a stream gives is decided by the streams that were read before: those of
earlier conversions and those of the parts in front of it.
-/

namespace Courier

namespace ByteSource

/-- The bytes that a source gives after some streams were read to their end. -/
inductive Gives (read : FormData.Drained) : ByteSource → Bytes → Prop
  | buffer (number : Nat) (bytes : Bytes) : Gives read ⟨number, .buffer bytes⟩ bytes
  | window (number : Nat) (bytes : Bytes) (start stop : Option Nat) :
    Gives read ⟨number, .window bytes start stop⟩
      (bytes.extract (start.getD 0) (stop.getD bytes.length))
  | blob (number : Nat) (bytes : Bytes) (mediaType : Option String) :
    Gives read ⟨number, .blob bytes mediaType⟩ bytes
  | fresh {number : Nat} (chunks : List Bytes) (h : number ∉ read) :
    Gives read ⟨number, .stream chunks none⟩ chunks.flatten
  | spent {number : Nat} (chunks : List Bytes) (error : Option String) (h : number ∈ read) :
    Gives read ⟨number, .stream chunks error⟩ []

/-- The source is a stream that breaks off with a message, and it was not read before. -/
inductive BreaksOff (read : FormData.Drained) : ByteSource → String → Prop
  | stream {number : Nat} (chunks : List Bytes) (message : String) (h : number ∉ read) :
    BreaksOff read ⟨number, .stream chunks (some message)⟩ message

def stream? (source : ByteSource) : Option Nat :=
  match source.content with
  | .stream _ _ => some source.number
  | _ => none

end ByteSource

namespace Part

/-- A field, or a file with a name and something to read. -/
inductive IsComplete : Part → Prop
  | field (name value : String) : IsComplete (.field name value)
  | file (name filename mediaType : String) {source : ByteSource}
    (h : ∀ how, source.content ≠ .nothing how) :
    IsComplete (.file name (.ofText filename) mediaType source)

/-- The entry that a part becomes after some streams were read to their end. -/
inductive Becomes (read : FormData.Drained) : Part → FormEntry → Prop
  | field (name value : String) : Becomes read (.field name value) (.text name value)
  | file (name filename mediaType : String) {source : ByteSource} {bytes : Bytes}
    (h : source.Gives read bytes) :
    Becomes read (.file name (.ofText filename) mediaType source)
      (.file name filename mediaType bytes)

/-- The part is a file whose stream breaks off. -/
inductive BreaksOff (read : FormData.Drained) : Part → String → Prop
  | file (name : String) (filename : Given) (mediaType : String) {source : ByteSource}
    {message : String} (h : source.BreaksOff read message) :
    BreaksOff read (.file name filename mediaType source) message

def stream? : Part → Option Nat
  | .file _ _ _ source => source.stream?
  | .field _ _ => none

/-- The entry of a part as a later conversion gives it: a stream has no bytes left. -/
def reconverted : Part → FormEntry → FormEntry
  | .file _ _ _ ⟨_, .stream _ _⟩, .file name filename mediaType _ =>
    .file name filename mediaType []
  | _, entry => entry

end Part

namespace FormData

def streams (parts : List Part) : List Nat :=
  parts.filterMap Part.stream?

/-- The streams that were read when the conversion of some parts comes to one of them. -/
def readBefore (drained : Drained) (parts : List Part) (i : Nat) : Drained :=
  drained ++ streams (parts.take i)

def Unbroken (drained : Drained) (parts : List Part) (count : Nat) : Prop :=
  ∀ i < count, ∀ part message, parts[i]? = some part →
    ¬ part.BreaksOff (readBefore drained parts i) message

/-- The streams that are read to their end after some bodies were converted, whatever came of it. -/
def readAfter (drained : Drained) (bodies : List (List Part)) : Drained :=
  bodies.foldl (fun read parts => (materialize read parts).2) drained

/-- The form has one entry for each part, in the order of the parts, and all streams among them are
read to their end. -/
structure IsFormOf (drained : Drained) (parts : List Part) (form : List FormEntry)
    (after : Drained) : Prop where
  length_eq : form.length = parts.length
  entry : ∀ (i : Nat) (part : Part), parts[i]? = some part →
    ∃ entry, form[i]? = some entry ∧ part.Becomes (readBefore drained parts i) entry
  mem_after : ∀ n, n ∈ after ↔ n ∈ drained ∨ n ∈ streams parts

end FormData

namespace ByteSource

open FormData

variable {read read' : Drained} {source : ByteSource} {bytes : Bytes}

theorem Gives.congr (h : ∀ n, n ∈ read ↔ n ∈ read') (hgives : source.Gives read bytes) :
    source.Gives read' bytes := by
  cases hgives with
  | buffer number => exact .buffer number bytes
  | window number bytes start stop => exact .window number bytes start stop
  | blob number _ mediaType => exact .blob number bytes mediaType
  | fresh chunks hfresh => exact .fresh chunks (mt (h _).mpr hfresh)
  | spent chunks error hspent => exact .spent chunks error ((h _).mp hspent)

theorem BreaksOff.congr {message : String} (h : ∀ n, n ∈ read ↔ n ∈ read')
    (hbreaks : source.BreaksOff read message) : source.BreaksOff read' message := by
  cases hbreaks with
  | stream chunks _ hfresh => exact .stream chunks message (mt (h _).mpr hfresh)

theorem gives_or_breaksOff (read : Drained) (h : ∀ how, source.content ≠ .nothing how) :
    (∃ bytes, source.Gives read bytes) ∨ ∃ message, source.BreaksOff read message := by
  obtain ⟨number, content⟩ := source
  cases content with
  | buffer bytes => exact .inl ⟨_, .buffer number bytes⟩
  | window bytes start stop => exact .inl ⟨_, .window number bytes start stop⟩
  | blob bytes mediaType => exact .inl ⟨_, .blob number bytes mediaType⟩
  | nothing how => exact absurd rfl (h how)
  | stream chunks error =>
      by_cases hmem : number ∈ read
      · exact .inl ⟨_, .spent chunks error hmem⟩
      · cases error with
        | none => exact .inl ⟨_, .fresh chunks hmem⟩
        | some message => exact .inr ⟨message, .stream chunks message hmem⟩

theorem Gives.readSource (h : source.Gives read bytes) :
    ∃ read', readSource read source = .ok (bytes, read') ∧
      ∀ n, n ∈ read' ↔ n ∈ read ∨ source.stream? = some n := by
  cases h with
  | buffer number => exact ⟨read, rfl, by simp [stream?]⟩
  | window number bytes start stop =>
      refine ⟨read, ?_, by simp [stream?]⟩
      rw [List.extract_eq_take_drop, ← List.drop_take]
      rfl
  | blob number _ mediaType => exact ⟨read, rfl, by simp [stream?]⟩
  | @fresh number chunks hfresh =>
      refine ⟨number :: read, ?_, by simp [stream?, or_comm, eq_comm]⟩
      simp only [FormData.readSource, if_neg hfresh]
  | @spent number chunks error hspent =>
      refine ⟨read, ?_, ?_⟩
      · simp only [FormData.readSource, if_pos hspent]
      · rintro n
        simp only [stream?, Option.some.injEq]
        exact ⟨.inl, fun h => h.elim id fun heq => heq ▸ hspent⟩

theorem BreaksOff.readSource {message : String} (h : source.BreaksOff read message) :
    readSource read source = .error (.error message) := by
  cases h with
  | stream chunks _ hfresh => simp only [FormData.readSource, if_neg hfresh]

theorem Gives.unique {bytes' : Bytes} (h : source.Gives read bytes)
    (h' : source.Gives read bytes') : bytes = bytes' := by
  cases h with
  | fresh chunks hfresh =>
      cases h' with
      | fresh => rfl
      | spent _ _ hspent => exact absurd hspent hfresh
  | spent chunks error hspent =>
      cases h' with
      | fresh _ hfresh => exact absurd hspent hfresh
      | spent => rfl
  | _ =>
      cases h'
      rfl

end ByteSource

namespace Part

open FormData

variable {read read' : Drained} {part : Part} {entry : FormEntry}

theorem Becomes.congr (h : ∀ n, n ∈ read ↔ n ∈ read') (hentry : part.Becomes read entry) :
    part.Becomes read' entry := by
  cases hentry with
  | field name value => exact .field name value
  | file name filename mediaType hgives => exact .file name filename mediaType (hgives.congr h)

theorem BreaksOff.congr {message : String} (h : ∀ n, n ∈ read ↔ n ∈ read')
    (hbreaks : part.BreaksOff read message) : part.BreaksOff read' message := by
  cases hbreaks with
  | file name filename mediaType hsource => exact .file name filename mediaType (hsource.congr h)

theorem Becomes.unique {entry' : FormEntry} (h : part.Becomes read entry)
    (h' : part.Becomes read entry') : entry = entry' := by
  cases h with
  | field name value =>
      cases h'
      rfl
  | file name filename mediaType hgives =>
      cases h' with
      | file _ _ _ hgives' => rw [hgives.unique hgives']

theorem becomes_or_breaksOff (read : Drained) (h : part.IsComplete) :
    (∃ entry, part.Becomes read entry) ∨ ∃ message, part.BreaksOff read message := by
  cases h with
  | field name value => exact .inl ⟨_, .field name value⟩
  | @file name filename mediaType source hsource =>
      rcases source.gives_or_breaksOff read hsource with ⟨bytes, hgives⟩ | ⟨message, hbreaks⟩
      · exact .inl ⟨_, .file name filename mediaType hgives⟩
      · exact .inr ⟨message, .file name _ mediaType hbreaks⟩

/-- After its stream was read, a part becomes the entry that it was, without the bytes of the
stream. -/
theorem Becomes.reconverted (h : part.Becomes read entry)
    (hread : ∀ n, part.stream? = some n → n ∈ read') :
    part.Becomes read' (part.reconverted entry) := by
  cases h with
  | field name value => exact .field name value
  | file name filename mediaType hgives =>
      cases hgives with
      | buffer number => exact .file name filename mediaType (.buffer number _)
      | window number bytes start stop =>
          exact .file name filename mediaType (.window number bytes start stop)
      | blob number _ type => exact .file name filename mediaType (.blob number _ type)
      | fresh chunks _ =>
          exact .file name filename mediaType (.spent chunks none (hread _ rfl))
      | spent chunks error _ =>
          exact .file name filename mediaType (.spent chunks error (hread _ rfl))

end Part

namespace FormData

variable {drained read : Drained} {part : Part} {parts rest : List Part}

theorem mem_streams_cons {n : Nat} :
    n ∈ streams (part :: rest) ↔ part.stream? = some n ∨ n ∈ streams rest := by
  simp [streams, List.mem_filterMap]

/-- What was read before a part behind the first one was there at the start of the rest. -/
theorem mem_readBefore_succ (hread : ∀ n, n ∈ read ↔ n ∈ drained ∨ part.stream? = some n)
    (i n : Nat) :
    n ∈ readBefore drained (part :: rest) (i + 1) ↔ n ∈ readBefore read rest i := by
  simp only [readBefore, List.take_succ_cons, List.mem_append, mem_streams_cons, hread, or_assoc]

theorem readBefore_zero : readBefore drained parts 0 = drained :=
  List.append_nil drained

theorem Unbroken.head {count : Nat} (h : Unbroken drained (part :: rest) (count + 1))
    (message : String) : ¬ part.BreaksOff drained message := by
  have hhead := h 0 (Nat.succ_pos count) part message rfl
  rwa [readBefore_zero] at hhead

theorem Unbroken.tail {count : Nat} (h : Unbroken drained (part :: rest) (count + 1))
    (hread : ∀ n, n ∈ read ↔ n ∈ drained ∨ part.stream? = some n) :
    Unbroken read rest count := by
  intro i hi later message hlater hbreaks
  refine h (i + 1) (Nat.succ_lt_succ hi) later message hlater ?_
  exact hbreaks.congr fun n => (mem_readBefore_succ hread i n).symm

theorem materialize_cons_of_becomes {entry : FormEntry} (h : part.Becomes drained entry)
    (rest : List Part) :
    ∃ read, (∀ n, n ∈ read ↔ n ∈ drained ∨ part.stream? = some n) ∧
      materialize drained (part :: rest) =
        match materialize read rest with
        | (.ok form, after) => (.ok (entry :: form), after)
        | (.error fault, after) => (.error fault, after) := by
  cases h with
  | field name value => exact ⟨drained, by simp [Part.stream?], rfl⟩
  | file name filename mediaType hgives =>
      obtain ⟨read, hsource, hread⟩ := hgives.readSource
      refine ⟨read, hread, ?_⟩
      rw [materialize, hsource]
      rfl

theorem materialize_cons_of_breaksOff {message : String} (h : part.BreaksOff drained message)
    (rest : List Part) :
    materialize drained (part :: rest) = (.error (.error message), drained) := by
  cases h with
  | file name filename mediaType hbreaks => rw [materialize, hbreaks.readSource]

theorem isFormOf_nil (drained : Drained) : IsFormOf drained [] [] drained where
  length_eq := rfl
  entry := nofun
  mem_after n := by simp [streams]

theorem IsFormOf.cons {entry : FormEntry} {form : List FormEntry} {after : Drained}
    (hread : ∀ n, n ∈ read ↔ n ∈ drained ∨ part.stream? = some n)
    (hentry : part.Becomes drained entry) (h : IsFormOf read rest form after) :
    IsFormOf drained (part :: rest) (entry :: form) after where
  length_eq := congrArg (· + 1) h.length_eq
  entry i later hlater := by
    cases i with
    | zero =>
        cases hlater
        rw [readBefore_zero]
        exact ⟨entry, rfl, hentry⟩
    | succ i =>
        obtain ⟨entry', hform, hbecomes⟩ := h.entry i later hlater
        exact ⟨entry', hform, hbecomes.congr fun n => (mem_readBefore_succ hread i n).symm⟩
  mem_after n := by rw [h.mem_after, hread, mem_streams_cons, or_assoc]

theorem materialize_of_unbroken (hcomplete : ∀ part ∈ parts, part.IsComplete)
    (hunbroken : Unbroken drained parts parts.length) :
    ∃ form after, materialize drained parts = (.ok form, after) ∧
      IsFormOf drained parts form after := by
  induction parts generalizing drained with
  | nil => exact ⟨[], drained, rfl, isFormOf_nil drained⟩
  | cons part rest ih =>
      obtain ⟨hpart, hrest⟩ := List.forall_mem_cons.mp hcomplete
      rcases Part.becomes_or_breaksOff drained hpart with ⟨entry, hentry⟩ | ⟨message, hbreaks⟩
      · obtain ⟨read, hread, hcons⟩ := materialize_cons_of_becomes hentry rest
        obtain ⟨form, after, hform, hisForm⟩ := ih hrest (hunbroken.tail hread)
        rw [hcons, hform]
        exact ⟨entry :: form, after, rfl, hisForm.cons hread hentry⟩
      · exact absurd hbreaks (hunbroken.head message)

theorem materialize_of_breaksOff (hcomplete : ∀ part ∈ parts, part.IsComplete) {i : Nat}
    {message : String} (hpart : parts[i]? = some part)
    (hbreaks : part.BreaksOff (readBefore drained parts i) message)
    (hunbroken : Unbroken drained parts i) :
    ∃ after, materialize drained parts = (.error (.error message), after) ∧
      ∀ n, n ∈ after ↔ n ∈ drained ∨ n ∈ streams (parts.take i) := by
  induction parts generalizing drained i with
  | nil => cases hpart
  | cons first rest ih =>
      obtain ⟨hfirst, hrest⟩ := List.forall_mem_cons.mp hcomplete
      cases i with
      | zero =>
          cases hpart
          rw [readBefore_zero] at hbreaks
          exact ⟨drained, materialize_cons_of_breaksOff hbreaks rest, by simp [streams]⟩
      | succ i =>
          rcases Part.becomes_or_breaksOff drained hfirst with ⟨entry, hentry⟩ | ⟨text, hfails⟩
          · obtain ⟨read, hread, hcons⟩ := materialize_cons_of_becomes hentry rest
            -- The broken stream stands one position earlier in the rest.
            obtain ⟨after, hafter, hmem⟩ := ih hrest hpart
              (hbreaks.congr (mem_readBefore_succ hread i)) (hunbroken.tail hread)
            rw [hcons, hafter]
            refine ⟨after, rfl, fun n => ?_⟩
            rw [hmem, hread, List.take_succ_cons, mem_streams_cons, or_assoc]
          · exact absurd hfails (hunbroken.head text)

theorem unbroken_of_ok (hcomplete : ∀ part ∈ parts, part.IsComplete) {form : List FormEntry}
    (h : (materialize drained parts).1 = .ok form) (count : Nat) :
    Unbroken drained parts count := by
  induction count with
  | zero => exact nofun
  | succ k ih =>
      intro i hi part message hpart hbreaks
      rcases Nat.lt_succ_iff_lt_or_eq.mp hi with hlt | rfl
      · exact ih i hlt part message hpart hbreaks
      · obtain ⟨after, herror, -⟩ := materialize_of_breaksOff hcomplete hpart hbreaks ih
        rw [herror] at h
        cases h

theorem isFormOf_of_ok (hcomplete : ∀ part ∈ parts, part.IsComplete) {form : List FormEntry}
    {after : Drained} (h : materialize drained parts = (.ok form, after)) :
    IsFormOf drained parts form after := by
  obtain ⟨form', after', hform, hisForm⟩ :=
    materialize_of_unbroken hcomplete (unbroken_of_ok hcomplete (congrArg Prod.fst h) _)
  cases h.symm.trans hform
  exact hisForm

theorem mem_of_readSource {n : Nat} {source : ByteSource} {bytes : Bytes}
    (h : readSource drained source = .ok (bytes, read)) (hn : n ∈ drained) : n ∈ read := by
  obtain ⟨number, content⟩ := source
  cases content with
  | buffer _ | window _ _ _ | blob _ _ =>
      cases h
      exact hn
  | nothing how => cases h
  | stream chunks error =>
      simp only [readSource] at h
      split at h
      · cases h
        exact hn
      · cases error with
        | some message => cases h
        | none =>
            cases h
            exact List.mem_cons_of_mem _ hn

theorem mem_materialize {n : Nat} (hn : n ∈ drained) : n ∈ (materialize drained parts).2 := by
  induction parts generalizing drained with
  | nil => exact hn
  | cons part rest ih =>
      cases part with
      | field name value =>
          have hrest := ih hn
          rw [materialize]
          split <;> (rename_i heq; rwa [heq] at hrest)
      | file name filename mediaType source =>
          rw [materialize]
          split
          · exact hn
          · rename_i bytes read hsource
            have hread := mem_of_readSource hsource hn
            have hrest := ih hread
            split
            · exact hread
            · split <;> (rename_i heq; rwa [heq] at hrest)

theorem mem_readAfter {n : Nat} (hn : n ∈ drained) (bodies : List (List Part)) :
    n ∈ readAfter drained bodies := by
  induction bodies generalizing drained with
  | nil => exact hn
  | cons parts rest ih => exact ih (mem_materialize hn)

end FormData

theorem Part.BreaksOff.stream {read : FormData.Drained} {part : Part} {message : String}
    (h : part.BreaksOff read message) : ∃ n, part.stream? = some n ∧ n ∉ read := by
  cases h with
  | file name filename mediaType hbreaks =>
      cases hbreaks with
      | stream chunks _ hfresh => exact ⟨_, rfl, hfresh⟩

namespace FormData

variable {drained read : Drained} {parts : List Part}

theorem IsFormOf.reconverted {form : List FormEntry} {after : Drained}
    (h : IsFormOf drained parts form after) (hcomplete : ∀ part ∈ parts, part.IsComplete)
    (hread : ∀ n ∈ streams parts, n ∈ read) :
    (materialize read parts).1 = .ok (parts.zipWith Part.reconverted form) := by
  have hstream {i : Nat} {part : Part} (hpart : parts[i]? = some part) (n : Nat)
      (hn : part.stream? = some n) : n ∈ readBefore read parts i :=
    List.mem_append_left _
      (hread n (List.mem_filterMap.mpr ⟨part, List.mem_of_getElem? hpart, hn⟩))
  have hunbroken : Unbroken read parts parts.length := by
    intro i _ part message hpart hbreaks
    obtain ⟨n, hn, hfresh⟩ := hbreaks.stream
    exact hfresh (hstream hpart n hn)
  obtain ⟨form', after', hform', hisForm⟩ := materialize_of_unbroken hcomplete hunbroken
  rw [hform']
  refine congrArg Except.ok (List.ext_getElem? fun i => ?_)
  rw [List.getElem?_zipWith]
  cases hpart : parts[i]? with
  | none =>
      rw [List.getElem?_eq_none_iff] at hpart ⊢
      rwa [hisForm.length_eq]
  | some part =>
      obtain ⟨entry, hentry, hbecomes⟩ := h.entry i part hpart
      obtain ⟨entry', hentry', hbecomes'⟩ := hisForm.entry i part hpart
      rw [hentry, hentry', hbecomes'.unique (hbecomes.reconverted (hstream hpart))]

end FormData

open FormData

/-- Parts become a form in their order, one entry each, with the bytes that their sources give; a
stream gives all its bytes to the first part that reads it and none to any other, be it of this body
or of a later one. The first stream that breaks off ends the conversion with its error, and streams
behind it are not read. A body that was converted once becomes the same form ever after, but for the
bytes of its streams, which are gone. -/
theorem parts_materialized_in_order (drained : Drained) (parts : List Part)
    (hcomplete : ∀ part ∈ parts, part.IsComplete) :
    (Unbroken drained parts parts.length →
      ∃ form after, materialize drained parts = (.ok form, after) ∧
        IsFormOf drained parts form after) ∧
    (∀ (i : Nat) (part : Part) (message : String), parts[i]? = some part →
      part.BreaksOff (readBefore drained parts i) message → Unbroken drained parts i →
      ∃ after, materialize drained parts = (.error (.error message), after) ∧
        ∀ n, n ∈ after ↔ n ∈ drained ∨ n ∈ streams (parts.take i)) ∧
    (∀ form after, materialize drained parts = (.ok form, after) →
      ∀ bodies : List (List Part), (materialize (readAfter after bodies) parts).1 =
        .ok (parts.zipWith Part.reconverted form)) := by
  refine ⟨materialize_of_unbroken hcomplete,
    fun i part message => materialize_of_breaksOff hcomplete, fun form after h bodies => ?_⟩
  have hform := isFormOf_of_ok hcomplete h
  refine hform.reconverted hcomplete fun n hn => mem_readAfter ?_ bodies
  exact (hform.mem_after n).mpr (.inr hn)

/-- Two files share a stream, which gives its bytes to the first of them and none when the body is
converted again. With a stream that breaks off in front of them, nothing is read. -/
theorem shared_stream_read_once :
    let shared : ByteSource := ⟨0, .stream [[1], [2, 3]] none⟩
    let parts : List Part := [.file "file0" (.ofText "a.txt") MediaType.octetStream shared,
      .file "file1" (.ofText "b.txt") MediaType.octetStream ⟨1, .window [9, 8, 7] (some 1) (some 2)⟩,
      .file "file2" (.ofText "a.txt") MediaType.octetStream shared,
      .file "file3" (.ofText "c.png") MediaType.octetStream ⟨2, .blob [5] (some "image/png")⟩,
      .field "payload_json" "{}"]
    let form (bytes : Bytes) : List FormEntry := [.file "file0" "a.txt" MediaType.octetStream bytes,
      .file "file1" "b.txt" MediaType.octetStream [8],
      .file "file2" "a.txt" MediaType.octetStream [],
      .file "file3" "c.png" MediaType.octetStream [5],
      .text "payload_json" "{}"]
    let broken : Part :=
      .file "file4" (.ofText "d.txt") MediaType.octetStream ⟨3, .stream [[1]] (some "broken")⟩
    (∀ part ∈ broken :: parts, part.IsComplete) ∧
    materialize [] parts = (.ok (form [1, 2, 3]), [0]) ∧
    (materialize (readAfter [0] [parts, parts]) parts).1 = .ok (form []) ∧
    ∃ after, materialize [] (broken :: parts) = (.error (.error "broken"), after) ∧ 0 ∉ after := by
  intro shared parts form broken
  have hcomplete : ∀ part ∈ broken :: parts, part.IsComplete := by
    simp only [parts, List.forall_mem_cons]
    refine ⟨.file _ _ _ nofun, .file _ _ _ nofun, .file _ _ _ nofun, .file _ _ _ nofun,
      .file _ _ _ nofun, .field _ _, nofun⟩
  have hform : materialize [] parts = (.ok (form [1, 2, 3]), [0]) := rfl
  obtain ⟨-, -, hagain⟩ := parts_materialized_in_order [] parts
    fun part hpart => hcomplete part (List.mem_cons_of_mem _ hpart)
  obtain ⟨-, hbreaks, -⟩ := parts_materialized_in_order [] (broken :: parts) hcomplete
  obtain ⟨after, herror, hafter⟩ := hbreaks 0 broken "broken" rfl
    (.file _ _ _ (.stream _ _ (List.not_mem_nil))) nofun
  refine ⟨hcomplete, hform, hagain _ _ hform _, after, herror, ?_⟩
  simp [hafter, streams]

end Courier
