import Mathlib.Data.List.Forall2
import Courier.WireBody

/-!
Who carries which file. A history of files says which files were accepted and when all pending ones
were taken out of the message. Every accepted file that no later one of its name overwrites is taken
once, by the first finalization after it, or it is still pending.
-/

namespace Courier

def Part.file? : Part → Option (Given × ByteSource)
  | .file _ filename _ source => some (filename, source)
  | .field _ _ => none

namespace WireBody

def files (body : WireBody) : List (Given × ByteSource) :=
  body.parts.filterMap Part.file?

def isMultipart : WireBody → Bool
  | json _ => false
  | multipart _ _ => true

end WireBody

/-- What happens to files: one is accepted under its final name, or all that are pending are taken
out, because the message is finalized. -/
inductive FileMove where
  | accepted (file : Attachment)
  | takenOut

namespace FileMove

def isTakenOut : FileMove → Bool
  | accepted _ => false
  | takenOut => true

def finalizedBefore (moves : List FileMove) (i : Nat) : Nat :=
  (moves.take i).countP isTakenOut

/-- The file that is accepted by move `i` is overwritten: its name is used again by a later move,
and the message is not finalized between the two. -/
def Overwritten (moves : List FileMove) (i : Nat) : Prop :=
  ∃ (j : Nat) (a b : Attachment), i < j ∧ moves[i]? = some (accepted a) ∧
    moves[j]? = some (accepted b) ∧ a.name.isSame b.name = true ∧
    finalizedBefore moves i = finalizedBefore moves j

theorem finalizedBefore_append {moves : List FileMove} {i : Nat} (h : i ≤ moves.length)
    (more : List FileMove) : finalizedBefore (moves ++ more) i = finalizedBefore moves i := by
  rw [finalizedBefore, List.take_append_of_le_length h, finalizedBefore]

theorem lt_length_of_getElem? {moves : List FileMove} {i : Nat} {m : FileMove}
    (h : moves[i]? = some m) : i < moves.length :=
  (List.getElem?_eq_some_iff.mp h).1

theorem getElem?_append_some {moves : List FileMove} {i : Nat} {m : FileMove}
    (h : moves[i]? = some m) (more : List FileMove) : (moves ++ more)[i]? = some m := by
  rw [List.getElem?_append_left (lt_length_of_getElem? h), h]

theorem finalizedBefore_append_of_getElem? {moves : List FileMove} {i : Nat} {m : FileMove}
    (h : moves[i]? = some m) (more : List FileMove) :
    finalizedBefore (moves ++ more) i = finalizedBefore moves i :=
  finalizedBefore_append (Nat.le_of_lt (lt_length_of_getElem? h)) more

theorem getElem?_concat {moves : List FileMove} {i : Nat} {m last : FileMove}
    (h : (moves ++ [last])[i]? = some m) :
    moves[i]? = some m ∨ (i = moves.length ∧ m = last) := by
  have hlt := lt_length_of_getElem? h
  simp only [List.length_append, List.length_singleton] at hlt
  rcases Nat.lt_or_ge i moves.length with hi | hi
  · rw [List.getElem?_append_left hi] at h
    exact .inl h
  · have hlast : i = moves.length := by omega
    subst hlast
    rw [List.getElem?_concat_length] at h
    exact .inr ⟨rfl, (Option.some.inj h).symm⟩

theorem Overwritten.append {moves : List FileMove} {i : Nat} (h : Overwritten moves i)
    (more : List FileMove) : Overwritten (moves ++ more) i := by
  obtain ⟨j, a, b, hij, hi, hj, hname, hbodies⟩ := h
  refine ⟨j, a, b, hij, getElem?_append_some hi _, getElem?_append_some hj _, hname, ?_⟩
  rw [finalizedBefore_append_of_getElem? hi, finalizedBefore_append_of_getElem? hj, hbodies]

theorem overwritten_append_takenOut {moves : List FileMove} {i : Nat} :
    Overwritten (moves ++ [takenOut]) i ↔ Overwritten moves i := by
  constructor
  · rintro ⟨j, a, b, hij, hi, hj, hname, hbodies⟩
    rcases getElem?_concat hi with hi | ⟨-, hi⟩
    · rcases getElem?_concat hj with hj | ⟨-, hj⟩
      · rw [finalizedBefore_append_of_getElem? hi, finalizedBefore_append_of_getElem? hj] at hbodies
        exact ⟨j, a, b, hij, hi, hj, hname, hbodies⟩
      · cases hj
    · cases hi
  · intro h
    exact h.append _

theorem overwritten_append_accepted {moves : List FileMove} {i : Nat} {a b : Attachment}
    (hi : moves[i]? = some (accepted a)) :
    Overwritten (moves ++ [accepted b]) i ↔
      Overwritten moves i ∨ (a.name.isSame b.name = true ∧
        finalizedBefore moves i = finalizedBefore moves moves.length) := by
  have hold := finalizedBefore_append_of_getElem? hi [accepted b]
  have hnew : finalizedBefore (moves ++ [accepted b]) moves.length =
      finalizedBefore moves moves.length := finalizedBefore_append (Nat.le_refl _) _
  constructor
  · rintro ⟨j, a', b', hij, hi', hj, hname, hbodies⟩
    rw [getElem?_append_some hi] at hi'
    cases hi'
    rcases getElem?_concat hj with hj | ⟨rfl, hlast⟩
    · rw [hold, finalizedBefore_append_of_getElem? hj] at hbodies
      exact .inl ⟨j, a, b', hij, hi, hj, hname, hbodies⟩
    · cases hlast
      exact .inr ⟨hname, by rw [← hold, hbodies, hnew]⟩
  · rintro (h | ⟨hname, hbodies⟩)
    · exact h.append _
    · refine ⟨moves.length, a, b, lt_length_of_getElem? hi, getElem?_append_some hi _,
        List.getElem?_concat_length, hname, ?_⟩
      rw [hold, hbodies, hnew]

theorem finalizedBefore_concat (moves : List FileMove) (m : FileMove) :
    finalizedBefore (moves ++ [m]) (moves ++ [m]).length =
      finalizedBefore moves moves.length + if m.isTakenOut then 1 else 0 := by
  rw [finalizedBefore, finalizedBefore, List.take_length, List.take_length, List.countP_append,
    List.countP_singleton]

theorem not_overwritten_length {moves : List FileMove} {m : FileMove} :
    ¬ Overwritten (moves ++ [m]) moves.length := by
  rintro ⟨j, a, b, hij, -, hj, -⟩
  have hjlt := lt_length_of_getElem? hj
  simp only [List.length_append, List.length_singleton] at hjlt
  omega

end FileMove

/-- A file together with the number of the move that accepted it. -/
abbrev Entry := Nat × Attachment

namespace Entry

/-- Puts an entry at the end, or in the place of the one whose file has its name. -/
def put : List Entry → Entry → List Entry
  | [], e => [e]
  | f :: rest, e => if f.2.name.isSame e.2.name then e :: rest else f :: put rest e

def Differ (e f : Entry) : Prop :=
  e.2.name.isSame f.2.name = false

theorem map_put (entries : List Entry) (e : Entry) :
    (put entries e).map Prod.snd = Attachment.put (entries.map Prod.snd) e.2 := by
  induction entries with
  | nil => rfl
  | cons f rest ih =>
      by_cases h : f.2.name.isSame e.2.name = true
      · simp [put, Attachment.put, h]
      · simp [put, Attachment.put, h, ih]

theorem mem_put_iff {entries : List Entry} (h : entries.Pairwise Differ) (e x : Entry) :
    x ∈ put entries e ↔ x = e ∨ (x ∈ entries ∧ x.Differ e) := by
  induction entries with
  | nil => simp [put]
  | cons f rest ih =>
      obtain ⟨hf, hrest⟩ := List.pairwise_cons.mp h
      by_cases hsame : f.2.name.isSame e.2.name = true
      · -- The others differ from `f`, and so from `e`, whose name is that of `f`.
        have hothers : ∀ y ∈ rest, y.Differ e := by
          intro y hy
          rcases hye : y.2.name.isSame e.2.name with _ | _
          · exact hye
          · have hdiffer := hf y hy
            rw [Differ, Json.eq_of_isSame hye, hsame] at hdiffer
            cases hdiffer
        simp only [put, hsame, if_true, List.mem_cons]
        constructor
        · rintro (rfl | hx)
          · exact .inl rfl
          · exact .inr ⟨.inr hx, hothers x hx⟩
        · rintro (rfl | ⟨rfl | hx, hdiffer⟩)
          · exact .inl rfl
          · rw [Differ, hsame] at hdiffer
            cases hdiffer
          · exact .inr hx
      · have hdiffer : f.Differ e := Bool.eq_false_iff.mpr hsame
        simp only [put, hsame, Bool.false_eq_true, if_false, List.mem_cons, ih hrest]
        constructor
        · rintro (rfl | rfl | ⟨hx, hxe⟩)
          · exact .inr ⟨.inl rfl, hdiffer⟩
          · exact .inl rfl
          · exact .inr ⟨.inr hx, hxe⟩
        · rintro (rfl | ⟨rfl | hx, hxe⟩)
          · exact .inr (.inl rfl)
          · exact .inl rfl
          · exact .inr (.inr ⟨hx, hxe⟩)

theorem pairwise_put {entries : List Entry} (h : entries.Pairwise Differ) (e : Entry) :
    (put entries e).Pairwise Differ := by
  induction entries with
  | nil => exact List.pairwise_singleton _ e
  | cons f rest ih =>
      obtain ⟨hf, hrest⟩ := List.pairwise_cons.mp h
      by_cases hsame : f.2.name.isSame e.2.name = true
      · simp only [put, hsame, if_true]
        refine List.pairwise_cons.mpr ⟨fun y hy => ?_, hrest⟩
        have hdiffer := hf y hy
        rwa [Differ, Json.eq_of_isSame hsame] at hdiffer
      · simp only [put, hsame, Bool.false_eq_true, if_false]
        refine List.pairwise_cons.mpr ⟨fun y hy => ?_, ih hrest⟩
        rcases (mem_put_iff hrest e y).mp hy with rfl | ⟨hy, -⟩
        · exact Bool.eq_false_iff.mpr hsame
        · exact hf y hy

theorem nodup_put {entries : List Entry} (hdiffer : entries.Pairwise Differ)
    (h : (entries.map Prod.fst).Nodup) {e : Entry} (he : ∀ f ∈ entries, f.1 ≠ e.1) :
    ((put entries e).map Prod.fst).Nodup := by
  induction entries with
  | nil => simp [put]
  | cons f rest ih =>
      obtain ⟨hf, hrest⟩ := List.nodup_cons.mp h
      obtain ⟨-, hdiffer⟩ := List.pairwise_cons.mp hdiffer
      have hers := fun y hy => he y (List.mem_cons_of_mem f hy)
      by_cases hsame : f.2.name.isSame e.2.name = true
      · simp only [put, hsame, if_true]
        refine List.nodup_cons.mpr ⟨fun hmem => ?_, hrest⟩
        obtain ⟨y, hy, hye⟩ := List.mem_map.mp hmem
        exact hers y hy hye
      · simp only [put, hsame, Bool.false_eq_true, if_false]
        refine List.nodup_cons.mpr ⟨fun hmem => ?_, ih hdiffer hrest hers⟩
        obtain ⟨y, hy, hyf⟩ := List.mem_map.mp hmem
        rcases (mem_put_iff hdiffer e y).mp hy with rfl | ⟨hy, -⟩
        · exact he f List.mem_cons_self hyf.symm
        · exact hf (List.mem_map.mpr ⟨y, hy, hyf⟩)

end Entry

open FileMove

/-- A body that is made has the files of some entries as its file parts, in their order, and travels
in parts exactly if there are any. -/
def Carries (entries : List Entry) (result : Except Fault WireBody) : Prop :=
  ∀ body, result = .ok body →
    body.files = entries.map (fun e => (some e.2.name, e.2.source)) ∧
      (body.isMultipart = true ↔ entries ≠ [])

/-- Which entries were taken out together, and which are still pending, after some moves. Each
finalization took a group of them, and what came of it carries the group if it is a body. -/
structure Distribution (moves : List FileMove) (results : List (Except Fault WireBody))
    (files : List Attachment) (groups : List (List Entry)) (pending : List Entry) : Prop where
  results_carry : List.Forall₂ Carries groups results
  pending_files : pending.map Prod.snd = files
  /-- An entry stands for a move that accepted its file. -/
  accepted : ∀ e ∈ groups.flatten ++ pending, moves[e.1]? = some (.accepted e.2)
  /-- No accepted file occurs twice, in groups or among the pending files. -/
  nodup : ((groups.flatten ++ pending).map Prod.fst).Nodup
  /-- An accepted file occurs unless it is overwritten. -/
  occurs_iff : ∀ i a, moves[i]? = some (.accepted a) →
    ((i, a) ∈ groups.flatten ++ pending ↔ ¬ Overwritten moves i)
  /-- What a finalization takes was accepted after the finalization before it. -/
  taken_first : ∀ k entries, groups[k]? = some entries →
    ∀ e ∈ entries, finalizedBefore moves e.1 = k
  /-- What is pending was accepted after the last finalization. -/
  pending_last : ∀ e ∈ pending, finalizedBefore moves e.1 = results.length
  names_differ : pending.Pairwise Entry.Differ
  results_made : finalizedBefore moves moves.length = results.length

/-- The file of an entry is in a body, or it is pending. -/
def Entry.IsKept (groups : List (List Entry)) (results : List (Except Fault WireBody))
    (pending : List Entry) (e : Entry) : Prop :=
  (∃ (k : Nat) (entries : List Entry) (body : WireBody),
    groups[k]? = some entries ∧ results[k]? = some (.ok body) ∧ e ∈ entries) ∨ e ∈ pending

/-- The file that is accepted by move `i` is lost: the first finalization after it throws. -/
def FileMove.Lost (moves : List FileMove) (results : List (Except Fault WireBody)) (i : Nat) :
    Prop :=
  ∃ fault, results[finalizedBefore moves i]? = some (.error fault)

namespace Distribution

variable {moves : List FileMove} {results : List (Except Fault WireBody)} {files : List Attachment}
  {groups : List (List Entry)} {pending : List Entry}

theorem nil : Distribution [] [] [] [] [] where
  results_carry := .nil
  pending_files := rfl
  accepted _ he := by cases he
  nodup := List.nodup_nil
  occurs_iff i a h := by cases h
  taken_first k entries h := by cases h
  pending_last _ he := by cases he
  names_differ := .nil
  results_made := rfl

theorem finalizedBefore_lt (d : Distribution moves results files groups pending) {e : Entry}
    (he : e ∈ groups.flatten) : finalizedBefore moves e.1 < results.length := by
  obtain ⟨entries, hentries, he⟩ := List.mem_flatten.mp he
  obtain ⟨k, hk⟩ := List.mem_iff_getElem?.mp hentries
  rw [d.taken_first k entries hk e he, ← d.results_carry.length_eq]
  exact (List.getElem?_eq_some_iff.mp hk).1

theorem accept (d : Distribution moves results files groups pending) (a : Attachment) :
    Distribution (moves ++ [.accepted a]) results (Attachment.put files a) groups
      (Entry.put pending (moves.length, a)) where
  results_carry := d.results_carry
  pending_files := by rw [Entry.map_put, d.pending_files]
  accepted e he := by
    rcases List.mem_append.mp he with he | he
    · exact getElem?_append_some (d.accepted e (List.mem_append_left _ he)) _
    · rcases (Entry.mem_put_iff d.names_differ _ e).mp he with rfl | ⟨he, -⟩
      · exact List.getElem?_concat_length
      · exact getElem?_append_some (d.accepted e (List.mem_append_right _ he)) _
  nodup := by
    have hnodup := d.nodup
    rw [List.map_append, List.nodup_append] at hnodup ⊢
    obtain ⟨hcarried, hpending, hapart⟩ := hnodup
    have hold : ∀ e ∈ groups.flatten ++ pending, e.1 ≠ moves.length := fun e he =>
      Nat.ne_of_lt (lt_length_of_getElem? (d.accepted e he))
    refine ⟨hcarried, ?_, ?_⟩
    · apply Entry.nodup_put d.names_differ hpending
      intro f hf
      exact hold f (List.mem_append_right _ hf)
    intro i hi j hj
    obtain ⟨e, he, rfl⟩ := List.mem_map.mp hi
    obtain ⟨f, hf, rfl⟩ := List.mem_map.mp hj
    rcases (Entry.mem_put_iff d.names_differ _ f).mp hf with rfl | ⟨hf, -⟩
    · exact hold e (List.mem_append_left _ he)
    · exact hapart e.1 hi f.1 (List.mem_map.mpr ⟨f, hf, rfl⟩)
  occurs_iff i b hi := by
    rcases getElem?_concat hi with hi | ⟨rfl, hlast⟩
    · -- An older file still occurs unless the new one takes its place among the pending ones.
      have hne : (i, b) ≠ (moves.length, a) := fun h =>
        Nat.ne_of_lt (lt_length_of_getElem? hi) (congrArg Prod.fst h)
      have hmade := d.results_made
      rw [overwritten_append_accepted hi, not_or, ← d.occurs_iff i b hi, List.mem_append,
        List.mem_append, Entry.mem_put_iff d.names_differ]
      constructor
      · rintro (hin | hin | ⟨hin, hdiffer⟩)
        · refine ⟨.inl hin, ?_⟩
          intro h
          have hlt : finalizedBefore moves i < results.length := d.finalizedBefore_lt hin
          omega
        · exact absurd hin hne
        · refine ⟨.inr hin, ?_⟩
          intro h
          rw [Entry.Differ, h.1] at hdiffer
          cases hdiffer
      · rintro ⟨hin | hin, hkept⟩
        · exact .inl hin
        · have hlast := d.pending_last _ hin
          refine .inr (.inr ⟨hin, Bool.eq_false_iff.mpr ?_⟩)
          intro hsame
          apply hkept
          refine ⟨hsame, ?_⟩
          rw [hlast, hmade]
    · cases hlast
      refine iff_of_true (List.mem_append_right _ ?_) not_overwritten_length
      exact (Entry.mem_put_iff d.names_differ _ _).mpr (.inl rfl)
  taken_first k entries hk e he := by
    have hin : e ∈ groups.flatten :=
      List.mem_flatten.mpr ⟨entries, List.mem_of_getElem? hk, he⟩
    rw [finalizedBefore_append_of_getElem? (d.accepted e (List.mem_append_left _ hin)),
      d.taken_first k entries hk e he]
  pending_last e he := by
    rcases (Entry.mem_put_iff d.names_differ _ e).mp he with rfl | ⟨he, -⟩
    · rw [finalizedBefore_append (Nat.le_refl _), d.results_made]
    · rw [finalizedBefore_append_of_getElem? (d.accepted e (List.mem_append_right _ he)),
        d.pending_last e he]
  names_differ := Entry.pairwise_put d.names_differ _
  results_made := by
    rw [finalizedBefore_concat, d.results_made]
    rfl

theorem takeOut (d : Distribution moves results files groups pending) {result : Except Fault WireBody}
    (hresult : Carries pending result) :
    Distribution (moves ++ [.takenOut]) (results ++ [result]) [] (groups ++ [pending]) [] where
  results_carry := List.rel_append d.results_carry (.cons hresult .nil)
  pending_files := rfl
  accepted e he := by
    rw [List.append_nil, List.flatten_concat] at he
    exact getElem?_append_some (d.accepted e he) _
  nodup := by
    rw [List.append_nil, List.flatten_concat]
    exact d.nodup
  occurs_iff i a hi := by
    rcases getElem?_concat hi with hi | ⟨-, hi⟩
    · rw [List.append_nil, List.flatten_concat, overwritten_append_takenOut]
      exact d.occurs_iff i a hi
    · cases hi
  taken_first k entries hk e he := by
    have hlength := d.results_carry.length_eq
    rcases Nat.lt_or_ge k groups.length with hlt | hge
    · rw [List.getElem?_append_left hlt] at hk
      have hin : e ∈ groups.flatten :=
        List.mem_flatten.mpr ⟨entries, List.mem_of_getElem? hk, he⟩
      rw [finalizedBefore_append_of_getElem? (d.accepted e (List.mem_append_left _ hin)),
        d.taken_first k entries hk e he]
    · have hlt := (List.getElem?_eq_some_iff.mp hk).1
      rw [List.length_append, List.length_singleton] at hlt
      have hlast : k = groups.length := by omega
      subst hlast
      rw [List.getElem?_concat_length] at hk
      cases hk
      rw [finalizedBefore_append_of_getElem? (d.accepted e (List.mem_append_right _ he)),
        d.pending_last e he, hlength]
  pending_last _ he := by cases he
  names_differ := .nil
  results_made := by
    rw [finalizedBefore_concat, d.results_made, List.length_append]
    rfl

/-- A file is in a body or pending exactly if it is neither overwritten nor lost. -/
theorem isKept_iff (d : Distribution moves results files groups pending) {i : Nat} {a : Attachment}
    (hi : moves[i]? = some (.accepted a)) :
    Entry.IsKept groups results pending (i, a) ↔ ¬ Overwritten moves i ∧ ¬ Lost moves results i := by
  rw [← d.occurs_iff i a hi]
  constructor
  · rintro (⟨k, entries, body, hk, hbody, hmem⟩ | hpending)
    · refine ⟨List.mem_append_left _ (List.mem_flatten.mpr ⟨entries, List.mem_of_getElem? hk, hmem⟩), ?_⟩
      rintro ⟨fault, hfault⟩
      have hfirst : finalizedBefore moves i = k := d.taken_first k entries hk (i, a) hmem
      rw [hfirst, hbody] at hfault
      cases hfault
    · refine ⟨List.mem_append_right _ hpending, ?_⟩
      rintro ⟨fault, hfault⟩
      have hlast : finalizedBefore moves i = results.length := d.pending_last (i, a) hpending
      rw [hlast, List.getElem?_eq_none (Nat.le_refl _)] at hfault
      cases hfault
  · rintro ⟨hmem, hkept⟩
    rcases List.mem_append.mp hmem with hgroup | hpending
    · obtain ⟨entries, hentries, hmem⟩ := List.mem_flatten.mp hgroup
      obtain ⟨k, hk⟩ := List.mem_iff_getElem?.mp hentries
      have hfirst : finalizedBefore moves i = k := d.taken_first k entries hk (i, a) hmem
      obtain ⟨result, hresult⟩ : ∃ result, results[k]? = some result := by
        obtain ⟨hlt, -⟩ := List.getElem?_eq_some_iff.mp hk
        exact ⟨_, List.getElem?_eq_getElem (d.results_carry.length_eq ▸ hlt)⟩
      cases result with
      | error fault => exact absurd ⟨fault, hfirst ▸ hresult⟩ hkept
      | ok body => exact .inl ⟨k, entries, body, hk, hresult, hmem⟩
    · exact .inr hpending

end Distribution

end Courier
