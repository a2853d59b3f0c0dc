import Mathlib.Data.List.TakeWhile
import Courier.Text

namespace Courier.Text

theorem span_append {p : Char → Bool} {front rest : List Char}
    (hfront : ∀ c ∈ front, p c = true) (hrest : ∀ c ∈ rest.head?, p c = false) :
    (front ++ rest).takeWhile p = front ∧ (front ++ rest).dropWhile p = rest := by
  rw [List.takeWhile_append_of_pos hfront, List.dropWhile_append_of_pos hfront]
  cases rest with
  | nil => exact ⟨List.append_nil front, rfl⟩
  | cons c tail =>
      have hc : ¬ p c = true := Bool.eq_false_iff.mp (hrest c rfl)
      rw [List.takeWhile_cons_of_neg hc, List.dropWhile_cons_of_neg hc]
      exact ⟨List.append_nil front, rfl⟩

theorem span_bne_append {sep : Char} {front rest : List Char} (hfront : sep ∉ front)
    (hrest : rest.head? = none ∨ rest.head? = some sep) :
    (front ++ rest).takeWhile (· != sep) = front ∧
      (front ++ rest).dropWhile (· != sep) = rest := by
  refine span_append ?_ ?_
  · intro c hc
    rw [bne_iff_ne]
    rintro rfl
    exact hfront hc
  · intro c hc
    rcases hrest with hnone | hsome
    · rw [hnone] at hc
      cases hc
    · rw [hsome] at hc
      cases hc
      exact bne_self_eq_false sep

/-- A list has some runs: each is as long as it can be, and between them, before the first and
behind the last there are separators only. -/
inductive HasRuns (isSeparator : Char → Bool) : List Char → List (List Char) → Prop
  | nil {gap : List Char} (hgap : ∀ c ∈ gap, isSeparator c = true) : HasRuns isSeparator gap []
  | cons {gap run rest : List Char} {runs : List (List Char)}
      (hgap : ∀ c ∈ gap, isSeparator c = true) (hne : run ≠ [])
      (hrun : ∀ c ∈ run, isSeparator c = false)
      (hend : ∀ c ∈ rest.head?, isSeparator c = true) (hrest : HasRuns isSeparator rest runs) :
      HasRuns isSeparator (gap ++ run ++ rest) (run :: runs)

def runs (isSeparator : Char → Bool) (cs : List Char) : List (List Char) :=
  (cs.splitOnP isSeparator).filter (! ·.isEmpty)

theorem words_eq (isSeparator : Char → Bool) (s : String) :
    words isSeparator s = (runs isSeparator s.toList).map .ofList :=
  rfl

variable {isSeparator : Char → Bool}

/-- A separator belongs to no run, so it cuts a list in two. -/
theorem runs_append_cons {c : Char} (hc : isSeparator c = true) (before behind : List Char) :
    runs isSeparator (before ++ c :: behind) =
      runs isSeparator before ++ runs isSeparator behind := by
  rw [runs, List.splitOnP_append_cons before behind hc, List.filter_append]
  rfl

theorem runs_of_separators {gap : List Char} (hgap : ∀ c ∈ gap, isSeparator c = true)
    (rest : List Char) : runs isSeparator (gap ++ rest) = runs isSeparator rest := by
  induction gap with
  | nil => rfl
  | cons c gap ih =>
      obtain ⟨hc, hgap⟩ := List.forall_mem_cons.mp hgap
      have hcut := runs_append_cons hc [] (gap ++ rest)
      rw [List.cons_append]
      exact hcut.trans (ih hgap)

theorem runs_of_run {run : List Char} (hne : run ≠ [])
    (hrun : ∀ c ∈ run, isSeparator c = false) : runs isSeparator run = [run] := by
  have hempty : run.isEmpty = false := List.isEmpty_eq_false_iff.mpr hne
  rw [runs, List.splitOnP_eq_singleton hrun, List.filter_cons_of_pos (by rw [hempty]; rfl),
    List.filter_nil]

theorem runs_run_append {run rest : List Char} (hne : run ≠ [])
    (hrun : ∀ c ∈ run, isSeparator c = false)
    (hend : ∀ c ∈ rest.head?, isSeparator c = true) :
    runs isSeparator (run ++ rest) = run :: runs isSeparator rest := by
  cases rest with
  | nil =>
      rw [List.append_nil, runs_of_run hne hrun]
      rfl
  | cons c rest =>
      have hc : isSeparator c = true := hend c rfl
      have hrest : runs isSeparator (c :: rest) = runs isSeparator rest :=
        runs_append_cons hc [] rest
      rw [runs_append_cons hc, runs_of_run hne hrun, hrest, List.singleton_append]

theorem HasRuns.eq_runs {cs : List Char} {found : List (List Char)}
    (h : HasRuns isSeparator cs found) : found = runs isSeparator cs := by
  induction h with
  | @nil gap hgap =>
      have hruns := runs_of_separators hgap []
      rw [List.append_nil] at hruns
      exact hruns.symm
  | cons hgap hne hrun hend hrest ih =>
      rw [List.append_assoc, runs_of_separators hgap, runs_run_append hne hrun hend, ih]

/-- A separator in front of a list belongs to the gap in front of the first run. -/
theorem HasRuns.cons_separator {c : Char} {cs : List Char} {found : List (List Char)}
    (hc : isSeparator c = true) (h : HasRuns isSeparator cs found) :
    HasRuns isSeparator (c :: cs) found := by
  cases h with
  | nil hgap => exact .nil (List.forall_mem_cons.mpr ⟨hc, hgap⟩)
  | @cons gap run rest runs hgap hne hrun hend hrest =>
      show HasRuns isSeparator (c :: gap ++ run ++ rest) (run :: runs)
      exact .cons (List.forall_mem_cons.mpr ⟨hc, hgap⟩) hne hrun hend hrest

/-- Any other character in front of a list makes the first run longer, or is a new one. -/
theorem HasRuns.exists_cons {c : Char} {cs : List Char} {found : List (List Char)}
    (hc : isSeparator c = false) (h : HasRuns isSeparator cs found) :
    ∃ longer, HasRuns isSeparator (c :: cs) longer := by
  have hnew (rest : List Char) (runs : List (List Char))
      (hend : ∀ c ∈ rest.head?, isSeparator c = true) (hrest : HasRuns isSeparator rest runs) :
      HasRuns isSeparator ([] ++ [c] ++ rest) ([c] :: runs) :=
    .cons nofun (List.cons_ne_nil c []) (by simpa using hc) hend hrest
  cases h with
  | nil hgap => exact ⟨_, hnew _ _ (fun d hd => hgap d (List.mem_of_head? hd)) (.nil hgap)⟩
  | @cons gap run rest runs hgap hne hrun hend hrest =>
      cases gap with
      | nil =>
          refine ⟨(c :: run) :: runs, ?_⟩
          show HasRuns isSeparator ([] ++ (c :: run) ++ rest) _
          exact .cons nofun (List.cons_ne_nil c run) (List.forall_mem_cons.mpr ⟨hc, hrun⟩) hend
            hrest
      | cons d gap =>
          refine ⟨_, hnew _ _ ?_ (.cons hgap hne hrun hend hrest)⟩
          rintro _ ⟨⟩
          exact hgap d List.mem_cons_self

theorem hasRuns_runs (isSeparator : Char → Bool) (cs : List Char) :
    HasRuns isSeparator cs (runs isSeparator cs) := by
  have hexists : ∃ found, HasRuns isSeparator cs found := by
    induction cs with
    | nil => exact ⟨[], .nil nofun⟩
    | cons c cs ih =>
        obtain ⟨found, h⟩ := ih
        by_cases hc : isSeparator c = true
        · exact ⟨found, h.cons_separator hc⟩
        · exact h.exists_cons (Bool.eq_false_iff.mpr hc)
  obtain ⟨found, h⟩ := hexists
  rwa [← h.eq_runs]

/-- The words of a text, by what makes them its words. -/
def HasWords (isSeparator : Char → Bool) (s : String) (found : List String) : Prop :=
  HasRuns isSeparator s.toList (found.map String.toList)

theorem hasWords_iff {s : String} {found : List String} :
    HasWords isSeparator s found ↔ found = words isSeparator s := by
  have hback (found : List String) : (found.map String.toList).map String.ofList = found := by
    rw [List.map_map]
    exact List.map_id'' (fun _ => String.ofList_toList) found
  have hforth (found : List (List Char)) : (found.map String.ofList).map String.toList = found := by
    rw [List.map_map]
    exact List.map_id'' (fun _ => String.toList_ofList) found
  constructor
  · intro h
    rw [words_eq, ← HasRuns.eq_runs h, hback]
  · rintro rfl
    rw [HasWords, words_eq, hforth]
    exact hasRuns_runs isSeparator s.toList

theorem words_append_separator {c : Char} (hc : isSeparator c = true) (s t : String) :
    words isSeparator (s ++ String.singleton c ++ t) =
      words isSeparator s ++ words isSeparator t := by
  have hlist : (s ++ String.singleton c ++ t).toList = s.toList ++ c :: t.toList := by
    rw [String.toList_append, String.toList_append, String.toList_singleton, List.append_assoc,
      List.singleton_append]
  rw [words_eq, hlist, runs_append_cons hc, List.map_append]
  rfl

/-- One text is another one with white space put around it. -/
def IsPaddingOf (padded s : String) : Prop :=
  ∃ before behind : String, padded = before ++ s ++ behind ∧
    isBlankText before = true ∧ isBlankText behind = true

theorem trimChars_append {before behind : List Char} (hbefore : ∀ c ∈ before, isBlank c = true)
    (hbehind : ∀ c ∈ behind, isBlank c = true) (cs : List Char) :
    trimChars (before ++ cs ++ behind) = trimChars cs := by
  rw [trimChars, List.append_assoc, List.dropWhile_append_of_pos hbefore, List.dropWhile_append]
  split
  · rename_i hblank
    rw [trimChars, List.isEmpty_iff.mp hblank, List.dropWhile_eq_nil_iff.mpr hbehind]
  · have hreverse : ∀ c ∈ behind.reverse, isBlank c = true :=
      fun c hc => hbehind c (List.mem_reverse.mp hc)
    rw [List.reverse_append, List.dropWhile_append_of_pos hreverse]
    rfl

theorem normalize_of_blank {s : String} (h : isBlankText s = true) : normalize s = "" := by
  have hnothing : s.toList.dropWhile isBlank = [] :=
    List.dropWhile_eq_nil_iff.mpr (List.all_eq_true.mp h)
  rw [normalize, trim, trimChars, hnothing]
  rfl

namespace IsPaddingOf

variable {padded s : String}

theorem normalize_eq (h : IsPaddingOf padded s) : normalize padded = normalize s := by
  obtain ⟨before, behind, rfl, hbefore, hbehind⟩ := h
  rw [normalize, trim, String.toList_append, String.toList_append,
    trimChars_append (List.all_eq_true.mp hbefore) (List.all_eq_true.mp hbehind)]
  rfl

theorem isBlankText_eq (h : IsPaddingOf padded s) : isBlankText padded = isBlankText s := by
  obtain ⟨before, behind, rfl, hbefore, hbehind⟩ := h
  rw [isBlankText] at hbefore hbehind
  rw [isBlankText, String.toList_append, String.toList_append, List.all_append, List.all_append,
    hbefore, hbehind, Bool.true_and, Bool.and_true]
  rfl

end IsPaddingOf

end Courier.Text
