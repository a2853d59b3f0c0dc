import Courier.Proofs.Mention.Adoption
import Courier.Proofs.Text
import Courier.Settings

namespace Courier.Settings

open Mention (Category)

/-- The text has something in it besides white space. -/
def SaysSomething (s : String) : Prop :=
  ∃ c ∈ s.toList, Text.isBlank c = false

/-- The words that a list of categories may hold without a warning. -/
def knownWords : List String :=
  ["users", "roles", "everyone", "none"]

/-- The categories that some tokens name, in the order of all categories. -/
def categoriesIn (tokens : List String) : List Category :=
  Category.all.filter fun c => ∃ token ∈ tokens, Text.lower token = c.name

/-- The warnings about the tokens that are not known, each as it was written. -/
def warningsOn (tokens : List String) : List String :=
  (tokens.filter fun token => Text.lower token ∉ knownWords).map fun token =>
    "WEBHOOK_DEFAULT_ALLOWED_MENTIONS: ignoring unknown mention type \"" ++ token ++ "\""

theorem isBlankText_eq_false_iff {s : String} : Text.isBlankText s = false ↔ SaysSomething s := by
  rw [Text.isBlankText, List.all_eq_false]
  simp only [SaysSomething, Bool.not_eq_true]

theorem given_of_saysSomething {s : String} (h : SaysSomething s) :
    given (.ofText s) = .ok (some s) := by
  have hblank := isBlankText_eq_false_iff.mpr h
  show Except.ok (if Text.isBlankText s = true then none else some s) = _
  rw [hblank]
  rfl

theorem given_of_blank {raw : Given}
    (h : raw.present? = none ∨ ∃ s, raw = .ofText s ∧ ¬ SaysSomething s) :
    given raw = .ok none := by
  rcases h with habsent | ⟨s, rfl, hblank⟩
  · rw [given, habsent]
  · rw [← isBlankText_eq_false_iff, Bool.not_eq_false] at hblank
    show Except.ok (if Text.isBlankText s = true then none else some s) = _
    rw [hblank]
    rfl

theorem SaysSomething.append_left {s : String} (h : SaysSomething s) (t : String) :
    SaysSomething (s ++ t) := by
  obtain ⟨c, hc, hblank⟩ := h
  refine ⟨c, ?_, hblank⟩
  rw [String.toList_append]
  exact List.mem_append_left _ hc

theorem category?_ofText_eq_some_iff {token : String} {c : Category} :
    (Word.ofText token).category? = some c ↔ Text.lower token = c.name := by
  have hnone : c.name ≠ "none" := by cases c <;> decide
  by_cases hlower : Text.lower token = "none"
  · rw [Word.ofText, if_pos hlower, hlower]
    exact iff_of_false nofun hnone.symm
  · rw [Word.ofText, if_neg hlower, ← Category.ofName?_eq_some_iff]
    cases Category.ofName? (Text.lower token) with
    | none => exact iff_of_false nofun nofun
    | some c' => exact Iff.rfl

theorem ofName?_eq_none_iff {s : String} :
    Category.ofName? s = none ↔ ∀ c : Category, s ≠ c.name := by
  rw [Option.eq_none_iff_forall_ne_some]
  exact forall_congr' fun c => not_congr Category.ofName?_eq_some_iff

theorem mem_knownWords_iff {s : String} :
    s ∈ knownWords ↔ s = "none" ∨ ∃ c : Category, s = c.name := by
  constructor
  · intro h
    simp only [knownWords, List.mem_cons, List.not_mem_nil, or_false] at h
    rcases h with rfl | rfl | rfl | rfl
    · exact .inr ⟨.users, rfl⟩
    · exact .inr ⟨.roles, rfl⟩
    · exact .inr ⟨.everyone, rfl⟩
    · exact .inl rfl
  · rintro (rfl | ⟨c, rfl⟩)
    · decide
    · cases c <;> decide

theorem warning?_ofText_of_known {token : String} (h : Text.lower token ∈ knownWords) :
    (Word.ofText token).warning? = none := by
  by_cases hnone : Text.lower token = "none"
  · rw [Word.ofText, if_pos hnone]
    rfl
  · obtain ⟨c, hc⟩ := (mem_knownWords_iff.mp h).resolve_left hnone
    rw [Word.ofText, if_neg hnone, Category.ofName?_eq_some_iff.mpr hc]
    rfl

theorem warning?_ofText_of_unknown {token : String} (h : Text.lower token ∉ knownWords) :
    (Word.ofText token).warning? =
      some ("WEBHOOK_DEFAULT_ALLOWED_MENTIONS: ignoring unknown mention type \"" ++ token ++
        "\"") := by
  rw [mem_knownWords_iff, not_or, not_exists] at h
  obtain ⟨hnone, hcategory⟩ := h
  have hbegin : "WEBHOOK_DEFAULT_ALLOWED_MENTIONS: ignoring unknown mention type \"" =
      Environment.allowedMentionsName ++ ": ignoring unknown mention type \"" := by decide
  rw [Word.ofText, if_neg hnone, ofName?_eq_none_iff.mpr hcategory, hbegin]
  rfl

theorem filterMap_warning? (tokens : List String) :
    (tokens.map Word.ofText).filterMap Word.warning? = warningsOn tokens := by
  induction tokens with
  | nil => rfl
  | cons token rest ih =>
      rw [List.map_cons, warningsOn]
      by_cases h : Text.lower token ∈ knownWords
      · rw [List.filterMap_cons_none (warning?_ofText_of_known h),
          List.filter_cons_of_neg (by simpa using h), ih, warningsOn]
      · rw [List.filterMap_cons_some (warning?_ofText_of_unknown h),
          List.filter_cons_of_pos (by simpa using h), List.map_cons, ih, warningsOn]

theorem filter_named (tokens : List String) :
    Category.all.filter (· ∈ (tokens.map Word.ofText).filterMap Word.category?) =
      categoriesIn tokens := by
  refine List.filter_congr fun c _ => decide_eq_decide.mpr ?_
  simp only [List.mem_filterMap, List.mem_map, exists_exists_and_eq_and,
    category?_ofText_eq_some_iff]

theorem readCategories_of_saysSomething {s : String} (h : SaysSomething s)
    (warnings : List String) :
    readCategories (.ofText s) warnings =
      .ok (categoriesIn (Text.words isSeparator s),
        warnings ++ warningsOn (Text.words isSeparator s)) := by
  rw [readCategories, given_of_saysSomething h]
  simp only [filterMap_warning?, filter_named]

theorem readCategories_of_blank {raw : Given}
    (h : raw.present? = none ∨ ∃ s, raw = .ofText s ∧ ¬ SaysSomething s) (warnings : List String) :
    readCategories raw warnings = .ok (Category.all, warnings) := by
  rw [readCategories, given_of_blank h]

theorem mem_categoriesIn {tokens : List String} {c : Category} :
    c ∈ categoriesIn tokens ↔ ∃ token ∈ tokens, Text.lower token = c.name := by
  have hall : c ∈ Category.all := by cases c <;> decide
  simp only [categoriesIn, List.mem_filter, hall, true_and, decide_eq_true_eq]

theorem categoriesIn_append (first second : List String) :
    categoriesIn (first ++ second) =
      Category.all.filter fun c => c ∈ categoriesIn first ∨ c ∈ categoriesIn second := by
  refine List.filter_congr fun c _ => decide_eq_decide.mpr ?_
  simp only [mem_categoriesIn, List.mem_append, or_and_right, exists_or]

theorem warningsOn_append (first second : List String) :
    warningsOn (first ++ second) = warningsOn first ++ warningsOn second := by
  rw [warningsOn, List.filter_append, List.map_append]
  rfl

theorem words_append_comma (s t : String) :
    Text.words isSeparator (s ++ "," ++ t) =
      Text.words isSeparator s ++ Text.words isSeparator t :=
  Text.words_append_separator (c := ',') (by decide) s t

/-- A list of categories that says something has its tokens in one way only. It stands for the
categories that they name in lower case, and adds a warning for each token that neither names one
nor is the word `none`; any other list stands for all categories. So two lists that are joined by a
comma stand for the categories of both and are warned about one after the other, and neither the
order and the case of tokens nor their repetition nor what stands between them matters to the
categories. -/
theorem categories_follow_grammar (warnings : List String) :
    (∀ raw, SaysSomething raw →
      ∃ tokens, Text.HasWords isSeparator raw tokens ∧
        (∀ other, Text.HasWords isSeparator raw other → other = tokens) ∧
        readCategories (.ofText raw) warnings =
          .ok (categoriesIn tokens, warnings ++ warningsOn tokens)) ∧
    (∀ raw : Given, (raw.present? = none ∨ ∃ s, raw = .ofText s ∧ ¬ SaysSomething s) →
      readCategories raw warnings = .ok ([.users, .roles, .everyone], warnings)) ∧
    (∀ a b, SaysSomething a → SaysSomething b →
      ∃ types types' added added',
        readCategories (.ofText a) [] = .ok (types, added) ∧
        readCategories (.ofText b) [] = .ok (types', added') ∧
        readCategories (.ofText (a ++ "," ++ b)) warnings =
          .ok (Category.all.filter fun c => c ∈ types ∨ c ∈ types',
            warnings ++ (added ++ added'))) ∧
    ∀ raw raw' tokens tokens', SaysSomething raw → SaysSomething raw' →
      Text.HasWords isSeparator raw tokens → Text.HasWords isSeparator raw' tokens' →
      (∀ c : Category, (∃ token ∈ tokens, Text.lower token = c.name) ↔
        ∃ token ∈ tokens', Text.lower token = c.name) →
      ∃ types added added',
        readCategories (.ofText raw) warnings = .ok (types, added) ∧
        readCategories (.ofText raw') warnings = .ok (types, added') := by
  refine ⟨?_, fun raw h => readCategories_of_blank h warnings, ?_, ?_⟩
  · intro raw h
    refine ⟨Text.words isSeparator raw, Text.hasWords_iff.mpr rfl, ?_, ?_⟩
    · exact fun other hother => Text.hasWords_iff.mp hother
    · exact readCategories_of_saysSomething h warnings
  · intro a b ha hb
    have hboth : SaysSomething (a ++ "," ++ b) := (ha.append_left ",").append_left b
    refine ⟨_, _, _, _, readCategories_of_saysSomething ha [],
      readCategories_of_saysSomething hb [], ?_⟩
    rw [readCategories_of_saysSomething hboth, words_append_comma, categoriesIn_append,
      warningsOn_append]
    rfl
  · intro raw raw' tokens tokens' hraw hraw' htokens htokens' hsame
    have hcategories : categoriesIn tokens = categoriesIn tokens' :=
      List.filter_congr fun c _ => decide_eq_decide.mpr (hsame c)
    rw [Text.hasWords_iff.mp htokens, Text.hasWords_iff.mp htokens'] at hcategories
    have hread := readCategories_of_saysSomething hraw warnings
    rw [hcategories] at hread
    exact ⟨_, _, _, hread, readCategories_of_saysSomething hraw' warnings⟩

/-- A list that begins with separators, with a token that is unknown twice, read on its own, in
front of another list, and beside one that names the same categories. -/
theorem mixed_list_read :
    let raw := ", Roles,here none\u00a0HERE,users ROLES"
    let plain := "users\nroles"
    let unknown (token : String) :=
      "WEBHOOK_DEFAULT_ALLOWED_MENTIONS: ignoring unknown mention type \"" ++ token ++ "\""
    SaysSomething raw ∧ SaysSomething plain ∧ SaysSomething "everyone" ∧ ¬ SaysSomething "\t" ∧
      readCategories (.ofText raw) ["first"] =
        .ok ([.users, .roles], ["first", unknown "here", unknown "HERE"]) ∧
      readCategories (.ofText "\t") ["first"] = .ok ([.users, .roles, .everyone], ["first"]) ∧
      readCategories (.ofText (raw ++ "," ++ "everyone")) [] =
        .ok ([.users, .roles, .everyone], [unknown "here", unknown "HERE"]) ∧
      ∃ types added added', readCategories (.ofText raw) [] = .ok (types, added) ∧
        readCategories (.ofText plain) [] = .ok (types, added') := by
  intro raw plain unknown
  have hraw : SaysSomething raw := ⟨'R', by decide, by decide⟩
  have hplain : SaysSomething plain := ⟨'u', by decide, by decide⟩
  have heveryone : SaysSomething "everyone" := ⟨'e', by decide, by decide⟩
  have hblank : ¬ SaysSomething "\t" := isBlankText_eq_false_iff.not.mp (by decide)
  have hwords : Text.HasWords isSeparator raw ["Roles", "here", "none", "HERE", "users", "ROLES"] :=
    Text.hasWords_iff.mpr (by decide +kernel)
  have hplainWords : Text.HasWords isSeparator plain ["users", "roles"] :=
    Text.hasWords_iff.mpr (by decide +kernel)
  obtain ⟨hgrammar, hall, -, -⟩ := categories_follow_grammar ["first"]
  obtain ⟨-, -, hjoined, hsame⟩ := categories_follow_grammar []
  refine ⟨hraw, hplain, heveryone, hblank, ?_, hall _ (.inr ⟨"\t", rfl, hblank⟩), ?_, ?_⟩
  · obtain ⟨tokens, -, hunique, hread⟩ := hgrammar raw hraw
    rw [hread, ← hunique _ hwords]
    decide +kernel
  · have hfirst : readCategories (.ofText raw) [] =
        .ok ([.users, .roles], [unknown "here", unknown "HERE"]) := by decide +kernel
    have hsecond : readCategories (.ofText "everyone") [] = .ok ([.everyone], []) := by
      decide +kernel
    obtain ⟨types, types', added, added', ha, hb, hread⟩ :=
      hjoined raw "everyone" hraw heveryone
    cases hfirst.symm.trans ha
    cases hsecond.symm.trans hb
    rw [hread]
    decide
  · refine hsame raw plain _ _ hraw hplain hwords hplainWords fun c => ?_
    cases c <;> decide +kernel

end Courier.Settings
