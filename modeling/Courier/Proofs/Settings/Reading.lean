import Courier.Proofs.Settings.Categories

namespace Courier

/-- The variable is not set, or it holds a text. -/
def Given.IsVariable (raw : Given) : Prop :=
  raw.present? = none ∨ ∃ s, raw = .ofText s

structure Environment.HoldsTexts (env : Environment) : Prop where
  logLevel : env.logLevel.IsVariable
  allowedMentions : env.allowedMentions.IsVariable
  repliedUser : env.repliedUser.IsVariable

theorem LogLevel.ofName?_eq_some_iff {word : String} {level : LogLevel} :
    ofName? word = some level ↔ word = level.name := by
  constructor
  · intro h
    have hname := List.find?_some h
    exact (beq_iff_eq.mp hname).symm
  · rintro rfl
    cases level <;> rfl

namespace Settings

/-- The variable holds a text that is not blank. -/
def Says (raw : Given) (s : String) : Prop :=
  raw = .ofText s ∧ SaysSomething s

/-- The variable says one of some words, whatever its case and the white space at its ends. -/
def SaysOneOf (words : List String) (raw : Given) : Prop :=
  ∃ s, Says raw s ∧ Text.lower (Text.trim s) ∈ words

/-- The variable says something, but none of some words. -/
def SaysNoneOf (words : List String) (raw : Given) : Prop :=
  ∃ s, Says raw s ∧ Text.lower (Text.trim s) ∉ words

def levelNames : List String :=
  ["fatal", "error", "warn", "info", "debug", "trace", "silent"]

def flagWords : List String :=
  ["0", "1", "true", "false"]

variable {raw : Given} {s s' : String} {env : Environment} {fault : Fault}

theorem Says.unique (h : Says raw s) (h' : Says raw s') : s' = s := by
  obtain ⟨rfl, -⟩ := h
  obtain ⟨heq, -⟩ := h'
  cases heq
  rfl

theorem Says.given_eq (h : Says raw s) : given raw = .ok (some s) := by
  obtain ⟨rfl, hsays⟩ := h
  exact given_of_saysSomething hsays

theorem given_cases (h : raw.IsVariable) :
    (∀ s, ¬ Says raw s) ∧ given raw = .ok none ∨ ∃ s, Says raw s := by
  rcases h with habsent | ⟨s, rfl⟩
  · refine .inl ⟨?_, given_of_blank (.inl habsent)⟩
    rintro s ⟨rfl, -⟩
    cases habsent
  · by_cases hsays : SaysSomething s
    · exact .inr ⟨s, rfl, hsays⟩
    · refine .inl ⟨?_, given_of_blank (.inr ⟨s, rfl, hsays⟩)⟩
      rintro s' ⟨heq, hsays'⟩
      cases heq
      exact hsays hsays'

theorem name_mem_levelNames (level : LogLevel) : level.name ∈ levelNames := by
  cases level <;> decide

theorem ofName?_eq_none_of_not_mem {word : String} (h : word ∉ levelNames) :
    LogLevel.ofName? word = none := by
  rw [Option.eq_none_iff_forall_ne_some]
  intro level hlevel
  refine h ?_
  rw [LogLevel.ofName?_eq_some_iff.mp hlevel]
  exact name_mem_levelNames level

theorem exists_ofName?_of_mem {word : String} (h : word ∈ levelNames) :
    ∃ level, LogLevel.ofName? word = some level := by
  have hall : ∀ word ∈ levelNames, (LogLevel.ofName? word).isSome = true := by decide
  exact Option.isSome_iff_exists.mp (hall word h)

theorem readLogLevel_of_saysNoneOf (h : Says raw s)
    (hword : Text.lower (Text.trim s) ∉ levelNames) :
    readLogLevel raw = .error (.setting (.choice "LOG_LEVEL" levelNames s)) := by
  have hname : LogLevel.ofName? (Text.normalize s) = none := ofName?_eq_none_of_not_mem hword
  rw [readLogLevel, h.given_eq]
  simp only [hname]
  rfl

theorem Says.readLogLevel_eq {level : LogLevel} (h : Says raw s)
    (hname : LogLevel.ofName? (Text.normalize s) = some level) :
    readLogLevel raw = .ok level := by
  rw [readLogLevel, h.given_eq]
  simp only [hname]

theorem exists_readLogLevel (h : raw.IsVariable) (hword : ¬ SaysNoneOf levelNames raw) :
    ∃ level, readLogLevel raw = .ok level := by
  rcases given_cases h with ⟨-, hgiven⟩ | ⟨s, hs⟩
  · exact ⟨.standard, by rw [readLogLevel, hgiven]⟩
  · have hmem : Text.lower (Text.trim s) ∈ levelNames := by
      by_contra hnot
      exact hword ⟨s, hs, hnot⟩
    obtain ⟨level, hlevel⟩ := exists_ofName?_of_mem hmem
    exact ⟨level, hs.readLogLevel_eq hlevel⟩

/-- What a flag stands for. -/
def Means (raw : Given) : Option Bool → Prop
  | none => ∀ s, ¬ Says raw s
  | some true => SaysOneOf ["1", "true"] raw
  | some false => SaysOneOf ["0", "false"] raw

theorem SaysOneOf.not_saysOneOf {words others : List String} (h : SaysOneOf words raw)
    (hapart : ∀ word ∈ words, word ∉ others) : ¬ SaysOneOf others raw := by
  obtain ⟨s, hs, hword⟩ := h
  rintro ⟨s', hs', hword'⟩
  rw [hs.unique hs'] at hword'
  exact hapart _ hword hword'

theorem SaysOneOf.not_saysNoneOf {words more : List String} (h : SaysOneOf words raw)
    (hsub : words ⊆ more) : ¬ SaysNoneOf more raw := by
  obtain ⟨s, hs, hword⟩ := h
  rintro ⟨s', hs', hword'⟩
  rw [hs.unique hs'] at hword'
  exact hword' (hsub hword)

theorem Means.unique {flag flag' : Option Bool} (h : Means raw flag) (h' : Means raw flag') :
    flag = flag' := by
  match flag, flag' with
  | none, none => rfl
  | none, some true => exact absurd h'.choose_spec.1 (h _)
  | none, some false => exact absurd h'.choose_spec.1 (h _)
  | some true, none => exact absurd h.choose_spec.1 (h' _)
  | some false, none => exact absurd h.choose_spec.1 (h' _)
  | some true, some true => rfl
  | some false, some false => rfl
  | some true, some false => exact absurd h' (SaysOneOf.not_saysOneOf h (by decide))
  | some false, some true => exact absurd h (SaysOneOf.not_saysOneOf h' (by decide))

theorem Means.not_saysNoneOf {flag : Option Bool} (h : Means raw flag) :
    ¬ SaysNoneOf flagWords raw := by
  match flag with
  | none =>
      rintro ⟨s, hs, -⟩
      exact h s hs
  | some true => exact SaysOneOf.not_saysNoneOf h (by decide)
  | some false => exact SaysOneOf.not_saysNoneOf h (by decide)

theorem readFlag_cases (name : String) (h : raw.IsVariable) :
    (∃ flag, Means raw flag ∧ readFlag name raw = .ok flag) ∨
      SaysNoneOf flagWords raw ∧ ∃ fault, readFlag name raw = .error fault := by
  rcases given_cases h with ⟨hnothing, hgiven⟩ | ⟨s, hs⟩
  · exact .inl ⟨none, hnothing, by rw [readFlag, hgiven]⟩
  · have hread : readFlag name raw =
        if Text.lower (Text.trim s) = "1" ∨ Text.lower (Text.trim s) = "true" then .ok (some true)
        else if Text.lower (Text.trim s) = "0" ∨ Text.lower (Text.trim s) = "false" then
          .ok (some false)
        else .error (.setting (.flag name s)) := by
      rw [readFlag, hs.given_eq]
      rfl
    rw [hread]
    split
    · rename_i hon
      exact .inl ⟨some true, ⟨s, hs, by simpa using hon⟩, rfl⟩
    · rename_i hon
      split
      · rename_i hoff
        exact .inl ⟨some false, ⟨s, hs, by simpa using hoff⟩, rfl⟩
      · rename_i hoff
        rw [not_or] at hon hoff
        exact .inr ⟨⟨s, hs, by simp [flagWords, hon, hoff]⟩, _, rfl⟩

theorem readFlag_eq_ok_iff (name : String) (h : raw.IsVariable) (flag : Option Bool) :
    readFlag name raw = .ok flag ↔ Means raw flag := by
  rcases readFlag_cases name h with ⟨flag', hmeans, hread⟩ | ⟨hnone, fault, hread⟩
  · rw [hread, Except.ok.injEq]
    constructor
    · rintro rfl
      exact hmeans
    · exact hmeans.unique
  · rw [hread]
    exact iff_of_false nofun fun hmeans => hmeans.not_saysNoneOf hnone

theorem exists_readFlag_error_iff (name : String) (h : raw.IsVariable) :
    (∃ fault, readFlag name raw = .error fault) ↔ SaysNoneOf flagWords raw := by
  rcases readFlag_cases name h with ⟨flag, hmeans, hread⟩ | ⟨hnone, hfault⟩
  · rw [hread]
    exact iff_of_false nofun hmeans.not_saysNoneOf
  · exact iff_of_true hfault hnone

theorem exists_readCategories (h : raw.IsVariable) (warnings : List String) :
    ∃ types added, readCategories raw warnings = .ok (types, added) := by
  rcases h with habsent | ⟨s, rfl⟩
  · exact ⟨_, _, readCategories_of_blank (.inl habsent) warnings⟩
  · by_cases hsays : SaysSomething s
    · exact ⟨_, _, readCategories_of_saysSomething hsays warnings⟩
    · exact ⟨_, _, readCategories_of_blank (.inr ⟨s, rfl, hsays⟩) warnings⟩

theorem read_eq_ok_iff {settings : Settings} {warnings : List String} :
    read env = .ok (settings, warnings) ↔
      readLogLevel env.logLevel = .ok settings.logLevel ∧
        readCategories env.allowedMentions [] = .ok (settings.allowedMentions, warnings) ∧
        readFlag Environment.repliedUserName env.repliedUser = .ok settings.repliedUser := by
  unfold read
  cases readLogLevel env.logLevel with
  | error fault => exact iff_of_false nofun fun h => nomatch h.1
  | ok logLevel =>
      cases readCategories env.allowedMentions [] with
      | error cause => exact iff_of_false nofun fun h => nomatch h.2.1
      | ok found =>
          cases readFlag Environment.repliedUserName env.repliedUser with
          | error fault => exact iff_of_false nofun fun h => nomatch h.2.2
          | ok repliedUser =>
              obtain ⟨logLevel', types, repliedUser'⟩ := settings
              simp [Prod.ext_iff, and_assoc, and_left_comm, and_comm]

/-- The error is that of the log level, or else that of the flag; the list of categories gives
none. -/
theorem read_eq_error_iff (h : env.allowedMentions.IsVariable) :
    read env = .error fault ↔
      readLogLevel env.logLevel = .error fault ∨
        (∃ level, readLogLevel env.logLevel = .ok level) ∧
          readFlag Environment.repliedUserName env.repliedUser = .error fault := by
  obtain ⟨types, added, hcategories⟩ := exists_readCategories h []
  unfold read
  cases readLogLevel env.logLevel with
  | error cause => simp
  | ok logLevel =>
      rw [hcategories]
      cases readFlag Environment.repliedUserName env.repliedUser <;> simp

/-- Settings cannot be read exactly if the log level or the flag says something that it must not
say. -/
theorem exists_error_iff (h : env.HoldsTexts) :
    (∃ fault, read env = .error fault) ↔
      SaysNoneOf levelNames env.logLevel ∨ SaysNoneOf flagWords env.repliedUser := by
  by_cases hlevel : SaysNoneOf levelNames env.logLevel
  · obtain ⟨s, hs, hword⟩ := hlevel
    have hread := readLogLevel_of_saysNoneOf hs hword
    exact iff_of_true ⟨_, (read_eq_error_iff h.allowedMentions).mpr (.inl hread)⟩
      (.inl ⟨s, hs, hword⟩)
  · obtain ⟨level, hread⟩ := exists_readLogLevel h.logLevel hlevel
    have herror (fault : Fault) : read env = .error fault ↔
        readFlag Environment.repliedUserName env.repliedUser = .error fault := by
      simp [read_eq_error_iff h.allowedMentions, hread]
    simp only [herror, exists_readFlag_error_iff _ h.repliedUser, hlevel, false_or]

end Settings

end Courier
