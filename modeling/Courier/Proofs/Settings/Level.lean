import Courier.Proofs.Settings.Reading
import Courier.Proofs.Text

namespace Courier

/-- One value is another one with white space put around it; both are texts. -/
def Given.IsPaddingOf (padded raw : Given) : Prop :=
  ∃ t s, padded = .ofText t ∧ raw = .ofText s ∧ Text.IsPaddingOf t s

theorem Given.IsPaddingOf.isVariable {padded raw : Given} (h : padded.IsPaddingOf raw) :
    padded.IsVariable := by
  obtain ⟨t, -, heq, -, -⟩ := h
  exact .inr ⟨t, heq⟩

namespace Settings

variable {raw padded : Given} {s : String} {level level' : LogLevel}

/-- The level that a variable stands for: the one that it names, or else the standard one. -/
def StandsFor (raw : Given) (level : LogLevel) : Prop :=
  SaysOneOf [level.name] raw ∨ (∀ named : LogLevel, ¬ SaysOneOf [named.name] raw) ∧ level = .info

theorem exists_says_iff {P : String → Prop} :
    (∃ t, Says (.ofText s) t ∧ P t) ↔ SaysSomething s ∧ P s := by
  constructor
  · rintro ⟨t, ⟨heq, hsaid⟩, ht⟩
    cases heq
    exact ⟨hsaid, ht⟩
  · rintro ⟨hsaid, hs⟩
    exact ⟨s, ⟨rfl, hsaid⟩, hs⟩

theorem normalize_ne_name (h : ¬ SaysSomething s) (level : LogLevel) :
    Text.normalize s ≠ level.name := by
  rw [← isBlankText_eq_false_iff, Bool.not_eq_false] at h
  rw [Text.normalize_of_blank h]
  cases level <;> decide

theorem saysOneOf_name_iff :
    SaysOneOf [level.name] (.ofText s) ↔ LogLevel.ofName? (Text.normalize s) = some level := by
  rw [SaysOneOf, exists_says_iff, List.mem_singleton, LogLevel.ofName?_eq_some_iff]
  refine and_iff_right_of_imp fun hname => ?_
  by_contra hblank
  exact normalize_ne_name hblank level hname

theorem standsFor_ofText_iff :
    StandsFor (.ofText s) level ↔
      (LogLevel.ofName? (Text.normalize s)).getD .info = level := by
  simp only [StandsFor, saysOneOf_name_iff]
  cases LogLevel.ofName? (Text.normalize s) with
  | none => simp [eq_comm]
  | some named => simp

theorem standsFor_iff_of_silent (h : ∀ s, ¬ Says raw s) : StandsFor raw level ↔ level = .info := by
  have hnot (named : LogLevel) : ¬ SaysOneOf [named.name] raw := fun hnamed =>
    h _ hnamed.choose_spec.1
  simp [StandsFor, hnot]

theorem SaysOneOf.name_unique (h : SaysOneOf [level.name] raw) (h' : SaysOneOf [level'.name] raw) :
    level = level' := by
  obtain ⟨s, hs, hname⟩ := h
  obtain ⟨s', hs', hname'⟩ := h'
  rw [hs.unique hs', List.mem_singleton] at hname'
  rw [List.mem_singleton, hname', ← LogLevel.ofName?_eq_some_iff] at hname
  exact Option.some.inj (hname.symm.trans (LogLevel.ofName?_eq_some_iff.mpr rfl))

theorem StandsFor.unique (h : StandsFor raw level) (h' : StandsFor raw level') : level = level' := by
  rcases h with hnamed | ⟨hnone, rfl⟩
  · rcases h' with hnamed' | ⟨hnone', -⟩
    · exact hnamed.name_unique hnamed'
    · exact absurd hnamed (hnone' level)
  · rcases h' with hnamed' | ⟨-, rfl⟩
    · exact absurd hnamed' (hnone level')
    · rfl

theorem exists_standsFor (raw : Given) : ∃ level, StandsFor raw level := by
  by_cases hnamed : ∃ named : LogLevel, SaysOneOf [named.name] raw
  · obtain ⟨level, hlevel⟩ := hnamed
    exact ⟨level, .inl hlevel⟩
  · exact ⟨.info, .inr ⟨not_exists.mp hnamed, rfl⟩⟩

theorem StandsFor.eq_info (h : StandsFor raw level) (hnone : SaysNoneOf levelNames raw) :
    level = .info := by
  rcases h with hnamed | ⟨-, heq⟩
  · have hsub : [level.name] ⊆ levelNames := by simpa using name_mem_levelNames level
    exact absurd hnone (hnamed.not_saysNoneOf hsub)
  · exact heq

theorem resolveGiven_eq_ok_iff (h : raw.IsVariable) :
    LogLevel.resolveGiven raw = .ok level ↔ StandsFor raw level := by
  rcases h with habsent | ⟨s, rfl⟩
  · have hsilent (s : String) : ¬ Says raw s := by
      rintro ⟨rfl, -⟩
      cases habsent
    rw [standsFor_iff_of_silent hsilent, LogLevel.resolveGiven, habsent, Except.ok.injEq]
    exact eq_comm
  · have hresolve : LogLevel.resolveGiven (.ofText s) = .ok (LogLevel.resolve (some s)) := rfl
    rw [hresolve, LogLevel.resolve, Option.bind_some, standsFor_ofText_iff, Except.ok.injEq]
    rfl

theorem readLogLevel_eq_ok_iff (h : raw.IsVariable) :
    readLogLevel raw = .ok level ↔ ¬ SaysNoneOf levelNames raw ∧ StandsFor raw level := by
  rcases given_cases h with ⟨hsilent, hgiven⟩ | ⟨s, hs⟩
  · have hread : readLogLevel raw = .ok .info := by
      rw [readLogLevel, hgiven]
      rfl
    have hnone : ¬ SaysNoneOf levelNames raw := fun hnone => hsilent _ hnone.choose_spec.1
    rw [hread, standsFor_iff_of_silent hsilent, Except.ok.injEq, and_iff_right hnone]
    exact eq_comm
  · by_cases hname : Text.lower (Text.trim s) ∈ levelNames
    · have hnone : ¬ SaysNoneOf levelNames raw :=
        SaysOneOf.not_saysNoneOf ⟨s, hs, hname⟩ (List.Subset.refl _)
      obtain ⟨found, hfound⟩ := exists_ofName?_of_mem hname
      have hlookup : LogLevel.ofName? (Text.normalize s) = some found := hfound
      rw [hs.readLogLevel_eq hfound, and_iff_right hnone, hs.1, standsFor_ofText_iff, hlookup,
        Except.ok.injEq, Option.getD_some]
    · rw [readLogLevel_of_saysNoneOf hs hname]
      constructor
      · intro h
        cases h
      · rintro ⟨hnone, -⟩
        exact absurd ⟨s, hs, hname⟩ hnone

section Padding

variable {words : List String}

/-- Only what is left of a text without the white space at its ends matters to both readers. -/
theorem exists_says_iff_of_padding {P : String → Prop} (h : padded.IsPaddingOf raw) :
    (∃ t, Says padded t ∧ P (Text.normalize t)) ↔ ∃ s, Says raw s ∧ P (Text.normalize s) := by
  obtain ⟨t, s, rfl, rfl, hpadding⟩ := h
  have hsaid : SaysSomething t ↔ SaysSomething s := by
    rw [← isBlankText_eq_false_iff, hpadding.isBlankText_eq, isBlankText_eq_false_iff]
  rw [exists_says_iff, exists_says_iff, hsaid, hpadding.normalize_eq]

theorem saysOneOf_iff_of_padding (h : padded.IsPaddingOf raw) :
    SaysOneOf words padded ↔ SaysOneOf words raw :=
  exists_says_iff_of_padding (P := (· ∈ words)) h

theorem saysNoneOf_iff_of_padding (h : padded.IsPaddingOf raw) :
    SaysNoneOf words padded ↔ SaysNoneOf words raw :=
  exists_says_iff_of_padding (P := (· ∉ words)) h

theorem standsFor_iff_of_padding (h : padded.IsPaddingOf raw) :
    StandsFor padded level ↔ StandsFor raw level := by
  simp only [StandsFor, saysOneOf_iff_of_padding h]

end Padding

theorem exists_levelError_iff (h : raw.IsVariable) :
    (∃ fault, read { logLevel := raw } = .error fault) ↔ SaysNoneOf levelNames raw := by
  have htexts : Environment.HoldsTexts { logLevel := raw } := ⟨h, .inl rfl, .inl rfl⟩
  rw [exists_error_iff htexts]
  refine or_iff_left ?_
  rintro ⟨s, ⟨hnone, -⟩, -⟩
  cases hnone

/-- The lenient reader returns the level that a variable stands for. So does the strict reader
unless the variable says something else than a level: then it returns nothing, and the lenient
reader returns the standard level. White space around the variable changes nothing in this. -/
theorem levels_read_alike {raw : Given} (hraw : raw.IsVariable) :
    let read (raw : Given) := Settings.read { logLevel := raw }
    ∃ level, StandsFor raw level ∧ LogLevel.resolveGiven raw = .ok level ∧
      (∀ settings warnings, read raw = .ok (settings, warnings) → settings.logLevel = level) ∧
      ((∃ fault, read raw = .error fault) → level = .info) ∧
      ((∃ fault, read raw = .error fault) ↔ SaysNoneOf levelNames raw) ∧
      ∀ padded, padded.IsPaddingOf raw →
        LogLevel.resolveGiven padded = .ok level ∧
        ((∃ fault, read padded = .error fault) ↔ ∃ fault, read raw = .error fault) ∧
        ∀ settings warnings,
          read padded = .ok (settings, warnings) ↔ read raw = .ok (settings, warnings) := by
  intro read
  obtain ⟨level, hlevel⟩ := exists_standsFor raw
  have hfault := exists_levelError_iff hraw
  refine ⟨level, hlevel, (resolveGiven_eq_ok_iff hraw).mpr hlevel, ?_, ?_, hfault, ?_⟩
  · intro settings warnings h
    obtain ⟨hread, -, -⟩ := read_eq_ok_iff.mp h
    obtain ⟨-, hstands⟩ := (readLogLevel_eq_ok_iff hraw).mp hread
    exact hstands.unique hlevel
  · exact fun h => hlevel.eq_info (hfault.mp h)
  · intro padded hpadding
    have hpadded := hpadding.isVariable
    refine ⟨?_, ?_, fun settings warnings => ?_⟩
    · exact (resolveGiven_eq_ok_iff hpadded).mpr ((standsFor_iff_of_padding hpadding).mpr hlevel)
    · exact (exists_levelError_iff hpadded).trans
        ((saysNoneOf_iff_of_padding hpadding).trans hfault.symm)
    · have hread : readLogLevel padded = .ok settings.logLevel ↔
          readLogLevel raw = .ok settings.logLevel := by
        rw [readLogLevel_eq_ok_iff hpadded, readLogLevel_eq_ok_iff hraw,
          saysNoneOf_iff_of_padding hpadding, standsFor_iff_of_padding hpadding]
      rw [read_eq_ok_iff, read_eq_ok_iff, hread]

/-- A level in mixed case between a no-break space and a byte order mark, and a word that is no
level between a tab and a line feed. -/
theorem padded_levels_read :
    let read (raw : Given) := Settings.read { logLevel := raw }
    LogLevel.resolveGiven (.ofText "\u00a0DeBuG\ufeff") = .ok .debug ∧
      read (.ofText "\u00a0DeBuG\ufeff") = .ok (⟨.debug, Mention.Category.all, none⟩, []) ∧
      LogLevel.resolveGiven (.ofText "\tloud\n") = .ok .info ∧
      ∃ fault, read (.ofText "\tloud\n") = .error fault := by
  intro read
  have hlevel : Given.IsPaddingOf (.ofText "\u00a0DeBuG\ufeff") (.ofText "DeBuG") :=
    ⟨_, _, rfl, rfl, "\u00a0", "\ufeff", rfl, by decide, by decide⟩
  have hword : Given.IsPaddingOf (.ofText "\tloud\n") (.ofText "loud") :=
    ⟨_, _, rfl, rfl, "\t", "\n", rfl, by decide, by decide⟩
  have hloud : SaysNoneOf levelNames (.ofText "loud") :=
    ⟨"loud", ⟨rfl, 'l', by decide, by decide⟩, by decide⟩
  obtain ⟨level, hstands, -, -, -, -, hpadded⟩ :=
    levels_read_alike (.inr ⟨"DeBuG", rfl⟩)
  obtain ⟨standard, -, -, -, hstandard, hfault, hpadded'⟩ :=
    levels_read_alike (.inr ⟨"loud", rfl⟩)
  have hdebug : level = .debug :=
    hstands.unique (.inl ⟨"DeBuG", ⟨rfl, 'D', by decide, by decide⟩, by decide⟩)
  have hinfo : standard = .info := hstandard (hfault.mpr hloud)
  obtain ⟨hresolve, -, hread⟩ := hpadded _ hlevel
  obtain ⟨hresolve', herror, -⟩ := hpadded' _ hword
  refine ⟨hdebug ▸ hresolve, (hread _ _).mpr rfl, hinfo ▸ hresolve', ?_⟩
  exact herror.mpr (hfault.mpr hloud)

end Settings

end Courier
