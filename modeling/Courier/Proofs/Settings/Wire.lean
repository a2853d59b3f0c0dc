import Courier.Proofs.Session.DefaultPolicy
import Courier.Proofs.Session.WellFormed
import Courier.Proofs.Settings.Reading

namespace Courier.Settings

open Mention (Category CategorySet)

variable {env env' : Environment} {settings settings' : Settings} {warnings warnings' : List String}

/-- The list of categories makes no difference to whether the settings can be read. -/
theorem read_error_congr (h : env.allowedMentions.IsVariable) {raw : Given} (hraw : raw.IsVariable)
    (fault : Fault) :
    read { env with allowedMentions := raw } = .error fault ↔ read env = .error fault := by
  have hother : read { env with allowedMentions := raw } = .error fault ↔ _ :=
    read_eq_error_iff hraw
  exact hother.trans (read_eq_error_iff h).symm

theorem logLevel_congr (h : read env = .ok (settings, warnings))
    (h' : read env' = .ok (settings', warnings')) (hsame : env'.logLevel = env.logLevel) :
    settings'.logLevel = settings.logLevel := by
  obtain ⟨hread, -, -⟩ := read_eq_ok_iff.mp h
  obtain ⟨hread', -, -⟩ := read_eq_ok_iff.mp h'
  rw [hsame, hread] at hread'
  exact (Except.ok.inj hread').symm

theorem allowedMentions_congr (h : read env = .ok (settings, warnings))
    (h' : read env' = .ok (settings', warnings'))
    (hsame : env'.allowedMentions = env.allowedMentions) :
    settings'.allowedMentions = settings.allowedMentions := by
  obtain ⟨-, hread, -⟩ := read_eq_ok_iff.mp h
  obtain ⟨-, hread', -⟩ := read_eq_ok_iff.mp h'
  rw [hsame, hread] at hread'
  exact (congrArg Prod.fst (Except.ok.inj hread')).symm

theorem repliedUser_congr (h : read env = .ok (settings, warnings))
    (h' : read env' = .ok (settings', warnings')) (hsame : env'.repliedUser = env.repliedUser) :
    settings'.repliedUser = settings.repliedUser := by
  obtain ⟨-, -, hread⟩ := read_eq_ok_iff.mp h
  obtain ⟨-, -, hread'⟩ := read_eq_ok_iff.mp h'
  rw [hsame, hread] at hread'
  exact (Except.ok.inj hread').symm

theorem allowedMentions_of_says {raw : String} {tokens : List String}
    (h : read env = .ok (settings, warnings)) (hraw : Says env.allowedMentions raw)
    (htokens : Text.HasWords isSeparator raw tokens) :
    settings.allowedMentions = categoriesIn tokens ∧ warnings = warningsOn tokens := by
  obtain ⟨-, hread, -⟩ := read_eq_ok_iff.mp h
  obtain ⟨htext, hsomething⟩ := hraw
  rw [htext, readCategories_of_saysSomething hsomething, ← Text.hasWords_iff.mp htokens] at hread
  obtain ⟨htypes, hwarnings⟩ := Prod.mk.inj (Except.ok.inj hread)
  exact ⟨htypes.symm, hwarnings.symm⟩

theorem allowedMentions_of_saysNothing (h : read env = .ok (settings, warnings))
    (hraw : env.allowedMentions.IsVariable) (hnothing : ∀ raw, ¬ Says env.allowedMentions raw) :
    settings.allowedMentions = Category.all ∧ warnings = [] := by
  obtain ⟨-, hread, -⟩ := read_eq_ok_iff.mp h
  rcases given_cases hraw with ⟨-, hgiven⟩ | ⟨raw, hsays⟩
  · rw [readCategories, hgiven] at hread
    obtain ⟨htypes, hwarnings⟩ := Prod.mk.inj (Except.ok.inj hread)
    exact ⟨htypes.symm, hwarnings.symm⟩
  · exact absurd hsays (hnothing raw)

theorem sublist_of_readCategories {raw : Given} {types : List Category} {added : List String}
    (hraw : raw.IsVariable) (h : readCategories raw warnings = .ok (types, added)) :
    types.Sublist Category.all := by
  rcases given_cases hraw with ⟨-, hgiven⟩ | ⟨s, rfl, hsays⟩
  · rw [readCategories, hgiven] at h
    cases h
    exact .refl _
  · rw [readCategories_of_saysSomething hsays] at h
    cases h
    exact List.filter_sublist

theorem filter_mentionDefaults (h : settings.allowedMentions.Sublist Category.all)
    (keep : Category → Bool) :
    Category.all.filter (fun c => settings.mentionDefaults.parse.contains c && keep c) =
      settings.allowedMentions.filter keep := by
  have hcontains (c : Category) : settings.mentionDefaults.parse.contains c =
      decide (c ∈ settings.allowedMentions) := by
    rw [Bool.eq_iff_iff, decide_eq_true_iff]
    exact CategorySet.contains_ofList settings.allowedMentions c
  have hall := Mention.Policy.filter_mem_of_sublist h (by decide)
  calc Category.all.filter (fun c => settings.mentionDefaults.parse.contains c && keep c)
    _ = Category.all.filter (fun c => decide (c ∈ settings.allowedMentions) && keep c) := by
        simp only [hcontains]
    _ = (Category.all.filter (· ∈ settings.allowedMentions)).filter keep := by
        rw [List.filter_filter]
        simp only [Bool.and_comm]
    _ = settings.allowedMentions.filter keep := by rw [hall]

theorem isEmpty_flatMap {α β : Type} (items : List α) (f : α → List β) :
    (items.flatMap f).isEmpty = !items.any fun item => !(f item).isEmpty := by
  induction items with
  | nil => rfl
  | cons item rest ih =>
      rw [List.flatMap_cons, List.any_cons, Bool.not_or, ← ih]
      cases f item <;> rfl

/-- The categories of the settings, but for those that the listing changes among some take the place
of. -/
def categoriesBeside (settings : Settings) (edits : List Edit) : List Category :=
  settings.allowedMentions.filter fun c =>
    !(c = .users && edits.any fun change => !change.users.isEmpty) &&
      !(c = .roles && edits.any fun change => !change.roles.isEmpty)

/-- The policy of a message that leaves it to the settings. -/
theorem policy_after (h : settings.allowedMentions.Sublist Category.all) (setup : Setup)
    (builders : Builders) {acts : List Act}
    (hacts : ∀ change, Act.edit change ∈ acts → change.LeavesDefaults) :
    let s₀ := Session.start settings.mentionDefaults builders
    let policy := (s₀.after setup acts).composer.mentions.policy
    policy.parse = settings.categoriesBeside (s₀.acceptedEdits setup acts) ∧
      policy.repliedUser = settings.repliedUser.map .bool := by
  intro s₀ policy
  have hmentions := Session.mentions_after setup s₀ hacts
  obtain ⟨hparse, hrepliedUser⟩ := Mention.Tracker.policy_listing settings.mentionDefaults
    ((s₀.acceptedEdits setup acts).flatMap Edit.users)
    ((s₀.acceptedEdits setup acts).flatMap Edit.roles)
  constructor
  · show (s₀.after setup acts).composer.mentions.policy.parse = _
    rw [hmentions]
    refine hparse.trans ?_
    simp only [isEmpty_flatMap, Bool.not_not, Bool.and_assoc]
    exact filter_mentionDefaults h _
  · show (s₀.after setup acts).composer.mentions.policy.repliedUser = _
    rw [hmentions]
    exact hrepliedUser

/-- The flag that a message goes out with, if it leaves that to the settings. -/
theorem flag_iff (htexts : env.HoldsTexts) (h : read env = .ok (settings, warnings))
    (flag : Option Bool) :
    settings.repliedUser.map Json.bool = flag.map .bool ↔ Means env.repliedUser flag := by
  obtain ⟨-, -, hread⟩ := read_eq_ok_iff.mp h
  have hinjective : Function.Injective Json.bool := fun _ _ heq => Json.bool.inj heq
  rw [(Option.map_injective hinjective).eq_iff,
    ← readFlag_eq_ok_iff Environment.repliedUserName htexts.repliedUser, hread, Except.ok.injEq]

/-- The settings cannot be read exactly if the log level or the flag says something that it must not
say; where both do, the error is about the log level. The settings that are read depend on their own
variables only: their categories are those that the tokens of the variable name, or all of them if it
is blank. A message that leaves its policy to them goes out with their categories, less those of the
users and the roles that it lists, and with the flag if its variable says one. -/
theorem settings_reach_messages (env : Environment) (htexts : env.HoldsTexts) :
    ((∃ fault, read env = .error fault) ↔
      SaysNoneOf levelNames env.logLevel ∨ SaysNoneOf flagWords env.repliedUser) ∧
    (∀ s, Says env.logLevel s → Text.lower (Text.trim s) ∉ levelNames →
      read env = .error (.setting (.choice "LOG_LEVEL" levelNames s))) ∧
    (∀ raw : Given, raw.IsVariable → ∀ fault,
      read { env with allowedMentions := raw } = .error fault ↔ read env = .error fault) ∧
    ∀ settings warnings, read env = .ok (settings, warnings) →
      (∀ env' settings' warnings', read env' = .ok (settings', warnings') →
        (env'.logLevel = env.logLevel → settings'.logLevel = settings.logLevel) ∧
        (env'.allowedMentions = env.allowedMentions →
          settings'.allowedMentions = settings.allowedMentions) ∧
        (env'.repliedUser = env.repliedUser → settings'.repliedUser = settings.repliedUser)) ∧
      (∀ raw, Says env.allowedMentions raw →
        ∃ tokens, Text.HasWords isSeparator raw tokens ∧
          (∀ other, Text.HasWords isSeparator raw other → other = tokens) ∧
          settings.allowedMentions = categoriesIn tokens ∧ warnings = warningsOn tokens) ∧
      ((∀ raw, ¬ Says env.allowedMentions raw) →
        settings.allowedMentions = [.users, .roles, .everyone] ∧ warnings = []) ∧
      settings.allowedMentions.Sublist [.users, .roles, .everyone] ∧
      ∀ setup builders,
        let s₀ := Session.start settings.mentionDefaults builders
        (∀ acts, (∀ change, Act.edit change ∈ acts → change.LeavesDefaults) →
          ∃ policy, (s₀.after setup acts).composer.draft.allowedMentions = some policy ∧
            (∀ body, ((s₀.after setup acts).finalize setup).1 = .ok body →
              body.payload.allowedMentions = some policy) ∧
            policy.get? "parse" = some (.array
              ((settings.categoriesBeside (s₀.acceptedEdits setup acts)).map (.string ·.name))) ∧
            (policy.get? "replied_user" = none ↔ ∀ s, ¬ Says env.repliedUser s) ∧
            (policy.get? "replied_user" = some (.bool true) ↔
              SaysOneOf ["1", "true"] env.repliedUser) ∧
            (policy.get? "replied_user" = some (.bool false) ↔
              SaysOneOf ["0", "false"] env.repliedUser)) ∧
        ∀ steps, s₀.after setup (s₀.acts setup steps) = (s₀.run setup steps).1 ∧
          ∀ change, Act.edit change ∈ s₀.acts setup steps → Session.Step.edit change ∈ steps := by
  refine ⟨exists_error_iff htexts, ?_, ?_, ?_⟩
  · intro s hs hword
    have hread := readLogLevel_of_saysNoneOf hs hword
    exact (read_eq_error_iff htexts.allowedMentions).mpr (.inl hread)
  · exact fun raw hraw fault => read_error_congr htexts.allowedMentions hraw fault
  · intro settings warnings h
    obtain ⟨-, hcategories, -⟩ := read_eq_ok_iff.mp h
    have hsublist := sublist_of_readCategories htexts.allowedMentions hcategories
    refine ⟨?_, ?_, ?_, hsublist, fun setup builders => ⟨?_, ?_⟩⟩
    · intro env' settings' warnings' h'
      exact ⟨logLevel_congr h h', allowedMentions_congr h h', repliedUser_congr h h'⟩
    · intro raw hsays
      have hwords : Text.HasWords isSeparator raw (Text.words isSeparator raw) :=
        Text.hasWords_iff.mpr rfl
      exact ⟨_, hwords, fun other hother => Text.hasWords_iff.mp hother,
        allowedMentions_of_says h hsays hwords⟩
    · exact allowedMentions_of_saysNothing h htexts.allowedMentions
    · intro acts hacts
      obtain ⟨hparse, hrepliedUser⟩ := policy_after hsublist setup builders hacts
      refine ⟨_, rfl, fun body hbody => Session.allowedMentions_of_finalize hbody, ?_, ?_⟩
      · rw [Mention.get?_toJson_parse, hparse]
      · rw [Mention.get?_toJson_repliedUser, hrepliedUser]
        have hflag := flag_iff htexts h
        exact ⟨hflag none, hflag (some true), hflag (some false)⟩
    · intro steps
      exact ⟨Session.after_acts setup steps _, fun change => Session.edit_mem_acts⟩

/-- A list that names two categories beside a word that is unknown. A listed user takes the place of
its category, while a role that is refused does not; and where neither the log level nor the flag can
be read, the log level is reported. -/
theorem listed_user_beside_settings :
    let env : Environment := {
      logLevel := .ofText " DEBUG ", allowedMentions := .ofText "Roles, here USERS"
      repliedUser := .ofText "0" }
    let faulty : Environment := { logLevel := .ofText "Loud ", repliedUser := .ofText "yes" }
    let settings : Settings := ⟨.debug, [.users, .roles], some false⟩
    let warnings := ["WEBHOOK_DEFAULT_ALLOWED_MENTIONS: ignoring unknown mention type \"here\""]
    let setup : Setup := { route := .followUp "7" "token", channel := .ofText "1" }
    let message : Template :=
      { content := none, tts := none, embeds := .elements [], rows := .elements [] }
    let acts : List Act := [
      .edit (.choose (.users [some (.string "11")])), .edit (.choose (.roles [some (.string "x")])),
      .edit (.applyMessage (some message)), .finalize]
    env.HoldsTexts ∧ faulty.HoldsTexts ∧ read env = .ok (settings, warnings) ∧
      (∃ tokens, Text.HasWords isSeparator "Roles, here USERS" tokens ∧
        settings.allowedMentions = categoriesIn tokens) ∧
      (∀ change, Act.edit change ∈ acts → change.LeavesDefaults) ∧
      (∃ body policy, (((Session.start settings.mentionDefaults .unset).after setup acts).finalize
          setup).1 = .ok body ∧
        body.payload.allowedMentions = some policy ∧
        policy.get? "parse" = some (.array [.string "roles"]) ∧
        policy.get? "replied_user" = some (.bool false)) ∧
      read { faulty with allowedMentions := .ofText "nobody" } =
        .error (.setting (.choice "LOG_LEVEL" levelNames "Loud ")) := by
  intro env faulty settings warnings setup message acts
  have htexts : env.HoldsTexts := ⟨.inr ⟨_, rfl⟩, .inr ⟨_, rfl⟩, .inr ⟨_, rfl⟩⟩
  have hfaulty : faulty.HoldsTexts := ⟨.inr ⟨_, rfl⟩, .inl rfl, .inr ⟨_, rfl⟩⟩
  have hread : read env = .ok (settings, warnings) :=
    read_eq_ok_iff.mpr ⟨rfl, by decide +kernel, rfl⟩
  have hacts : ∀ change, Act.edit change ∈ acts → change.LeavesDefaults := by
    intro change hmem
    simp only [acts, List.mem_cons, List.not_mem_nil, or_false, Act.edit.injEq,
      reduceCtorEq] at hmem
    rcases hmem with rfl | rfl | rfl
    · trivial
    · trivial
    · rfl
  have hlist : Says env.allowedMentions "Roles, here USERS" := ⟨rfl, 'R', by decide, by decide⟩
  have hoff : SaysOneOf ["0", "false"] env.repliedUser :=
    ⟨"0", ⟨rfl, '0', by decide, by decide⟩, by decide⟩
  have hloud : Says faulty.logLevel "Loud " := ⟨rfl, 'L', by decide, by decide⟩
  obtain ⟨-, -, -, hmessages⟩ := settings_reach_messages env htexts
  obtain ⟨-, hnamed, -, -, hpolicy⟩ := hmessages settings warnings hread
  obtain ⟨tokens, hwords, -, htypes, -⟩ := hnamed _ hlist
  refine ⟨htexts, hfaulty, hread, ⟨tokens, hwords, htypes⟩, hacts, ?_, ?_⟩
  · obtain ⟨policy, -, hbody, hparse, -, -, hflag⟩ := (hpolicy setup .unset).1 acts hacts
    have hedits : (Session.start settings.mentionDefaults .unset).acceptedEdits setup acts =
        [.choose (.users [some (.string "11")]), .applyMessage (some message)] := rfl
    refine ⟨_, policy, rfl, hbody _ rfl, ?_, hflag.mpr hoff⟩
    rw [hparse, hedits]
    rfl
  · obtain ⟨-, hlevel, hcategories, -⟩ := settings_reach_messages faulty hfaulty
    exact (hcategories _ (.inr ⟨_, rfl⟩) _).mpr (hlevel "Loud " hloud (by decide +kernel))

end Courier.Settings
