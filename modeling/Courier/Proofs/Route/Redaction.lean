import Courier.Mutator
import Courier.Proofs.Text
import Courier.Route

/-!
Which part of a path is blotted out. A path is cut at the token of a webhook in at most one way; of
a path that can be cut the token is replaced, any other path is shown as it is, and what is shown
once is shown again as it is.
-/

namespace Courier.Route

theorem afterStart?_append (start rest : List Char) :
    afterStart? start (start ++ rest) = some rest := by
  induction start with
  | nil => cases rest <;> rfl
  | cons c start ih => simpa [afterStart?] using ih

theorem span_isDigit {digits : List Char} (hdigits : ∀ c ∈ digits, c.isDigit = true)
    (tail : List Char) :
    (digits ++ '/' :: tail).takeWhile Char.isDigit = digits ∧
      (digits ++ '/' :: tail).dropWhile Char.isDigit = '/' :: tail := by
  refine Text.span_append hdigits ?_
  rintro c ⟨⟩
  rfl

/-- The segment behind the number of a webhook is blotted out, and all behind it stays. -/
theorem redactPath_webhook {digits segment rest : List Char} (hdigits : digits ≠ [])
    (hall : ∀ c ∈ digits, c.isDigit = true) (hsegment : segment ≠ []) (hslash : '/' ∉ segment)
    (hrest : rest.head? = none ∨ rest.head? = some '/') :
    redactPath (webhookStart ++ (digits ++ '/' :: (segment ++ rest))) =
      webhookStart ++ digits ++ "/:token".toList ++ rest := by
  obtain ⟨htake, hdrop⟩ := span_isDigit hall (segment ++ rest)
  obtain ⟨hseg, htail⟩ := Text.span_bne_append hslash hrest
  obtain ⟨d, ds, rfl⟩ := List.exists_cons_of_ne_nil hdigits
  have hempty : segment.isEmpty = false := by
    cases segment with
    | nil => exact absurd rfl hsegment
    | cons c rest => rfl
  simp only [redactPath, afterStart?_append, htake, hdrop, hseg, htail, hempty]
  rfl

theorem toList_tokenPath (digits token rest : String) :
    ("/webhooks/" ++ digits ++ "/" ++ token ++ rest).toList =
      webhookStart ++ (digits.toList ++ '/' :: (token.toList ++ rest.toList)) := by
  have hslash : "/".toList = ['/'] := by decide
  have hstart : "/webhooks/".toList = webhookStart := rfl
  simp only [String.toList_append, hslash, hstart, List.append_assoc, List.cons_append,
    List.nil_append]

theorem toList_webhookPath {id token : String} (hne : token ≠ "") :
    (webhookPath id token).toList = webhookStart ++ (id.toList ++ '/' :: token.toList) := by
  have hempty : token.isEmpty = false := Bool.eq_false_iff.mpr fun h => hne (by simpa using h)
  have hpath := toList_tokenPath id token ""
  rw [String.append_empty, String.toList_empty, List.append_nil] at hpath
  rw [webhookPath, hempty, if_neg Bool.false_ne_true, hpath]

theorem redacted_executeWebhook {id token : String} (hid : isSnowflake id = true)
    (hne : token ≠ "") (hslash : '/' ∉ token.toList) (options : ExecuteOptions) :
    (executeWebhook id token options).redacted = "POST /webhooks/" ++ id ++ "/:token" := by
  obtain ⟨hidne, hdigits⟩ : id ≠ "" ∧ ∀ c ∈ id.toList, c.isDigit = true := by
    simpa [isSnowflake] using hid
  have hidlist : id.toList ≠ [] := mt String.toList_eq_nil_iff.mp hidne
  have htokenlist : token.toList ≠ [] := mt String.toList_eq_nil_iff.mp hne
  have hredacted : redactPath (webhookPath id token).toList =
      webhookStart ++ id.toList ++ "/:token".toList := by
    have h := redactPath_webhook hidlist hdigits htokenlist hslash (.inl List.head?_nil)
    rwa [List.append_nil, List.append_nil, ← toList_webhookPath hne] at h
  have hstart : webhookStart = "/webhooks/".toList := rfl
  have hbegin : "POST /webhooks/" = "POST" ++ " " ++ "/webhooks/" := by decide
  rw [redacted, executeWebhook, hredacted, hstart, String.ofList_append, String.ofList_append,
    String.ofList_toList, String.ofList_toList, String.ofList_toList, hbegin]
  simp only [String.append_assoc]

/-- The path is that of a webhook, or begins with it: behind the number of the webhook its token
makes up a whole segment. -/
structure ShowsToken (path digits token rest : String) : Prop where
  path_eq : path = "/webhooks/" ++ digits ++ "/" ++ token ++ rest
  digits_ne : digits ≠ ""
  isDigit : ∀ c ∈ digits.toList, c.isDigit = true
  token_ne : token ≠ ""
  slash_notMem : '/' ∉ token.toList
  rest_eq : rest = "" ∨ ∃ tail, rest = "/" ++ tail

theorem eq_append_of_afterStart? {start path rest : List Char}
    (h : afterStart? start path = some rest) : path = start ++ rest := by
  induction start generalizing path with
  | nil =>
      cases path <;> exact Option.some.inj h
  | cons p start ih =>
      cases path with
      | nil => cases h
      | cons c path =>
          rw [afterStart?] at h
          split at h
          · subst p
            rw [ih h, List.cons_append]
          · cases h

theorem redactPath_eq_or_exists (path : List Char) :
    redactPath path = path ∨ ∃ digits token rest,
      path = webhookStart ++ (digits ++ '/' :: (token ++ rest)) ∧
      digits ≠ [] ∧ (∀ c ∈ digits, c.isDigit = true) ∧ token ≠ [] ∧ '/' ∉ token ∧
      (rest = [] ∨ ∃ tail, rest = '/' :: tail) := by
  unfold redactPath
  split
  · exact .inl rfl
  · rename_i behind hbehind
    split
    · rename_i d ds tail htake hdrop
      split
      · exact .inl rfl
      · rename_i htoken
        refine .inr ⟨d :: ds, tail.takeWhile (· != '/'), tail.dropWhile (· != '/'), ?_,
          List.cons_ne_nil d ds, ?_, ?_, ?_, ?_⟩
        · rw [List.takeWhile_append_dropWhile, ← htake, ← hdrop,
            List.takeWhile_append_dropWhile]
          exact eq_append_of_afterStart? hbehind
        · intro c hc
          rw [← htake] at hc
          exact List.mem_takeWhile_imp hc
        · simpa using htoken
        · intro hmem
          exact absurd (List.mem_takeWhile_imp hmem) (by decide)
        · cases hrest : tail.dropWhile (· != '/') with
          | nil => exact .inl rfl
          | cons c after =>
              have hhead := List.head?_dropWhile_not (· != '/') tail
              rw [hrest] at hhead
              obtain rfl : c = '/' := by simpa using hhead
              exact .inr ⟨after, rfl⟩
    · exact .inl rfl

namespace ShowsToken

variable {path digits token rest digits' token' rest' : String}

theorem toList_path (h : ShowsToken path digits token rest) :
    path.toList =
      webhookStart ++ (digits.toList ++ '/' :: (token.toList ++ rest.toList)) := by
  rw [h.path_eq, toList_tokenPath]

theorem head?_rest (h : ShowsToken path digits token rest) :
    rest.toList.head? = none ∨ rest.toList.head? = some '/' := by
  rcases h.rest_eq with rfl | ⟨tail, rfl⟩
  · exact .inl rfl
  · right
    have hslash : "/".toList = ['/'] := by decide
    rw [String.toList_append, hslash]
    rfl

/-- A path shows at most one token, in one place. -/
theorem unique (h : ShowsToken path digits token rest)
    (h' : ShowsToken path digits' token' rest') :
    digits' = digits ∧ token' = token ∧ rest' = rest := by
  have hpath : digits'.toList ++ '/' :: (token'.toList ++ rest'.toList) =
      digits.toList ++ '/' :: (token.toList ++ rest.toList) :=
    List.append_cancel_left (h'.toList_path.symm.trans h.toList_path)
  obtain ⟨htake, hdrop⟩ := span_isDigit h.isDigit (token.toList ++ rest.toList)
  obtain ⟨htake', hdrop'⟩ := span_isDigit h'.isDigit (token'.toList ++ rest'.toList)
  obtain ⟨htoken, hrest⟩ := Text.span_bne_append h.slash_notMem h.head?_rest
  obtain ⟨htoken', hrest'⟩ := Text.span_bne_append h'.slash_notMem h'.head?_rest
  have htail : token'.toList ++ rest'.toList = token.toList ++ rest.toList := by
    rw [hpath] at hdrop'
    exact (List.cons.inj (hdrop'.symm.trans hdrop)).2
  refine ⟨String.toList_inj.mp ?_, String.toList_inj.mp ?_, String.toList_inj.mp ?_⟩
  · rw [← htake', hpath, htake]
  · rw [← htoken', htail, htoken]
  · rw [← hrest', htail, hrest]

theorem redactPath_eq (h : ShowsToken path digits token rest) :
    redactPath path.toList = ("/webhooks/" ++ digits ++ "/:token" ++ rest).toList := by
  have hdigits : digits.toList ≠ [] := mt String.toList_eq_nil_iff.mp h.digits_ne
  have htoken : token.toList ≠ [] := mt String.toList_eq_nil_iff.mp h.token_ne
  rw [h.toList_path, redactPath_webhook hdigits h.isDigit htoken h.slash_notMem h.head?_rest]
  simp only [String.toList_append]
  rfl

theorem redacted_path (h : ShowsToken path digits token rest) :
    ShowsToken ("/webhooks/" ++ digits ++ "/:token" ++ rest) digits ":token" rest where
  path_eq := by
    have hmark : "/:token" = "/" ++ ":token" := by decide
    rw [hmark, ← String.append_assoc]
  digits_ne := h.digits_ne
  isDigit := h.isDigit
  token_ne := by decide
  slash_notMem := by decide
  rest_eq := h.rest_eq

end ShowsToken

theorem redactPath_of_not_showsToken {path : String}
    (h : ¬ ∃ digits token rest, ShowsToken path digits token rest) :
    redactPath path.toList = path.toList := by
  rcases redactPath_eq_or_exists path.toList with
    heq | ⟨digits, token, rest, hpath, hdigits, hall, htoken, hslash, hrest⟩
  · exact heq
  · refine absurd ⟨.ofList digits, .ofList token, .ofList rest, ?_⟩ h
    have hempty (cs : List Char) (hcs : cs ≠ []) : String.ofList cs ≠ "" :=
      fun heq => hcs (by simpa using congrArg String.toList heq)
    constructor
    · rw [← String.toList_inj, hpath, toList_tokenPath]
      simp only [String.toList_ofList]
    · exact hempty digits hdigits
    · rwa [String.toList_ofList]
    · exact hempty token htoken
    · rwa [String.toList_ofList]
    · rcases hrest with rfl | ⟨tail, rfl⟩
      · exact .inl rfl
      · have hcons : String.ofList (['/'] ++ tail) = "/" ++ .ofList tail := String.ofList_append
        exact .inr ⟨.ofList tail, hcons⟩

theorem redacted_eq {route : Route} {shown : String}
    (h : redactPath route.path.toList = shown.toList) :
    route.redacted = route.method ++ " " ++ shown := by
  rw [redacted, h, String.ofList_toList]

/-- What a log shows of a route: of a path with a token what is left without it, and any other path as
it is. -/
inductive ShownAs (route : Route) : String → Prop
  | token {digits token rest : String} (h : ShowsToken route.path digits token rest) :
      ShownAs route (route.method ++ " /webhooks/" ++ digits ++ "/:token" ++ rest)
  | plain (h : ¬ ∃ digits token rest, ShowsToken route.path digits token rest) :
      ShownAs route (route.method ++ " " ++ route.path)

theorem redacted_eq_of_showsToken {route : Route} {digits token rest : String}
    (h : ShowsToken route.path digits token rest) :
    route.redacted = route.method ++ " /webhooks/" ++ digits ++ "/:token" ++ rest := by
  have hbegin : " /webhooks/" = " " ++ "/webhooks/" := by decide
  rw [redacted_eq h.redactPath_eq, hbegin]
  simp only [String.append_assoc]

theorem shownAs_iff {route : Route} {shown : String} :
    route.ShownAs shown ↔ shown = route.redacted := by
  constructor
  · rintro (h | h)
    · exact (redacted_eq_of_showsToken h).symm
    · exact (redacted_eq (redactPath_of_not_showsToken h)).symm
  · rintro rfl
    by_cases h : ∃ digits token rest, ShowsToken route.path digits token rest
    · obtain ⟨digits, token, rest, h⟩ := h
      rw [redacted_eq_of_showsToken h]
      exact .token h
    · rw [redacted_eq (redactPath_of_not_showsToken h)]
      exact .plain h

/-- Of a path that shows a token, which it does in one place only, the token is replaced and all
else is kept; any other path is shown as it is. The query plays no part, and a path that was shown
is shown again as it is. -/
theorem token_segment_replaced (route : Route) :
    (∀ digits token rest, ShowsToken route.path digits token rest →
      route.redacted = route.method ++ " /webhooks/" ++ digits ++ "/:token" ++ rest ∧
        ∀ digits' token' rest', ShowsToken route.path digits' token' rest' →
          digits' = digits ∧ token' = token ∧ rest' = rest) ∧
    ((¬ ∃ digits token rest, ShowsToken route.path digits token rest) →
      route.redacted = route.method ++ " " ++ route.path) ∧
    (∀ query, { route with query }.redacted = route.redacted) ∧
    ∃ shown, route.redacted = route.method ++ " " ++ shown ∧
      { route with path := shown }.redacted = route.redacted := by
  refine ⟨?_, ?_, fun query => rfl, ?_⟩
  · intro digits token rest h
    exact ⟨redacted_eq_of_showsToken h, fun digits' token' rest' h' => h.unique h'⟩
  · intro h
    exact redacted_eq (redactPath_of_not_showsToken h)
  · by_cases h : ∃ digits token rest, ShowsToken route.path digits token rest
    · obtain ⟨digits, token, rest, h⟩ := h
      refine ⟨_, redacted_eq h.redactPath_eq, ?_⟩
      rw [redacted_eq h.redactPath_eq]
      exact redacted_eq h.redacted_path.redactPath_eq
    · have hshown := redacted_eq (redactPath_of_not_showsToken h)
      exact ⟨route.path, hshown, rfl⟩

/-- A token with a line break in it, in front of a second path of the same kind, and a path without
a number. -/
theorem first_token_replaced :
    let nested : Route := { method := "PATCH", path := "/webhooks/77/a\nb/webhooks/8/c" }
    let unnumbered : Route := { method := "POST", path := "/webhooks//secret" }
    ShowsToken nested.path "77" "a\nb" "/webhooks/8/c" ∧
      nested.redacted = "PATCH /webhooks/77/:token/webhooks/8/c" ∧
      (¬ ∃ digits token rest, ShowsToken unnumbered.path digits token rest) ∧
      unnumbered.redacted = "POST /webhooks//secret" := by
  intro nested unnumbered
  have hnested : ShowsToken nested.path "77" "a\nb" "/webhooks/8/c" :=
    ⟨by decide, by decide, List.all_eq_true.mp (by decide), by decide, by decide,
      .inr ⟨"webhooks/8/c", by decide⟩⟩
  have hunnumbered : ¬ ∃ digits token rest, ShowsToken unnumbered.path digits token rest := by
    rintro ⟨digits, token, rest, h⟩
    -- The character behind the start of the path would be a digit, but it is a slash.
    obtain ⟨d, ds, hd⟩ :=
      List.exists_cons_of_ne_nil (mt String.toList_eq_nil_iff.mp h.digits_ne)
    have hdigit := h.isDigit d (hd ▸ List.mem_cons_self)
    have hpath := h.toList_path
    rw [hd] at hpath
    have hbegin : unnumbered.path.toList = webhookStart ++ '/' :: "secret".toList := by decide
    rw [hbegin, List.cons_append] at hpath
    obtain ⟨hslash, -⟩ := List.cons.inj (List.append_cancel_left hpath)
    rw [← hslash] at hdigit
    exact absurd hdigit (by decide)
  obtain ⟨hreplaced, -⟩ := token_segment_replaced nested
  obtain ⟨-, hkept, -⟩ := token_segment_replaced unnumbered
  refine ⟨hnested, ?_, hunnumbered, ?_⟩
  · rw [(hreplaced _ _ _ hnested).1]
    decide
  · rw [hkept hunnumbered]
    decide

end Courier.Route
