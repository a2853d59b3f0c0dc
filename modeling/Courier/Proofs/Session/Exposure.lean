import Courier.Proofs.Session.Secrecy

namespace Courier

namespace Route

theorem redactPath_of_afterStart?_eq_none {path : List Char}
    (h : afterStart? webhookStart path = none) : redactPath path = path := by
  rw [redactPath, h]

theorem afterStart?_interactionCallback (id token : String) :
    afterStart? webhookStart (interactionCallback id token).path.toList = none := by
  simp only [interactionCallback, String.toList_append]
  rfl

theorem redacted_interactionCallback (id token : String) :
    (interactionCallback id token).redacted =
      "POST /interactions/" ++ id ++ "/" ++ token ++ "/callback" := by
  have hbegin : "POST /interactions/" = "POST" ++ " " ++ "/interactions/" := by decide
  rw [redacted, redactPath_of_afterStart?_eq_none (afterStart?_interactionCallback id token),
    String.ofList_toList, hbegin]
  simp only [interactionCallback, String.append_assoc]

theorem redacted_interactionCallback_inj (id token other : String) :
    (interactionCallback id token).redacted = (interactionCallback id other).redacted ↔
      token = other := by
  rw [redacted_interactionCallback, redacted_interactionCallback, String.append_left_inj,
    String.append_right_inj]

end Route

/-- What may be logged of the route by which an interaction is answered holds its token in full, and
so differs between any two tokens. In every session over such a route each record of the log shows
it. -/
theorem callback_logged_with_token (id token : String) (channel : Given) (assembler : Assembler)
    (logger : Logger) (defaults : Mention.Defaults) (builders : Builders)
    (steps : List Session.Step) :
    let route := Route.interactionCallback id token
    let setup : Setup := { route, channel, assembler, logger }
    let shown := "POST /interactions/" ++ id ++ "/" ++ token ++ "/callback"
    route.redacted = shown ∧
      (∀ other, route.redacted = (Route.interactionCallback id other).redacted ↔ token = other) ∧
      ∀ entry, .log entry ∈ ((Session.start defaults builders).run setup steps).1.events →
        entry.fields.lookup "route" = some (.string shown) := by
  intro route setup shown
  have hshown : route.redacted = shown := Route.redacted_interactionCallback id token
  refine ⟨hshown, Route.redacted_interactionCallback_inj id token, ?_⟩
  intro entry hentry
  rw [← hshown]
  exact (Session.isDiscreet_start setup defaults builders).run steps entry hentry

/-- The record of a message that is finalized to answer an interaction. -/
theorem finalized_answer_shows_token :
    let setup : Setup := { route := .interactionCallback "88" "secret", channel := .ofText "1" }
    let s := ((Session.start {} .unset).run setup [.finalize]).1
    ∃ entry, .log entry ∈ s.events ∧
      entry.fields.lookup "route" = some (.string "POST /interactions/88/secret/callback") := by
  intro setup s
  have hmem : .log (.finalized setup.route.redacted "json" 0) ∈ s.events := List.mem_cons_self
  have htext : "POST /interactions/" ++ "88" ++ "/" ++ "secret" ++ "/callback" =
      "POST /interactions/88/secret/callback" := by decide
  obtain ⟨-, -, hlog⟩ := callback_logged_with_token "88" "secret" (.ofText "1") .standard .full {}
    .unset [.finalize]
  exact ⟨_, hmem, htext ▸ hlog _ hmem⟩

/-- Two tokens without a slash give answers to one interaction that a log tells apart. -/
theorem callback_tokens_told_apart :
    isSnowflake "88" = true ∧ ("first" ≠ "" ∧ '/' ∉ "first".toList) ∧
      ("second" ≠ "" ∧ '/' ∉ "second".toList) ∧
      (Route.interactionCallback "88" "first").redacted ≠
        (Route.interactionCallback "88" "second").redacted := by
  decide

end Courier
