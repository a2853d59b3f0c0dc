import Courier.Proofs.Json.RoundTrip
import Courier.Proofs.Requirement
import Courier.Proofs.WireBody

namespace Courier

/-- The text of the field that carries the payload, if a body has such a field. -/
def WireBody.payloadText? (body : WireBody) : Option String :=
  body.parts.findSome? fun
    | .field name value => if name = payloadField then some value else none
    | .file .. => none

/-- Every builder turns into a value of JSON, and an exact one. -/
def Builders.AreExact (builders : Builders) : Prop :=
  ∀ name, ∃ value : Json, builders name = .ok { value } ∧ value.IsExact

/-- All values in the draft that were given as such are exact. -/
structure Draft.IsExact (d : Draft) : Prop where
  content : ∀ v ∈ d.content, v.IsExact
  tts : ∀ v ∈ d.tts, v.IsExact
  username : ∀ v ∈ d.username, v.IsExact
  avatarUrl : ∀ v ∈ d.avatarUrl, v.IsExact
  embeds : ∀ v, .fixed v ∈ d.embeds → v.IsExact
  rows : ∀ v, .fixed v ∈ d.rows → v.IsExact
  allowedMentions : ∀ v ∈ d.allowedMentions, v.IsExact

def Element.IsFixed (e : Element) : Prop :=
  ∃ v, e = .fixed v

/-- No embed and no row of the draft is a builder. -/
structure Draft.IsFixed (d : Draft) : Prop where
  embeds : ∀ e ∈ d.embeds, e.IsFixed
  rows : ∀ e ∈ d.rows, e.IsFixed

namespace Payload

theorem lookup_member {α : Type} (key k : String) (f : α → Json) (value : Option α) :
    (member key f value).lookup k = if k = key then value.map f else none := by
  cases value with
  | none => simp [member]
  | some value =>
      rw [member, List.lookup_cons, List.lookup_nil]
      by_cases h : k = key
      · rw [if_pos h, beq_iff_eq.mpr h]
        rfl
      · rw [if_neg h, beq_eq_false_iff_ne.mpr h]

theorem toJson_inj {p q : Payload} (hwriting : p.writing = q.writing) (h : p.toJson = q.toJson) :
    p = q := by
  have hmember (key : String) : p.members.lookup key = q.members.lookup key :=
    congrArg (Json.get? key) h
  simp only [members, List.lookup_append, lookup_member] at hmember
  have hcontent : p.content = q.content := by simpa using hmember "content"
  have htts : p.tts = q.tts := by simpa using hmember "tts"
  have husername : p.username = q.username := by simpa using hmember "username"
  have havatarUrl : p.avatarUrl = q.avatarUrl := by simpa using hmember "avatar_url"
  have hmentions : p.allowedMentions = q.allowedMentions := by
    simpa using hmember "allowed_mentions"
  have hflags : p.flags = q.flags := by
    apply (Option.map_inj_right fun m n h => Number.ofNat_inj (Json.number.inj h)).mp
    simpa using hmember "flags"
  have hembeds : p.embeds = q.embeds := by
    apply (Option.map_inj_right fun _ _ => Json.array.inj).mp
    simpa using hmember "embeds"
  have hrows : p.rows = q.rows := by
    apply (Option.map_inj_right fun _ _ => Json.array.inj).mp
    simpa using hmember "components"
  cases p
  cases q
  simp_all

theorem mem_member {α : Type} {key : String} {f : α → Json} {value : Option α}
    {m : String × Json} (h : m ∈ member key f value) : ∃ v, value = some v ∧ m.2 = f v := by
  cases value with
  | none => cases h
  | some v =>
      rw [List.mem_singleton.mp h]
      exact ⟨v, rfl, rfl⟩

theorem exact_of_mem_member {key : String} {value : Given} (h : ∀ v ∈ value, v.IsExact)
    {m : String × Json} (hm : m ∈ member key id value) : m.2.IsExact := by
  obtain ⟨v, hv, hm⟩ := mem_member hm
  rw [hm]
  exact h v hv

theorem exact_of_mem_list {items : List Built} (h : ∀ built ∈ items, built.value.IsExact)
    {key : String} {m : String × Json} (hm : m ∈ member key .array (listed items)) :
    m.2.IsExact := by
  obtain ⟨values, hvalues, hm⟩ := mem_member hm
  unfold listed at hvalues
  split at hvalues
  · cases hvalues
  · cases hvalues
    rw [hm]
    exact .array (List.forall_mem_map.mpr h)

theorem number_ofNat_isExact {n : Nat} (h : n ≤ Number.exactBound) :
    (Json.number (.ofNat n)).IsExact :=
  .number ⟨n, rfl, h⟩

theorem exists_values {elements : List Element} (h : ∀ e ∈ elements, e.IsFixed) :
    ∃ values : List Json, elements = values.map .fixed := by
  induction elements with
  | nil => exact ⟨[], rfl⟩
  | cons e rest ih =>
      obtain ⟨v, rfl⟩ := h e List.mem_cons_self
      obtain ⟨values, rfl⟩ := ih fun e he => h e (List.mem_cons_of_mem _ he)
      exact ⟨v :: values, rfl⟩

theorem isExact_toJson {d : Draft} {embeds rows : List Built} (hd : d.IsExact)
    (hembeds : ∀ built ∈ embeds, built.value.IsExact)
    (hrows : ∀ built ∈ rows, built.value.IsExact) : (ofBuilt d embeds rows).toJson.IsExact := by
  refine .object fun m hm => ?_
  simp only [ofBuilt, members, List.mem_append] at hm
  rcases hm with ((((((hm | hm) | hm) | hm) | hm) | hm) | hm) | hm
  · exact exact_of_mem_member hd.content hm
  · exact exact_of_mem_member hd.tts hm
  · exact exact_of_mem_member hd.username hm
  · exact exact_of_mem_member hd.avatarUrl hm
  · obtain ⟨n, hn, hm⟩ := mem_member hm
    split at hn
    · cases hn
      rw [hm]
      exact number_ofNat_isExact (by decide)
    · cases hn
  · exact exact_of_mem_list hembeds hm
  · exact exact_of_mem_list hrows hm
  · exact exact_of_mem_member hd.allowedMentions hm

end Payload

theorem Element.resolveAll_of_exact {builders : Builders} {elements : List Element}
    (hfixed : ∀ v, .fixed v ∈ elements → v.IsExact)
    (hlive : ∀ name, .live name ∈ elements →
      ∃ value : Json, builders name = .ok { value } ∧ value.IsExact) :
    ∃ items, Payload.resolveAll builders elements = .ok items ∧
      (∀ built ∈ items, built.value.IsExact) ∧ ∀ built ∈ items, built.writing = .ok () := by
  have heach : ∀ e ∈ elements,
      ∃ value : Json, e.resolve builders = .ok { value } ∧ value.IsExact := by
    intro e he
    cases e with
    | fixed v => exact ⟨v, rfl, hfixed v he⟩
    | live name => exact hlive name he
  clear hfixed hlive
  induction elements with
  | nil => exact ⟨[], rfl, by rintro built ⟨⟩, by rintro built ⟨⟩⟩
  | cons e rest ih =>
      obtain ⟨value, hvalue, hexact⟩ := heach e List.mem_cons_self
      obtain ⟨items, hitems, hall, hplain⟩ := ih fun e he => heach e (List.mem_cons_of_mem _ he)
      refine ⟨{ value } :: items, ?_, ?_, ?_⟩
      · rw [Payload.resolveAll_eq_ok_iff] at hitems ⊢
        exact .cons hvalue hitems
      · exact List.forall_mem_cons.mpr ⟨hexact, hall⟩
      · exact List.forall_mem_cons.mpr ⟨rfl, hplain⟩

/-- An exact draft has a payload, which is exact, and every value in it can be written. -/
theorem Draft.IsExact.exists_payload {builders : Builders} {d : Draft} (h : d.IsExact)
    (hlive : ∀ name, .live name ∈ d.embeds ++ d.rows →
      ∃ value : Json, builders name = .ok { value } ∧ value.IsExact) :
    ∃ p, Payload.ofDraft builders d = .ok p ∧ p.toJson.IsExact ∧ p.writing = .ok () := by
  obtain ⟨embeds, hembeds, hexactEmbeds, hplainEmbeds⟩ := Element.resolveAll_of_exact h.embeds
    fun name hname => hlive name (List.mem_append_left _ hname)
  obtain ⟨rows, hrows, hexactRows, hplainRows⟩ := Element.resolveAll_of_exact h.rows
    fun name hname => hlive name (List.mem_append_right _ hname)
  refine ⟨_, Payload.ofDraft_eq_ok_iff.mpr ⟨embeds, rows, hembeds, hrows, rfl⟩,
    Payload.isExact_toJson h hexactEmbeds hexactRows, Payload.forM_writing_of_plain ?_⟩
  exact List.forall_mem_append.mpr ⟨hplainEmbeds, hplainRows⟩

theorem Draft.IsFixed.not_live {d : Draft} (h : d.IsFixed) {name : String} :
    .live name ∉ d.embeds ++ d.rows := by
  intro hmem
  rcases List.mem_append.mp hmem with hmem | hmem
  · obtain ⟨v, hv⟩ := h.embeds _ hmem
    cases hv
  · obtain ⟨v, hv⟩ := h.rows _ hmem
    cases hv

namespace Payload

/-- Of a draft without builders, the payload shows everything; of the mark of a message that only its
addressee sees, whether it is on. -/
theorem ofDraft_inj {builders builders' : Builders} {d d' : Draft} {p : Payload} (hd : d.IsFixed)
    (hd' : d'.IsFixed) (hp : ofDraft builders d = .ok p) (hp' : ofDraft builders' d' = .ok p) :
    d.ephemeral.isOn = d'.ephemeral.isOn ∧ { d with ephemeral := d'.ephemeral } = d' := by
  obtain ⟨embeds, hembeds⟩ := exists_values hd.embeds
  obtain ⟨rows, hrows⟩ := exists_values hd.rows
  obtain ⟨embeds', hembeds'⟩ := exists_values hd'.embeds
  obtain ⟨rows', hrows'⟩ := exists_values hd'.rows
  have hlisted {values : List Json} : listed (values.map fun value => { value }) =
      if values = [] then none else some values := by
    cases values <;> simp [listed, Function.comp_def]
  rw [ofDraft, hembeds, hrows, resolveAll_map_fixed, resolveAll_map_fixed] at hp
  rw [ofDraft, hembeds', hrows', resolveAll_map_fixed, resolveAll_map_fixed] at hp'
  obtain rfl := Except.ok.inj hp
  have heq := Except.ok.inj hp'
  simp only [ofBuilt, Payload.mk.injEq, hlisted] at heq
  obtain ⟨hcontent, htts, husername, havatarUrl, hflags, hsame, hsame', hmentions, -⟩ := heq
  have hvalues {values values' : List Json}
      (h : (if values' = [] then none else some values') =
        if values = [] then none else some values) : values' = values := by
    split at h <;> split at h <;> simp_all
  have hflag {on on' : Bool} (h : (if on' = true then some ephemeralFlag else none) =
      if on = true then some ephemeralFlag else none) : on = on' := by
    cases on <;> cases on' <;> first | rfl | cases h
  refine ⟨hflag hflags, ?_⟩
  rw [hvalues hsame, ← hembeds] at hembeds'
  rw [hvalues hsame', ← hrows] at hrows'
  rw [← hcontent, ← htts, ← husername, ← havatarUrl, ← hembeds', ← hrows', ← hmentions]

end Payload

namespace WireBody

variable {builders : Builders} {d : Draft} {files : List Attachment} {body : WireBody}

theorem payloadText?_append (p : Payload) (start : Nat) (files : List Attachment)
    (rest : List Part) :
    (multipart p (fileParts start files ++ rest)).payloadText? =
      (multipart p rest).payloadText? := by
  induction files generalizing start with
  | nil => rfl
  | cons a more ih => exact ih (start + 1)

theorem payloadText?_of_build (h : build builders d files = .ok body) (hfiles : files ≠ []) :
    body.payloadText? = some body.payload.toJson.write := by
  obtain ⟨payload, text, -, htext, rfl⟩ := (build_eq_ok_iff hfiles).mp h
  rw [payloadText?_append, (Payload.text_eq_ok_iff.mp htext).2.2]
  rfl

theorem eq_write_of_payloadText? (h : build builders d files = .ok body) {text : String}
    (htext : body.payloadText? = some text) : text = body.payload.toJson.write := by
  by_cases hfiles : files = []
  · subst hfiles
    rw [payloadText?, parts_of_build_nil h] at htext
    cases htext
  · rw [payloadText?_of_build h hfiles] at htext
    exact (Option.some.inj htext).symm

end WireBody

/-- A body with files carries its payload as a text from which the payload is read back, members in
their order and every text character by character, as long as its numbers are exact. There is such a
body unless the text would be too long. So two drafts without builders that are sent with the same
text are the same draft. -/
theorem payload_text_lossless :
    (∀ (builders : Builders) (d : Draft) (files : List Attachment),
      files ≠ [] → builders.AreExact → d.IsExact →
      ∃ payload, Payload.ofDraft builders d = .ok payload ∧
        ((∃ body, WireBody.build builders d files = .ok body) ↔
          Text.units16 payload.toJson.write ≤ 536870888) ∧
        ∀ body, WireBody.build builders d files = .ok body → body.payload = payload ∧
          ∃ text, body.payloadText? = some text ∧ Json.read text = .ok payload.toJson) ∧
    ∀ (builders builders' : Builders) (d d' : Draft) (files files' : List Attachment)
      (body body' : WireBody) (text : String),
      WireBody.build builders d files = .ok body → body.payloadText? = some text →
      WireBody.build builders' d' files' = .ok body' → body'.payloadText? = some text →
      d.IsExact → d'.IsExact → d.IsFixed → d'.IsFixed →
      d.ephemeral.isOn = d'.ephemeral.isOn ∧ { d with ephemeral := d'.ephemeral } = d' ∧
        (∀ b b', d.ephemeral = .ofBool b → d'.ephemeral = .ofBool b' → d = d') := by
  constructor
  · intro builders d files hfiles hbuilders hd
    obtain ⟨payload, hpayload, hexact, hwriting⟩ := hd.exists_payload fun name _ => hbuilders name
    refine ⟨payload, hpayload, ?_, fun body hbody => ?_⟩
    · simp [WireBody.exists_build_iff, hpayload, hfiles, Payload.text_eq_ok_iff, hwriting,
        Text.maxUnits]
    · have hsame := WireBody.payload_of_build hbody
      rw [hpayload, Except.ok.injEq] at hsame
      subst hsame
      exact ⟨rfl, _, WireBody.payloadText?_of_build hbody hfiles, Json.read_write hexact⟩
  · intro builders builders' d d' files files' body body' text hbody htext hbody' htext' hd hd'
      hfixed hfixed'
    obtain ⟨p, hp, hexact, hwriting⟩ := hd.exists_payload fun name hname =>
      absurd hname hfixed.not_live
    obtain ⟨p', hp', hexact', hwriting'⟩ := hd'.exists_payload fun name hname =>
      absurd hname hfixed'.not_live
    obtain rfl := Except.ok.inj (hp.symm.trans (WireBody.payload_of_build hbody))
    obtain rfl := Except.ok.inj (hp'.symm.trans (WireBody.payload_of_build hbody'))
    have hwrite := (WireBody.eq_write_of_payloadText? hbody htext).symm.trans
      (WireBody.eq_write_of_payloadText? hbody' htext')
    have hsame := Payload.toJson_inj (hwriting.trans hwriting'.symm)
      (Json.write_inj hexact hexact' hwrite)
    obtain ⟨hon, heq⟩ := Payload.ofDraft_inj hfixed hfixed' hp (hsame ▸ hp')
    refine ⟨hon, heq, fun b b' hb hb' => ?_⟩
    rw [hb, hb'] at hon
    have hflag : b = b' := hon
    rw [← heq, hb', ← hflag, ← hb]

/-- A message without a name of its author and one with an empty name are sent with different
texts. -/
theorem empty_name_told_apart :
    let embed : Json := .object [("title", .string "\"\\\n"), ("color", .number (.ofInt (-5)))]
    let d : Draft := {
      content := .ofText "text", embeds := [.fixed embed], allowedMentions := some .null }
    let d' : Draft := { d with username := .ofText "" }
    let files : List Attachment := [⟨.string "notes.txt", ⟨0, .buffer []⟩⟩]
    ∃ body body' text, WireBody.build .unset d files = .ok body ∧
      WireBody.build .unset d' files = .ok body' ∧ body.payloadText? = some text ∧
      Json.read text = .ok body.payload.toJson ∧ body'.payloadText? ≠ some text := by
  intro embed d d' files
  have hembed : embed.IsExact := by
    refine .object fun m hm => ?_
    simp only [List.mem_cons, List.not_mem_nil, or_false] at hm
    rcases hm with rfl | rfl
    · exact .string _
    · exact .number ⟨-5, rfl, by decide⟩
  have hexact (name : Given) (hname : ∀ v ∈ name, v.IsExact) :
      Draft.IsExact { d with username := name } := by
    refine ⟨?_, ?_, hname, ?_, ?_, ?_, ?_⟩
    · rintro v ⟨⟩
      exact .string _
    · rintro v ⟨⟩
      exact .bool _
    · rintro v ⟨⟩
    · intro v hv
      cases List.mem_singleton.mp hv
      exact hembed
    · rintro v ⟨⟩
    · rintro v ⟨⟩
      exact .null
  have hfixed (name : Given) : Draft.IsFixed { d with username := name } := by
    constructor
    · intro e he
      exact ⟨embed, List.mem_singleton.mp he⟩
    · rintro e ⟨⟩
  have hunset : Builders.unset.AreExact := fun name => ⟨.null, rfl, .null⟩
  have hd := hexact none (by rintro v ⟨⟩)
  have hd' := hexact (.ofText "") (by rintro v ⟨⟩; exact .string _)
  obtain ⟨payload, hpayload, hmade, hread⟩ := payload_text_lossless.1 .unset d files
    (List.cons_ne_nil _ _) hunset hd
  obtain ⟨payload', hpayload', hmade', -⟩ := payload_text_lossless.1 .unset d' files
    (List.cons_ne_nil _ _) hunset hd'
  cases hpayload
  cases hpayload'
  obtain ⟨body, hbody⟩ := hmade.mpr (by decide)
  obtain ⟨body', hbody'⟩ := hmade'.mpr (by decide)
  obtain ⟨hsame, text, htext, hread⟩ := hread body hbody
  refine ⟨body, body', text, hbody, hbody', htext, hsame ▸ hread, fun htext' => ?_⟩
  have hsame := (payload_text_lossless.2 _ _ d d' files files body body' text hbody htext hbody'
    htext' hd hd' (hfixed none) (hfixed (.ofText ""))).2.2 false false rfl rfl
  cases congrArg Draft.username hsame

end Courier
