import Mathlib.Data.Option.Basic
import Courier.Message

namespace Courier

/-- What is left of some items: the images of those that have one, in their order. -/
inductive Kept {α β : Type} (image : α → β → Prop) : List α → List β → Prop
  | nil : Kept image [] []
  | keep {item : α} {value : β} {items : List α} {values : List β} (h : image item value)
    (rest : Kept image items values) : Kept image (item :: items) (value :: values)
  | drop {item : α} {items : List α} {values : List β} (h : ∀ value, ¬ image item value)
    (rest : Kept image items values) : Kept image (item :: items) values

/-- The second list is the first one with junk put into it anywhere. -/
inductive Padded {α : Type} (junk : α → Prop) : List α → List α → Prop
  | nil : Padded junk [] []
  | keep (item : α) {items padded : List α} (rest : Padded junk items padded) :
    Padded junk (item :: items) (item :: padded)
  | insert {item : α} {items padded : List α} (h : junk item) (rest : Padded junk items padded) :
    Padded junk items (item :: padded)

/-- The result is what a member holds, if it is of the right kind, and a default otherwise. -/
structure Json.ReadsAs {α : Type} (value : Json) (key : String) (kind : α → Json)
    (default result : α) : Prop where
  held : ∀ a, value.get? key = some (kind a) → result = a
  absent : (∀ a, value.get? key ≠ some (kind a)) → result = default

/-- The file is what an element describes: its identifier, name and address are there. -/
structure ReceivedFile.IsReadFrom (file : ReceivedFile) (item : Json) : Prop where
  id : item.get? "id" = some (.string file.id)
  id_ne_empty : file.id ≠ ""
  filename : item.get? "filename" = some (.string file.filename)
  filename_ne_empty : file.filename ≠ ""
  url : item.get? "url" = some (.string file.url)
  url_ne_empty : file.url ≠ ""
  size : item.ReadsAs "size" .number 0 file.size
  contentType : ∀ s, file.contentType = some s ↔ item.get? "content_type" = some (.string s)

namespace Message

def IsEmbed (item : Json) : Prop :=
  ∃ members, item = .object members

/-- An action row is an object of its type with an array of components. -/
def IsRow (item : Json) : Prop :=
  item.get? "type" = some (.number 1) ∧
    ∃ components, item.get? "components" = some (.array components)

/-- The message is what a payload describes. -/
structure IsReadFrom (m : Message) (payload : Json) (channel cacheBacked : Given) : Prop where
  id : payload.get? "id" = some (.string m.id)
  id_ne_empty : m.id ≠ ""
  channelId : ∀ s, payload.get? "channel_id" = some (.string s) → m.channelId = .ofText s
  channelId_absent : (∀ s, payload.get? "channel_id" ≠ some (.string s)) →
    m.channelId = channel.bind (·.get? "id")
  channel : m.channel = channel
  content : payload.ReadsAs "content" .string "" m.content
  tts : m.tts = true ↔ payload.get? "tts" = some (.bool true)
  embeds : ∃ items, payload.ReadsAs "embeds" .array [] items ∧
    Kept (fun item embed => embed = item ∧ IsEmbed item) items m.embeds
  rows : ∃ items, payload.ReadsAs "components" .array [] items ∧
    Kept (fun item row => row = item ∧ IsRow item) items m.rows
  webhookId : ∀ s, m.webhookId = some s ↔ payload.get? "webhook_id" = some (.string s)
  authorId : ∀ s, m.authorId = some s ↔
    ∃ author, payload.get? "author" = some author ∧ author.get? "id" = some (.string s)
  authorName : ∀ s, m.authorName = some s ↔
    ∃ author, payload.get? "author" = some author ∧ author.get? "username" = some (.string s)
  flags : payload.ReadsAs "flags" .number 0 m.flags
  ephemeral : m.ephemeral = isEphemeral m.flags
  attachments : ∃ items, payload.ReadsAs "attachments" .array [] items ∧
    Kept (fun item file => file.IsReadFrom item) items m.attachments
  timestamp : ∀ s, m.timestamp = some s ↔ payload.get? "timestamp" = some (.string s)
  cacheBacked : m.cacheBacked = cacheBacked

/-- An element of the list of that name describes something. Of the other fields none is a list. -/
def IsWellFormed (key : String) (item : Json) : Prop :=
  match key with
  | "embeds" => IsEmbed item
  | "components" => IsRow item
  | "attachments" => ∃ file : ReceivedFile, file.IsReadFrom item
  | _ => True

end Message

/-- One payload is another one with elements in its lists that describe nothing. -/
def Json.IsPaddingOf (padded payload : Json) : Prop :=
  ∀ key, padded.get? key = payload.get? key ∨
    ∃ items more, payload.get? key = some (.array items) ∧ padded.get? key = some (.array more) ∧
      Padded (¬ Message.IsWellFormed key ·) items more

section Lists

variable {α β : Type} {image : α → β → Prop}

theorem kept_filterMap {f : α → Option β} (h : ∀ item value, f item = some value ↔ image item value)
    (items : List α) : Kept image items (items.filterMap f) := by
  induction items with
  | nil => exact .nil
  | cons item rest ih =>
      cases hitem : f item with
      | none =>
          rw [List.filterMap_cons_none hitem]
          refine .drop (fun value hvalue => ?_) ih
          cases hitem.symm.trans ((h item value).mpr hvalue)
      | some value =>
          rw [List.filterMap_cons_some hitem]
          exact .keep ((h item value).mp hitem) ih

theorem kept_filter {accepts : α → Bool} {P : α → Prop} (h : ∀ item, accepts item = true ↔ P item)
    (items : List α) :
    Kept (fun item value => value = item ∧ P item) items (items.filter accepts) := by
  rw [← List.filterMap_eq_filter]
  refine kept_filterMap (fun item value => ?_) items
  rw [Option.guard_eq_some_iff, h, eq_comm]

theorem Kept.unique (hunique : ∀ item value value', image item value → image item value' →
    value = value') {items : List α} {values values' : List β} (h : Kept image items values)
    (h' : Kept image items values') : values = values' := by
  induction h generalizing values' with
  | nil =>
      cases h'
      rfl
  | keep hitem _ ih =>
      cases h' with
      | keep hitem' rest' => rw [hunique _ _ _ hitem hitem', ih rest']
      | drop hnone _ => exact absurd hitem (hnone _)
  | drop hnone _ ih =>
      cases h' with
      | keep hitem' _ => exact absurd hitem' (hnone _)
      | drop _ rest' => exact ih rest'

theorem kept_same {P : α → Prop} {item value value' : α} (h : value = item ∧ P item)
    (h' : value' = item ∧ P item) : value = value' :=
  h.1.trans h'.1.symm

theorem Padded.filterMap_eq {junk : α → Prop} {f : α → Option β}
    (hf : ∀ item, junk item → f item = none) {items padded : List α}
    (h : Padded junk items padded) : padded.filterMap f = items.filterMap f := by
  induction h with
  | nil => rfl
  | keep item _ ih => rw [List.filterMap_cons, List.filterMap_cons, ih]
  | insert hjunk _ ih => rw [List.filterMap_cons_none (hf _ hjunk), ih]

end Lists

namespace Json

variable {α : Type} {value : Json} {key : String}

theorem asString?_eq_some_iff {s : String} : value.asString? = some s ↔ value = .string s := by
  cases value <;> simp [asString?]

theorem asBool?_eq_some_iff {b : Bool} : value.asBool? = some b ↔ value = .bool b := by
  cases value <;> simp [asBool?]

theorem asNumber?_eq_some_iff {n : Number} : value.asNumber? = some n ↔ value = .number n := by
  cases value <;> simp [asNumber?]

theorem asArray?_eq_some_iff {items : List Json} :
    value.asArray? = some items ↔ value = .array items := by
  cases value <;> simp [asArray?]

theorem bind_eq_some_iff {given : Given} {read : Json → Option α} {kind : α → Json}
    (h : ∀ v a, read v = some a ↔ v = kind a) {a : α} :
    given.bind read = some a ↔ given = some (kind a) := by
  simp [Option.bind_eq_some_iff, h]

theorem text?_eq_some_iff {s : String} :
    value.text? key = some s ↔ value.get? key = some (.string s) :=
  bind_eq_some_iff fun _ _ => asString?_eq_some_iff

theorem readsAs_getD {read : Json → Option α} {kind : α → Json}
    (h : ∀ v a, read v = some a ↔ v = kind a) (default : α) :
    value.ReadsAs key kind default (((value.get? key).bind read).getD default) where
  held a ha := by rw [(bind_eq_some_iff h).mpr ha, Option.getD_some]
  absent hnone := by
    have hread : (value.get? key).bind read = none :=
      Option.eq_none_iff_forall_ne_some.mpr fun a ha => hnone a ((bind_eq_some_iff h).mp ha)
    rw [hread, Option.getD_none]

theorem ReadsAs.unique {kind : α → Json} {default a b : α}
    (ha : value.ReadsAs key kind default a) (hb : value.ReadsAs key kind default b) : a = b := by
  by_cases h : ∃ held, value.get? key = some (kind held)
  · obtain ⟨held, hheld⟩ := h
    rw [ha.held held hheld, hb.held held hheld]
  · have hnone := not_exists.mp h
    rw [ha.absent hnone, hb.absent hnone]

theorem readsAs_elements : value.ReadsAs key .array [] (value.elements key) :=
  readsAs_getD (fun _ _ => asArray?_eq_some_iff) []

theorem kept_unique {image : Json → α → Prop} {values values' : List α}
    (hunique : ∀ item value value', image item value → image item value' → value = value')
    (h : ∃ items, value.ReadsAs key .array [] items ∧ Kept image items values)
    (h' : ∃ items, value.ReadsAs key .array [] items ∧ Kept image items values') :
    values = values' := by
  obtain ⟨items, hitems, hkept⟩ := h
  obtain ⟨items', hitems', hkept'⟩ := h'
  rw [hitems'.unique hitems] at hkept'
  exact hkept.unique hunique hkept'

theorem isArray_iff : value.isArray = true ↔ ∃ items, value = .array items := by
  cases value <;> simp [isArray]

theorem isObject_iff : value.isObject = true ↔ ∃ members, value = .object members := by
  cases value <;> simp [isObject]

end Json

theorem nonEmpty_eq_some_iff {text : Option String} {s : String} :
    nonEmpty text = some s ↔ text = some s ∧ s ≠ "" := by
  simp [nonEmpty, Option.filter_eq_some_iff]

namespace ReceivedFile

theorem IsReadFrom.unique {file file' : ReceivedFile} {item : Json} (h : file.IsReadFrom item)
    (h' : file'.IsReadFrom item) : file = file' := by
  have hid : file.id = file'.id := by simpa using h.id.symm.trans h'.id
  have hfilename : file.filename = file'.filename := by
    simpa using h.filename.symm.trans h'.filename
  have hurl : file.url = file'.url := by simpa using h.url.symm.trans h'.url
  have hsize : file.size = file'.size := h.size.unique h'.size
  have hcontentType : file.contentType = file'.contentType :=
    Option.ext fun s => (h.contentType s).trans (h'.contentType s).symm
  cases file
  cases file'
  simp_all

theorem ofJson?_eq_some_iff {item : Json} {file : ReceivedFile} :
    ofJson? item = some file ↔ file.IsReadFrom item := by
  constructor
  · intro h
    simp only [ofJson?, Option.bind_eq_bind, Option.bind_eq_some_iff, nonEmpty_eq_some_iff,
      Json.text?_eq_some_iff] at h
    obtain ⟨id, ⟨hid, hidNe⟩, filename, ⟨hfilename, hfilenameNe⟩, url, ⟨hurl, hurlNe⟩, hfile⟩ := h
    cases hfile
    exact ⟨hid, hidNe, hfilename, hfilenameNe, hurl, hurlNe,
      Json.readsAs_getD (fun _ _ => Json.asNumber?_eq_some_iff) 0,
      fun s => Json.text?_eq_some_iff⟩
  · intro h
    have hid := nonEmpty_eq_some_iff.mpr ⟨Json.text?_eq_some_iff.mpr h.id, h.id_ne_empty⟩
    have hfilename :=
      nonEmpty_eq_some_iff.mpr ⟨Json.text?_eq_some_iff.mpr h.filename, h.filename_ne_empty⟩
    have hurl := nonEmpty_eq_some_iff.mpr ⟨Json.text?_eq_some_iff.mpr h.url, h.url_ne_empty⟩
    have hsize := (Json.readsAs_getD (fun _ _ => Json.asNumber?_eq_some_iff) 0).unique h.size
    have hcontentType : item.text? "content_type" = file.contentType :=
      Option.ext fun s => Json.text?_eq_some_iff.trans (h.contentType s).symm
    simp only [ofJson?, hid, hfilename, hurl, hcontentType, hsize]
    rfl

end ReceivedFile

namespace Message

theorem any_isArray_iff {given : Given} :
    given.any Json.isArray = true ↔ ∃ items, given = some (.array items) := by
  cases given with
  | none => simp
  | some value => simpa using Json.isArray_iff

theorem getD_false_iff {b : Option Bool} : b.getD false = true ↔ b = some true := by
  cases b <;> simp

theorem isActionRow_iff {item : Json} : isActionRow item = true ↔ IsRow item := by
  have htype : (item.get? "type").bind Json.asNumber? = some actionRowType ↔
      item.get? "type" = some (.number 1) :=
    Json.bind_eq_some_iff fun _ _ => Json.asNumber?_eq_some_iff
  rw [isActionRow, Bool.and_eq_true, Bool.and_eq_true, decide_eq_true_iff, htype, any_isArray_iff]
  constructor
  · rintro ⟨⟨-, hrow⟩, hcomponents⟩
    exact ⟨hrow, hcomponents⟩
  · rintro ⟨hrow, hcomponents⟩
    refine ⟨⟨?_, hrow⟩, hcomponents⟩
    -- A value with a member can only be an object.
    cases item with
    | object members => rfl
    | _ => cases hrow

theorem IsReadFrom.unique {m m' : Message} {payload : Json} {channel cacheBacked : Given}
    (h : m.IsReadFrom payload channel cacheBacked)
    (h' : m'.IsReadFrom payload channel cacheBacked) : m = m' := by
  have hid : m.id = m'.id := by simpa using h.id.symm.trans h'.id
  have hchannelId : m.channelId = m'.channelId := by
    by_cases hgiven : ∃ s, payload.get? "channel_id" = some (.string s)
    · obtain ⟨s, hs⟩ := hgiven
      rw [h.channelId s hs, h'.channelId s hs]
    · have hnone := not_exists.mp hgiven
      rw [h.channelId_absent hnone, h'.channelId_absent hnone]
  have hchannel : m.channel = m'.channel := h.channel.trans h'.channel.symm
  have hcontent : m.content = m'.content := h.content.unique h'.content
  have htts : m.tts = m'.tts := Bool.eq_iff_iff.mpr (h.tts.trans h'.tts.symm)
  have hwebhookId : m.webhookId = m'.webhookId :=
    Option.ext fun s => (h.webhookId s).trans (h'.webhookId s).symm
  have hauthorId : m.authorId = m'.authorId :=
    Option.ext fun s => (h.authorId s).trans (h'.authorId s).symm
  have hauthorName : m.authorName = m'.authorName :=
    Option.ext fun s => (h.authorName s).trans (h'.authorName s).symm
  have hflags : m.flags = m'.flags := h.flags.unique h'.flags
  have hephemeral : m.ephemeral = m'.ephemeral := by rw [h.ephemeral, h'.ephemeral, hflags]
  have htimestamp : m.timestamp = m'.timestamp :=
    Option.ext fun s => (h.timestamp s).trans (h'.timestamp s).symm
  have hcacheBacked : m.cacheBacked = m'.cacheBacked := h.cacheBacked.trans h'.cacheBacked.symm
  have hembeds : m.embeds = m'.embeds :=
    Json.kept_unique (fun _ _ _ => kept_same) h.embeds h'.embeds
  have hrows : m.rows = m'.rows := Json.kept_unique (fun _ _ _ => kept_same) h.rows h'.rows
  have hattachments : m.attachments = m'.attachments :=
    Json.kept_unique (fun _ _ _ h h' => h.unique h') h.attachments h'.attachments
  cases m
  cases m'
  simp_all

theorem describe_isReadFrom {id : String} {payload : Json} {channel cacheBacked channelId : Given}
    (hid : payload.get? "id" = some (.string id)) (hne : id ≠ "")
    (hgiven : ∀ s, payload.get? "channel_id" = some (.string s) → channelId = .ofText s)
    (habsent : (∀ s, payload.get? "channel_id" ≠ some (.string s)) →
      channelId = channel.bind (·.get? "id")) :
    (describe id channelId payload channel cacheBacked).IsReadFrom payload channel cacheBacked where
  id := hid
  id_ne_empty := hne
  channelId := hgiven
  channelId_absent := habsent
  channel := rfl
  content := Json.readsAs_getD (fun _ _ => Json.asString?_eq_some_iff) ""
  tts := by
    rw [← Json.bind_eq_some_iff fun _ _ => Json.asBool?_eq_some_iff]
    exact getD_false_iff
  embeds := ⟨_, Json.readsAs_elements, kept_filter (fun _ => Json.isObject_iff) _⟩
  rows := ⟨_, Json.readsAs_elements, kept_filter (fun _ => isActionRow_iff) _⟩
  webhookId _ := Json.text?_eq_some_iff
  authorId _ := by simp [describe, Option.bind_eq_some_iff, Json.text?_eq_some_iff]
  authorName _ := by simp [describe, Option.bind_eq_some_iff, Json.text?_eq_some_iff]
  flags := Json.readsAs_getD (fun _ _ => Json.asNumber?_eq_some_iff) 0
  ephemeral := rfl
  attachments :=
    ⟨_, Json.readsAs_elements, kept_filterMap (fun _ _ => ReceivedFile.ofJson?_eq_some_iff) _⟩
  timestamp _ := Json.text?_eq_some_iff
  cacheBacked := rfl

theorem channelIdOf_object (payload : Json) (channel : List (String × Json)) :
    ∃ channelId, channelIdOf payload (some (.object channel)) = .ok channelId ∧
      (∀ s, payload.get? "channel_id" = some (.string s) → channelId = .ofText s) ∧
      ((∀ s, payload.get? "channel_id" ≠ some (.string s)) →
        channelId = (Json.object channel).get? "id") := by
  cases hgiven : payload.text? "channel_id" with
  | some s =>
      have hs := Json.text?_eq_some_iff.mp hgiven
      refine ⟨.ofText s, by rw [channelIdOf, hgiven], fun s' hs' => ?_, fun hnone => ?_⟩
      · rw [hs] at hs'
        rw [Json.string.inj (Option.some.inj hs')]
      · exact absurd hs (hnone s)
  | none =>
      refine ⟨(Json.object channel).get? "id", by rw [channelIdOf, hgiven]; rfl,
        fun s hs => ?_, fun _ => rfl⟩
      cases hgiven.symm.trans (Json.text?_eq_some_iff.mpr hs)

theorem exists_ofPayload {payload : Json} {id : String}
    (hid : payload.get? "id" = some (.string id)) (hne : id ≠ "")
    (channel : List (String × Json)) (cacheBacked : Given) :
    ∃ m, ofPayload payload (some (.object channel)) cacheBacked = .ok m ∧
      m.IsReadFrom payload (some (.object channel)) cacheBacked := by
  obtain ⟨channelId, hchannelId, hgiven, habsent⟩ := channelIdOf_object payload channel
  have hnonEmpty := nonEmpty_eq_some_iff.mpr ⟨Json.text?_eq_some_iff.mpr hid, hne⟩
  refine ⟨_, ?_, describe_isReadFrom hid hne hgiven habsent⟩
  rw [ofPayload, hnonEmpty]
  dsimp only
  rw [hchannelId]

theorem ofPayload_missing {payload : Json}
    (h : ¬ ∃ id, payload.get? "id" = some (.string id) ∧ id ≠ "") (channel cacheBacked : Given) :
    ofPayload payload channel cacheBacked = .error (.missingField "id") := by
  have hnone : nonEmpty (payload.text? "id") = none := by
    refine Option.eq_none_iff_forall_ne_some.mpr fun id hid => h ⟨id, ?_⟩
    rwa [nonEmpty_eq_some_iff, Json.text?_eq_some_iff] at hid
  rw [ofPayload, hnone]

end Message

namespace Json.IsPaddingOf

variable {padded payload : Json}

theorem get?_eq (h : padded.IsPaddingOf payload) {key : String}
    (hkey : ∀ item, Message.IsWellFormed key item) : padded.get? key = payload.get? key := by
  rcases h key with hsame | ⟨items, more, hitems, hmore, hpadded⟩
  · exact hsame
  · have heq := hpadded.filterMap_eq (f := some) fun item hjunk => absurd (hkey item) hjunk
    rw [List.filterMap_some, List.filterMap_some] at heq
    rw [hitems, hmore, heq]

theorem filterMap_elements {α : Type} (h : padded.IsPaddingOf payload) {key : String}
    {f : Json → Option α} (hf : ∀ item, ¬ Message.IsWellFormed key item → f item = none) :
    (padded.elements key).filterMap f = (payload.elements key).filterMap f := by
  rcases h key with hsame | ⟨items, more, hitems, hmore, hpadded⟩
  · rw [Json.elements, Json.elements, hsame]
  · rw [Json.elements, Json.elements, hitems, hmore]
    exact hpadded.filterMap_eq hf

theorem filter_elements (h : padded.IsPaddingOf payload) {key : String} {accepts : Json → Bool}
    (haccepts : ∀ item, accepts item = true → Message.IsWellFormed key item) :
    (padded.elements key).filter accepts = (payload.elements key).filter accepts := by
  rw [← List.filterMap_eq_filter]
  refine h.filterMap_elements fun item hjunk => ?_
  rw [Option.guard_eq_none_iff]
  exact Bool.eq_false_iff.mpr fun hitem => hjunk (haccepts item hitem)

theorem ofPayload_eq (h : padded.IsPaddingOf payload) (channel cacheBacked : Given) :
    Message.ofPayload padded channel cacheBacked =
      Message.ofPayload payload channel cacheBacked := by
  have hembeds : (padded.elements "embeds").filter Json.isObject =
      (payload.elements "embeds").filter Json.isObject :=
    h.filter_elements fun item => Json.isObject_iff.mp
  have hrows : (padded.elements "components").filter Message.isActionRow =
      (payload.elements "components").filter Message.isActionRow :=
    h.filter_elements fun item => Message.isActionRow_iff.mp
  have hattachments : (padded.elements "attachments").filterMap ReceivedFile.ofJson? =
      (payload.elements "attachments").filterMap ReceivedFile.ofJson? := by
    refine h.filterMap_elements fun item hjunk => ?_
    refine Option.eq_none_iff_forall_ne_some.mpr fun file hfile => hjunk ⟨file, ?_⟩
    exact ReceivedFile.ofJson?_eq_some_iff.mp hfile
  have hother (key : String) (hkey : ∀ item, Message.IsWellFormed key item) :
      padded.get? key = payload.get? key := h.get?_eq hkey
  simp only [Message.ofPayload, Message.channelIdOf, Message.describe, Json.text?, hembeds, hrows,
    hattachments, hother "id" fun _ => trivial, hother "channel_id" fun _ => trivial,
    hother "content" fun _ => trivial, hother "tts" fun _ => trivial,
    hother "webhook_id" fun _ => trivial, hother "author" fun _ => trivial,
    hother "flags" fun _ => trivial, hother "timestamp" fun _ => trivial]

end Json.IsPaddingOf

/-- A payload is refused for want of an identifier and for nothing else. Any other one is the one
message that it describes, field by field and list by list; what its lists contain besides is
passed over, so that it does not matter how much there is of it and where. -/
theorem message_read_from_payload (members channel : List (String × Json)) (cacheBacked : Given) :
    let payload : Json := .object members
    let read (payload : Json) := Message.ofPayload payload (some (.object channel)) cacheBacked
    (∀ m, read payload = .ok m ↔
      m.IsReadFrom payload (some (.object channel)) cacheBacked) ∧
    (∀ fault, read payload = .error fault ↔
      fault = .missingField "id" ∧ ¬ ∃ id, payload.get? "id" = some (.string id) ∧ id ≠ "") ∧
    ∀ padded : Json, padded.IsPaddingOf payload → read padded = read payload := by
  intro payload read
  refine ⟨fun m => ⟨fun hm => ?_, fun hm => ?_⟩, fun fault => ⟨fun hfault => ?_, ?_⟩,
    fun padded hpadded => hpadded.ofPayload_eq _ _⟩
  · by_cases hid : ∃ id, payload.get? "id" = some (.string id) ∧ id ≠ ""
    · obtain ⟨id, hid, hne⟩ := hid
      obtain ⟨m', hm', hread⟩ := Message.exists_ofPayload hid hne channel cacheBacked
      cases hm.symm.trans hm'
      exact hread
    · cases hm.symm.trans (Message.ofPayload_missing hid _ _)
  · obtain ⟨m', hm', hread⟩ :=
      Message.exists_ofPayload hm.id hm.id_ne_empty channel cacheBacked
    -- The payload describes one message only.
    rw [hm.unique hread]
    exact hm'
  · by_cases hid : ∃ id, payload.get? "id" = some (.string id) ∧ id ≠ ""
    · obtain ⟨id, hid, hne⟩ := hid
      obtain ⟨m, hm, -⟩ := Message.exists_ofPayload hid hne channel cacheBacked
      cases hfault.symm.trans hm
    · cases hfault.symm.trans (Message.ofPayload_missing hid _ _)
      exact ⟨rfl, hid⟩
  · rintro ⟨rfl, hid⟩
    exact Message.ofPayload_missing hid _ _

/-- A number among the embeds, a row of another type and a file without a name change nothing. -/
theorem junk_in_lists_passed_over :
    let file : Json :=
      .object [("id", .string "7"), ("filename", .string "a"), ("url", .string "b")]
    let nameless : Json := .object [("id", .string "7"), ("filename", .string "")]
    let row : Json := .object [("type", .number 1), ("components", .array [])]
    let other : Json := .object [("type", .number 2), ("components", .array [])]
    let payload (embeds rows files : List Json) : Json := .object
      [("id", .string "1"), ("embeds", .array embeds), ("components", .array rows),
        ("attachments", .array files)]
    let read (payload : Json) := Message.ofPayload payload (some (.object [])) none
    read (payload [.number 3, .object []] [row, other, row] [nameless, file, .null]) =
      read (payload [.object []] [row, row] [file]) := by
  intro file nameless row other payload read
  have hnumber : ¬ Message.IsWellFormed "embeds" (.number 3) := by
    rintro ⟨members, hmembers⟩
    cases hmembers
  have hother : ¬ Message.IsWellFormed "components" other := by
    rintro ⟨htype, -⟩
    have htype : (2 : Number) = 1 := Json.number.inj (Option.some.inj htype)
    exact absurd htype (by decide)
  have hnameless : ¬ Message.IsWellFormed "attachments" nameless := by
    rintro ⟨f, hf⟩
    exact hf.filename_ne_empty (Json.string.inj (Option.some.inj hf.filename)).symm
  have hnull : ¬ Message.IsWellFormed "attachments" .null := by
    rintro ⟨f, hf⟩
    cases hf.id
  refine (message_read_from_payload _ [] none).2.2 _ fun key => ?_
  by_cases hembeds : key = "embeds"
  · subst hembeds
    exact .inr ⟨_, _, rfl, rfl, .insert hnumber (.keep _ .nil)⟩
  by_cases hrows : key = "components"
  · subst hrows
    exact .inr ⟨_, _, rfl, rfl, .keep _ (.insert hother (.keep _ .nil))⟩
  by_cases hfiles : key = "attachments"
  · subst hfiles
    exact .inr ⟨_, _, rfl, rfl, .insert hnameless (.keep _ (.insert hnull .nil))⟩
  · simp [payload, Json.get?, List.lookup_cons, beq_eq_false_iff_ne.mpr hembeds,
      beq_eq_false_iff_ne.mpr hrows, beq_eq_false_iff_ne.mpr hfiles]

end Courier
