import Mathlib.Data.List.DropRight
import Mathlib.Data.List.TakeWhile
import Courier.Proofs.Route.Query
import Courier.Proofs.Text
import Courier.Route

namespace Courier.Route

def slashes (n : Nat) : String :=
  .ofList (.replicate n '/')

/-- The stem is the base without the slashes at its end. -/
structure IsStem (base stem : String) : Prop where
  base_eq : ∃ n, base = stem ++ slashes n
  getLast?_ne : stem.toList.getLast? ≠ some '/'

/-- What stands before the first question mark of an address, and what stands behind it, if there is
one. -/
def cutQuery (address : String) : String × Option String :=
  (.ofList (address.toList.takeWhile (· != '?')),
    match address.toList.dropWhile (· != '?') with
    | [] => none
    | _ :: query => some (.ofList query))

theorem toList_slashes (n : Nat) : (slashes n).toList = .replicate n '/' :=
  String.toList_ofList

theorem append_slashes (base : String) (m n : Nat) :
    base ++ slashes m ++ slashes n = base ++ slashes (m + n) := by
  rw [String.append_assoc, slashes, slashes, ← String.ofList_append,
    List.replicate_append_replicate]
  rfl

theorem dropTrailingSlashes_eq (base : String) :
    dropTrailingSlashes base = .ofList (base.toList.rdropWhile (· == '/')) :=
  rfl

theorem isStem_dropTrailingSlashes (base : String) : IsStem base (dropTrailingSlashes base) := by
  rw [dropTrailingSlashes_eq]
  constructor
  · have hslashes : ∀ c ∈ base.toList.rtakeWhile (· == '/'), c = '/' :=
      fun c hc => beq_iff_eq.mp (List.mem_rtakeWhile_imp (p := (· == '/')) hc)
    refine ⟨(base.toList.rtakeWhile (· == '/')).length, ?_⟩
    rw [slashes, ← List.eq_replicate_of_mem hslashes, ← String.ofList_append,
      List.rdropWhile_append_rtakeWhile, String.ofList_toList]
  · rw [String.toList_ofList]
    intro hlast
    have hne : base.toList.rdropWhile (· == '/') ≠ [] := by
      intro hnil
      rw [hnil] at hlast
      cases hlast
    refine List.rdropWhile_last_not (· == '/') base.toList hne ?_
    rw [List.getLast?_eq_some_getLast hne] at hlast
    rw [Option.some.inj hlast]
    rfl

theorem IsStem.dropTrailingSlashes_eq {base stem : String} (h : IsStem base stem) :
    dropTrailingSlashes base = stem := by
  obtain ⟨⟨n, rfl⟩, hlast⟩ := h
  have hall : ∀ c ∈ List.replicate n '/', (c == '/') = true :=
    fun c hc => beq_iff_eq.mpr (List.eq_of_mem_replicate hc)
  have hstem : stem.toList.reverse.dropWhile (· == '/') = stem.toList.reverse := by
    cases hreverse : stem.toList.reverse with
    | nil => rfl
    | cons c rest =>
        have hc : c ≠ '/' := by
          rintro rfl
          rw [← List.head?_reverse, hreverse] at hlast
          exact hlast rfl
        rw [List.dropWhile_cons_of_neg]
        simpa using hc
  rw [dropTrailingSlashes, String.toList_append, toList_slashes, List.reverse_append,
    List.reverse_replicate, List.dropWhile_append_of_pos hall, hstem, List.reverse_reverse,
    String.ofList_toList]

theorem dropTrailingSlashes_append_slashes (base : String) (n : Nat) :
    dropTrailingSlashes (base ++ slashes n) = dropTrailingSlashes base := by
  obtain ⟨⟨m, hbase⟩, hlast⟩ := isStem_dropTrailingSlashes base
  refine IsStem.dropTrailingSlashes_eq ⟨⟨m + n, ?_⟩, hlast⟩
  rw [← append_slashes, ← hbase]

theorem url_eq (route : Route) (base : String) :
    route.url base = dropTrailingSlashes base ++ route.path ++
      if route.query = "" then "" else "?" ++ route.query := by
  rw [url]
  by_cases hquery : route.query = ""
  · simp [hquery]
  · simp [hquery, String.append_assoc]

theorem cutQuery_of_notMem {address : String} (h : '?' ∉ address.toList) :
    cutQuery address = (address, none) := by
  obtain ⟨htake, hdrop⟩ := Text.span_bne_append h (.inl List.head?_nil)
  rw [List.append_nil] at htake hdrop
  rw [cutQuery, htake, hdrop, String.ofList_toList]

theorem cutQuery_append {address : String} (h : '?' ∉ address.toList) (query : String) :
    cutQuery (address ++ "?" ++ query) = (address, some query) := by
  have hmark : "?".toList = ['?'] := by decide
  have hlist : (address ++ "?" ++ query).toList = address.toList ++ '?' :: query.toList := by
    rw [String.toList_append, String.toList_append, hmark, List.append_assoc,
      List.singleton_append]
  have hrest : ('?' :: query.toList).head? = some '?' := rfl
  obtain ⟨htake, hdrop⟩ := Text.span_bne_append h (.inr hrest)
  rw [cutQuery, hlist, htake, hdrop]
  simp only [String.ofList_toList]

theorem cutQuery_url {route : Route} {base : String}
    (h : '?' ∉ (dropTrailingSlashes base ++ route.path).toList) :
    cutQuery (route.url base) = (dropTrailingSlashes base ++ route.path,
      if route.query = "" then none else some route.query) := by
  rw [url_eq]
  split
  · rw [String.append_empty]
    exact cutQuery_of_notMem h
  · rw [← String.append_assoc]
    exact cutQuery_append h route.query

theorem mark_notMem_url_iff {route : Route} {base : String}
    (h : '?' ∉ (dropTrailingSlashes base ++ route.path).toList) :
    '?' ∉ (route.url base).toList ↔ route.query = "" := by
  have hmark : '?' ∈ "?".toList := by decide
  rw [url_eq]
  split
  · rename_i hquery
    rw [String.append_empty]
    exact iff_of_true h hquery
  · rename_i hquery
    refine iff_of_false (fun hnot => hnot ?_) hquery
    simp only [String.toList_append, List.mem_append]
    exact .inr (.inl hmark)

theorem mark_notMem_webhookPath {id token : String} (hid : '?' ∉ id.toList)
    (htoken : '?' ∉ token.toList) : '?' ∉ (webhookPath id token).toList := by
  have hstart : '?' ∉ "/webhooks/".toList := by decide
  have hslash : '?' ∉ "/".toList := by decide
  unfold webhookPath
  split <;> simp only [String.toList_append, List.mem_append, not_or]
  · exact ⟨hstart, hid⟩
  · exact ⟨⟨⟨hstart, hid⟩, hslash⟩, htoken⟩

theorem mark_notMem_dropTrailingSlashes {base : String} (h : '?' ∉ base.toList) :
    '?' ∉ (dropTrailingSlashes base).toList := by
  obtain ⟨n, hbase⟩ := (isStem_dropTrailingSlashes base).base_eq
  intro hmem
  rw [hbase, String.toList_append] at h
  exact h (List.mem_append_left _ hmem)

theorem parameters_eq (wait : Option Bool) (threadId : Option String) :
    parameters { wait := wait.map .bool, threadId := threadId.map .string } =
      (wait.map fun b => ("wait", if b then "true" else "false")).toList ++
        ((threadId.filter (· ≠ "")).map ("thread_id", ·)).toList := by
  have hwait : waitParameter (wait.map .bool) =
      (wait.map fun b => ("wait", if b then "true" else "false")).toList := by
    rcases wait with _ | (_ | _) <;> rfl
  have hthread : threadParameter (threadId.map .string) =
      ((threadId.filter (· ≠ "")).map ("thread_id", ·)).toList := by
    cases threadId with
    | none => rfl
    | some text =>
        by_cases htext : text = ""
        · subst htext
          rfl
        · have hname : (some text).filter (· ≠ "") = some text := by simp [htext]
          have hon : Given.isOn (some (.string text)) = true := by
            simp [Given.isOn, Json.countsAsTrue, htext]
          rw [hname, Option.map_some, threadParameter, if_pos hon]
          rfl
  rw [parameters, hwait, hthread]

theorem parameters_eq_nil_iff (wait : Option Bool) (threadId : Option String) :
    parameters { wait := wait.map .bool, threadId := threadId.map .string } = [] ↔
      wait = none ∧ (threadId = none ∨ threadId = some "") := by
  rw [parameters_eq]
  rcases wait with _ | b <;> rcases threadId with _ | text <;> simp

/-- Behind the first question mark of a webhook's address stands a query that says whether to wait,
if anything was said about it, and in which thread to post, if one was named: whatever a name holds,
it is read back as it is and adds no parameter. Before the mark stands the path, behind the base
without the slashes at its end; how many there were makes no difference to any address. -/
theorem options_read_from_url :
    (∀ (id token base : String) (wait : Option Bool) (threadId : Option String),
      '?' ∉ id.toList → '?' ∉ token.toList → '?' ∉ base.toList →
      let route := executeWebhook id token
        { wait := wait.map .bool, threadId := threadId.map .string }
      let cut := cutQuery (route.url base)
      (∃ stem, IsStem base stem ∧ cut.1 = stem ++ route.path) ∧
        Query.decode? (cut.2.getD "") = some (
          (wait.map fun b => ("wait", if b then "true" else "false")).toList ++
            ((threadId.filter (· ≠ "")).map ("thread_id", ·)).toList) ∧
        ('?' ∉ (route.url base).toList ↔
          wait = none ∧ (threadId = none ∨ threadId = some ""))) ∧
    ∀ (route : Route) (base : String),
      (∀ n, route.url (base ++ slashes n) = route.url base) ∧
        ∃ stem, IsStem base stem ∧ route.url base = stem ++ route.path ++
          if route.query = "" then "" else "?" ++ route.query := by
  refine ⟨?_, fun route base => ⟨fun n => ?_, ?_⟩⟩
  · intro id token base wait threadId hid htoken hbase route cut
    have haddress : '?' ∉ (dropTrailingSlashes base ++ route.path).toList := by
      rw [String.toList_append, List.mem_append, not_or]
      exact ⟨mark_notMem_dropTrailingSlashes hbase, mark_notMem_webhookPath hid htoken⟩
    have hcut : cut = (dropTrailingSlashes base ++ route.path,
        if route.query = "" then none else some route.query) := cutQuery_url haddress
    have hquery : cut.2.getD "" = route.query := by
      rw [hcut]
      split
      · rename_i hempty
        exact hempty.symm
      · rfl
    refine ⟨⟨_, isStem_dropTrailingSlashes base, congrArg Prod.fst hcut⟩, ?_, ?_⟩
    · rw [hquery, ← parameters_eq]
      exact Query.decode?_encode _
    · rw [mark_notMem_url_iff haddress, ← parameters_eq_nil_iff]
      exact Query.encode_eq_empty_iff
  · rw [url_eq, url_eq, dropTrailingSlashes_append_slashes]
  · exact ⟨_, isStem_dropTrailingSlashes base, url_eq route base⟩

/-- A name of a thread that looks like more parameters, with characters of one to four bytes. -/
theorem posing_thread_read_back :
    let posing := "1&wait=true +%41é😀?"
    let route := executeWebhook "7" "a/b"
      { wait := some (.bool false), threadId := some (.string posing) }
    '?' ∉ "7".toList ∧ '?' ∉ "a/b".toList ∧ '?' ∉ "http://x//y//".toList ∧
      Query.decode? ((cutQuery (route.url "http://x//y//")).2.getD "") =
        some [("wait", "false"), ("thread_id", posing)] := by
  intro posing route
  have hid : '?' ∉ "7".toList := by decide
  have htoken : '?' ∉ "a/b".toList := by decide
  have hbase : '?' ∉ "http://x//y//".toList := by decide
  have hposing : (some posing).filter (· ≠ "") = some posing := by decide
  obtain ⟨-, hread, -⟩ := options_read_from_url.1 "7" "a/b" "http://x//y//" (some false)
    (some posing) hid htoken hbase
  rw [hposing] at hread
  exact ⟨hid, htoken, hbase, hread⟩

end Courier.Route
