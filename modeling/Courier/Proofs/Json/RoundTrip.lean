import Courier.Json.Reader
import Courier.Json.Writer

namespace Courier

/-- A whole number up to `2 ^ 53`. -/
def Number.IsExact (n : Number) : Prop :=
  ∃ k : Int, n = .ofInt k ∧ k.natAbs ≤ exactBound

namespace Json

/-- Every number in the value is exact. -/
inductive IsExact : Json → Prop where
  | null : IsExact .null
  | bool (value : Bool) : IsExact (.bool value)
  | number {n : Number} (h : n.IsExact) : IsExact (.number n)
  | string (value : String) : IsExact (.string value)
  | array {items : List Json} (h : ∀ v ∈ items, IsExact v) : IsExact (.array items)
  | object {members : List (String × Json)} (h : ∀ m ∈ members, IsExact m.2) :
      IsExact (.object members)

/-- What may stand behind a value. -/
inductive Ends : List Char → Prop where
  | nothing : Ends []
  | comma (rest : List Char) : Ends (',' :: rest)
  | bracket (rest : List Char) : Ends (']' :: rest)
  | brace (rest : List Char) : Ends ('}' :: rest)

theorem skipSpace_cons {c : Char} (h : isSpace c = false) (rest : List Char) :
    skipSpace (c :: rest) = c :: rest := by
  simp [skipSpace, h]

section Numbers

variable {rest : List Char}

theorem spanDigits_append {ds : List Char} (hds : ∀ c ∈ ds, c.isDigit = true)
    (hrest : Ends rest) : spanDigits (ds ++ rest) = (ds, rest) := by
  have hspan : spanDigits rest = ([], rest) := by cases hrest <;> rfl
  obtain ⟨htake, hdrop⟩ := Prod.mk.inj hspan
  rw [spanDigits, List.takeWhile_append_of_pos hds, List.dropWhile_append_of_pos hds, htake, hdrop,
    List.append_nil]

theorem readFraction_of_ends (h : Ends rest) : readFraction rest = .ok ([], rest) := by
  cases h <;> rfl

theorem readExponent_of_ends (h : Ends rest) : readExponent rest = .ok (0, rest) := by
  cases h <;> rfl

theorem isDigit_of_mem_toDigits {n : Nat} {c : Char} (h : c ∈ Nat.toDigits 10 n) :
    c.isDigit = true :=
  Nat.isDigit_of_mem_toDigits (by decide) (by decide) h

theorem exists_toDigits_eq_cons (n : Nat) :
    ∃ c cs, Nat.toDigits 10 n = c :: cs ∧ c.isDigit = true := by
  obtain ⟨c, cs, hdigits⟩ := List.exists_cons_of_ne_nil (Nat.toDigits_ne_nil (b := 10) (n := n))
  exact ⟨c, cs, hdigits, isDigit_of_mem_toDigits (hdigits ▸ List.mem_cons_self)⟩

theorem head?_toDigits_ne_zero (n : Nat) (h : 0 < n) :
    (Nat.toDigits 10 n).head? ≠ some '0' := by
  induction n using Nat.strongRecOn with
  | ind n ih =>
      rcases Nat.lt_or_ge n 10 with hlt | hge
      · rw [Nat.toDigits_of_lt_base hlt, List.head?_cons, ne_eq, Option.some.injEq,
          Nat.digitChar_eq_zero]
        omega
      · have hhead := ih (n / 10) (by omega) (by omega)
        rw [Nat.toDigits_of_base_le (by decide) hge, List.head?_append,
          Option.or_of_isSome (by simp [Nat.toDigits_ne_nil])]
        exact hhead

theorem toDigits_zero_cons {n : Nat} {ds : List Char} (h : Nat.toDigits 10 n = '0' :: ds) :
    ds = [] := by
  rcases Nat.eq_zero_or_pos n with rfl | hpos
  · rw [Nat.toDigits_zero] at h
    exact (List.cons.inj h).2.symm
  · exact absurd (congrArg List.head? h) (head?_toDigits_ne_zero n hpos)

theorem ofDecimal_whole (negative : Bool) {n : Nat} (h : n ≤ Number.exactBound) :
    Number.ofDecimal ⟨negative, n, 0⟩ = .ofInt (if negative then -n else n) := by
  rw [Number.ofDecimal, if_pos ⟨rfl, h⟩]

theorem readUnsigned_toDigits (negative : Bool) {n : Nat} (hn : n ≤ Number.exactBound)
    (hrest : Ends rest) :
    readUnsigned negative (Nat.toDigits 10 n ++ rest) =
      .ok (.ofInt (if negative then -n else n), rest) := by
  have hspan : spanDigits (Nat.toDigits 10 n ++ rest) = (Nat.toDigits 10 n, rest) :=
    spanDigits_append (fun c hc => isDigit_of_mem_toDigits hc) hrest
  unfold readUnsigned
  rw [hspan]
  split
  · rename_i heq
    exact absurd (Prod.mk.inj heq).1 Nat.toDigits_ne_nil
  · rename_i heq
    cases toDigits_zero_cons (Prod.mk.inj heq).1
  · rename_i heq
    obtain ⟨rfl, rfl⟩ := Prod.mk.inj heq
    simp only [readFraction_of_ends hrest, readExponent_of_ends hrest, List.append_nil,
      Nat.ofDigitChars_ten_toDigits]
    rw [← ofDecimal_whole negative hn]
    rfl

theorem text_ofInt {k : Int} (h : k.natAbs ≤ Number.exactBound) :
    (Number.ofInt k).text = Number.wholeText k := by
  simp [Number.ofInt, Number.text, h]

theorem writeNumber_ofInt {k : Int} (h : k.natAbs ≤ Number.exactBound) :
    writeNumber (.ofInt k) =
      if k < 0 then '-' :: Nat.toDigits 10 k.natAbs else Nat.toDigits 10 k.natAbs := by
  have htext : writeNumber (.ofInt k) = (Number.wholeText k).toList :=
    congrArg String.toList (text_ofInt h)
  rw [htext, Number.wholeText]
  split <;> simp [Nat.repr_eq_ofList_toDigits]

def BeginsNumber (c : Char) : Prop :=
  c = '-' ∨ c.isDigit = true

theorem BeginsNumber.ne {c d : Char} (h : BeginsNumber c) (hminus : d ≠ '-')
    (hdigit : d.isDigit = false) : c ≠ d := by
  rintro rfl
  rcases h with h | h
  · exact hminus h
  · rw [hdigit] at h
    cases h

theorem BeginsNumber.isSpace_eq_false {c : Char} (h : BeginsNumber c) : isSpace c = false := by
  have hblank := h.ne (d := ' ') (by decide) rfl
  have htab := h.ne (d := '\t') (by decide) rfl
  have hline := h.ne (d := '\n') (by decide) rfl
  have hreturn := h.ne (d := '\r') (by decide) rfl
  simp [isSpace, hblank, htab, hline, hreturn]

theorem exists_writeNumber_eq_cons {n : Number} (h : n.IsExact) :
    ∃ c cs, writeNumber n = c :: cs ∧ BeginsNumber c := by
  obtain ⟨k, rfl, hk⟩ := h
  rw [writeNumber_ofInt hk]
  split
  · exact ⟨_, _, rfl, .inl rfl⟩
  · obtain ⟨c, cs, hdigits, hc⟩ := exists_toDigits_eq_cons k.natAbs
    exact ⟨c, cs, hdigits, .inr hc⟩

theorem readNumber_of_isDigit {c : Char} (h : c.isDigit = true) (cs : List Char) :
    readNumber (c :: cs) = readUnsigned false (c :: cs) := by
  unfold readNumber
  split
  · rename_i heq
    cases heq
    cases h
  · rfl

theorem readNumber_writeNumber {n : Number} (h : n.IsExact) (hrest : Ends rest) :
    readNumber (writeNumber n ++ rest) = .ok (n, rest) := by
  obtain ⟨k, rfl, hk⟩ := h
  rw [writeNumber_ofInt hk]
  split
  · have hvalue : (if true then -(k.natAbs : Int) else k.natAbs) = k := by
      rw [if_pos rfl]
      omega
    rw [List.cons_append, readNumber, readUnsigned_toDigits true hk hrest, hvalue]
  · have hvalue : (if false then -(k.natAbs : Int) else k.natAbs) = k := by
      rw [if_neg Bool.false_ne_true]
      omega
    obtain ⟨c, cs, hdigits, hc⟩ := exists_toDigits_eq_cons k.natAbs
    rw [hdigits, List.cons_append, readNumber_of_isDigit hc, ← List.cons_append, ← hdigits,
      readUnsigned_toDigits false hk hrest, hvalue]

end Numbers

section Texts

theorem hexUnit?_control : ∀ n < 0x20,
    hexUnit? '0' '0' (Nat.digitChar (n / 16)) (Nat.digitChar (n % 16)) = some n := by
  decide

theorem escapeChar_cases (c : Char) :
    (∃ e, escapeChar c = ['\\', e] ∧ shortEscape? e = some c) ∨
    (c.toNat < 0x20 ∧ escapeChar c =
      ['\\', 'u', '0', '0', Nat.digitChar (c.toNat / 16), Nat.digitChar (c.toNat % 16)]) ∨
    (escapeChar c = [c] ∧ c ≠ '"' ∧ c ≠ '\\' ∧ ¬ c.toNat < 0x20) := by
  by_cases hshort : c ∈ ['"', '\\', '\x08', '\x0c', '\n', '\r', '\t']
  · left
    simp only [List.mem_cons, List.not_mem_nil, or_false] at hshort
    rcases hshort with rfl | rfl | rfl | rfl | rfl | rfl | rfl <;> exact ⟨_, rfl, rfl⟩
  · right
    simp only [List.mem_cons, List.not_mem_nil, or_false, not_or] at hshort
    by_cases hcontrol : c.toNat < 0x20
    · exact .inl ⟨hcontrol, by simp [escapeChar, hshort, hcontrol]⟩
    · exact .inr ⟨by simp [escapeChar, hshort, hcontrol], hshort.1, hshort.2.1, hcontrol⟩

theorem readQuoted_escapeChar (c : Char) (rest : List Char) :
    readQuoted (escapeChar c ++ rest) = (readQuoted rest).map (consChar c) := by
  obtain ⟨e, hescape, he⟩ | ⟨hcontrol, hescape⟩ | ⟨hescape, hquote, hslash, hcontrol⟩ :=
    escapeChar_cases c
  · have hu : e ≠ 'u' := by
      rintro rfl
      cases he
    simp [hescape, readQuoted, hu, he]
  · simp only [hescape, List.cons_append, List.nil_append]
    rw [readQuoted, hexUnit?_control _ hcontrol]
    simp only
    rw [if_pos (.inl (by omega)), Char.ofNat_toNat]
  · simp [hescape, readQuoted, hslash, hcontrol]

theorem readQuoted_flatMap (cs rest : List Char) :
    readQuoted (cs.flatMap escapeChar ++ '"' :: rest) = .ok (cs, rest) := by
  induction cs with
  | nil => rfl
  | cons c cs ih =>
      rw [List.flatMap_cons, List.append_assoc, readQuoted_escapeChar, ih]
      rfl

theorem readName_quote (cause : Cause) (name : String) (rest : List Char) :
    readName cause (quote name ++ ':' :: rest) = .ok (name, rest) := by
  have hread := readQuoted_flatMap name.toList (':' :: rest)
  have hquote : quote name ++ ':' :: rest =
      '"' :: (name.toList.flatMap escapeChar ++ '"' :: ':' :: rest) := by
    simp [quote]
  rw [hquote, readName, skipSpace_cons rfl]
  simp only [hread, skipSpace_cons (c := ':') rfl, String.ofList_toList]

end Texts

section Values

/-- The value is read back from its text, whatever stands behind the text. -/
def IsReadBack (v : Json) : Prop :=
  ∀ fuel rest, (writeChars v).length ≤ fuel → Ends rest →
    readValue fuel (writeChars v ++ rest) = .ok (v, rest)

theorem ends_writeItems (items : List Json) (rest : List Char) :
    Ends (writeItems items ++ rest) := by
  cases items with
  | nil => exact .bracket _
  | cons v vs =>
      rw [writeItems, List.cons_append]
      exact .comma _

theorem ends_writeMembers (members : List (String × Json)) (rest : List Char) :
    Ends (writeMembers members ++ rest) := by
  cases members with
  | nil => exact .brace _
  | cons m ms =>
      rw [writeMembers, List.cons_append]
      exact .comma _

theorem readItems_writeItems {items : List Json} {v : Json} (hv : v.IsReadBack)
    (hitems : ∀ v ∈ items, v.IsReadBack) (fuel : Nat) (rest : List Char)
    (hfuel : (writeChars v ++ writeItems items).length ≤ fuel) :
    readItems fuel (writeChars v ++ writeItems items ++ rest) = .ok (v :: items, rest) := by
  induction items generalizing v fuel with
  | nil =>
      rw [writeItems, List.length_append, List.length_singleton] at hfuel
      obtain ⟨fuel, rfl⟩ := Nat.exists_eq_add_of_le' (Nat.le_trans (Nat.le_add_left 1 _) hfuel)
      have hread := hv fuel (writeItems [] ++ rest) (by omega) (ends_writeItems _ _)
      rw [readItems, List.append_assoc, hread]
      rfl
  | cons w ws ih =>
      rw [writeItems, List.length_append, List.cons_append, List.length_cons] at hfuel
      obtain ⟨fuel, rfl⟩ := Nat.exists_eq_add_of_le' (Nat.le_trans (Nat.le_add_left 1 _) hfuel)
      have hread := hv fuel (writeItems (w :: ws) ++ rest) (by omega) (ends_writeItems _ _)
      have hrest := ih (hitems w List.mem_cons_self)
        (fun v hv => hitems v (List.mem_cons_of_mem w hv)) fuel (by omega)
      rw [readItems, List.append_assoc, hread]
      simp only [writeItems, List.cons_append, skipSpace_cons (c := ',') rfl, hrest]
      rfl

theorem readMembers_writeMembers {members : List (String × Json)} {v : Json}
    (hv : v.IsReadBack) (hmembers : ∀ m ∈ members, m.2.IsReadBack) (fuel : Nat)
    (cause : Cause) (k : String) (rest : List Char)
    (hfuel : (quote k ++ ':' :: writeChars v ++ writeMembers members).length ≤ fuel) :
    readMembers fuel cause (quote k ++ ':' :: writeChars v ++ writeMembers members ++ rest) =
      .ok ((k, v) :: members, rest) := by
  induction members generalizing k v fuel cause with
  | nil =>
      simp only [List.length_append, List.length_cons] at hfuel
      obtain ⟨fuel, rfl⟩ := Nat.exists_eq_add_of_le' (show 1 ≤ fuel by omega)
      have hread := hv fuel (writeMembers [] ++ rest) (by omega) (ends_writeMembers _ _)
      simp only [readMembers, List.append_assoc, List.cons_append, readName_quote, hread]
      rfl
  | cons m ms ih =>
      obtain ⟨l, w⟩ := m
      simp only [writeMembers, List.length_append, List.length_cons, List.cons_append] at hfuel
      obtain ⟨fuel, rfl⟩ := Nat.exists_eq_add_of_le' (show 1 ≤ fuel by omega)
      have hread := hv fuel (writeMembers ((l, w) :: ms) ++ rest) (by omega)
        (ends_writeMembers _ _)
      have hrest := ih (hmembers (l, w) List.mem_cons_self)
        (fun m hm => hmembers m (List.mem_cons_of_mem _ hm)) fuel .quotedName l (by
          simp only [List.length_append, List.length_cons]
          omega)
      simp only [readMembers, List.append_assoc, List.cons_append, readName_quote, hread]
      simp only [List.append_assoc, List.cons_append] at hrest
      simp only [writeMembers, List.cons_append, skipSpace_cons (c := ',') rfl,
        List.append_assoc, hrest]
      rfl

theorem readValue_of_beginsNumber {c : Char} (h : BeginsNumber c) (fuel : Nat)
    (cs : List Char) :
    readValue (fuel + 1) (c :: cs) =
      (readNumber (c :: cs)).map fun (n, rest) => (.number n, rest) := by
  rw [readValue, skipSpace_cons h.isSpace_eq_false]
  split
  case h_7 => rfl
  all_goals
    rename_i heq
    obtain ⟨rfl, -⟩ := List.cons.inj heq
    exact absurd rfl (h.ne (by decide) rfl)

theorem exists_writeChars_eq_cons {v : Json} (h : v.IsExact) :
    ∃ c cs, writeChars v = c :: cs ∧ isSpace c = false ∧ c ≠ ']' := by
  cases h with
  | null => exact ⟨_, _, rfl, rfl, by decide⟩
  | bool value => cases value <;> exact ⟨_, _, rfl, rfl, by decide⟩
  | number h =>
      obtain ⟨c, cs, hcs, hc⟩ := exists_writeNumber_eq_cons h
      exact ⟨c, cs, hcs, hc.isSpace_eq_false, hc.ne (by decide) rfl⟩
  | string value => exact ⟨_, _, rfl, rfl, by decide⟩
  | @array items h => cases items <;> exact ⟨_, _, rfl, rfl, by decide⟩
  | @object members h => cases members <;> exact ⟨_, _, rfl, rfl, by decide⟩

theorem IsReadBack.of_succ {v : Json} (hne : writeChars v ≠ [])
    (h : ∀ fuel rest, (writeChars v).length ≤ fuel + 1 → Ends rest →
      readValue (fuel + 1) (writeChars v ++ rest) = .ok (v, rest)) : v.IsReadBack := by
  intro fuel rest hfuel hrest
  have hpos := List.length_pos_iff.mpr hne
  obtain ⟨fuel, rfl⟩ := Nat.exists_eq_add_of_le' (show 1 ≤ fuel by omega)
  exact h fuel rest hfuel hrest

theorem isReadBack_string (text : String) : (Json.string text).IsReadBack := by
  refine .of_succ (List.cons_ne_nil _ _) fun fuel rest _ _ => ?_
  have hread := readQuoted_flatMap text.toList rest
  have hquote : writeChars (.string text) ++ rest =
      '"' :: (text.toList.flatMap escapeChar ++ '"' :: rest) := by
    simp [writeChars, quote]
  rw [hquote, readValue, skipSpace_cons rfl]
  simp only [hread, Except.map, String.ofList_toList]

theorem isReadBack_number {n : Number} (h : n.IsExact) : (Json.number n).IsReadBack := by
  obtain ⟨c, cs, hcs, hc⟩ := exists_writeNumber_eq_cons h
  have hwrite : writeChars (.number n) = c :: cs := hcs
  refine .of_succ (hwrite ▸ List.cons_ne_nil _ _) fun fuel rest _ hrest => ?_
  rw [hwrite, List.cons_append, readValue_of_beginsNumber hc, ← List.cons_append, ← hcs,
    readNumber_writeNumber h hrest]
  rfl

theorem isReadBack_array {v : Json} {vs : List Json} (hexact : v.IsExact) (hv : v.IsReadBack)
    (hvs : ∀ w ∈ vs, w.IsReadBack) : (Json.array (v :: vs)).IsReadBack := by
  refine .of_succ (List.cons_ne_nil _ _) fun fuel rest hfuel _ => ?_
  rw [writeChars, List.cons_append, List.length_cons] at hfuel
  have hread := readItems_writeItems hv hvs fuel rest (Nat.le_of_succ_le_succ hfuel)
  obtain ⟨c, cs, hcs, hspace, hbracket⟩ := exists_writeChars_eq_cons hexact
  rw [hcs, List.cons_append, List.cons_append] at hread
  rw [writeChars, hcs]
  simp only [List.cons_append]
  rw [readValue, skipSpace_cons rfl]
  simp only [skipSpace_cons hspace]
  split
  · rename_i heq
    exact absurd (List.cons.inj heq).1 hbracket
  · rw [hread]
    rfl

theorem isReadBack_object {k : String} {v : Json} {ms : List (String × Json)}
    (hv : v.IsReadBack) (hms : ∀ m ∈ ms, m.2.IsReadBack) :
    (Json.object ((k, v) :: ms)).IsReadBack := by
  refine .of_succ (List.cons_ne_nil _ _) fun fuel rest hfuel _ => ?_
  have hwrite : writeChars (.object ((k, v) :: ms)) =
      '{' :: (quote k ++ ':' :: writeChars v ++ writeMembers ms) := by
    simp [writeChars]
  rw [hwrite, List.length_cons] at hfuel
  have hread := readMembers_writeMembers hv hms fuel .nameOrBrace k rest
    (Nat.le_of_succ_le_succ hfuel)
  have hquote : skipSpace (quote k ++ ':' :: writeChars v ++ writeMembers ms ++ rest) =
      quote k ++ ':' :: writeChars v ++ writeMembers ms ++ rest :=
    skipSpace_cons rfl _
  rw [hwrite, List.cons_append, readValue, skipSpace_cons rfl]
  simp only [hquote]
  split
  · rename_i heq
    exact absurd (List.cons.inj heq).1 (by decide)
  · rw [hread]
    rfl

/-- Reading takes back what writing gives, and nothing of what stands behind it. -/
theorem isReadBack_of_isExact {v : Json} (h : v.IsExact) : v.IsReadBack := by
  -- An array and an object are told apart from empty ones by what stands behind their bracket.
  induction h with
  | null => exact .of_succ (List.cons_ne_nil _ _) fun _ _ _ _ => rfl
  | bool value =>
      cases value <;> exact .of_succ (List.cons_ne_nil _ _) fun _ _ _ _ => rfl
  | number h => exact isReadBack_number h
  | string value => exact isReadBack_string value
  | @array items h ih =>
      cases items with
      | nil => exact .of_succ (List.cons_ne_nil _ _) fun _ _ _ _ => rfl
      | cons v vs =>
          exact isReadBack_array (h v List.mem_cons_self) (ih v List.mem_cons_self)
            fun w hw => ih w (List.mem_cons_of_mem v hw)
  | @object members h ih =>
      cases members with
      | nil => exact .of_succ (List.cons_ne_nil _ _) fun _ _ _ _ => rfl
      | cons m ms =>
          exact isReadBack_object (ih m List.mem_cons_self)
            fun n hn => ih n (List.mem_cons_of_mem m hn)

end Values

theorem read_write {v : Json} (h : v.IsExact) : read v.write = .ok v := by
  have hread := isReadBack_of_isExact h ((writeChars v).length + 1) [] (Nat.le_succ _) .nothing
  rw [List.append_nil] at hread
  simp only [read, write, String.toList_ofList, hread]
  rfl

theorem write_inj {v w : Json} (hv : v.IsExact) (hw : w.IsExact) (h : v.write = w.write) :
    v = w := by
  have hread := read_write hv
  rw [h, read_write hw] at hread
  exact (Except.ok.inj hread).symm

end Json

end Courier
