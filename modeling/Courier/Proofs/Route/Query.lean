import Courier.Proofs.Text
import Courier.Route

namespace Courier.Query

theorem hexValue?_hexDigit : ∀ n < 16,
    Text.hexValue? (hexDigit n) = some n ∧ isPlain (hexDigit n) = true := by
  decide

theorem decodeBytes_plus (rest : List Char) :
    decodeBytes ('+' :: rest) = 0x20 :: decodeBytes rest := by
  rw [decodeBytes]

theorem decodeBytes_of_ne {c : Char} (hplus : c ≠ '+') (hpercent : c ≠ '%') (rest : List Char) :
    decodeBytes (c :: rest) = String.utf8EncodeChar c ++ decodeBytes rest := by
  rw [decodeBytes.eq_def]
  split <;> simp_all

theorem decodeBytes_percentByte (b : UInt8) (rest : List Char) :
    decodeBytes (percentByte b ++ rest) = b :: decodeBytes rest := by
  have hb : b.toNat < 256 := b.toNat_lt
  obtain ⟨hhigh, -⟩ := hexValue?_hexDigit (b.toNat / 16) (by omega)
  obtain ⟨hlow, -⟩ := hexValue?_hexDigit (b.toNat % 16) (by omega)
  have hbyte : b.toNat / 16 * 16 + b.toNat % 16 = b.toNat := by omega
  simp only [percentByte, List.cons_append, List.nil_append, decodeBytes, hhigh, hlow, hbyte,
    UInt8.ofNat_toNat]

theorem decodeBytes_flatMap_percentByte (bytes : List UInt8) (rest : List Char) :
    decodeBytes (bytes.flatMap percentByte ++ rest) = bytes ++ decodeBytes rest := by
  induction bytes with
  | nil => rfl
  | cons b bytes ih =>
      rw [List.flatMap_cons, List.append_assoc, decodeBytes_percentByte, ih, List.cons_append]

theorem ne_of_isPlain {c d : Char} (hc : isPlain c = true) (hd : isPlain d = false) : c ≠ d := by
  rintro rfl
  rw [hc] at hd
  cases hd

theorem decodeBytes_encodeChar (c : Char) (rest : List Char) :
    decodeBytes (encodeChar c ++ rest) = String.utf8EncodeChar c ++ decodeBytes rest := by
  unfold encodeChar
  split
  · subst c
    exact decodeBytes_plus rest
  · split
    · rename_i hplain
      exact decodeBytes_of_ne (ne_of_isPlain hplain (by decide))
        (ne_of_isPlain hplain (by decide)) rest
    · exact decodeBytes_flatMap_percentByte _ rest

theorem decodeBytes_flatMap_encodeChar (cs : List Char) :
    decodeBytes (cs.flatMap encodeChar) = cs.flatMap String.utf8EncodeChar := by
  induction cs with
  | nil => rfl
  | cons c cs ih => rw [List.flatMap_cons, decodeBytes_encodeChar, ih, List.flatMap_cons]

theorem decodeText?_encodeText (s : String) : decodeText? (encodeText s) = some s := by
  have hbytes : (decodeBytes (encodeText s)).toByteArray = s.toByteArray := by
    rw [encodeText, decodeBytes_flatMap_encodeChar]
    exact String.utf8Encode_toList
  rw [decodeText?, hbytes, String.fromUTF8?, dif_pos s.isValidUTF8]
  rfl

theorem isPlain_or_of_mem_encodeText {s : String} {c : Char} (h : c ∈ encodeText s) :
    isPlain c = true ∨ c = '+' ∨ c = '%' := by
  obtain ⟨original, -, hc⟩ := List.mem_flatMap.mp h
  unfold encodeChar at hc
  split at hc
  · exact .inr (.inl (List.mem_singleton.mp hc))
  · split at hc
    · rename_i hplain
      rw [List.mem_singleton.mp hc]
      exact .inl hplain
    · obtain ⟨b, -, hb⟩ := List.mem_flatMap.mp hc
      have hlt : b.toNat < 256 := b.toNat_lt
      simp only [percentByte, List.mem_cons, List.not_mem_nil, or_false] at hb
      rcases hb with rfl | rfl | rfl
      · exact .inr (.inr rfl)
      · exact .inl (hexValue?_hexDigit _ (by omega)).2
      · exact .inl (hexValue?_hexDigit _ (by omega)).2

theorem ne_of_mem_encodeText {s : String} {c d : Char} (h : c ∈ encodeText s)
    (hd : isPlain d = false ∧ d ≠ '+' ∧ d ≠ '%') : c ≠ d := by
  rcases isPlain_or_of_mem_encodeText h with hplain | rfl | rfl
  · exact ne_of_isPlain hplain hd.1
  · exact hd.2.1.symm
  · exact hd.2.2.symm

theorem decodePair?_encodePair (pair : String × String) :
    decodePair? (encodePair pair) = some pair := by
  have hname : '=' ∉ encodeText pair.1 := fun hmem => ne_of_mem_encodeText hmem (by decide) rfl
  have hrest : ('=' :: encodeText pair.2).head? = some '=' := rfl
  obtain ⟨htake, hdrop⟩ := Text.span_bne_append hname (.inr hrest)
  rw [decodePair?, encodePair, htake, hdrop, List.drop_one, List.tail_cons, decodeText?_encodeText,
    decodeText?_encodeText]
  rfl

theorem ampersand_notMem_encodePair (pair : String × String) :
    ∀ c ∈ encodePair pair, (c == '&') = false := by
  intro c hc
  rw [beq_eq_false_iff_ne]
  rcases List.mem_append.mp hc with hname | hvalue
  · exact ne_of_mem_encodeText hname (by decide)
  · rcases List.mem_cons.mp hvalue with rfl | hvalue
    · decide
    · exact ne_of_mem_encodeText hvalue (by decide)

theorem splitOnP_encodeChars {pairs : List (String × String)} (h : pairs ≠ []) :
    (encodeChars pairs).splitOnP (· == '&') = pairs.map encodePair := by
  induction pairs with
  | nil => exact absurd rfl h
  | cons pair rest ih =>
      cases rest with
      | nil => exact List.splitOnP_eq_singleton (ampersand_notMem_encodePair pair)
      | cons next rest =>
          have hfirst := List.splitOnP_append_cons_of_forall_mem (ampersand_notMem_encodePair pair)
            '&' (beq_self_eq_true _) (encodeChars (next :: rest))
          exact hfirst.trans (congrArg _ (ih (List.cons_ne_nil next rest)))

theorem isEmpty_encodePair (pair : String × String) : (encodePair pair).isEmpty = false := by
  rw [encodePair, List.isEmpty_eq_false_iff]
  exact List.append_ne_nil_of_right_ne_nil _ (List.cons_ne_nil _ _)

theorem filter_splitOnP_encodeChars (pairs : List (String × String)) :
    ((encodeChars pairs).splitOnP (· == '&')).filter (! ·.isEmpty) = pairs.map encodePair := by
  cases pairs with
  | nil => rfl
  | cons pair rest =>
      rw [splitOnP_encodeChars (List.cons_ne_nil pair rest), List.filter_eq_self,
        List.forall_mem_map]
      intro pair _
      rw [isEmpty_encodePair, Bool.not_false]

theorem mapM_decodePair? (pairs : List (String × String)) :
    (pairs.map encodePair).mapM decodePair? = some pairs := by
  induction pairs with
  | nil => rfl
  | cons pair rest ih =>
      rw [List.map_cons, List.mapM_cons, decodePair?_encodePair, ih]
      rfl

/-- The parameters that a query was made of are read back from it, whatever texts they hold. -/
theorem decode?_encode (pairs : List (String × String)) : decode? (encode pairs) = some pairs := by
  rw [decode?, encode, String.toList_ofList, filter_splitOnP_encodeChars, mapM_decodePair?]

theorem encode_eq_empty_iff {pairs : List (String × String)} : encode pairs = "" ↔ pairs = [] := by
  constructor
  · intro h
    have hread := decode?_encode pairs
    rw [h] at hread
    exact (Option.some.inj hread).symm
  · rintro rfl
    rfl

end Courier.Query
