import Mathlib.Algebra.Ring.Int.Parity
import Mathlib.Data.Int.Bitwise
import Courier.Proofs.Message

namespace Courier

section Bits

variable {i : Nat}

theorem natCast_testBit_iff (k i : Nat) : k.testBit i = true ↔ Odd ((k : Int) / 2 ^ i) := by
  have hcast : (k : Int) / 2 ^ i = (k / 2 ^ i : Nat) := by
    rw [Int.natCast_ediv, Int.natCast_pow]
    rfl
  rw [hcast, Int.odd_coe_nat, Nat.odd_iff, Nat.testBit_eq_decide_div_mod_eq, decide_eq_true_iff]

theorem fdiv_two_pow (n : Int) (i : Nat) : n.fdiv (2 ^ i) = n / 2 ^ i :=
  Int.fdiv_eq_ediv_of_nonneg n (Int.le_of_lt (Int.pow_pos (by decide)))

/-- The bits of a whole number are the parities of its quotients by the powers of two, which are
rounded down below zero too. -/
theorem testBit_iff_odd_fdiv (n : Int) (i : Nat) :
    n.testBit i = true ↔ Odd (n.fdiv (2 ^ i)) := by
  rw [fdiv_two_pow]
  cases n with
  | ofNat k => exact natCast_testBit_iff k i
  | negSucc k =>
      have hpos : (0 : Int) < 2 ^ i := Int.pow_pos (by decide)
      rw [Int.negSucc_ediv k hpos, odd_neg, odd_add_one, ← Int.not_odd_iff_even, Int.testBit,
        Bool.not_eq_true', ← Bool.not_eq_true]
      exact not_congr (natCast_testBit_iff k i)

theorem testBit_eq_of_dvd {n n' : Int} (h : 2 ^ (i + 1) ∣ n' - n) :
    n'.testBit i = n.testBit i := by
  obtain ⟨c, hc⟩ := h
  have hquotient : n'.fdiv (2 ^ i) = n.fdiv (2 ^ i) + 2 * c := by
    have hn : n' = n + 2 ^ i * (2 * c) := by
      rw [← mul_assoc, ← pow_succ, ← hc]
      exact (add_sub_cancel n n').symm
    have hpos : (0 : Int) < 2 ^ i := Int.pow_pos (by decide)
    rw [hn, fdiv_two_pow, fdiv_two_pow, Int.add_mul_ediv_left _ _ (Int.ne_of_gt hpos)]
  rw [Bool.eq_iff_iff, testBit_iff_odd_fdiv, testBit_iff_odd_fdiv, hquotient, Int.odd_add,
    iff_true_right (even_two_mul c)]

theorem Number.toWord_ofInt (n : Int) : (Number.ofInt n).toWord = BitVec.ofInt 32 n := by
  show BitVec.ofInt 32 ((n : Rat).num.tdiv (n : Rat).den) = _
  rw [Rat.num_intCast, Rat.den_intCast, Nat.cast_one, Int.tdiv_one]

/-- The word of a whole number has the bits of the number, so far as it goes. -/
theorem Number.getLsbD_toWord (hi : i < 32) (n : Int) :
    (Number.ofInt n).toWord.getLsbD i = n.testBit i := by
  rw [Number.toWord_ofInt]
  cases n with
  | ofNat k =>
      rw [Int.ofNat_eq_natCast, BitVec.ofInt_natCast, BitVec.getLsbD_ofNat, decide_eq_true hi,
        Bool.true_and]
      rfl
  | negSucc k =>
      rw [BitVec.ofInt_negSucc_eq_not_ofNat, BitVec.getLsbD_not, BitVec.getLsbD_ofNat,
        decide_eq_true hi, Bool.true_and, Bool.true_and]
      rfl

end Bits

theorem Message.isEphemeral_ofInt (n : Int) : isEphemeral (.ofInt n) = n.testBit 6 := by
  have hmask : BitVec.ofNat 32 64 = BitVec.twoPow 32 6 := rfl
  rw [isEphemeral, hmask, BitVec.and_twoPow, Number.getLsbD_toWord (by decide)]
  cases n.testBit 6 <;> rfl

theorem Message.IsReadFrom.flags_eq {m : Message} {payload : Json} {channel cacheBacked : Given}
    {n : Int} (h : m.IsReadFrom payload channel cacheBacked)
    (hflags : payload.get? "flags" = some (.number (.ofInt n))) :
    m.flags = .ofInt n ∧ m.ephemeral = n.testBit 6 := by
  have heq : m.flags = .ofInt n := h.flags.held _ hflags
  refine ⟨heq, ?_⟩
  rw [h.ephemeral, heq, Message.isEphemeral_ofInt]

/-- A payload with an identifier and a whole number of flags, whatever else is in it, is a message
with these flags. It is ephemeral exactly if bit 6 of the number is set, that is, if the number
divided by 64 and rounded down is odd; so the multiples of 128 in it make no difference. -/
theorem ephemeral_read_from_flags {payload : Json} {id : String} {n : Int}
    (hid : payload.get? "id" = some (.string id)) (hne : id ≠ "")
    (hflags : payload.get? "flags" = some (.number (.ofInt n)))
    (channel : List (String × Json)) (cacheBacked : Given) :
    ∃ m, Message.ofPayload payload (some (.object channel)) cacheBacked = .ok m ∧
      m.flags = .ofInt n ∧
      (m.ephemeral = true ↔ Odd (n.fdiv 64)) ∧
      (m.ephemeral = true ↔ n.testBit 6 = true) ∧
      ∀ payload' id' n', payload'.get? "id" = some (.string id') → id' ≠ "" →
        payload'.get? "flags" = some (.number (.ofInt n')) → 128 ∣ n' - n →
        ∃ m', Message.ofPayload payload' (some (.object channel)) cacheBacked = .ok m' ∧
          m'.flags = .ofInt n' ∧ m'.ephemeral = m.ephemeral := by
  obtain ⟨m, hm, hread⟩ := Message.exists_ofPayload hid hne channel cacheBacked
  obtain ⟨heq, hephemeral⟩ := hread.flags_eq hflags
  refine ⟨m, hm, heq, ?_, by rw [hephemeral], ?_⟩
  · rw [hephemeral]
    exact testBit_iff_odd_fdiv n 6
  · intro payload' id' n' hid' hne' hflags' hdvd
    obtain ⟨m', hm', hread'⟩ := Message.exists_ofPayload hid' hne' channel cacheBacked
    obtain ⟨heq', hephemeral'⟩ := hread'.flags_eq hflags'
    refine ⟨m', hm', heq', ?_⟩
    rw [hephemeral', hephemeral]
    exact testBit_eq_of_dvd hdvd

/-- The flags -64, and a number of flags above `2 ^ 53` that has the same bit. -/
theorem negative_flags_read :
    let payload (n : Int) : Json :=
      .object [("id", .string "1"), ("flags", .number (.ofInt n))]
    let read (n : Int) := Message.ofPayload (payload n) (some (.object [])) none
    ∃ m m', read (-64) = .ok m ∧ read (2 ^ 53 + 64) = .ok m' ∧
      m.flags = .ofInt (-64) ∧ m.ephemeral = true ∧ m'.ephemeral = true := by
  intro payload read
  have hid (n : Int) : (payload n).get? "id" = some (.string "1") := rfl
  have hne : "1" ≠ "" := by decide
  have hflags (n : Int) : (payload n).get? "flags" = some (.number (.ofInt n)) := rfl
  obtain ⟨m, hm, heq, hodd, -, hsame⟩ :=
    ephemeral_read_from_flags (hid (-64)) hne (hflags (-64)) [] none
  obtain ⟨m', hm', -, hephemeral⟩ := hsame _ _ _ (hid (2 ^ 53 + 64)) hne (hflags _) (by decide)
  have hset : m.ephemeral = true := hodd.mpr (by decide)
  exact ⟨m, m', hm, hm', heq, hset, hephemeral.trans hset⟩

end Courier
