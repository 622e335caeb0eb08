import Mathlib.Algebra.Ring.Int.Defs
import Mathlib.Algebra.Ring.Nat
import Mathlib.Data.List.Basic
import Mathlib.Tactic.Common

/-!
# Four bytes and the word they make

The big-endian word of four bytes, and what shifts, rotations and masks of such a word are in terms of
the bytes. Everything is read off the bits of the word, byte by byte.
-/

/-- Four bytes, in the order of their addresses. -/
@[ext] structure Bytes4 where
  b0 : UInt8
  b1 : UInt8
  b2 : UInt8
  b3 : UInt8
  deriving Repr, DecidableEq

namespace Bytes4

/-- Byte by byte. -/
def xor (a b : Bytes4) : Bytes4 := ⟨a.b0 ^^^ b.b0, a.b1 ^^^ b.b1, a.b2 ^^^ b.b2, a.b3 ^^^ b.b3⟩

/-- The word that starts with the first byte. -/
def word (b : Bytes4) : UInt32 :=
  (b.b0.toUInt32 <<< 24) ^^^ (b.b1.toUInt32 <<< 16) ^^^ (b.b2.toUInt32 <<< 8) ^^^ b.b3.toUInt32

/-- The bytes of a word. -/
def ofWord (w : UInt32) : Bytes4 :=
  ⟨(w >>> 24).toUInt8, (w >>> 16).toUInt8, (w >>> 8).toUInt8, w.toUInt8⟩

/-- Rotated to the right by `n` bits. -/
def rotr (w : UInt32) (n : UInt32) : UInt32 := (w >>> n) ||| (w <<< (32 - n))

/-- The byte a bit lies in. -/
def bit (b : Bytes4) (i : Nat) : Bool :=
  if i < 8 then b.b3.toBitVec.getLsbD i
  else if i < 16 then b.b2.toBitVec.getLsbD (i - 8)
  else if i < 24 then b.b1.toBitVec.getLsbD (i - 16)
  else b.b0.toBitVec.getLsbD (i - 24)

/-- **The bits of the word are those of the bytes.** -/
theorem getLsbD_word (b : Bytes4) {i : Nat} (hi : i < 32) : b.word.toBitVec.getLsbD i = b.bit i := by
  have h0 : ∀ (x : UInt8) (k : Nat), 8 ≤ k → x.toBitVec.getLsbD k = false := fun x k hk =>
    BitVec.getLsbD_of_ge _ _ hk
  unfold word bit
  rcases (by omega : i < 8 ∨ (8 ≤ i ∧ i < 16) ∨ (16 ≤ i ∧ i < 24) ∨ 24 ≤ i) with h | h | h | h
  · have h16 : i < 16 := by omega
    have h24 : i < 24 := by omega
    simp [hi, h, h16, h24]
  · have h8 : ¬ i < 8 := by omega
    have h24 : i < 24 := by omega
    simp [hi, h8, h.2, h24, h0 _ i h.1]
  · have h8 : ¬ i < 8 := by omega
    have h16 : ¬ i < 16 := by omega
    have h2 : 8 ≤ i - 8 := by omega
    simp [hi, h8, h16, h.2, h0 _ i (by omega), h0 _ _ h2]
  · have h8 : ¬ i < 8 := by omega
    have h16 : ¬ i < 16 := by omega
    have h24 : ¬ i < 24 := by omega
    have h2 : 8 ≤ i - 8 := by omega
    have h1 : 8 ≤ i - 16 := by omega
    simp [hi, h8, h16, h24, h0 _ i (by omega), h0 _ _ h2, h0 _ _ h1]

/-- Words with the same bits in every byte. -/
theorem eq_word {w : UInt32} {b : Bytes4} (h : ∀ i < 32, w.toBitVec.getLsbD i = b.bit i) : w = b.word := by
  apply UInt32.toBitVec_inj.mp
  refine BitVec.eq_of_getLsbD_eq fun i hi => ?_
  rw [h i hi, getLsbD_word b hi]

theorem word_xor (a b : Bytes4) : (a.xor b).word = a.word ^^^ b.word := by
  refine (eq_word fun i hi => ?_).symm
  rw [UInt32.toBitVec_xor, BitVec.getLsbD_xor, getLsbD_word a hi, getLsbD_word b hi]
  unfold bit xor
  split_ifs <;> simp

/-! ## Single bytes -/

/-- A byte cut out of a word. -/
theorem toUInt8_eq {w : UInt32} {x : UInt8}
    (h : ∀ i < 8, w.toBitVec.getLsbD i = x.toBitVec.getLsbD i) : w.toUInt8 = x := by
  apply UInt8.toBitVec_inj.mp
  refine BitVec.eq_of_getLsbD_eq fun i hi => ?_
  rw [UInt32.toBitVec_toUInt8, BitVec.getLsbD_setWidth, h i hi]
  simp [hi]

/-- The byte that `k` bits are shifted away from. -/
theorem byte_word (b : Bytes4) {w : UInt32} {x : UInt8} {k : Nat} (hk : k ≤ 24)
    (hw : ∀ i, w.toBitVec.getLsbD i = b.word.toBitVec.getLsbD (k + i))
    (hx : ∀ i < 8, b.bit (k + i) = x.toBitVec.getLsbD i) : w.toUInt8 = x := by
  refine toUInt8_eq fun i hi => ?_
  rw [hw, getLsbD_word b (by omega), hx i hi]

theorem byte0_word (b : Bytes4) : (b.word >>> 24).toUInt8 = b.b0 := by
  refine byte_word b (k := 24) (by omega) (fun i => ?_) fun i hi => ?_
  · rw [UInt32.toBitVec_shiftRight]
    simp
  · rw [bit, if_neg (by omega), if_neg (by omega), if_neg (by omega), Nat.add_sub_cancel_left]

theorem byte1_word (b : Bytes4) : (b.word >>> 16).toUInt8 = b.b1 := by
  refine byte_word b (k := 16) (by omega) (fun i => ?_) fun i hi => ?_
  · rw [UInt32.toBitVec_shiftRight]
    simp
  · rw [bit, if_neg (by omega), if_neg (by omega), if_pos (by omega), Nat.add_sub_cancel_left]

theorem byte2_word (b : Bytes4) : (b.word >>> 8).toUInt8 = b.b2 := by
  refine byte_word b (k := 8) (by omega) (fun i => ?_) fun i hi => ?_
  · rw [UInt32.toBitVec_shiftRight]
    simp
  · rw [bit, if_neg (by omega), if_pos (by omega), Nat.add_sub_cancel_left]

theorem byte3_word (b : Bytes4) : b.word.toUInt8 = b.b3 := by
  refine byte_word b (k := 0) (by omega) (fun i => by rw [Nat.zero_add]) fun i hi => ?_
  rw [Nat.zero_add, bit, if_pos hi]

/-- The bytes come back. -/
theorem ofWord_word (b : Bytes4) : ofWord b.word = b := by
  rw [ofWord, byte0_word, byte1_word, byte2_word, byte3_word]

/-- A table is looked up at the lowest byte. -/
theorem toNat_and_ff (w : UInt32) : (w &&& 0xff).toNat = w.toUInt8.toNat := by
  rw [UInt32.toNat_and, UInt32.toNat_toUInt8]
  exact Nat.and_two_pow_sub_one_eq_mod w.toNat 8

/-! ## Rotations and masks -/

/-- The bits of a rotated word. -/
theorem getLsbD_rotr (w : UInt32) {n : UInt32} {k i : Nat} (hn : n.toNat = k) (hk : 0 < k) (hk' : k < 32)
    (hi : i < 32) : (rotr w n).toBitVec.getLsbD i
      = if k + i < 32 then w.toBitVec.getLsbD (k + i) else w.toBitVec.getLsbD (k + i - 32) := by
  have hleft : (32 - n).toNat = 32 - k := by
    rw [UInt32.toNat_sub_of_le _ _ (UInt32.le_iff_toNat_le.mpr (by rw [hn]; exact Nat.le_of_lt hk')), hn]
    rfl
  have hmod : ∀ m : UInt32, m.toNat < 32 → (m.toBitVec % 32).toNat = m.toNat := fun m hm =>
    Nat.mod_eq_of_lt hm
  unfold rotr
  rw [UInt32.toBitVec_or, UInt32.toBitVec_shiftRight, UInt32.toBitVec_shiftLeft, BitVec.getLsbD_or,
    BitVec.ushiftRight_eq', BitVec.shiftLeft_eq', hmod _ (by omega), hmod _ (by omega), hn, hleft,
    BitVec.getLsbD_ushiftRight, BitVec.getLsbD_shiftLeft, decide_eq_true hi, Bool.true_and]
  by_cases h : k + i < 32
  · have hlt : i < 32 - k := by omega
    rw [if_pos h, decide_eq_true hlt, Bool.not_true, Bool.false_and, Bool.or_false]
  · have hge : ¬ i < 32 - k := by omega
    have hback : i - (32 - k) = k + i - 32 := by omega
    rw [if_neg h, BitVec.getLsbD_of_ge _ _ (by omega), decide_eq_false hge, hback, Bool.not_false,
      Bool.true_and, Bool.false_or]

/-- Two ways to spell a bit of a byte. -/
theorem getLsbD_congr (x : UInt8) {j k : Nat} (h : j = k) : x.toBitVec.getLsbD j = x.toBitVec.getLsbD k := by
  rw [h]

theorem rotr_word {b c : Bytes4} {n : UInt32} {k : Nat} (hn : n.toNat = k) (hk : 0 < k) (hk' : k < 32)
    (h : ∀ i < 32, (if k + i < 32 then b.bit (k + i) else b.bit (k + i - 32)) = c.bit i) :
    rotr b.word n = c.word := by
  refine eq_word fun i hi => ?_
  rw [getLsbD_rotr _ hn hk hk' hi, ← h i hi]
  by_cases hlt : k + i < 32
  · rw [if_pos hlt, if_pos hlt, getLsbD_word b hlt]
  · rw [if_neg hlt, if_neg hlt, getLsbD_word b (by omega)]

/-- Turned by `m` bytes: the last ones come to the front. -/
def turn (b : Bytes4) : Nat → Bytes4
  | 0 => b
  | m + 1 => ⟨(b.turn m).b3, (b.turn m).b0, (b.turn m).b1, (b.turn m).b2⟩

theorem bit_turn (b : Bytes4) {i : Nat} (hi : i < 32) (m : Nat) :
    (b.turn m).bit i = b.bit ((8 * m + i) % 32) := by
  induction m generalizing i with
  | zero => rw [turn, Nat.mul_zero, Nat.zero_add, Nat.mod_eq_of_lt hi]
  | succ m ih =>
    -- one more byte is one more turn of eight bits, whatever was turned before
    have hstep : (b.turn (m + 1)).bit i = (b.turn m).bit ((8 + i) % 32) := by
      unfold bit
      rw [turn]
      split_ifs <;> first | omega | exact getLsbD_congr _ (by omega)
    rw [hstep, ih (Nat.mod_lt _ (by decide)), show (8 * m + (8 + i) % 32) % 32 = (8 * (m + 1) + i) % 32 by omega]

/-- **A rotation by whole bytes moves the bytes.** -/
theorem rotr_bytes (b : Bytes4) {n : UInt32} {m : Nat} (hn : n.toNat = 8 * m) (hm : 0 < m) (hm' : m < 4) :
    rotr b.word n = (b.turn m).word := by
  refine rotr_word hn (by omega) (by omega) fun i hi => ?_
  rw [bit_turn b hi]
  split_ifs with h
  · rw [Nat.mod_eq_of_lt h]
  · rw [show (8 * m + i) % 32 = 8 * m + i - 32 by omega]

/-- A mask that keeps the bits from `lo` to `hi`. -/
def Keeps (mask : UInt32) (lo hi : Nat) : Prop :=
  ∀ i : Fin 32, mask.toBitVec.getLsbD i = decide (lo ≤ i.val ∧ i.val < hi)

theorem getLsbD_mask {w mask : UInt32} {lo hi i : Nat} (hmask : Keeps mask lo hi) (hi' : i < 32) :
    (w &&& mask).toBitVec.getLsbD i = if lo ≤ i ∧ i < hi then w.toBitVec.getLsbD i else false := by
  rw [UInt32.toBitVec_and, BitVec.getLsbD_and, hmask ⟨i, hi'⟩]
  by_cases h : lo ≤ i ∧ i < hi
  · rw [if_pos h, decide_eq_true h, Bool.and_true]
  · rw [if_neg h, decide_eq_false h, Bool.and_false]

theorem getLsbD_zero (k : Nat) : (0 : UInt8).toBitVec.getLsbD k = false := BitVec.getLsbD_zero

/-- One byte in its place, the others cleared. -/
def only (b : Bytes4) : Fin 4 → Bytes4
  | 0 => ⟨b.b0, 0, 0, 0⟩
  | 1 => ⟨0, b.b1, 0, 0⟩
  | 2 => ⟨0, 0, b.b2, 0⟩
  | 3 => ⟨0, 0, 0, b.b3⟩

theorem bit_only (b : Bytes4) (j : Fin 4) {i : Nat} (hi : i < 32) :
    (b.only j).bit i = if 24 - 8 * j.val ≤ i ∧ i < 32 - 8 * j.val then b.bit i else false := by
  -- a bit outside the byte that is kept falls into a cleared one
  match j with
  | 0 | 1 | 2 | 3 =>
    simp only [only, bit]
    split_ifs <;> first | omega | rfl | rw [getLsbD_zero]

/-- The mask over one byte. -/
def place (j : Fin 4) : UInt32 := 0xff000000 >>> (8 * UInt32.ofNat j.val)

theorem keeps_place (j : Fin 4) : Keeps (place j) (24 - 8 * j.val) (32 - 8 * j.val) := by
  unfold Keeps
  revert j
  decide

/-- **A mask over one byte keeps that byte.** -/
theorem mask_byte (b : Bytes4) {mask : UInt32} (j : Fin 4) (hmask : mask = place j) :
    b.word &&& mask = (b.only j).word := by
  subst hmask
  refine eq_word fun i hi => ?_
  rw [getLsbD_mask (keeps_place j) hi, getLsbD_word b hi, bit_only b j hi]

/-- A shift by one byte, to the front and to the back. -/
theorem shiftLeft_word (b : Bytes4) : b.word <<< 8 = word ⟨b.b1, b.b2, b.b3, 0⟩ := by
  refine eq_word fun i hi => ?_
  have hshift : (b.word <<< 8).toBitVec.getLsbD i = (!decide (i < 8) && b.word.toBitVec.getLsbD (i - 8)) := by
    rw [UInt32.toBitVec_shiftLeft, BitVec.shiftLeft_eq', BitVec.getLsbD_shiftLeft, decide_eq_true hi,
      Bool.true_and]
    rfl
  rw [hshift, getLsbD_word b (by omega)]
  by_cases h : i < 8
  · rw [decide_eq_true h, Bool.not_true, Bool.false_and, bit, if_pos h, getLsbD_zero]
  · rw [decide_eq_false h, Bool.not_false, Bool.true_and]
    unfold bit
    split_ifs <;> first | omega | exact getLsbD_congr _ (by omega)

theorem shiftRight_word (b : Bytes4) : b.word >>> 8 = word ⟨0, b.b0, b.b1, b.b2⟩ := by
  refine eq_word fun i hi => ?_
  have hshift : (b.word >>> 8).toBitVec.getLsbD i = b.word.toBitVec.getLsbD (8 + i) := by
    rw [UInt32.toBitVec_shiftRight, BitVec.ushiftRight_eq', BitVec.getLsbD_ushiftRight]
    rfl
  rw [hshift]
  by_cases h : 8 + i < 32
  · rw [getLsbD_word b h]
    unfold bit
    split_ifs <;> first | omega | exact getLsbD_congr _ (by omega)
  · -- past the word there are no bits, and the first byte is cleared
    rw [BitVec.getLsbD_of_ge _ _ (by omega), bit, if_neg (by omega), if_neg (by omega), if_neg (by omega),
      getLsbD_zero]

end Bytes4
