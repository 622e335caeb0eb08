import Rtl8812au.Lib.Crc
import Rtl8812au.Security.Wep

/-!
# The CRC-32 of WEP and TKIP

`getcrc32` with the table `crc32_init` leaves in `crc32_table`, from any call on, against the
bit-serial CRC-32: polynomial `0x04c11db7`, each byte least significant bit first, register
preset to ones, complemented and reflected at the end.
-/

namespace Rtl8812au

/-- The statics of `rtw_security.c`: `bcrc32initialized` and `crc32_table`. -/
structure Crc32Statics where
  bcrc32initialized : Int
  crc32Table : List UInt32

/-- Before the first call. -/
def Crc32Statics.loaded : Crc32Statics := ⟨0, List.replicate 256 0⟩

/-- `crc32_init`. -/
def crc32Init (s : Crc32Statics) : Crc32Statics :=
  if s.bcrc32initialized = 1 then s
  else ⟨1, (List.range 256).map fun i => crc32TableEntry (UInt8.ofNat i)⟩

/-- One turn of the loop of `getcrc32`. -/
def getcrc32Loop (table : List UInt32) (crc : UInt32) (p : UInt8) : UInt32 :=
  table.getD ((crc ^^^ p.toUInt32) &&& 0xff).toNat 0 ^^^ (crc >>> 8)

/-- `getcrc32` with the statics it finds and leaves. -/
def getcrc32Call (s : Crc32Statics) (buf : List UInt8) : UInt32 × Crc32Statics :=
  let s := if s.bcrc32initialized = 0 then crc32Init s else s
  (~~~ buf.foldl (getcrc32Loop s.crc32Table) 0xffffffff, s)

/-- The statics after some calls. -/
def afterCalls (calls : List (List UInt8)) : Crc32Statics :=
  calls.foldl (fun s buf => (getcrc32Call s buf).2) .loaded

/-! ## The bit-serial CRC-32 -/

namespace Crc32

/-- `CRC32_POLY`. -/
def poly : BitVec 32 := 0x04c11db7#32

/-- The bits of a byte in the order they go into the register. -/
def byteBits (b : UInt8) : List Bool := (List.range 8).map b.toBitVec.getLsbD

/-- The bits of a message. -/
def bits (bs : List UInt8) : List Bool := bs.flatMap byteBits

/-- The CRC-32 of a message. -/
def crc32 (bs : List UInt8) : UInt32 :=
  ⟨~~~ (Crc.run poly 0xffffffff#32 (bits bs)).reverse⟩

/-- Two messages of one length differ in exactly one bit. -/
def OneBitApart (bs bs' : List UInt8) : Prop :=
  bs.length = bs'.length ∧ (List.zipWith (· ^^ ·) (bits bs) (bits bs')).count true = 1

/-- What is left of a message with its CRC behind it. -/
def residue : UInt32 := 0x2144df1c

@[simp] theorem length_byteBits (b : UInt8) : (byteBits b).length = 8 := rfl

theorem bits_cons (b : UInt8) (bs : List UInt8) : bits (b :: bs) = byteBits b ++ bits bs := rfl

theorem bits_append (bs cs : List UInt8) : bits (bs ++ cs) = bits bs ++ bits cs :=
  List.flatMap_append

theorem length_bits (bs : List UInt8) : (bits bs).length = 8 * bs.length := by
  induction bs with
  | nil => rfl
  | cons b bs ih =>
    rw [bits_cons, List.length_append, ih, length_byteBits, List.length_cons]
    omega

/-! ## The table -/

theorem reverseBit_eq (b : UInt8) : (crc32ReverseBit b).toBitVec = b.toBitVec.reverse := by
  have h : ∀ x : BitVec 8, (crc32ReverseBit ⟨x⟩).toBitVec = x.reverse := by decide
  exact h b.toBitVec

theorem shift_eq (c : UInt32) : (crc32Shift c).toBitVec = Crc.step poly c.toBitVec false := by
  have hbit : (c &&& 0x80000000 != 0) = c.toBitVec.msb := by
    have hand : (c &&& 0x80000000).toBitVec = c.toBitVec &&& BitVec.twoPow 32 31 := rfl
    rw [BitVec.and_twoPow, ← BitVec.msb_eq_getLsbD_last] at hand
    cases hm : c.toBitVec.msb with
    | false =>
      rw [hm] at hand
      exact bne_eq_false_iff_eq.mpr (UInt32.toBitVec_inj.mp hand)
    | true =>
      rw [hm] at hand
      refine bne_iff_ne.mpr fun h => ?_
      rw [h] at hand
      exact absurd hand (by decide)
  unfold crc32Shift Crc.step
  rw [hbit, Bool.xor_false]
  cases c.toBitVec.msb
  · simp
  · simp [poly]

/-- The register of `crc32_init` after eight turns. -/
def tableShifts (i : UInt8) : UInt32 :=
  (List.range 8).foldl (fun c _ => crc32Shift c) ((crc32ReverseBit i).toUInt32 <<< 24)

theorem shifts_eq (n : Nat) (c : UInt32) :
    ((List.range n).foldl (fun c _ => crc32Shift c) c).toBitVec
      = Crc.run poly c.toBitVec (List.replicate n false) := by
  induction n with
  | zero => rfl
  | succ n ih =>
    rw [List.range_succ, List.foldl_append, List.replicate_succ', Crc.run_append, ← ih]
    exact shift_eq _

theorem top_index (i : UInt8) :
    Crc.top 8 ((crc32ReverseBit i).toUInt32 <<< 24).toBitVec = byteBits i := by
  rw [Crc.top_eq]
  refine List.map_congr_left fun k hk => ?_
  have hk8 : k < 8 := List.mem_range.mp hk
  show ((crc32ReverseBit i).toBitVec.setWidth 32 <<< 24).getMsbD k = i.toBitVec.getLsbD k
  rw [reverseBit_eq, BitVec.getMsbD_shiftLeft, BitVec.getMsbD_setWidth, BitVec.getMsbD_reverse]
  have hk' : k + 24 + 8 - 32 = k := by omega
  rw [hk', decide_eq_true (by omega : 32 - 8 ≤ k + 24), Bool.true_and]

/-- What the eight turns leave is what the bits of the index leave in an empty register. -/
theorem tableShifts_eq (i : UInt8) :
    (tableShifts i).toBitVec = Crc.run poly 0#32 (byteBits i) := by
  have hzero : List.zipWith (· ^^ ·) (byteBits i) (List.replicate 8 false) = byteBits i := by
    simp [byteBits, List.range_succ]
  have hout : ((crc32ReverseBit i).toUInt32 <<< 24).toBitVec <<< 8 = 0#32 := by
    have h := BitVec.shiftLeft_add (crc32ReverseBit i).toUInt32.toBitVec 24 8
    rw [BitVec.shiftLeft_eq_zero (Nat.le_refl 32)] at h
    exact h.symm
  have habs := Crc.run_absorb poly ((crc32ReverseBit i).toUInt32 <<< 24).toBitVec
    (List.replicate 8 false)
  rw [List.length_replicate, top_index, hzero, hout, BitVec.zero_xor] at habs
  exact (shifts_eq 8 _).trans habs

/-- A reversed byte of a word, bit by bit. -/
theorem reverseBit_byte (c : BitVec 32) (s k : Nat) :
    ((crc32ReverseBit ⟨(c >>> s).setWidth 8⟩).toBitVec.setWidth 32).getLsbD k
      = (decide (k < 8) && c.getLsbD (s + (7 - k))) := by
  rw [reverseBit_eq, BitVec.getLsbD_setWidth, BitVec.getLsbD_reverse, BitVec.getMsbD_eq_getLsbD,
    BitVec.getLsbD_setWidth, BitVec.getLsbD_ushiftRight]
  by_cases hk : k < 8
  · have h32 : k < 32 := by omega
    have h8 : 8 - 1 - k < 8 := by omega
    simp [hk, h32, h8]
  · simp [hk]

/-- Reversed byte by byte and in the order of the bytes, the word is reversed. -/
theorem reverse_bytes (c : UInt32) :
    ((crc32ReverseBit (c >>> 24).toUInt8).toUInt32
      ||| ((crc32ReverseBit (c >>> 16).toUInt8).toUInt32 <<< 8)
      ||| ((crc32ReverseBit (c >>> 8).toUInt8).toUInt32 <<< 16)
      ||| ((crc32ReverseBit c.toUInt8).toUInt32 <<< 24)).toBitVec = c.toBitVec.reverse := by
  refine BitVec.eq_of_getLsbD_eq fun i hi => ?_
  rw [BitVec.getLsbD_reverse, BitVec.getMsbD_eq_getLsbD]
  show (((crc32ReverseBit ⟨(c.toBitVec >>> 24).setWidth 8⟩).toBitVec.setWidth 32)
      ||| (((crc32ReverseBit ⟨(c.toBitVec >>> 16).setWidth 8⟩).toBitVec.setWidth 32) <<< 8)
      ||| (((crc32ReverseBit ⟨(c.toBitVec >>> 8).setWidth 8⟩).toBitVec.setWidth 32) <<< 16)
      ||| (((crc32ReverseBit ⟨(c.toBitVec >>> 0).setWidth 8⟩).toBitVec.setWidth 32) <<< 24)).getLsbD i
    = _
  simp only [BitVec.getLsbD_or, BitVec.getLsbD_shiftLeft, reverseBit_byte]
  -- the byte the bit lies in
  rcases (by omega : i < 8 ∨ (8 ≤ i ∧ i < 16) ∨ (16 ≤ i ∧ i < 24) ∨ 24 ≤ i) with h | h | h | h
  · have h16 : i < 16 := by omega
    have h24 : i < 24 := by omega
    have hat : 24 + (7 - i) = 31 - i := by omega
    simp [hi, h, h16, h24, hat]
  · have h8 : ¬ i < 8 := by omega
    have h8' : i - 8 < 8 := by omega
    have h24 : i < 24 := by omega
    have hat : 16 + (7 - (i - 8)) = 31 - i := by omega
    simp [hi, h8, h8', h.2, h24, hat]
  · have h8 : ¬ i < 8 := by omega
    have h8' : ¬ i - 8 < 8 := by omega
    have h16 : ¬ i < 16 := by omega
    have h16' : i - 16 < 8 := by omega
    have hat : 8 + (7 - (i - 16)) = 31 - i := by omega
    simp [hi, h8, h8', h16, h16', h.2, hat]
  · have h8 : ¬ i < 8 := by omega
    have h8' : ¬ i - 8 < 8 := by omega
    have h16 : ¬ i < 16 := by omega
    have h16' : ¬ i - 16 < 8 := by omega
    have h24 : ¬ i < 24 := by omega
    have h24' : i - 24 < 8 := by omega
    have hat : 7 - (i - 24) = 31 - i := by omega
    simp [hi, h8, h8', h16, h16', h24, h24', hat]

/-- An entry of the table, reflected, is what the bits of the index leave. -/
theorem tableEntry_eq (i : UInt8) :
    (crc32TableEntry i).toBitVec.reverse = Crc.run poly 0#32 (byteBits i) := by
  have h : (crc32TableEntry i).toBitVec = (tableShifts i).toBitVec.reverse :=
    reverse_bytes (tableShifts i)
  rw [h, BitVec.reverse_reverse_eq, tableShifts_eq]

/-! ## A byte at a time -/

theorem reverse_xor (x y : BitVec 32) : (x ^^^ y).reverse = x.reverse ^^^ y.reverse := by
  refine BitVec.eq_of_getLsbD_eq fun i hi => ?_
  simp only [BitVec.getLsbD_reverse, BitVec.getLsbD_xor, BitVec.getMsbD_eq_getLsbD]
  simp [hi]

theorem reverse_shift (x : BitVec 32) : (x >>> 8).reverse = x.reverse <<< 8 := by
  refine BitVec.eq_of_getLsbD_eq fun i hi => ?_
  rw [BitVec.getLsbD_reverse, BitVec.getLsbD_shiftLeft, BitVec.getLsbD_reverse,
    BitVec.getMsbD_eq_getLsbD, BitVec.getMsbD_eq_getLsbD, BitVec.getLsbD_ushiftRight]
  rcases Nat.lt_or_ge i 8 with h | h
  · have hout : 32 ≤ 8 + (32 - 1 - i) := by omega
    rw [BitVec.getLsbD_of_ge _ _ hout]
    simp [h]
  · have hat : 8 + (32 - 1 - i) = 32 - 1 - (i - 8) := by omega
    have hlt : i - 8 < 32 := by omega
    have hge : ¬ i < 8 := by omega
    rw [hat]
    simp [hi, hge, hlt]

/-- The byte of the register that the index is made from. -/
theorem top_reverse (c : UInt32) : Crc.top 8 c.toBitVec.reverse = byteBits c.toUInt8 := by
  rw [Crc.top_eq]
  refine List.map_congr_left fun k hk => ?_
  have hk8 : k < 8 := List.mem_range.mp hk
  have hk32 : k < 32 := by omega
  show c.toBitVec.reverse.getMsbD k = (c.toBitVec.setWidth 8).getLsbD k
  rw [BitVec.getMsbD_reverse, BitVec.getLsbD_setWidth, decide_eq_true hk8, Bool.true_and]

theorem byteBits_xor (a b : UInt8) :
    byteBits (a ^^^ b) = List.zipWith (· ^^ ·) (byteBits a) (byteBits b) := by
  simp [byteBits, List.range_succ]

/-- **One byte of `getcrc32`** is eight bits into the register. -/
theorem crc32Step_eq (c : UInt32) (b : UInt8) :
    (crc32Step c b).toBitVec.reverse = Crc.run poly c.toBitVec.reverse (byteBits b) := by
  have hstep : (crc32Step c b).toBitVec
      = (crc32TableEntry (c.toUInt8 ^^^ b)).toBitVec ^^^ (c.toBitVec >>> 8) := rfl
  rw [hstep, reverse_xor, reverse_shift, tableEntry_eq, byteBits_xor, ← top_reverse,
    Crc.run_absorb poly c.toBitVec.reverse, length_byteBits, BitVec.xor_comm]

theorem foldl_crc32Step (bs : List UInt8) (c : UInt32) :
    (bs.foldl crc32Step c).toBitVec.reverse = Crc.run poly c.toBitVec.reverse (bits bs) := by
  induction bs generalizing c with
  | nil => rfl
  | cons b bs ih =>
    rw [List.foldl_cons, ih, crc32Step_eq, bits_cons, Crc.run_append]

/-- `getcrc32` over a filled table is the bit-serial CRC-32. -/
theorem getcrc32_eq (bs : List UInt8) : getcrc32 bs = crc32 bs := by
  have h := foldl_crc32Step bs 0xffffffff
  have hones : (0xffffffff : UInt32).toBitVec.reverse = 0xffffffff#32 := by decide +kernel
  rw [hones] at h
  have hfold : (bs.foldl crc32Step 0xffffffff).toBitVec
      = (Crc.run poly 0xffffffff#32 (bits bs)).reverse := by
    rw [← h, BitVec.reverse_reverse_eq]
  refine UInt32.toBitVec_inj.mp ?_
  show ~~~ (bs.foldl crc32Step 0xffffffff).toBitVec = _
  rw [hfold]
  rfl

/-! ## The table over the calls -/

/-- The table is there, or is still to be filled. -/
def Ready (s : Crc32Statics) : Prop :=
  s.bcrc32initialized = 0
    ∨ s.bcrc32initialized = 1
      ∧ s.crc32Table = (List.range 256).map fun i => crc32TableEntry (UInt8.ofNat i)

theorem loop_eq (crc : UInt32) (b : UInt8) :
    getcrc32Loop ((List.range 256).map fun i => crc32TableEntry (UInt8.ofNat i)) crc b
      = crc32Step crc b := by
  have hlt : ((crc ^^^ b.toUInt32) &&& 0xff).toNat < 256 := by
    rw [UInt32.toNat_and]
    exact Nat.lt_of_le_of_lt Nat.and_le_right (by decide)
  have hindex : UInt8.ofNat ((crc ^^^ b.toUInt32) &&& 0xff).toNat = crc.toUInt8 ^^^ b := by
    have hmask : (0xff : UInt32).toUInt8 = -1 := by decide
    show ((crc ^^^ b.toUInt32) &&& 0xff).toUInt8 = _
    rw [UInt32.toUInt8_and, UInt32.toUInt8_xor, UInt8.toUInt8_toUInt32, hmask, UInt8.and_neg_one]
  unfold getcrc32Loop crc32Step
  rw [List.getD_eq_getElem?_getD, List.getElem?_map, List.getElem?_range hlt]
  rw [← hindex]
  rfl

/-- One call leaves the table filled, and is the CRC over a filled table. -/
theorem Ready.call {s : Crc32Statics} (h : Ready s) (buf : List UInt8) :
    (getcrc32Call s buf).1 = getcrc32 buf ∧ Ready (getcrc32Call s buf).2 := by
  have hfill : ∀ t : Crc32Statics,
      t.crc32Table = (List.range 256).map (fun i => crc32TableEntry (UInt8.ofNat i)) →
      ~~~ buf.foldl (getcrc32Loop t.crc32Table) 0xffffffff = getcrc32 buf := by
    intro t ht
    have hloop : getcrc32Loop t.crc32Table = crc32Step := by
      funext c b
      rw [ht]
      exact loop_eq c b
    rw [hloop]
    rfl
  unfold getcrc32Call
  rcases h with h0 | ⟨h1, htable⟩
  · have hne : ¬ s.bcrc32initialized = 1 := by rw [h0]; decide
    rw [if_pos h0, crc32Init, if_neg hne]
    exact ⟨hfill _ rfl, Or.inr ⟨rfl, rfl⟩⟩
  · have hne : ¬ s.bcrc32initialized = 0 := by rw [h1]; decide
    rw [if_neg hne]
    exact ⟨hfill _ htable, Or.inr ⟨h1, htable⟩⟩

theorem ready_afterCalls (calls : List (List UInt8)) : Ready (afterCalls calls) := by
  have hrun : ∀ (cs : List (List UInt8)) (s : Crc32Statics), Ready s →
      Ready (cs.foldl (fun s buf => (getcrc32Call s buf).2) s) := by
    intro cs
    induction cs with
    | nil => exact fun _ h => h
    | cons buf cs ih => exact fun s h => ih _ (h.call buf).2
  exact hrun calls .loaded (Or.inl rfl)

/-- **Whatever calls came before.** -/
theorem call_eq (calls : List (List UInt8)) (bs : List UInt8) :
    (getcrc32Call (afterCalls calls) bs).1 = crc32 bs :=
  ((ready_afterCalls calls).call bs).1.trans (getcrc32_eq bs)

/-! ## What follows -/

theorem bits_le32Bytes (v : UInt32) : bits (le32Bytes v) = (List.range 32).map v.toBitVec.getLsbD := by
  simp [bits, le32Bytes, byteBits, List.range_succ]

/-- Behind its message the CRC is the complement of the register, in the order it falls out. -/
theorem bits_crc (bs : List UInt8) :
    bits (le32Bytes (crc32 bs))
      = (Crc.top 32 (Crc.run poly 0xffffffff#32 (bits bs))).map Bool.not := by
  rw [bits_le32Bytes, Crc.top_eq, List.map_map]
  refine List.map_congr_left fun i hi => ?_
  have h32 : i < 32 := List.mem_range.mp hi
  show (~~~ (Crc.run poly 0xffffffff#32 (bits bs)).reverse).getLsbD i = _
  rw [BitVec.getLsbD_not, BitVec.getLsbD_reverse, decide_eq_true h32, Bool.true_and]
  rfl

theorem crc32_residue (bs : List UInt8) : crc32 (bs ++ le32Bytes (crc32 bs)) = residue := by
  have hconst : (⟨~~~ (Crc.run poly 0#32 (List.replicate 32 true)).reverse⟩ : UInt32) = residue := by
    decide +kernel
  unfold crc32
  rw [bits_append, Crc.run_append]
  have h := bits_crc bs
  unfold crc32 at h
  rw [h, Crc.run_complement]
  exact hconst

theorem crc32_ne {bs bs' : List UInt8} (h : OneBitApart bs bs') : crc32 bs ≠ crc32 bs' := by
  intro heq
  have hlen : (bits bs).length = (bits bs').length := by
    rw [length_bits, length_bits, h.1]
  refine Crc.run_ne_of_one_bit poly (by decide) 0xffffffff#32 _ _ hlen h.2 ?_
  have hnot : ~~~ (Crc.run poly 0xffffffff#32 (bits bs)).reverse
      = ~~~ (Crc.run poly 0xffffffff#32 (bits bs')).reverse := congrArg UInt32.toBitVec heq
  have hrev := congrArg BitVec.reverse (BitVec.not_inj.mp hnot)
  rwa [BitVec.reverse_reverse_eq, BitVec.reverse_reverse_eq] at hrev

/-- **`getcrc32` is the CRC-32**, whatever calls came before: a message with its CRC behind it
gives the fixed residue, and one wrong bit is seen. -/
theorem getcrc32_is_crc32 (calls : List (List UInt8)) (bs : List UInt8) :
    (getcrc32Call (afterCalls calls) bs).1 = crc32 bs
      ∧ (∀ calls', (getcrc32Call (afterCalls calls')
          (bs ++ le32Bytes (getcrc32Call (afterCalls calls) bs).1)).1 = residue)
      ∧ ∀ calls' bs', OneBitApart bs bs' →
          (getcrc32Call (afterCalls calls) bs).1 ≠ (getcrc32Call (afterCalls calls') bs').1 := by
  refine ⟨call_eq calls bs, fun calls' => ?_, fun calls' bs' h => ?_⟩
  · rw [call_eq, call_eq]
    exact crc32_residue bs
  · rw [call_eq, call_eq]
    exact crc32_ne h

/-- One call has filled the table, and the last bit of the message is lost. -/
theorem getcrc32_is_crc32_sample :
    (getcrc32Call (afterCalls [[1]]) [0x31, 0x32]).1
      ≠ (getcrc32Call (afterCalls []) [0x31, 0x33]).1 :=
  (getcrc32_is_crc32 [[1]] [0x31, 0x32]).2.2 [] [0x31, 0x33] ⟨rfl, by decide⟩

end Crc32

end Rtl8812au
