import Rtl8812au.Lib.Mem

/-!
# Block cipher modes over a memory

Counter mode and CBC-MAC over 16-byte blocks, in place on a memory, with a short
last block. The counter blocks may be computed from the memory itself, as long as
they only depend on what lies before the payload.
-/

namespace BlockMode

/-- A 16-byte block. -/
abbrev Block := Fin 16 → UInt8

/-- Byte-wise exclusive or. -/
def bitwiseXor (a b : Block) : Block := fun i => a i ^^^ b i

/-- The block at address `p`. -/
def blockAt (m : Mem) (p : Nat) : Block := fun i => m (p + i)

/-- The first `r` bytes at address `p`, padded with zeros. -/
def padded (m : Mem) (p r : Nat) : Block := fun i => if i < r then m (p + i) else 0

/-- Store the first `n` bytes of a block. -/
def storeBlock (m : Mem) (p n : Nat) (b : Block) : Mem := fun k =>
  if h : p ≤ k ∧ k < p + n ∧ k < p + 16 then b ⟨k - p, by omega⟩ else m k

/-- Two memories agree below address `p`. -/
def SameBelow (p : Nat) (m m' : Mem) : Prop := ∀ k < p, m k = m' k

theorem SameBelow.symm {p : Nat} {m m' : Mem} (h : SameBelow p m m') : SameBelow p m' m :=
  fun k hk => (h k hk).symm

theorem SameBelow.trans {p : Nat} {m m' m'' : Mem} (h : SameBelow p m m')
    (h' : SameBelow p m' m'') : SameBelow p m m'' :=
  fun k hk => (h k hk).trans (h' k hk)

theorem storeBlock_inside {m : Mem} {p n i : Nat} {b : Block} (h : i < n) (h' : i < 16) :
    storeBlock m p n b (p + i) = b ⟨i, h'⟩ := by
  unfold storeBlock
  rw [dif_pos (by omega)]
  congr 1
  exact Fin.ext (Nat.add_sub_cancel_left p i)

theorem storeBlock_outside {m : Mem} {p n k : Nat} {b : Block} (h : k < p ∨ p + n ≤ k) :
    storeBlock m p n b k = m k := by
  unfold storeBlock
  rw [dif_neg (by omega)]

theorem storeBlock_below {m : Mem} {p q n : Nat} {b : Block} (h : q ≤ p) :
    SameBelow q (storeBlock m p n b) m :=
  fun _ hk => storeBlock_outside (Or.inl (by omega))

/-! ## Counter mode -/

section Ctr

variable (ks : Mem → Nat → Block)

/-- Whole blocks `i .. i + cnt` of the payload at `p`. -/
def ctrBlocks (p : Nat) : (i cnt : Nat) → Mem → Mem
  | _, 0, m => m
  | i, cnt + 1, m =>
    ctrBlocks p (i + 1) cnt
      (storeBlock m (p + 16 * i) 16 (bitwiseXor (ks m (i + 1)) (blockAt m (p + 16 * i))))

/-- The `n` bytes of payload at `p`: whole blocks, then a short one if there is one. -/
def ctrPayload (p n : Nat) (m : Mem) : Mem :=
  let m := ctrBlocks ks p 0 (n / 16) m
  let q := p + 16 * (n / 16)
  if 0 < n % 16 then
    storeBlock m q (n % 16) (bitwiseXor (ks m (n / 16 + 1)) (padded m q (n % 16)))
  else m

/-- Byte `j` of the key stream. -/
def stream (m : Mem) (j : Nat) : UInt8 :=
  ks m (j / 16 + 1) ⟨j % 16, Nat.mod_lt _ (by omega)⟩

/-- The counter blocks only depend on the memory below `p`. -/
def Below (p : Nat) : Prop := ∀ m m', SameBelow p m m' → ks m = ks m'

variable {ks} {p : Nat}

theorem stream_congr (hk : Below ks p) {m m' : Mem} (h : SameBelow p m m') (j : Nat) :
    stream ks m j = stream ks m' j := by
  unfold stream
  rw [hk m m' h]

theorem stream_block (m : Mem) {i j : Nat} (hj : j < 16) :
    stream ks m (16 * i + j) = ks m (i + 1) ⟨j, hj⟩ := by
  unfold stream
  have h1 : (16 * i + j) / 16 = i := by omega
  have h2 : (16 * i + j) % 16 = j := by omega
  simp only [h1, h2]

/-- One block of counter mode, byte by byte. -/
theorem storeXor_apply {m : Mem} {i n : Nat} {c : Block} (hn : n ≤ 16)
    (hc : ∀ (j : Nat) (hj : j < 16), j < n → c ⟨j, hj⟩ = m (p + 16 * i + j)) (k : Nat) :
    storeBlock m (p + 16 * i) n (bitwiseXor (ks m (i + 1)) c) k
      = if p + 16 * i ≤ k ∧ k < p + 16 * i + n then stream ks m (k - p) ^^^ m k else m k := by
  by_cases hk : p + 16 * i ≤ k ∧ k < p + 16 * i + n
  · obtain ⟨j, rfl⟩ := Nat.exists_eq_add_of_le hk.1
    have hj : j < n := by omega
    rw [if_pos hk, storeBlock_inside hj (by omega), bitwiseXor, hc j (by omega) hj]
    have hsub : p + 16 * i + j - p = 16 * i + j := by omega
    rw [hsub, stream_block m (by omega)]
  · rw [if_neg hk, storeBlock_outside (by omega)]

theorem ctrBlocks_apply (hks : Below ks p) : ∀ (cnt i : Nat) (m : Mem) (k : Nat),
    ctrBlocks ks p i cnt m k
      = if p + 16 * i ≤ k ∧ k < p + 16 * (i + cnt) then stream ks m (k - p) ^^^ m k else m k
  | 0, i, m, k => by
      rw [ctrBlocks, if_neg (by omega)]
  | cnt + 1, i, m, k => by
      have hhere := @storeXor_apply ks p m i 16 (blockAt m (p + 16 * i)) (by omega)
        (fun _ _ _ => rfl)
      have hbelow : SameBelow p (storeBlock m (p + 16 * i) 16
          (bitwiseXor (ks m (i + 1)) (blockAt m (p + 16 * i)))) m := storeBlock_below (by omega)
      rw [ctrBlocks, ctrBlocks_apply hks cnt (i + 1), stream_congr hks hbelow, hhere]
      -- the address is in this block, in a later one, or in none
      by_cases h1 : p + 16 * i ≤ k ∧ k < p + 16 * i + 16
      · rw [if_neg (by omega), if_pos h1, if_pos (by omega)]
      · by_cases h2 : p + 16 * (i + 1) ≤ k ∧ k < p + 16 * (i + 1 + cnt)
        · rw [if_pos h2, if_neg h1, if_pos (by omega)]
        · rw [if_neg h2, if_neg h1, if_neg (by omega)]

/-- **Counter mode xors the key stream into the payload and touches nothing else.** -/
theorem ctrPayload_apply (hks : Below ks p) (n : Nat) (m : Mem) (k : Nat) :
    ctrPayload ks p n m k
      = if p ≤ k ∧ k < p + n then stream ks m (k - p) ^^^ m k else m k := by
  have hblocks := ctrBlocks_apply hks (n / 16) 0 m
  have hbelow : SameBelow p (ctrBlocks ks p 0 (n / 16) m) m := by
    intro k hk
    rw [hblocks, if_neg (by omega)]
  have hdm := Nat.div_add_mod n 16
  unfold ctrPayload
  split
  · have hhere := @storeXor_apply ks p (ctrBlocks ks p 0 (n / 16) m) (n / 16) (n % 16)
      (padded (ctrBlocks ks p 0 (n / 16) m) (p + 16 * (n / 16)) (n % 16)) (by omega)
      (fun j _ hjn => by simp [padded, hjn])
    rw [hhere, stream_congr hks hbelow, hblocks]
    by_cases h1 : p + 16 * (n / 16) ≤ k ∧ k < p + 16 * (n / 16) + n % 16
    · rw [if_pos h1, if_neg (by omega), if_pos (by omega)]
    · rw [if_neg h1]
      by_cases h2 : p + 16 * 0 ≤ k ∧ k < p + 16 * (0 + n / 16)
      · rw [if_pos h2, if_pos (by omega)]
      · rw [if_neg h2, if_neg (by omega)]
  · rw [hblocks]
    by_cases h2 : p ≤ k ∧ k < p + n
    · rw [if_pos h2, if_pos (by omega)]
    · rw [if_neg h2, if_neg (by omega)]

theorem ctrPayload_below (hks : Below ks p) (n : Nat) (m : Mem) :
    SameBelow p (ctrPayload ks p n m) m := by
  intro k hk
  rw [ctrPayload_apply hks, if_neg (by omega)]

theorem ctrPayload_above (hks : Below ks p) {n k : Nat} (m : Mem) (h : p + n ≤ k) :
    ctrPayload ks p n m k = m k := by
  rw [ctrPayload_apply hks, if_neg (by omega)]

/-- **Counter mode undoes itself.** -/
theorem ctrPayload_ctrPayload (hks : Below ks p) (n : Nat) (m : Mem) :
    ctrPayload ks p n (ctrPayload ks p n m) = m := by
  funext k
  rw [ctrPayload_apply hks, stream_congr hks (ctrPayload_below hks n m), ctrPayload_apply hks]
  split
  · rw [← UInt8.xor_assoc, UInt8.xor_self, UInt8.zero_xor]
  · rfl

end Ctr

/-! ## CBC-MAC -/

section Mac

variable (E : Block → Block)

/-- Chain `cnt` whole blocks from address `p` into `x`. -/
def macBlocks (m : Mem) : (p cnt : Nat) → Block → Block
  | _, 0, x => x
  | p, cnt + 1, x => macBlocks m (p + 16) cnt (E (bitwiseXor x (blockAt m p)))

/-- Chain the `n` bytes at `p` into `x`, the last block padded with zeros. -/
def cbcMac (m : Mem) (p n : Nat) (x : Block) : Block :=
  let x := macBlocks E m p (n / 16) x
  if 0 < n % 16 then E (bitwiseXor x (padded m (p + 16 * (n / 16)) (n % 16))) else x

variable {E}

theorem macBlocks_congr {m m' : Mem} : ∀ (cnt p : Nat) (x : Block),
    (∀ k, p ≤ k → k < p + 16 * cnt → m k = m' k) →
      macBlocks E m p cnt x = macBlocks E m' p cnt x
  | 0, _, _, _ => rfl
  | cnt + 1, p, x, h => by
      have hb : blockAt m p = blockAt m' p := by
        funext i
        exact h _ (by omega) (by omega)
      rw [macBlocks, macBlocks, hb]
      exact macBlocks_congr cnt (p + 16) _ (fun k h1 h2 => h k (by omega) (by omega))

/-- **The MAC depends on the payload only.** -/
theorem cbcMac_congr {m m' : Mem} {p n : Nat} (x : Block)
    (h : ∀ k, p ≤ k → k < p + n → m k = m' k) : cbcMac E m p n x = cbcMac E m' p n x := by
  have hdm := Nat.div_add_mod n 16
  have hp : padded m (p + 16 * (n / 16)) (n % 16) = padded m' (p + 16 * (n / 16)) (n % 16) := by
    funext i
    unfold padded
    split
    · exact h _ (by omega) (by omega)
    · rfl
  unfold cbcMac
  rw [macBlocks_congr (n / 16) p x (fun k h1 h2 => h k h1 (by omega)), hp]

end Mac

end BlockMode
