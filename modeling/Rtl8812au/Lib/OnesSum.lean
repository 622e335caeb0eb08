import Rtl8812au.Lib.Mem

/-!
# One's complement sums

The sum of the 16-bit words of a byte string, the first byte of each the low one and an odd end filled
up with zero, and its fold to 16 bits. Everything a checksum of such sums depends on is the sum modulo
65535 and whether it is zero.
-/

/-- The sum of the words. -/
def wordSum : List UInt8 → Nat
  | [] => 0
  | [x] => x.toNat
  | x :: y :: bs => x.toNat + y.toNat * 256 + wordSum bs

/-- The carries are added in until there are none. -/
def foldCarries (s : Nat) : Nat :=
  if h : s < 65536 then s else foldCarries (s % 65536 + s / 65536)
termination_by s
decreasing_by omega

/-- The words sum up to minus zero: what a receiver asks of a checked range. -/
def SumsUp (s : Nat) : Prop := foldCarries s = 65535

instance (s : Nat) : Decidable (SumsUp s) := inferInstanceAs (Decidable (_ = _))

/-! ## Folding -/

theorem foldCarries_of_lt {s : Nat} (h : s < 65536) : foldCarries s = s := by
  rw [foldCarries, dif_pos h]

theorem foldCarries_of_ge {s : Nat} (h : ¬ s < 65536) :
    foldCarries s = foldCarries (s % 65536 + s / 65536) := by
  rw [foldCarries, dif_neg h]

theorem foldCarries_lt (s : Nat) : foldCarries s < 65536 := by
  induction s using foldCarries.induct with
  | case1 s h => rwa [foldCarries_of_lt h]
  | case2 s h ih => rwa [foldCarries_of_ge h]

theorem foldCarries_mod (s : Nat) : foldCarries s % 65535 = s % 65535 := by
  induction s using foldCarries.induct with
  | case1 s h => rw [foldCarries_of_lt h]
  | case2 s h ih =>
      rw [foldCarries_of_ge h, ih]
      omega

theorem foldCarries_pos {s : Nat} (hs : 0 < s) : 0 < foldCarries s := by
  induction s using foldCarries.induct with
  | case1 s h => rwa [foldCarries_of_lt h]
  | case2 s h ih =>
      rw [foldCarries_of_ge h]
      exact ih (by omega)

/-- **A sum that is not zero sums up exactly when it vanishes modulo 65535.** -/
theorem sumsUp_iff {s : Nat} (hs : 0 < s) : SumsUp s ↔ s % 65535 = 0 := by
  have hlt := foldCarries_lt s
  have hmod := foldCarries_mod s
  have hpos := foldCarries_pos hs
  unfold SumsUp
  omega

/-! ## Sums of parts -/

/-- The sum of a string that starts with whole words. -/
theorem wordSum_append {xs : List UInt8} (h : xs.length % 2 = 0) (ys : List UInt8) :
    wordSum (xs ++ ys) = wordSum xs + wordSum ys := by
  induction xs using wordSum.induct with
  | case1 => exact (Nat.zero_add _).symm
  | case2 x => cases h
  | case3 x y xs ih =>
      have hrest := ih (by simp only [List.length_cons] at h; omega)
      show x.toNat + y.toNat * 256 + wordSum (xs ++ ys) = x.toNat + y.toNat * 256 + wordSum xs + wordSum ys
      omega

theorem wordSum_two (x y : UInt8) : wordSum [x, y] = x.toNat + y.toNat * 256 := rfl

theorem wordSum_read_two (m : Mem) (a : Nat) : wordSum (m.read a 2) = m.le16 a := rfl

/-- **A word that is written over** takes the place of the old one in the sum. -/
theorem wordSum_read_write {m : Mem} {a j n : Nat} {bs : List UInt8} (hbs : bs.length = 2)
    (h : 2 * j + 2 ≤ n) :
    wordSum ((m.write (a + 2 * j) bs).read a n) + m.le16 (a + 2 * j)
      = wordSum (m.read a n) + wordSum bs := by
  obtain ⟨d, rfl⟩ := Nat.exists_eq_add_of_le h
  have hsplit : ∀ m' : Mem, wordSum (m'.read a (2 * j + 2 + d))
      = wordSum (m'.read a (2 * j)) + wordSum (m'.read (a + 2 * j) 2)
        + wordSum (m'.read (a + 2 * j + 2) d) := by
    intro m'
    have hwords : (m'.read a (2 * j + 2)).length % 2 = 0 := by
      rw [Mem.length_read]
      omega
    have hbefore : (m'.read a (2 * j)).length % 2 = 0 := by
      rw [Mem.length_read]
      omega
    rw [Mem.read_add m' a (2 * j + 2), wordSum_append hwords, Mem.read_add m' a (2 * j), wordSum_append hbefore,
      Nat.add_assoc a]
  have hself : (m.write (a + 2 * j) bs).read (a + 2 * j) 2 = bs := by
    rw [← hbs]
    exact Mem.read_write_self m _ bs
  rw [hsplit, hsplit m, hself, Mem.read_write_disjoint (Or.inl (Nat.le_refl _)),
    Mem.read_write_disjoint (Or.inr (by omega)), wordSum_read_two]
  omega
