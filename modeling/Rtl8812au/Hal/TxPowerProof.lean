import Rtl8812au.Hal.TxPower

/-!
# When the power index is the clamped sum

The sum is kept modulo 256 and read without its sign, so what is below 0 looks like what is far above 63,
and a reduction that goes below 0 does too: both end at the maximum. The index is right where the sum,
less its reduction, stays between 0 and 255; it is right by accident where the sum is 256 below the
reduction.
-/

namespace Rtl8812au.Hal

/-! ## Clamping -/

/-- Clamped to what the device takes. -/
def clampIndex (x : Int) : Int := max 0 (min x 63)

/-- The clamped sum, less the reduction, clamped again. -/
def exactIndex (sum reduction : Int) : Int := clampIndex (clampIndex sum - reduction)

/-- What becomes of a sum in eight bits. -/
def wrappedIndex (sum reduction : Int) : Int :=
  if reduction ≤ min (sum % 256) 63 then min (sum % 256) 63 - reduction else 63

/-- The sum covers the reduction and has eight bits, or is 256 below the reduction. -/
def InRange (sum reduction : Int) : Prop := (reduction ≤ sum ∧ sum ≤ 255) ∨ sum + 256 = reduction

theorem clampIndex_mono {x y : Int} (h : x ≤ y) : clampIndex x ≤ clampIndex y := by
  unfold clampIndex
  omega

/-- **The clamped sum is monotone**, and the more is taken off the less is left. -/
theorem exactIndex_mono {s s' k k' : Int} (hs : s ≤ s') (hk : k' ≤ k) : exactIndex s k ≤ exactIndex s' k' :=
  clampIndex_mono (Int.sub_le_sub (clampIndex_mono hs) hk)

section

variable {s m k : Int}

/-- **In eight bits the sum is clamped** exactly in this range. -/
theorem wrapped_exact_iff (hlo : -256 ≤ s) (hhi : s < 319) (hk : 0 ≤ k) (hk18 : k ≤ 18) :
    wrappedIndex s k = exactIndex s k ↔ InRange s k := by
  unfold wrappedIndex exactIndex clampIndex InRange
  split
  · omega
  · omega

/-- Without a difference `m` of the sum nothing else comes out. -/
def DropsUnseen (s m k : Int) : Prop :=
  (s < 0 ∧ 63 ≤ s + m) ∨ (k ≤ s ∧ (m = 0 ∨ (63 ≤ s ∧ 63 ≤ s + m) ∨ (s = k ∧ s + m ≤ k)))

theorem wrapped_dropped_iff (hlo : -128 ≤ s) (hhi : s < 191) (hk : 0 ≤ k) (hk18 : k ≤ 18) :
    wrappedIndex s k = exactIndex (s + m) k ↔ DropsUnseen s m k := by
  unfold wrappedIndex exactIndex clampIndex DropsUnseen
  split
  · omega
  · omega

end

/-! ## Eight bits -/

/-- What is taken off for less power. -/
def reduction (txPwrInPercentage : UInt8) : Nat :=
  if txPwrInPercentage &&& 1 ≠ 0 then 18
  else if txPwrInPercentage &&& 2 ≠ 0 then 12
  else if txPwrInPercentage &&& 4 ≠ 0 then 6
  else 0

theorem reduction_le (pct : UInt8) : reduction pct ≤ 18 := by
  unfold reduction
  split
  · exact Nat.le_refl _
  · split
    · decide
    · split
      · decide
      · decide

/-- The reduction as it is taken off. -/
theorem adjust_reduction (pct idx : UInt8) :
    phyTxPwrAdjInPercentage pct idx
      = (if 63 < (if 63 < idx then 63 else idx) - UInt8.ofNat (reduction pct) then 63
        else (if 63 < idx then 63 else idx) - UInt8.ofNat (reduction pct)) := by
  unfold phyTxPwrAdjInPercentage reduction
  dsimp only
  split
  · rfl
  · split
    · rfl
    · split
      · rfl
      · have hzero : UInt8.ofNat 0 = 0 := rfl
        rw [hzero, UInt8.sub_zero]

theorem min_toNat (idx : UInt8) : (if 63 < idx then 63 else idx).toNat = min idx.toNat 63 := by
  have h63 : (63 : UInt8).toNat = 63 := rfl
  split
  case isTrue h =>
    have hlt := UInt8.lt_iff_toNat_lt.mp h
    omega
  case isFalse h =>
    have hle : ¬ (63 : UInt8).toNat < idx.toNat := fun hlt => h (UInt8.lt_iff_toNat_lt.mpr hlt)
    omega

/-- **What the reduction leaves** of an unsigned index. -/
theorem adjust_toNat (pct idx : UInt8) :
    (phyTxPwrAdjInPercentage pct idx).toNat
      = if reduction pct ≤ min idx.toNat 63 then min idx.toNat 63 - reduction pct else 63 := by
  have hk := reduction_le pct
  have hred : (UInt8.ofNat (reduction pct)).toNat = reduction pct := by
    rw [UInt8.toNat_ofNat']
    exact Nat.mod_eq_of_lt (by omega)
  rw [adjust_reduction, min_toNat, UInt8.toNat_sub, min_toNat, hred]
  split
  · omega
  · omega

/-- A signed number read without its sign. -/
theorem toUInt8_toNat (x : Int8) : (x.toUInt8.toNat : Int) = x.toInt % 256 := by
  have hlt := x.toUInt8.toNat_lt
  have hcond : x.toInt = if 2 * x.toUInt8.toNat < 2 ^ 8 then (x.toUInt8.toNat : Int)
      else (x.toUInt8.toNat : Int) - ((2 ^ 8 : Nat) : Int) := BitVec.toInt_eq_toNat_cond x.toBitVec
  rw [hcond]
  split
  · omega
  · omega

/-- **A sum in eight signed bits**, read without its sign. -/
theorem sum_toNat (b : UInt8) (d o : Int8) :
    ((b.toInt8 + d + o).toUInt8.toNat : Int) = (b.toNat + d.toInt + o.toInt) % 256 := by
  have hd := toUInt8_toNat d
  have ho := toUInt8_toNat o
  rw [Int8.toUInt8_add, Int8.toUInt8_add, UInt8.toUInt8_toInt8, UInt8.toNat_add, UInt8.toNat_add]
  omega

/-- The sign of an index that is at most 63. -/
theorem toInt_of_le {idx : UInt8} (h : idx.toNat ≤ 63) : idx.toInt8.toInt = idx.toNat := by
  have hcond : idx.toInt8.toInt = if 2 * idx.toNat < 2 ^ 8 then (idx.toNat : Int)
      else (idx.toNat : Int) - ((2 ^ 8 : Nat) : Int) := BitVec.toInt_eq_toNat_cond idx.toBitVec
  rw [hcond, if_pos (by omega)]

/-- The last comparison with the maximum does nothing any more. -/
theorem last_clamp {idx : UInt8} (h : idx.toNat ≤ 63) :
    (if maxPowerIndex < idx.toInt8 then maxPowerIndex else idx.toInt8) = idx.toInt8 := by
  refine if_neg ?_
  intro hlt
  have hint := Int8.lt_iff_toInt_lt.mp hlt
  have hmax : maxPowerIndex.toInt = 63 := by decide
  rw [hmax, toInt_of_le h] at hint
  omega

/-! ## The index -/

section

variable (h : TxPower) (q : PowerQuery)

/-- The lower one of the difference and the limit. -/
def limitedDifference : Int := min (differenceOf h q).toInt (limitOf h q).toInt

/-- Over USB 2.0 an 8812AU takes no difference, but with the reduced VHT rates. -/
def TakesDifference : Prop := isReducedVhtRate q.rate ∨ ¬ (h.usbSpeed2 ∧ h.is8812AU)

instance : Decidable (TakesDifference h q) := inferInstanceAs (Decidable (_ ∨ _))

/-- The difference that is taken. -/
def takenDifference : Int := if TakesDifference h q then limitedDifference h q else 0

/-- The sum of the base, the limited difference and the offset. -/
def sumOf : Int := (baseOf h q).toNat + limitedDifference h q + (offsetOf h q).toInt

/-- The sum with the difference that is taken. -/
def takenSum : Int := (baseOf h q).toNat + takenDifference h q + (offsetOf h q).toInt

variable {h q}

theorem limited_toInt :
    (if limitOf h q < differenceOf h q then limitOf h q else differenceOf h q).toInt
      = limitedDifference h q := by
  unfold limitedDifference
  split
  case isTrue hlt =>
    have hint := Int8.lt_iff_toInt_lt.mp hlt
    omega
  case isFalse hnot =>
    have hint : ¬ (limitOf h q).toInt < (differenceOf h q).toInt := fun hi =>
      hnot (Int8.lt_iff_toInt_lt.mpr hi)
    omega

/-- The difference as eight bits. -/
theorem taken_eq : ∃ d : Int8, d.toInt = takenDifference h q
    ∧ (if isReducedVhtRate q.rate then
        (baseOf h q).toInt8 + (if limitOf h q < differenceOf h q then limitOf h q else differenceOf h q)
      else
        (baseOf h q).toInt8 + (if h.usbSpeed2 ∧ h.is8812AU then 0
          else if limitOf h q < differenceOf h q then limitOf h q else differenceOf h q))
      = (baseOf h q).toInt8 + d := by
  unfold takenDifference
  by_cases hvht : isReducedVhtRate q.rate
  · have htakes : TakesDifference h q := Or.inl hvht
    rw [if_pos hvht, if_pos htakes]
    exact ⟨_, limited_toInt, rfl⟩
  · rw [if_neg hvht]
    by_cases husb : h.usbSpeed2 ∧ h.is8812AU
    · have hnone : ¬ TakesDifference h q := fun hor => hor.elim hvht (fun hn => hn husb)
      rw [if_pos husb, if_neg hnone]
      exact ⟨0, rfl, rfl⟩
    · have htakes : TakesDifference h q := Or.inr husb
      rw [if_neg husb, if_pos htakes]
      exact ⟨_, limited_toInt, rfl⟩

/-- On a test chip an odd index becomes even. -/
theorem even_index {idx : UInt8} (hle : idx.toNat ≤ 63) (normalChip : Bool) :
    ((if idx.toInt8 % 2 = 1 ∧ normalChip = false then idx.toInt8 - 1 else idx.toInt8).toUInt8.toNat : Int)
      = idx.toNat - if normalChip = true then 0 else (idx.toNat : Int) % 2 := by
  have hint := toInt_of_le hle
  have hmod : idx.toInt8 % 2 = 1 ↔ (idx.toNat : Int) % 2 = 1 := by
    rw [← Int8.toInt_inj, Int8.toInt_mod, hint, show (2 : Int8).toInt = 2 from rfl,
      show (1 : Int8).toInt = 1 from rfl, Int.tmod_eq_emod_of_nonneg (Int.natCast_nonneg _)]
  cases normalChip with
  | true => simp
  | false =>
      by_cases hodd : (idx.toNat : Int) % 2 = 1
      · have hsub : (idx.toInt8 - 1).toInt = idx.toNat - 1 := by
          rw [Int8.toInt_sub, hint, show (1 : Int8).toInt = 1 from rfl]
          exact Int.bmod_eq_of_le (by omega) (by omega)
        rw [if_pos ⟨hmod.mpr hodd, rfl⟩, toUInt8_toNat, hsub, if_neg Bool.false_ne_true]
        omega
      · rw [if_neg fun hand => hodd (hmod.mp hand.1), UInt8.toUInt8_toInt8, if_neg Bool.false_ne_true]
        omega

/-- **What the function returns.** -/
theorem index_eq_even : ((phyGetTxPowerIndex8812A h q).toNat : Int)
    = wrappedIndex (takenSum h q) (reduction h.txPwrInPercentage)
      - if h.normalChip = true then 0
        else wrappedIndex (takenSum h q) (reduction h.txPwrInPercentage) % 2 := by
  obtain ⟨d, hd, htaken⟩ := @taken_eq h q
  have hsum := sum_toNat (baseOf h q) d (offsetOf h q)
  have hadj := adjust_toNat h.txPwrInPercentage ((baseOf h q).toInt8 + d + offsetOf h q).toUInt8
  have hle : (phyTxPwrAdjInPercentage h.txPwrInPercentage
      ((baseOf h q).toInt8 + d + offsetOf h q).toUInt8).toNat ≤ 63 := by
    rw [hadj]
    split
    · omega
    · exact Nat.le_refl _
  have hwrap : ((phyTxPwrAdjInPercentage h.txPwrInPercentage
      ((baseOf h q).toInt8 + d + offsetOf h q).toUInt8).toNat : Int)
        = wrappedIndex (takenSum h q) (reduction h.txPwrInPercentage) := by
    rw [hadj]
    unfold wrappedIndex takenSum
    rw [← hd]
    split
    · rw [if_pos (by omega)]
      omega
    · rw [if_neg (by omega)]
      rfl
  unfold phyGetTxPowerIndex8812A
  dsimp only
  rw [htaken, last_clamp hle, ← hwrap]
  exact even_index hle h.normalChip

/-- A normal chip takes odd indexes too. -/
theorem index_eq (hchip : h.normalChip = true) :
    ((phyGetTxPowerIndex8812A h q).toNat : Int)
      = wrappedIndex (takenSum h q) (reduction h.txPwrInPercentage) := by
  rw [index_eq_even, if_pos hchip, Int.sub_zero]

/-- Where the function gives the clamped sum with the difference in it: where a difference is taken, the
sum is in range; where it is not, leaving it out makes no difference. -/
def SumFits (h : TxPower) (q : PowerQuery) : Prop :=
  if TakesDifference h q then InRange (sumOf h q) (reduction h.txPwrInPercentage)
  else
    DropsUnseen ((baseOf h q).toNat + (offsetOf h q).toInt) (limitedDifference h q)
      (reduction h.txPwrInPercentage)

theorem reduction_bounds (pct : UInt8) : 0 ≤ (reduction pct : Int) ∧ (reduction pct : Int) ≤ 18 := by
  have hle := reduction_le pct
  omega

theorem takenSum_bounds (hbase : (baseOf h q).toNat ≤ 63) :
    -256 ≤ takenSum h q ∧ takenSum h q < 319 := by
  have hd := (differenceOf h q).le_toInt
  have hd' := (differenceOf h q).toInt_lt
  have hl := (limitOf h q).le_toInt
  have hl' := (limitOf h q).toInt_lt
  have ho := (offsetOf h q).le_toInt
  have ho' := (offsetOf h q).toInt_lt
  unfold takenSum takenDifference limitedDifference
  split
  · omega
  · omega

/-- **The index is the clamped sum of what is taken** exactly in range. -/
theorem taken_exact_iff (hchip : h.normalChip = true) (hbase : (baseOf h q).toNat ≤ 63) :
    ((phyGetTxPowerIndex8812A h q).toNat : Int) = exactIndex (takenSum h q) (reduction h.txPwrInPercentage)
      ↔ InRange (takenSum h q) (reduction h.txPwrInPercentage) := by
  obtain ⟨hk, hk18⟩ := reduction_bounds h.txPwrInPercentage
  obtain ⟨hlo, hhi⟩ := takenSum_bounds hbase
  rw [index_eq hchip]
  exact wrapped_exact_iff hlo hhi hk hk18

/-- **The index is the clamped sum of base, limited difference and offset** exactly where this fits. -/
theorem index_exact_iff (hchip : h.normalChip = true) (hbase : (baseOf h q).toNat ≤ 63) :
    ((phyGetTxPowerIndex8812A h q).toNat : Int) = exactIndex (sumOf h q) (reduction h.txPwrInPercentage)
      ↔ SumFits h q := by
  unfold SumFits
  by_cases htakes : TakesDifference h q
  · have hsame : takenSum h q = sumOf h q := by
      unfold takenSum takenDifference sumOf
      rw [if_pos htakes]
    rw [if_pos htakes, ← hsame]
    exact taken_exact_iff hchip hbase
  · have htaken : takenSum h q = (baseOf h q).toNat + (offsetOf h q).toInt := by
      unfold takenSum takenDifference
      rw [if_neg htakes, Int.add_zero]
    have hsum : sumOf h q = (baseOf h q).toNat + (offsetOf h q).toInt + limitedDifference h q := by
      unfold sumOf
      omega
    obtain ⟨hk, hk18⟩ := reduction_bounds h.txPwrInPercentage
    have ho := (offsetOf h q).le_toInt
    have ho' := (offsetOf h q).toInt_lt
    rw [if_neg htakes, index_eq hchip, htaken, hsum]
    exact wrapped_dropped_iff (by omega) (by omega) hk hk18

end

/-- Nothing of what goes into the second index is higher in the first one, and no less is taken off
there; both take a difference or none. -/
structure Below (h : TxPower) (q : PowerQuery) (h' : TxPower) (q' : PowerQuery) : Prop where
  base : (baseOf h q).toNat ≤ (baseOf h' q').toNat
  difference : (differenceOf h q).toInt ≤ (differenceOf h' q').toInt
  limit : (limitOf h q).toInt ≤ (limitOf h' q').toInt
  offset : (offsetOf h q).toInt ≤ (offsetOf h' q').toInt
  taken : reduction h'.txPwrInPercentage ≤ reduction h.txPwrInPercentage
  adds : TakesDifference h q ↔ TakesDifference h' q'

theorem Below.takenSum_le {h h' : TxPower} {q q' : PowerQuery} (hle : Below h q h' q') :
    takenSum h q ≤ takenSum h' q' := by
  have hbase := hle.base
  have hdiff := hle.difference
  have hlimit := hle.limit
  have hoffset := hle.offset
  unfold takenSum takenDifference limitedDifference
  by_cases htakes : TakesDifference h q
  · rw [if_pos htakes, if_pos (hle.adds.mp htakes)]
    omega
  · rw [if_neg htakes, if_neg (fun ht => htakes (hle.adds.mpr ht))]
    omega

/-- **In range the index is monotone.** -/
theorem index_mono {h h' : TxPower} {q q' : PowerQuery} (hle : Below h q h' q')
    (hchip : h.normalChip = true) (hchip' : h'.normalChip = true)
    (hbase : (baseOf h q).toNat ≤ 63) (hbase' : (baseOf h' q').toNat ≤ 63)
    (hin : InRange (takenSum h q) (reduction h.txPwrInPercentage))
    (hin' : InRange (takenSum h' q') (reduction h'.txPwrInPercentage)) :
    (phyGetTxPowerIndex8812A h q).toNat ≤ (phyGetTxPowerIndex8812A h' q').toNat := by
  have hindex := (taken_exact_iff hchip hbase).mpr hin
  have hindex' := (taken_exact_iff hchip' hbase').mpr hin'
  have hmono := exactIndex_mono hle.takenSum_le (Int.ofNat_le.mpr hle.taken)
  omega

/-- **The index saturates and is monotone** exactly where the sum is in range. Where no difference is
taken, the sum is the one without it. -/
theorem tx_power_index_iff (h : TxPower) (q : PowerQuery) (hchip : h.normalChip = true)
    (hbase : (baseOf h q).toNat ≤ 63) :
    (((phyGetTxPowerIndex8812A h q).toNat : Int) = exactIndex (sumOf h q) (reduction h.txPwrInPercentage)
        ↔ SumFits h q)
      ∧ (((phyGetTxPowerIndex8812A h q).toNat : Int)
            = exactIndex (takenSum h q) (reduction h.txPwrInPercentage)
          ↔ InRange (takenSum h q) (reduction h.txPwrInPercentage))
      ∧ (InRange (takenSum h q) (reduction h.txPwrInPercentage) →
        ∀ (h' : TxPower) (q' : PowerQuery), h'.normalChip = true → (baseOf h' q').toNat ≤ 63 →
          InRange (takenSum h' q') (reduction h'.txPwrInPercentage) → Below h q h' q' →
          (phyGetTxPowerIndex8812A h q).toNat ≤ (phyGetTxPowerIndex8812A h' q').toNat) :=
  ⟨index_exact_iff hchip hbase, taken_exact_iff hchip hbase,
    fun hin _ _ hchip' hbase' hin' hle => index_mono hle hchip hchip' hbase hbase' hin hin'⟩

/-! ## Two settings -/

/-- A device whose tables say the same everywhere. -/
def flatPower (base : UInt8) (difference limit offset : Int8) (pct : UInt8) : TxPower where
  regEnableTxPowerByRate := 1
  regEnableTxPowerLimit := 1
  regPwrTblSel := 3
  supported24G := true
  supported5G := true
  usbSpeed2 := false
  is8812AU := true
  normalChip := true
  eepromRegulatory := 0
  regulation24G := 0
  regulation5G := 0
  currentChannelBw := .w20
  currentChannel := 6
  index24GCckBase := fun _ _ => base
  index24GBw40Base := fun _ _ => base
  index5GBw40Base := fun _ _ => base
  index5GBw80Base := fun _ _ => base
  ofdm24GDiff := fun _ _ => 0
  bw2024GDiff := fun _ _ => 0
  bw4024GDiff := fun _ _ => 0
  ofdm5GDiff := fun _ _ => 0
  bw205GDiff := fun _ _ => 0
  bw405GDiff := fun _ _ => 0
  bw805GDiff := fun _ _ => 0
  txPwrByRateOffset := fun _ _ _ _ => difference
  txPwrLimit24G := fun _ _ _ _ _ => limit
  txPwrLimit5G := fun _ _ _ _ _ => limit
  txPwrInPercentage := pct
  txPowerTrackControl := true
  remnantCckSwingIdx := offset
  remnantOfdmSwingIdx := fun _ => offset

/-- `MGN_MCS7` on channel 6. -/
def mcs7Query : PowerQuery where
  path := 0
  rate := mgnMcs 7
  width := .w20
  channel := 6

/-- A base of 40 with a difference of 6, a limit of 4 and an offset of -2, at half the power. -/
theorem tx_power_index_sample :
    ((phyGetTxPowerIndex8812A (flatPower 40 6 4 (-2) 4) mcs7Query).toNat : Int)
        = exactIndex (sumOf (flatPower 40 6 4 (-2) 4) mcs7Query) 6
      ∧ (phyGetTxPowerIndex8812A (flatPower 40 6 4 (-2) 2) mcs7Query).toNat
        ≤ (phyGetTxPowerIndex8812A (flatPower 40 6 4 (-2) 4) mcs7Query).toNat := by
  have hsum : sumOf (flatPower 40 6 4 (-2) 4) mcs7Query = 42 := by decide
  have htaken : takenSum (flatPower 40 6 4 (-2) 4) mcs7Query = 42 := by decide
  have htaken' : takenSum (flatPower 40 6 4 (-2) 2) mcs7Query = 42 := by decide
  have hin : InRange (takenSum (flatPower 40 6 4 (-2) 4) mcs7Query) 6 := by
    rw [htaken]
    exact Or.inl ⟨by decide, by decide⟩
  have hin' : InRange (takenSum (flatPower 40 6 4 (-2) 2) mcs7Query) 12 := by
    rw [htaken']
    exact Or.inl ⟨by decide, by decide⟩
  have hfits : SumFits (flatPower 40 6 4 (-2) 4) mcs7Query := by
    have htakes : TakesDifference (flatPower 40 6 4 (-2) 4) mcs7Query := by decide
    unfold SumFits
    rw [if_pos htakes, hsum]
    exact Or.inl ⟨by decide, by decide⟩
  have hbelow : Below (flatPower 40 6 4 (-2) 2) mcs7Query (flatPower 40 6 4 (-2) 4) mcs7Query :=
    { base := by decide
      difference := by decide
      limit := by decide
      offset := by decide
      taken := by decide
      adds := Iff.rfl }
  obtain ⟨hexact, -, -⟩ := tx_power_index_iff (flatPower 40 6 4 (-2) 4) mcs7Query rfl (by decide)
  obtain ⟨-, -, hmono⟩ := tx_power_index_iff (flatPower 40 6 4 (-2) 2) mcs7Query rfl (by decide)
  exact ⟨hexact.mpr hfits, hmono hin' _ _ rfl (by decide) hin hbelow⟩

/-- **At an eighth of the power a base of 5 gives the maximum**, and a base of 6 with an offset of -7 does
at full power; and with a base of 18 instead of 5 the index is 0. -/
theorem tx_power_index_wraps :
    ((phyGetTxPowerIndex8812A (flatPower 5 0 63 0 1) mcs7Query).toNat = 63
        ∧ exactIndex (sumOf (flatPower 5 0 63 0 1) mcs7Query) (reduction 1) = 0)
      ∧ ((phyGetTxPowerIndex8812A (flatPower 6 0 63 (-7) 8) mcs7Query).toNat = 63
        ∧ exactIndex (sumOf (flatPower 6 0 63 (-7) 8) mcs7Query) (reduction 8) = 0)
      ∧ (phyGetTxPowerIndex8812A (flatPower 18 0 63 0 1) mcs7Query).toNat = 0 := by
  have hlow : sumOf (flatPower 5 0 63 0 1) mcs7Query = 5 := by decide
  have hneg : sumOf (flatPower 6 0 63 (-7) 8) mcs7Query = -1 := by decide
  rw [hlow, hneg]
  decide

end Rtl8812au.Hal
