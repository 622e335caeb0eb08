import Mathlib.Data.List.Nodup
import Rtl8812au.Hal.PowerLimit
import Rtl8812au.Lib.Sweep

/-!
# What the configuration leaves in the tables

Each loop is a sweep: an entry has in the end what its own turn made of it. Entries lower the limit of a
place to the smallest one, a section without a limit gets that of the section it stands with, and limits and
values become differences. The limits of both bands become differences from bases of 2.4 GHz.
-/

namespace Rtl8812au.Hal

/-! ## Entries -/

/-- The channels of a band. -/
def listedChannels : BandType → List UInt8
  | .on24G => (List.range 14).map fun i => UInt8.ofNat (i + 1)
  | .on5G => channel5G

/-- The bandwidths that a table has entries for. -/
def tableWidths : BandType → Nat
  | .on24G => 2
  | .on5G => 4

/-- The channels that a table has entries for. -/
def tableChannels : BandType → Nat
  | .on24G => 14
  | .on5G => 54

/-- An entry whose fields are valid. -/
structure LimitEntry where
  regulation : Fin 4
  band : BandType
  bandwidth : Fin 4
  rateSection : Fin 10
  channel : UInt8
  limit : Fin 128
  width_lt : bandwidth.val < tableWidths band
  listed : channel ∈ listedChannels band

namespace LimitEntry

/-- A number in decimal. -/
def decimal (n : Nat) : List Char := Nat.toDigits 10 n

def regulationText (r : Fin 4) : List Char :=
  match r with
  | 0 => ['F', 'C', 'C']
  | 1 => ['M', 'K', 'K']
  | 2 => ['E', 'T', 'S', 'I']
  | 3 => ['W', 'W', '1', '3']

def bandwidthText (b : Fin 4) : List Char :=
  match b with
  | 0 => ['2', '0', 'M']
  | 1 => ['4', '0', 'M']
  | 2 => ['8', '0', 'M']
  | 3 => ['1', '6', '0', 'M']

/-- The section, and the number of streams. -/
def sectionText (s : Fin 10) : List Char × List Char :=
  match s with
  | 0 => (['C', 'C', 'K'], ['1', 'T'])
  | 1 => (['O', 'F', 'D', 'M'], ['1', 'T'])
  | 2 => (['H', 'T'], ['1', 'T'])
  | 3 => (['H', 'T'], ['2', 'T'])
  | 4 => (['H', 'T'], ['3', 'T'])
  | 5 => (['H', 'T'], ['4', 'T'])
  | 6 => (['V', 'H', 'T'], ['1', 'T'])
  | 7 => (['V', 'H', 'T'], ['2', 'T'])
  | 8 => (['V', 'H', 'T'], ['3', 'T'])
  | 9 => (['V', 'H', 'T'], ['4', 'T'])

/-- The strings of the entry. -/
def fields (e : LimitEntry) : LimitFields where
  regulation := regulationText e.regulation
  band := if e.band = .on24G then ['2', '.', '4', 'G'] else ['5', 'G']
  bandwidth := bandwidthText e.bandwidth
  rateSection := (sectionText e.rateSection).1
  rfPath := (sectionText e.rateSection).2
  channel := decimal e.channel.toNat
  powerLimit := decimal e.limit

end LimitEntry

/-! ## What the fields are read as -/

theorem fieldRegulation_text (r : Fin 4) : fieldRegulation (LimitEntry.regulationText r) = r := by
  revert r
  decide

theorem fieldBandwidth_text (b : Fin 4) : fieldBandwidth (LimitEntry.bandwidthText b) = b := by
  revert b
  decide

theorem fieldSection_text (s : Fin 10) :
    fieldSection (LimitEntry.sectionText s).1 (LimitEntry.sectionText s).2 = some s.val := by
  revert s
  decide

/-- **A number is read as it was written.** -/
theorem getU1ByteInteger_decimal (n : UInt8) : getU1ByteInteger 0 (LimitEntry.decimal n.toNat) = (true, n) := by
  have hall : ∀ i : Fin 256, getU1ByteInteger 0 (LimitEntry.decimal i.val) = (true, UInt8.ofNat i) := by
    decide +kernel
  have h := hall ⟨n.toNat, n.toNat_lt⟩
  rwa [UInt8.ofNat_toNat] at h

/-- The place of a listed channel in its table. -/
theorem channelIndex_listed {band : BandType} {c : UInt8} (h : c ∈ listedChannels band) :
    ∃ i < tableChannels band, phyGetChannelIndexOfTxPowerLimit band c = Int8.ofNat i := by
  have h24 : ∀ c ∈ listedChannels .on24G, ∃ i < 14,
      phyGetChannelIndexOfTxPowerLimit .on24G c = Int8.ofNat i := by
    decide +kernel
  have h5 : ∀ c ∈ listedChannels .on5G, ∃ i < 54,
      phyGetChannelIndexOfTxPowerLimit .on5G c = Int8.ofNat i := by
    decide +kernel
  cases band with
  | on24G => exact h24 c h
  | on5G => exact h5 c h

/-- Two listed channels have different places. -/
theorem channelIndex_inj {band : BandType} {c d : UInt8} (hc : c ∈ listedChannels band)
    (hd : d ∈ listedChannels band)
    (h : phyGetChannelIndexOfTxPowerLimit band c = phyGetChannelIndexOfTxPowerLimit band d) : c = d := by
  have h24 : ((listedChannels .on24G).map (phyGetChannelIndexOfTxPowerLimit .on24G)).Nodup := by decide
  have h5 : ((listedChannels .on5G).map (phyGetChannelIndexOfTxPowerLimit .on5G)).Nodup := by decide +kernel
  cases band with
  | on24G => exact List.inj_on_of_nodup_map h24 hc hd h
  | on5G => exact List.inj_on_of_nodup_map h5 hc hd h

/-! ## The tables by their band -/

namespace PowerTables

def limits (h : PowerTables) : BandType → PowerLimits
  | .on24G => h.txPwrLimit24G
  | .on5G => h.txPwrLimit5G

def withLimits (h : PowerTables) (band : BandType) (t : PowerLimits) : PowerTables :=
  match band with
  | .on24G => { h with txPwrLimit24G := t }
  | .on5G => { h with txPwrLimit5G := t }

/-- All but the limits. -/
def noLimits (h : PowerTables) : PowerTables :=
  { h with
    txPwrLimit24G := fun _ _ _ _ _ => 0
    txPwrLimit5G := fun _ _ _ _ _ => 0 }

variable {h : PowerTables} {band : BandType} {t : PowerLimits}

@[simp] theorem noLimits_withLimits : (h.withLimits band t).noLimits = h.noLimits := by
  cases band <;> rfl

@[simp] theorem limits_withLimits : (h.withLimits band t).limits band = t := by
  cases band <;> rfl

theorem limits_withLimits_ne {band' : BandType} (hne : band' ≠ band) :
    (h.withLimits band t).limits band' = h.limits band' := by
  cases band <;> cases band' <;> first | rfl | exact absurd rfl hne

end PowerTables

theorem set_same (t : PowerLimits) (r b s : Nat) (c : Int8) (p : Nat) (v : Int8) :
    t.set r b s c p v r b s c p = v := if_pos ⟨rfl, rfl, rfl, rfl, rfl⟩

theorem set_other {t : PowerLimits} {r b s r' b' s' p p' : Nat} {c c' : Int8} {v : Int8}
    (hne : ¬ (r' = r ∧ b' = b ∧ s' = s ∧ c' = c ∧ p' = p)) :
    t.set r b s c p v r' b' s' c' p' = t r' b' s' c' p' := if_neg hne

/-! ## Entering limits -/

/-- The limit of an entry as it is compared. -/
def LimitEntry.value (e : LimitEntry) : Nat := min e.limit 63

theorem clamped_limit (l : Fin 128) :
    (if maxPowerIndex < (UInt8.ofNat l).toInt8 then maxPowerIndex else (UInt8.ofNat l).toInt8)
      = Int8.ofNat (min l 63) := by
  revert l
  decide

/-- What an entry does to the tables. -/
def enter (h : PowerTables) (e : LimitEntry) : PowerTables :=
  h.withLimits e.band (lowerLimit (h.limits e.band) e.regulation e.bandwidth e.rateSection
    (phyGetChannelIndexOfTxPowerLimit e.band e.channel) (Int8.ofNat e.value))

/-- **A valid entry lowers the limit at its place.** -/
theorem phySetTxPowerLimit_fields (h : PowerTables) (e : LimitEntry) :
    phySetTxPowerLimit h e.fields = .done (enter h e) := by
  have hlimit : e.fields.powerLimit = LimitEntry.decimal (UInt8.ofNat e.limit).toNat := by
    rw [UInt8.toNat_ofNat', Nat.mod_eq_of_lt (Nat.lt_trans e.limit.isLt (by decide))]
    rfl
  obtain ⟨i, hi, hidx⟩ := channelIndex_listed e.listed
  have hint : (Int8.ofNat i).toInt = i := Int8.toInt_ofNat_of_lt (Nat.lt_trans hi (by cases e.band <;> decide))
  have hnot : ¬ Int8.ofNat i = -1 := by
    intro he
    rw [he] at hint
    have hneg : (-1 : Int8).toInt = -1 := rfl
    omega
  have hw := e.width_lt
  unfold phySetTxPowerLimit enter
  rw [show e.fields.regulation = LimitEntry.regulationText e.regulation from rfl,
    show e.fields.bandwidth = LimitEntry.bandwidthText e.bandwidth from rfl,
    show e.fields.rateSection = (LimitEntry.sectionText e.rateSection).1 from rfl,
    show e.fields.rfPath = (LimitEntry.sectionText e.rateSection).2 from rfl,
    show e.fields.channel = LimitEntry.decimal e.channel.toNat from rfl, hlimit, fieldRegulation_text,
    fieldBandwidth_text, fieldSection_text, getU1ByteInteger_decimal, getU1ByteInteger_decimal]
  dsimp only
  rw [if_pos rfl, clamped_limit]
  cases hband : e.band with
  | on24G =>
      have htext : eqNByte e.fields.band ['2', '.', '4', 'G'] 4 = true := by
        unfold LimitEntry.fields
        rw [hband]
        rfl
      rw [hband] at hidx hi hw
      rw [if_pos htext, hidx, if_neg hnot, if_pos ⟨hw, by omega, by rw [hint]; exact Int.ofNat_lt.mpr hi⟩]
      rfl
  | on5G =>
      have htext : eqNByte e.fields.band ['2', '.', '4', 'G'] 4 = false
          ∧ eqNByte e.fields.band ['5', 'G'] 2 = true := by
        unfold LimitEntry.fields
        rw [hband]
        exact ⟨rfl, rfl⟩
      rw [hband] at hidx
      rw [if_neg (by rw [htext.1]; exact Bool.false_ne_true), if_pos htext.2, hidx, if_neg hnot]
      rfl

/-- The entries one after the other. -/
theorem runActions_fields (es : List LimitEntry) (h : PowerTables) :
    runActions phySetTxPowerLimit h (es.map LimitEntry.fields) = .done (es.foldl enter h) := by
  induction es generalizing h with
  | nil => rfl
  | cons e es ih =>
      rw [List.map_cons, runActions, phySetTxPowerLimit_fields, Outcome.done_bind, ih, List.foldl_cons]

/-! ## The smallest entered limit -/

/-- Where an entry goes. -/
structure LimitPlace where
  regulation : Nat
  band : BandType
  bandwidth : Nat
  rateSection : Nat
  channel : UInt8
  deriving Repr, DecidableEq

def LimitEntry.place (e : LimitEntry) : LimitPlace :=
  ⟨e.regulation, e.band, e.bandwidth, e.rateSection, e.channel⟩

/-- **The smallest limit that was entered for a place**, or 63, which stands for none. -/
def smallestLimit (es : List LimitEntry) (k : LimitPlace) : Nat :=
  es.foldr (fun e m => if e.place = k then min e.value m else m) 63

theorem smallestLimit_le (es : List LimitEntry) (k : LimitPlace) : smallestLimit es k ≤ 63 := by
  induction es with
  | nil => exact Nat.le_refl _
  | cons e es ih =>
      rw [smallestLimit, List.foldr_cons, ← smallestLimit]
      split
      · exact Nat.le_trans (Nat.min_le_right _ _) ih
      · exact ih

/-- What a table has at a place. -/
def limitAt (h : PowerTables) (k : LimitPlace) (rfPath : Nat) : Int8 :=
  h.limits k.band k.regulation k.bandwidth k.rateSection
    (phyGetChannelIndexOfTxPowerLimit k.band k.channel) rfPath

theorem lowerLimit_toInt {t : PowerLimits} {r b s : Nat} {c v : Int8} :
    (lowerLimit t r b s c v r b s c 0).toInt = min v.toInt (t r b s c 0).toInt := by
  unfold lowerLimit
  split
  case isTrue hlt =>
    have hint := Int8.lt_iff_toInt_lt.mp hlt
    rw [set_same]
    omega
  case isFalse hnot =>
    have hint : ¬ v.toInt < (t r b s c 0).toInt := fun hi => hnot (Int8.lt_iff_toInt_lt.mpr hi)
    omega

theorem lowerLimit_other {t : PowerLimits} {r b s r' b' s' p : Nat} {c c' v : Int8}
    (hne : ¬ (r' = r ∧ b' = b ∧ s' = s ∧ c' = c ∧ p = 0)) :
    lowerLimit t r b s c v r' b' s' c' p = t r' b' s' c' p := by
  unfold lowerLimit
  split
  · exact set_other hne
  · rfl

/-- An entry for the place. -/
theorem limitAt_enter_same (h : PowerTables) (e : LimitEntry) :
    (limitAt (enter h e) e.place 0).toInt = min (e.value : Int) (limitAt h e.place 0).toInt := by
  have hval : (Int8.ofNat e.value).toInt = e.value :=
    Int8.toInt_ofNat_of_lt (Nat.lt_of_le_of_lt (Nat.min_le_right _ _) (by decide))
  unfold limitAt enter
  rw [show e.place.band = e.band from rfl, PowerTables.limits_withLimits]
  exact lowerLimit_toInt.trans (by rw [hval]; rfl)

/-- An entry for another place, and path B. -/
theorem limitAt_enter_other {h : PowerTables} {e : LimitEntry} {k : LimitPlace} {p : Nat}
    (hlisted : k.channel ∈ listedChannels k.band) (hne : ¬ (e.place = k ∧ p = 0)) :
    limitAt (enter h e) k p = limitAt h k p := by
  unfold limitAt enter
  by_cases hband : k.band = e.band
  · rw [hband, PowerTables.limits_withLimits]
    refine lowerLimit_other ?_
    rintro ⟨hr, hb, hs, hc, hp⟩
    refine hne ⟨?_, hp⟩
    rw [hband] at hlisted
    have hchan := channelIndex_inj hlisted e.listed hc
    cases k
    simp_all [LimitEntry.place]
  · rw [PowerTables.limits_withLimits_ne hband]

/-- **After the entries a place of path A has the smallest of its limits.** -/
theorem limitAt_entered {k : LimitPlace} (hlisted : k.channel ∈ listedChannels k.band) (es : List LimitEntry)
    {h : PowerTables} (hle : (limitAt h k 0).toInt ≤ 63) :
    (limitAt (es.foldl enter h) k 0).toInt = min (smallestLimit es k : Int) (limitAt h k 0).toInt := by
  induction es generalizing h with
  | nil =>
      rw [List.foldl_nil, show smallestLimit [] k = 63 from rfl]
      omega
  | cons e es ih =>
      have hcons : smallestLimit (e :: es) k
          = if e.place = k then min e.value (smallestLimit es k) else smallestLimit es k := rfl
      rw [List.foldl_cons, hcons]
      by_cases he : e.place = k
      · have hstep := limitAt_enter_same h e
        rw [he] at hstep
        rw [if_pos he, ih (by omega), hstep]
        omega
      · have hstep := limitAt_enter_other (h := h) (p := 0) hlisted fun hand => he hand.1
        rw [if_neg he, ih (by rw [hstep]; exact hle), hstep]

/-- Path B has none yet. -/
theorem limitAt_entered_pathB {k : LimitPlace} (hlisted : k.channel ∈ listedChannels k.band)
    (es : List LimitEntry) (h : PowerTables) : limitAt (es.foldl enter h) k 1 = limitAt h k 1 :=
  Sweep.foldl_frame (fun h => limitAt h k 1)
    (fun _ _ _ => limitAt_enter_other hlisted fun hand => absurd hand.2 (by decide)) h

theorem noLimits_entered (es : List LimitEntry) (h : PowerTables) : (es.foldl enter h).noLimits = h.noLimits :=
  Sweep.foldl_frame PowerTables.noLimits (fun _ _ _ => PowerTables.noLimits_withLimits) h

/-- A place that a table has. -/
structure LimitPlace.Listed (k : LimitPlace) : Prop where
  regulation : k.regulation < 4
  bandwidth : k.bandwidth < tableWidths k.band
  rateSection : k.rateSection < 10
  channel : k.channel ∈ listedChannels k.band

/-- At first there is no limit. -/
theorem limitAt_init {k : LimitPlace} (hk : k.Listed) (h : PowerTables) {p : Nat} (hp : p < 2) :
    limitAt (phyInitTxPowerLimit h) k p = maxPowerIndex := by
  obtain ⟨i, hi, hidx⟩ := channelIndex_listed hk.channel
  have hint : (Int8.ofNat i).toInt = i := Int8.toInt_ofNat_of_lt (Nat.lt_trans hi (by cases k.band <;> decide))
  have hb := hk.bandwidth
  unfold limitAt
  rw [hidx]
  cases hband : k.band with
  | on24G =>
      rw [hband] at hb hi
      exact if_pos ⟨hk.regulation, hb, hk.rateSection, ⟨by omega, by rw [hint]; exact Int.ofNat_lt.mpr hi⟩, hp⟩
  | on5G =>
      rw [hband] at hb hi
      exact if_pos ⟨hk.regulation, hb, hk.rateSection, ⟨by omega, by rw [hint]; exact Int.ofNat_lt.mpr hi⟩, hp⟩

/-! ## The values of the rates -/

/-- Values by rate are in use. -/
def ByRateEnabled (h : TxPower) : Prop :=
  ¬ ((h.regEnableTxPowerByRate = 2 ∧ h.eepromRegulatory = 2) ∨ h.regEnableTxPowerByRate = 0)

instance (h : TxPower) : Decidable (ByRateEnabled h) := inferInstanceAs (Decidable (¬ _))

theorem rateIndex_lt (rate : Nat) : phyGetRateIndexOfTxPowerByRate rate < 84 := by
  unfold phyGetRateIndexOfTxPowerByRate
  split
  case isTrue h =>
    have hlt : cckRates.idxOf rate < cckRates.length := List.idxOf_lt_length_of_mem h
    have hlen : cckRates.length = 4 := rfl
    omega
  case isFalse =>
    split
    case isTrue h =>
      have hlt : ofdmRates.idxOf rate < ofdmRates.length := List.idxOf_lt_length_of_mem h
      have hlen : ofdmRates.length = 8 := rfl
      omega
    case isFalse =>
      unfold mgnMcs mgnVht
      split
      · omega
      · split <;> omega

/-- What a rate has, if its values are in use. -/
theorem phyGetTxPowerByRate_eq {h : TxPower} {path rate txNum : Nat} {band : BandType} (hp : path ≤ 3)
    (hn : txNum < 4) : phyGetTxPowerByRate h path rate band txNum = if ByRateEnabled h then
      h.txPwrByRateOffset band path txNum (phyGetRateIndexOfTxPowerByRate rate) else 0 := by
  have hi := rateIndex_lt rate
  unfold phyGetTxPowerByRate
  dsimp only
  rw [if_neg (show ¬ 3 < path by omega), if_neg (show ¬ 4 ≤ txNum by omega),
    if_neg (show ¬ 84 ≤ phyGetRateIndexOfTxPowerByRate rate by omega)]
  by_cases hen : ByRateEnabled h
  · rw [if_neg hen, if_pos hen]
  · rw [if_pos (not_not.mp hen), if_neg hen]

/-! ### The bases -/

section

variable {h : PowerTables} {band : BandType} {path txNum rateSection : Nat}

/-- A section that a band has a base for. -/
def HasBase (band : BandType) (rateSection : Nat) : Prop :=
  rateSection ≤ 9 ∧ (band = .on5G → 1 ≤ rateSection)

theorem base_set_same (hp : path ≤ 3) (hs : HasBase band rateSection) (value : UInt8) :
    phyGetTxPowerByRateBase (phySetTxPowerByRateBase h band path rateSection txNum value) band path txNum
      rateSection = value := by
  have hle := hs.1
  unfold phyGetTxPowerByRateBase phySetTxPowerByRateBase
  rw [if_neg (show ¬ 3 < path by omega), if_neg (show ¬ 3 < path by omega)]
  cases band with
  | on24G => simp [hle]
  | on5G => simp [hle, hs.2 rfl]

theorem base_set_other {band' : BandType} {path' txNum' rateSection' : Nat} {value : UInt8}
    (hs : HasBase band rateSection)
    (hne : ¬ (band' = band ∧ path' = path ∧ txNum' = txNum ∧ rateSection' = rateSection)) :
    phyGetTxPowerByRateBase (phySetTxPowerByRateBase h band' path' rateSection' txNum' value) band path txNum
      rateSection = phyGetTxPowerByRateBase h band path txNum rateSection := by
  unfold phySetTxPowerByRateBase
  split
  · rfl
  · cases band' with
    | on24G =>
        dsimp only
        split
        · cases band with
          | on5G => rfl
          | on24G =>
              have hnot : ¬ (path = path' ∧ txNum = txNum' ∧ rateSection = rateSection') := fun hand =>
                hne ⟨rfl, hand.1.symm, hand.2.1.symm, hand.2.2.symm⟩
              unfold phyGetTxPowerByRateBase
              dsimp only
              rw [if_neg hnot]
        · rfl
    | on5G =>
        dsimp only
        split
        · rename_i hsec
          cases band with
          | on24G => rfl
          | on5G =>
              have hge := hs.2 rfl
              have hnot : ¬ (path = path' ∧ txNum = txNum' ∧ rateSection - 1 = rateSection' - 1) := fun hand =>
                hne ⟨rfl, hand.1.symm, hand.2.1.symm, by omega⟩
              unfold phyGetTxPowerByRateBase
              dsimp only
              rw [if_neg hnot]
        · rfl

end

/-- A base is stored from the values. -/
def storeBase (h : PowerTables) (k : Nat × BandType × Nat × Nat × Nat) : PowerTables :=
  phySetTxPowerByRateBase h k.2.1 k.1 k.2.2.1 k.2.2.2.1
    (phyGetTxPowerByRate h.toTxPower k.1 k.2.2.2.2 k.2.1 k.2.2.2.1).toUInt8

theorem toTxPower_setBase (h : PowerTables) (band : BandType) (path rateSection txNum : Nat) (value : UInt8) :
    (phySetTxPowerByRateBase h band path rateSection txNum value).toTxPower = h.toTxPower := by
  unfold phySetTxPowerByRateBase
  split
  · rfl
  · cases band <;> dsimp only <;> split <;> rfl

/-- What is stored has a section of its band, and the rate goes by band, section and streams. -/
theorem storedBases_sections : ∀ x ∈ storedBases, HasBase x.1 x.2.1 := by
  unfold HasBase
  decide

theorem storedBases_unique : ∀ x ∈ storedBases, ∀ y ∈ storedBases,
    x.1 = y.1 → x.2.1 = y.2.1 → x.2.2.1 = y.2.2.1 → x = y := by
  decide

/-- **What a section has for a base after the first loop**: the value of the rate that is stored for it. -/
theorem base_stored (h : PowerTables) {path : Nat} (hp : path < 2) {x : BandType × Nat × Nat × Nat}
    (hx : x ∈ storedBases) :
    phyGetTxPowerByRateBase (phyStoreTxPowerByRateBase h) x.1 path x.2.2.1 x.2.1
      = (phyGetTxPowerByRate h.toTxPower path x.2.2.2 x.1 x.2.2.1).toUInt8 := by
  have hs := storedBases_sections x hx
  have hnd : (List.range 2 ×ˢ storedBases).Nodup := List.nodup_range.product (by decide)
  have hk : (path, x) ∈ List.range 2 ×ˢ storedBases := List.mem_product.mpr ⟨List.mem_range.mpr hp, hx⟩
  refine Sweep.foldl_own (g := storeBase) (fun h => phyGetTxPowerByRateBase h x.1 path x.2.2.1 x.2.1)
    (I := fun s => s.toTxPower = h.toTxPower)
    (F := fun _ => (phyGetTxPowerByRate h.toTxPower path x.2.2.2 x.1 x.2.2.1).toUInt8) ?_ ?_ ?_ hnd hk rfl
  · intro s j _ hI
    exact (toTxPower_setBase ..).trans hI
  · intro s hI
    rw [← hI]
    exact base_set_same (by omega) hs _
  · -- another path, or another section of this path
    rintro s ⟨path', y⟩ hj hne
    have hy := (List.mem_product.mp hj).2
    refine base_set_other hs ?_
    rintro ⟨hb, hpath, hn, hsec⟩
    exact hne (Prod.ext hpath (storedBases_unique y hy x hx hb hsec hn))

theorem toTxPower_stored (h : PowerTables) : (phyStoreTxPowerByRateBase h).toTxPower = h.toTxPower :=
  Sweep.foldl_frame (g := storeBase) PowerTables.toTxPower (fun _ _ _ => toTxPower_setBase ..) h

/-! ### The differences -/

/-- What the table says of a rate. -/
def valueAt (h : PowerTables) (band : BandType) (path txNum rate : Nat) : Int8 :=
  phyGetTxPowerByRate h.toTxPower path rate band txNum

theorem byRateEnabled_set (h : PowerTables) (band : BandType) (path txNum rate : Nat) (value : Int8) :
    ByRateEnabled (phySetTxPowerByRate h band path txNum rate value).toTxPower ↔ ByRateEnabled h.toTxPower := by
  unfold phySetTxPowerByRate
  dsimp only
  split
  · exact Iff.rfl
  · split
    · exact Iff.rfl
    · split <;> exact Iff.rfl

section

variable {h : PowerTables} {band : BandType} {path txNum rate : Nat} {value : Int8}

theorem valueAt_set_same (hp : path ≤ 3) (hn : txNum < 4) :
    valueAt (phySetTxPowerByRate h band path txNum rate value) band path txNum rate
      = if ByRateEnabled h.toTxPower then value else 0 := by
  have hi := rateIndex_lt rate
  unfold valueAt
  rw [phyGetTxPowerByRate_eq hp hn]
  simp only [byRateEnabled_set]
  unfold phySetTxPowerByRate
  dsimp only
  rw [if_neg (show ¬ 3 < path by omega), if_neg (show ¬ 4 ≤ txNum by omega),
    if_neg (show ¬ 84 ≤ phyGetRateIndexOfTxPowerByRate rate by omega)]
  simp

theorem valueAt_set_other {band' : BandType} {path' txNum' rate' : Nat} (hp : path ≤ 3) (hn : txNum < 4)
    (hne : ¬ (band' = band ∧ path' = path ∧ txNum' = txNum
      ∧ phyGetRateIndexOfTxPowerByRate rate' = phyGetRateIndexOfTxPowerByRate rate)) :
    valueAt (phySetTxPowerByRate h band' path' txNum' rate' value) band path txNum rate
      = valueAt h band path txNum rate := by
  have hnot : ¬ (band = band' ∧ path = path' ∧ txNum = txNum'
      ∧ phyGetRateIndexOfTxPowerByRate rate = phyGetRateIndexOfTxPowerByRate rate') := fun hand =>
    hne ⟨hand.1.symm, hand.2.1.symm, hand.2.2.1.symm, hand.2.2.2.symm⟩
  unfold valueAt
  rw [phyGetTxPowerByRate_eq hp hn, phyGetTxPowerByRate_eq hp hn]
  simp only [byRateEnabled_set]
  refine if_congr Iff.rfl ?_ rfl
  unfold phySetTxPowerByRate
  dsimp only
  split
  · rfl
  · split
    · rfl
    · split
      · rfl
      · exact if_neg hnot

/-- A value and its base, subtracted without their signs. -/
theorem sub_unsigned (a b : Int8) : (a.toUInt8 - b.toUInt8).toInt8 = a - b := by
  rw [UInt8.toInt8_sub, Int8.toInt8_toUInt8, Int8.toInt8_toUInt8]

/-- **One section**: each of its rates loses what the base rate had. -/
theorem convertSection_value {baseRate : Nat} {rates : List Nat} (hp : path ≤ 3) (hn : txNum < 4)
    (hinj : ∀ r ∈ rates, ∀ r' ∈ rates,
      phyGetRateIndexOfTxPowerByRate r = phyGetRateIndexOfTxPowerByRate r' → r = r')
    (hnd : rates.Nodup) (hr : rate ∈ rates) :
    valueAt (convertSection h band path txNum baseRate rates) band path txNum rate
      = valueAt h band path txNum rate - valueAt h band path txNum baseRate := by
  refine Sweep.foldl_own (fun h => valueAt h band path txNum rate)
    (I := fun s => ByRateEnabled s.toTxPower ↔ ByRateEnabled h.toTxPower)
    (F := fun v => v - valueAt h band path txNum baseRate) ?_ ?_ ?_ hnd hr Iff.rfl
  · intro s r _ hI
    exact (byRateEnabled_set ..).trans hI
  · intro s hI
    refine (valueAt_set_same hp hn).trans ?_
    by_cases hen : ByRateEnabled s.toTxPower
    · rw [if_pos hen]
      exact sub_unsigned _ _
    · -- out of use, every value is 0
      have hzero : valueAt s band path txNum rate = 0 := by
        rw [valueAt, phyGetTxPowerByRate_eq hp hn, if_neg hen]
      have hbase : valueAt h band path txNum baseRate = 0 := by
        rw [valueAt, phyGetTxPowerByRate_eq hp hn, if_neg fun he => hen (hI.mpr he)]
      rw [if_neg hen, hzero, hbase]
      rfl
  · intro s r hr' hne
    refine valueAt_set_other hp hn ?_
    rintro ⟨-, -, -, hidx⟩
    exact hne (hinj r hr' rate hr hidx)

theorem convertSection_other {band' : BandType} {path' txNum' baseRate : Nat} {rates : List Nat}
    (hp : path ≤ 3) (hn : txNum < 4) (hne : ∀ r ∈ rates, ¬ (band' = band ∧ path' = path ∧ txNum' = txNum
      ∧ phyGetRateIndexOfTxPowerByRate r = phyGetRateIndexOfTxPowerByRate rate)) :
    valueAt (convertSection h band' path' txNum' baseRate rates) band path txNum rate
      = valueAt h band path txNum rate :=
  Sweep.foldl_frame (fun h => valueAt h band path txNum rate)
    (fun _ r hr => valueAt_set_other hp hn (hne r hr)) h

end

/-- The rates of the sections have places of their own. -/
theorem relativeSections_inj : ∀ x ∈ relativeSections, ∀ r ∈ x.2, ∀ y ∈ relativeSections, ∀ r' ∈ y.2,
    phyGetRateIndexOfTxPowerByRate r = phyGetRateIndexOfTxPowerByRate r' → x = y ∧ r = r' := by
  decide +kernel

theorem relativeSections_nodup : relativeSections.Nodup ∧ ∀ x ∈ relativeSections, x.2.Nodup ∧ x.1 ∈ x.2 := by
  decide

/-- A section of a path with so many streams. -/
def convertPlace (h : PowerTables) (k : BandType × Nat × Nat × Nat × List Nat) : PowerTables :=
  convertSection h k.1 k.2.1 k.2.2.1 k.2.2.2.1 k.2.2.2.2

/-- **After the second loop a rate has the difference** of its value and that of its section's base rate. -/
theorem valueAt_relative (h : PowerTables) (band : BandType) {path txNum rate : Nat} (hp : path < 4)
    (hn : txNum < 4) {x : Nat × List Nat} (hx : x ∈ relativeSections) (hr : rate ∈ x.2) :
    valueAt (phyConvertTxPowerByRateInDbmToRelativeValues h) band path txNum rate
      = valueAt h band path txNum rate - valueAt h band path txNum x.1 := by
  obtain ⟨hnd, hsec⟩ := relativeSections_nodup
  obtain ⟨hrates, hbase⟩ := hsec x hx
  have hbands : band ∈ [BandType.on24G, .on5G] := by cases band <;> decide
  have hnodup : ([BandType.on24G, .on5G] ×ˢ List.range 4 ×ˢ List.range 4 ×ˢ relativeSections).Nodup :=
    List.Nodup.product (by decide) (List.nodup_range.product (List.nodup_range.product hnd))
  have hk : (band, path, txNum, x)
      ∈ [BandType.on24G, .on5G] ×ˢ List.range 4 ×ˢ List.range 4 ×ˢ relativeSections :=
    List.mem_product.mpr ⟨hbands, List.mem_product.mpr ⟨List.mem_range.mpr hp,
      List.mem_product.mpr ⟨List.mem_range.mpr hn, hx⟩⟩⟩
  -- all values of the section are seen at once, since each of them needs that of the base rate
  have hall := Sweep.foldl_own (g := convertPlace)
    (fun h r => if r ∈ x.2 then valueAt h band path txNum r else 0) (I := fun _ => True)
    (F := fun o r => if r ∈ x.2 then o r - o x.1 else 0) (fun _ _ _ _ => trivial) ?_ ?_ hnodup hk trivial
    (s := h)
  · have hat := congrFun hall rate
    dsimp only at hat
    rw [if_pos hr, if_pos hr, if_pos hr, if_pos hbase] at hat
    exact hat
  · intro s _
    funext r
    dsimp only
    by_cases hmem : r ∈ x.2
    · rw [if_pos hmem, if_pos hmem, if_pos hmem, if_pos hbase]
      exact convertSection_value (Nat.le_of_lt_succ hp) hn
        (fun r hr r' hr' he => (relativeSections_inj x hx r hr x hx r' hr' he).2) hrates hmem
    · rw [if_neg hmem, if_neg hmem]
  · rintro s ⟨band', path', txNum', y⟩ hj hne
    have hy := (List.mem_product.mp (List.mem_product.mp (List.mem_product.mp hj).2).2).2
    funext r
    by_cases hmem : r ∈ x.2
    · rw [if_pos hmem, if_pos hmem]
      refine convertSection_other (Nat.le_of_lt_succ hp) hn fun r' hr' hand => ?_
      obtain ⟨rfl, rfl, rfl, hidx⟩ := hand
      have heq := (relativeSections_inj y hy r' hr' x hx r hmem hidx).1
      exact hne (by rw [heq])
    · rw [if_neg hmem, if_neg hmem]

/-- All but the values of the rates. -/
def PowerTables.noValues (h : PowerTables) : PowerTables := { h with txPwrByRateOffset := fun _ _ _ _ => 0 }

theorem noValues_set (h : PowerTables) (band : BandType) (path txNum rate : Nat) (value : Int8) :
    (phySetTxPowerByRate h band path txNum rate value).noValues = h.noValues := by
  unfold phySetTxPowerByRate
  dsimp only
  split
  · rfl
  · split
    · rfl
    · split <;> rfl

theorem noValues_relative (h : PowerTables) :
    (phyConvertTxPowerByRateInDbmToRelativeValues h).noValues = h.noValues :=
  Sweep.foldl_frame (g := convertPlace) PowerTables.noValues
    (fun s _ _ => Sweep.foldl_frame PowerTables.noValues (fun _ _ _ => noValues_set ..) s) h

/-! ## HT and VHT limits -/

/-- A turn of the cross reference. -/
def crossStep (t : PowerLimits) (k : Nat × Nat × Nat × Nat) : PowerLimits :=
  if t k.1 k.2.1 k.2.2.2 (Int8.ofNat k.2.2.1) 0 = maxPowerIndex ∧ (k.2.1 = 0 ∨ k.2.1 = 1)
      ∧ 2 ≤ k.2.2.2 ∧ k.2.2.2 ≤ 9 then
    t.set k.1 k.2.1 k.2.2.2 (Int8.ofNat k.2.2.1) 0 (t k.1 k.2.1 (refSection k.2.2.2) (Int8.ofNat k.2.2.1) 0)
  else t

theorem crossed_eq_foldl (t : PowerLimits) : phyCrossReferenceHTAndVHTTxPowerLimit t
    = (List.range 4 ×ˢ List.range 4 ×ˢ List.range 54 ×ˢ List.range 10).foldl crossStep t := rfl

theorem crossStep_other {t : PowerLimits} {k : Nat × Nat × Nat × Nat} {r b s p : Nat} {c : Int8}
    (hne : ¬ (r = k.1 ∧ b = k.2.1 ∧ s = k.2.2.2 ∧ c = Int8.ofNat k.2.2.1 ∧ p = 0)) :
    crossStep t k r b s c p = t r b s c p := by
  unfold crossStep
  split
  · exact set_other hne
  · rfl

/-- Path B stays as it is. -/
theorem crossed_pathB (t : PowerLimits) (r b s : Nat) (c : Int8) :
    phyCrossReferenceHTAndVHTTxPowerLimit t r b s c 1 = t r b s c 1 :=
  Sweep.foldl_frame (fun t => t r b s c 1)
    (fun _ _ _ => crossStep_other fun hand => absurd hand.2.2.2.2 (by decide)) t

theorem ofNat_inj {c d : Nat} (hc : c < 128) (hd : d < 128) (h : Int8.ofNat c = Int8.ofNat d) : c = d := by
  have hc' := Int8.toInt_ofNat_of_lt hc
  have hd' := Int8.toInt_ofNat_of_lt hd
  rw [h] at hc'
  omega

/-- Sections that have no other one keep their limits. -/
theorem crossed_single (t : PowerLimits) {r b s : Nat} {c : Int8} (h : ¬ ((b = 0 ∨ b = 1) ∧ 2 ≤ s)) :
    phyCrossReferenceHTAndVHTTxPowerLimit t r b s c 0 = t r b s c 0 := by
  refine Sweep.foldl_frame (fun t => t r b s c 0) (fun u k _ => ?_) t
  show crossStep u k r b s c 0 = u r b s c 0
  unfold crossStep
  split
  case isTrue hk =>
    refine set_other ?_
    rintro ⟨-, rfl, rfl, -, -⟩
    exact h ⟨hk.2.1, hk.2.2.1⟩
  case isFalse => rfl

/-- What two sections that stand for each other come to: the own limit, or the other one's where there is
none. -/
def resolved (t : PowerLimits) (r b s : Nat) (c : Int8) : Int8 :=
  if t r b s c 0 = maxPowerIndex then t r b (refSection s) c 0 else t r b s c 0

theorem refSection_refSection {s : Nat} (hlo : 2 ≤ s) (hhi : s ≤ 9) :
    refSection (refSection s) = s ∧ refSection s ≠ s := by
  unfold refSection
  split <;> split <;> omega

/-- **No turn changes what the two come to.** -/
theorem resolved_crossStep (t : PowerLimits) (k : Nat × Nat × Nat × Nat) {r b s : Nat} {c : Int8}
    (hlo : 2 ≤ s) (hhi : s ≤ 9) : resolved (crossStep t k) r b s c = resolved t r b s c := by
  obtain ⟨hback, hdiff⟩ := refSection_refSection hlo hhi
  unfold resolved
  by_cases hplace : r = k.1 ∧ b = k.2.1 ∧ c = Int8.ofNat k.2.2.1
  · obtain ⟨rfl, rfl, rfl⟩ := hplace
    by_cases hown : s = k.2.2.2
    · -- the turn of the section itself: it takes the other's limit if it has none
      subst hown
      have hother : crossStep t k k.1 k.2.1 (refSection k.2.2.2) (Int8.ofNat k.2.2.1) 0
          = t k.1 k.2.1 (refSection k.2.2.2) (Int8.ofNat k.2.2.1) 0 :=
        crossStep_other fun hand => hdiff hand.2.2.1
      rw [hother]
      unfold crossStep
      split
      case isTrue hk =>
        rw [set_same, if_pos hk.1]
        split
        case isTrue hmax => rfl
        case isFalse => rfl
      case isFalse => rfl
    · by_cases href : refSection s = k.2.2.2
      · -- the turn of the other: what it takes is no limit, if it matters
        have hself : crossStep t k k.1 k.2.1 s (Int8.ofNat k.2.2.1) 0 = t k.1 k.2.1 s (Int8.ofNat k.2.2.1) 0 :=
          crossStep_other fun hand => hown hand.2.2.1
        rw [hself]
        split
        case isTrue hmax =>
          unfold crossStep
          rw [← href, hback]
          split
          case isTrue hk => rw [set_same, hmax, hk.1]
          case isFalse => rfl
        case isFalse => rfl
      · rw [crossStep_other fun hand => hown hand.2.2.1, crossStep_other fun hand => href hand.2.2.1]
  · rw [crossStep_other fun hand => hplace ⟨hand.1, hand.2.1, hand.2.2.2.1⟩,
      crossStep_other fun hand => hplace ⟨hand.1, hand.2.1, hand.2.2.2.1⟩]

/-- **A section without a limit gets that of the other.** -/
theorem crossed_pair (t : PowerLimits) {r b s c : Nat} (hr : r < 4) (hb : b = 0 ∨ b = 1) (hc : c < 54)
    (hlo : 2 ≤ s) (hhi : s ≤ 9) : phyCrossReferenceHTAndVHTTxPowerLimit t r b s (Int8.ofNat c) 0
      = resolved t r b s (Int8.ofNat c) := by
  have hnd : (List.range 4 ×ˢ List.range 4 ×ˢ List.range 54 ×ˢ List.range 10).Nodup :=
    List.nodup_range.product (List.nodup_range.product (List.nodup_range.product List.nodup_range))
  have hk : (r, b, c, s) ∈ List.range 4 ×ˢ List.range 4 ×ˢ List.range 54 ×ˢ List.range 10 := by
    simp only [List.mem_product, List.mem_range]
    omega
  rw [crossed_eq_foldl]
  refine Sweep.foldl_own (fun t => t r b s (Int8.ofNat c) 0)
    (I := fun u => resolved u r b s (Int8.ofNat c) = resolved t r b s (Int8.ofNat c))
    (F := fun _ => resolved t r b s (Int8.ofNat c)) ?_ ?_ ?_ hnd hk rfl
  · intro u k _ hI
    exact (resolved_crossStep u k hlo hhi).trans hI
  · intro u hI
    rw [← hI]
    unfold crossStep resolved
    dsimp only
    by_cases hmax : u r b s (Int8.ofNat c) 0 = maxPowerIndex
    · rw [if_pos ⟨hmax, hb, hlo, hhi⟩, set_same, if_pos hmax]
    · rw [if_neg fun hand => hmax hand.1, if_neg hmax]
  · rintro u ⟨r', b', c', s'⟩ hj hne
    refine crossStep_other ?_
    rintro ⟨rfl, rfl, rfl, hidx, -⟩
    simp only [List.mem_product, List.mem_range] at hj
    exact hne (by rw [ofNat_inj (d := c') (by omega) (by omega) hidx])

/-! ## Limits as differences -/

section

variable {h : PowerTables} {cases : Nat → Prop} [DecidablePred cases]

/-- One path of a place. -/
def rebasePath (h : PowerTables) (cases : Nat → Prop) [DecidablePred cases] (k : Nat × Nat × Nat × Nat)
    (tempPwrLmt : Int8) (s : PowerLimits × UInt8) (rfPath : Nat) : PowerLimits × UInt8 :=
  let bw40PwrBasedBm :=
    if h.phyRegPgExactValue then
      if cases k.2.2.2 then phyGetTxPowerByRateBase h .on24G rfPath (sectionTxNum k.2.2.2) k.2.2.2 else s.2
    else h.regPowerBase * 2
  if tempPwrLmt ≠ maxPowerIndex then
    (s.1.set k.1 k.2.1 k.2.2.2 (Int8.ofNat k.2.2.1) rfPath (tempPwrLmt - bw40PwrBasedBm.toInt8), bw40PwrBasedBm)
  else (s.1, bw40PwrBasedBm)

/-- One place. -/
def rebasePlace (h : PowerTables) (cases : Nat → Prop) [DecidablePred cases] (s : PowerLimits × UInt8)
    (k : Nat × Nat × Nat × Nat) : PowerLimits × UInt8 :=
  (List.range 2).foldl
    (rebasePath h cases k (s.1 k.1 k.2.1 k.2.2.2 (Int8.ofNat k.2.2.1) 0)) s

theorem rebasePath_other {s : PowerLimits × UInt8} {k : Nat × Nat × Nat × Nat} {v : Int8}
    {path r b sec p : Nat} {c : Int8}
    (hne : ¬ (r = k.1 ∧ b = k.2.1 ∧ sec = k.2.2.2 ∧ c = Int8.ofNat k.2.2.1 ∧ p = path)) :
    (rebasePath h cases k v s path).1 r b sec c p = s.1 r b sec c p := by
  unfold rebasePath
  dsimp only
  split
  · exact set_other hne
  · rfl

/-- What one path of the place itself gets. -/
theorem rebasePath_own (hexact : h.phyRegPgExactValue = true) (k : Nat × Nat × Nat × Nat)
    (hcase : cases k.2.2.2) (v : Int8) (s : PowerLimits × UInt8) (path : Nat) :
    (rebasePath h cases k v s path).1 k.1 k.2.1 k.2.2.2 (Int8.ofNat k.2.2.1) path
      = if v ≠ maxPowerIndex then
          v - (phyGetTxPowerByRateBase h .on24G path (sectionTxNum k.2.2.2) k.2.2.2).toInt8
        else s.1 k.1 k.2.1 k.2.2.2 (Int8.ofNat k.2.2.1) path := by
  unfold rebasePath
  dsimp only
  rw [if_pos hexact, if_pos hcase]
  split
  · exact set_same ..
  · rfl

/-- **What the conversion makes of a place**, on both paths: a limit becomes a difference from the base in
2.4 GHz. -/
theorem convertLimits_eq (cases : Nat → Prop) [DecidablePred cases] (hexact : h.phyRegPgExactValue = true)
    {bandwidths channels r b c sec : Nat} (t : PowerLimits) (hr : r < 4) (hb : b < bandwidths)
    (hc : c < channels) (hch : channels < 128) (hs : sec < 10)
    (hcase : cases sec) (p : Fin 2) :
    convertLimits h cases bandwidths channels t r b sec (Int8.ofNat c) p
      = if t r b sec (Int8.ofNat c) 0 ≠ maxPowerIndex then
          t r b sec (Int8.ofNat c) 0
            - (phyGetTxPowerByRateBase h .on24G p (sectionTxNum sec) sec).toInt8
        else t r b sec (Int8.ofNat c) p := by
  have hnd : (List.range 4 ×ˢ List.range bandwidths ×ˢ List.range channels ×ˢ List.range 10).Nodup :=
    List.nodup_range.product (List.nodup_range.product (List.nodup_range.product List.nodup_range))
  have hk : (r, b, c, sec) ∈ List.range 4 ×ˢ List.range bandwidths ×ˢ List.range channels ×ˢ List.range 10 := by
    simp only [List.mem_product, List.mem_range]
    exact ⟨hr, hb, hc, hs⟩
  -- the two paths of the place together, since path B is written from what path A had
  have hall := Sweep.foldl_own (g := rebasePlace h cases)
    (fun s (p : Fin 2) => s.1 r b sec (Int8.ofNat c) p) (I := fun _ => True)
    (F := fun o p => if o 0 ≠ maxPowerIndex then
      o 0 - (phyGetTxPowerByRateBase h .on24G p (sectionTxNum sec) sec).toInt8 else o p)
    (fun _ _ _ _ => trivial) ?_ ?_ hnd hk trivial (s := (t, 0x2E))
  · exact congrFun hall p
  · intro s _
    funext p
    refine Sweep.foldl_own (fun s : PowerLimits × UInt8 => s.1 r b sec (Int8.ofNat c) p) (I := fun _ => True)
      (F := fun o => if s.1 r b sec (Int8.ofNat c) 0 ≠ maxPowerIndex then
        s.1 r b sec (Int8.ofNat c) 0 - (phyGetTxPowerByRateBase h .on24G p (sectionTxNum sec) sec).toInt8 else o)
      (fun _ _ _ _ => trivial) ?_ ?_ List.nodup_range (List.mem_range.mpr p.isLt) trivial
    · intro u _
      exact rebasePath_own hexact (r, b, c, sec) hcase _ u p
    · intro u path _ hne
      exact rebasePath_other fun hand => hne hand.2.2.2.2.symm
  · rintro s ⟨r', b', c', sec'⟩ hj hne
    funext p
    refine Sweep.foldl_frame (fun s : PowerLimits × UInt8 => s.1 r b sec (Int8.ofNat c) p)
      (fun s path _ => ?_) s
    refine rebasePath_other ?_
    rintro ⟨rfl, rfl, rfl, hidx, -⟩
    simp only [List.mem_product, List.mem_range] at hj
    exact hne (by rw [ofNat_inj (d := c') (by omega) (by omega) hidx])

end

end Rtl8812au.Hal
