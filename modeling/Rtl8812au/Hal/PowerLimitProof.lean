import Rtl8812au.Hal.PowerLimitTables
import Rtl8812au.Hal.TxPowerProof

/-!
# Is the limit kept?

In 2.4 GHz a limit and the value of a rate become differences from the same base, so that the lower one
stays as far from the base as it was. In 5 GHz the limit is made a difference from the base of 2.4 GHz, and
where that is the lower one of the two bases the limit is exceeded. Besides, over USB 2.0 no difference is
taken, not even one that lowers the index, and an index below 0 is the maximum.
-/

namespace Rtl8812au.Hal

/-! ## The tables in the end -/

/-- The sections of up to two streams that a band is used with. -/
def bandSections : BandType → List Nat
  | .on24G => [0, 1, 2, 3]
  | .on5G => [1, 2, 3, 6, 7]

/-- The rate whose value is the base of a section. -/
def baseRate : Nat → Nat
  | 0 => 0x16
  | 1 => mgn54M
  | 2 => mgnMcs 7
  | 3 => mgnMcs 15
  | 6 => mgnVht 1 7
  | _ => mgnVht 2 7

theorem storedBases_band : ∀ band : BandType, ∀ s ∈ bandSections band,
    (band, s, sectionTxNum s, baseRate s) ∈ storedBases
      ∧ (BandType.on24G, s, sectionTxNum s, baseRate s) ∈ storedBases
  | .on24G => by decide
  | .on5G => by decide

theorem rateSection_lt {rate s : Nat} (h : rateSection rate = some s) : rate < 256 := by
  unfold rateSection at h
  split at h
  case isTrue hmem => exact (show ∀ r ∈ cckRates, r < 256 by decide) rate hmem
  case isFalse =>
    split at h
    case isTrue hmem => exact (show ∀ r ∈ ofdmRates, r < 256 by decide) rate hmem
    case isFalse =>
      unfold mgnMcs mgnVht at h
      split at h
      · omega
      · split at h
        · omega
        · cases h

/-- A rate is made relative with its section, and is sent with as many streams. -/
theorem relativeSections_band {band : BandType} {rate s : Nat} (h : rateSection rate = some s)
    (hs : s ∈ bandSections band) :
    (∃ x ∈ relativeSections, x.1 = baseRate s ∧ rate ∈ x.2)
      ∧ phyGetCurrentTxNum8812A rate = sectionTxNum s := by
  have hall : ∀ r : Fin 256, ∀ s ∈ [0, 1, 2, 3, 6, 7], rateSection r = some s →
      (∃ x ∈ relativeSections, x.1 = baseRate s ∧ r.val ∈ x.2)
        ∧ phyGetCurrentTxNum8812A r = sectionTxNum s := by
    decide +kernel
  have hsub : ∀ band : BandType, ∀ s ∈ bandSections band, s ∈ [0, 1, 2, 3, 6, 7]
    | .on24G => by decide
    | .on5G => by decide
  exact hall ⟨rate, rateSection_lt h⟩ s (hsub band s hs) h

section

variable (h : PowerTables) (es : List LimitEntry)

/-- The limits are entered, and the values are relative. -/
def enteredTables : PowerTables := es.foldl enter (phyInitTxPowerLimit h)

def relativeTables : PowerTables := phyTxPowerByRateConfiguration (enteredTables h es)

def configuredTables : PowerTables := phyConvertTxPowerLimitToPowerIndex (relativeTables h es)

/-- **The configuration always comes to its end.** -/
theorem configurePower_fields :
    configurePower h (es.map LimitEntry.fields) = .done (configuredTables h es) := by
  unfold configurePower
  rw [runActions_fields]
  rfl

variable {h es}

/-- Values have nothing to do with limits, nor bases with values. -/
theorem valueAt_noLimits (t : PowerTables) (band : BandType) (path txNum rate : Nat) :
    valueAt t.noLimits band path txNum rate = valueAt t band path txNum rate := rfl

theorem base_noValues (t : PowerTables) (band : BandType) (path txNum s : Nat) :
    phyGetTxPowerByRateBase t.noValues band path txNum s = phyGetTxPowerByRateBase t band path txNum s := rfl

/-- Other limits. -/
def PowerTables.relimit (t : PowerTables) (a b : PowerLimits) : PowerTables :=
  { t with
    txPwrLimit24G := a
    txPwrLimit5G := b }

theorem valueAt_relimit (t : PowerTables) (a b : PowerLimits) (band : BandType) (path txNum rate : Nat) :
    valueAt (t.relimit a b) band path txNum rate = valueAt t band path txNum rate := rfl

theorem base_relimit (t : PowerTables) (a b : PowerLimits) (band : BandType) (path txNum s : Nat) :
    phyGetTxPowerByRateBase (t.relimit a b) band path txNum s
      = phyGetTxPowerByRateBase t band path txNum s := rfl

theorem convert_eq_relimit (t : PowerTables) : phyConvertTxPowerLimitToPowerIndex t
    = t.relimit (convertLimits t (· ≤ 5) 2 14 t.txPwrLimit24G)
      (convertLimits t (1 ≤ ·) 4 54 (phyCrossReferenceHTAndVHTTxPowerLimit t.txPwrLimit5G)) := rfl

theorem valueAt_entered (band : BandType) (path txNum rate : Nat) :
    valueAt (enteredTables h es) band path txNum rate = valueAt h band path txNum rate := by
  rw [← valueAt_noLimits, enteredTables, noLimits_entered]
  rfl

theorem valueAt_stored (band : BandType) (path txNum rate : Nat) :
    valueAt (phyStoreTxPowerByRateBase (enteredTables h es)) band path txNum rate
      = valueAt h band path txNum rate := by
  rw [valueAt, toTxPower_stored, ← valueAt]
  exact valueAt_entered ..

/-- **The difference of a rate.** -/
theorem valueAt_configured {band : BandType} {path rate s : Nat} (hp : path < 2)
    (hrate : rateSection rate = some s) (hs : s ∈ bandSections band) :
    valueAt (configuredTables h es) band path (sectionTxNum s) rate
      = valueAt h band path (sectionTxNum s) rate - valueAt h band path (sectionTxNum s) (baseRate s) := by
  obtain ⟨⟨x, hx, hbase, hr⟩, -⟩ := relativeSections_band hrate hs
  have hn : sectionTxNum s < 4 := by
    unfold sectionTxNum
    have h9 : s ≤ 9 := (storedBases_sections _ (storedBases_band band s hs).1).1
    split
    · decide
    · split <;> omega
  have hrel := valueAt_relative (phyStoreTxPowerByRateBase (enteredTables h es)) band
    (show path < 4 by omega) hn hx hr
  rw [valueAt_stored, valueAt_stored, hbase] at hrel
  rw [configuredTables, convert_eq_relimit, valueAt_relimit, relativeTables, phyTxPowerByRateConfiguration,
    hrel]

/-- **The base of a section.** -/
theorem base_configured (h : PowerTables) (es : List LimitEntry) {band : BandType} {path s : Nat}
    (hp : path < 2) (hs : (band, s, sectionTxNum s, baseRate s) ∈ storedBases) :
    phyGetTxPowerByRateBase (configuredTables h es) band path (sectionTxNum s) s
      = (valueAt h band path (sectionTxNum s) (baseRate s)).toUInt8 := by
  rw [configuredTables, convert_eq_relimit, base_relimit, relativeTables, phyTxPowerByRateConfiguration,
    ← base_noValues, noValues_relative, base_noValues, base_stored (enteredTables h es) hp hs]
  exact congrArg Int8.toUInt8 (valueAt_entered ..)

theorem limits_noValues (t : PowerTables) (band : BandType) : t.noValues.limits band = t.limits band := by
  cases band <;> rfl

theorem limits_relative (h : PowerTables) (es : List LimitEntry) (band : BandType) :
    (relativeTables h es).limits band = (enteredTables h es).limits band := by
  have hstored : (phyStoreTxPowerByRateBase (enteredTables h es)).limits band
      = (enteredTables h es).limits band := by
    have hsame := toTxPower_stored (enteredTables h es)
    cases band with
    | on24G => exact congrArg TxPower.txPwrLimit24G hsame
    | on5G => exact congrArg TxPower.txPwrLimit5G hsame
  rw [← limits_noValues, relativeTables, phyTxPowerByRateConfiguration, noValues_relative, limits_noValues,
    hstored]

theorem exact_noValues (t : PowerTables) : t.noValues.phyRegPgExactValue = t.phyRegPgExactValue := rfl

theorem exact_noLimits (t : PowerTables) : t.noLimits.phyRegPgExactValue = t.phyRegPgExactValue := rfl

theorem exact_storeBase (t : PowerTables) (k : Nat × BandType × Nat × Nat × Nat) :
    (storeBase t k).phyRegPgExactValue = t.phyRegPgExactValue := by
  unfold storeBase phySetTxPowerByRateBase
  split
  · rfl
  · cases k.2.1 <;> dsimp only <;> split <;> rfl

theorem exact_stored (t : PowerTables) :
    (phyStoreTxPowerByRateBase t).phyRegPgExactValue = t.phyRegPgExactValue :=
  Sweep.foldl_frame (g := storeBase) PowerTables.phyRegPgExactValue (fun s k _ => exact_storeBase s k) t

theorem exact_relative (es : List LimitEntry) (hexact : h.phyRegPgExactValue = true) :
    (relativeTables h es).phyRegPgExactValue = true := by
  have hentered : (enteredTables h es).phyRegPgExactValue = true := by
    rw [← exact_noLimits, enteredTables, noLimits_entered]
    exact hexact
  rw [← exact_noValues, relativeTables, phyTxPowerByRateConfiguration, noValues_relative, exact_noValues,
    exact_stored, hentered]

end

/-! ## The limits in the end -/

/-- The limit that a place has: the smallest one entered for it, or in 5 GHz with 20 and 40 MHz for the
section it stands with. -/
def crossedLimit (es : List LimitEntry) (k : LimitPlace) : Nat :=
  if smallestLimit es k = 63 ∧ k.band = .on5G ∧ (k.bandwidth = 0 ∨ k.bandwidth = 1) ∧ 2 ≤ k.rateSection then
    smallestLimit es { k with rateSection := refSection k.rateSection }
  else smallestLimit es k

/-- A limit as a difference from a base; 63 is none. -/
def relativeLimit (l : Nat) (base : Int) : Int := if l = 63 then 63 else l - base

/-- Values are exact: two decimal digits. -/
def ExactValues (h : PowerTables) : Prop :=
  ∀ band path txNum i, 0 ≤ (h.txPwrByRateOffset band path txNum i).toInt
    ∧ (h.txPwrByRateOffset band path txNum i).toInt ≤ 99

/-- The exact value that is the base of a section. -/
def sectionBase (h : PowerTables) (band : BandType) (path s : Nat) : Int :=
  (valueAt h band path (sectionTxNum s) (baseRate s)).toInt

section

variable {h : PowerTables} {es : List LimitEntry}

theorem valueAt_exact (hvalues : ExactValues h) (band : BandType) (path txNum rate : Nat) :
    0 ≤ (valueAt h band path txNum rate).toInt ∧ (valueAt h band path txNum rate).toInt ≤ 99 := by
  have hzero : 0 ≤ (0 : Int8).toInt ∧ (0 : Int8).toInt ≤ 99 := by decide
  unfold valueAt phyGetTxPowerByRate
  dsimp only
  repeat' split
  all_goals first | exact hzero | exact hvalues ..

/-- Numbers this small are subtracted in eight bits as they are. -/
theorem sub_toInt {a b : Int8} (ha : 0 ≤ a.toInt) (ha' : a.toInt ≤ 99) (hb : 0 ≤ b.toInt) (hb' : b.toInt ≤ 99) :
    (a - b).toInt = a.toInt - b.toInt := by
  rw [Int8.toInt_sub]
  exact Int.bmod_eq_of_le (by omega) (by omega)

theorem maxPowerIndex_toInt : maxPowerIndex.toInt = 63 := by decide

theorem eq_maxPowerIndex {x : Int8} : x = maxPowerIndex ↔ x.toInt = 63 := by
  rw [← Int8.toInt_inj, maxPowerIndex_toInt]

/-- The limits on path A as they were entered, and none on path B. -/
theorem limitAt_enteredTables (h : PowerTables) (es : List LimitEntry) {k : LimitPlace} (hk : k.Listed) :
    (limitAt (enteredTables h es) k 0).toInt = smallestLimit es k
      ∧ limitAt (enteredTables h es) k 1 = maxPowerIndex := by
  have hinit := limitAt_init hk h (show 0 < 2 by decide)
  have hle := smallestLimit_le es k
  constructor
  · have h63 : (limitAt (phyInitTxPowerLimit h) k 0).toInt = 63 := by rw [hinit, maxPowerIndex_toInt]
    rw [enteredTables, limitAt_entered hk.channel es (by omega), h63]
    omega
  · rw [enteredTables, limitAt_entered_pathB hk.channel]
    exact limitAt_init hk h (by decide)

/-- What a limit becomes on either path, from path A. -/
theorem relative_path {f : Nat → Int8} {v : Int8} {l : Nat} {base : Int} (hA : (f 0).toInt = l) (hl : l ≤ 63)
    (hB : f 1 = maxPowerIndex) (hv : v.toInt = base) (hbase : 0 ≤ base) (hbase' : base ≤ 99) (p : Fin 2) :
    (if f 0 ≠ maxPowerIndex then f 0 - v else f p).toInt = relativeLimit l base := by
  unfold relativeLimit
  by_cases hmax : f 0 = maxPowerIndex
  · have h63 : l = 63 := by
      have hint := eq_maxPowerIndex.mp hmax
      omega
    have hp : f p = maxPowerIndex := match p with
      | 0 => hmax
      | 1 => hB
    rw [if_neg (not_not.mpr hmax), if_pos h63, hp, maxPowerIndex_toInt]
  · have h63 : ¬ l = 63 := fun he => hmax (eq_maxPowerIndex.mpr (by rw [hA, he]; rfl))
    rw [if_pos hmax, if_neg h63, sub_toInt (by omega) (by omega) (by omega) (by omega), hA, hv]

/-- What the cross reference makes of the entered limits. -/
theorem crossed_entered (h : PowerTables) (es : List LimitEntry) {k : LimitPlace} (hk : k.Listed)
    (hband : k.band = .on5G) (hs : k.rateSection ∈ bandSections .on5G) {i : Nat} (hi : i < 54)
    (hidx : phyGetChannelIndexOfTxPowerLimit .on5G k.channel = Int8.ofNat i) :
    (phyCrossReferenceHTAndVHTTxPowerLimit ((enteredTables h es).limits .on5G) k.regulation k.bandwidth
        k.rateSection (Int8.ofNat i) 0).toInt = crossedLimit es k
      ∧ phyCrossReferenceHTAndVHTTxPowerLimit ((enteredTables h es).limits .on5G) k.regulation k.bandwidth
          k.rateSection (Int8.ofNat i) 1 = maxPowerIndex := by
  obtain ⟨hA, hB⟩ := limitAt_enteredTables h es hk
  have hs9 : k.rateSection ≤ 9 := Nat.le_of_lt_succ hk.rateSection
  unfold limitAt at hA hB
  rw [hband, hidx] at hA hB
  refine ⟨?_, by rw [crossed_pathB, hB]⟩
  unfold crossedLimit
  by_cases hpair : (k.bandwidth = 0 ∨ k.bandwidth = 1) ∧ 2 ≤ k.rateSection
  · rw [crossed_pair _ hk.regulation hpair.1 hi hpair.2 hs9]
    unfold resolved
    have href : LimitPlace.Listed { k with rateSection := refSection k.rateSection } := by
      refine ⟨hk.regulation, hk.bandwidth, ?_, hk.channel⟩
      have hall : ∀ s ∈ bandSections .on5G, refSection s < 10 := by decide
      exact hall _ hs
    obtain ⟨hA', -⟩ := limitAt_enteredTables h es href
    unfold limitAt at hA'
    dsimp only at hA'
    rw [hband, hidx] at hA'
    by_cases hmax : smallestLimit es k = 63
    · rw [if_pos (eq_maxPowerIndex.mpr (by rw [hA, hmax]; rfl)), if_pos ⟨hmax, hband, hpair⟩, hA', hband]
    · rw [if_neg fun he => hmax (by rw [eq_maxPowerIndex, hA] at he; omega), if_neg fun hand => hmax hand.1, hA]
  · rw [crossed_single _ hpair, if_neg fun hand => hpair ⟨hand.2.2.1, hand.2.2.2⟩, hA]

theorem limits_relimit (t : PowerTables) (a b : PowerLimits) :
    (t.relimit a b).limits .on24G = a ∧ (t.relimit a b).limits .on5G = b := ⟨rfl, rfl⟩

theorem crossedLimit_le (es : List LimitEntry) (k : LimitPlace) : crossedLimit es k ≤ 63 := by
  unfold crossedLimit
  split
  · exact smallestLimit_le ..
  · exact smallestLimit_le ..

/-- **What a place has after the configuration**: the limit less the base in 2.4 GHz. -/
theorem limitAt_configured (es : List LimitEntry) (hexact : h.phyRegPgExactValue = true)
    (hvalues : ExactValues h) {k : LimitPlace} (hk : k.Listed) (hs : k.rateSection ∈ bandSections k.band)
    (p : Fin 2) :
    (limitAt (configuredTables h es) k p).toInt
      = relativeLimit (crossedLimit es k) (sectionBase h .on24G p k.rateSection) := by
  obtain ⟨i, hi, hidx⟩ := channelIndex_listed hk.channel
  obtain ⟨hA, hB⟩ := limitAt_enteredTables h es hk
  obtain ⟨hb0, hb99⟩ := valueAt_exact hvalues .on24G p (sectionTxNum k.rateSection) (baseRate k.rateSection)
  -- the base that the conversion takes off
  have hbase : (phyGetTxPowerByRateBase (relativeTables h es) .on24G p (sectionTxNum k.rateSection)
      k.rateSection).toInt8.toInt = sectionBase h .on24G p k.rateSection := by
    have hcfg := base_configured h es p.isLt (storedBases_band k.band k.rateSection hs).2
    rw [configuredTables, convert_eq_relimit, base_relimit] at hcfg
    rw [hcfg, Int8.toInt8_toUInt8]
    rfl
  have hexact' := exact_relative es hexact
  have hsame := limits_relative h es k.band
  have hb := hk.bandwidth
  have hall24 : ∀ s ∈ bandSections .on24G, s ≤ 5 := by decide
  have hall5 : ∀ s ∈ bandSections .on5G, 1 ≤ s := by decide
  unfold limitAt
  unfold limitAt at hA hB
  rw [hidx] at hA hB ⊢
  cases hband : k.band with
  | on24G =>
      rw [hband] at hi hb hs hA hB hsame
      have hsame' : (relativeTables h es).txPwrLimit24G = (enteredTables h es).limits .on24G := hsame
      have hconv := convertLimits_eq (· ≤ 5) hexact' (relativeTables h es).txPwrLimit24G hk.regulation
        (show k.bandwidth < 2 from hb) (show i < 14 from hi) (by decide) hk.rateSection (hall24 _ hs) p
      rw [configuredTables, convert_eq_relimit, (limits_relimit ..).1, hconv, hsame']
      -- no limit of 2.4 GHz is crossed with another
      have hcross : crossedLimit es k = smallestLimit es k := if_neg fun hand => by
        rw [hband] at hand
        exact absurd hand.2.1 (by decide)
      rw [hcross]
      exact relative_path
        (f := (enteredTables h es).limits .on24G k.regulation k.bandwidth k.rateSection (Int8.ofNat i))
        hA (smallestLimit_le es k) hB hbase hb0 hb99 p
  | on5G =>
      rw [hband] at hi hb hs hsame hidx
      -- those of 5 GHz are crossed first, and the conversion sees the result
      obtain ⟨hcA, hcB⟩ := crossed_entered h es hk hband hs hi hidx
      have hsame' : (relativeTables h es).txPwrLimit5G = (enteredTables h es).limits .on5G := hsame
      have hconv := convertLimits_eq (1 ≤ ·) hexact'
        (phyCrossReferenceHTAndVHTTxPowerLimit (relativeTables h es).txPwrLimit5G) hk.regulation
        (show k.bandwidth < 4 from hb) (show i < 54 from hi) (by decide) hk.rateSection (hall5 _ hs) p
      rw [configuredTables, convert_eq_relimit, (limits_relimit ..).2, hconv, hsame']
      exact relative_path (f := phyCrossReferenceHTAndVHTTxPowerLimit ((enteredTables h es).limits .on5G)
        k.regulation k.bandwidth k.rateSection (Int8.ofNat i)) hcA (crossedLimit_le es k) hcB hbase hb0 hb99 p

end

/-! ## What the configuration leaves alone -/

/-- All but the three tables. -/
def PowerTables.settings (t : PowerTables) : TxPower :=
  { t.toTxPower with
    txPwrByRateOffset := fun _ _ _ _ => 0
    txPwrLimit24G := fun _ _ _ _ _ => 0
    txPwrLimit5G := fun _ _ _ _ _ => 0 }

section

variable (t : PowerTables)

theorem settings_noLimits : t.noLimits.settings = t.settings := rfl

theorem settings_noValues : t.noValues.settings = t.settings := rfl

theorem settings_relimit (a b : PowerLimits) : (t.relimit a b).settings = t.settings := rfl

theorem settings_stored : (phyStoreTxPowerByRateBase t).settings = t.settings :=
  congrArg (fun h : TxPower => { h with
    txPwrByRateOffset := fun _ _ _ _ => 0
    txPwrLimit24G := fun _ _ _ _ _ => 0
    txPwrLimit5G := fun _ _ _ _ _ => 0 }) (toTxPower_stored t)

end

/-- **The settings are as before.** -/
theorem settings_configured (h : PowerTables) (es : List LimitEntry) :
    (configuredTables h es).settings = h.settings := by
  rw [configuredTables, convert_eq_relimit, settings_relimit, relativeTables, phyTxPowerByRateConfiguration,
    ← settings_noValues, noValues_relative, settings_noValues, settings_stored, ← settings_noLimits,
    enteredTables, noLimits_entered]
  rfl

section

variable {h h' : PowerTables} (hsame : h'.settings = h.settings) (q : PowerQuery)

include hsame

theorem baseOf_settings : baseOf h'.toTxPower q = baseOf h.toTxPower q :=
  show baseOf h'.settings q = baseOf h.settings q by rw [hsame]

theorem offsetOf_settings : offsetOf h'.toTxPower q = offsetOf h.toTxPower q :=
  show offsetOf h'.settings q = offsetOf h.settings q by rw [hsame]

/-- What the limit is looked up with. -/
theorem limitSettings (band : BandType) : h'.regEnableTxPowerLimit = h.regEnableTxPowerLimit
    ∧ h'.eepromRegulatory = h.eepromRegulatory ∧ h'.regulation band = h.regulation band
    ∧ h'.currentChannelBw = h.currentChannelBw ∧ h'.currentChannel = h.currentChannel :=
  ⟨show h'.settings.regEnableTxPowerLimit = h.settings.regEnableTxPowerLimit by rw [hsame],
    show h'.settings.eepromRegulatory = h.settings.eepromRegulatory by rw [hsame],
    show h'.settings.regulation band = h.settings.regulation band by rw [hsame],
    show h'.settings.currentChannelBw = h.settings.currentChannelBw by rw [hsame],
    show h'.settings.currentChannel = h.settings.currentChannel by rw [hsame]⟩

theorem percentage_settings : h'.txPwrInPercentage = h.txPwrInPercentage :=
  show h'.settings.txPwrInPercentage = h.settings.txPwrInPercentage by rw [hsame]

theorem normalChip_settings : h'.normalChip = h.normalChip :=
  show h'.settings.normalChip = h.settings.normalChip by rw [hsame]

theorem takesDifference_settings : TakesDifference h'.toTxPower q ↔ TakesDifference h.toTxPower q :=
  show TakesDifference h'.settings q ↔ TakesDifference h.settings q by rw [hsame]

end

/-! ## The limit in force -/

/-- The bandwidths of a band. -/
def bandWidths : BandType → List ChannelWidth
  | .on24G => [.w20, .w40]
  | .on5G => [.w20, .w40, .w80, .w160]

/-- The bandwidth whose limits a section has. -/
def standingWidth (band : BandType) (width : ChannelWidth) (s : Nat) : Nat :=
  (limitBandwidth band width (some s)).getD 0

/-- The worldwide limit is the lowest one of all. -/
def byRegulation (limits : Nat → Nat) (regulation : Nat) : Nat :=
  if regulation = 3 then min (min (limits 0) (limits 1)) (min (limits 2) (limits 3)) else limits regulation

/-- **The limit that is looked up**: that of the channel and of the bandwidth which are current. -/
def limitInForce (h : PowerTables) (es : List LimitEntry) (band : BandType) (s : Nat) : Nat :=
  byRegulation (fun regulation => crossedLimit es
    ⟨regulation, band, standingWidth band h.currentChannelBw s, s, h.currentChannel⟩) (h.regulation band)

theorem relativeLimit_mono {l l' : Nat} {base : Int} (hbase : 0 ≤ base) (hl' : l' ≤ 63) (hle : l ≤ l') :
    relativeLimit l base ≤ relativeLimit l' base := by
  unfold relativeLimit
  split <;> split <;> omega

theorem relativeLimit_bounds {l : Nat} {base : Int} (hl : l ≤ 63) (hbase : 0 ≤ base) (hbase' : base ≤ 99) :
    -99 ≤ relativeLimit l base ∧ relativeLimit l base ≤ 63 := by
  unfold relativeLimit
  split <;> omega

theorem relativeLimit_min {l l' : Nat} {base : Int} (hbase : 0 ≤ base) (hl : l ≤ 63) (hl' : l' ≤ 63) :
    relativeLimit (min l l') base = min (relativeLimit l base) (relativeLimit l' base) := by
  obtain hle | hle := Nat.le_total l l'
  · have hmono := relativeLimit_mono hbase hl' hle
    rw [Nat.min_eq_left hle]
    omega
  · have hmono := relativeLimit_mono hbase hl hle
    rw [Nat.min_eq_right hle]
    omega

theorem lower_toInt (a b : Int8) : (if a < b then a else b).toInt = min a.toInt b.toInt := by
  split
  case isTrue hlt =>
    have hint := Int8.lt_iff_toInt_lt.mp hlt
    omega
  case isFalse hnot =>
    have hint : ¬ a.toInt < b.toInt := fun hi => hnot (Int8.lt_iff_toInt_lt.mpr hi)
    omega

theorem worldWide_toInt (limits : Nat → Int8) : (phyGetWorldWideLimit limits).toInt
    = min (min (limits 0).toInt (limits 1).toInt) (min (limits 2).toInt (limits 3).toInt) := by
  unfold phyGetWorldWideLimit
  rw [show List.range 4 = [0, 1, 2, 3] from rfl]
  simp only [List.foldl_cons, List.foldl_nil, lower_toInt]
  omega

theorem byRegulation_le {limits : Nat → Nat} {m : Nat} (h : ∀ r < 4, limits r ≤ m) {regulation : Nat}
    (hr : regulation < 4) : byRegulation limits regulation ≤ m := by
  unfold byRegulation
  split
  · exact Nat.le_trans (Nat.min_le_left _ _) (Nat.le_trans (Nat.min_le_left _ _) (h 0 (by decide)))
  · exact h regulation hr

/-- A limit of every regulation is made a difference from the same base. -/
theorem regulation_toInt (limits : Nat → Int8) {l : Nat → Nat} {base : Int} (hbase : 0 ≤ base)
    (hl : ∀ r < 4, l r ≤ 63) (hlimits : ∀ r < 4, (limits r).toInt = relativeLimit (l r) base) {regulation : Nat}
    (hr : regulation < 4) :
    (if regulation = 3 then phyGetWorldWideLimit limits else limits regulation).toInt
      = relativeLimit (byRegulation l regulation) base := by
  unfold byRegulation
  by_cases hww : regulation = 3
  · have h0 := hl 0 (by decide)
    have h1 := hl 1 (by decide)
    have h2 := hl 2 (by decide)
    have h3 := hl 3 (by decide)
    rw [if_pos hww, if_pos hww, worldWide_toInt, hlimits 0 (by decide), hlimits 1 (by decide),
      hlimits 2 (by decide), hlimits 3 (by decide), relativeLimit_min hbase (by omega) (by omega),
      relativeLimit_min hbase h0 h1, relativeLimit_min hbase h2 h3]
  · rw [if_neg hww, if_neg hww, hlimits regulation hr]

/-- The table has the bandwidth. -/
theorem standingWidth_lt {band : BandType} {width : ChannelWidth} {s : Nat} (hw : width ∈ bandWidths band)
    (hs : s ∈ bandSections band) : limitBandwidth band width (some s) = some (standingWidth band width s)
      ∧ standingWidth band width s < tableWidths band := by
  have hall : ∀ band : BandType, ∀ w ∈ bandWidths band, ∀ s ∈ bandSections band,
      limitBandwidth band w (some s) = some (standingWidth band w s) ∧ standingWidth band w s < tableWidths band
    | .on24G => by decide +kernel
    | .on5G => by decide +kernel
  exact hall band width hw s hs

theorem bandOf_listed (h : TxPower) {q : PowerQuery} {band : BandType} (hc : q.channel ∈ listedChannels band) :
    bandOf h q = band := by
  have hall : ∀ band : BandType, ∀ c ∈ listedChannels band, decide (c ≤ 14) = decide (band = .on24G)
    | .on24G => by decide +kernel
    | .on5G => by decide +kernel
  have hle := hall band q.channel hc
  have hband : (phyGetTxPowerIndexBase h q.path q.rate q.width q.channel).2 = decide (q.channel ≤ 14) := by
    unfold phyGetTxPowerIndexBase phyGetChnlIndex
    by_cases hlow : q.channel ≤ 14
    · simp [hlow]
    · simp [hlow]
  unfold bandOf
  rw [hband, hle]
  cases band <;> rfl

/-- What the index of a rate is asked for: valid channels and bandwidths of a band, with limits in use, no
offset and full power. -/
structure PowerCase (h : PowerTables) (q : PowerQuery) (band : BandType) (s : Nat) : Prop where
  enabled : ¬ ((h.regEnableTxPowerLimit = 2 ∧ h.eepromRegulatory ≠ 1) ∨ h.regEnableTxPowerLimit = 0)
  exactValue : h.phyRegPgExactValue = true
  values : ExactValues h
  path : q.path < 2
  rate : rateSection q.rate = some s
  sections : s ∈ bandSections band
  channel : q.channel ∈ listedChannels band
  currentChannel : h.currentChannel ∈ listedChannels band
  currentWidth : h.currentChannelBw ∈ bandWidths band
  regulation : h.regulation band < 4
  offset : offsetOf h.toTxPower q = 0
  power : reduction h.txPwrInPercentage = 0

section

variable {h : PowerTables} {q : PowerQuery} {band : BandType} {s : Nat} (es : List LimitEntry)

/-- The exact value of the rate. -/
def rateValue (h : PowerTables) (q : PowerQuery) (band : BandType) (s : Nat) : Int :=
  (valueAt h band q.path (sectionTxNum s) q.rate).toInt

theorem PowerCase.differenceOf_eq (hc : PowerCase h q band s) :
    (differenceOf (configuredTables h es).toTxPower q).toInt
      = rateValue h q band s - sectionBase h band q.path s := by
  obtain ⟨-, hnum⟩ := relativeSections_band hc.rate hc.sections
  obtain ⟨hv, hv99⟩ := valueAt_exact hc.values band q.path (sectionTxNum s) q.rate
  obtain ⟨hb, hb99⟩ := valueAt_exact hc.values band q.path (sectionTxNum s) (baseRate s)
  rw [differenceOf, bandOf_listed _ hc.channel, hnum, ← valueAt, valueAt_configured hc.path hc.rate hc.sections,
    sub_toInt hv hv99 hb hb99]
  rfl

/-- The limit as it is looked up. -/
theorem phyGetTxPowerLimit_eq (c : PowerTables) {width : ChannelWidth} {path rate w : Nat} {channel : UInt8}
    (henabled : ¬ ((c.regEnableTxPowerLimit = 2 ∧ c.eepromRegulatory ≠ 1) ∨ c.regEnableTxPowerLimit = 0))
    (hrate : rateSection rate = some s) (hwidth : limitBandwidth band width (some s) = some w)
    (hidx : phyGetChannelIndexOfTxPowerLimit band channel ≠ -1) :
    phyGetTxPowerLimit c.toTxPower band width path rate channel
      = if c.regulation band = 3 then phyGetWorldWideLimit fun r => limitAt c ⟨r, band, w, s, channel⟩ path
        else limitAt c ⟨c.regulation band, band, w, s, channel⟩ path := by
  unfold phyGetTxPowerLimit
  rw [if_neg henabled, hrate, hwidth]
  dsimp only
  rw [if_neg hidx]
  cases band <;> rfl

theorem PowerCase.limitOf_eq (hc : PowerCase h q band s) :
    (limitOf (configuredTables h es).toTxPower q).toInt
      = relativeLimit (limitInForce h es band s) (sectionBase h .on24G q.path s) := by
  obtain ⟨henable, hregulatory, hregulation, hwidth, hchannel⟩ := limitSettings (settings_configured h es) band
  obtain ⟨hstand, hlt⟩ := standingWidth_lt hc.currentWidth hc.sections
  have hidx : phyGetChannelIndexOfTxPowerLimit band h.currentChannel ≠ -1 := by
    obtain ⟨i, hi, hidx⟩ := channelIndex_listed hc.currentChannel
    have hint : (Int8.ofNat i).toInt = i := Int8.toInt_ofNat_of_lt (Nat.lt_trans hi (by cases band <;> decide))
    rw [hidx]
    intro he
    rw [he] at hint
    have hneg : (-1 : Int8).toInt = -1 := rfl
    omega
  have hs10 : s < 10 := by
    have hall : ∀ band : BandType, ∀ s ∈ bandSections band, s < 10
      | .on24G => by decide
      | .on5G => by decide
    exact hall band s hc.sections
  rw [limitOf, bandOf_listed _ hc.channel, hwidth, hchannel, phyGetTxPowerLimit_eq _ (by
    rw [henable, hregulatory]
    exact hc.enabled) hc.rate hstand hidx, hregulation]
  refine regulation_toInt (fun r => limitAt (configuredTables h es)
      ⟨r, band, standingWidth band h.currentChannelBw s, s, h.currentChannel⟩ q.path)
    (valueAt_exact hc.values .on24G q.path _ _).1 (fun r _ => crossedLimit_le ..) (fun r hr => ?_) hc.regulation
  exact limitAt_configured es hc.exactValue hc.values
    (k := ⟨r, band, standingWidth band h.currentChannelBw s, s, h.currentChannel⟩)
    ⟨hr, hlt, hs10, hc.currentChannel⟩ hc.sections ⟨q.path, hc.path⟩

/-! ## The index under a limit -/

/-- The limits that bear on a rate: those entered for the bandwidth it is asked for, and for the bandwidth
whose limits its section has. -/
def boundingLimits (h : PowerTables) (es : List LimitEntry) (q : PowerQuery) (band : BandType) (s : Nat) :
    List Nat :=
  [none, some s].filterMap fun sect => (limitBandwidth band q.width sect).map fun bandwidth =>
    smallestLimit es ⟨h.regulation band, band, bandwidth, s, q.channel⟩

/-- **The limit is kept**: the index is 0, or the base of the section and what the index is above its own
base come to no more. -/
def WithinLimit (c : PowerTables) (q : PowerQuery) (s : Nat) (limit : Nat) : Prop :=
  let base := phyGetTxPowerByRateBase c (bandOf c.toTxPower q) q.path (phyGetCurrentTxNum8812A q.rate) s
  let index := (phyGetTxPowerIndex8812A c.toTxPower q).toNat
  index = 0 ∨ (base.toNat : Int) + (index - (baseOf c.toTxPower q).toNat) ≤ limit

/-- The limit as a difference. Both bands have the base of 2.4 GHz. -/
def limitDifference (h : PowerTables) (es : List LimitEntry) (q : PowerQuery) (band : BandType) (s : Nat) :
    Int :=
  relativeLimit (limitInForce h es band s) (sectionBase h .on24G q.path s)

/-- The base with the difference that is taken. -/
def plannedSum (h : PowerTables) (es : List LimitEntry) (q : PowerQuery) (band : BandType) (s : Nat) : Int :=
  (baseOf h.toTxPower q).toNat
    + if TakesDifference h.toTxPower q then
        min (rateValue h q band s - sectionBase h band q.path s) (limitDifference h es q band s)
      else 0

/-- What a test chip takes off. -/
def droppedBit (normalChip : Bool) (index : Int) : Int := if normalChip = true then 0 else index % 2

/-- Where the limit is kept. In range the value of the rate is within the limit, or the limit in force as it
is applied to the base of the band; without a difference the base is. Out of range the sum passes 255, or
the highest index is within the limit. -/
def LimitKept (h : PowerTables) (es : List LimitEntry) (q : PowerQuery) (band : BandType) (s : Nat)
    (limit : Nat) : Prop :=
  let sum := plannedSum h es q band s
  let base := sectionBase h band q.path s
  let dropped := droppedBit h.normalChip
  if 0 ≤ sum ∧ sum ≤ 63 then
    sum ≤ dropped sum ∨
      if TakesDifference h.toTxPower q then
        rateValue h q band s ≤ limit + dropped sum ∨ base + limitDifference h es q band s ≤ limit + dropped sum
      else base ≤ limit + dropped sum
  else 256 ≤ sum ∨ base + 63 ≤ limit + (baseOf h.toTxPower q).toNat + dropped 63

instance (h : PowerTables) (es : List LimitEntry) (q : PowerQuery) (band : BandType) (s limit : Nat) :
    Decidable (LimitKept h es q band s limit) := by
  dsimp only [LimitKept]
  infer_instance

/-- A sum without a reduction: above 63 it is 63, and below 0 too; from 256 on it starts anew. -/
theorem wrappedIndex_zero (sum : Int) (hlo : -193 ≤ sum) (hhi : sum < 512) :
    (0 ≤ sum ∧ sum ≤ 63 → wrappedIndex sum 0 = sum) ∧
      (¬ (0 ≤ sum ∧ sum ≤ 63) → sum < 256 → wrappedIndex sum 0 = 63) ∧
      (0 ≤ wrappedIndex sum 0 ∧ wrappedIndex sum 0 ≤ 63) := by
  unfold wrappedIndex
  split
  · refine ⟨?_, ?_, ?_⟩ <;> omega
  · refine ⟨?_, ?_, ?_⟩ <;> omega

theorem droppedBit_bounds (normalChip : Bool) (index : Int) :
    0 ≤ droppedBit normalChip index ∧ droppedBit normalChip index ≤ 1 := by
  unfold droppedBit
  split <;> omega

theorem PowerCase.base_eq (hc : PowerCase h q band s) :
    ((phyGetTxPowerByRateBase (configuredTables h es) band q.path (sectionTxNum s) s).toNat : Int)
      = sectionBase h band q.path s := by
  obtain ⟨hb, hb99⟩ := valueAt_exact hc.values band q.path (sectionTxNum s) (baseRate s)
  rw [base_configured h es hc.path (storedBases_band band s hc.sections).1, toUInt8_toNat, sectionBase]
  omega

/-- The sum of the configured tables. -/
theorem PowerCase.takenSum_eq (hc : PowerCase h q band s) :
    takenSum (configuredTables h es).toTxPower q = plannedSum h es q band s := by
  have hsame := settings_configured h es
  have htakes := takesDifference_settings hsame q
  unfold takenSum plannedSum takenDifference limitedDifference
  rw [baseOf_settings hsame, offsetOf_settings hsame, hc.offset, hc.differenceOf_eq es, hc.limitOf_eq es,
    show (0 : Int8).toInt = 0 from rfl, Int.add_zero]
  by_cases ht : TakesDifference h.toTxPower q
  · rw [if_pos ht, if_pos (htakes.mpr ht)]
    rfl
  · rw [if_neg ht, if_neg fun ht' => ht (htakes.mp ht')]

/-- **The index.** -/
theorem PowerCase.index_planned (hc : PowerCase h q band s) :
    ((phyGetTxPowerIndex8812A (configuredTables h es).toTxPower q).toNat : Int)
      = wrappedIndex (plannedSum h es q band s) 0
        - droppedBit h.normalChip (wrappedIndex (plannedSum h es q band s) 0) := by
  have hsame := settings_configured h es
  rw [index_eq_even, hc.takenSum_eq es, percentage_settings hsame, hc.power, normalChip_settings hsame]
  rfl

theorem PowerCase.limitDifference_bounds (hc : PowerCase h q band s) :
    -99 ≤ limitDifference h es q band s ∧ limitDifference h es q band s ≤ 63 := by
  obtain ⟨hb, hb99⟩ := valueAt_exact hc.values .on24G q.path (sectionTxNum s) (baseRate s)
  exact relativeLimit_bounds (byRegulation_le (fun r _ => crossedLimit_le ..) hc.regulation) hb hb99

/-- What is added to the base index. -/
def takenPart (h : PowerTables) (es : List LimitEntry) (q : PowerQuery) (band : BandType) (s : Nat) : Int :=
  plannedSum h es q band s - (baseOf h.toTxPower q).toNat

theorem PowerCase.takenPart_bounds (hc : PowerCase h q band s) :
    -99 ≤ takenPart h es q band s ∧ takenPart h es q band s ≤ 63 := by
  obtain ⟨hb, hb99⟩ := valueAt_exact hc.values band q.path (sectionTxNum s) (baseRate s)
  obtain ⟨hv, hv99⟩ := valueAt_exact hc.values band q.path (sectionTxNum s) q.rate
  obtain ⟨hx, hx63⟩ := hc.limitDifference_bounds es
  rw [← rateValue] at hv hv99
  rw [← sectionBase] at hb hb99
  unfold takenPart plannedSum
  split <;> omega

/-- In range, what is added keeps the base within the limit. -/
theorem taken_within_iff (h : PowerTables) (q : PowerQuery) (band : BandType) (s : Nat) (bound : Int) :
    sectionBase h band q.path s + takenPart h es q band s ≤ bound ↔
      if TakesDifference h.toTxPower q then
        rateValue h q band s ≤ bound ∨ sectionBase h band q.path s + limitDifference h es q band s ≤ bound
      else sectionBase h band q.path s ≤ bound := by
  unfold takenPart plannedSum
  by_cases htakes : TakesDifference h.toTxPower q
  · rw [if_pos htakes, if_pos htakes]
    omega
  · rw [if_neg htakes, if_neg htakes]
    omega

/-- **The limit is kept exactly where the values say so**, whatever the limit. -/
theorem PowerCase.within_iff (hc : PowerCase h q band s) (limit : Nat) :
    WithinLimit (configuredTables h es) q s limit ↔ LimitKept h es q band s limit := by
  obtain ⟨-, hnum⟩ := relativeSections_band hc.rate hc.sections
  obtain ⟨hb, hb99⟩ := valueAt_exact hc.values band q.path (sectionTxNum s) (baseRate s)
  obtain ⟨hm, hm63⟩ := hc.takenPart_bounds es
  have hindex := hc.index_planned es
  have hlt := (baseOf h.toTxPower q).toNat_lt
  have hsum : plannedSum h es q band s = (baseOf h.toTxPower q).toNat + takenPart h es q band s := by
    unfold takenPart
    omega
  obtain ⟨hin, hout, -, hhi⟩ := wrappedIndex_zero (plannedSum h es q band s) (by omega) (by omega)
  rw [← sectionBase] at hb hb99
  unfold WithinLimit LimitKept
  dsimp only
  rw [bandOf_listed _ hc.channel, hnum, hc.base_eq es, baseOf_settings (settings_configured h es),
    ← taken_within_iff es]
  by_cases hrange : 0 ≤ plannedSum h es q band s ∧ plannedSum h es q band s ≤ 63
  · rw [hin hrange] at hindex
    rw [if_pos hrange]
    omega
  · have hbit := droppedBit_bounds h.normalChip 63
    rw [if_neg hrange]
    by_cases hlow : plannedSum h es q band s < 256
    · rw [hout hrange hlow] at hindex
      omega
    · -- the base index is so high that the highest index and a value stay below it
      have hdrop := droppedBit_bounds h.normalChip (wrappedIndex (plannedSum h es q band s) 0)
      omega

/-- **In 2.4 GHz the limit in force is kept** where a difference is taken and the sum is in range: the limit
and the value are differences from one base. -/
theorem PowerCase.within_24G (hc : PowerCase h q .on24G s) (htakes : TakesDifference h.toTxPower q)
    (hrange : 0 ≤ plannedSum h es q .on24G s ∧ plannedSum h es q .on24G s ≤ 63)
    (hlimit : limitInForce h es .on24G s < 63) :
    WithinLimit (configuredTables h es) q s (limitInForce h es .on24G s) := by
  have hdrop := droppedBit_bounds h.normalChip (plannedSum h es q .on24G s)
  refine (hc.within_iff es _).mpr ?_
  unfold LimitKept
  dsimp only
  rw [if_pos hrange, if_pos htakes]
  refine Or.inr (Or.inr ?_)
  unfold limitDifference relativeLimit
  rw [if_neg (by omega)]
  omega

end

/-- **After the configuration the index of a rate keeps within the smallest entered limit** exactly where
the values of the rates say so. -/
theorem power_limit_kept_iff {h : PowerTables} {q : PowerQuery} {band : BandType} {s : Nat}
    (es : List LimitEntry) (hc : PowerCase h q band s) :
    ∃ c, configurePower h (es.map LimitEntry.fields) = .done c ∧
      ∀ limit ∈ boundingLimits h es q band s, (WithinLimit c q s limit ↔ LimitKept h es q band s limit) :=
  ⟨configuredTables h es, configurePower_fields h es, fun limit _ => hc.within_iff es limit⟩

/-! ## Some settings -/

/-- A base that is the same everywhere, and values of 30 in 2.4 GHz and of 40 in 5 GHz, but for `MGN_MCS0`
with 48. -/
def samplePower (usbSpeed2 : Bool) (base : UInt8) (channel : UInt8) : PowerTables where
  toTxPower := { flatPower base 0 63 0 0 with
    usbSpeed2 := usbSpeed2
    currentChannel := channel
    txPwrByRateOffset := fun band _ _ i => if i = 12 then 48 else if band = .on24G then 30 else 40 }
  txPwrByRateBase24G := fun _ _ _ => 0
  txPwrByRateBase5G := fun _ _ _ => 0
  phyRegPgExactValue := true
  regPowerBase := 0

def sampleChannel : BandType → UInt8
  | .on24G => 6
  | .on5G => 36

/-- A limit of the FCC for HT with one stream and 20 MHz. -/
def sampleEntry (band : BandType) (limit : Fin 128) : LimitEntry where
  regulation := 0
  band := band
  bandwidth := 0
  rateSection := 2
  channel := sampleChannel band
  limit := limit
  width_lt := by cases band <;> decide
  listed := by cases band <;> decide

/-- `MGN_MCS0` on path B. -/
def sampleQuery (band : BandType) : PowerQuery where
  path := 1
  rate := mgnMcs 0
  width := .w20
  channel := sampleChannel band

theorem samplePower_case (usbSpeed2 : Bool) (base : UInt8) (band : BandType) :
    PowerCase (samplePower usbSpeed2 base (sampleChannel band)) (sampleQuery band) band 2 where
  enabled := show ¬ ((1 = 2 ∧ 0 ≠ 1) ∨ 1 = 0) by decide
  exactValue := rfl
  values band' path txNum i := by
    have hall : ∀ v ∈ [(48 : Int8), 30, 40], 0 ≤ v.toInt ∧ v.toInt ≤ 99 := by decide +kernel
    refine hall _ ?_
    unfold samplePower
    dsimp only
    split
    · simp
    · split <;> simp
  path := show 1 < 2 by decide
  rate := show rateSection (mgnMcs 0) = some 2 by decide
  sections := by cases band <;> decide
  channel := by cases band <;> decide
  currentChannel := show sampleChannel band ∈ listedChannels band by cases band <;> decide
  currentWidth := show ChannelWidth.w20 ∈ bandWidths band by cases band <;> decide
  regulation := show 0 < 4 by decide
  offset := rfl
  power := show reduction 0 = 0 by decide

/-- Limits of 27 and 24 in 2.4 GHz, and one in 5 GHz. -/
def sampleEntries : List LimitEntry := [sampleEntry .on24G 27, sampleEntry .on5G 20, sampleEntry .on24G 24]

/-- With a base of 40 the rate, whose value is 48, is lowered to the limit of 24. -/
theorem power_limit_kept_sample :
    boundingLimits (samplePower false 40 6) sampleEntries (sampleQuery .on24G) .on24G 2 = [24, 24] ∧
      ∃ c, configurePower (samplePower false 40 6) (sampleEntries.map LimitEntry.fields) = .done c ∧
        WithinLimit c (sampleQuery .on24G) 2 24 := by
  have hlimits : boundingLimits (samplePower false 40 6) sampleEntries (sampleQuery .on24G) .on24G 2
      = [24, 24] := by
    decide
  obtain ⟨c, hconf, hiff⟩ := power_limit_kept_iff sampleEntries (samplePower_case false 40 .on24G)
  refine ⟨hlimits, c, hconf, (hiff 24 (hlimits ▸ List.mem_cons_self)).mpr ?_⟩
  decide

/-- A setting with one limit, which bears on the rate and is not kept. -/
def Exceeds (h : PowerTables) (band : BandType) (limit : Fin 128) (index : Int) : Prop :=
  boundingLimits h [sampleEntry band limit] (sampleQuery band) band 2 = [limit.val, limit.val] ∧
    limit.val < 63 ∧
    ∃ c, configurePower h ([sampleEntry band limit].map LimitEntry.fields) = .done c ∧
      ((phyGetTxPowerIndex8812A c.toTxPower (sampleQuery band)).toNat : Int) = index ∧
      ¬ WithinLimit c (sampleQuery band) 2 limit

theorem exceeds_of {h : PowerTables} {band : BandType} {limit : Fin 128} {index : Int}
    (hc : PowerCase h (sampleQuery band) band 2) (hchip : h.normalChip = true) (sum : Int)
    (hsum : plannedSum h [sampleEntry band limit] (sampleQuery band) band 2 = sum)
    (hindex : wrappedIndex sum 0 = index)
    (hlimits : boundingLimits h [sampleEntry band limit] (sampleQuery band) band 2 = [limit.val, limit.val])
    (hlt : limit.val < 63) (hnot : ¬ LimitKept h [sampleEntry band limit] (sampleQuery band) band 2 limit) :
    Exceeds h band limit index := by
  refine ⟨hlimits, hlt, _, configurePower_fields _ _, ?_, fun hwithin => hnot ((hc.within_iff _ _).mp hwithin)⟩
  rw [hc.index_planned [sampleEntry band limit], hsum, hindex, droppedBit, if_pos hchip, Int.sub_zero]

/-- **A limit of 36 with a base of 40 in 5 GHz and of 30 in 2.4 GHz raises the index by 6**; over USB 2.0
one of 24 in 2.4 GHz does not lower it from a base of 30; and one of 24 lowers an index of 5 below 0, which
gives 63. -/
theorem power_limit_exceeded :
    Exceeds (samplePower false 20 36) .on5G 36 26 ∧ Exceeds (samplePower true 20 6) .on24G 24 20
      ∧ Exceeds (samplePower false 5 6) .on24G 24 63 := by
  refine ⟨?_, ?_, ?_⟩
  · exact exceeds_of (samplePower_case false 20 .on5G) rfl 26 (by decide) (by decide) (by decide) (by decide)
      (by decide)
  · exact exceeds_of (samplePower_case true 20 .on24G) rfl 20 (by decide) (by decide) (by decide) (by decide)
      (by decide)
  · exact exceeds_of (samplePower_case false 5 .on24G) rfl (-1) (by decide) (by decide) (by decide) (by decide)
      (by decide)

end Rtl8812au.Hal
