import Mathlib.Algebra.Ring.Int.Defs
import Mathlib.Algebra.Ring.Nat
import Mathlib.Data.List.Basic
import Mathlib.Tactic.Common

/-!
# The transmit power index

`PHY_GetTxPowerIndex_8812A` and `phy_TxPwrAdjInPercentage` of `hal/rtl8812a/rtl8812a_phycfg.c`, and what they
look up in `hal/hal_com_phycfg.c`: the base of a channel, the difference of a rate, the limit and the
tracking offset. A sum has eight signed bits, and is read as eight unsigned ones where it is reduced.

What stands behind the end of a table may be anything.
-/

namespace Rtl8812au.Hal

/-! ## Rates, widths, bands -/

/-- `IS_CCK_RATE`: `MGN_1M`, `MGN_2M`, `MGN_5_5M`, `MGN_11M`. -/
def cckRates : List Nat := [0x02, 0x04, 0x0b, 0x16]

/-- `MGN_6M` to `MGN_54M`. -/
def ofdmRates : List Nat := [0x0c, 0x12, 0x18, 0x24, 0x30, 0x48, 0x60, 0x6c]

def mgn6M : Nat := 0x0c
def mgn54M : Nat := 0x6c

/-- `MGN_MCS0` and the rates behind it. -/
def mgnMcs (i : Nat) : Nat := 0x80 + i

/-- `MGN_VHT1SS_MCS0` and the rates behind it, ten for each number of streams. -/
def mgnVht (ss i : Nat) : Nat := 0xa0 + 10 * (ss - 1) + i

/-- The rates from an HT one to `MGN_MCS31`, and from a VHT one to `MGN_VHT4SS_MCS9`. -/
def ratesFrom (mcs ss rate : Nat) : Prop :=
  (mgnMcs mcs ≤ rate ∧ rate ≤ mgnMcs 31) ∨ (mgnVht ss 0 ≤ rate ∧ rate ≤ mgnVht 4 9)

instance (mcs ss rate : Nat) : Decidable (ratesFrom mcs ss rate) := inferInstanceAs (Decidable (_ ∨ _))

inductive ChannelWidth where
  | w20
  | w40
  | w80
  | w160
  | w80p80
  deriving Repr, DecidableEq

inductive BandType where
  | on24G
  | on5G
  deriving Repr, DecidableEq

/-- What is read of the registry, of the bus and of `HAL_DATA_TYPE`. -/
structure TxPower where
  regEnableTxPowerByRate : Nat
  regEnableTxPowerLimit : Nat
  regPwrTblSel : Nat
  supported24G : Bool
  supported5G : Bool
  usbSpeed2 : Bool
  is8812AU : Bool
  normalChip : Bool
  eepromRegulatory : Nat
  regulation24G : Nat
  regulation5G : Nat
  currentChannelBw : ChannelWidth
  currentChannel : UInt8
  index24GCckBase : Nat → Nat → UInt8
  index24GBw40Base : Nat → Nat → UInt8
  index5GBw40Base : Nat → Nat → UInt8
  index5GBw80Base : Nat → Nat → UInt8
  ofdm24GDiff : Nat → Nat → Int8
  bw2024GDiff : Nat → Nat → Int8
  bw4024GDiff : Nat → Nat → Int8
  ofdm5GDiff : Nat → Nat → Int8
  bw205GDiff : Nat → Nat → Int8
  bw405GDiff : Nat → Nat → Int8
  bw805GDiff : Nat → Nat → Int8
  txPwrByRateOffset : BandType → Nat → Nat → Nat → Int8
  txPwrLimit24G : Nat → Nat → Nat → Int8 → Nat → Int8
  txPwrLimit5G : Nat → Nat → Nat → Int8 → Nat → Int8
  txPwrInPercentage : UInt8
  txPowerTrackControl : Bool
  remnantCckSwingIdx : Int8
  remnantOfdmSwingIdx : Nat → Int8

/-- `MAX_POWER_INDEX`. -/
def maxPowerIndex : Int8 := 0x3f

/-! ## The base -/

def channel5G : List UInt8 :=
  [36, 38, 40, 42, 44, 46, 48, 50, 52, 54, 56, 58, 60, 62, 64, 100, 102, 104, 106, 108, 110, 112,
    114, 116, 118, 120, 122, 124, 126, 128, 130, 132, 134, 136, 138, 140, 142, 144, 149, 151,
    153, 155, 157, 159, 161, 163, 165, 167, 168, 169, 171, 173, 175, 177]

def channel5G80M : List UInt8 := [42, 58, 106, 122, 138, 155, 171]

/-- `HAL_IsLegalChannel`. -/
def TxPower.isLegalChannel (h : TxPower) (channel : UInt8) : Bool :=
  if 14 < channel then h.supported5G else if 1 ≤ channel then h.supported24G else false

/-- `phy_GetChnlIndex`: the index stays as it is for a channel that is not in the list. -/
def phyGetChnlIndex (channel chnlIdx : UInt8) : Bool × UInt8 :=
  if channel ≤ 14 then (true, channel - 1)
  else (false, ((channel5G.idxOf? channel).map UInt8.ofNat).getD chnlIdx)

/-- `txPower += ...Diff[RFPath][...]`. -/
def addDiff (txPower : UInt8) (diff : Int8) : UInt8 := txPower + diff.toUInt8

/-- The differences of one stream to four; those of the fourth begin at `MGN_MCS24`, or with 80 MHz at
`MGN_MCS23`. -/
def addStreamDiffs (diff : Nat → Int8) (fourth rate : Nat) (txPower : UInt8) : UInt8 :=
  let txPower := if ratesFrom 0 1 rate then addDiff txPower (diff 0) else txPower
  let txPower := if ratesFrom 8 2 rate then addDiff txPower (diff 1) else txPower
  let txPower := if ratesFrom 16 3 rate then addDiff txPower (diff 2) else txPower
  if ratesFrom fourth 4 rate then addDiff txPower (diff 3) else txPower

section

variable (h : TxPower) (path rate : Nat)

/-- The difference of an OFDM rate. -/
def addOfdmDiff (diff : Int8) (txPower : UInt8) : UInt8 :=
  if (mgn6M ≤ rate ∧ rate ≤ mgn54M) ∧ rate ∉ cckRates then addDiff txPower diff else txPower

/-- The 2.4 GHz half of `PHY_GetTxPowerIndexBase`. -/
def indexBase24G (width : ChannelWidth) (chnlIdx : UInt8) : UInt8 :=
  let txPower : UInt8 :=
    if rate ∈ cckRates then h.index24GCckBase path chnlIdx.toNat
    else if mgn6M ≤ rate then h.index24GBw40Base path chnlIdx.toNat
    else 0
  let txPower := addOfdmDiff rate (h.ofdm24GDiff path 0) txPower
  match width with
  | .w20 => addStreamDiffs (h.bw2024GDiff path) 24 rate txPower
  | .w40 | .w80 => addStreamDiffs (h.bw4024GDiff path) 24 rate txPower
  | .w160 | .w80p80 => txPower

/-- The 5 GHz half. With 80 MHz the base starts anew. -/
def indexBase5G (width : ChannelWidth) (channel chnlIdx : UInt8) : UInt8 :=
  let txPower : UInt8 := if mgn6M ≤ rate then h.index5GBw40Base path chnlIdx.toNat else 0
  let txPower := addOfdmDiff rate (h.ofdm5GDiff path 0) txPower
  match width with
  | .w20 => addStreamDiffs (h.bw205GDiff path) 24 rate txPower
  | .w40 => addStreamDiffs (h.bw405GDiff path) 24 rate txPower
  | .w80 =>
    let chnlIdx := ((channel5G80M.idxOf? channel).map UInt8.ofNat).getD chnlIdx
    addStreamDiffs (h.bw805GDiff path) 23 rate (h.index5GBw80Base path chnlIdx.toNat)
  | .w160 | .w80p80 => txPower

/-- `PHY_GetTxPowerIndexBase`, with `bIn24G`. -/
def phyGetTxPowerIndexBase (width : ChannelWidth) (channel : UInt8) : UInt8 × Bool :=
  let legalIdx := if h.isLegalChannel channel then channel - 1 else 0
  let r := phyGetChnlIndex channel legalIdx
  if r.1 then (indexBase24G h path rate width r.2, true)
  else (indexBase5G h path rate width channel r.2, false)

/-! ## The difference of a rate -/

/-- `PHY_GetRateIndexOfTxPowerByRate`; 0 for what is no rate. -/
def phyGetRateIndexOfTxPowerByRate : Nat :=
  if rate ∈ cckRates then cckRates.idxOf rate
  else if rate ∈ ofdmRates then 4 + ofdmRates.idxOf rate
  else if mgnMcs 0 ≤ rate ∧ rate ≤ mgnMcs 31 then 12 + (rate - mgnMcs 0)
  else if mgnVht 1 0 ≤ rate ∧ rate ≤ mgnVht 4 9 then 44 + (rate - mgnVht 1 0)
  else 0

/-- `PHY_GetTxPowerByRate`. -/
def phyGetTxPowerByRate (band : BandType) (txNum : Nat) : Int8 :=
  let rateIndex := phyGetRateIndexOfTxPowerByRate rate
  if (h.regEnableTxPowerByRate = 2 ∧ h.eepromRegulatory = 2) ∨ h.regEnableTxPowerByRate = 0 then 0
  else if 3 < path then 0
  else if 4 ≤ txNum then 0
  else if 84 ≤ rateIndex then 0
  else h.txPwrByRateOffset band path txNum rateIndex

/-- `phy_GetCurrentTxNum_8812A`: 1 is two streams. -/
def phyGetCurrentTxNum8812A : Nat :=
  if (mgnMcs 8 ≤ rate ∧ rate ≤ mgnMcs 15) ∨ (mgnVht 2 0 ≤ rate ∧ rate ≤ mgnVht 2 9) then 1 else 0

end

/-! ## The limit -/

/-- `rateSection`. -/
def rateSection (rate : Nat) : Option Nat :=
  if rate ∈ cckRates then some 0
  else if rate ∈ ofdmRates then some 1
  else if mgnMcs 0 ≤ rate ∧ rate ≤ mgnMcs 31 then some (2 + (rate - mgnMcs 0) / 8)
  else if mgnVht 1 0 ≤ rate ∧ rate ≤ mgnVht 4 9 then some (6 + (rate - mgnVht 1 0) / 10)
  else none

/-- `bandwidth`: the first two sections only have 20 MHz, and HT has no 80 MHz. -/
def limitBandwidth (band : BandType) (width : ChannelWidth) (rateSection : Option Nat) : Option Nat :=
  let bandwidth : Option Nat :=
    match width with
    | .w20 => some 0
    | .w40 => some 1
    | .w80 => some 2
    | .w160 => some 3
    | .w80p80 => none
  if rateSection = some 1 ∨ rateSection = some 0 then some 0
  else if (rateSection = some 2 ∨ rateSection = some 3) ∧ band = .on5G ∧ bandwidth = some 2 then some 1
  else bandwidth

/-- `phy_GetChannelIndexOfTxPowerLimit`. -/
def phyGetChannelIndexOfTxPowerLimit (band : BandType) (channel : UInt8) : Int8 :=
  match band with
  | .on24G => channel.toInt8 - 1
  | .on5G => ((channel5G.idxOf? channel).map Int8.ofNat).getD (-1)

/-- `phy_GetWorldWideLimit` of `MAX_REGULATION_NUM` limits. -/
def phyGetWorldWideLimit (limits : Nat → Int8) : Int8 :=
  (List.range 4).foldl (fun m i => if limits i < m then limits i else m) (limits 0)

/-- `regulation`: `RegPwrTblSel` goes before what the device says. -/
def TxPower.regulation (h : TxPower) (band : BandType) : Nat :=
  match h.regPwrTblSel, band with
  | 1, _ => 2
  | 2, _ => 1
  | 3, _ => 0
  | 4, _ => 3
  | _, .on24G => h.regulation24G
  | _, .on5G => h.regulation5G

/-- `PHY_GetTxPowerLimit`. -/
def phyGetTxPowerLimit (h : TxPower) (band : BandType) (width : ChannelWidth) (path rate : Nat)
    (channel : UInt8) : Int8 :=
  if (h.regEnableTxPowerLimit = 2 ∧ h.eepromRegulatory ≠ 1) ∨ h.regEnableTxPowerLimit = 0 then
    maxPowerIndex
  else
    let channelIdx := phyGetChannelIndexOfTxPowerLimit band channel
    match limitBandwidth band width (rateSection rate), rateSection rate with
    | some bandwidth, some sect =>
      if channelIdx = -1 then maxPowerIndex
      else
        let limits : Nat → Int8 := fun i =>
          match band with
          | .on24G => h.txPwrLimit24G i bandwidth sect channelIdx path
          | .on5G => h.txPwrLimit5G i bandwidth sect channelIdx path
        if h.regulation band = 3 then phyGetWorldWideLimit limits else limits (h.regulation band)
    | _, _ => maxPowerIndex

/-! ## The index -/

/-- `PHY_GetTxPowerTrackingOffset`. -/
def phyGetTxPowerTrackingOffset (h : TxPower) (path rate : Nat) : Int8 :=
  if h.txPowerTrackControl = false then 0
  else if rate ∈ cckRates then h.remnantCckSwingIdx
  else h.remnantOfdmSwingIdx path

/-- `phy_TxPwrAdjInPercentage`; `RF6052_MAX_TX_PWR` is 63. -/
def phyTxPwrAdjInPercentage (txPwrInPercentage pTxPwrIdx : UInt8) : UInt8 :=
  let idx := if 63 < pTxPwrIdx then 63 else pTxPwrIdx
  let idx :=
    if txPwrInPercentage &&& 1 ≠ 0 then idx - 18
    else if txPwrInPercentage &&& 2 ≠ 0 then idx - 12
    else if txPwrInPercentage &&& 4 ≠ 0 then idx - 6
    else idx
  -- what has gone below 0 is above the maximum now
  if 63 < idx then 63 else idx

/-- `MGN_VHT1SS_MCS8`, `MGN_VHT1SS_MCS9`, `MGN_VHT2SS_MCS8` and `MGN_VHT2SS_MCS9`. -/
def isReducedVhtRate (rate : Nat) : Prop :=
  rate = mgnVht 1 8 ∨ rate = mgnVht 1 9 ∨ rate = mgnVht 2 8 ∨ rate = mgnVht 2 9

instance (rate : Nat) : Decidable (isReducedVhtRate rate) := inferInstanceAs (Decidable (_ ∨ _))

/-- What `PHY_GetTxPowerIndex_8812A` is called with. -/
structure PowerQuery where
  path : Nat
  rate : Nat
  width : ChannelWidth
  channel : UInt8

section

variable (h : TxPower) (q : PowerQuery)

/-- What the index is put together from: the base, the difference of the rate, the limit and the
tracking offset. -/
def baseOf : UInt8 := (phyGetTxPowerIndexBase h q.path q.rate q.width q.channel).1

def bandOf : BandType :=
  if (phyGetTxPowerIndexBase h q.path q.rate q.width q.channel).2 then .on24G else .on5G

def differenceOf : Int8 :=
  phyGetTxPowerByRate h q.path q.rate (bandOf h q) (phyGetCurrentTxNum8812A q.rate)

def limitOf : Int8 :=
  phyGetTxPowerLimit h (bandOf h q) h.currentChannelBw q.path q.rate h.currentChannel

def offsetOf : Int8 := phyGetTxPowerTrackingOffset h q.path q.rate

/-- `PHY_GetTxPowerIndex_8812A`. -/
def phyGetTxPowerIndex8812A : UInt8 :=
  let txPower : Int8 := (baseOf h q).toInt8
  let powerDiffByRate := if limitOf h q < differenceOf h q then limitOf h q else differenceOf h q
  let txPower :=
    if isReducedVhtRate q.rate then txPower + powerDiffByRate
    else
      let powerDiffByRate := if h.usbSpeed2 ∧ h.is8812AU then 0 else powerDiffByRate
      txPower + powerDiffByRate
  let txPower := txPower + offsetOf h q
  let txPower := (phyTxPwrAdjInPercentage h.txPwrInPercentage txPower.toUInt8).toInt8
  let txPower := if maxPowerIndex < txPower then maxPowerIndex else txPower
  let txPower := if txPower % 2 = 1 ∧ h.normalChip = false then txPower - 1 else txPower
  txPower.toUInt8

end

end Rtl8812au.Hal
