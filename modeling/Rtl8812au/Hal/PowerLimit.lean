import Mathlib.Data.List.ProdSigma
import Rtl8812au.Hal.TxPower
import Rtl8812au.Lib.Reach

/-!
# Power limits

`PHY_InitTxPowerLimit`, `PHY_SetTxPowerLimit`, `PHY_TxPowerByRateConfiguration` and
`PHY_ConvertTxPowerLimitToPowerIndex` of `hal/hal_com_phycfg.c`. The values of the rates and the limits come
as absolute values. The configuration turns each into a difference from the value of one rate of its
section, which is the base of the section.

A nested loop is a fold over its places, in the order in which the source goes through them.
-/

namespace Rtl8812au.Hal

/-- `TxPwrLimit_2_4G` and `TxPwrLimit_5G`, by regulation, bandwidth, rate section, channel and path. -/
abbrev PowerLimits := Nat → Nat → Nat → Int8 → Nat → Int8

def PowerLimits.set (t : PowerLimits) (regulation bw rateSection : Nat) (channel : Int8) (rfPath : Nat)
    (value : Int8) : PowerLimits := fun r b s c p =>
  if r = regulation ∧ b = bw ∧ s = rateSection ∧ c = channel ∧ p = rfPath then value else t r b s c p

/-- What `HAL_DATA_TYPE` has besides. -/
structure PowerTables extends TxPower where
  txPwrByRateBase24G : Nat → Nat → Nat → UInt8
  txPwrByRateBase5G : Nat → Nat → Nat → UInt8
  /-- `PhyRegPgValueType` is `PHY_REG_PG_EXACT_VALUE` -/
  phyRegPgExactValue : Bool
  regPowerBase : UInt8

/-! ## Entering limits -/

/-- What `PHY_InitTxPowerLimit` does to one of the two tables: the loops reach every entry of it. -/
def initLimits (bandwidths channels : Nat) (t : PowerLimits) : PowerLimits := fun r b s c p =>
  if r < 4 ∧ b < bandwidths ∧ s < 10 ∧ (0 ≤ c.toInt ∧ c.toInt < channels) ∧ p < 2 then maxPowerIndex
  else t r b s c p

/-- `PHY_InitTxPowerLimit`. -/
def phyInitTxPowerLimit (h : PowerTables) : PowerTables :=
  { h with
    txPwrLimit24G := initLimits 2 14 h.txPwrLimit24G
    txPwrLimit5G := initLimits 4 54 h.txPwrLimit5G }

/-- `eqNByte`. A character behind the end is the one that ends the string. -/
def eqNByte (str1 str2 : List Char) (num : Nat) : Bool :=
  num != 0 && (List.range num).all fun i => str1.getD i '\x00' == str2.getD i '\x00'

/-- `GetU1ByteIntegerFromStringInDecimal` from the digits `pInt` stands for on; `false` is for a character
that is no digit. -/
def getU1ByteInteger (pInt : UInt8) : List Char → Bool × UInt8
  | [] => (true, pInt)
  | c :: str =>
    if '0' ≤ c ∧ c ≤ '9' then getU1ByteInteger (pInt * 10 + (UInt8.ofNat c.toNat - 48)) str
    else (false, pInt)

/-- The strings of an entry. -/
structure LimitFields where
  regulation : List Char
  band : List Char
  bandwidth : List Char
  rateSection : List Char
  rfPath : List Char
  channel : List Char
  powerLimit : List Char
  deriving Repr, DecidableEq

/-- `regulation`. -/
def fieldRegulation (str : List Char) : Nat :=
  if eqNByte str ['F', 'C', 'C'] 3 then 0
  else if eqNByte str ['M', 'K', 'K'] 3 then 1
  else if eqNByte str ['E', 'T', 'S', 'I'] 4 then 2
  else if eqNByte str ['W', 'W', '1', '3'] 4 then 3
  else 0

/-- `rateSection`, by the section and the number of streams; none is the wrong rate section. -/
def fieldSection (str rfPath : List Char) : Option Nat :=
  if eqNByte str ['C', 'C', 'K'] 3 && eqNByte rfPath ['1', 'T'] 2 then some 0
  else if eqNByte str ['O', 'F', 'D', 'M'] 4 && eqNByte rfPath ['1', 'T'] 2 then some 1
  else if eqNByte str ['H', 'T'] 2 && eqNByte rfPath ['1', 'T'] 2 then some 2
  else if eqNByte str ['H', 'T'] 2 && eqNByte rfPath ['2', 'T'] 2 then some 3
  else if eqNByte str ['H', 'T'] 2 && eqNByte rfPath ['3', 'T'] 2 then some 4
  else if eqNByte str ['H', 'T'] 2 && eqNByte rfPath ['4', 'T'] 2 then some 5
  else if eqNByte str ['V', 'H', 'T'] 3 && eqNByte rfPath ['1', 'T'] 2 then some 6
  else if eqNByte str ['V', 'H', 'T'] 3 && eqNByte rfPath ['2', 'T'] 2 then some 7
  else if eqNByte str ['V', 'H', 'T'] 3 && eqNByte rfPath ['3', 'T'] 2 then some 8
  else if eqNByte str ['V', 'H', 'T'] 3 && eqNByte rfPath ['4', 'T'] 2 then some 9
  else none

/-- `bandwidth`. -/
def fieldBandwidth (str : List Char) : Nat :=
  if eqNByte str ['2', '0', 'M'] 3 then 0
  else if eqNByte str ['4', '0', 'M'] 3 then 1
  else if eqNByte str ['8', '0', 'M'] 3 then 2
  else if eqNByte str ['1', '6', '0', 'M'] 4 then 3
  else 0

/-- Band by band the entry of path A, which only ever gets lower. -/
def lowerLimit (t : PowerLimits) (regulation bandwidth rateSection : Nat) (channelIndex powerLimit : Int8) :
    PowerLimits :=
  let prevPowerLimit := t regulation bandwidth rateSection channelIndex 0
  if powerLimit < prevPowerLimit then t.set regulation bandwidth rateSection channelIndex 0 powerLimit else t

/-- `PHY_SetTxPowerLimit`. A place outside the table of 2.4 GHz is written to all the same. -/
def phySetTxPowerLimit (h : PowerTables) (f : LimitFields) : Outcome PowerTables :=
  let channel := getU1ByteInteger 0 f.channel
  -- the limit is not looked at where the channel is no number
  let powerLimit : Int8 := if channel.1 then (getU1ByteInteger 0 f.powerLimit).2.toInt8 else 0
  let powerLimit := if maxPowerIndex < powerLimit then maxPowerIndex else powerLimit
  let regulation := fieldRegulation f.regulation
  match fieldSection f.rateSection f.rfPath with
  | none => .done h
  | some rateSection =>
    let bandwidth := fieldBandwidth f.bandwidth
    if eqNByte f.band ['2', '.', '4', 'G'] 4 then
      let channelIndex := phyGetChannelIndexOfTxPowerLimit .on24G channel.2
      if channelIndex = -1 then .done h
      else if bandwidth < 2 ∧ 0 ≤ channelIndex.toInt ∧ channelIndex.toInt < 14 then
        .done { h with
          txPwrLimit24G := lowerLimit h.txPwrLimit24G regulation bandwidth rateSection channelIndex powerLimit }
      else .overrun
    else if eqNByte f.band ['5', 'G'] 2 then
      let channelIndex := phyGetChannelIndexOfTxPowerLimit .on5G channel.2
      if channelIndex = -1 then .done h
      else
        .done { h with
          txPwrLimit5G := lowerLimit h.txPwrLimit5G regulation bandwidth rateSection channelIndex powerLimit }
    else .done h

/-! ## The values of the rates -/

section

variable (h : PowerTables)

/-- `PHY_GetTxPowerByRateBase`. In 5 GHz there is no CCK section. -/
def phyGetTxPowerByRateBase (band : BandType) (rfPath txNum rateSection : Nat) : UInt8 :=
  if 3 < rfPath then 0
  else
    match band with
    | .on24G => if rateSection ≤ 9 then h.txPwrByRateBase24G rfPath txNum rateSection else 0
    | .on5G =>
      if 1 ≤ rateSection ∧ rateSection ≤ 9 then h.txPwrByRateBase5G rfPath txNum (rateSection - 1) else 0

/-- `phy_SetTxPowerByRateBase`. -/
def phySetTxPowerByRateBase (band : BandType) (rfPath rateSection txNum : Nat) (value : UInt8) : PowerTables :=
  if 3 < rfPath then h
  else
    match band with
    | .on24G =>
      if rateSection ≤ 9 then
        { h with
          txPwrByRateBase24G := fun p n s =>
            if p = rfPath ∧ n = txNum ∧ s = rateSection then value else h.txPwrByRateBase24G p n s }
      else h
    | .on5G =>
      if 1 ≤ rateSection ∧ rateSection ≤ 9 then
        { h with
          txPwrByRateBase5G := fun p n s =>
            if p = rfPath ∧ n = txNum ∧ s = rateSection - 1 then value else h.txPwrByRateBase5G p n s }
      else h

/-- `PHY_SetTxPowerByRate`. -/
def phySetTxPowerByRate (band : BandType) (rfPath txNum rate : Nat) (value : Int8) : PowerTables :=
  let rateIndex := phyGetRateIndexOfTxPowerByRate rate
  if 3 < rfPath then h
  else if 4 ≤ txNum then h
  else if 84 ≤ rateIndex then h
  else
    { h with
      txPwrByRateOffset := fun b p n i =>
        if b = band ∧ p = rfPath ∧ n = txNum ∧ i = rateIndex then value else h.txPwrByRateOffset b p n i }

end

/-- What is stored for each path: the band, the section, the number of streams and the rate whose value it is.
The last one is that of two streams. -/
def storedBases : List (BandType × Nat × Nat × Nat) :=
  [(.on24G, 0, 0, 0x16), (.on24G, 1, 0, mgn54M), (.on24G, 2, 0, mgnMcs 7), (.on24G, 3, 1, mgnMcs 15),
    (.on24G, 4, 2, mgnMcs 23), (.on24G, 6, 0, mgnVht 1 7), (.on24G, 7, 1, mgnVht 2 7),
    (.on24G, 8, 2, mgnVht 3 7),
    (.on5G, 1, 0, mgn54M), (.on5G, 2, 0, mgnMcs 7), (.on5G, 3, 1, mgnMcs 15), (.on5G, 4, 2, mgnMcs 23),
    (.on5G, 6, 0, mgnVht 1 7), (.on5G, 7, 1, mgnVht 2 7), (.on5G, 8, 2, mgnVht 2 7)]

/-- `phy_StoreTxPowerByRateBase`, for the paths A and B. -/
def phyStoreTxPowerByRateBase (h : PowerTables) : PowerTables :=
  (List.range 2 ×ˢ storedBases).foldl (fun h (path, band, rateSection, txNum, rate) =>
    let base := (phyGetTxPowerByRate h.toTxPower path rate band txNum).toUInt8
    phySetTxPowerByRateBase h band path rateSection txNum base) h

/-- The sections whose values become differences: the rate they are taken from, and the rates. -/
def relativeSections : List (Nat × List Nat) :=
  [(0x16, cckRates), (mgn54M, ofdmRates), (mgnMcs 7, (List.range 8).map mgnMcs),
    (mgnMcs 15, (List.range 8).map fun i => mgnMcs (8 + i)),
    (mgnMcs 23, (List.range 8).map fun i => mgnMcs (16 + i)),
    (mgnVht 1 7, (List.range 10).map (mgnVht 1)), (mgnVht 2 7, (List.range 10).map (mgnVht 2)),
    (mgnVht 3 7, (List.range 10).map (mgnVht 3))]

/-- One section of `phy_ConvertTxPowerByRateInDbmToRelativeValues`. -/
def convertSection (h : PowerTables) (band : BandType) (path txNum : Nat) (baseRate : Nat) (rates : List Nat) :
    PowerTables :=
  let base := (phyGetTxPowerByRate h.toTxPower path baseRate band txNum).toUInt8
  rates.foldl (fun h rate =>
    let value := (phyGetTxPowerByRate h.toTxPower path rate band txNum).toUInt8
    phySetTxPowerByRate h band path txNum rate (value - base).toInt8) h

/-- `phy_ConvertTxPowerByRateInDbmToRelativeValues`. -/
def phyConvertTxPowerByRateInDbmToRelativeValues (h : PowerTables) : PowerTables :=
  ([BandType.on24G, .on5G] ×ˢ List.range 4 ×ˢ List.range 4 ×ˢ relativeSections).foldl
    (fun h (band, path, txNum, baseRate, rates) => convertSection h band path txNum baseRate rates) h

/-- `PHY_TxPowerByRateConfiguration`. -/
def phyTxPowerByRateConfiguration (h : PowerTables) : PowerTables :=
  phyConvertTxPowerByRateInDbmToRelativeValues (phyStoreTxPowerByRateBase h)

/-! ## Limits as differences -/

/-- `refSection`: HT and VHT sections of as many streams stand for each other. -/
def refSection (rateSection : Nat) : Nat := if rateSection ≤ 5 then rateSection + 4 else rateSection - 4

/-- `phy_CrossReferenceHTAndVHTTxPowerLimit`. -/
def phyCrossReferenceHTAndVHTTxPowerLimit (t : PowerLimits) : PowerLimits :=
  (List.range 4 ×ˢ List.range 4 ×ˢ List.range 54 ×ˢ List.range 10).foldl
    (fun t (regulation, bw, channel, rateSection) =>
      let c := Int8.ofNat channel
      let tempPwrLmt := t regulation bw rateSection c 0
      if tempPwrLmt = maxPowerIndex ∧ (bw = 0 ∨ bw = 1) ∧ 2 ≤ rateSection ∧ rateSection ≤ 9 then
        t.set regulation bw rateSection c 0 (t regulation bw (refSection rateSection) c 0)
      else t) t

/-- The number of streams of a section, from 0 on. -/
def sectionTxNum (rateSection : Nat) : Nat :=
  if rateSection ≤ 2 then 0 else if rateSection ≤ 5 then rateSection - 2 else rateSection - 6

/-- One of the two loops of `PHY_ConvertTxPowerLimitToPowerIndex`. A section for which there is no case goes
on with the base of the place before; the variable starts with `0x2E`. -/
def convertLimits (h : PowerTables) (cases : Nat → Prop) [DecidablePred cases] (bandwidths channels : Nat)
    (t : PowerLimits) : PowerLimits :=
  ((List.range 4 ×ˢ List.range bandwidths ×ˢ List.range channels ×ˢ List.range 10).foldl
    (fun (s : PowerLimits × UInt8) (regulation, bw, channel, rateSection) =>
      let c := Int8.ofNat channel
      let tempPwrLmt := s.1 regulation bw rateSection c 0
      (List.range 2).foldl (fun (s : PowerLimits × UInt8) rfPath =>
        let bw40PwrBasedBm :=
          if h.phyRegPgExactValue then
            -- `BAND_ON_2_4G` is what both loops say
            if cases rateSection then
              phyGetTxPowerByRateBase h .on24G rfPath (sectionTxNum rateSection) rateSection
            else s.2
          else h.regPowerBase * 2
        if tempPwrLmt ≠ maxPowerIndex then
          (s.1.set regulation bw rateSection c rfPath (tempPwrLmt - bw40PwrBasedBm.toInt8), bw40PwrBasedBm)
        else (s.1, bw40PwrBasedBm)) s) (t, 0x2E)).1

/-- `PHY_ConvertTxPowerLimitToPowerIndex`, on a Jaguar chip. -/
def phyConvertTxPowerLimitToPowerIndex (h : PowerTables) : PowerTables :=
  let crossed := phyCrossReferenceHTAndVHTTxPowerLimit h.txPwrLimit5G
  { h with
    txPwrLimit24G := convertLimits h (· ≤ 5) 2 14 h.txPwrLimit24G
    txPwrLimit5G := convertLimits h (1 ≤ ·) 4 54 crossed }

/-! ## The configuration -/

/-- The limits are entered, then values and limits are made relative. -/
def configurePower (h : PowerTables) (fs : List LimitFields) : Outcome PowerTables := do
  let h ← runActions phySetTxPowerLimit (phyInitTxPowerLimit h) fs
  pure (phyConvertTxPowerLimitToPowerIndex (phyTxPowerByRateConfiguration h))

end Rtl8812au.Hal
