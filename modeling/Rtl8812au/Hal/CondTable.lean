import Rtl8812au.Lib.Branches

/-!
# The register tables

`ODM_ReadAndConfig_MP_8812A_*` of `hal/OUTSRC/rtl8812a/HalHWImg8812A_*.c`: one loop over pairs of words, once
for each table, that writes the pairs to the chip except where a pair is a condition on the board. The tables
are arguments here; what is done with a pair is the only thing in which the functions differ.
-/

namespace Rtl8812au

/-! ## `CheckPositive` -/

/-- What the conditions ask of `DM_ODM_T`, every field a `u1Byte`. -/
structure DmOdm where
  boardType : UInt8 := 0
  cutVersion : UInt8 := 0
  supportPlatform : UInt8 := 0
  packageType : UInt8 := 0
  supportInterface : UInt8 := 0
  typeGlna : UInt8 := 0
  typeGpa : UInt8 := 0
  typeAlna : UInt8 := 0
  typeApa : UInt8 := 0

namespace DmOdm

variable (d : DmOdm)

/-- `_BoardType`: GLNA, GPA, ALNA, APA and BT from the lowest bit on. -/
def boardBits : UInt32 :=
  let b := d.boardType.toUInt32
  (b &&& 0x10) >>> 4 <<< 0 ||| (b &&& 0x08) >>> 3 <<< 1 ||| (b &&& 0x80) >>> 7 <<< 2
    ||| (b &&& 0x40) >>> 6 <<< 3 ||| (b &&& 0x04) >>> 2 <<< 4

def driver1 : UInt32 :=
  d.cutVersion.toUInt32 <<< 24 ||| d.supportPlatform.toUInt32 <<< 16 ||| d.packageType.toUInt32 <<< 12
    ||| d.supportInterface.toUInt32 <<< 8 ||| d.boardBits

def driver2 : UInt32 :=
  d.typeGlna.toUInt32 <<< 0 ||| d.typeGpa.toUInt32 <<< 8 ||| d.typeAlna.toUInt32 <<< 16
    ||| d.typeApa.toUInt32 <<< 24

/-- The amplifiers a condition names, as a mask for their types. -/
def typeMask (cond1 : UInt32) : UInt32 :=
  (if cond1 &&& 0x1 ≠ 0 then 0x000000ff else 0) ||| (if cond1 &&& 0x2 ≠ 0 then 0x0000ff00 else 0)
    ||| (if cond1 &&& 0x4 ≠ 0 then 0x00ff0000 else 0) ||| (if cond1 &&& 0x8 ≠ 0 then 0xff000000 else 0)

/-- `CheckPositive`. -/
def checkPositive (condition1 condition2 : UInt32) : Bool :=
  if condition1 &&& 0x0000f000 ≠ 0 ∧ condition1 &&& 0x0000f000 ≠ d.driver1 &&& 0x0000f000 then false
  else if condition1 &&& 0x0f000000 ≠ 0 ∧ condition1 &&& 0x0f000000 ≠ d.driver1 &&& 0x0f000000 then false
  else
    let cond1 := condition1 &&& 0x000f0fff
    let driver1 := d.driver1 &&& 0x000f0fff
    if cond1 &&& driver1 = cond1 then
      if cond1 &&& 0x0f = 0 then true
      else condition2 &&& typeMask cond1 = d.driver2 &&& typeMask cond1
    else false

end DmOdm

/-! ## The loop -/

/-- `COND_ELSE`, `COND_ENDIF`. -/
abbrev condElse : UInt32 := 2
abbrev condEndif : UInt32 := 3

/-- What is done to the chip. -/
inductive HwAction where
  | setBBReg (addr mask data : UInt32)
  | setRFReg (path : Nat) (addr data : UInt32)
  | write1Byte (addr : UInt32) (data : UInt8)
  | delayUs (n : Nat)
  deriving DecidableEq

/-- `while (i + 1 < ArrayLen)` from `bMatched` and `bSkipped` on, with what `config` does to a pair. -/
def readAndConfigFrom (config : UInt32 → UInt32 → List HwAction) (d : DmOdm) (bMatched bSkipped : Bool) :
    List UInt32 → List HwAction
  | v1 :: v2 :: array =>
    if v1 &&& 0xc0000000 ≠ 0 then
      if v1 &&& 0x80000000 ≠ 0 then
        let cCond := (v1 &&& 0x30000000) >>> 28
        if cCond = condEndif then readAndConfigFrom config d true false array
        else if cCond = condElse then readAndConfigFrom config d (if bSkipped then false else true) bSkipped array
        else if bSkipped then readAndConfigFrom config d false bSkipped array
        else if d.checkPositive v1 v2 then readAndConfigFrom config d true true array
        else readAndConfigFrom config d false false array
      else readAndConfigFrom config d bMatched bSkipped array
    else (if bMatched then config v1 v2 else []) ++ readAndConfigFrom config d bMatched bSkipped array
  | _ => []

/-- `bMatched = TRUE, bSkipped = FALSE`. -/
def readAndConfig (config : UInt32 → UInt32 → List HwAction) (d : DmOdm) (array : List UInt32) :
    List HwAction :=
  readAndConfigFrom config d true false array

/-! ## What is done with a pair -/

/-- `bMaskDWord`. -/
abbrev bMaskDWord : UInt32 := 0xffffffff

/-- `odm_ConfigBB_AGC_8812A`. -/
def odmConfigBBAgc (addr bitmask data : UInt32) : List HwAction := [.setBBReg addr bitmask data, .delayUs 1]

/-- `odm_ConfigBB_PHY_8812A`. -/
def odmConfigBBPhy (addr bitmask data : UInt32) : List HwAction :=
  if addr = 0xfe then [.delayUs 50000]
  else if addr = 0xfd then [.delayUs 5000]
  else if addr = 0xfc then [.delayUs 1000]
  else if addr = 0xfb then [.delayUs 50]
  else if addr = 0xfa then [.delayUs 5]
  else if addr = 0xf9 then [.delayUs 1]
  else [.setBBReg addr bitmask data, .delayUs 1]

/-- `odm_ConfigMAC_8812A`. -/
def odmConfigMac (addr : UInt32) (data : UInt8) : List HwAction := [.write1Byte addr data]

/-- `odm_ConfigRFReg_8812A`. -/
def odmConfigRFReg (addr data : UInt32) (rfPath : Nat) (regAddr : UInt32) : List HwAction :=
  if addr = 0xfe ∨ addr = 0xffe then [.delayUs 50000] else [.setRFReg rfPath regAddr data, .delayUs 1]

/-- `odm_ConfigRF_RadioA_8812A`, `odm_ConfigRF_RadioB_8812A`. -/
def odmConfigRFRadioA (addr data : UInt32) : List HwAction :=
  odmConfigRFReg addr data 0 (addr ||| (0x1000 &&& 0xe000))

def odmConfigRFRadioB (addr data : UInt32) : List HwAction :=
  odmConfigRFReg addr data 1 (addr ||| (0x1001 &&& 0xe000))

/-! ## The functions -/

variable (d : DmOdm) (array : List UInt32)

/-- `ODM_ReadAndConfig_MP_8812A_AGC_TAB` and `_AGC_TAB_DIFF`. -/
def odmReadAndConfigAgcTab : List HwAction :=
  readAndConfig (fun v1 v2 => odmConfigBBAgc v1 bMaskDWord v2) d array

/-- `ODM_ReadAndConfig_MP_8812A_PHY_REG` and `_PHY_REG_MP`. -/
def odmReadAndConfigPhyReg : List HwAction :=
  readAndConfig (fun v1 v2 => odmConfigBBPhy v1 bMaskDWord v2) d array

/-- `ODM_ReadAndConfig_MP_8812A_MAC_REG`. -/
def odmReadAndConfigMacReg : List HwAction :=
  readAndConfig (fun v1 v2 => odmConfigMac v1 v2.toUInt8) d array

/-- `ODM_ReadAndConfig_MP_8812A_RadioA`, `_RadioB`. -/
def odmReadAndConfigRadioA : List HwAction := readAndConfig odmConfigRFRadioA d array

def odmReadAndConfigRadioB : List HwAction := readAndConfig odmConfigRFRadioB d array

end Rtl8812au
