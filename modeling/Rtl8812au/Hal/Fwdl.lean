import Rtl8812au.Lib.Blocks

/-!
# Downloading the firmware

`_BlockWrite_8812`, `_PageWrite_8812`, `_WriteFW_8812`, `polling_fwdl_chksum`, and the loop of
`FirmwareDownload8812` in `hal/rtl8812a/rtl8812a_hal_init.c` that tries again until the checksum is reported. The driver is built for USB,
so that blocks of 196 bytes go out first, then of 8, then single bytes.
-/

namespace Rtl8812au

/-- `FW_START_ADDRESS`. -/
abbrev fwStartAddress : Nat := 0x1000
/-- `MAX_DLFW_PAGE_SIZE`. -/
abbrev maxDlfwPageSize : Nat := 4096
/-- `MAX_REG_BOLCK_SIZE`. -/
abbrev maxRegBolckSize : Nat := 196
/-- `FW_SIZE_8812`. -/
abbrev fwSize8812 : Nat := 0x8000
/-- `FWDL_ChkSum_rpt`. -/
abbrev fwdlChkSumRpt : UInt32 := 4

/-- A write to the chip. -/
inductive FwOp where
  /-- `rtw_write8(padapter, REG_MCUFWDL+2, ...)`, and whether it took, which nobody looks at. -/
  | page (value : UInt8) (took : Bool)
  | writeN (addr : Nat) (data : List UInt8)
  | write8 (addr : Nat) (data : UInt8)

/-- The chip and what the driver reads of it and of its own state. -/
structure FwChip (δ : Type) where
  /-- A write of a block or a byte, and whether it succeeds. -/
  exec : δ → FwOp → Bool × δ
  /-- `rtw_read8(padapter, REG_MCUFWDL+2)`. -/
  readPage : δ → UInt8 × δ
  /-- `rtw_write8(padapter, REG_MCUFWDL+2, ...)`, and whether it succeeds. -/
  writePage : δ → UInt8 → Bool × δ
  /-- `REG_MCUFWDL` is read and written with `FWDL_ChkSum_rpt`. -/
  resetChksum : δ → δ
  /-- `rtw_read32(adapter, REG_MCUFWDL)`. -/
  readFwdl : δ → UInt32 × δ
  /-- How many reads after the fifth begin within 50 ms. -/
  morePolls : δ → Nat
  /-- `rtw_fwdl_test_trigger_chksum_fail`, which counts `fwdl_test_chksum_fail` down. -/
  testChksumFail : δ → Bool × δ
  /-- `bDriverStopped || bSurpriseRemoved`. -/
  stopped : δ → Bool

variable {δ : Type} (chip : FwChip δ)

/-- `_BlockWrite_8812`: whether it succeeded, what was written, and the chip after it. -/
def blockWrite (buffer : List UInt8) (d : δ) : Bool × List FwOp × δ :=
  let blockCountP1 := buffer.length / maxRegBolckSize
  let remainSizeP1 := buffer.length % maxRegBolckSize
  let offsetP2 := blockCountP1 * maxRegBolckSize
  -- both stay 0 without a remnant
  let blockCountP2 := if remainSizeP1 ≠ 0 then remainSizeP1 / 8 else 0
  let remainSizeP2 := if remainSizeP1 ≠ 0 then remainSizeP1 % 8 else 0
  let offsetP3 := offsetP2 + blockCountP2 * 8
  let r := writeLoop chip.exec (fun i => .writeN (fwStartAddress + i * maxRegBolckSize)
    ((buffer.drop (i * maxRegBolckSize)).take maxRegBolckSize)) blockCountP1 0 d
  if r.1 then
    let r₂ := writeLoop chip.exec (fun i => .writeN (fwStartAddress + offsetP2 + i * 8)
      ((buffer.drop (offsetP2 + i * 8)).take 8)) blockCountP2 0 r.2.2
    let r₂ :=
      if r₂.1 then
        let r₃ := writeLoop chip.exec
          (fun i => .write8 (fwStartAddress + offsetP3 + i) (buffer.getD (offsetP3 + i) 0)) remainSizeP2 0 r₂.2.2
        (r₃.1, r₂.2.1 ++ r₃.2.1, r₃.2.2)
      else r₂
    (r₂.1, r.2.1 ++ r₂.2.1, r₂.2.2)
  else r

/-- `_PageWrite_8812`. Whether the page was set is not looked at. -/
def pageWrite (page : Nat) (buffer : List UInt8) (d : δ) : Bool × List FwOp × δ :=
  let u8Page := UInt8.ofNat page &&& 0x07
  let v := chip.readPage d
  let value8 := (v.1 &&& 0xF8) ||| u8Page
  let w := chip.writePage v.2 value8
  let r := blockWrite chip buffer w.2
  (r.1, .page value8 w.1 :: r.2.1, r.2.2)

/-- The `for` loop of `_WriteFW_8812` from `page` on, with `n` pages to go. -/
def writePages (buffer : List UInt8) : Nat → Nat → δ → Bool × List FwOp × δ
  | 0, _, d => (true, [], d)
  | n + 1, page, d =>
    let r := pageWrite chip page ((buffer.drop (page * maxDlfwPageSize)).take maxDlfwPageSize) d
    if r.1 then
      let r' := writePages buffer n (page + 1) r.2.2
      (r'.1, r.2.1 ++ r'.2.1, r'.2.2)
    else r

/-- `_WriteFW_8812`. -/
def writeFw (buffer : List UInt8) (d : δ) : Bool × List FwOp × δ :=
  let pageNums := buffer.length / maxDlfwPageSize
  let remainSize := buffer.length % maxDlfwPageSize
  let r := writePages chip buffer pageNums 0 d
  if r.1 then
    if remainSize ≠ 0 then
      let r' := pageWrite chip pageNums (buffer.drop (pageNums * maxDlfwPageSize)) r.2.2
      (r'.1, r.2.1 ++ r'.2.1, r'.2.2)
    else r
  else r

/-- The `do` loop of `polling_fwdl_chksum`, with `n` reads at most after this one. -/
def pollFwdl : Nat → δ → UInt32 × δ
  | 0, d => chip.readFwdl d
  | n + 1, d =>
    let value32 := chip.readFwdl d
    if value32.1 &&& fwdlChkSumRpt ≠ 0 ∨ chip.stopped value32.2 then value32 else pollFwdl n value32.2

/-- `polling_fwdl_chksum(Adapter, 5, 50)`. -/
def pollingFwdlChksum (d : δ) : Bool × δ :=
  let value32 := pollFwdl chip (4 + chip.morePolls d) d
  if value32.1 &&& fwdlChkSumRpt = 0 then (false, value32.2)
  else
    let t := chip.testChksumFail value32.2
    (!t.1, t.2)

/-- The `while` loop of `FirmwareDownload8812`. Three attempts are made, and as many more as begin within 500 ms;
`attempts` is how many there are in all. `rtStatus` is what it was before. -/
def fwdlLoop (buffer : List UInt8) : Nat → Bool → δ → Bool × List FwOp × δ
  | 0, rtStatus, d => (rtStatus, [], d)
  | attempts + 1, rtStatus, d =>
    if chip.stopped d then (rtStatus, [], d)
    else
      let r := writeFw chip buffer (chip.resetChksum d)
      if r.1 then
        let c := pollingFwdlChksum chip r.2.2
        if c.1 then (true, r.2.1, c.2)
        else
          let r' := fwdlLoop buffer attempts false c.2
          (r'.1, r.2.1 ++ r'.2.1, r'.2.2)
      else
        let r' := fwdlLoop buffer attempts false r.2.2
        (r'.1, r.2.1 ++ r'.2.1, r'.2.2)

/-- `IS_FW_HEADER_EXIST_8812` and `IS_FW_HEADER_EXIST_8821` on the signature in the first two bytes. -/
def isFwHeaderExist (fw : List UInt8) : Bool :=
  let signature := (fw.getD 0 0).toUInt16 ||| (fw.getD 1 0).toUInt16 <<< 8
  signature &&& 0xFFF0 = 0x9500 ∨ signature &&& 0xFFF0 = 0x2100

/-- "Shift 32 bytes for FW header". -/
def firmwareBuf (fw : List UInt8) : List UInt8 := if isFwHeaderExist fw then fw.drop 32 else fw

/-- `FirmwareDownload8812` up to the end of its loop, and `none` where the image is too long. -/
def firmwareDownload (fw : List UInt8) (extra : Nat) (d : δ) : Option (Bool × List FwOp × δ) :=
  if fwSize8812 < fw.length then none
  -- `FirmwareLen - 32` would wrap round, and the image be read past its end
  else if isFwHeaderExist fw ∧ fw.length < 32 then none
  else some (fwdlLoop chip (firmwareBuf fw) (3 + extra) true d)

end Rtl8812au
