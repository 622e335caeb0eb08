import Rtl8812au.Lib.Bus
import Rtl8812au.Lib.Mem

/-!
# The power sequences

`HalPwrSeqCmdParsing` of `hal/HalPwrSeqCmd.c`, which runs a table of commands against the chip until it meets
an end mark, and the tables of `include/Hal8812PwrSeq.h` that take the RTL8812AU up. The chip is a parameter.
-/

namespace Rtl8812au

/-- `WLAN_PWR_CFG`. -/
structure WlanPwrCfg where
  offset : UInt16
  cutMsk : UInt8
  fabMsk : UInt8
  interfaceMsk : UInt8
  base : UInt8
  cmd : UInt8
  msk : UInt8
  value : UInt8
  deriving DecidableEq

/-- `PWR_CMD_WRITE` and so on. -/
abbrev pwrCmdWrite : UInt8 := 0x01
abbrev pwrCmdPolling : UInt8 := 0x02
abbrev pwrCmdDelay : UInt8 := 0x03
abbrev pwrCmdEnd : UInt8 := 0x04

abbrev pwrseqDelayUs : UInt8 := 0

/-- `maxPollingCnt`. -/
abbrev maxPollingCnt : Nat := 5000

/-- "Only Handle the command whose FAB, CUT, and Interface are matched". -/
def WlanPwrCfg.matched (c : WlanPwrCfg) (cutVersion fabVersion interfaceType : UInt8) : Bool :=
  c.fabMsk &&& fabVersion ≠ 0 ∧ c.cutMsk &&& cutVersion ≠ 0 ∧ c.interfaceMsk &&& interfaceType ≠ 0

variable {δ : Type}

/-- The loop of a `PWR_CMD_POLLING`. `left` counts `pollingCount` down from `maxPollingCnt + 1`; the poll that
finds it at zero is one too many even when it finds what it waits for. -/
def pollingLoop (bus : Bus UInt16 δ) (c : WlanPwrCfg) : Nat → δ → Bool × Nat × δ
  | left, d =>
    let r := bus.read d c.offset
    let bPollingBit := r.1 &&& c.msk = c.value &&& c.msk
    let d := if bPollingBit then r.2 else bus.wait r.2 10
    match left with
    | 0 => (false, 0, d)
    | left + 1 => if bPollingBit then (true, left, d) else pollingLoop bus c left d

/-- `HalPwrSeqCmdParsing` from a place in the table on. Behind the table there is nothing to read. -/
def halPwrSeqCmdParsingFrom (bus : Bus UInt16 δ) (cutVersion fabVersion interfaceType : UInt8) :
    List WlanPwrCfg → Nat → δ → Outcome (Bool × δ)
  | [], _, _ => .overrun
  | c :: pwrSeqCmd, left, d =>
    let next := halPwrSeqCmdParsingFrom bus cutVersion fabVersion interfaceType pwrSeqCmd
    if !c.matched cutVersion fabVersion interfaceType then next left d
    else if c.cmd = pwrCmdWrite then
      let r := bus.read d c.offset
      next left (bus.write r.2 c.offset (r.1 &&& ~~~c.msk ||| c.value &&& c.msk))
    else if c.cmd = pwrCmdPolling then
      let r := pollingLoop bus c left d
      if r.1 then next r.2.1 r.2.2 else .done (false, r.2.2)
    else if c.cmd = pwrCmdDelay then
      next left (bus.wait d (if c.value = pwrseqDelayUs then c.offset.toNat else c.offset.toNat * 1000))
    else if c.cmd = pwrCmdEnd then .done (true, d)
    else next left d

/-- `HalPwrSeqCmdParsing`. -/
def halPwrSeqCmdParsing (bus : Bus UInt16 δ) (cutVersion fabVersion interfaceType : UInt8)
    (pwrSeqCmd : List WlanPwrCfg) (d : δ) : Outcome (Bool × δ) :=
  halPwrSeqCmdParsingFrom bus cutVersion fabVersion interfaceType pwrSeqCmd (maxPollingCnt + 1) d

/-! ## The tables -/

abbrev pwrCutAllMsk : UInt8 := 0xff
abbrev pwrFabAllMsk : UInt8 := 0x0f
abbrev pwrIntfUsbMsk : UInt8 := 0x02
abbrev pwrIntfPciMsk : UInt8 := 0x04
abbrev pwrIntfAllMsk : UInt8 := 0x0f
abbrev pwrBaseaddrMac : UInt8 := 0x00

/-- A line of the tables: all of them are for every cut and every fab. -/
def pwrLine (offset : UInt16) (interfaceMsk cmd msk value : UInt8) : WlanPwrCfg :=
  ⟨offset, pwrCutAllMsk, pwrFabAllMsk, interfaceMsk, pwrBaseaddrMac, cmd, msk, value⟩

/-- `RTL8812_TRANS_CARDDIS_TO_CARDEMU`. -/
def transCarddisToCardemu : List WlanPwrCfg :=
  [pwrLine 0x0012 pwrIntfAllMsk pwrCmdWrite 0x01 0x01,
    pwrLine 0x0014 pwrIntfAllMsk pwrCmdWrite 0x80 0,
    pwrLine 0x0015 pwrIntfAllMsk pwrCmdWrite 0x01 0,
    pwrLine 0x0023 pwrIntfAllMsk pwrCmdWrite 0x10 0,
    pwrLine 0x0046 pwrIntfAllMsk pwrCmdWrite 0xff 0x00,
    pwrLine 0x0043 pwrIntfAllMsk pwrCmdWrite 0xff 0x00,
    pwrLine 0x0005 pwrIntfPciMsk pwrCmdWrite 0x04 0,
    pwrLine 0x0005 pwrIntfAllMsk pwrCmdWrite 0x08 0,
    pwrLine 0x0003 pwrIntfAllMsk pwrCmdWrite 0x04 0x04,
    pwrLine 0x0301 pwrIntfPciMsk pwrCmdWrite 0xff 0]

/-- `RTL8812_TRANS_CARDEMU_TO_ACT`. -/
def transCardemuToAct : List WlanPwrCfg :=
  [pwrLine 0x0005 pwrIntfAllMsk pwrCmdWrite 0x04 0,
    pwrLine 0x0006 pwrIntfAllMsk pwrCmdPolling 0x02 0x02,
    pwrLine 0x0005 pwrIntfAllMsk pwrCmdWrite 0x08 0,
    pwrLine 0x0005 pwrIntfAllMsk pwrCmdWrite 0x01 0x01,
    pwrLine 0x0005 pwrIntfAllMsk pwrCmdPolling 0x01 0]

/-- `RTL8812_TRANS_END`. -/
def transEnd : List WlanPwrCfg := [⟨0xffff, pwrCutAllMsk, pwrFabAllMsk, pwrIntfAllMsk, 0, pwrCmdEnd, 0, 0⟩]

/-- `rtl8812_card_enable_flow`, which is `Rtl8812_NIC_ENABLE_FLOW`. -/
def rtl8812CardEnableFlow : List WlanPwrCfg := transCarddisToCardemu ++ transCardemuToAct ++ transEnd

end Rtl8812au
