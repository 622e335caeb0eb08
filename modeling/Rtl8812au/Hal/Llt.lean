import Rtl8812au.Lib.Blocks
import Rtl8812au.Lib.Mem

/-!
# The links of the transmit pages

`_LLTWrite_8812A` and `InitLLTTable8812A` of `hal/rtl8812a/rtl8812a_hal_init.c`. The 256 pages of the transmit
buffer are linked by a table in the chip, which is written entry by entry through `REG_LLT_INIT`.
-/

namespace Rtl8812au

/-- `LAST_ENTRY_OF_TX_PKT_BUFFER_8812`. -/
abbrev lastEntryOfTxPktBuffer8812 : Nat := 255
/-- `POLLING_LLT_THRESHOLD`. -/
abbrev pollingLltThreshold : Nat := 20

/-- `_LLT_INIT_ADDR(address) | _LLT_INIT_DATA(data) | _LLT_OP(_LLT_WRITE_ACCESS)`. -/
def lltWord (address data : Nat) : Nat :=
  ((address &&& 0xFF) <<< 8 ||| (data &&& 0xFF)) ||| (1 &&& 0x3) <<< 30

/-- `_LLT_OP_VALUE`. -/
def lltOpValue (x : UInt32) : UInt32 := (x >>> 30) &&& 0x3

/-- `REG_LLT_INIT` of the chip. -/
structure LltChip (δ : Type) where
  write32 : δ → Nat → δ
  read32 : δ → UInt32 × δ

variable {δ : Type} (chip : LltChip δ)

/-- The polls of `_LLTWrite_8812A`, with `left` of them after this one. -/
def lltPolling : Nat → δ → Bool × δ
  | left, d =>
    let v := chip.read32 d
    if lltOpValue v.1 = 0 then (true, v.2)
    else
      match left with
      | 0 => (false, v.2)
      | left + 1 => lltPolling left v.2

/-- `_LLTWrite_8812A`; `count > POLLING_LLT_THRESHOLD` is seen after the poll. -/
def lltWrite (d : δ) (value : Nat) : Bool × δ := lltPolling chip (pollingLltThreshold + 1) (chip.write32 d value)

/-- `InitLLTTable8812A`: whether it succeeded, the words written, and the chip after it. The bound of the first
loop is compared as unsigned. -/
def initLltTable (txpktbufBndy : UInt8) (d : δ) : Bool × List Nat × δ :=
  let bndy := txpktbufBndy.toNat
  let last := lastEntryOfTxPktBuffer8812
  let r := writeLoop (lltWrite chip) (fun i => lltWord i (i + 1)) (sub32 bndy 1) 0 d
  if r.1 then
    -- end of list
    let r₂ := writeOne (lltWrite chip) (lltWord (sub32 bndy 1) 0xFF) r.2.2
    let r₂ :=
      if r₂.1 then
        -- the other pages as ring buffer
        let r₃ := writeLoop (lltWrite chip) (fun i => lltWord i (i + 1)) (last - bndy) bndy r₂.2.2
        let r₃ :=
          if r₃.1 then
            let r₄ := writeOne (lltWrite chip) (lltWord last bndy) r₃.2.2
            (r₄.1, r₃.2.1 ++ r₄.2.1, r₄.2.2)
          else r₃
        (r₃.1, r₂.2.1 ++ r₃.2.1, r₃.2.2)
      else r₂
    (r₂.1, r.2.1 ++ r₂.2.1, r₂.2.2)
  else r

end Rtl8812au
