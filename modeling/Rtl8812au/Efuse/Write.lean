import Rtl8812au.Efuse.Walk

/-!
# Writing the efuse

`Hal_EfuseWordEnableDataWrite8812A` and `hal_EfusePgPacketWrite_8812A` of
`hal/rtl8812a/rtl8812a_hal_init.c`, and `rtw_efuse_map_write` of `core/efuse/rtw_efuse.c`. A packet is
appended to the log, or goes into a packet of its section that holds no data yet. Much of the code is
there for cells that do not take what they are programmed with.

Here a cell takes the bits that are cleared, and no bit is ever set again.
-/

namespace Rtl8812au.Efuse

/-- `efuse_OneByteWrite`. -/
def efuseOneByteWrite (c : Mem) (addr : Nat) (v : UInt8) : Mem := fun k =>
  if k = addr then c k &&& v else c k

/-- `w &= ~BIT(i)`. -/
def clearBit (w i : Nat) : Nat := if w.testBit i then w - 2 ^ i else w

/-- `Hal_EfuseWordEnableDataWrite8812A` for the words `is`: `badworden` and the cells. -/
def writeWords (wordEn : Nat) (data : Mem) : List Nat → Nat → Nat → Mem → Nat × Mem
  | [], _, badworden, c => (badworden, c)
  | i :: is, addr, badworden, c =>
    if wordEn.testBit i then writeWords wordEn data is addr badworden c
    else
      let c := efuseOneByteWrite (efuseOneByteWrite c addr (data (2 * i))) (addr + 1)
        (data (2 * i + 1))
      let badworden :=
        if data (2 * i) ≠ c addr ∨ data (2 * i + 1) ≠ c (addr + 1) then clearBit badworden i
        else badworden
      writeWords wordEn data is (addr + 2) badworden c

/-- `Hal_EfuseWordEnableDataWrite8812A`. -/
def halEfuseWordEnableDataWrite (c : Mem) (addr wordEn : Nat) (data : Mem) : Nat × Mem :=
  writeWords wordEn data [0, 1, 2, 3] addr 0x0f c

/-! ## One packet -/

/-- `EFUSE_REPEAT_THRESHOLD_`. -/
def repeatThreshold : Nat := 3

/-- Where packets may start. -/
def packetLimit : Nat := realContentLen - oobProtectBytes

/-- The variables of `hal_EfusePgPacketWrite_8812A`. -/
structure PgWrite where
  efuseAddr : Nat := 0
  /-- `WriteState == PG_STATE_DATA`. -/
  dataState : Bool := false
  bContinual : Bool := true
  /-- `target_pkt.word_en` and `target_word_cnts`. -/
  wordEn : Nat
  wordCnts : Nat

/-- `for (i = 0; i < 3; ++i)`: program until the cell reads as `v`. -/
def programTimes (addr : Nat) (v : UInt8) : Nat → Mem → Mem
  | 0, c => c
  | n + 1, c =>
    let c := efuseOneByteWrite c addr v
    if c addr = v then c else programTimes addr v n c

/-- Program a byte of a header again and again while the cell reads as 0xFF: what it reads as, and
whether `repeat_times` put an end to it. -/
def programHeader (addr : Nat) (v : UInt8) : Nat → EfuseState → UInt8 × Bool × EfuseState
  | 0, e => (e.cells addr, true, e)
  | n + 1, e =>
    let e := { e with cells := efuseOneByteWrite e.cells addr v }
    if e.cells addr ≠ 0xff then (e.cells addr, false, e)
    else
      let e := { e with repeatTimes := e.repeatTimes + 1 }
      if repeatThreshold < e.repeatTimes then (0xff, true, e) else programHeader addr v n e

/-- `repeat_times++`, and the end of the loop behind the threshold. -/
def PgWrite.count (r : PgWrite × EfuseState) : PgWrite × EfuseState :=
  ({ r.1 with bContinual := r.1.bContinual && decide (r.2.repeatTimes + 1 ≤ repeatThreshold) },
    { r.2 with repeatTimes := r.2.repeatTimes + 1 })

section

-- `rewrite` is the call of `Efuse_PgPacketWrite` for words that did not take their data
variable (rewrite : Nat → Nat → Mem → EfuseState → EfuseState) (offset : Nat) (data : Mem)

/-- A packet is there, its header ends at `efuse_addr`. -/
def pgFound (tmpOffset tmpWordEn : Nat) (v : PgWrite) (e : EfuseState) : PgWrite × EfuseState :=
  let tmpWordCnts := efuseCalculateWordCnts tmpWordEn
  let next := { v with efuseAddr := v.efuseAddr + tmpWordCnts * 2 + 1 }
  if tmpOffset ≠ offset then (next, e)
  else if (e.cells.read (v.efuseAddr + 1) (tmpWordCnts * 2)).any (· != 0xff) then (next, e)
  else
    let matchWordEn := (v.wordEn ||| tmpWordEn) &&& 0x0f
    if matchWordEn ≠ 0x0f then
      let r := halEfuseWordEnableDataWrite e.cells (v.efuseAddr + 1) tmpWordEn data
      let e := { e with cells := r.2 }
      let e := if r.1 ≠ 0x0f then rewrite offset r.1 data e else e
      -- the words that have no place in this packet
      let restWordEn := 0x0f ^^^ ((v.wordEn ^^^ matchWordEn) &&& 0x0f)
      if restWordEn ≠ 0x0f then
        let s := halEfuseGetCurrentSize e
        PgWrite.count ({ v with efuseAddr := s.1, wordEn := restWordEn }, s.2)
      else PgWrite.count ({ v with bContinual := false }, e)
    else (next, e)

/-- There is a header at `efuse_addr`. A header without any word is made one with a word. -/
def pgUsed (v : PgWrite) (e : EfuseState) : PgWrite × EfuseState :=
  let header := e.cells v.efuseAddr
  if extHeader header then
    let addr := v.efuseAddr + 1
    if allWordsDisabled (e.cells addr) then
      if e.cells (addr + 1) = 0xff ∧ e.cells (addr + 2) = 0xff then
        let c := programTimes addr (if header >>> 4 = 0x0e then 0x17 else 0x27) 3 e.cells
        let c := efuseOneByteWrite (efuseOneByteWrite c (addr + 1) 0xff) (addr + 2) 0xff
        ({ v with efuseAddr := addr + 3 }, { e with cells := c })
      else ({ v with efuseAddr := addr + 1 }, e)
    else
      pgFound rewrite offset data (extOffset header (e.cells addr)) (hdrWordEn (e.cells addr))
        { v with efuseAddr := addr } e
  else if hdrWordEn header = 0x0f ∧ e.cells (v.efuseAddr + 1) = 0xff then
    let c := programTimes v.efuseAddr ((header &&& 0xf0) ||| 0x07) 3 e.cells
    let c := efuseOneByteWrite (efuseOneByteWrite c (v.efuseAddr + 1) 0xff) (v.efuseAddr + 2) 0xff
    pgFound rewrite offset data (hdrOffset header) (hdrWordEn header)
      { v with efuseAddr := v.efuseAddr + 2 } { e with cells := c }
  else pgFound rewrite offset data (hdrOffset header) (hdrWordEn header) v e

/-- The header came out as that of another packet: it gets the data of that packet's section. -/
def pgCover (tmpOffset tmpWordEn : Nat) (v : PgWrite) (e : EfuseState) : PgWrite × EfuseState :=
  let next := v.efuseAddr + efuseCalculateWordCnts tmpWordEn * 2 + 1
  let original := halEfusePgPacketRead tmpOffset (fun _ => 0xff) e
  if original.1 then
    let r := halEfuseWordEnableDataWrite e.cells (v.efuseAddr + 1) tmpWordEn original.2
    let e := { e with cells := r.2 }
    if r.1 ≠ 0x0f then
      let s := halEfuseGetCurrentSize (rewrite tmpOffset r.1 original.2 e)
      PgWrite.count ({ v with efuseAddr := s.1 }, s.2)
    else PgWrite.count ({ v with efuseAddr := next }, e)
  else PgWrite.count ({ v with efuseAddr := next }, e)

/-- There is no header at `efuse_addr`: the packet gets one here. -/
def pgFresh (v : PgWrite) (e : EfuseState) : PgWrite × EfuseState :=
  if 16 ≤ offset then
    let pgHeader := UInt8.ofNat (((offset &&& 0x07) <<< 5) ||| 0x0f)
    match programHeader v.efuseAddr pgHeader (repeatThreshold + 2) e with
    | (_, true, e) => ({ v with bContinual := false }, e)
    | (tmpHeader, false, e) =>
      if tmpHeader = pgHeader then
        let v := { v with efuseAddr := v.efuseAddr + 1 }
        let pgHeader2 := UInt8.ofNat (((offset &&& 0x78) <<< 1) ||| v.wordEn)
        match programHeader v.efuseAddr pgHeader2 (repeatThreshold + 2) e with
        | (_, true, e) => ({ v with bContinual := false }, e)
        | (tmpHeader2, false, e) =>
          if allWordsDisabled tmpHeader2 then
            PgWrite.count ({ v with efuseAddr := v.efuseAddr + 1 }, e)
          else if tmpHeader2 = pgHeader2 then ({ v with dataState := true }, e)
          else
            pgCover rewrite (extOffset pgHeader tmpHeader2) (hdrWordEn tmpHeader2) v e
      else if extHeader tmpHeader then ({ v with efuseAddr := v.efuseAddr + 2 }, e)
      else pgCover rewrite (hdrOffset tmpHeader) (hdrWordEn tmpHeader) v e
  else
    let pgHeader := UInt8.ofNat (((offset <<< 4) &&& 0xf0) ||| v.wordEn)
    let e := { e with cells := efuseOneByteWrite e.cells v.efuseAddr pgHeader }
    let tmpHeader := e.cells v.efuseAddr
    if tmpHeader = pgHeader then ({ v with dataState := true }, e)
    else if tmpHeader = 0xff then PgWrite.count (v, e)
    else pgCover rewrite (hdrOffset tmpHeader) (hdrWordEn tmpHeader) v e

/-- The header is there, now the data. -/
def pgData (v : PgWrite) (e : EfuseState) : PgWrite × EfuseState :=
  let r := halEfuseWordEnableDataWrite e.cells (v.efuseAddr + 1) v.wordEn data
  let e := { e with cells := r.2 }
  if r.1 = 0x0f then ({ v with bContinual := false }, e)
  else
    PgWrite.count
      ({ v with
          efuseAddr := v.efuseAddr + 2 * v.wordCnts + 1
          wordEn := r.1
          wordCnts := efuseCalculateWordCnts r.1
          dataState := false }, e)

/-- One turn of the loop. -/
def pgStep (v : PgWrite) (e : EfuseState) : PgWrite × EfuseState :=
  if v.dataState then pgData data v e
  else if e.cells v.efuseAddr ≠ 0xff then pgUsed rewrite offset data v e
  else pgFresh rewrite offset v e

/-- The loop of `hal_EfusePgPacketWrite_8812A`. -/
def pgLoop : Nat → PgWrite → EfuseState → EfuseState
  | 0, _, e => e
  | fuel + 1, v, e =>
    if v.bContinual ∧ v.efuseAddr < packetLimit then
      pgLoop fuel (pgStep rewrite offset data v e).1 (pgStep rewrite offset data v e).2
    else e

end

/-- `hal_EfusePgPacketWrite_8812A`, calling itself at most `depth` times deep: its result, which is
`_TRUE` once the loop was entered, and the state. -/
def halEfusePgPacketWrite : Nat → Nat → Nat → Mem → EfuseState → Bool × EfuseState
  | 0, _, _, _, e => (true, e)
  | depth + 1, offset, wordEn, data, e =>
    let s := halEfuseGetCurrentSize e
    if packetLimit ≤ s.1 then (false, s.2)
    else
      let target := efuseWordEnableDataRead wordEn data (fun _ => 0xff)
      let rewrite := fun o w d e => (halEfusePgPacketWrite depth o w d e).2
      (true, pgLoop rewrite offset target (4 * realContentLen)
        { wordEn := wordEn, wordCnts := efuseCalculateWordCnts wordEn } s.2)

/-! ## The map -/

/-- The bytes `n` that the call has for a section, from byte `i` of it and byte `idx` of the data on:
`word_en` and `newdata`. -/
def sectionBytes (map : Mem) (addr : Nat) (data : Mem) : Nat → Nat → Nat → Nat → Mem → Nat × Mem
  | 0, _, _, wordEn, newdata => (wordEn, newdata)
  | n + 1, i, idx, wordEn, newdata =>
    if data idx ≠ map (addr + idx) then
      sectionBytes map addr data n (i + 1) (idx + 1) (clearBit wordEn (i / 2))
        (fun k => if k = i then data idx else newdata k)
    else sectionBytes map addr data n (i + 1) (idx + 1) wordEn newdata

/-- How deep `hal_EfusePgPacketWrite_8812A` is followed into itself. Cells that take their data need
none of it. -/
def rewriteDepth : Nat := 8

/-- The loop of `rtw_efuse_map_write` over the sections; `true` is `_SUCCESS`. -/
def mapWriteLoop (map : Mem) (addr cnts : Nat) (data : Mem) :
    Nat → Nat → Nat → EfuseState → Bool × EfuseState
  | 0, _, _, e => (true, e)
  | fuel + 1, idx, offset, e =>
    if idx < cnts then
      let j := (addr + idx) &&& 0x7
      let n := min (8 - j) (cnts - idx)
      let r := sectionBytes map addr data n j idx 0x0f (fun k => map (8 * offset + k))
      if r.1 ≠ 0x0f then
        let w := halEfusePgPacketWrite rewriteDepth offset r.1 r.2 e
        if w.1 then mapWriteLoop map addr cnts data fuel (idx + n) (offset + 1) w.2
        else (false, w.2)
      else mapWriteLoop map addr cnts data fuel (idx + n) (offset + 1) e
    else (true, e)

/-- A call of `rtw_efuse_map_write`. -/
structure Write where
  addr : Nat
  cnts : Nat
  data : Mem

/-- `rtw_efuse_map_write` with the masks off. -/
def rtwEfuseMapWrite (w : Write) (e : EfuseState) : Bool × EfuseState :=
  if mapLen < w.addr + w.cnts then (false, e)
  else
    let r := halEfuseReadEFuse 0 mapLen (fun _ => 0xff) e
    mapWriteLoop r.1 w.addr w.cnts w.data (w.cnts + 1) 0 (w.addr / 8) r.2

end Rtl8812au.Efuse
