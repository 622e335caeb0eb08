import Rtl8812au.Lib.Mem

/-!
# Reading the efuse

The efuse is a log of packets: a header that names a section and the words of it that follow, and
two bytes for each of those. Three functions of `hal/rtl8812a/rtl8812a_hal_init.c` walk it, each
with a loop of its own: `hal_EfuseGetCurrentSize_8812A` for the end, `Hal_EfuseReadEFuse8812A` for
the whole map, `hal_EfusePgPacketRead_8812A` for one section. The first two leave an address in
`EfuseUsedBytes`, and the first one starts from there.

A word is enabled where its bit in `word_en` is clear. `efuse_OneByteRead` reads a cell.
-/

namespace Rtl8812au.Efuse

/-- `EFUSE_REAL_CONTENT_LEN_JAGUAR`. -/
def realContentLen : Nat := 512

/-- `EFUSE_MAP_LEN_JAGUAR`, `EFUSE_MAX_SECTION_JAGUAR` and `EFUSE_OOB_PROTECT_BYTES_JAGUAR`. -/
def mapLen : Nat := 512
def maxSection : Nat := 64
def oobProtectBytes : Nat := 18

/-- The cells, `pHalData->EfuseUsedBytes`, and `repeat_times` of `hal_EfusePgPacketWrite_8812A`. -/
structure EfuseState where
  cells : Mem
  usedBytes : Nat := 0
  repeatTimes : Nat := 0

/-! ## Headers -/

/-- `EXT_HEADER`. -/
def extHeader (h : UInt8) : Bool := h &&& 0x1f == 0x0f

/-- `ALL_WORDS_DISABLED`. -/
def allWordsDisabled (h : UInt8) : Bool := h &&& 0x0f == 0x0f

/-- The section in a header of one byte. -/
def hdrOffset (h : UInt8) : Nat := ((h >>> 4) &&& 0x0f).toNat

/-- The section in an extended header. -/
def extOffset (h ext : UInt8) : Nat := (((h &&& 0xe0) >>> 5) ||| ((ext &&& 0xf0) >>> 1)).toNat

/-- `word_en` in the last byte of a header. -/
def hdrWordEn (h : UInt8) : Nat := (h &&& 0x0f).toNat

/-- `Efuse_CalculateWordCnts`. -/
def efuseCalculateWordCnts (wordEn : Nat) : Nat :=
  ((List.range 4).filter fun i => !wordEn.testBit i).length

/-- `efuse_WordEnableDataRead`: the enabled words of `src`, where they are in `src`, go over
`dst`. -/
def efuseWordEnableDataRead (wordEn : Nat) (src dst : Mem) : Mem := fun k =>
  if k < 8 ∧ wordEn.testBit (k / 2) = false then src k else dst k

/-! ## The end of the log -/

section

variable (c : Mem)

/-- The loop of `hal_EfuseGetCurrentSize_8812A`. -/
def currentSizeLoop : Nat → Nat → Nat
  | 0, addr => addr
  | fuel + 1, addr =>
    if addr < realContentLen then
      if c addr = 0xff then addr
      else if extHeader (c addr) then
        if allWordsDisabled (c (addr + 1)) then currentSizeLoop fuel (addr + 2)
        else
          let wordCnts := efuseCalculateWordCnts (hdrWordEn (c (addr + 1)))
          currentSizeLoop fuel (addr + 1 + wordCnts * 2 + 1)
      else
        let wordCnts := efuseCalculateWordCnts (hdrWordEn (c addr))
        currentSizeLoop fuel (addr + wordCnts * 2 + 1)
    else addr

end

/-- `hal_EfuseGetCurrentSize_8812A`. Every turn moves on by a byte at least. -/
def halEfuseGetCurrentSize (e : EfuseState) : Nat × EfuseState :=
  let efuseAddr := currentSizeLoop e.cells realContentLen e.usedBytes
  (efuseAddr, { e with usedBytes := efuseAddr })

/-! ## The whole map -/

/-- `eFuseWord`: low and high byte of each word. -/
abbrev EfuseWords := Nat → Nat → UInt8 × UInt8

/-- One word of a section. -/
def setWord (w : Nat → UInt8 × UInt8) (i : Nat) (v : UInt8 × UInt8) : Nat → UInt8 × UInt8 :=
  fun j => if j = i then v else w j

section

variable (c : Mem)

/-- The enabled words of a section, from `eFuse_Addr` on. -/
def readWords (wden : Nat) : List Nat → Nat → (Nat → UInt8 × UInt8) → Nat × (Nat → UInt8 × UInt8)
  | [], addr, w => (addr, w)
  | i :: is, addr, w =>
    if wden.testBit i then readWords wden is addr w
    else if addr + 1 < realContentLen then
      if addr + 2 < realContentLen then
        readWords wden is (addr + 2) (setWord w i (c addr, c (addr + 1)))
      else (addr + 2, setWord w i (c addr, c (addr + 1)))
    else (addr + 1, setWord w i (c addr, 0))

/-- What is skipped for a section that is none: `wden & 0x01` is tested four times. -/
def skipWords (wden : Nat) : Nat → Nat → Nat
  | 0, addr => addr
  | n + 1, addr =>
    if wden.testBit 0 then skipWords wden n addr
    else if addr + 1 < realContentLen then
      if addr + 2 < realContentLen then skipWords wden n (addr + 2) else addr + 2
    else addr + 1

/-- The words of a packet behind its header, in the map so far. -/
def readPacket (offset wden addr : Nat) (words : EfuseWords) : Nat × EfuseWords :=
  if offset < maxSection then
    let r := readWords c wden [0, 1, 2, 3] addr (words offset)
    (r.1, fun s => if s = offset then r.2 else words s)
  else (skipWords wden 4 addr, words)

/-- The loop of `Hal_EfuseReadEFuse8812A`: `addr` is behind the header byte that was read last. -/
def readLoop : Nat → UInt8 → Nat → EfuseWords → Nat × EfuseWords
  | 0, _, addr, words => (addr, words)
  | fuel + 1, header, addr, words =>
    if header ≠ 0xff ∧ addr < realContentLen then
      if extHeader header then
        let extHdr := c addr
        if extHdr ≠ 0xff then
          if allWordsDisabled extHdr then (addr + 2, words)
          else
            let r := readPacket c (extOffset header extHdr) (hdrWordEn extHdr) (addr + 1) words
            readLoop fuel (c r.1) (r.1 + 1) r.2
        else (addr + 1, words)
      else
        let r := readPacket c (hdrOffset header) (hdrWordEn header) addr words
        readLoop fuel (c r.1) (r.1 + 1) r.2
    else (addr, words)

end

/-- `efuseTbl`. -/
def efuseTbl (words : EfuseWords) (k : Nat) : UInt8 :=
  if k % 2 = 0 then (words (k / 8) (k % 8 / 2)).1 else (words (k / 8) (k % 8 / 2)).2

/-- `Hal_EfuseReadEFuse8812A`: the buffer and the state. On an empty efuse both stay as they
are. -/
def halEfuseReadEFuse (offset sizeByte : Nat) (pbuf : Mem) (e : EfuseState) : Mem × EfuseState :=
  if offset + sizeByte > mapLen then (pbuf, e)
  else if e.cells 0 = 0xff then (pbuf, e)
  else
    let r := readLoop e.cells realContentLen (e.cells 0) 1 (fun _ _ => (0xff, 0xff))
    (fun i => if i < sizeByte then efuseTbl r.2 (offset + i) else pbuf i,
      { e with usedBytes := r.1 })

/-- `rtw_efuse_map_read` of the whole map into a buffer preset to 0xFF. -/
def efuseMap (e : EfuseState) : Mem := (halEfuseReadEFuse 0 mapLen (fun _ => 0xff) e).1

/-! ## One section -/

section

variable (c : Mem) (offset : Nat)

/-- The loop of `hal_EfusePgPacketRead_8812A`. `state` is `PG_STATE_HEADER`, or `PG_STATE_DATA` with
`hworden` and `word_cnts`. -/
def pgReadLoop : Nat → Nat → Option (Nat × Nat) → Mem → Mem → Mem
  | 0, _, _, _, data => data
  | fuel + 1, addr, some (hworden, wordCnts), tmpdata, data =>
    if addr < realContentLen then
      pgReadLoop fuel (addr + wordCnts * 2 + 1) none tmpdata
        (efuseWordEnableDataRead hworden tmpdata data)
    else data
  | fuel + 1, addr, none, tmpdata, data =>
    if addr < realContentLen then
      if c addr = 0xff then data
      else
        let hdr :=
          if extHeader (c addr) then
            if allWordsDisabled (c (addr + 1)) then none
            else some (addr + 1, extOffset (c addr) (c (addr + 1)), hdrWordEn (c (addr + 1)))
          else some (addr, hdrOffset (c addr), hdrWordEn (c addr))
        match hdr with
        | none => data
        | some (addr, hoffset, hworden) =>
          let wordCnts := efuseCalculateWordCnts hworden
          if hoffset = offset then
            let tmpdata : Mem := fun k => if k < wordCnts * 2 then c (addr + 1 + k) else tmpdata k
            if (c.read (addr + 1) (wordCnts * 2)).any (· != 0xff) then
              pgReadLoop fuel addr (some (hworden, wordCnts)) tmpdata data
            else pgReadLoop fuel (addr + wordCnts * 2 + 1) none tmpdata data
          else pgReadLoop fuel (addr + wordCnts * 2 + 1) none tmpdata data
    else data

end

/-- `hal_EfusePgPacketRead_8812A`: its result and the eight bytes. A packet takes two turns at
most. -/
def halEfusePgPacketRead (offset : Nat) (data : Mem) (e : EfuseState) : Bool × Mem :=
  if offset > maxSection then (false, data)
  else
    let data := pgReadLoop e.cells offset (2 * realContentLen) 0 none (fun _ => 0xff) (fun _ => 0xff)
    ((data.read 0 8).any (· != 0xff), data)

/-! ## Calls in any order -/

/-- A call of one of the three. -/
inductive Call where
  | currentSize
  | readEFuse (offset sizeByte : Nat)
  | pgPacketRead (offset : Nat)
  deriving Repr, DecidableEq

/-- What a call leaves, and the size if it was asked for. -/
def Call.run (e : EfuseState) : Call → Option Nat × EfuseState
  | .currentSize => ((halEfuseGetCurrentSize e).1, (halEfuseGetCurrentSize e).2)
  | .readEFuse offset sizeByte => (none, (halEfuseReadEFuse offset sizeByte (fun _ => 0xff) e).2)
  | .pgPacketRead _ => (none, e)

/-- The sizes that a series of calls returns. -/
def sizes : EfuseState → List Call → List Nat
  | _, [] => []
  | e, call :: calls => (call.run e).1.toList ++ sizes (call.run e).2 calls

end Rtl8812au.Efuse
