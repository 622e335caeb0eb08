import Rtl8812au.Lib.BlockMode
import Rtl8812au.Wifi

/-!
# CCMP

`aes_cipher` and `aes_decipher` of `core/rtw_security.c`, with the functions that
build the CCM blocks from the frame header. The frame starts at address 0 of its
memory. The block cipher `aes128k128d` is a parameter.
-/

namespace Rtl8812au

open BlockMode

/-- A 128-bit key. -/
abbrev AesKey := Fin 16 → UInt8

/-- The result of a `uint` computation. -/
def u32 (n : Nat) : Nat := n % 2 ^ 32

def wlanHdrA3QosLen : Nat := 26
def maxMsgSize : Nat := 2048

namespace Ccmp

/-- `GetFrameType(pframe)`. -/
def frtype (m : Mem) : Nat := m.le16 0 &&& 0xc

/-- `GetFrameSubType(pframe) >> 4`. -/
def frsubtype (m : Mem) : Nat := (m.le16 0 &&& 0xfc) >>> 4

/-- `a4_exists`, from the header length the caller gives. -/
def a4Exists (hdrlen : Nat) : Bool := !(hdrlen == wlanHdrA3Len || hdrlen == wlanHdrA3QosLen)

/-- `qc_exists`. The three CF values have bits above the four that `frtype |
frsubtype` can have, so only the second test ever holds. -/
def qcExists (m : Mem) : Bool :=
  (frtype m ||| frsubtype m == 0x18 || frtype m ||| frsubtype m == 0x28
    || frtype m ||| frsubtype m == 0x38)
  || (frtype m == 8 && (frsubtype m == 8 || frsubtype m == 9 || frsubtype m == 0xa
    || frsubtype m == 0xb))

/-- `hdrlen` after the two bytes of QoS control are added where the caller's
length leaves them out. -/
def adjustHdrlen (m : Mem) (hdrlen : Nat) : Nat :=
  if qcExists m && hdrlen != wlanHdrA3QosLen then hdrlen + 2 else hdrlen

/-- `pn_vector`, six bytes read from the CCMP header at `hdrlen`. -/
def pnVector (m : Mem) (hdrlen : Nat) : Nat → UInt8 := fun k =>
  if k < 2 then m (hdrlen + k) else if k < 6 then m (hdrlen + 2 + k) else 0

/-- `construct_mic_iv`. -/
def constructMicIv (qc a4 : Bool) (mpdu : Mem) (payloadLength : Nat) (pn : Nat → UInt8) : Block :=
  fun i =>
    if i.val = 0 then 0x59
    else if i.val = 1 then
      if qc && a4 then mpdu 30 &&& 0x0f else if qc then mpdu 24 &&& 0x0f else 0
    else if i.val < 8 then mpdu (i + 8)
    else if i.val < 14 then pn (13 - i)
    else if i.val = 14 then UInt8.ofNat (payloadLength / 256)
    else UInt8.ofNat (payloadLength % 256)

/-- `construct_mic_header1`. -/
def constructMicHeader1 (headerLength : Nat) (mpdu : Mem) : Block := fun i =>
  if i.val = 0 then UInt8.ofNat ((headerLength - 2) / 256)
  else if i.val = 1 then UInt8.ofNat ((headerLength - 2) % 256)
  else if i.val = 2 then mpdu 0 &&& 0xcf
  else if i.val = 3 then mpdu 1 &&& 0xc7
  else mpdu i

/-- `construct_mic_header2`. -/
def constructMicHeader2 (mpdu : Mem) (a4 qc : Bool) : Block := fun i =>
  if i.val < 6 then mpdu (16 + i)
  else if i.val < 8 then 0
  else if i.val < 14 then
    if a4 then mpdu (16 + i)
    else if qc && i.val = 8 then mpdu 24 &&& 0x0f
    else 0
  else if i.val = 14 && qc && a4 then mpdu 30 &&& 0x0f
  else 0

/-- `construct_ctr_preload` for counter value `c`. -/
def constructCtrPreload (a4 qc : Bool) (mpdu : Mem) (pn : Nat → UInt8) (c : Nat) : Block :=
  fun i =>
    if i.val = 0 then 0x01
    else if i.val = 1 then
      if qc && a4 then mpdu 30 &&& 0x0f else if qc then mpdu 24 &&& 0x0f else 0
    else if i.val < 8 then mpdu (i + 8)
    else if i.val < 14 then pn (13 - i)
    else if i.val = 14 then UInt8.ofNat (c / 256)
    else UInt8.ofNat (c % 256)

section

variable (aes : AesKey → Block → Block) (key : AesKey)

/-- The key stream blocks as both functions compute them, from the frame header
that stands in the memory at that point. -/
def keyStream (a4 qc : Bool) (pn : Nat → UInt8) (m : Mem) (c : Nat) : Block :=
  aes key (constructCtrPreload a4 qc m pn c)

/-- The "Calculate MIC" part: the nonce, the two header blocks, then the payload. -/
def calculateMic (a4 qc : Bool) (pn : Nat → UInt8) (hdrlen : Nat) (m : Mem) (plen : Nat) : Block :=
  let x := aes key (constructMicIv qc a4 m plen pn)
  let x := aes key (bitwiseXor x (constructMicHeader1 hdrlen m))
  let x := aes key (bitwiseXor x (constructMicHeader2 m a4 qc))
  cbcMac (aes key) m (hdrlen + 8) plen x

/-- Insert the MIC behind the payload, encrypt the payload and then the MIC. -/
def sealPayload (a4 qc : Bool) (pn : Nat → UInt8) (hdrlen : Nat) (m : Mem) (plen : Nat) : Mem :=
  let mic := calculateMic aes key a4 qc pn hdrlen m plen
  let m := storeBlock m (hdrlen + 8 + plen) 8 mic
  let m := ctrPayload (keyStream aes key a4 qc pn) (hdrlen + 8) plen m
  storeBlock m (hdrlen + 8 + plen) 8
    (bitwiseXor (keyStream aes key a4 qc pn m 0) (padded m (hdrlen + 8 + plen) 8))

/-- `aes_cipher`: `plen` bytes of payload behind the header and the CCMP header.
It always returns `_SUCCESS`. -/
def aesCipher (hdrlen : Nat) (pframe : Mem) (plen : Nat) : Mem :=
  let a4 := a4Exists hdrlen
  let qc := qcExists pframe
  let hdrlen := adjustHdrlen pframe hdrlen
  let pn := pnVector pframe hdrlen
  sealPayload aes key a4 qc pn hdrlen pframe plen

/-- What `aes_decipher` leaves: the frame, its static `message` buffer and whether
it returns `_SUCCESS`. -/
structure Deciphered where
  pframe : Mem
  message : Mem
  ok : Bool

/-- `aes_decipher`: `plen` counts the MIC. `message` keeps what an earlier call left
in it when the frame is too long to be copied there. -/
def aesDecipher (message : Mem) (hdrlen : Nat) (pframe : Mem) (plen : Nat) : Deciphered :=
  let n := u32 (plen + 2 ^ 32 - 8)
  -- the packet number is read before the header length is adjusted
  let pn := pnVector pframe hdrlen
  let a4 := a4Exists hdrlen
  let qc := qcExists pframe
  let hdrlen := adjustHdrlen pframe hdrlen
  let pframe := ctrPayload (keyStream aes key a4 qc pn) (hdrlen + 8) n pframe
  let message :=
    if u32 (hdrlen + plen + 8) ≤ maxMsgSize then message.copy 0 pframe 0 (u32 (hdrlen + plen + 8))
    else message
  let pn := pnVector pframe hdrlen
  let message := sealPayload aes key a4 qc pn hdrlen message n
  { pframe := pframe
    message := message
    ok := (List.range 8).all fun i =>
      pframe (u32 (hdrlen + plen + i)) == message (u32 (hdrlen + plen + i)) }

end

end Ccmp

end Rtl8812au
