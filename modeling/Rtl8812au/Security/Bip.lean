import Rtl8812au.Lib.Reach
import Rtl8812au.Security.Ccmp
import Rtl8812au.Ap.Ie

/-!
# Protection of broadcast management frames

The multicast part of `rtw_mgmt_xmitframe_coalesce` (`core/rtw_xmit.c`), which puts a management MIC
element behind a frame, and `rtw_BIP_verify` (`core/rtw_security.c`), which looks for it. A frame
starts at address 0 of its memory. The block cipher is a parameter; every allocation succeeds.
-/

namespace Rtl8812au.Bip

open BlockMode

/-! ## OMAC1 -/

/-- `gf_mulx`. -/
def gfMulx (pad : Block) : Block := fun i =>
  if h : i.val < 15 then (pad i <<< 1) ||| (pad ⟨i.val + 1, by omega⟩ >>> 7)
  else (pad i <<< 1) ^^^ (if pad 0 &&& 0x80 ≠ 0 then 0x87 else 0)

/-- Exclusive or of the bytes into the front of a block. -/
def xorBytes (cbc : Block) (bs : List UInt8) : Block := fun i => cbc i ^^^ bs.getD i.val 0

section

variable (enc : Block → Block)

/-- The loop over whole blocks: the last of them is not encrypted if nothing is left behind it. -/
def omacLoop : Nat → Block → List UInt8 → Block × List UInt8
  | 0, cbc, data => (cbc, data)
  | n + 1, cbc, data =>
    if data.length < 16 then (cbc, data)
    else
      let cbc := xorBytes cbc (data.take 16)
      let cbc := if data.length > 16 then enc cbc else cbc
      omacLoop n cbc (data.drop 16)

/-- `omac1_aes_128` on one piece of data. -/
def omac1Aes128 (data : List UInt8) : Block :=
  let (cbc, rest) := omacLoop enc data.length (fun _ => 0) data
  let pad := gfMulx (enc fun _ => 0)
  if rest.length ≠ 0 ∨ data.length = 0 then
    enc (bitwiseXor (gfMulx pad) (xorBytes cbc (rest ++ [0x80])))
  else enc (bitwiseXor pad cbc)

end

/-- The first eight bytes of a block. -/
def micOf (b : Block) : List UInt8 := (List.range 8).map fun i => b (Fin.ofNat 16 i)

/-! ## The element -/

/-- `_MME_IE_`. -/
def mmeIe : UInt8 := 76

/-- `BIP_AAD_SIZE`. -/
def bipAadSize : Nat := 20

/-- `WIFI_DEAUTH` and `WIFI_DISASSOC`, as `GetFrameSubType` gives them. -/
def wifiDeauth : Nat := 0xc0
def wifiDisassoc : Nat := 0xa0

/-- The fields of `securitypriv` for it. -/
structure BipSec where
  dot11wBIPKeyid : Fin 6
  dot11wBIPKey : Fin 6 → AesKey

def BipSec.key (sec : BipSec) : AesKey := sec.dot11wBIPKey sec.dot11wBIPKeyid

/-- The AAD: the frame control without retry, power management and more data (bits 3, 4 and 5 of its
second byte), and three addresses. -/
def bipAad (m : Mem) : List UInt8 := [m 0, m 1 &&& 0xc7] ++ m.read 4 18

/-- The low six bytes of a packet number. -/
def ipnBytes (ipn : Nat) : List UInt8 :=
  [UInt8.ofNat ipn, UInt8.ofNat (ipn / 256), UInt8.ofNat (ipn / 65536), UInt8.ofNat (ipn / 16777216),
    UInt8.ofNat (ipn / 4294967296), UInt8.ofNat (ipn / 1099511627776)]

/-- The packet number in six bytes. -/
def le48 (m : Mem) (a : Nat) : Nat :=
  m.le16 a + m.le16 (a + 2) * 65536 + m.le16 (a + 4) * 4294967296

/-- Eight bytes of zero, where the MIC goes. -/
def zeroMic : List UInt8 := List.replicate 8 0

/-! ## Sending -/

/-- The sender: the adapter is a linked station, the key is installed, and `mgnt_80211w_IPN`. -/
structure BipTx where
  stationLinked : Bool
  binstallBIPkey : Bool
  sec : BipSec
  ipn : Nat

variable (aes : AesKey → Block → Block)

/-- `rtw_mgmt_xmitframe_coalesce` for a multicast receiver: whether it succeeds, and what becomes of
the sender, the frame and its length. -/
def mgmtXmitframeCoalesce (tx : BipTx) (m : Mem) (pktlen : Nat) : Bool × BipTx × Mem × Nat :=
  if tx.stationLinked = false then (true, tx, m, pktlen)
  else if tx.binstallBIPkey = false then (true, tx, m, pktlen)
  else if Wifi.getFrameSubType m 0 ≠ wifiDeauth ∧ Wifi.getFrameSubType m 0 ≠ wifiDisassoc then
    (false, tx, m, pktlen)
  else
    let mme := [UInt8.ofNat tx.sec.dot11wBIPKeyid.val, 0] ++ ipnBytes tx.ipn ++ zeroMic
    let tx := { tx with ipn := (tx.ipn + 1) % 2 ^ 64 }
    let m := m.write pktlen ([mmeIe, 16] ++ mme)
    let pktlen := pktlen + 18
    let frameBodyLen := pktlen - wlanHdrA3Len
    let mic := omac1Aes128 (aes tx.sec.key) (bipAad m ++ m.read wlanHdrA3Len frameBodyLen)
    (true, tx, m.write (pktlen - 8) (micOf mic), pktlen)

/-! ## Receiving -/

/-- The receiver, with `mgnt_80211w_IPN_rx`. -/
structure BipRx where
  sec : BipSec
  ipnRx : Nat

/-- A received frame, and the heap around the buffer that the verifier allocates. -/
structure BipFrame where
  data : Mem
  pktLen : Nat
  heap : Mem

inductive BipResult where
  | success | fail | rxHandled
  deriving Repr, DecidableEq

namespace BipFrame

variable (f : BipFrame)

/-- The length of the body. -/
def bodyLen : Nat := f.pktLen - wlanHdrA3Len

/-- `BIP_AAD` with the frame body behind the room for the AAD. -/
def buf : Mem := fun k =>
  if k < bipAadSize then 0
  else if k < bipAadSize + f.bodyLen then f.data (wlanHdrA3Len + (k - bipAadSize))
  else f.heap k

/-- The element that the search comes to, with its length. -/
def mme : Option (Nat × Nat) := rtwGetIe f.buf bipAadSize mmeIe (f.bodyLen : Int)

/-- The packet number of an element. -/
def ipn (p : Nat) : Nat := le48 f.buf (p + 4)

/-- What the MIC is over: the AAD, and the body with the last eight bytes of the element zeroed. -/
def micInput (p len : Nat) : List UInt8 :=
  bipAad f.data ++ (f.buf.write (p + 2 + len - 8) zeroMic).read bipAadSize f.bodyLen

/-- The last eight bytes of the frame. -/
def lastBytes : List UInt8 := f.data.read (f.pktLen - 8) 8

end BipFrame

/-- `rtw_BIP_verify`. A frame without a whole header makes it copy a negative number of bytes. -/
def bipVerify (rx : BipRx) (f : BipFrame) : Outcome (BipResult × BipRx) :=
  if f.pktLen < wlanHdrA3Len then .overrun
  else
    match f.mme with
    | none => .done (.rxHandled, rx)
    | some (p, len) =>
      if f.ipn p ≤ rx.ipnRx then .done (.fail, rx)
      else if f.buf.le16 (p + 2) ≠ rx.sec.dot11wBIPKeyid.val then .done (.fail, rx)
      else
        let mic := omac1Aes128 (aes rx.sec.key) (f.micInput p len)
        if micOf mic = f.lastBytes then .done (.success, { rx with ipnRx := f.ipn p })
        else .done (.fail, rx)

/-- The receiver with the frames it has accepted, in their order. -/
structure BipLog where
  rx : BipRx
  accepted : List BipFrame

/-- One received frame. -/
def bipStep (s : BipLog) (f : BipFrame) : Outcome BipLog :=
  bipVerify aes s.rx f >>= fun (res, rx) =>
    .done ⟨rx, if res = .success then s.accepted ++ [f] else s.accepted⟩

end Rtl8812au.Bip
