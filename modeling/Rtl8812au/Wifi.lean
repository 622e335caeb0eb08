import Rtl8812au.Lib.Mem

/-!
# The 802.11 header

The accessors of `include/wifi.h` over a frame that starts at address `p` of a
memory, and the cipher numbering of `include/rtw_security.h`.
-/

namespace Rtl8812au

/-! The sizes of the small index types, each with a name for its instance. -/

instance neZeroFour : NeZero 4 := ⟨by decide⟩
instance neZeroEight : NeZero 8 := ⟨by decide⟩
instance neZeroSixteen : NeZero 16 := ⟨by decide⟩
instance neZeroThirtyTwo : NeZero 32 := ⟨by decide⟩

/-- `_NO_PRIVACY_ .. _WEP_WPA_MIXED_`, in the order of their numbers. -/
inductive Cipher where
  | noPrivacy | wep40 | tkip | tkipWtmic | aes | wep104 | sms4 | wepWpaMixed
  deriving Repr, DecidableEq

/-- The number a cipher has in a `u8` field or in the RX descriptor. -/
def Cipher.toNat : Cipher → Nat
  | .noPrivacy => 0
  | .wep40 => 1
  | .tkip => 2
  | .tkipWtmic => 3
  | .aes => 4
  | .wep104 => 5
  | .sms4 => 6
  | .wepWpaMixed => 7

/-- `SET_ICE_IV_LEN`, first component: the IV bytes in front of the payload. -/
def Cipher.ivLen : Cipher → Nat
  | .wep40 | .wep104 => 4
  | .tkip => 8
  | .aes => 8
  | .sms4 => 18
  | _ => 0

/-- `SET_ICE_IV_LEN`, second component: the ICV bytes behind the payload. -/
def Cipher.icvLen : Cipher → Nat
  | .wep40 | .wep104 => 4
  | .tkip => 4
  | .aes => 8
  | .sms4 => 16
  | _ => 0

/-- The ciphers with a software implementation. -/
def Cipher.Software (c : Cipher) : Prop := c = .wep40 ∨ c = .wep104 ∨ c = .tkip ∨ c = .aes

/-- A MAC address: `ETH_ALEN` bytes. -/
structure MacAddr where
  b0 : UInt8
  b1 : UInt8
  b2 : UInt8
  b3 : UInt8
  b4 : UInt8
  b5 : UInt8
  deriving Repr, DecidableEq

namespace MacAddr

def zero : MacAddr := ⟨0, 0, 0, 0, 0, 0⟩

def bcast : MacAddr := ⟨0xff, 0xff, 0xff, 0xff, 0xff, 0xff⟩

def bytes (a : MacAddr) : List UInt8 := [a.b0, a.b1, a.b2, a.b3, a.b4, a.b5]

/-- The address stored at `p`. -/
def ofMem (m : Mem) (p : Nat) : MacAddr :=
  ⟨m p, m (p + 1), m (p + 2), m (p + 3), m (p + 4), m (p + 5)⟩

/-- `IS_MCAST`. -/
def isMcast (a : MacAddr) : Bool := a.b0 &&& 1 != 0

@[simp] theorem length_bytes (a : MacAddr) : a.bytes.length = 6 := rfl

end MacAddr

/-- `WLAN_HDR_A3_LEN`. -/
def wlanHdrA3Len : Nat := 24

/-- `GetFrameType`: 0 management, 4 control, 8 data. -/
inductive FrameType where
  | mgt | ctrl | data | reserved
  deriving Repr, DecidableEq

namespace Wifi

variable (m : Mem) (p : Nat)

/-- Bit `i` of the frame-control field. -/
def fcBit (i : Nat) : Bool := (m.le16 p).testBit i

def getToDs : Bool := fcBit m p 8
def getFrDs : Bool := fcBit m p 9
def getMFrag : Bool := fcBit m p 10
def getRetry : Bool := fcBit m p 11
def getPwrMgt : Bool := fcBit m p 12
def getMData : Bool := fcBit m p 13
def getPrivacy : Bool := fcBit m p 14
def getOrder : Bool := fcBit m p 15

/-- `get_tofr_ds`. -/
def getToFrDs : Nat := (getToDs m p).toNat * 2 + (getFrDs m p).toNat

def getFrameType : FrameType :=
  match m.le16 p &&& 0xc with
  | 0 => .mgt
  | 4 => .ctrl
  | 8 => .data
  | _ => .reserved

/-- `GetFrameSubType`: subtype and type bits together. -/
def getFrameSubType : Nat := m.le16 p &&& 0xfc

def getSequence : Nat := m.le16 (p + 22) >>> 4
def getFragNum : Nat := m.le16 (p + 22) &&& 0xf

/-- The QoS control field accessors take the address of that field. -/
def getPriority : Nat := m.le16 p &&& 0xf
def getAckpolicy : Nat := (m.le16 p >>> 5) &&& 3
def getAMsdu : Bool := (m.le16 p).testBit 7

def getAddr1 : MacAddr := .ofMem m (p + 4)
def getAddr2 : MacAddr := .ofMem m (p + 10)
def getAddr3 : MacAddr := .ofMem m (p + 16)
def getAddr4 : MacAddr := .ofMem m (p + 24)

def getDa : MacAddr :=
  match getToFrDs m p with
  | 0 | 1 => getAddr1 m p
  | _ => getAddr3 m p

def getSa : MacAddr :=
  match getToFrDs m p with
  | 0 => getAddr2 m p
  | 1 => getAddr3 m p
  | 2 => getAddr2 m p
  | _ => getAddr4 m p

/-- `get_hdr_bssid`. -/
def getHdrBssid : MacAddr :=
  match getToFrDs m p with
  | 0 => getAddr3 m p
  | 1 => getAddr2 m p
  | _ => getAddr1 m p

end Wifi

end Rtl8812au
