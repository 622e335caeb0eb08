import Rtl8812au.Ies.Attr
import Rtl8812au.Lib.Copies

/-!
# Attributes of received frames

`rtw_get_p2p_ie`, `rtw_get_wps_ie`, `rtw_get_p2p_attr`, `rtw_get_wps_attr` and `rtw_get_p2p_attr_content` of
`core/rtw_ieee80211.c`, as the handlers of frames call them: what they come to is computed, and a body is
copied into a buffer of the handler as long as it says it is.

What is read behind the frame may be anything.
-/

namespace Rtl8812au.P2p

open Ies

/-! ## Searches -/

/-- What a search for an attribute comes to: none, an attribute at `ptr` of `len` bytes with its
header, or an attribute without any length, from which the search does not get on. -/
inductive Search where
  | missing
  | hangs
  | found (ptr len : Nat)
  deriving Repr, DecidableEq

section

variable (a : AttrLayout) (m : Mem) (target stop : Nat)

/-- The loop of `rtw_get_p2p_attr` and `rtw_get_wps_attr`. -/
def attrWalk : Nat → Nat → Search
  | 0, _ => .missing
  | fuel + 1, ptr =>
    if ptr < stop then
      if a.idAt m ptr = target then .found ptr (attrLen a m ptr)
      else if attrLen a m ptr = 0 then .hangs
      else attrWalk fuel (ptr + attrLen a m ptr)
    else .missing

end

/-- The test of the element's id and OUI, and the loop over its attributes, each of which takes a byte at
least where the loop gets on. -/
def attrOf (a : AttrLayout) (oui : List UInt8) (m : Mem) (ie ielen target : Nat) : Search :=
  if m ie = vendorIe ∧ m.read (ie + 2) 4 = oui then attrWalk a m target (ie + ielen) ielen (ie + 6)
  else .missing

/-- `rtw_get_p2p_attr`. -/
def rtwGetP2pAttr : Mem → Nat → Nat → Nat → Search := attrOf p2pLayout p2pOui

/-- `rtw_get_wps_attr`. -/
def rtwGetWpsAttr : Mem → Nat → Nat → Nat → Search := attrOf wpsLayout wpsOui

/-- `attr_len - hdr` in 32 bits. -/
def contentLen (hdr attrLen : Nat) : Nat := (attrLen + 2 ^ 32 - hdr) % 2 ^ 32

/-- The content of an attribute that was searched for, copied into a buffer of `cap` bytes; `none` if
there is no such attribute. -/
def attrContent (m : Mem) (hdr cap : Nat) : Search → Copies (Option (List UInt8))
  | .missing => pure none
  | .hangs => Copies.ofOption none
  | .found ptr attrLen =>
    if attrLen = 0 then pure none
    else do
      Copies.copy cap (contentLen hdr attrLen)
      pure (some (m.read (ptr + hdr) (contentLen hdr attrLen)))

/-- The content as it is, without a buffer: how long it is. -/
def attrContentLen (hdr : Nat) : Search → Copies (Option Nat)
  | .missing => pure none
  | .hangs => Copies.ofOption none
  | .found _ attrLen => pure (if attrLen = 0 then none else some (contentLen hdr attrLen))

/-- The attributes that are looked up. -/
inductive P2pAttr where
  | status
  | capability
  | goIntent
  | intentedIfAddr
  | chList
  | deviceInfo
  | groupId
  | operatingCh
  deriving Repr, DecidableEq

/-- `P2P_ATTR_*`. -/
def P2pAttr.id : P2pAttr → Nat
  | .status => 0x00
  | .capability => 0x02
  | .goIntent => 0x04
  | .intentedIfAddr => 0x09
  | .chList => 0x0b
  | .deviceInfo => 0x0d
  | .groupId => 0x0f
  | .operatingCh => 0x11

/-- `rtw_get_p2p_attr_content` into a buffer of `cap` bytes. -/
def rtwGetP2pAttrContent (m : Mem) (ie : Nat × Nat) (a : P2pAttr) (cap : Nat) :
    Copies (Option (List UInt8)) :=
  attrContent m 3 cap (rtwGetP2pAttr m ie.1 ie.2 a.id)

/-- `rtw_get_p2p_attr_content` without a buffer. -/
def rtwGetP2pAttrContentLen (m : Mem) (ie : Nat × Nat) (a : P2pAttr) : Copies (Option Nat) :=
  attrContentLen 3 (rtwGetP2pAttr m ie.1 ie.2 a.id)

/-! ## Elements -/

/-- The loop of `rtw_get_p2p_ie`, `rtw_get_wps_ie` and `rtw_get_wfd_ie` over `inLen` bytes, up to `limit`:
address and length of the first element with that OUI. -/
def findIe (m : Mem) (oui : List UInt8) (start inLen limit : Nat) : Nat → Nat → Option (Nat × Nat)
  | 0, _ => none
  | fuel + 1, cnt =>
    if cnt < inLen ∧ cnt ≤ limit then
      if m (start + cnt) = vendorIe ∧ m.read (start + cnt + 2) 4 = oui then
        some (start + cnt, (m (start + cnt + 1)).toNat + 2)
      else findIe m oui start inLen limit fuel (cnt + (m (start + cnt + 1)).toNat + 2)
    else none

/-- `rtw_get_p2p_ie`; a negative length is none. -/
def rtwGetP2pIe (m : Mem) (inIe inLen : Nat) : Option (Nat × Nat) :=
  findIe m p2pOui inIe inLen maxIe inLen 0

/-- `rtw_get_wps_ie`, which has no limit of its own. -/
def rtwGetWpsIe (m : Mem) (inIe inLen : Nat) : Option (Nat × Nat) :=
  findIe m wpsOui inIe inLen inLen inLen 0

/-- The P2P element behind another one. -/
def nextP2pIe (m : Mem) (iesLen : Nat) (ie : Nat × Nat) : Option (Nat × Nat) :=
  rtwGetP2pIe m (ie.1 + ie.2) (iesLen - (ie.1 + ie.2))

end Rtl8812au.P2p
