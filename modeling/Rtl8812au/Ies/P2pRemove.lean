import Rtl8812au.Lib.Splice
import Rtl8812au.Ies.Attr
import Rtl8812au.Ies.Remove

/-!
# Removing attributes

`rtw_p2p_attr_remove` and `rtw_WLAN_BSSID_EX_remove_p2p_attr` of `core/rtw_ieee80211.c`. The attribute is
cleared and what is behind it in the element moved over it, until it is not found any more; then the
elements behind are moved over what the element has lost. `IEs` lies at address 0.
-/

namespace Rtl8812au.Ies

/-- What `WLAN_BSSID_EX` has of this: `IEs` and `IELength`. -/
structure BssidEx where
  ies : Mem
  ieLength : Nat

/-- `_FIXED_IE_LENGTH_`. -/
abbrev fixedIeLength : Nat := 12

/-- An attribute of `len` bytes at `addr` from `ie` is taken out: the bytes, and the new `ielen`. -/
def removeAttr (m : Mem) (ie ielen addr len : Nat) : Mem × Nat :=
  let remainLen := sub32 ielen (addr + len)
  let cleared := m.fill (ie + addr) len 0
  let moved := (cleared.copyForward (ie + addr) (ie + addr + len) remainLen).fill
    (ie + addr + remainLen) len 0
  (moved.write (ie + 1) [moved (ie + 1) - UInt8.ofNat len], sub32 ielen len)

/-- The loop of `rtw_p2p_attr_remove` comes from one state to the other. -/
inductive AttrRemoveLoop (ie attrId : Nat) : Mem × Nat → Mem × Nat → Prop where
  | done {m : Mem} {ielen : Nat} {r : Option Found}
      (h : RtwGetP2pAttr (m.shift ie) ielen attrId ⟨true, false⟩ r) (ht : target r = none) :
      AttrRemoveLoop ie attrId (m, ielen) (m, ielen)
  | again {m : Mem} {ielen addr len : Nat} {r : Option Found} {t : Mem × Nat}
      (h : RtwGetP2pAttr (m.shift ie) ielen attrId ⟨true, false⟩ r)
      (ht : target r = some (addr, len))
      (hrest : AttrRemoveLoop ie attrId (removeAttr m ie ielen addr len) t) :
      AttrRemoveLoop ie attrId (m, ielen) t

/-- What is behind the element at `p2pIe`, of `ori` bytes once, follows it again. -/
def closeGap (m : Mem) (ieLength p2pIe ori ielen : Nat) : BssidEx :=
  if ielen = ori then ⟨m, ieLength⟩
  else
    let remainLen := sub32 ieLength (p2pIe + ori)
    ⟨(m.copyForward (p2pIe + ielen) (p2pIe + ori) remainLen).fill (p2pIe + ielen + remainLen)
      (sub32 ori ielen) 0, sub32 ieLength (sub32 ori ielen)⟩

/-- `rtw_WLAN_BSSID_EX_remove_p2p_attr` ends so. -/
def RtwBssidExRemoveP2pAttr (b : BssidEx) (attrId : UInt8) (b' : BssidEx) : Prop :=
  ∃ r, RtwGetP2pIe (b.ies.read fixedIeLength (maxIe - fixedIeLength))
      (((b.ieLength : Int) - fixedIeLength).bmod (2 ^ 32)) ⟨true, false⟩ r
    ∧ match r with
      | none => b' = b
      | some f => ∃ m ielen, AttrRemoveLoop (fixedIeLength + f.addr) attrId.toNat
            (b.ies, f.ielen.getD 0) (m, ielen)
          ∧ b' = closeGap m b.ieLength (fixedIeLength + f.addr) (f.ielen.getD 0) ielen

end Rtl8812au.Ies
