import Rtl8812au.Ies.Walk

/-!
# The search for an attribute

`rtw_get_wps_attr` and `rtw_get_p2p_attr` of `core/rtw_ieee80211.c` walk the attributes of a vendor
element. The lengths come from the attributes, and a step is computed in 16 bits. The element lies at
address 0; whatever lies behind it may be read.
-/

namespace Rtl8812au.Ies

/-- How attributes are laid out: the size of their header, and identifier and length in it. -/
structure AttrLayout where
  hdr : Nat
  idAt : Mem → Nat → Nat
  lenAt : Mem → Nat → Nat

/-- `RTW_GET_BE16` twice. -/
def wpsLayout : AttrLayout := ⟨4, fun m p => m.be16 p, fun m p => m.be16 (p + 2)⟩

/-- One byte, then `RTW_GET_LE16`. -/
def p2pLayout : AttrLayout := ⟨3, fun m p => (m p).toNat, fun m p => m.le16 (p + 1)⟩

section

variable (a : AttrLayout) (m : Mem) (ielen target : Nat) (w : Wants)

/-- `attr_len`, a `u16`. -/
def attrLen (p : Nat) : Nat := (a.lenAt m p + a.hdr) % 2 ^ 16

/-- One turn of either loop at the attribute `p`. -/
def attrTurn (p : Nat) : Outcome (Turn Nat (Option Found)) :=
  if p < ielen then
    if a.idAt m p = target then
      pure (.stop (some ⟨p, if w.ielen then some (attrLen a m p) else none,
        if w.ie then some (m.read p (attrLen a m p)) else none⟩))
    else pure (.next (p + attrLen a m p))
  else pure (.stop none)

/-- The loop behind the test of the element's id and OUI. -/
def attrSearch (oui : List UInt8) (r : Option Found) : Prop :=
  if m 0 ≠ vendorIe ∨ m.read 2 4 ≠ oui then r = none
  else Loop.Ends (attrTurn a m ielen target w) 6 r

end

/-- `rtw_get_wps_attr`. -/
def RtwGetWpsAttr (m : Mem) (wpsIelen target : Nat) (w : Wants) (r : Option Found) : Prop :=
  attrSearch wpsLayout m wpsIelen target w wpsOui r

/-- `rtw_get_p2p_attr`. -/
def RtwGetP2pAttr (m : Mem) (p2pIelen target : Nat) (w : Wants) (r : Option Found) : Prop :=
  attrSearch p2pLayout m p2pIelen target w p2pOui r

end Rtl8812au.Ies
