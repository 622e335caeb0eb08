import Rtl8812au.Ies.Walk

/-!
# The search for the WMM element

The part of `OnAssocReq` of `core/rtw_mlme_ext.c` that looks for the WMM element of a request. The list
is what the frame has from its first element on, so `p` is an offset into it; the limit that
`rtw_get_ie` is given is the length of all of it, wherever `p` is.
-/

namespace Rtl8812au.Ies

/-- `WMM_IE`. -/
def wmmIe : List UInt8 := [0x00, 0x50, 0xf2, 0x02, 0x00, 0x01]

/-- What the station's record has of WMM. -/
structure StaQos where
  /-- `flags & WLAN_STA_WME`. -/
  wme : Bool
  qosOption : UInt8
  qosInfo : UInt8
  maxSpLen : UInt8
  hasLegacyAc : Bool
  uapsdVo : UInt8
  uapsdVi : UInt8
  uapsdBe : UInt8
  uapsdBk : UInt8
  deriving Repr, DecidableEq

/-- Before the search; `max_sp_len` is left as it is. -/
def StaQos.clear (s : StaQos) : StaQos :=
  { s with
    wme := false, qosOption := 0, qosInfo := 0, hasLegacyAc := true
    uapsdVo := 0, uapsdVi := 0, uapsdBe := 0, uapsdBk := 0 }

/-- `BIT(0)|BIT(1)` or nothing, by a bit of `qos_info`. -/
def uapsd (qosInfo bit : UInt8) : UInt8 := if qosInfo &&& bit ≠ 0 then 3 else 0

/-- What is taken from `qos_info`. -/
def StaQos.take (s : StaQos) (qosInfo : UInt8) : StaQos :=
  let s := { s with
    wme := true
    qosOption := 1
    qosInfo := qosInfo
    maxSpLen := (qosInfo >>> 5) &&& 0x3
    hasLegacyAc := decide (qosInfo &&& 0xf ≠ 0xf) }
  if qosInfo &&& 0xf ≠ 0 then
    { s with
      uapsdVo := uapsd qosInfo 1, uapsdVi := uapsd qosInfo 2
      uapsdBk := uapsd qosInfo 4, uapsdBe := uapsd qosInfo 8 }
  else s

/-- The loop from `p` on ends with the element it takes and the byte at offset 8 from it, or with none. -/
inductive WmmScan (bs : List UInt8) : Nat → Option (Nat × UInt8) → Prop where
  | absent {p : Nat} (h : RtwGetIe bs p vendorIe bs.length none) : WmmScan bs p none
  | wmm {p q l : Nat} {info : UInt8} (h : RtwGetIe bs p vendorIe bs.length (some (q, l)))
      (hm : memcmp bs (q + 2) wmmIe = .done true) (hq : fetch bs (q + 8) = .done info) :
      WmmScan bs p (some (q, info))
  | other {p q l : Nat} {r : Option (Nat × UInt8)}
      (h : RtwGetIe bs p vendorIe bs.length (some (q, l)))
      (hm : memcmp bs (q + 2) wmmIe = .done false) (hrest : WmmScan bs (q + l + 2) r) : WmmScan bs p r

/-- The station's record after the search, which found `r`; `qosOption` is the access point's own. -/
def SaveWmm (qosOption : Bool) (bs : List UInt8) (s : StaQos) (r : Option (Nat × UInt8)) (s' : StaQos) :
    Prop :=
  if qosOption then
    WmmScan bs 0 r ∧ s' = match r with
      | none => s.clear
      | some (_, info) => s.clear.take info
  else r = none ∧ s' = s.clear

end Rtl8812au.Ies
