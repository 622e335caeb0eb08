import Rtl8812au.Ap.Beacon
import Rtl8812au.P2p.Attr

/-!
# Reading the elements of a request

`rtw_ieee802_11_parse_elems`, the parsers of the WPA and RSN elements and the searches for
the WFD element and its attributes of `core/rtw_ieee80211.c`. Of the elements found only those are kept
that `OnAssocReq` looks at.
-/

namespace Rtl8812au

/-- The element identifiers used here. -/
abbrev chlgetxtIe : UInt8 := 16
abbrev htCapabilityIe : UInt8 := 45
abbrev rsnIe : UInt8 := 48
abbrev extSupportedratesIe : UInt8 := 50
abbrev vhtCapabilityIe : UInt8 := 191
abbrev vhtOpModeNotifyIe : UInt8 := 199
abbrev vendorSpecificIe : UInt8 := 221

/-- `struct rtw_ieee802_11_elems`: where the body of an element is, and its length. -/
structure Elems where
  ssid : Option (Nat × Nat) := none
  rsn : Option (Nat × Nat) := none
  wpa : Option (Nat × Nat) := none
  wps : Option (Nat × Nat) := none
  htCapabilities : Option (Nat × Nat) := none
  vhtCapabilities : Option (Nat × Nat) := none
  vhtOpModeNotify : Option (Nat × Nat) := none

/-- `rtw_ieee802_11_parse_vendor_specific`. -/
def parseVendorSpecific (m : Mem) (pos elen : Nat) (e : Elems) : Elems :=
  if elen < 4 then e
  else if m.read pos 3 ≠ [0x00, 0x50, 0xf2] then e
  else if m (pos + 3) = 1 then { e with wpa := some (pos, elen) }
  else if m (pos + 3) = 4 then { e with wps := some (pos, elen) }
  else e

/-- The switch of `rtw_ieee802_11_parse_elems`. -/
def parseElem (m : Mem) (id : UInt8) (pos elen : Nat) (e : Elems) : Elems :=
  if id = ssidIe then { e with ssid := some (pos, elen) }
  else if id = vendorSpecificIe then parseVendorSpecific m pos elen e
  else if id = rsnIe then { e with rsn := some (pos, elen) }
  else if id = htCapabilityIe then { e with htCapabilities := some (pos, elen) }
  else if id = vhtCapabilityIe then { e with vhtCapabilities := some (pos, elen) }
  else if id = vhtOpModeNotifyIe then { e with vhtOpModeNotify := some (pos, elen) }
  else e

/-- The loop of `rtw_ieee802_11_parse_elems`; `none` is `ParseFailed`. -/
def parseElemsLoop (m : Mem) : Nat → Nat → Nat → Elems → Option Elems
  | 0, _, left, e => if left = 0 then some e else none
  | fuel + 1, pos, left, e =>
    if left < 2 then if left = 0 then some e else none
    else
      let elen := (m (pos + 1)).toNat
      if left - 2 < elen then none
      else parseElemsLoop m fuel (pos + 2 + elen) (left - 2 - elen)
        (parseElem m (m pos) (pos + 2) elen e)

/-- `rtw_ieee802_11_parse_elems`. Each element takes at least two bytes, so `len` turns are
enough. -/
def rtwParseElems (m : Mem) (start len : Nat) : Option Elems :=
  parseElemsLoop m len start len {}

/-! ## WPA and RSN -/

/-- `WPA_CIPHER_NONE` and so on. -/
def cipherBit : UInt8 → Nat
  | 0 => 1
  | 1 => 2
  | 5 => 4
  | 2 => 8
  | 4 => 16
  | _ => 0

/-- The suite selector at `s`, of which the first three bytes have to be `oui`. -/
def cipherSuite (oui : List UInt8) (m : Mem) (s : Nat) : Nat :=
  if m.read s 3 = oui then cipherBit (m (s + 3)) else 0

/-- `rtw_get_wpa_cipher_suite` and `rtw_get_wpa2_cipher_suite`. -/
def rtwGetWpaCipherSuite : Mem → Nat → Nat := cipherSuite [0x00, 0x50, 0xf2]
def rtwGetWpa2CipherSuite : Mem → Nat → Nat := cipherSuite [0x00, 0x0f, 0xac]

/-- The pairwise suites: `count` selectors from `pos` on. -/
def pairwiseSuites (suite : Nat → Nat) (pos count : Nat) : Nat :=
  (List.range count).foldl (fun acc i => acc ||| suite (pos + 4 * i)) 0

/-- From the pairwise count on. -/
def parsePairwise (suite : Nat → Nat) (m : Mem) (pos : Nat) (left : Int) : Option Nat :=
  if 2 ≤ left then
    let count := m.le16 pos
    if count = 0 ∨ left - 2 < count * 4 then none
    else some (pairwiseSuites suite (pos + 2) count)
  else if left = 1 then none
  else some 0

/-- What both parsers do behind the version: the group cipher and the pairwise ciphers. -/
def parseSuites (suite : Nat → Nat) (m : Mem) (pos : Nat) (left : Int) : Option (Nat × Nat) :=
  if 4 ≤ left then (parsePairwise suite m (pos + 4) (left - 4)).map fun p => (suite pos, p)
  else if 0 < left then none
  else (parsePairwise suite m pos left).map fun p => (0, p)

/-- `rtw_parse_wpa_ie`: the group cipher and the pairwise ciphers; `none` is `_FAIL`. -/
def rtwParseWpaIe (m : Mem) (wpaIe : Nat) (len : Int) : Option (Nat × Nat) :=
  if len ≤ 0 then none
  else if m wpaIe ≠ 0xdd ∨ m (wpaIe + 1) ≠ UInt8.ofInt (len - 2) ∨
      m.read (wpaIe + 2) 4 ≠ [0x00, 0x50, 0xf2, 1] then none
  else parseSuites (rtwGetWpaCipherSuite m) m (wpaIe + 8) (len - 8)

/-- `rtw_parse_wpa2_ie`. -/
def rtwParseWpa2Ie (m : Mem) (ie : Nat) (len : Int) : Option (Nat × Nat) :=
  if len ≤ 0 then none
  else if m ie ≠ rsnIe ∨ m (ie + 1) ≠ UInt8.ofInt (len - 2) then none
  else parseSuites (rtwGetWpa2CipherSuite m) m (ie + 4) (len - 4)

/-! ## The WFD element -/

/-- `wfd_oui`. -/
def wfdOui : List UInt8 := [0x50, 0x6f, 0x9a, 0x0a]

/-- `rtw_get_wfd_ie`, which has no limit of its own; a negative length is none. -/
def rtwGetWfdIe (m : Mem) (inIe inLen : Nat) : Option (Nat × Nat) :=
  P2p.findIe m wfdOui inIe inLen inLen inLen 0

/-- The loop of `rtw_get_wfd_attr_content` at `cnt`: the body of the attribute. Each turn goes three bytes forward
at least. -/
def wfdAttr (m : Mem) (wfdIelen target : Nat) : Nat → Nat → Option (Nat × Nat)
  | 0, _ => none
  | fuel + 1, cnt =>
    if cnt < wfdIelen then
      let attrlen := m.be16 (cnt + 1)
      if (m cnt).toNat = target then some (cnt + 3, attrlen)
      else wfdAttr m wfdIelen target fuel (cnt + attrlen + 3)
    else none

/-- The attribute of an element that stands at 0. -/
def wfdAttrOf (m : Mem) (wfdIelen target : Nat) : Option (Nat × Nat) :=
  if m 0 = vendorSpecificIe ∧ m.read 2 4 = wfdOui then wfdAttr m wfdIelen target wfdIelen 6 else none

/-- `rtw_get_wfd_attr_content` into a buffer of `cap` bytes. -/
def rtwGetWfdAttrContent (m : Mem) (wfdIelen target cap : Nat) : Copies (Option (List UInt8)) :=
  match wfdAttrOf m wfdIelen target with
  | none => pure none
  | some (p, attrlen) => do
    Copies.copy cap attrlen
    pure (some (m.read p attrlen))

end Rtl8812au
