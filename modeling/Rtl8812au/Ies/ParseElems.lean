import Rtl8812au.Ies.Walk
import Mathlib.Logic.Function.Basic

/-!
# Parsing the elements of a management frame

`rtw_ieee802_11_parse_elems` and `rtw_ieee802_11_parse_vendor_specific` of `core/rtw_ieee80211.c`. The
buffer is what the caller passes, and a byte that is not in it is not read. A field of
`struct rtw_ieee802_11_elems` is the offset of a body and its length, or not set.
-/

namespace Rtl8812au.Ies

/-- The fields of `struct rtw_ieee802_11_elems`, each a pointer with its length. -/
inductive ElemField where
  | ssid | suppRates | fhParams | dsParams | cfParams | tim | ibssParams | challenge | erpInfo
  | extSuppRates | wpaIe | rsnIe | wme | wmeTspec | wpsIe | powerCap | suppChannels | mdie | ftie
  | timeoutInt | htCapabilities | htOperation | vendorHtCap | vhtCapabilities | vhtOperation
  | vhtOpModeNotify
  deriving Repr, DecidableEq

/-- `struct rtw_ieee802_11_elems`. -/
abbrev Elems := ElemField → Option (Nat × Nat)

/-- `ParseRes`. -/
inductive ParseRes where
  | ok | unknown | failed
  deriving Repr, DecidableEq

/-- `WLAN_EID_VENDOR_SPECIFIC` apart, the switch on `id`. -/
def fieldOfId (id : UInt8) : Option ElemField :=
  match id.toNat with
  | 0 => some .ssid
  | 1 => some .suppRates
  | 2 => some .fhParams
  | 3 => some .dsParams
  | 4 => some .cfParams
  | 5 => some .tim
  | 6 => some .ibssParams
  | 16 => some .challenge
  | 42 => some .erpInfo
  | 50 => some .extSuppRates
  | 48 => some .rsnIe
  | 33 => some .powerCap
  | 36 => some .suppChannels
  | 54 => some .mdie
  | 55 => some .ftie
  | 56 => some .timeoutInt
  | 45 => some .htCapabilities
  | 61 => some .htOperation
  | 191 => some .vhtCapabilities
  | 192 => some .vhtOperation
  | 199 => some .vhtOpModeNotify
  | _ => none

/-! ## Vendor elements -/

/-- `OUI_MICROSOFT`, `OUI_BROADCOM`. -/
def ouiMicrosoft : Nat := 0x0050f2
def ouiBroadcom : Nat := 0x00904c

/-- `RTW_GET_BE24`. -/
def getBe24 (bs : List UInt8) (pos : Nat) : Outcome Nat := do
  let a ← fetch bs pos
  let b ← fetch bs (pos + 1)
  let c ← fetch bs (pos + 2)
  pure (a.toNat * 65536 + b.toNat * 256 + c.toNat)

/-- The subtypes of `WME_OUI_TYPE`. -/
def parseWme (bs : List UInt8) (pos elen : Nat) : Outcome (Option ElemField) :=
  if elen < 5 then pure none
  else do
    let subtype ← fetch bs (pos + 4)
    if subtype = 0 ∨ subtype = 1 then pure (some .wme)
    else if subtype = 2 then pure (some .wmeTspec)
    else pure none

/-- The types of `OUI_MICROSOFT`. -/
def parseMicrosoft (bs : List UInt8) (pos elen : Nat) : Outcome (Option ElemField) := do
  let type ← fetch bs (pos + 3)
  if type = 1 then pure (some .wpaIe)
  else if type = 2 then parseWme bs pos elen
  else if type = 4 then pure (some .wpsIe)
  else pure none

/-- The types of `OUI_BROADCOM`. -/
def parseBroadcom (bs : List UInt8) (pos : Nat) : Outcome (Option ElemField) := do
  let type ← fetch bs (pos + 3)
  if type = 0x33 then pure (some .vendorHtCap) else pure none

/-- `rtw_ieee802_11_parse_vendor_specific`: the field that is set, or -1. -/
def rtwParseVendorSpecific (bs : List UInt8) (pos elen : Nat) : Outcome (Option ElemField) :=
  if elen < 4 then pure none
  else do
    let oui ← getBe24 bs pos
    if oui = ouiMicrosoft then parseMicrosoft bs pos elen
    else if oui = ouiBroadcom then parseBroadcom bs pos
    else pure none

/-! ## The loop -/

/-- `pos`, `left`, `elems` and `unknown`. -/
structure ParseState where
  pos : Nat
  left : Nat
  elems : Elems
  unknown : Nat

/-- The field that the element sets. -/
def parseField (bs : List UInt8) (id : UInt8) (pos elen : Nat) : Outcome (Option ElemField) :=
  if id = vendorIe then rtwParseVendorSpecific bs pos elen else pure (fieldOfId id)

/-- The element is taken and the next one begins behind it. -/
def ParseState.take (s : ParseState) (f : Option ElemField) (elen : Nat) : ParseState :=
  { pos := s.pos + 2 + elen
    left := s.left - 2 - elen
    elems := match f with
      | some f => Function.update s.elems f (some (s.pos + 2, elen))
      | none => s.elems
    unknown := match f with
      | some _ => s.unknown
      | none => s.unknown + 1 }

/-- One turn. -/
def parseTurn (bs : List UInt8) (s : ParseState) : Outcome (Turn ParseState (ParseRes × Elems)) :=
  if s.left < 2 then
    if s.left ≠ 0 then pure (.stop (.failed, s.elems))
    else pure (.stop (if s.unknown ≠ 0 then .unknown else .ok, s.elems))
  else do
    let id ← fetch bs s.pos
    let elen ← fetch bs (s.pos + 1)
    if s.left - 2 < elen.toNat then pure (.stop (.failed, s.elems))
    else
      let f ← parseField bs id (s.pos + 2) elen.toNat
      pure (.next (s.take f elen.toNat))

/-- `rtw_ieee802_11_parse_elems` returns `res` and leaves `elems`. -/
def RtwParseElems (bs : List UInt8) (res : ParseRes) (elems : Elems) : Prop :=
  Loop.Ends (parseTurn bs) ⟨0, bs.length, fun _ => none, 0⟩ (res, elems)

end Rtl8812au.Ies
