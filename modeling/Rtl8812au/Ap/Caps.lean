import Rtl8812au.Ap.Beacon
import Rtl8812au.Recv.Frame

/-!
# What the BSS adjusts to its stations

`bss_cap_update_on_sta_join` and `bss_cap_update_on_sta_leave` of `core/rtw_ap.c` keep six
counters of stations that lack something, with one flag per station and counter that says
whether it is counted, and rewrite the beacon when a counter leaves or reaches zero.
-/

namespace Rtl8812au

/-- The six counters of `struct mlme_priv`, each with its flag of `struct sta_info`:
`num_sta_non_erp` and `nonerp_set`, and so on. -/
inductive Cap where
  | nonErp | noShortPreamble | noShortSlotTime | noHt | htNoGf | ht20mhz
  deriving Repr, DecidableEq

/-- What `OnAssocReq` leaves in `flags`, `capability` and `htpriv.ht_cap` of a station, as
far as the counters look at it. -/
structure StaCaps where
  /-- `flags & WLAN_STA_SHORT_PREAMBLE`. -/
  shortPreamble : Bool := false
  /-- `flags & WLAN_STA_NONERP`. -/
  nonerp : Bool := false
  /-- `capability & WLAN_CAPABILITY_SHORT_SLOT`. -/
  shortSlot : Bool := false
  /-- `flags & WLAN_STA_HT`. -/
  ht : Bool := false
  /-- `htpriv.ht_cap.cap_info`. -/
  htCapInfo : BitVec 16 := 0
  deriving DecidableEq

/-- `IEEE80211_HT_CAP_SUP_WIDTH` and `IEEE80211_HT_CAP_GRN_FLD`. -/
def htSupWidth (info : BitVec 16) : Bool := info &&& 0x0002#16 != 0
def htGrnFld (info : BitVec 16) : Bool := info &&& 0x0010#16 != 0

/-- What a station lacks, by what it asked to associate with. -/
def StaCaps.lacks (r : StaCaps) : Cap → Bool
  | .nonErp => r.nonerp
  | .noShortPreamble => !r.shortPreamble
  | .noShortSlotTime => !r.shortSlot
  | .noHt => !r.ht
  | .htNoGf => r.ht && !htGrnFld r.htCapInfo
  | .ht20mhz => r.ht && !htSupWidth r.htCapInfo

/-- The BSS: `struct mlme_priv` with the beacon of `struct mlme_ext_info`, and of each
station its capabilities and the six flags. -/
structure Bss where
  bstartBss : Bool := false
  /-- `pmlmeinfo->ERP_enable`. -/
  erpEnable : Bool := false
  curWirelessMode : Nat := 0
  /-- `htpriv.ht_option` and `htpriv.ht_cap.cap_info` of the access point. -/
  htOption : Bool := false
  htCapInfo : BitVec 16 := 0
  olbcHt : Bool := false
  htOpMode : BitVec 16 := 0
  num : Cap → Int := fun _ => 0
  updateBcn : Bool := false
  /-- `pmlmeinfo->network`. -/
  network : BssidEx := {}
  caps : StaSlot → StaCaps := fun _ => {}
  /-- `nonerp_set`, `no_short_preamble_set`, ... -/
  isSet : StaSlot → Cap → Bool := fun _ _ => false

/-- `WIRELESS_11B`. -/
abbrev wireless11B : Nat := 1

/-- The part of `start_ap_mode` that is about the BSS. -/
def startApMode (b : Bss) : Bss :=
  { b with
    bstartBss := false, updateBcn := false, num := fun _ => 0, olbcHt := false, htOpMode := 0 }

/-! ## The beacon -/

/-- The elements `_update_beacon` is called for from here. -/
inductive BcnIe where
  /-- `0xFF`, the fixed fields. -/
  | fixed
  | erpinfo | htCapability | htAddInfo
  deriving Repr, DecidableEq

/-- The bits of the ERP octet: `NON_ERP_PRESENT`, `USE_PROTECTION`, `BARKER_PREAMBLE_MODE`. -/
def erpOctet (b : Bss) (data : UInt8) : UInt8 :=
  let data := if b.num .nonErp = 1 then data ||| 3 else data &&& ~~~3
  if b.num .noShortPreamble > 0 then data ||| 4 else data &&& ~~~4

/-- `update_bcn_erpinfo_ie`. -/
def updateBcnErpinfoIe (b : Bss) : Bss :=
  if !b.erpEnable then b
  else match b.network.getIe erpinfoIe with
    | some (p, _ + 1) =>
      { b with network := { b.network with
        ies := b.network.ies.write (p + 2) [erpOctet b (b.network.ies (p + 2))] } }
    | _ => b

/-- `_update_beacon`. The functions for the fixed fields and for the HT elements are empty. -/
def updateBeacon (b : Bss) (ie : BcnIe) : Bss :=
  if !b.bstartBss then b
  else
    let b := match ie with
      | .erpinfo => updateBcnErpinfoIe b
      | .fixed | .htCapability | .htAddInfo => b
    { b with updateBcn := true }

/-! ## The HT operating mode -/

/-- `HT_INFO_OPERATION_MODE_NON_GF_DEVS_PRESENT`, `.._NON_HT_STA_PRESENT`, `.._OP_MODE_MASK`. -/
abbrev opModeNonGf : BitVec 16 := 0x0004
abbrev opModeNonHt : BitVec 16 := 0x0010
abbrev opModeMask : BitVec 16 := 0x0003

/-- Set or clear one bit of `ht_op_mode`, counting the change. -/
def opModeBit (mode bit : BitVec 16) (want : Bool) : BitVec 16 × Nat :=
  if mode &&& bit == 0 && want then (mode ||| bit, 1)
  else if mode &&& bit != 0 && !want then (mode &&& ~~~bit, 1)
  else (mode, 0)

/-- `new_op_mode`: `OP_MODE_MIXED`, `OP_MODE_20MHZ_HT_STA_ASSOCED`,
`OP_MODE_MAY_BE_LEGACY_STAS` or `OP_MODE_PURE`. -/
def newOpMode (b : Bss) (mode : BitVec 16) : BitVec 16 :=
  if b.num .noHt ≠ 0 ∨ mode &&& opModeNonGf ≠ 0 then 3
  else if htSupWidth b.htCapInfo ∧ b.num .ht20mhz ≠ 0 then 2
  else if b.olbcHt then 1
  else 0

/-- `rtw_ht_operation_update`, with the number of changes. -/
def rtwHtOperationUpdate (b : Bss) : Bss × Nat :=
  if b.htOption then (b, 0)
  else
    let (mode, n1) := opModeBit b.htOpMode opModeNonGf (b.num .htNoGf != 0)
    let (mode, n2) := opModeBit mode opModeNonHt (b.num .noHt != 0 || b.olbcHt)
    let new := newOpMode b mode
    if mode &&& opModeMask ≠ new then
      ({ b with htOpMode := (mode &&& ~~~opModeMask) ||| new }, n1 + n2 + 1)
    else ({ b with htOpMode := mode }, n1 + n2)

/-! ## Joining and leaving -/

/-- Take a station into a counter, or out of it. -/
def Bss.recount (b : Bss) (s : StaSlot) (c : Cap) (on : Bool) : Bss :=
  { b with
    isSet := fun k d => if k = s ∧ d = c then on else b.isSet k d
    num := fun d => if d = c then b.num d + (if on then 1 else -1) else b.num d }

/-- The flag of `s` follows `lacks`; the counter moves when the flag does. The second
component tells whether the counter has come to one, or to zero. -/
def countStep (b : Bss) (s : StaSlot) (c : Cap) (lacks : Bool) : Bss × Bool :=
  if lacks then
    if b.isSet s c then (b, false)
    else (b.recount s c true, (b.recount s c true).num c == 1)
  else if b.isSet s c then (b.recount s c false, (b.recount s c false).num c == 0)
  else (b, false)

/-- The same with the call of `update_beacon` that follows it. -/
def capStep (b : Bss) (s : StaSlot) (c : Cap) (lacks : Bool) (ie : BcnIe) (gate : Bool) :
    Bss × Bool :=
  let r := countStep b s c lacks
  if r.2 && gate then (updateBeacon r.1 ie, true) else (r.1, false)

/-- `OnAssocReq` has written the station's capabilities before it calls the function. -/
def Bss.setCaps (b : Bss) (s : StaSlot) (r : StaCaps) : Bss :=
  { b with caps := fun k => if k = s then r else b.caps k }

/-- The HT counters on a join. A station that has gained greenfield or 40 MHz, or has given
up HT, stays in the counters it was in. -/
def joinHt (b : Bss) (s : StaSlot) : Bss :=
  if (b.caps s).ht then
    let b := (countStep b s .noHt false).1
    let b := if !htGrnFld (b.caps s).htCapInfo then (countStep b s .htNoGf true).1 else b
    if !htSupWidth (b.caps s).htCapInfo then (countStep b s .ht20mhz true).1 else b
  else (countStep b s .noHt true).1

/-- `rtw_ht_operation_update` and what both functions do with its result. -/
def htBeacon (b : Bss) : Bss :=
  let r := rtwHtOperationUpdate b
  if 0 < r.2 then updateBeacon (updateBeacon r.1 .htCapability) .htAddInfo else r.1

/-- `bss_cap_update_on_sta_join`, with `beacon_updated`. -/
def bssCapUpdateOnStaJoin (b : Bss) (s : StaSlot) : Bss × Bool :=
  let r := b.caps s
  let g := decide (wireless11B < b.curWirelessMode)
  let x := capStep b s .noShortPreamble (!r.shortPreamble) .fixed g
  let y := capStep x.1 s .nonErp r.nonerp .erpinfo true
  let z := capStep y.1 s .noShortSlotTime (!r.shortSlot) .fixed g
  (htBeacon (joinHt z.1 s), x.2 || y.2 || z.2)

/-- `bss_cap_update_on_sta_leave`, with `beacon_updated`. -/
def bssCapUpdateOnStaLeave (b : Bss) (s : StaSlot) : Bss × Bool :=
  let g := decide (wireless11B < b.curWirelessMode)
  let x := capStep b s .noShortPreamble false .fixed g
  let y := capStep x.1 s .nonErp false .erpinfo true
  let z := capStep y.1 s .noShortSlotTime false .fixed g
  let b := (countStep z.1 s .htNoGf false).1
  let b := (countStep b s .noHt false).1
  let b := (countStep b s .ht20mhz false).1
  (htBeacon b, x.2 || y.2 || z.2)

end Rtl8812au
