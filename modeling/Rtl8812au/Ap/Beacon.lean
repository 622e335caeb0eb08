import Rtl8812au.Ap.Ie

/-!
# The beacon template

What `core/rtw_ap.c` does to the elements of the beacon it sends: `update_BCNTIM` puts the
traffic indication map into it, `update_bcn_erpinfo_ie` the protection bits.
-/

namespace Rtl8812au

/-- `MAX_IE_SZ`, the bytes of `WLAN_BSSID_EX.IEs`. -/
abbrev maxIeSz : Nat := 768

/-- `_FIXED_IE_LENGTH_` and `_BEACON_IE_OFFSET_`: timestamp, beacon interval, capability. -/
abbrev fixedIeLength : Nat := 12

/-- `_SSID_IE_`, `_SUPPORTEDRATES_IE_`, `_DSSET_IE_`, `_TIM_IE_`, `_ERPINFO_IE_`. -/
abbrev ssidIe : UInt8 := 0
abbrev supportedratesIe : UInt8 := 1
abbrev dssetIe : UInt8 := 3
abbrev timIe : UInt8 := 5
abbrev erpinfoIe : UInt8 := 42

/-- `WLAN_BSSID_EX`: its element buffer and how much of it is used. -/
structure BssidEx where
  ies : Mem := fun _ => 0
  ieLength : Nat := 0

/-- `rtw_get_ie` over the elements behind the fixed fields. -/
def BssidEx.getIe (b : BssidEx) (index : UInt8) : Option (Nat × Nat) :=
  rtwGetIe b.ies fixedIeLength index ((b.ieLength : Int) - fixedIeLength)

/-! ## The traffic indication map -/

/-- `tim_ielen` of the element that is written. -/
def timIelen (tim : BitVec 16) : Nat :=
  if tim &&& 0xff00#16 ≠ 0 ∧ tim &&& 0x00fe#16 ≠ 0 then 5 else 4

/-- `(u8)tim_bitmap_le` and `(u8)(tim_bitmap_le >> 8)`. -/
def timLow (tim : BitVec 16) : UInt8 := ⟨tim.setWidth 8⟩
def timHigh (tim : BitVec 16) : UInt8 := ⟨(tim >>> 8).setWidth 8⟩

/-- `pvb`, when one octet of the map is sent. -/
def timPvb (tim : BitVec 16) : UInt8 :=
  if tim &&& 0x00fe#16 ≠ 0 then timLow tim
  else if tim &&& 0xff00#16 ≠ 0 then timHigh tim
  else timLow tim

/-- What follows the length byte: DTIM count, DTIM period, bitmap control and the octets of
the partial virtual bitmap. -/
def timBody (tim : BitVec 16) : List UInt8 :=
  [0, 1, if tim &&& 1#16 ≠ 0 then 1 else 0]
    ++ if timIelen tim = 4 then [timPvb tim] else [timLow tim, timHigh tim]

/-- The element `update_BCNTIM` writes. -/
def timElement (tim : BitVec 16) : List UInt8 :=
  timIe :: UInt8.ofNat (timIelen tim) :: timBody tim

/-- `head_len`: behind the SSID, the rates and three bytes of DS Parameter Set. -/
def timHeadLen (b : BssidEx) : Nat :=
  let ielen (r : Option (Nat × Nat)) : Nat := match r with
    | some (_, len) => len + 2
    | none => 0
  fixedIeLength + ielen (b.getIe ssidIe) + ielen (b.getIe supportedratesIe) + 3

/-- Where the element goes, and how many bytes of an old one it replaces. -/
def timPlace (b : BssidEx) : Nat × Nat :=
  match b.getIe timIe with
  | some (p, len + 1) => (p, len + 1 + 2)
  | _ => (timHeadLen b, 0)

/-- `update_BCNTIM`. `malloc` says whether `rtw_malloc` has the memory in which the
remainder is kept while the element in front of it changes its size. -/
def updateBCNTIM (malloc : Bool) (tim : BitVec 16) (b : BssidEx) : Outcome BssidEx :=
  let (dst, old) := timPlace b
  let remainder := sub32 b.ieLength (dst + old)
  let tail := dst + (timElement tim).length
  if maxIeSz < tail then .overrun
  else
    let ies := b.ies.write dst (timElement tim)
    let ieLength := (tail + remainder) % 2 ^ 32
    if 0 < remainder ∧ malloc then
      if maxIeSz < tail + remainder then .overrun
      else .done ⟨ies.write tail (b.ies.read (dst + old) remainder), ieLength⟩
    else .done ⟨ies, ieLength⟩

end Rtl8812au
