import Rtl8812au.Lib.Reach
import Rtl8812au.Wifi

/-!
# MAC IDs

The firmware knows a station by its `mac_id`. `core/rtw_wlan_util.c` gives the ids out of
bitmaps that all interfaces of a device share: `used`, `bmc`, one `if_g` for each interface and
one `ch_g` for each channel. A bitmap has one 32-bit word for each 32 ids that
`MACID_NUM_SW_LIMIT` allows; the driver is built with 32, and the code is there for up to 128.
-/

namespace Rtl8812au

/-- An `iface_id`, below `IFACE_ID_MAX`. -/
abbrev IfaceId := Fin 4

/-- `struct macid_bmp`. -/
structure MacidBmp where
  m0 : BitVec 32 := 0
  m1 : BitVec 32 := 0
  m2 : BitVec 32 := 0
  m3 : BitVec 32 := 0
  deriving DecidableEq

/-- `BIT(i)`. -/
def macidBit (i : Nat) : BitVec 32 := BitVec.twoPow 32 i

/-- `macid_num` of the chip, `MACID_NUM_8812A` and `MACID_NUM_8821A`. -/
def halMacidNum : Nat := 128

/-- `struct macid_ctl_t`. -/
structure MacidCtl where
  num : Nat
  used : MacidBmp := {}
  bmc : MacidBmp := {}
  ifG : IfaceId → MacidBmp := fun _ => {}
  chG : Fin 2 → MacidBmp := fun _ => {}

section

-- the build: one word more than this
variable (words : Fin 4)

/-- `MACID_NUM_SW_LIMIT`. -/
def macidNumSwLimit : Nat := 32 * (words + 1)

/-- `rtw_macid_is_set`. An id without a word is warned about. -/
def rtwMacidIsSet (map : MacidBmp) (id : Nat) : Bool :=
  if id < 32 then map.m0 &&& macidBit id != 0
  else if 32 < macidNumSwLimit words ∧ id < 64 then map.m1 &&& macidBit (id - 32) != 0
  else if 64 < macidNumSwLimit words ∧ id < 96 then map.m2 &&& macidBit (id - 64) != 0
  else if 96 < macidNumSwLimit words ∧ id < 128 then map.m3 &&& macidBit (id - 96) != 0
  else false

/-- The word that has the bit of `id` is changed with that bit. -/
def macidMapUpd (u : BitVec 32 → BitVec 32 → BitVec 32) (map : MacidBmp) (id : Nat) : MacidBmp :=
  if id < 32 then { map with m0 := u map.m0 (macidBit id) }
  else if 32 < macidNumSwLimit words ∧ id < 64 then
    { map with m1 := u map.m1 (macidBit (id - 32)) }
  else if 64 < macidNumSwLimit words ∧ id < 96 then
    { map with m2 := u map.m2 (macidBit (id - 64)) }
  else if 96 < macidNumSwLimit words ∧ id < 128 then
    { map with m3 := u map.m3 (macidBit (id - 96)) }
  else map

/-- `rtw_macid_map_set`. -/
def rtwMacidMapSet : MacidBmp → Nat → MacidBmp := macidMapUpd words fun m b => m ||| b

/-- `rtw_macid_map_clr`. -/
def rtwMacidMapClr : MacidBmp → Nat → MacidBmp := macidMapUpd words fun m b => m &&& ~~~b

/-- `rtw_macid_is_used`. -/
def rtwMacidIsUsed (ctl : MacidCtl) (id : Nat) : Bool := rtwMacidIsSet words ctl.used id

/-- `rtw_macid_ctl_init` on the zeroed `dvobj`, and `num` as `rtw_hal_def_value_init` sets it. -/
def rtwMacidCtlInit : MacidCtl where
  num := min halMacidNum (macidNumSwLimit words)

/-- The search of `rtw_alloc_macid`: the first unused id, and never 1. -/
def macidSearch (ctl : MacidCtl) : Option Nat :=
  (List.range ctl.num).find? fun i => i != 1 && !rtwMacidIsUsed words ctl i

section

-- the interface, and `myid(&padapter->eeprompriv)`
variable (iface : IfaceId) (myid : MacAddr)

/-- `rtw_alloc_macid`: the maps, and the station's `mac_id`. `num` stands for none. -/
def rtwAllocMacid (ctl : MacidCtl) (hwaddr : MacAddr) : MacidCtl × Nat :=
  if hwaddr = myid then (ctl, ctl.num)
  else if hwaddr = .bcast then
    -- the loop over the interfaces marks this one `IFACE_ID_MAX` times
    ({ ctl with
        used := rtwMacidMapSet words ctl.used 1
        bmc := rtwMacidMapSet words ctl.bmc 1
        ifG := fun i => if i = iface then rtwMacidMapSet words (ctl.ifG i) 1 else ctl.ifG i }, 1)
  else
    match macidSearch words ctl with
    | none => (ctl, ctl.num)
    | some i =>
      ({ ctl with
          used := rtwMacidMapSet words ctl.used i
          bmc := if hwaddr = .bcast then rtwMacidMapSet words ctl.bmc i else ctl.bmc
          ifG := fun k => if k = iface then rtwMacidMapSet words (ctl.ifG k) i else ctl.ifG k }, i)

/-- `rtw_release_macid`. The shared id of the broadcast stations is not given back. -/
def rtwReleaseMacid (ctl : MacidCtl) (hwaddr : MacAddr) (macId : Nat) : MacidCtl × Nat :=
  if hwaddr = myid then (ctl, macId)
  else if hwaddr = .bcast then (ctl, macId)
  else if macId = 1 then (ctl, macId)
  else
    (if macId < ctl.num then
        { ctl with
          used := rtwMacidMapClr words ctl.used macId
          bmc := rtwMacidMapClr words ctl.bmc macId
          ifG := fun i => rtwMacidMapClr words (ctl.ifG i) macId
          chG := fun i => rtwMacidMapClr words (ctl.chG i) macId }
      else ctl, ctl.num)

end

/-! ## Stations -/

/-- What `rtw_alloc_macid` and `rtw_release_macid` see of a `struct sta_info`, and the interface
it belongs to. `key` tells the structures apart. -/
structure MacidSta where
  key : Nat
  iface : IfaceId
  hwaddr : MacAddr
  macId : Nat
  deriving DecidableEq

/-- The maps and the stations that have been given an id and not yet released. `shared` records
that a broadcast station has been given its id. -/
structure MacidWorld where
  ctl : MacidCtl
  live : List MacidSta := []
  shared : Bool := false

/-- A new station is given an id, or a live one gives it back. -/
inductive MacidEvent where
  | alloc (key : Nat) (iface : IfaceId) (hwaddr : MacAddr)
  | release (key : Nat)

variable (myid : IfaceId → MacAddr)

/-- One event. Only a structure that is not live is new. -/
def macidStep (s : MacidWorld) : MacidEvent → Outcome MacidWorld
  | .alloc key iface hwaddr =>
    if s.live.any (·.key == key) then .done s
    else
      let r := rtwAllocMacid words iface (myid iface) s.ctl hwaddr
      .done
        { ctl := r.1
          live := ⟨key, iface, hwaddr, r.2⟩ :: s.live
          shared := s.shared || (hwaddr == .bcast && hwaddr != myid iface) }
  | .release key =>
    match s.live.find? (·.key == key) with
    | none => .done s
    | some x =>
      .done
        { s with
          ctl := (rtwReleaseMacid words (myid x.iface) s.ctl x.hwaddr x.macId).1
          live := s.live.filter (·.key != key) }

end

end Rtl8812au
