import Rtl8812au.Sta.Table

/-!
# The hardware key table

The key cache `cam_cache` and its bitmap `cam_ctl` of `core/rtw_wlan_util.c`, with
`DYNAMIC_CAMID_ALLOC`, and the two commands of `core/rtw_mlme_ext.c` that change them. What
`_write_cam` sends to the chip is what goes into the cache.
-/

namespace Rtl8812au

/-- `TOTAL_CAM_ENTRY`. -/
abbrev totalCamEntry : Nat := 32

/-- The number of an entry. -/
abbrev CamId := Fin totalCamEntry

/-- `struct cam_entry_cache`. -/
structure CamEntry where
  ctrl : BitVec 16
  mac : MacAddr
  key : Vector UInt8 16
  deriving Repr, DecidableEq

/-- An entry of zeroes. -/
def CamEntry.zero : CamEntry := ⟨0, .zero, .replicate 16 0⟩

namespace CamEntry

variable (e : CamEntry)

/-- Bit 15: the chip uses the key. -/
def valid : Bool := e.ctrl.getLsbD 15

/-- `BIT6`: a group key. -/
def grp : Bool := e.ctrl.getLsbD 6

/-- `ctrl & 0x03`. -/
def keyId : Nat := (e.ctrl &&& 3#16).toNat

end CamEntry

/-- `BIT(cam_id)` as an operand of the 64-bit map: an `int`, so bit 31 drags its sign along. -/
def camBit (i : CamId) : BitVec 64 := (1#32 <<< i.val).signExtend 64

/-- The cache with its bitmap, and the two fields of `mlmext_info` that the commands leave behind. -/
structure CamTable where
  bitmap : BitVec 64
  cache : CamId → CamEntry
  keyIndex : UInt8 := 0
  encAlgo : Cipher := .noPrivacy

/-- The table that no key has been put into. -/
def CamTable.empty : CamTable where
  bitmap := 0
  cache := fun _ => .zero

/-- `mlmext_info.state & 0x03`. -/
inductive FwMode where
  | noLink | adhoc | station | ap
  deriving Repr, DecidableEq

/-- What stays fixed: the mode and `get_bssid`. -/
structure CamAdapter where
  mode : FwMode
  bssid : MacAddr

namespace CamTable

variable (t : CamTable)

/-- `cam_ctl->bitmap & BIT(i)`. -/
def used (i : CamId) : Bool := t.bitmap &&& camBit i != 0

/-- `_rtw_camid_is_gk`. -/
def camidIsGk (i : CamId) : Bool := if t.used i then (t.cache i).grp else false

/-- `_rtw_camid_search`: the first entry with the address, and with the key id unless `kid` is
negative. The bitmap is not looked at. -/
def camidSearch (addr : MacAddr) (kid : Option Nat) : Option CamId :=
  (List.finRange totalCamEntry).find? fun i =>
    decide ((t.cache i).mac = addr) &&
      (match kid with
       | none => true
       | some k => decide ((t.cache i).keyId = k))

/-- The search for room: behind the default keys, and in the bitmap. -/
def freeCamid : Option CamId :=
  (List.finRange totalCamEntry).find? fun i => decide (4 ≤ i.val) && !t.used i

/-- The entry a key goes to: `rtw_camid_alloc` up to `bitmap_handle`. No station means a group key;
`assoc` is `WIFI_FW_ASSOC_SUCCESS`. -/
def camidFor (a : CamAdapter) (assoc : Bool) (sta : Option MacAddr) (kid : UInt8) : Option CamId :=
  if (a.mode = .ap ∨ a.mode = .adhoc) ∧ sta = none then
    if h : kid.toNat ≤ 3 then some ⟨kid.toNat, Nat.lt_of_le_of_lt h (by decide)⟩ else none
  else if sta = none ∧ assoc = false then
    none
  else
    match t.camidSearch (sta.getD a.bssid) (some kid.toNat) with
    | some i => if sta.isSome || t.camidIsGk i then some i else none
    | none => t.freeCamid

/-- `rtw_camid_alloc`. -/
def camidAlloc (a : CamAdapter) (assoc : Bool) (sta : Option MacAddr) (kid : UInt8) :
    CamTable × Option CamId :=
  match t.camidFor a assoc sta kid with
  | none => (t, none)
  | some i => ({ t with bitmap := t.bitmap ||| camBit i }, some i)

/-- `rtw_camid_free`. -/
def camidFree (i : CamId) : CamTable := { t with bitmap := t.bitmap &&& ~~~ camBit i }

/-- `write_cam_cache`. -/
def writeCam (i : CamId) (e : CamEntry) : CamTable :=
  { t with cache := fun j => if j = i then e else t.cache j }

/-- `clear_cam_entry`. -/
def clearCamEntry (i : CamId) : CamTable := t.writeCam i .zero

/-- The loop of a clear: `none` when it has not ended within the turns. -/
def clearLoop : Nat → CamTable → MacAddr → Option CamTable
  | 0, _, _ => none
  | n + 1, t, addr =>
    match t.camidSearch addr none with
    | none => some t
    | some i => clearLoop n ((t.clearCamEntry i).camidFree i) addr

end CamTable

/-- `struct setkey_parm`. -/
structure SetkeyParm where
  algorithm : Cipher
  keyid : UInt8
  setTx : Bool
  key : Vector UInt8 16

/-- `struct set_stakey_parm`. -/
structure SetStakeyParm where
  addr : MacAddr
  algorithm : Cipher
  keyid : UInt8
  key : Vector UInt8 16

/-- `BIT(15) | (algorithm << 2) | keyid`, with `BIT6` for a group key. -/
def camCtrl (grp : Bool) (algorithm : Cipher) (keyid : UInt8) : BitVec 16 :=
  0x8000#16 ||| (if grp then 0x40#16 else 0#16) ||| (BitVec.ofNat 16 algorithm.toNat <<< 2)
    ||| BitVec.ofNat 16 keyid.toNat

/-- What a command answers. -/
inductive H2cResult where
  | success | successRsp | rejected
  deriving Repr, DecidableEq

/-- `setkey_hdl`. -/
def setkeyHdl (a : CamAdapter) (assoc : Bool) (p : SetkeyParm) (t : CamTable) :
    H2cResult × CamTable :=
  let t := if p.setTx then { t with keyIndex := p.keyid } else t
  match t.camidAlloc a assoc none p.keyid with
  | (t, none) => (.success, t)
  | (t, some i) =>
    let addr := if i.val > 3 then a.bssid else .zero
    (.success, t.writeCam i ⟨camCtrl true p.algorithm p.keyid, addr, p.key⟩)

/-- `set_stakey_hdl`, with as many turns as the clear may take: `none` when it has not returned by
then. -/
def setStakeyHdl (a : CamAdapter) (stations : StaTable) (fuel : Nat) (p : SetStakeyParm)
    (t : CamTable) : Option (H2cResult × CamTable) :=
  if p.algorithm = .noPrivacy then
    (CamTable.clearLoop fuel t p.addr).map fun t => (.successRsp, t)
  else
    match stations.getStainfo p.addr with
    | none => some (.rejected, t)
    | some s =>
      let t := { t with encAlgo := p.algorithm }
      match t.camidAlloc a true (some (stations.hwaddr s)) 0 with
      | (t, none) => some (.success, t)
      | (t, some i) =>
        some (.successRsp, t.writeCam i ⟨camCtrl false p.algorithm p.keyid, p.addr, p.key⟩)

/-- The commands, each with what it finds at its time: whether the adapter is associated, and the
station table. -/
inductive CamCmd where
  | setkey (assoc : Bool) (p : SetkeyParm)
  | setStakey (stations : StaTable) (p : SetStakeyParm)

/-- One command of the command thread. A clear that takes more turns than there are entries takes
all there are: `clearLoop_hangs`. -/
def camStep (a : CamAdapter) (t : CamTable) : CamCmd → Option CamTable
  | .setkey assoc p => some (setkeyHdl a assoc p t).2
  | .setStakey stations p =>
    (setStakeyHdl a stations (totalCamEntry + 1) p t).map Prod.snd

/-- The table after a list of commands: `none` if one of them does not return. -/
def camRun (a : CamAdapter) : CamTable → List CamCmd → Option CamTable
  | t, [] => some t
  | t, c :: cs => (camStep a t c).bind fun t' => camRun a t' cs

end Rtl8812au
