import Rtl8812au.Wifi

/-!
# Operating mode notifications

`rtw_vht_mcsmap_to_nss`, `rtw_vht_nss_to_mcsmap` and `rtw_process_vht_op_mode_notify` of
`core/rtw_vht.c`, `update_sta_vht_info_apmode` as far as it fills `vht_mcs_map`, and
`OnAction_vht` of `core/rtw_mlme_ext.c` as far as it comes to them.
-/

namespace Rtl8812au

namespace Vht

/-- A `u8 vht_mcs_map[2]`: two bits for each of eight spatial streams, 3 for one that is not
supported. -/
@[ext] structure McsMap where
  b0 : UInt8
  b1 : UInt8
  deriving Repr, DecidableEq

/-- The two bits at bit `j` of a byte of the map. -/
def bitMap (b : UInt8) (j : UInt8) : UInt8 := (b >>> j) &&& 3

/-- The turns over one byte of the map in `rtw_vht_mcsmap_to_nss`. -/
def mcsByteNss (b : UInt8) : Nat :=
  if b != 0xff then [0, 2, 4, 6].countP fun j => bitMap b j != 3 else 0

/-- `rtw_vht_mcsmap_to_nss`. -/
def rtwVhtMcsmapToNss (m : McsMap) : Nat := mcsByteNss m.b0 + mcsByteNss m.b1

/-- The rate for stream `k`, which has the bits `cur_rate` now. -/
def targetRate (nss k : Nat) (curRate : UInt8) : UInt8 :=
  if curRate == 3 then 3 else if nss ≤ k then 3 else curRate

/-- The turns for byte `i` of the target map in `rtw_vht_nss_to_mcsmap`. -/
def targetByte (nss i : Nat) (cur : UInt8) : UInt8 :=
  [0, 2, 4, 6].foldl
    (fun t (j : Nat) => t ||| (targetRate nss (j / 2 + i * 4) (bitMap cur (UInt8.ofNat j))
      <<< UInt8.ofNat j)) 0

/-- `rtw_vht_nss_to_mcsmap`. -/
def rtwVhtNssToMcsmap (nss : Nat) (cur : McsMap) : McsMap :=
  ⟨targetByte nss 0 cur.b0, targetByte nss 1 cur.b1⟩

/-- What `struct sta_info` has of it. -/
structure VhtSta where
  vhtMcsMap : McsMap
  bwMode : UInt8 := 0
  deriving DecidableEq

/-- `vhtpriv.vht_option` and `registrypriv.bw_mode`. -/
structure VhtPriv where
  vhtOption : Bool := true
  bwMode : UInt8 := 0x21

/-- The station after the notification, and whether its rate mask goes to the hardware and the
rate adaption is woken. -/
structure OpModeResult where
  sta : VhtSta
  updateRateMask : Bool
  updateRa : Bool

/-- `GET_VHT_OPERATING_MODE_FIELD_CHNL_WIDTH`. -/
def chnlWidth (field : UInt8) : UInt8 := field &&& 3

/-- `target_rxss`: `GET_VHT_OPERATING_MODE_FIELD_RX_NSS` and one. -/
def targetRxss (field : UInt8) : Nat := ((field >>> 4) &&& 7).toNat + 1

/-- `rtw_process_vht_op_mode_notify`, for the operating mode field at `pframe`. -/
def rtwProcessVhtOpModeNotify (p : VhtPriv) (field : UInt8) (s : VhtSta) : OpModeResult :=
  if !p.vhtOption then ⟨s, false, false⟩
  else
    let newBw := chnlWidth field != s.bwMode && decide (chnlWidth field ≤ p.bwMode >>> 4)
    let s := if newBw then { s with bwMode := chnlWidth field } else s
    if targetRxss field ≠ rtwVhtMcsmapToNss s.vhtMcsMap then
      -- the map that the station came with is written over
      ⟨{ s with vhtMcsMap := rtwVhtNssToMcsmap (targetRxss field) s.vhtMcsMap }, true, true⟩
    else ⟨s, false, newBw⟩

/-- The end of `update_sta_vht_info_apmode`: the map is that of the VHT Capabilities element. -/
def updateStaVhtInfoApmode (s : VhtSta) (pcapMcs : McsMap) : VhtSta := { s with vhtMcsMap := pcapMcs }

/-- `OnAction_vht` for the stations that `rtw_get_stainfo` finds, with the frame at `p`. A
beamforming report leaves them as they are. -/
def onActionVht (p : VhtPriv) (myid : MacAddr) (m : Mem) (pframe : Nat)
    (lookup : MacAddr → Option Nat) (ta : MacAddr) (sta : Nat → VhtSta) : Nat → VhtSta :=
  if Wifi.getAddr1 m pframe ≠ myid then sta
  else if m (pframe + 24) ≠ 21 then sta
  else if m (pframe + 25) = 2 then
    match lookup ta with
    | none => sta
    | some i => fun k =>
      if k = i then (rtwProcessVhtOpModeNotify p (m (pframe + 26)) (sta i)).sta else sta k
  else sta

end Vht

end Rtl8812au
