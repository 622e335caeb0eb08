import Rtl8812au.P2p.Attr
import Rtl8812au.P2p.GoNego

/-!
# Negotiation frames as bytes

The negotiation handlers of `core/rtw_p2p.c` on whatever bytes arrive: any number of P2P elements, and in each
of them attributes with a 16-bit length.

Addresses count from the elements of the frame, behind its eight fixed bytes; what is read behind the
frame may be anything.
-/

namespace Rtl8812au.P2p

/-! ## Channels -/

/-- The loop of `rtw_p2p_get_peer_ch_list` in a buffer of 100 bytes: `ch_cnt` has eight bits. `none`
if it leaves that buffer or `peer_ch_list`, which has 100 bytes too. -/
def peerChLoop (buf : Mem) : Nat → Nat → Nat → List Nat → Option (List Nat)
  | 0, _, _, _ => none
  | fuel + 1, ptr, chCnt, chs =>
    if 0 < chCnt then
      let temp := (buf (ptr + 1)).toNat
      if ptr + 1 + temp < 100 ∧ chs.length + temp ≤ 100 then
        peerChLoop buf fuel (ptr + 1 + temp + 1) ((chCnt + 512 - 1 - (temp + 1)) % 256)
          (chs ++ (buf.read (ptr + 2) temp).map UInt8.toNat)
      else none
    else some chs

/-- `rtw_p2p_get_peer_ch_list`. -/
def rtwP2pGetPeerChList (buf : Mem) (chCnt : Nat) : Option (List Nat) :=
  peerChLoop buf 101 3 ((chCnt + 256 - 3) % 256) []

/-- A buffer with `bs` at its start. -/
def bufWith (buf : Mem) (bs : List UInt8) : Mem := buf.write 0 bs

/-! ## The handlers -/

/-- `P2P_STATUS_*` as a byte. -/
def P2pStatus.code : P2pStatus → UInt8
  | .success => 0x00
  | .failInfoUnavailable => 0x01
  | .failIncompatibleParam => 0x02
  | .failLimitReached => 0x03
  | .failInvalidParam => 0x04
  | .failRequestUnable => 0x05
  | .failPrevousProtoErr => 0x06
  | .failNoCommonCh => 0x07
  | .failUnknownP2pgroup => 0x08
  | .failBothGointent15 => 0x09
  | .failIncompatibleProvsion => 0x0a
  | .failUserReject => 0x0b

/-- A frame: what stands behind the fixed bytes, and how long that is. -/
structure NegoFrame where
  ies : Mem
  iesLen : Nat

/-- A device with `pwdinfo->channel_list_attr`, and whether `strconfig_method_desc_of_prov_disc_req` is
still "000". -/
structure NegoDev where
  wd : WdInfo
  chListAttr : Mem
  cmUnset : Bool

/-- Whether the loop over the P2P elements goes on, the status so far, and the device. -/
abbrev NegoTurn := Bool × UInt8 × NegoDev

section

variable (m : Mem) (ie : Nat × Nat)

/-- The common channels, and the channel of the group owner. -/
def channelTurn (buf : Mem) (bs : List UInt8) (result : UInt8) (d : NegoDev) : Copies NegoTurn := do
  let peer ← Copies.guarded (rtwP2pGetPeerChList buf bs.length)
  let common := rtwP2pChInclusion d.wd.channelSet peer
  if common = [] then
    pure (false, P2pStatus.failNoCommonCh.code, { d with wd := { d.wd with state := .gonegoFail } })
  else if d.wd.role = .go ∧ d.wd.operatingChannel ∉ common then
    let info ← rtwGetP2pAttrContent m ie .operatingCh 5
    let peerOpCh := ((info.getD []).getD 4 0).toNat
    pure (true, result, { d with wd := d.wd.chooseChannel peerOpCh common })
  else pure (true, result, d)

/-- The intent of the peer in a request. -/
def intentOfReq (result : UInt8) (w : WdInfo) : Option (List UInt8) → UInt8 × WdInfo
  | none => (result, w)
  | some bs =>
    let intent := (bs.headD 0).toNat
    let w := { w with peerIntent := intent }
    if w.intent = intent >>> 1 ∧ w.intent = maxIntent then
      (P2pStatus.failBothGointent15.code, { w with role := .device })
    else (result, { w with role := roleFrom w.intent intent })

/-- `process_p2p_group_negotation_req` on one P2P element. -/
def reqTurn (result : UInt8) (d : NegoDev) : Copies NegoTurn := do
  let d := { d with wd := { d.wd with state := .gonegoIng } }
  let _ ← rtwGetP2pAttrContent m ie .capability 2
  let intent ← rtwGetP2pAttrContent m ie .goIntent 1
  let _ ← rtwGetP2pAttrContent m ie .intentedIfAddr 6
  let chs ← rtwGetP2pAttrContent m ie .chList 100
  let r := intentOfReq result d.wd intent
  let d := { d with wd := r.2 }
  match chs with
  | none => pure (true, r.1, d)
  | some bs => channelTurn m ie (bufWith (fun _ => 0) bs) bs r.1 d

/-- The intent of the peer in a response. -/
def intentOfResp (result : UInt8) (w : WdInfo) : Option (List UInt8) → UInt8 × WdInfo
  | none => (result, w)
  | some bs =>
    let intent := (bs.headD 0).toNat
    let w := { w with peerIntent := intent }
    if w.intent = intent >>> 1 ∧ w.intent = maxIntent then
      (P2pStatus.failBothGointent15.code, { w with role := .device, state := .gonegoFail })
    else
      (result,
        { w with role := roleFrom w.intent intent, state := .gonegoOk, preState := .gonegoOk })

/-- A status other than success. -/
def failedStatus : Option (List UInt8) → Option UInt8
  | some [s] => if s = P2pStatus.success.code then none else some s
  | _ => none

/-- The SSID behind the address of a group id goes to `groupid_info.ssid`. -/
def copyGroupId : Copies Unit := do
  match ← rtwGetP2pAttrContent m ie .groupId 38 with
  | none => pure ()
  | some bs => Copies.copy 32 (contentLen 6 bs.length)

/-- `process_p2p_group_negotation_resp` on one P2P element. -/
def respTurn (result : UInt8) (d : NegoDev) : Copies NegoTurn := do
  let _ ← rtwGetP2pAttrContent m ie .capability 2
  let status ← rtwGetP2pAttrContent m ie .status 1
  match failedStatus status with
  | some s =>
    let state :=
      if s = P2pStatus.failInfoUnavailable.code then P2pState.rxInforNoready else .gonegoFail
    pure (false, s, { d with wd := { d.wd with state := state, role := .device } })
  | none =>
    let _ ← rtwGetP2pAttrContent m ie .intentedIfAddr 6
    let intent ← rtwGetP2pAttrContent m ie .goIntent 1
    let info ← rtwGetP2pAttrContent m ie .operatingCh 5
    let chs ← rtwGetP2pAttrContent m ie .chList 100
    let r := intentOfResp result d.wd intent
    let wd :=
      match info with
      | none => r.2
      | some bs => { r.2 with peerOperatingCh := (bs.getD 4 0).toNat }
    let d := { d with wd := wd }
    let turn ←
      match chs with
      | none => pure (true, r.1, d)
      | some bs =>
        let buf := bufWith d.chListAttr bs
        channelTurn m ie buf bs r.1 { d with chListAttr := buf }
    if turn.1 then copyGroupId m ie
    pure turn

/-- `process_p2p_group_negotation_confirm` on one P2P element. -/
def confTurn (result : UInt8) (d : NegoDev) : Copies NegoTurn := do
  let status ← rtwGetP2pAttrContent m ie .status 1
  match failedStatus status with
  | some s => pure (false, s, { d with wd := { d.wd with role := .device, state := .gonegoFail } })
  | none =>
    copyGroupId m ie
    let info ← rtwGetP2pAttrContent m ie .operatingCh 5
    -- a status of one byte is success here
    let r : UInt8 × WdInfo :=
      if (status.getD []).length = 1 then
        (P2pStatus.success.code,
          { d.wd with
            state := .gonegoOk, preState := .gonegoOk, role := roleFrom d.wd.intent d.wd.peerIntent })
      else (result, d.wd)
    let wd :=
      match info with
      | none => r.2
      | some bs => { r.2 with peerOperatingCh := (bs.getD 4 0).toNat }
    pure (true, r.1, { d with wd := wd })

end

/-- `while (p2p_ie)`. -/
def ieLoop (f : NegoFrame) (turn : Nat × Nat → UInt8 → NegoDev → Copies NegoTurn) :
    Nat → Option (Nat × Nat) → UInt8 → NegoDev → Copies (UInt8 × NegoDev)
  | 0, _, result, d => pure (result, d)
  | _ + 1, none, result, d => pure (result, d)
  | fuel + 1, some ie, result, d => do
    let r ← turn ie result d
    if r.1 then ieLoop f turn fuel (nextP2pIe f.ies f.iesLen ie) r.2.1 r.2.2 else pure r.2

/-- `process_p2p_group_negotation_req` on a frame. -/
def negotationReq (f : NegoFrame) (d : NegoDev) : Copies (UInt8 × NegoDev) :=
  match rtwGetWpsIe f.ies 0 f.iesLen with
  | none =>
    pure (P2pStatus.failIncompatibleParam.code, { d with wd := { d.wd with state := .gonegoFail } })
  | some wps => do
    -- the device password id goes into the two bytes of a `u16`, unless the config method is known
    if d.cmUnset then
      let _ ← attrContent f.ies 4 2 (rtwGetWpsAttr f.ies wps.1 wps.2 0x1012)
    let d := { d with cmUnset := false }
    if d.wd.gotWpsInfo = false then
      pure (P2pStatus.failInfoUnavailable.code, { d with wd := { d.wd with state := .txInforNoready } })
    else
      match rtwGetP2pIe f.ies 0 f.iesLen with
      | none =>
        pure (P2pStatus.failIncompatibleParam.code,
          { d with wd := { d.wd with state := .gonegoFail } })
      | some ie => ieLoop f (reqTurn f.ies) f.iesLen (some ie) P2pStatus.success.code d

/-- `process_p2p_group_negotation_resp` on a frame. -/
def negotationResp (f : NegoFrame) (d : NegoDev) : Copies (UInt8 × NegoDev) :=
  let r : UInt8 × NegoDev :=
    match rtwGetWpsIe f.ies 0 f.iesLen with
    | none =>
      (P2pStatus.failIncompatibleParam.code, { d with wd := { d.wd with state := .gonegoFail } })
    | some _ => (P2pStatus.success.code, d)
  match rtwGetP2pIe f.ies 0 f.iesLen with
  | none =>
    pure (P2pStatus.failIncompatibleParam.code,
      { r.2 with wd := { r.2.wd with role := .device, state := .gonegoFail } })
  | some ie => ieLoop f (respTurn f.ies) f.iesLen (some ie) r.1 r.2

/-- `process_p2p_group_negotation_confirm` on a frame. -/
def negotationConfirm (f : NegoFrame) (d : NegoDev) : Copies (UInt8 × NegoDev) :=
  ieLoop f (confTurn f.ies) f.iesLen (rtwGetP2pIe f.ies 0 f.iesLen) P2pStatus.success.code d

end Rtl8812au.P2p
