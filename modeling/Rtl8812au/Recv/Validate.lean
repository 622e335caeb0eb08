import Rtl8812au.Recv.Decrypt
import Rtl8812au.Recv.Defrag
import Rtl8812au.Security.Michael

/-!
# Which frames come in

`recvframe_chkmic` and `recvframe_chk_defrag`, which a management frame goes through
while it is validated and a data frame after it was decrypted, and `validate_recv_frame`
with the functions it calls for each direction of a data frame.

What these functions only send or count is left out: deauthentication frames, power-save
bookkeeping, statistics, MIC failure reports, and the work of `mgt_dispatcher`.
-/

namespace Rtl8812au

/-- `_FAIL`, `_SUCCESS` and `RTW_RX_HANDLED`. -/
inductive RxRet where
  | fail | success | handled
  deriving Repr, DecidableEq

/-! ## The TKIP MIC and reassembly -/

/-- `datalen` of `recvframe_chkmic`, before it is stored in a `u32`. -/
def micDatalen (f : RecvFrame) : Int :=
  (f.len : Int) - f.attrib.hdrlen - f.attrib.ivLen - f.attrib.icvLen - 8

/-- `mickey`. -/
def rxMicKey (sec : SecurityPriv) (psta : StaInfo) (f : RecvFrame) : Keytype :=
  if f.attrib.ra.isMcast then sec.dot118021XGrprxmickey f.attrib.keyIndex
  else psta.dot11tkiprxmickey

/-- `recvframe_chkmic`. The MIC is cut off also when it is wrong, and when there is no
station to check it with. -/
def recvframeChkmic (a : Adapter) (f : RecvFrame) : Outcome (RecvFrame × Bool) :=
  if f.attrib.encrypt ≠ .tkip then .done (f, true)
  else
    match rtwGetStainfo a f.attrib.ta with
    | none => .done ((f.pullTail 8).1, true)
    | some s =>
      if f.attrib.ra.isMcast && !a.sec.binstallGrpkey then .done (f, false)
      else if micDatalen f < 0 then .overrun
      else
        let n := (micDatalen f).toNat
        let miccode := rtwSeccalctkipmic (rxMicKey a.sec (a.sta s) f).skey f.buf f.rxData
          (payloadAt f) n (UInt8.ofNat f.attrib.priority)
        .done ((f.pullTail 8).1, f.buf.read (payloadAt f + n) 8 == miccode)

/-- The end of `recvframe_chk_defrag`, with the frame it goes on with. -/
def chkDefragMic (a : Adapter) (prtnframe : Option RecvFrame) :
    Outcome (Adapter × Option RecvFrame) :=
  match prtnframe with
  | none => .done (a, none)
  | some f =>
    if !f.attrib.privacy then .done (a, some f)
    else do
      let (f, ok) ← recvframeChkmic a f
      if ok then return (a, some f) else return (rtwFreeRecvframe a f, none)

/-- `recvframe_chk_defrag` with the `defrag_q` of the station in slot `s`, or none. A
reassembly that copies past the first fragment's buffer has overrun it. -/
def chkDefragIn (a : Adapter) (slot : Option StaSlot) (f : RecvFrame) :
    Outcome (Adapter × Option RecvFrame) :=
  let r := chkDefragQueue (slot.map fun s => (a.sta s).defragQ) f
  if r.steps.all fun s => s.InBounds then
    let a :=
      match slot, r.queue with
      | some s, some q => a.updSta s fun x => { x with defragQ := q }
      | _, _ => a
    chkDefragMic (rtwFreeRecvframeQueue a r.freed) r.frame
  else .overrun

/-- `recvframe_chk_defrag`. Frames other than data use the queue of the broadcast
station when their transmitter has none. -/
def recvframeChkDefrag (a : Adapter) (f : RecvFrame) : Outcome (Adapter × Option RecvFrame) :=
  match rtwGetStainfo a f.attrib.ta with
  | some s => chkDefragIn a (some s) f
  | none =>
    if Wifi.getFrameType f.buf f.rxData = .data then chkDefragIn a none f
    else
      match rtwGetBcmcStainfo a with
      | some s => chkDefragIn a (some s) f
      | none =>
        -- a queue inside `NULL` is only touched for a fragment
        if !f.attrib.mfrag && f.attrib.fragNum == 0 then chkDefragIn a none f else .overrun

/-! ## Addresses -/

section

variable (a : Adapter) (f : RecvFrame)

/-- The BSSID of the frame is not the one this station belongs to. -/
def bssidRefused : Bool :=
  f.attrib.bssid = .zero || a.mlme.bssid = .zero || f.attrib.bssid ≠ a.mlme.bssid

/-- The addresses as `WIFI_MP_STATE` reads them. -/
def mpAddrs : RecvFrame :=
  let a1 := Wifi.getAddr1 f.buf f.rxData
  let a2 := Wifi.getAddr2 f.buf f.rxData
  { f with attrib := { f.attrib with
      dst := a1, src := a2, bssid := Wifi.getAddr3 f.buf f.rxData, ra := a1, ta := a2 } }

/-- The end of `sta2sta_data_frame`. -/
def sta2staStation (ret : RxRet) (bmcast : Bool) (f : RecvFrame) (staAddr : Option MacAddr) :
    RxRet × RecvFrame × Option StaSlot :=
  match if bmcast then rtwGetBcmcStainfo a else staAddr.bind (rtwGetStainfo a) with
  | none => (.fail, f, none)
  | some s => (ret, f, some s)

/-- `sta2sta_data_frame`: the result, the frame, and `*psta`. -/
def sta2staDataFrame : RxRet × RecvFrame × Option StaSlot :=
  let bmcast := f.attrib.dst.isMcast
  if a.mlme.adhocState || a.mlme.adhocMasterState then
    if a.myid = f.attrib.src then (.fail, f, none)
    else if a.myid ≠ f.attrib.dst ∧ !bmcast then (.fail, f, none)
    else if bssidRefused a f then (.fail, f, none)
    else sta2staStation a .success bmcast f (some f.attrib.src)
  else if a.mlme.stationState then
    if f.attrib.bssid ≠ f.attrib.src then (.fail, f, none)
    else sta2staStation a .success bmcast f (some f.attrib.bssid)
  else if a.mlme.apState then
    if bmcast then
      if !f.attrib.bssid.isMcast then (.fail, f, none)
      else sta2staStation a .success bmcast f none
    else if f.attrib.bssid ≠ f.attrib.dst then (.fail, f, none)
    else sta2staStation a .success bmcast f (some f.attrib.src)
  else if a.mlme.mpState then
    sta2staStation a .success bmcast (mpAddrs f) (some a.mlme.bssid)
  else sta2staStation a .fail bmcast f none

/-- `GetFrameSubType(ptr) & BIT(6)`: a frame without data. -/
def isNullData : Bool := (Wifi.getFrameSubType f.buf f.rxData).testBit 6

/-- The branch for `WIFI_MP_STATE` in `ap2sta_data_frame` and `sta2ap_data_frame`. -/
def mpDataFrame : RxRet × RecvFrame × Option StaSlot :=
  let f := mpAddrs f
  let f := if a.bRTWSmbCfg then f
    else { f with attrib := { f.attrib with bssid := a.mlme.bssid } }
  match rtwGetStainfo a f.attrib.bssid with
  | none => (.fail, f, none)
  | some s => (.success, f, some s)

/-- `ap2sta_data_frame`. -/
def ap2staDataFrame : RxRet × RecvFrame × Option StaSlot :=
  let bmcast := f.attrib.dst.isMcast
  if a.mlme.stationState && (a.mlme.fwLinked || a.mlme.underLinking) then
    if a.myid = f.attrib.src then (.fail, f, none)
    else if a.myid ≠ f.attrib.dst ∧ !bmcast then (.fail, f, none)
    else if bssidRefused a f then (.fail, f, none)
    else
      match if bmcast then rtwGetBcmcStainfo a else rtwGetStainfo a f.attrib.bssid with
      | none => (.fail, f, none)
      | some s => (if isNullData f then .handled else .success, f, some s)
  else if a.mlme.mpState && a.mlme.fwLinked then mpDataFrame a f
  else if a.mlme.apState then (.handled, f, none)
  else (.fail, f, none)

/-- `sta2ap_data_frame`. -/
def sta2apDataFrame : RxRet × RecvFrame × Option StaSlot :=
  if a.mlme.apState then
    if f.attrib.bssid ≠ a.mlme.bssid then (.fail, f, none)
    else
      match rtwGetStainfo a f.attrib.src with
      | none => (.handled, f, none)
      | some s => (if isNullData f then .handled else .success, f, some s)
  else if a.mlme.mpState && a.mlme.fwLinked then mpDataFrame a f
  else (.handled, f, none)

/-- The `switch` over `to_fr_ds`, with the addresses it fills in. -/
def dsDataFrame : RxRet × RecvFrame × Option StaSlot :=
  let da := Wifi.getDa f.buf f.rxData
  let sa := Wifi.getSa f.buf f.rxData
  let bssid := Wifi.getHdrBssid f.buf f.rxData
  let attrib := { f.attrib with dst := da, src := sa, bssid := bssid }
  match f.attrib.toFrDs with
  | 0 => sta2staDataFrame a { f with attrib := { attrib with ra := da, ta := sa } }
  | 1 => ap2staDataFrame a { f with attrib := { attrib with ra := da, ta := bssid } }
  | 2 => sta2apDataFrame a { f with attrib := { attrib with ra := bssid, ta := sa } }
  | _ => (.fail, { f with attrib := { attrib with
      ra := Wifi.getAddr1 f.buf f.rxData, ta := Wifi.getAddr2 f.buf f.rxData } }, none)

end

/-! ## Data frames -/

/-- `recv_decache`: whether the frame is new to the TID's cache, and the cache. -/
def recvDecache (tidRxseq : Nat → Nat) (a : RxPktAttrib) : Bool × (Nat → Nat) :=
  let seqCtrl := ((a.seqNum <<< 4) ||| (a.fragNum &&& 0xf)) % 2 ^ 16
  if 15 < a.priority then (false, tidRxseq)
  else if seqCtrl = tidRxseq a.priority then (false, tidRxseq)
  else (true, fun t => if t = a.priority then seqCtrl else tidRxseq t)

/-- The QoS control field and the length of the MAC header. -/
def parseQos (f : RecvFrame) : RecvFrame :=
  let qc := f.rxData + 24
  let a :=
    if f.attrib.qos then
      { f.attrib with
        priority := Wifi.getPriority f.buf qc, ackPolicy := Wifi.getAckpolicy f.buf qc
        amsdu := Wifi.getAMsdu f.buf qc, hdrlen := if f.attrib.toFrDs = 3 then 32 else 26 }
    else
      { f.attrib with
        priority := 0, ackPolicy := 0, amsdu := false
        hdrlen := if f.attrib.toFrDs = 3 then 30 else 24 }
  { f with attrib := if a.order then { a with hdrlen := a.hdrlen + 4 } else a }

/-- `GET_ENCRY_ALGO` and `SET_ICE_IV_LEN` for a received frame. -/
def setEncrypt (a : Adapter) (psta : StaInfo) (f : RecvFrame) : RecvFrame :=
  let c := if f.attrib.privacy then
      getEncryAlgo a.sec psta.dot118021XPrivacy f.attrib.ra.isMcast
    else .noPrivacy
  { f with attrib := { f.attrib with encrypt := c, ivLen := c.ivLen, icvLen := c.icvLen } }

/-- `validate_recv_data_frame`. -/
def validateRecvDataFrame (a : Adapter) (f : RecvFrame) : RxRet × Adapter × RecvFrame :=
  match dsDataFrame a f with
  | (.success, f, some s) =>
    let f := parseQos { f with psta := some s }
    let f := { f with preorderCtrl := some (s, Fin.ofNat 16 f.attrib.priority) }
    let (new, tidRxseq) := recvDecache (a.sta s).tidRxseq f.attrib
    if !new then (.fail, a, f)
    else
      let a := a.updSta s fun x => { x with tidRxseq := tidRxseq }
      (.success, a, setEncrypt a (a.sta s) f)
  | (.success, f, none) => (.fail, a, f)
  | (ret, f, _) => (ret, a, f)

/-! ## All frames -/

/-- `validate_recv_mgnt_frame`. The frame that comes out of `recvframe_chk_defrag` goes
to `mgt_dispatcher`; it stays with the caller. -/
def validateRecvMgntFrame (a : Adapter) (f : RecvFrame) : Outcome Adapter := do
  let (a, _) ← recvframeChkDefrag a f
  return a

/-- The header fields that `validate_recv_frame` reads. -/
def readHeader (f : RecvFrame) : RecvFrame :=
  let m := f.buf
  let p := f.rxData
  { f with attrib := { f.attrib with
      toFrDs := Wifi.getToFrDs m p, fragNum := Wifi.getFragNum m p
      seqNum := Wifi.getSequence m p, pwSave := Wifi.getPwrMgt m p, mfrag := Wifi.getMFrag m p
      mdata := Wifi.getMData m p, privacy := Wifi.getPrivacy m p, order := Wifi.getOrder m p } }

/-- `validate_recv_frame`: only a data frame can come back with `_SUCCESS`. -/
def validateRecvFrame (a : Adapter) (f : RecvFrame) : Outcome (RxRet × Adapter × RecvFrame) :=
  if f.buf.le16 f.rxData &&& 3 ≠ 0 then .done (.fail, a, f)
  else
    let f := readHeader f
    match Wifi.getFrameType f.buf f.rxData with
    | .mgt => do
      let a ← validateRecvMgntFrame a f
      return (.fail, a, f)
    | .ctrl => .done (.fail, a, f)
    | .data =>
      let qos := (Wifi.getFrameSubType f.buf f.rxData).testBit 7
      .done (validateRecvDataFrame a { f with attrib := { f.attrib with qos := qos } })
    | .reserved => .done (.fail, a, f)

end Rtl8812au
