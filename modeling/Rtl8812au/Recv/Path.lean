import Rtl8812au.Recv.Validate

/-!
# The receive path

From `rtw_recv_entry` to the network stack: `recv_func` with `recv_func_prehandle` and
`recv_func_posthandle`, port control, indication in and out of the reorder buffer, and
the MP and monitor paths. Each function owns the frame it is given: it returns it, puts
it in a queue, or frees it.
-/

namespace Rtl8812au

/-- Which skbs the kernel has for the frame `id`: for its `k`-th subframe, and for the
clone of its `k`-th packet. -/
structure Os where
  msduPkt : Nat → Nat → Bool := fun _ _ => true
  clone : Nat → Nat → Bool := fun _ _ => true

/-! ## Indication -/

section

variable (a : Adapter) (dst : MacAddr)

/-- An access point sends the packet on to another station. -/
def relays : Bool :=
  a.mlme.apState && a.myid != dst
    && (if dst.isMcast then rtwGetBcmcStainfo a else rtwGetStainfo a dst).isSome

/-- The packet goes to the network stack, as one that is not sent on or as a clone. -/
def goesUp (cloneOk : Bool) : Bool := !relays a dst || (dst.isMcast && cloneOk)

/-- `rtw_os_recv_indicate_pkt`. -/
def rtwOsRecvIndicatePkt (cloneOk : Bool) (pkt : Pkt) : Adapter :=
  { a with
    forwarded := if relays a dst then a.forwarded ++ [pkt] else a.forwarded
    indicated := if goesUp a dst cloneOk then a.indicated ++ [pkt] else a.indicated }

end

section

variable (os : Os) (a : Adapter) (f : RecvFrame)

/-- `rtw_recv_indicatepkt`: the frame goes back to the pool with or without its skb. -/
def rtwRecvIndicatepkt : Adapter :=
  let a := if f.pkt then rtwOsRecvIndicatePkt a f.attrib.dst (os.clone f.id 0) f.bytes else a
  rtwFreeRecvframe a f

/-- The last loop of `amsdu_to_msdu`, from the `k`-th packet on. -/
def indicateSubframes (k : Nat) : List Pkt → Adapter → Adapter
  | [], a => a
  | p :: ps, a =>
    indicateSubframes (k + 1) ps (rtwOsRecvIndicatePkt a f.attrib.dst (os.clone f.id k) p)

/-- `amsdu_to_msdu`. It always returns `_SUCCESS`. -/
def amsduToMsdu : Adapter :=
  rtwFreeRecvframe (indicateSubframes os f 0 (amsduSubframes (os.msduPkt f.id) f) a) f

/-- How a frame is indicated that leaves the reorder buffer. A frame that is no A-MSDU
is dropped, and stays lost, where the code finds the driver stopped. -/
def indicateFrame (running : Bool) : Adapter :=
  if f.attrib.amsdu then amsduToMsdu os a f
  else if running then rtwRecvIndicatepkt os a f
  else a

/-- `process_recv_indicatepkts`. -/
def processRecvIndicatepkts : Outcome (Adapter × RxRet) :=
  if a.mlme.htOption then
    match f.preorderCtrl with
    | none => .overrun
    | some (s, tid) =>
      let c := (a.sta s).recvreorderCtrl tid
      let r := recvIndicatepktReorder a.running a.mlme.mpState c f
      -- without reordering the frame goes up unasked
      let up := a.running || !c.enable
      let a' := r.indicated.foldl (fun b g => indicateFrame os b g up) (a.updReorder s tid r.ctrl)
      .done (a', if !r.ret && a.running then .fail else .success)
  else
    let (f, ok) := wlanhdrToEthhdr a.mlme.mpState f
    if !ok then .done (a, .fail)
    else if a.running then .done (rtwRecvIndicatepkt os a f, .success)
    else .done (a, .fail)

/-- `rtw_reordering_ctrl_timeout_handler` for one station and TID. -/
def reorderTimeout (s : StaSlot) (tid : Tid) : Adapter :=
  let r := rtwReorderingCtrlTimeoutHandler a.running ((a.sta s).recvreorderCtrl tid)
  r.2.foldl (fun b g => indicateFrame os b g a.running) (a.updReorder s tid r.1)

end

/-! ## Port control -/

def eapolType : Nat := 0x888e
def llcHeaderSize : Nat := 6

/-- The transmitter is a station whose 802.1X port is closed. -/
def portBlocked (a : Adapter) (f : RecvFrame) : Bool :=
  match rtwGetStainfo a f.attrib.ta with
  | some s => a.sec.dot11AuthAlgrthm = .ieee8021x && (a.sta s).ieee8021xBlocked
  | none => false

/-- `portctrl`: of a blocked station only what looks like EAPOL behind a SNAP header. -/
def portctrl (a : Adapter) (f : RecvFrame) : Adapter × Option RecvFrame :=
  if portBlocked a f && f.buf.be16 (payloadAt f + llcHeaderSize) != eapolType then
    (rtwFreeRecvframe a f, none)
  else (a, some f)

/-! ## Behind validation -/

section

variable (os : Os) (aes : AesKey → BlockMode.Block → BlockMode.Block)

/-- `recv_func_posthandle` up to and including port control: the frame that is to be
indicated, if there is one, or the result. -/
def posthandleFrame (a : Adapter) (f : RecvFrame) : Outcome (Adapter × (RecvFrame ⊕ RxRet)) := do
  let stainfo := (rtwGetStainfo a f.attrib.ta).map a.sta
  let d ← decryptor aes a.sec stainfo a.message f
  let a := { a with sec := d.sec, message := d.message }
  match d.frame with
  | none => return (rtwFreeRecvframeQueue a d.freed.toList, .inr .fail)
  | some f =>
    let (a, prframe) ← recvframeChkDefrag a f
    match prframe with
    | none => return (a, .inr .success)
    | some f =>
      match portctrl a f with
      | (a, none) => return (a, .inr .fail)
      | (a, some f) => return (a, .inl f)

/-- `recv_func_posthandle`. What it frees at the end is the frame it was called with,
`orig_prframe`, also when that was the last of several fragments. -/
def recvFuncPosthandle (a : Adapter) (f : RecvFrame) : Outcome (Adapter × RxRet) := do
  match ← posthandleFrame aes a f with
  | (a, .inr ret) => return (a, ret)
  | (a, .inl prframe) =>
    let (a, ret) ← processRecvIndicatepkts os a prframe
    if ret = .success then return (a, ret) else return (rtwFreeRecvframe a f, ret)

/-! ## MP and monitor mode -/

/-- `MPwlanhdr_to_ethhdr`. The result of `recvframe_pull` is written through unchecked. -/
def mpWlanhdrToEthhdr (bRTWSmbCfg : Bool) (f : RecvFrame) : Outcome RecvFrame :=
  let ptr := f.rxData
  let f := if f.attrib.encrypt != .noPrivacy then (f.pullTail f.attrib.icvLen).1 else f
  let hdr := f.attrib.hdrlen + f.attrib.ivLen
  let bsnaphdr := snapRemoved f.buf (ptr + hdr)
  let rmvLen := hdr + if bsnaphdr then snapSize else 0
  let f := { f with attrib := { f.attrib with ethType := f.buf.be16 (ptr + rmvLen) } }
  match f.pull ((rmvLen : Int) - ethHlen + if bsnaphdr then 2 else 0) with
  | (_, false) => .overrun
  | (f, true) =>
    let buf := (f.buf.write f.rxData f.attrib.dst.bytes).write (f.rxData + 6) f.attrib.src.bytes
    -- the sequence number takes the place of a length field
    let buf := buf.write (f.rxData + 12) (htons f.attrib.seqNum)
    let mcast := f.attrib.bssid.b0 = 0x01 ∧ f.attrib.bssid.b1 = 0x00 ∧ f.attrib.bssid.b2 = 0x5e
    let buf := if bRTWSmbCfg ∧ mcast then buf.write f.rxData f.attrib.bssid.bytes else buf
    .done { f with buf := buf }

/-- `mp_recv_frame`. After `rtw_recv_indicatepkt` it goes on to the `rtw_free_recvframe`
at its end. -/
def mpRecvFrame (a : Adapter) (f : RecvFrame) : Outcome Adapter :=
  if a.mlme.fwLinked && a.rxBindicatePkt
      && Wifi.getFrameType f.buf f.rxData = .data then do
    let f ← mpWlanhdrToEthhdr a.bRTWSmbCfg (dsDataFrame a (readHeader f)).2.1
    if a.running then return rtwFreeRecvframe (rtwRecvIndicatepkt os a f) f
    else return rtwFreeRecvframe a f
  else .done (rtwFreeRecvframe a f)

/-- `recv_frame_monitor`. Whether there is room for the radiotap header, and whether the
driver runs, decides what the network stack sees; the frame is freed either way. -/
def recvFrameMonitor (a : Adapter) (f : RecvFrame) : Outcome Adapter :=
  if f.pkt then .done (rtwFreeRecvframe a f) else .overrun

/-! ## The entry -/

/-- `recv_func_prehandle`. -/
def recvFuncPrehandle (a : Adapter) (f : RecvFrame) : Outcome (RxRet × Adapter × RecvFrame) :=
  if a.mpMode || a.bRTWSmbCfg then do
    let a ← mpRecvFrame os a f
    return (.fail, a, f)
  else do
    let (ret, a, f) ← validateRecvFrame a f
    if ret = .success then return (ret, a, f) else return (ret, rtwFreeRecvframe a f, f)

/-- The loop over `uc_swdec_pending_queue` in `recv_func`, for at most `n` frames. -/
def drainUcSwdec : (n : Nat) → Adapter → Outcome Adapter
  | 0, a => .done a
  | n + 1, a =>
    match a.recvpriv.ucSwdecPendingQueue with
    | [] => .done a
    | f :: q => do
      let (a, _) ← recvFuncPosthandle os aes
        { a with recvpriv := { a.recvpriv with ucSwdecPendingQueue := q } } f
      drainUcSwdec n a

/-- `recv_func` deals with the frames that waited once their key is there. -/
def handleUcSwdec (a : Adapter) : Outcome Adapter :=
  if a.mlme.stationState && a.sec.busetkipkey then
    drainUcSwdec os aes a.recvpriv.ucSwdecPendingQueue.length a
  else .done a

/-- A unicast frame that waits for its key. -/
def waitsForKey (a : Adapter) (f : RecvFrame) : Bool :=
  a.mlme.stationState && !f.attrib.ra.isMcast && swDecrypts a.sec f && a.sec.wpapsk
    && !a.sec.busetkipkey

/-- `rtw_enqueue_recvframe` into `uc_swdec_pending_queue`. -/
def enqueueUcSwdec (a : Adapter) (f : RecvFrame) : Adapter :=
  let a := a.unlink f.id
  { a with recvpriv := { a.recvpriv with
      ucSwdecPendingQueue := a.recvpriv.ucSwdecPendingQueue ++ [f] } }

/-- `recv_func`. -/
def recvFunc (a : Adapter) (f : RecvFrame) : Outcome (Adapter × RxRet) :=
  if a.mlme.monitorState then do
    let a ← recvFrameMonitor a f
    return (a, .success)
  else do
    let a ← handleUcSwdec os aes a
    let (ret, a, f) ← recvFuncPrehandle os a f
    if ret ≠ .success then return (a, ret)
    else if waitsForKey a f then
      let a := enqueueUcSwdec a f
      -- the oldest one goes when frames get short
      match a.recvpriv.ucSwdecPendingQueue with
      | g :: q =>
        if a.recvpriv.freeRecvframeCnt < nrRecvframe / 4 then
          recvFuncPosthandle os aes
            { a with recvpriv := { a.recvpriv with ucSwdecPendingQueue := q } } g
        else return (a, ret)
      | [] => return (a, ret)
    else recvFuncPosthandle os aes a f

/-- `rtw_recv_entry`. -/
def rtwRecvEntry (a : Adapter) (f : RecvFrame) : Outcome (Adapter × RxRet) := recvFunc os aes a f

/-- What `recvbuf2recvframe` finds in a URB: the descriptor, whether the packet is all
there, where its bytes are, the skb it gets, and whether it is a packet from the air. -/
structure RxPacket where
  attrib : RxPktAttrib
  complete : Bool := true
  skb : Option Nat := none
  cloneOk : Bool := true
  urb : Mem := fun _ => 0
  pdata : Nat := 0
  normalRx : Bool := true

/-- One turn of `recvbuf2recvframe`. -/
def recvbuf2recvframe (a : Adapter) (x : RxPacket) : Outcome Adapter :=
  match rtwAllocRecvframe a with
  | none => .done a
  | some (id, a) =>
    let f : RecvFrame := { id := id, attrib := x.attrib, pkt := false }
    if !a.mpMode && (x.attrib.crcErr || x.attrib.icvErr) then .done (rtwFreeRecvframe a f)
    else if x.attrib.pktLen = 0 || !x.complete then .done (rtwFreeRecvframe a f)
    else
      match rtwOsAllocRecvframe x.skb x.cloneOk x.urb x.pdata f with
      | (f, false) => .done (rtwFreeRecvframe a f)
      | (f, true) =>
        let f := (f.put x.attrib.pktLen).1
        if x.normalRx then do
          let (a, _) ← rtwRecvEntry os aes a f
          return a
        else .done (rtwFreeRecvframe a f)

end

end Rtl8812au
