import Rtl8812au.Recv.Reorder

/-!
# Driver state

The parts of `struct security_priv`, `struct mlme_priv`, `struct sta_info` and
`struct recv_priv` that the transmit and receive paths read, the adapter they hang on,
and what looks up stations and moves frames between queues: `core/rtw_sta_mgt.c` and
the pool functions of `core/rtw_recv.c`.

A frame is linked into at most one list. The model holds each list by value and knows
a frame by its `id`, so taking a frame off its list is taking its `id` off all of them.
-/

namespace Rtl8812au

/-- `union Keytype`, seen as `skey`. -/
abbrev Keytype := Fin 16 → UInt8

/-- The key bytes as the code passes them around, by address. -/
def Keytype.skey (k : Keytype) : Nat → UInt8 := fun i => if h : i < 16 then k ⟨i, h⟩ else 0

/-- A comparison with sixteen zero bytes. -/
def Keytype.isNull (k : Keytype) : Bool := (List.finRange 16).all fun i => k i == 0

/-- `dot11AuthAlgrthm`, in the order of its numbers. -/
inductive AuthAlgrthm where
  | open | shared | ieee8021x | auto | wapi
  deriving Repr, DecidableEq

/-- `struct security_priv`. Key arrays are indexed by the key id. -/
structure SecurityPriv where
  dot11AuthAlgrthm : AuthAlgrthm := .open
  dot11PrivacyAlgrthm : Cipher := .noPrivacy
  dot11PrivacyKeyIndex : Nat := 0
  dot11DefKey : Nat → Keytype := fun _ _ => 0
  dot11DefKeylen : Nat → Nat := fun _ => 0
  dot118021XGrpPrivacy : Cipher := .noPrivacy
  dot118021XGrpKeyid : Nat := 0
  dot118021XGrpKey : Nat → Keytype := fun _ _ => 0
  dot118021XGrptxmickey : Nat → Keytype := fun _ _ => 0
  dot118021XGrprxmickey : Nat → Keytype := fun _ _ => 0
  binstallGrpkey : Bool := false
  busetkipkey : Bool := false
  swEncrypt : Bool := false
  swDecrypt : Bool := false
  hwDecrypted : Bool := true
  /-- `ndisauthtype == Ndis802_11AuthModeWPAPSK`. -/
  wpapsk : Bool := false

/-- The bits of `fw_state` that are tested, `get_bssid`, `qospriv.qos_option` and
`htpriv.ht_option`. -/
structure MlmePriv where
  stationState : Bool := false
  apState : Bool := false
  adhocState : Bool := false
  adhocMasterState : Bool := false
  mpState : Bool := false
  monitorState : Bool := false
  fwLinked : Bool := false
  underLinking : Bool := false
  bssid : MacAddr := .zero
  qosOption : Bool := false
  htOption : Bool := false

/-- `struct sta_info`. `linked` is `state & _FW_LINKED`. -/
structure StaInfo where
  hwaddr : MacAddr := .zero
  linked : Bool := false
  ieee8021xBlocked : Bool := false
  dot118021XPrivacy : Cipher := .noPrivacy
  dot118021xUncstKey : Keytype := fun _ => 0
  dot11tkiptxmickey : Keytype := fun _ => 0
  dot11tkiprxmickey : Keytype := fun _ => 0
  /-- `dot11txpn.val`, a `u64`. -/
  dot11txpn : Nat := 0
  /-- `sta_xmitpriv.txseq_tid`. -/
  txseqTid : Nat → Nat := fun _ => 0
  /-- `sta_recvpriv.defrag_q`. -/
  defragQ : List RecvFrame := []
  /-- `sta_recvpriv.rxcache.tid_rxseq`. -/
  tidRxseq : Nat → Nat := fun _ => 0
  recvreorderCtrl : Tid → RecvReorderCtrl := fun _ => {}

/-- `GET_ENCRY_ALGO`. -/
def getEncryAlgo (sec : SecurityPriv) (staPrivacy : Cipher) (bmcst : Bool) : Cipher :=
  match sec.dot11AuthAlgrthm with
  | .open | .shared | .auto | .wapi => sec.dot11PrivacyAlgrthm
  | .ieee8021x => if bmcst then sec.dot118021XGrpPrivacy else staPrivacy

/-! ## The adapter -/

def nrRecvframe : Nat := 256

/-- `struct recv_priv`: the frames of the pool that are free, by their index, and the
frames that wait for the TKIP key. -/
structure RecvPriv where
  freeRecvQueue : List Nat := List.range nrRecvframe
  freeRecvframeCnt : Nat := nrRecvframe
  ucSwdecPendingQueue : List RecvFrame := []

/-- `struct _ADAPTER`. `staHash` lists the station slots in use. `message` is the static buffer of `aes_decipher`;
`indicated` and `forwarded` are the packets handed to the network stack and, by an access
point, sent on to another of its stations. -/
structure Adapter where
  mlme : MlmePriv := {}
  sec : SecurityPriv := {}
  /-- `myid(&adapter->eeprompriv)`. -/
  myid : MacAddr := .zero
  /-- `registrypriv.mp_mode`. -/
  mpMode : Bool := false
  /-- `mppriv.bRTWSmbCfg`. -/
  bRTWSmbCfg : Bool := false
  /-- `mppriv.rx_bindicatePkt`. -/
  rxBindicatePkt : Bool := false
  /-- `bDriverStopped` and `bSurpriseRemoved` are both `_FALSE`. -/
  running : Bool := true
  freeStaQueue : List StaSlot := List.finRange numSta
  staHash : List StaSlot := []
  sta : StaSlot → StaInfo := fun _ => {}
  recvpriv : RecvPriv := {}
  message : Mem := fun _ => 0
  indicated : List Pkt := []
  forwarded : List Pkt := []

namespace Adapter

/-- Change the station in slot `s`. -/
def updSta (a : Adapter) (s : StaSlot) (u : StaInfo → StaInfo) : Adapter :=
  { a with sta := fun k => if k = s then u (a.sta k) else a.sta k }

/-- Change the reorder control of one TID. -/
def updReorder (a : Adapter) (s : StaSlot) (tid : Tid) (c : RecvReorderCtrl) : Adapter :=
  a.updSta s fun x =>
    { x with recvreorderCtrl := fun t => if t = tid then c else x.recvreorderCtrl t }

end Adapter

/-- `rtw_get_stainfo`: every group address stands for the broadcast one. -/
def rtwGetStainfo (a : Adapter) (hwaddr : MacAddr) : Option StaSlot :=
  let addr := if hwaddr.isMcast then MacAddr.bcast else hwaddr
  a.staHash.find? fun s => (a.sta s).hwaddr = addr

/-- `rtw_get_bcmc_stainfo`. -/
def rtwGetBcmcStainfo (a : Adapter) : Option StaSlot := rtwGetStainfo a .bcast

/-! ## Frames and their queues -/

/-- Take the frame `id` off a queue. -/
def unlinkFrame (id : Nat) (q : List RecvFrame) : List RecvFrame := q.filter (·.id != id)

/-- Take the frame `id` off the queues of a station. -/
def StaInfo.unlink (x : StaInfo) (id : Nat) : StaInfo :=
  { x with
    defragQ := unlinkFrame id x.defragQ
    recvreorderCtrl := fun t =>
      { x.recvreorderCtrl t with
        pendingRecvframeQueue := unlinkFrame id (x.recvreorderCtrl t).pendingRecvframeQueue } }

/-- `rtw_list_delete(&precvframe->u.hdr.list)`. -/
def Adapter.unlink (a : Adapter) (id : Nat) : Adapter :=
  { a with
    sta := fun s => (a.sta s).unlink id
    recvpriv := { a.recvpriv with
      freeRecvQueue := a.recvpriv.freeRecvQueue.filter (· != id)
      ucSwdecPendingQueue := unlinkFrame id a.recvpriv.ucSwdecPendingQueue } }

/-- `rtw_alloc_recvframe(&precvpriv->free_recv_queue)`. -/
def rtwAllocRecvframe (a : Adapter) : Option (Nat × Adapter) :=
  match a.recvpriv.freeRecvQueue with
  | [] => none
  | id :: q =>
    some (id, { a with recvpriv := { a.recvpriv with
      freeRecvQueue := q, freeRecvframeCnt := a.recvpriv.freeRecvframeCnt - 1 } })

/-- `rtw_free_recvframe`: it goes back to the pool from whatever list it is in, and is
counted. -/
def rtwFreeRecvframe (a : Adapter) (f : RecvFrame) : Adapter :=
  let a := a.unlink f.id
  { a with recvpriv := { a.recvpriv with
      freeRecvQueue := a.recvpriv.freeRecvQueue ++ [f.id]
      freeRecvframeCnt := a.recvpriv.freeRecvframeCnt + 1 } }

/-- `rtw_free_recvframe_queue`. -/
def rtwFreeRecvframeQueue (a : Adapter) (q : List RecvFrame) : Adapter :=
  q.foldl rtwFreeRecvframe a

/-- `rtw_free_uc_swdec_pending_queue`: each frame is taken off the queue and freed. -/
def rtwFreeUcSwdecPendingQueue (a : Adapter) : Adapter :=
  rtwFreeRecvframeQueue { a with recvpriv := { a.recvpriv with ucSwdecPendingQueue := [] } }
    a.recvpriv.ucSwdecPendingQueue

/-! ## Stations -/

/-- `rtw_alloc_stainfo`: the station's queues are made anew. -/
def rtwAllocStainfo (a : Adapter) (hwaddr : MacAddr) : Adapter :=
  match a.freeStaQueue with
  | [] => a
  | s :: q =>
    { a.updSta s (fun _ =>
        { hwaddr := hwaddr
          tidRxseq := fun _ => 0xffff
          recvreorderCtrl := fun _ => { enable := false } }) with
      freeStaQueue := q, staHash := a.staHash ++ [s] }

/-- `rtw_free_stainfo`: the reorder queues are emptied, `defrag_q` is not. -/
def rtwFreeStainfo (a : Adapter) (s : StaSlot) : Adapter :=
  let pending := (List.finRange 16).flatMap fun t =>
    ((a.sta s).recvreorderCtrl t).pendingRecvframeQueue
  let a := a.updSta s fun x =>
    { x with
      linked := false
      recvreorderCtrl := fun t =>
        { x.recvreorderCtrl t with reorderingCtrlTimer := false, pendingRecvframeQueue := [] } }
  rtwFreeRecvframeQueue
    { a with staHash := a.staHash.filter (· != s), freeStaQueue := a.freeStaQueue ++ [s] } pending

end Rtl8812au
