import Rtl8812au.Recv.Frame
import Rtl8812au.Lib.Mem

/-!
# Stations and their transmit queues

The part of `struct sta_priv`, `struct sta_info` and `struct xmit_priv` that decides where a
frame for a station waits: in one of the four queues of the station (`tx_servq`), which the
hardware queues serve, or in `sleep_q` while the station sleeps. `core/rtw_xmit.c`,
`core/rtw_sta_mgt.c` and the PS-Poll branch of `core/rtw_recv.c`.

Counters are integers, so that a decrement below zero shows. `_update_beacon(_TIM_IE_)` is
recorded by the value of `tim_bitmap` it is called with.
-/

namespace Rtl8812au

/-- The access categories, in the order of `hwxmits`. -/
inductive Ac where
  | vo | vi | be | bk
  deriving Repr, DecidableEq

/-- The switch over the priority that every function here makes. -/
def acOf (priority : Nat) : Ac :=
  match priority with
  | 1 | 2 => .bk
  | 4 | 5 => .vi
  | 6 | 7 => .vo
  | _ => .be

/-- `struct xmit_frame`, with what is used of its `attrib`. -/
structure TxFrame where
  id : Nat
  /-- `attrib.psta`, found when the frame was made. -/
  psta : Option StaSlot := none
  ra : MacAddr := .zero
  priority : Nat := 0
  etherType : Nat := 0
  dhcpPkt : Bool := false
  triggered : Bool := false
  mdata : Bool := false
  eosp : Bool := false
  /-- `qsel == QSLT_HIGH`. -/
  qselHigh : Bool := false

/-- `struct tx_servq`. -/
structure TxServq where
  staPending : List TxFrame := []
  qcnt : Int := 0

/-- `uapsd_vo` and its like: `BIT(0)` delivery enabled, `BIT(1)` trigger enabled. -/
structure Uapsd where
  delivery : Bool := false
  trigger : Bool := false
  deriving DecidableEq

/-- `struct sta_info`. `linked` and `sleep` are the bits `_FW_LINKED` and `WIFI_SLEEP_STATE`
of `state`. `WIFI_FW_AUTH_SUCCESS` and `WIFI_STA_ALIVE_CHK_STATE` are one bit of it, 0x400. -/
structure TxSta where
  hwaddr : MacAddr := .zero
  linked : Bool := false
  sleep : Bool := false
  authSuccess : Bool := false
  aid : Nat := 0
  expireTo : Nat := 0
  qosInfo : Nat := 0
  maxSpLen : Nat := 0
  uapsd : Ac → Uapsd := fun _ => {}
  hasLegacyAc : Bool := false
  sleepQ : List TxFrame := []
  sleepqLen : Int := 0
  sleepqAcLen : Int := 0
  /-- `sta_xmitpriv.vo_q` and so on. -/
  servq : Ac → TxServq := fun _ => {}

namespace TxSta

/-- A frame goes to the end of `sleep_q` and is counted; `ac` says whether in `sleepq_ac_len`
too. -/
def push (x : TxSta) (f : TxFrame) (ac : Bool) : TxSta :=
  { x with
    sleepQ := x.sleepQ ++ [f]
    sleepqLen := x.sleepqLen + 1
    sleepqAcLen := if ac then x.sleepqAcLen + 1 else x.sleepqAcLen }

/-- A frame is taken out of `sleep_q`, of which `q` is left. -/
def pull (x : TxSta) (q : List TxFrame) (ac : Bool) : TxSta :=
  { x with
    sleepQ := q
    sleepqLen := x.sleepqLen - 1
    sleepqAcLen := if ac then x.sleepqAcLen - 1 else x.sleepqAcLen }

end TxSta

/-- `registrypriv.hiq_filter`. -/
inductive HiqFilter where
  | allowAll | allowSpecial | denyAll
  deriving Repr, DecidableEq

/-- `struct sta_priv` and the hardware queues. `staQueue` lists the stations whose `tx_servq`
is linked into a hardware queue, `staAid` is indexed from zero. -/
structure StaPriv where
  /-- `check_fwstate(pmlmepriv, WIFI_AP_STATE)`. -/
  apState : Bool := true
  hiqFilter : HiqFilter := .allowAll
  /-- `pstapriv->expire_to`. -/
  expireTo : Nat := 3
  maxNumSta : Nat := numSta
  sta : StaSlot → TxSta := fun _ => {}
  freeStaQueue : List StaSlot := List.finRange numSta
  staHash : List StaSlot := []
  staAid : Nat → Option StaSlot := fun _ => none
  staDzBitmap : BitVec 16 := 0
  timBitmap : BitVec 16 := 0
  accnt : Ac → Int := fun _ => 0
  staQueue : Ac → List StaSlot := fun _ => []
  /-- `tim_bitmap` at each rewrite of the TIM element. -/
  bcnTim : List (BitVec 16) := []
  /-- Frames given back by `rtw_free_xmitframe`. -/
  freed : List TxFrame := []

/-- `BIT(n)` in a `u16`. The shift count is taken modulo 32, as the shift instruction of the
processors this driver is built for takes it. -/
def bitU16 (n : Nat) : BitVec 16 := BitVec.ofNat 16 (2 ^ (n % 32))

namespace StaPriv

variable (p : StaPriv)

/-- Change the station in slot `s`. -/
def updSta (s : StaSlot) (u : TxSta → TxSta) : StaPriv :=
  { p with sta := fun k => if k = s then u (p.sta k) else p.sta k }

/-- Change one of the queues of a station. -/
def updServq (s : StaSlot) (ac : Ac) (u : TxServq → TxServq) : StaPriv :=
  p.updSta s fun x =>
    { x with servq := fun c => if c = ac then u (x.servq c) else x.servq c }

/-- Change the count of a hardware queue. -/
def addAccnt (ac : Ac) (d : Int) : StaPriv :=
  { p with accnt := fun c => if c = ac then p.accnt c + d else p.accnt c }

/-- `rtw_list_delete(&ptxservq->tx_pending)`. -/
def unlinkServq (s : StaSlot) (ac : Ac) : StaPriv :=
  { p with staQueue := fun c => if c = ac then (p.staQueue c).filter (· != s) else p.staQueue c }

/-- `_update_beacon(padapter, _TIM_IE_, NULL, _TRUE, ..)`. -/
def updateTim : StaPriv := { p with bcnTim := p.bcnTim ++ [p.timBitmap] }

/-- `tim_bitmap |= BIT(aid)`, with a new beacon when the bit was clear. -/
def markTim (aid : Nat) : StaPriv :=
  let q := { p with timBitmap := p.timBitmap ||| bitU16 aid }
  if p.timBitmap &&& bitU16 aid == 0 then q.updateTim else q

/-- `tim_bitmap &= ~BIT(aid)`, with a new beacon. -/
def clearTim (aid : Nat) : StaPriv :=
  { p with timBitmap := p.timBitmap &&& ~~~bitU16 aid }.updateTim

/-- `rtw_get_stainfo`: every group address stands for the broadcast one. -/
def getStainfo (hwaddr : MacAddr) : Option StaSlot :=
  let addr := if hwaddr.isMcast then MacAddr.bcast else hwaddr
  p.staHash.find? fun s => (p.sta s).hwaddr = addr

/-- `rtw_get_bcmc_stainfo`. -/
def getBcmcStainfo : Option StaSlot := p.getStainfo .bcast

end StaPriv

/-! ## The queues of the awake -/

/-- `rtw_xmit_classifier`. -/
def rtwXmitClassifier (p : StaPriv) (f : TxFrame) : Option StaPriv :=
  if f.psta ≠ p.getStainfo f.ra then none
  else match f.psta with
    | none => none
    | some s =>
      if !(p.sta s).linked then none
      else
        let ac := acOf f.priority
        let p := if (p.staQueue ac).contains s then p
          else { p with
            staQueue := fun c => if c = ac then p.staQueue c ++ [s] else p.staQueue c }
        let p := p.updServq s ac fun q =>
          { staPending := q.staPending ++ [f], qcnt := q.qcnt + 1 }
        some (p.addAccnt ac 1)

/-- `rtw_hal_xmitframe_enqueue`: a frame the classifier does not take is dropped. -/
def halXmitframeEnqueue (p : StaPriv) (f : TxFrame) : StaPriv :=
  match rtwXmitClassifier p f with
  | some p => p
  | none => { p with freed := p.freed ++ [f] }

/-- The stations of one hardware queue in `rtw_dequeue_xframe`, until one has a frame. -/
def dequeueFrom (p : StaPriv) (ac : Ac) : List StaSlot → Option (TxFrame × StaPriv)
  | [] => none
  | s :: rest =>
    match ((p.sta s).servq ac).staPending with
    | [] => dequeueFrom p ac rest
    | f :: q =>
      let p := p.updServq s ac fun v => { staPending := q, qcnt := v.qcnt - 1 }
      let p := p.addAccnt ac (-1)
      some (f, if q.isEmpty then p.unlinkServq s ac else p)

/-- `rtw_dequeue_xframe`. `inx` is the order in which the hardware queues are served. -/
def rtwDequeueXframe (p : StaPriv) : List Ac → Option (TxFrame × StaPriv)
  | [] => none
  | ac :: inx =>
    match dequeueFrom p ac (p.staQueue ac) with
    | some r => some r
    | none => rtwDequeueXframe p inx

/-! ## The queues of the sleeping -/

/-- `xmitframe_hiq_filter`, on USB. -/
def hiqAllows (p : StaPriv) (f : TxFrame) : Bool :=
  match p.hiqFilter with
  | .allowSpecial => f.etherType == 0x0806 || f.etherType == 0x888e || f.dhcpPkt
  | .allowAll => true
  | .denyAll => false

/-- `xmitframe_enqueue_for_sleeping_sta` for a group frame, once some station sleeps. -/
def enqueueBmc (p : StaPriv) (s : StaSlot) (f : TxFrame) : StaPriv :=
  let p := (p.updSta s fun x => x.push f false).markTim 0
  { p with staDzBitmap := p.staDzBitmap ||| bitU16 0 }

/-- The station's frames wait: it sleeps, and its bit is in `sta_dz_bitmap`. -/
def StaPriv.dozes (p : StaPriv) (s : StaSlot) : Bool :=
  (p.sta s).sleep && p.staDzBitmap &&& bitU16 (p.sta s).aid != 0

/-- `xmitframe_enqueue_for_sleeping_sta` for a frame to one station that sleeps. -/
def enqueueUc (p : StaPriv) (s : StaSlot) (f : TxFrame) : StaPriv :=
  let wmmps := ((p.sta s).uapsd (acOf f.priority)).delivery
  let legacy := (p.sta s).hasLegacyAc
  let q := p.updSta s fun x => x.push f wmmps
  if (legacy && !wmmps) || (!legacy && wmmps) then q.markTim (p.sta s).aid else q

/-- `xmitframe_enqueue_for_sleeping_sta`: `true` when the frame now waits in a `sleep_q`. The
frame comes back as it is left, for the caller that still has it. -/
def enqueueForSleepingSta (p : StaPriv) (f : TxFrame) : StaPriv × TxFrame × Bool :=
  if !p.apState then (p, f, false)
  else if f.psta ≠ p.getStainfo f.ra then (p, f, false)
  else match f.psta with
    | none => (p, f, false)
    | some s =>
      if !(p.sta s).linked then (p, f, false)
      else if f.triggered then
        (p, if f.ra.isMcast && hiqAllows p f then { f with qselHigh := true } else f, false)
      else if f.ra.isMcast then
        if p.staDzBitmap ≠ 0 then (enqueueBmc p s f, f, true) else (p, f, false)
      else if p.dozes s then (enqueueUc p s f, f, true)
      else (p, f, false)

/-- One frame of `dequeue_xmitframes_to_sleeping_queue`: it leaves the queue, or it is kept. -/
def moveToSleeping (psta : StaSlot) (acc : StaPriv × List TxFrame) (f : TxFrame) :
    StaPriv × List TxFrame :=
  let f := { f with triggered := false }
  let r := enqueueForSleepingSta acc.1 f
  if r.2.2 then
    let ac := acOf f.priority
    ((r.1.updServq psta ac fun q => { q with qcnt := q.qcnt - 1 }).addAccnt ac (-1), acc.2)
  else (r.1, acc.2 ++ [r.2.1])

/-- `dequeue_xmitframes_to_sleeping_queue`. -/
def dequeueXmitframesToSleepingQueue (p : StaPriv) (psta : StaSlot) (ac : Ac) : StaPriv :=
  let r := ((p.sta psta).servq ac).staPending.foldl (moveToSleeping psta) (p, [])
  r.1.updServq psta ac fun q => { q with staPending := r.2 }

/-- One of the queues in `stop_sta_xmit`: its frames are moved and it is unlinked, whether or
not it is empty then. -/
def stopQueue (p : StaPriv) (psta : StaSlot) (ac : Ac) : StaPriv :=
  (dequeueXmitframesToSleepingQueue p psta ac).unlinkServq psta ac

/-- `stop_sta_xmit`. The broadcast station is used without a check. -/
def stopStaXmit (p : StaPriv) (s : StaSlot) : Outcome StaPriv :=
  let bmc := p.getBcmcStainfo
  let p := p.updSta s fun x => { x with sleep := true }
  let p := { p with staDzBitmap := p.staDzBitmap ||| bitU16 (p.sta s).aid }
  let p := [Ac.vo, .vi, .be, .bk].foldl (fun p ac => stopQueue p s ac) p
  match bmc with
  | none => .overrun
  | some b => .done (stopQueue p b .be)

/-- The loop of `wakeup_sta_to_xmit` over the sleep queue of the station. -/
def wakeupLoop (s : StaSlot) : StaPriv → List TxFrame → StaPriv
  | p, [] => p
  | p, f :: q =>
    let wmmps := ((p.sta s).uapsd (acOf f.priority)).trigger
    let p := p.updSta s fun x => x.pull q wmmps
    let x := p.sta s
    let f := if wmmps then
        { f with mdata := x.sleepqAcLen > 0, eosp := ¬ x.sleepqAcLen > 0, triggered := true }
      else { f with mdata := x.sleepqLen > 0, triggered := true }
    wakeupLoop s (halXmitframeEnqueue p f) q

/-- The loop over the sleep queue of the broadcast station. -/
def wakeupBmcLoop (b : StaSlot) : StaPriv → List TxFrame → StaPriv
  | p, [] => p
  | p, f :: q =>
    let p := p.updSta b fun x => x.pull q false
    let f := { f with mdata := (p.sta b).sleepqLen > 0, triggered := true }
    wakeupBmcLoop b (halXmitframeEnqueue p f) q

/-- What `wakeup_sta_to_xmit` does once `sleepq_len` is zero. -/
def wakeupDone (p : StaPriv) (s : StaSlot) : StaPriv × Bool :=
  let aid := (p.sta s).aid
  let update := p.timBitmap &&& bitU16 aid != 0
  let p := p.updSta s fun x =>
    { x with
      sleep := false
      expireTo := if x.authSuccess then p.expireTo else x.expireTo
      authSuccess := false }
  ({ p with
    timBitmap := p.timBitmap &&& ~~~bitU16 aid
    staDzBitmap := p.staDzBitmap &&& ~~~bitU16 aid }, update)

/-- The part of `wakeup_sta_to_xmit` that is about the station itself; `true` when the TIM
element has to be rewritten. -/
def wakeupSta (p : StaPriv) (s : StaSlot) : StaPriv × Bool :=
  let p := wakeupLoop s p (p.sta s).sleepQ
  if (p.sta s).sleepqLen = 0 then wakeupDone p s else (p, false)

/-- The part that is about the group frames: they leave when no station sleeps any more. -/
def wakeupBmc (p : StaPriv) (b : StaSlot) : StaPriv × Bool :=
  if p.staDzBitmap &&& 0xfffe#16 = 0 then
    let p := wakeupBmcLoop b p (p.sta b).sleepQ
    if (p.sta b).sleepqLen = 0 then
      ({ p with
        timBitmap := p.timBitmap &&& ~~~bitU16 0
        staDzBitmap := p.staDzBitmap &&& ~~~bitU16 0 }, p.timBitmap &&& bitU16 0 != 0)
    else (p, false)
  else (p, false)

/-- `wakeup_sta_to_xmit`. -/
def wakeupStaToXmit (p : StaPriv) (s : StaSlot) : StaPriv :=
  let r := wakeupSta p s
  let r' := match p.getBcmcStainfo with
    | none => (r.1, false)
    | some b => wakeupBmc r.1 b
  if r.2 || r'.2 then r'.1.updateTim else r'.1

/-- The loop of `xmit_delivery_enabled_frames`; `kept` are the frames it has passed over. -/
def deliverLoop (s : StaSlot) : StaPriv → List TxFrame → List TxFrame → StaPriv
  | p, _, [] => p
  | p, kept, f :: q =>
    if ((p.sta s).uapsd (acOf f.priority)).trigger then
      let p := p.updSta s fun x => x.pull (kept ++ q) true
      let x := p.sta s
      let f := { f with
        mdata := x.sleepqAcLen > 0, eosp := ¬ x.sleepqAcLen > 0, triggered := true }
      let p := halXmitframeEnqueue p f
      let p := if x.sleepqAcLen = 0 ∧ ¬ x.hasLegacyAc then p.clearTim x.aid else p
      deliverLoop s p kept q
    else deliverLoop s p (kept ++ [f]) q

/-- `xmit_delivery_enabled_frames`. -/
def xmitDeliveryEnabledFrames (p : StaPriv) (s : StaSlot) : StaPriv :=
  deliverLoop s p [] (p.sta s).sleepQ

/-- The PS-Poll branch of `validate_recv_ctrl_frame`, for a frame from `ta` that carries
`aid`; `priority` is the one the descriptor of the PS-Poll says. -/
def recvPsPoll (p : StaPriv) (ta : MacAddr) (aid priority : Nat) : StaPriv :=
  match p.getStainfo ta with
  | none => p
  | some s =>
    if (p.sta s).aid ≠ aid then p
    else if ((p.sta s).uapsd (acOf priority)).delivery then p
    else
      let p := p.updSta s fun x =>
        { x with
          expireTo := if x.authSuccess then p.expireTo else x.expireTo
          authSuccess := false }
      if p.dozes s then
        match (p.sta s).sleepQ with
        | f :: q =>
          let p := p.updSta s fun x => x.pull q false
          let f := { f with mdata := (p.sta s).sleepqLen > 0, triggered := true }
          let p := halXmitframeEnqueue p f
          if (p.sta s).sleepqLen = 0 then p.clearTim (p.sta s).aid else p
        | [] =>
          if p.timBitmap &&& bitU16 (p.sta s).aid != 0 then
            (p.updSta s fun x => { x with sleepqLen := 0 }).clearTim (p.sta s).aid
          else p
      else p

/-! ## Stations come and go -/

/-- `rtw_alloc_stainfo`, with the slot. -/
def allocStainfo (p : StaPriv) (hwaddr : MacAddr) : Option (StaSlot × StaPriv) :=
  match p.freeStaQueue with
  | [] => none
  | s :: q =>
    some (s, { p.updSta s (fun _ => { hwaddr := hwaddr }) with
      freeStaQueue := q, staHash := p.staHash ++ [s] })

/-- One of the queues in `rtw_free_stainfo`. -/
def freeServq (p : StaPriv) (s : StaSlot) (ac : Ac) : StaPriv :=
  let q := (p.sta s).servq ac
  let p := { p with freed := p.freed ++ q.staPending }
  ((p.updServq s ac fun _ => {}).unlinkServq s ac).addAccnt ac (-q.qcnt)

/-- `rtw_free_stainfo`. -/
def freeStainfo (p : StaPriv) (s : StaSlot) : StaPriv :=
  let p := { p with
    staHash := p.staHash.filter (· != s), freed := p.freed ++ (p.sta s).sleepQ }
  let p := p.updSta s fun x => { x with linked := false, sleepQ := [], sleepqLen := 0 }
  let p := [Ac.vo, .vi, .be, .bk].foldl (fun p ac => freeServq p s ac) p
  let p := p.updSta s fun x =>
    { x with
      expireTo := 0, sleepqAcLen := 0, qosInfo := 0, maxSpLen := 0, uapsd := fun _ => {}
      hasLegacyAc := false }
  let aid := (p.sta s).aid
  let p := { p with
    staDzBitmap := p.staDzBitmap &&& ~~~bitU16 aid, timBitmap := p.timBitmap &&& ~~~bitU16 aid }
  let p := if 0 < aid ∧ p.staAid (aid - 1) = some s then
      { p.updSta s (fun x => { x with aid := 0 }) with
        staAid := fun k => if k = aid - 1 then none else p.staAid k }
    else p
  { p with freeStaQueue := p.freeStaQueue ++ [s] }

/-! ## What an association does to them -/

/-- What `OnAssocReq` makes of the WMM element of the request, `wmm` being its `qos_info`. -/
def assocQos (p : StaPriv) (s : StaSlot) (wmm : Option Nat) : StaPriv :=
  p.updSta s fun x =>
    match wmm with
    | none => { x with qosInfo := 0, hasLegacyAc := true, uapsd := fun _ => {} }
    | some info =>
      { x with
        qosInfo := info
        maxSpLen := (info >>> 5) &&& 3
        hasLegacyAc := info &&& 0xf != 0xf
        uapsd := fun
          | .vo => ⟨info.testBit 0, info.testBit 0⟩
          | .vi => ⟨info.testBit 1, info.testBit 1⟩
          | .bk => ⟨info.testBit 2, info.testBit 2⟩
          | .be => ⟨info.testBit 3, info.testBit 3⟩ }

/-- The AID the search of `OnAssocReq` ends at. -/
def StaPriv.freeAid (p : StaPriv) : Nat :=
  ((List.range numSta).find? fun k => (p.staAid k).isNone).getD numSta + 1

/-- "get a unique AID" in `OnAssocReq`; `none` when there is no room. -/
def assocAid (p : StaPriv) (s : StaSlot) : Option StaPriv :=
  if 0 < (p.sta s).aid then some p
  else if p.maxNumSta < p.freeAid then none
  else some { p.updSta s (fun x => { x with aid := p.freeAid }) with
    staAid := fun k => if k = p.freeAid - 1 then some s else p.staAid k }

/-- The AID at the label `OnAssocReqFail`. -/
def dropAid (p : StaPriv) (s : StaSlot) : StaPriv := p.updSta s fun x => { x with aid := 0 }

/-- `update_sta_info_apmode` ends with the station linked. -/
def linkSta (p : StaPriv) (s : StaSlot) : StaPriv := p.updSta s fun x => { x with linked := true }

/-! ## The operations together -/

/-- `_rtw_init_sta_priv`: no station, nothing buffered. -/
def initStaPriv (apState : Bool) (hiqFilter : HiqFilter) (expireTo maxNumSta : Nat) : StaPriv :=
  { apState := apState, hiqFilter := hiqFilter, expireTo := expireTo, maxNumSta := maxNumSta }

/-- The operations on the queues, and the parts of an association that touch what the queues
depend on. -/
inductive PsOp where
  | alloc (hwaddr : MacAddr)
  | free (s : StaSlot)
  /-- `OnAssocReq`: the WMM element. -/
  | qos (s : StaSlot) (wmm : Option Nat)
  /-- `OnAssocReq`: the AID; then the answer, or the way out of a refused request. -/
  | aid (s : StaSlot)
  | refuse (s : StaSlot)
  | link (s : StaSlot)
  | enqueue (f : TxFrame)
  | classify (f : TxFrame)
  | dequeue (inx : List Ac)
  | stop (s : StaSlot)
  | wakeup (s : StaSlot)
  | deliver (s : StaSlot)
  | psPoll (ta : MacAddr) (aid priority : Nat)

/-- The operation has a station to work on: one that is allocated, or for `alloc` an address
that is not known yet. Every caller looks the station up first. -/
def PsOp.Applies (p : StaPriv) : PsOp → Prop
  | .alloc hwaddr => p.getStainfo hwaddr = none
  | .free s | .qos s _ | .aid s | .refuse s | .link s | .stop s | .wakeup s | .deliver s =>
    s ∈ p.staHash
  | _ => True

instance (p : StaPriv) (op : PsOp) : Decidable (op.Applies p) :=
  match op with
  | .alloc hwaddr => inferInstanceAs (Decidable (p.getStainfo hwaddr = none))
  | .free s | .qos s _ | .aid s | .refuse s | .link s | .stop s | .wakeup s | .deliver s =>
    inferInstanceAs (Decidable (s ∈ p.staHash))
  | .enqueue _ | .classify _ | .dequeue _ | .psPoll .. => inferInstanceAs (Decidable True)

/-- What an operation does. -/
def psOp (p : StaPriv) : PsOp → Outcome StaPriv
  | .alloc hwaddr => .done ((allocStainfo p hwaddr).elim p Prod.snd)
  | .free s => .done (freeStainfo p s)
  | .qos s wmm => .done (assocQos p s wmm)
  | .aid s => .done ((assocAid p s).getD p)
  | .refuse s => .done (dropAid p s)
  | .link s => .done (linkSta p s)
  | .enqueue f => .done (enqueueForSleepingSta p f).1
  | .classify f => .done (halXmitframeEnqueue p f)
  | .dequeue inx => .done ((rtwDequeueXframe p inx).elim p Prod.snd)
  | .stop s => stopStaXmit p s
  | .wakeup s => .done (wakeupStaToXmit p s)
  | .deliver s => .done (xmitDeliveryEnabledFrames p s)
  | .psPoll ta aid priority => .done (recvPsPoll p ta aid priority)

/-- One step. -/
def psStep (p : StaPriv) (op : PsOp) : Outcome StaPriv :=
  if op.Applies p then psOp p op else .done p

end Rtl8812au
