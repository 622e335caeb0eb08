import Rtl8812au.Xmit.Dump
import Rtl8812au.Ap.StaPriv

/-!
# Transmit aggregates

`rtl8812au_xmitframe_complete` of `hal/rtl8812a/usb/rtl8812au_xmit.c` and `rtw_dequeue_xframe` of
`core/rtw_xmit.c`: the frames of one station and one access category are built one behind the other
in a transmit buffer. Where the next one goes is computed from `xmitframe_need_length`, ahead of
the frame being there; the first descriptor is written last, since the whole length decides whether
the eight bytes in front of the first MPDU stay.

Next to what the code keeps, the model records every frame that was taken off its queue, with what
`rtw_xmitframe_coalesce` made of it.
-/

namespace Rtl8812au

/-! ## Queues -/

/-- A data frame in a queue: its attributes, `attrib.qsel`, its packet, and the station that is
found for it when its header is made. `update_attrib` takes `pktlen` from the packet file behind
the Ethernet header. -/
structure QueuedFrame where
  attrib : PktAttrib
  qsel : Nat := 0
  pkt : List UInt8
  lookup : Option (Nat × StaInfo) := none
  pktlen : attrib.pktlen = pkt.length - attrib.pktHdrlen

/-- `struct tx_servq`: what waits for a station in a category. Here the frames are whole, and the
counters are left out. -/
structure DataServq where
  sta : Nat
  ac : Ac
  pending : List QueuedFrame

/-- The `tx_servq` that are linked into the lists of `hwxmits`; those of one category stand in the
order of its list. -/
abbrev HwXmits := List DataServq

/-- All that is queued. -/
def HwXmits.frames (q : HwXmits) : List QueuedFrame := q.flatMap (·.pending)

/-- A `tx_servq` with `fs` pending, which is unlinked when that is nothing. -/
def DataServq.relink (s : DataServq) (fs : List QueuedFrame) (rest : HwXmits) : HwXmits :=
  if fs.isEmpty then rest else { s with pending := fs } :: rest

/-- `dequeue_one_xmitframe` along the list of one category. -/
def dequeueAc (ac : Ac) : HwXmits → Option (QueuedFrame × HwXmits)
  | [] => none
  | s :: rest =>
    match if s.ac = ac then s.pending else [] with
    | f :: fs => some (f, s.relink fs rest)
    | [] => (dequeueAc ac rest).map fun r => (r.1, s :: r.2)

/-- `rtw_dequeue_xframe`: the categories in the order `inx`, which is that of `hwxmits` or, with
`wifi_spec`, `wmm_para_seq`. -/
def HwXmits.rtwDequeueXframe : List Ac → HwXmits → Option (QueuedFrame × HwXmits)
  | [], _ => none
  | ac :: inx, q =>
    match dequeueAc ac q with
    | some r => some r
    | none => HwXmits.rtwDequeueXframe inx q

/-- `ptxservq` of a station and a category: what is pending there. -/
def servqPending (sta : Option Nat) (ac : Ac) (q : HwXmits) : List QueuedFrame :=
  ((q.find? fun s => some s.sta = sta ∧ s.ac = ac).map (·.pending)).getD []

/-- The same `tx_servq` left with `fs`. -/
def setServq (sta : Option Nat) (ac : Ac) (fs : List QueuedFrame) : HwXmits → HwXmits
  | [] => []
  | s :: rest =>
    if some s.sta = sta ∧ s.ac = ac then s.relink fs rest else s :: setServq sta ac fs rest

/-! ## Building -/

def maxXmitbufSz : Nat := 20480
def maxTxAggPacketNumber : Nat := 0xff
def qsltHigh : Nat := 0x11

/-- `struct xmit_buf`: `pbuf`, aligned to `XMITBUF_ALIGN_SZ` in what was allocated. -/
structure XmitBuf where
  pbuf : Nat
  aligned : pbuf % 512 = 0
  allocated : 0 < pbuf

/-- `UsbBulkOutSize` and `UsbTxAggDescNum`. -/
structure UsbOut where
  bulkSize : Nat
  bulk : 0 < bulkSize ∧ bulkSize % 64 = 0
  aggDescNum : Nat

/-- `xmitframe_need_length`. -/
def xmitframeNeedLength (a : PktAttrib) : Nat :=
  a.hdrlen + a.ivLen + 6 + 2 + a.pktlen + (if a.bswenc then a.icvLen else 0)
    + (if a.encrypt = .tkip then 8 else 0)

/-- `rtw_hal_busagg_qsel_check`: `true` is `_SUCCESS`. -/
def rtwHalBusaggQselCheck (mlme : MlmePriv) (preQsel nextQsel : Nat) : Bool :=
  !mlme.apState || !((preQsel = qsltHigh || nextQsel = qsltHigh) && preQsel ≠ nextQsel)

/-- What `rtw_make_wlanhdr` has written when it looks for the station. -/
def wlanhdrMem (mlme : MlmePriv) (m : Mem) (hdr : Nat) (a : PktAttrib) : Mem :=
  let m := m.write hdr (List.replicate 64 0)
  match wlanhdrForMode mlme a with
  | none => m.write hdr (le16Bytes a.subtype)
  | some (ds, addr1, addr2, addr3, qosOption) =>
    let m := m.write hdr (le16Bytes (wlanhdrFctrl ds a))
    let m := m.write (hdr + 4) (addr1.bytes ++ addr2.bytes ++ addr3.bytes)
    if qosOption then
      orLe16 m (hdr + a.hdrlen - 2)
        ((a.priority &&& 0xf) ||| ((a.eosp &&& 1) <<< 4) ||| ((a.ackPolicy &&& 3) <<< 5))
    else m

/-- The buffer behind a `rtw_xmitframe_coalesce` that failed: without a header, or without a MIC. -/
def refusedMem (fragLen : Nat) (mlme : MlmePriv) (lookup : Option (Nat × StaInfo))
    (pkt : List UInt8) (x : XmitFrame) : Mem :=
  match coalesceFrags fragLen mlme lookup pkt x with
  | none => if x.bufAddr = 0 then x.mem else wlanhdrMem mlme x.mem x.firstStart x.attrib
  | some y => y.mem

/-- The bytes of a descriptor: `PKT_SIZE`, `PKT_OFFSET`, `USB_TXAGG_NUM` where there is more than
one frame, and `fields` for all others. -/
def txdescBytes (d : TxDesc) (aggNum : Nat) (fields : Nat → UInt8) : List UInt8 :=
  (List.range txdescSize).map fun i =>
    if i = 0 then UInt8.ofNat d.pktSize
    else if i = 1 then UInt8.ofNat (d.pktSize / 256)
    else if i = 7 then UInt8.ofNat d.pktOffset
    else if i = 31 then UInt8.ofNat (if 1 < aggNum then aggNum else 0)
    else fields i

section

variable (aes : AesKey → BlockMode.Block → BlockMode.Block) (p : XmitPriv) (mlme : MlmePriv)
  (sec : SecurityPriv) (env : TxEnv) (fields : PktAttrib → Nat → UInt8)

/-- A queued frame as it goes to `rtw_xmitframe_coalesce`. -/
def QueuedFrame.toXmit (f : QueuedFrame) (bufAddr pktOffset : Nat) (aligned : bufAddr % 4 = 0)
    (mem : Mem) : XmitFrame where
  attrib := f.attrib
  bufAddr := bufAddr
  aligned := aligned
  pktOffset := pktOffset
  mem := mem

/-- `rtw_xmitframe_coalesce` for a queued frame: the frame, or the buffer when it fails. -/
def QueuedFrame.coalesce (f : QueuedFrame) (x : XmitFrame) : Option XmitFrame :=
  rtwXmitframeCoalesce aes p.fragLen mlme sec f.lookup f.pkt x

/-- `update_txdesc` for a frame of an aggregate, into `mem`. -/
def writeTxdesc (x : XmitFrame) (bufAddr pktOffset aggNum : Nat) (mem : Mem) : Mem :=
  let d := (updateTxdesc env pktOffset bufAddr x.attrib.lastTxcmdsz true).1
  mem.write d.addr (txdescBytes d aggNum (fields x.attrib))

/-- The variables of the second loop. -/
structure AggState where
  pbuf : Nat
  aligned : pbuf % 8 = 0
  pbufTail : Nat
  aggNum : Nat
  descCount : Nat
  bulkPtr : Nat
  mem : Mem

/-- The frames that were taken off their queue, in that order, and what became of them. -/
abbrev TakenFrames := List (QueuedFrame × Option XmitFrame)

/-- Behind a frame of `len` bytes that was built at `pbuf`. -/
def AggState.add (s : AggState) (len : Nat) (mem : Mem) : AggState :=
  { s with
    pbufTail := s.pbuf + len
    pbuf := rnd8 (s.pbuf + len)
    aligned := rnd8_mod _
    aggNum := (s.aggNum + 1) % 256
    mem := mem }

/-- The stop conditions behind a frame: the counters, and whether the loop is left. -/
def AggState.next (hal : UsbOut) (s : AggState) : AggState × Bool :=
  if s.aggNum = maxTxAggPacketNumber then (s, true)
  else if s.pbuf < s.bulkPtr then
    let s := { s with descCount := (s.descCount + 1) % 256 }
    (s, s.descCount = hal.aggDescNum)
  else
    ({ s with descCount := 0, bulkPtr := (s.pbuf / hal.bulkSize + 1) * hal.bulkSize }, false)

/-- The address of the next frame is aligned. -/
theorem XmitBuf.aligned_add (buf : XmitBuf) {k : Nat} (h : k % 8 = 0) : (buf.pbuf + k) % 4 = 0 := by
  have := buf.aligned
  omega

/-- The loop over `sta_pending` behind a first frame with `qsel`: the variables afterwards, what
is left in the queue, and what was taken off. -/
def aggLoop (hal : UsbOut) (buf : XmitBuf) (qsel : Nat) :
    List QueuedFrame → AggState → AggState × List QueuedFrame × TakenFrames
  | [], s => (s, [], [])
  | f :: rest, s =>
    if !rtwHalBusaggQselCheck mlme qsel f.qsel then (s, f :: rest, [])
    else
      let len := xmitframeNeedLength f.attrib + txdescSize
      if maxXmitbufSz < rnd8 (s.pbuf + len) then (s, f :: rest, [])
      else
        let x := f.toXmit (buf.pbuf + s.pbuf) 0 (buf.aligned_add s.aligned) s.mem
        match f.coalesce aes p mlme sec x with
        | none =>
          let r := aggLoop hal buf qsel rest
            { s with mem := refusedMem p.fragLen mlme f.lookup f.pkt x }
          (r.1, r.2.1, (f, none) :: r.2.2)
        | some y =>
          let s := (s.add len (writeTxdesc env fields y y.bufAddr y.pktOffset 0 y.mem)).next hal
          if s.2 then (s.1, rest, [(f, some y)])
          else
            let r := aggLoop hal buf qsel rest s.1
            (r.1, r.2.1, (f, some y) :: r.2.2)

/-- The first loop with at most `fuel` turns: the first frame that can be built, the queues, and
what was taken off. -/
def pickFirst (inx : List Ac) (buf : XmitBuf) :
    Nat → HwXmits → Mem → Option (QueuedFrame × XmitFrame) × HwXmits × TakenFrames
  | 0, q, _ => (none, q, [])
  | fuel + 1, q, m =>
    match HwXmits.rtwDequeueXframe inx q with
    | none => (none, q, [])
    | some (f, q) =>
      let x := f.toXmit (buf.pbuf + 0) 1 (buf.aligned_add rfl) m
      match f.coalesce aes p mlme sec x with
      | none =>
        let r := pickFirst inx buf fuel q (refusedMem p.fragLen mlme f.lookup f.pkt x)
        (r.1, r.2.1, (f, none) :: r.2.2)
      | some y => (some (f, y), q, [(f, some y)])

/-- What goes to `rtw_write_port`: from where, how many bytes, `agg_num`, and the buffer. -/
structure Transfer where
  bufAddr : Nat
  len : Nat
  aggNum : Nat
  mem : Mem

/-- `agg_end`: the first descriptor. The eight bytes in front of the first MPDU go where the
transfer would end on a bulk boundary. -/
def aggEnd (hal : UsbOut) (y : XmitFrame) (s : AggState) : Transfer :=
  if s.pbufTail % hal.bulkSize = 0 then
    ⟨y.bufAddr + packetOffsetSz, s.pbufTail - packetOffsetSz, s.aggNum,
      writeTxdesc env fields y (y.bufAddr + packetOffsetSz) (y.pktOffset - 1) s.aggNum s.mem⟩
  else
    ⟨y.bufAddr, s.pbufTail, s.aggNum,
      writeTxdesc env fields y y.bufAddr y.pktOffset s.aggNum s.mem⟩

/-- How `rtl8812au_xmitframe_complete` ends; without a transfer it returned `_FALSE`. -/
structure Complete where
  transfer : Option Transfer
  queues : HwXmits
  taken : TakenFrames

/-- `rtl8812au_xmitframe_complete`, with a transmit buffer. -/
def rtl8812auXmitframeComplete (inx : List Ac) (hal : UsbOut) (buf : XmitBuf) (q : HwXmits)
    (m : Mem) : Complete :=
  let r := pickFirst aes p mlme sec inx buf (q.frames.length + 1) q m
  match r.1 with
  | none => ⟨none, r.2.1, r.2.2⟩
  | some (f, y) =>
    let len := xmitframeNeedLength y.attrib + txdescSize + y.pktOffset * packetOffsetSz
    let s : AggState := ⟨rnd8 len, rnd8_mod len, len, 1, 0, hal.bulkSize, y.mem⟩
    let descCount := if s.pbuf < s.bulkPtr then 1 else 0
    if descCount = hal.aggDescNum then ⟨some (aggEnd env fields hal y s), r.2.1, r.2.2⟩
    else
      let s := { s with bulkPtr := (s.pbuf / hal.bulkSize + 1) * hal.bulkSize }
      let ac := acOf f.attrib.priority
      let l := aggLoop aes p mlme sec env fields hal buf f.qsel
        (servqPending f.attrib.psta ac r.2.1) s
      ⟨some (aggEnd env fields hal y l.1), setServq f.attrib.psta ac l.2.1 r.2.1,
        r.2.2 ++ l.2.2⟩

end

/-! ## The device -/

/-- What a descriptor at `addr` says. -/
def txdescAt (m : Mem) (addr : Nat) : TxDesc := ⟨addr, m.le16 addr, (m (addr + 7)).toNat % 2 ^ 5⟩

/-- The device on a transfer of `len` bytes from `start` on, at offset `pos`: a descriptor, the
bytes it says, and the next one at the next multiple of eight. -/
def deviceWalk (m : Mem) (start len : Nat) : Nat → Nat → List TxDesc
  | 0, _ => []
  | fuel + 1, pos =>
    if pos < len then
      let d := txdescAt m (start + pos)
      d :: deviceWalk m start len fuel
        (rnd8 (pos + txdescSize + d.pktOffset * packetOffsetSz + d.pktSize))
    else []

/-- The descriptors of a transfer. Each is longer than a byte. -/
def Transfer.descriptors (t : Transfer) : List TxDesc := deviceWalk t.mem t.bufAddr t.len t.len 0

end Rtl8812au
