import Rtl8812au.Recv.EthHdr

/-!
# A-MPDU receive reordering

`struct recv_reorder_ctrl` and the functions of `core/rtw_recv.c` that work on
it. Sequence numbers are 12 bits wide and compared by `SN_LESS`, which looks at
one bit of their difference; `indicate_seq` starts out as `0xFFFF`, a value no
sequence number has.
-/

namespace Rtl8812au

/-- `SN_LESS(a, b)`: `(a - b) & 0x800`. The difference is an `int` in the source;
adding `2 ^ 16` keeps it in range here and leaves its low 16 bits alone. -/
def snLess (a b : Nat) : Bool := (a + 2 ^ 16 - b) &&& 0x800 != 0

/-- `SN_EQUAL`. -/
def snEqual (a b : Nat) : Bool := a == b

/-- `struct recv_reorder_ctrl`. The timer is kept as whether it is armed. -/
structure RecvReorderCtrl where
  enable : Bool := true
  indicateSeq : Nat := 0xFFFF
  wsizeB : Nat := 64
  pendingRecvframeQueue : List RecvFrame := []
  reorderingCtrlTimer : Bool := false

/-- `check_indicate_seq`: the control with `indicate_seq` moved, and whether the
frame may come in. -/
def checkIndicateSeq (c : RecvReorderCtrl) (seqNum : Nat) : RecvReorderCtrl × Bool :=
  let wsize := c.wsizeB
  -- `- 1` on an `int`, then masked to 12 bits
  let wend := (c.indicateSeq + wsize + 0xFFF) &&& 0xFFF
  let c := if c.indicateSeq == 0xFFFF then { c with indicateSeq := seqNum } else c
  if snLess seqNum c.indicateSeq then (c, false)
  else if snEqual seqNum c.indicateSeq then
    ({ c with indicateSeq := (c.indicateSeq + 1) &&& 0xFFF }, true)
  else if snLess wend seqNum then
    if wsize ≤ seqNum + 1 then ({ c with indicateSeq := seqNum + 1 - wsize }, true)
    else ({ c with indicateSeq := 0xFFF - (wsize - (seqNum + 1)) + 1 }, true)
  else (c, true)

/-- The walk of `enqueue_reorder_recvframe`: `none` when a frame with the same
sequence number is already there. -/
def enqueueReorderRecvframe (f : RecvFrame) : List RecvFrame → Option (List RecvFrame)
  | [] => some [f]
  | g :: q =>
    if snLess g.attrib.seqNum f.attrib.seqNum then
      (enqueueReorderRecvframe f q).map (g :: ·)
    else if snEqual g.attrib.seqNum f.attrib.seqNum then none
    else some (f :: g :: q)

/-- The loop of `recv_indicatepkts_in_order` from `indicate_seq` on: the frames
taken off the queue, the new `indicate_seq`, and what stays. -/
def indicateLoop : Nat → List RecvFrame → List RecvFrame × Nat × List RecvFrame
  | ind, [] => ([], ind, [])
  | ind, f :: q =>
    if !snLess ind f.attrib.seqNum then
      let r := indicateLoop (if snEqual ind f.attrib.seqNum then (ind + 1) &&& 0xFFF else ind) q
      (f :: r.1, r.2.1, r.2.2)
    else ([], ind, f :: q)

/-- `recv_indicatepkts_in_order`: `bPktInBuf`, the control, and the frames that
were indicated, in order. -/
def recvIndicatepktsInOrder (c : RecvReorderCtrl) (bforced : Bool) :
    Bool × RecvReorderCtrl × List RecvFrame :=
  match bforced, c.pendingRecvframeQueue with
  | true, [] => (true, c, [])
  | true, f :: q =>
    let r := indicateLoop f.attrib.seqNum (f :: q)
    (!r.2.2.isEmpty, { c with indicateSeq := r.2.1, pendingRecvframeQueue := r.2.2 }, r.1)
  | false, q =>
    let r := indicateLoop c.indicateSeq q
    (!r.2.2.isEmpty, { c with indicateSeq := r.2.1, pendingRecvframeQueue := r.2.2 }, r.1)

/-- What `recv_indicatepkt_reorder` leaves behind: its result, the control, the
frame (still the caller's when the result is `_FAIL`) and the frames that were
indicated, in order. -/
structure ReorderResult where
  ret : Bool
  ctrl : RecvReorderCtrl
  frame : RecvFrame
  indicated : List RecvFrame

/-- Steps `s2` to `s4` of `recv_indicatepkt_reorder`. -/
def reorderInsert (c : RecvReorderCtrl) (f : RecvFrame) : ReorderResult :=
  let (c, ok) := checkIndicateSeq c f.attrib.seqNum
  if !ok then ⟨false, c, f, []⟩
  else
    match enqueueReorderRecvframe f c.pendingRecvframeQueue with
    | none => ⟨false, c, f, []⟩
    | some q =>
      let (inBuf, c, out) := recvIndicatepktsInOrder { c with pendingRecvframeQueue := q } false
      ⟨true, { c with reorderingCtrlTimer := inBuf }, f, out⟩

/-- `recv_indicatepkt_reorder`. `running` is `bDriverStopped` and
`bSurpriseRemoved` both `_FALSE`. -/
def recvIndicatepktReorder (running mpState : Bool) (c : RecvReorderCtrl) (f : RecvFrame) :
    ReorderResult :=
  if !f.attrib.amsdu then
    let (f, ok) := wlanhdrToEthhdr mpState f
    if !ok then ⟨false, c, f, []⟩
    else if !f.attrib.qos then
      if running then ⟨true, c, f, [f]⟩ else ⟨false, c, f, []⟩
    else if !c.enable then
      ⟨true, { c with indicateSeq := (f.attrib.seqNum + 1) % 4096 }, f, [f]⟩
    else reorderInsert c f
  else if !c.enable then
    ⟨true, { c with indicateSeq := (f.attrib.seqNum + 1) % 4096 }, f, [f]⟩
  else reorderInsert c f

/-- `rtw_reordering_ctrl_timeout_handler`. The timer has fired, so it is armed
afterwards only if it is set again. -/
def rtwReorderingCtrlTimeoutHandler (running : Bool) (c : RecvReorderCtrl) :
    RecvReorderCtrl × List RecvFrame :=
  let c := { c with reorderingCtrlTimer := false }
  if !running then (c, [])
  else
    let (inBuf, c, out) := recvIndicatepktsInOrder c true
    ({ c with reorderingCtrlTimer := inBuf }, out)

end Rtl8812au
