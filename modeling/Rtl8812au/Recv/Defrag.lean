import Rtl8812au.Recv.Frame

/-!
# Reassembly of fragments

`rtw_os_alloc_recvframe` gives each received frame its buffer, the first fragment
of an MSDU a larger one; `recvframe_chk_defrag` keeps the fragments of a station
in its `defrag_q`, and `recvframe_defrag` copies them behind the first one.
-/

namespace Rtl8812au

/-- `alloc_sz` of `rtw_os_alloc_recvframe`. -/
def recvAllocSz (a : RxPktAttrib) : Nat :=
  if a.mfrag && a.fragNum == 0 then
    if a.pktLen ≤ 1650 then 1664 else a.pktLen + 14
  else a.pktLen + 14

/-- `rtw_os_alloc_recvframe` on a descriptor whose attributes are already in the
frame: `skb` is the address of the new skb's data, if it could be had; otherwise
the frame may be cloned from the URB buffer, where its bytes stand at `pdata`. -/
def rtwOsAllocRecvframe (skb : Option Nat) (cloneOk : Bool) (urb : Mem) (pdata : Nat)
    (f : RecvFrame) : RecvFrame × Bool :=
  let a := f.attrib
  match skb with
  | some addr =>
    -- 8-byte alignment, then 6 more so that the IP header of a QoS frame is aligned
    let data := addr + (8 - addr % 8) + if a.qos then 6 else 0
    ({ f with
        pkt := true, rxHead := addr, rxEnd := addr + recvAllocSz a,
        rxData := data, rxTail := data,
        buf := f.buf.copy data urb pdata a.pktLen }, true)
  | none =>
    if a.mfrag && a.fragNum == 0 then (f, false)
    else if cloneOk then
      ({ f with
          pkt := true, rxHead := pdata, rxData := pdata, rxTail := pdata,
          rxEnd := pdata + recvAllocSz a, buf := urb }, true)
    else ({ f with pkt := false }, false)

/-- One turn of the loop of `recvframe_defrag`: the fragment after its
`recvframe_pull`, the first frame after its `recvframe_pull_tail`, which is when
the copy is made, and the first frame after its `recvframe_put`. -/
structure DefragStep where
  pulled : RecvFrame
  trimmed : RecvFrame
  joined : RecvFrame

/-- The copy of one turn ends inside the first fragment's buffer. -/
def DefragStep.InBounds (s : DefragStep) : Prop :=
  s.trimmed.rxTail + s.pulled.len ≤ s.trimmed.rxEnd

instance (s : DefragStep) : Decidable s.InBounds := inferInstanceAs (Decidable (_ ≤ _))

/-- The fragment without its MAC header and IV; the offset is kept in a `u8`. -/
def pullFragment (g : RecvFrame) : RecvFrame :=
  (g.pull ((g.attrib.hdrlen + g.attrib.ivLen) % 256 : Nat)).1

/-- Append the fragment `g` to the first frame `f`. -/
def joinFragment (f g : RecvFrame) : DefragStep :=
  let pulled := pullFragment g
  let trimmed := (f.pullTail f.attrib.icvLen).1
  let copied := { trimmed with
    buf := trimmed.buf.copy trimmed.rxTail pulled.buf pulled.rxData pulled.len }
  let joined := (copied.put pulled.len).1
  { pulled := pulled
    trimmed := trimmed
    joined := { joined with attrib := { joined.attrib with icvLen := g.attrib.icvLen } } }

/-- What `recvframe_defrag` does: the frame it returns, the frames it frees, in
order, and the steps of its loop. -/
structure DefragResult where
  frame : Option RecvFrame
  freed : List RecvFrame
  steps : List DefragStep

/-- The loop: `f` is the first frame, `cur` is `curfragnum`. A fragment number has
four bits, so `curfragnum` never gets past 16. -/
def defragLoop (f : RecvFrame) (cur : Nat) : List RecvFrame → Option RecvFrame × List DefragStep
  | [] => (some f, [])
  | g :: q =>
    if cur != g.attrib.fragNum then (none, [])
    else
      let s := joinFragment f g
      let r := defragLoop s.joined (cur + 1) q
      (r.1, s :: r.2)

/-- `recvframe_defrag`. It is only called on a queue that was just appended to. -/
def recvframeDefrag : List RecvFrame → DefragResult
  | [] => ⟨none, [], []⟩
  | f :: q =>
    if f.attrib.fragNum != 0 then ⟨none, f :: q, []⟩
    else
      match defragLoop f 1 q with
      | (some f', steps) => ⟨some f', q, steps⟩
      | (none, steps) => ⟨none, f :: q, steps⟩

/-- What `recvframe_chk_defrag` does before it checks the TKIP MIC: the queue, the
frame it goes on with, the frames it frees, and the steps of a reassembly. -/
structure ChkDefragResult where
  queue : Option (List RecvFrame)
  frame : Option RecvFrame
  freed : List RecvFrame := []
  steps : List DefragStep := []

/-- `recvframe_chk_defrag` up to the MIC check, given the `defrag_q` it found. -/
def chkDefragQueue (pdefragQ : Option (List RecvFrame)) (f : RecvFrame) : ChkDefragResult :=
  if !f.attrib.mfrag && f.attrib.fragNum == 0 then { queue := pdefragQ, frame := some f }
  else
    match pdefragQ with
    | none => { queue := none, frame := none, freed := [f] }
    | some q =>
      if f.attrib.mfrag then
        if f.attrib.fragNum == 0 then { queue := some [f], frame := none, freed := q }
        else { queue := some (q ++ [f]), frame := none }
      else
        let r := recvframeDefrag (q ++ [f])
        { queue := some [], frame := r.frame, freed := r.freed, steps := r.steps }

end Rtl8812au
