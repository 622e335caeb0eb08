import Rtl8812au.Xmit.Coalesce

/-!
# Handing a frame to the device

`update_txdesc` and `rtw_dump_xframe` of `hal/rtl8812a/usb/rtl8812au_xmit.c`: every fragment of a
frame is submitted by itself, behind a descriptor that says how long it is. Where a fragment is
comes from an arithmetic of its own again, and from `buf_addr`, which `usb_write_port` takes as
the address of the transfer.

The descriptor is kept as far as it says where the MPDU is.
-/

namespace Rtl8812au

/-- `usb_speed`. -/
inductive UsbSpeed where
  | full | high | super
  deriving Repr, DecidableEq

/-- `rtw_usb_bulk_size_boundary`. What it finds for USB 3.0 is overwritten by the `else`. -/
def rtwUsbBulkSizeBoundary (speed : UsbSpeed) (bufLen : Nat) : Bool :=
  if speed = .high then bufLen % 512 = 0 else bufLen % 64 = 0

/-- A descriptor: where it is, `PKT_SIZE` and `PKT_OFFSET`. -/
structure TxDesc where
  addr : Nat
  pktSize : Nat
  pktOffset : Nat
  deriving Repr, DecidableEq

/-- The MPDU that a descriptor at its address describes: start and length. -/
def TxDesc.mpdu (d : TxDesc) : Nat × Nat :=
  (d.addr + txdescSize + d.pktOffset * packetOffsetSz, d.pktSize)

/-- What `update_txdesc` reads of the adapter. -/
structure TxEnv where
  mpMode : Bool := false
  speed : UsbSpeed := .high

/-- `update_txdesc`: the descriptor, `pkt_offset` afterwards, and `pull`. -/
def updateTxdesc (env : TxEnv) (pktOffset pmem sz : Nat) (baggPkt : Bool) : TxDesc × Nat × Bool :=
  let pull := !env.mpMode && !baggPkt && !rtwUsbBulkSizeBoundary env.speed (txdescSize + sz)
  let ptxdesc := if pull then pmem + packetOffsetSz else pmem
  let pktOffset := if pull && 0 < pktOffset then pktOffset - 1 else pktOffset
  (⟨ptxdesc, sz % 2 ^ 16, pktOffset % 2 ^ 5⟩, pktOffset, pull)

/-- A transfer that is submitted: from `buf_addr`, `w_sz` bytes, with the descriptor that was
written for it. -/
structure TxPiece where
  bufAddr : Nat
  wSz : Nat
  desc : TxDesc
  deriving Repr, DecidableEq

/-- The loop of `rtw_dump_xframe` with `n` fragments to go. -/
def dumpLoop (env : TxEnv) (fragLen : Nat) (swEncrypt : Bool) (a : PktAttrib) :
    (n memAddr bufAddr pktOffset : Nat) → List TxPiece
  | 0, _, _, _ => []
  | n + 1, memAddr, bufAddr, pktOffset =>
    let sz :=
      if n ≠ 0 then fragLen - 4 - (if swEncrypt then 0 else a.icvLen) else a.lastTxcmdsz
    let (desc, pktOffset, pull) := updateTxdesc env pktOffset memAddr sz false
    let memAddr := if pull then memAddr + packetOffsetSz else memAddr
    let bufAddr := if pull then memAddr else bufAddr
    let wSz := if pull then sz + txdescSize else sz + txdescSize + packetOffsetSz
    ⟨bufAddr, wSz, desc⟩ ::
      dumpLoop env fragLen swEncrypt a n (rnd4 (memAddr + wSz)) bufAddr pktOffset

/-- `rtw_dump_xframe`: what it submits. -/
def rtwDumpXframe (env : TxEnv) (fragLen : Nat) (swEncrypt : Bool) (x : XmitFrame) : List TxPiece :=
  dumpLoop env fragLen swEncrypt x.attrib x.attrib.nrFrags x.bufAddr x.bufAddr x.pktOffset

end Rtl8812au
