import Rtl8812au.Recv.Path

/-!
# A bulk-in transfer

The device puts several packets into one USB transfer, each behind a descriptor and padded to
eight bytes. `recvbuf2recvframe` of `hal/rtl8812a/usb/usb_ops_linux.c` walks from one to the next
by what the descriptors say. The loop is here with what it reads of the transfer and what it
passes to `rtw_recv_entry`; one turn of it on the adapter is `Rtl8812au.recvbuf2recvframe`. The
PHY status, which only goes into the signal statistics, is left out.
-/

namespace Rtl8812au

/-- `RXDESC_SIZE`. -/
abbrev rxdescSize : Nat := 24

/-- The 32-bit little-endian value at address `p`. -/
def le32At (m : Mem) (p : Nat) : Nat := m.le16 p + m.le16 (p + 2) * 65536

/-- `LE_BITS_TO_4BYTE`. -/
def leBitsTo4Byte (m : Mem) (p bitOffset bitLen : Nat) : Nat :=
  le32At m p / 2 ^ bitOffset % 2 ^ bitLen

/-- What the loop reads off a descriptor. -/
structure RxDesc where
  attrib : RxPktAttrib
  drvinfoSz : Nat
  shiftSz : Nat
  /-- `pkt_rpt_type == NORMAL_RX` -/
  normalRx : Bool

/-- `rtl8812_query_rx_desc_status`. -/
def queryRxDescStatus (m : Mem) (pdesc : Nat) : RxDesc where
  attrib :=
    { pktLen := leBitsTo4Byte m pdesc 0 14
      crcErr := leBitsTo4Byte m pdesc 14 1 = 1
      icvErr := leBitsTo4Byte m pdesc 15 1 = 1
      encrypt := .ofNat (leBitsTo4Byte m pdesc 20 3)
      qos := leBitsTo4Byte m pdesc 23 1 = 1
      bdecrypted := leBitsTo4Byte m pdesc 27 1 = 0
      priority := leBitsTo4Byte m (pdesc + 4) 8 4
      mdata := leBitsTo4Byte m (pdesc + 4) 26 1 = 1
      mfrag := leBitsTo4Byte m (pdesc + 4) 27 1 = 1
      seqNum := leBitsTo4Byte m (pdesc + 8) 0 12
      fragNum := leBitsTo4Byte m (pdesc + 8) 12 4 }
  drvinfoSz := leBitsTo4Byte m pdesc 16 4 * 8 % 256
  shiftSz := leBitsTo4Byte m pdesc 24 2
  normalRx := leBitsTo4Byte m (pdesc + 8) 28 1 = 0

namespace RxDesc

variable (d : RxDesc)

/-- Where the packet is, from its descriptor on. -/
def dataOffset : Nat := rxdescSize + d.drvinfoSz + d.shiftSz

/-- `pkt_offset`. -/
def pktOffset : Nat := d.dataOffset + d.attrib.pktLen

/-- `(u16)_RND8(pkt_offset)`. -/
def nextOffset : Nat := rnd8 d.pktOffset % 2 ^ 16

def err : Bool := d.attrib.crcErr || d.attrib.icvErr

end RxDesc

/-- What a turn of the loop gets from outside: a frame of the pool, the skb, or the clone of the
transfer's own skb. -/
structure TurnEnv where
  frame : Option Nat := some 0
  skb : Option Nat := some 0
  cloneOk : Bool := true

/-- What the loop does with the transfer: it reads a descriptor, takes the bytes of a packet,
passes a frame to `rtw_recv_entry`. -/
inductive BulkEvent where
  | desc (pos : Nat)
  | packet (pos len : Nat)
  | entry (f : RecvFrame)

namespace BulkEvent

/-- The bytes are inside a transfer of `len` bytes. -/
def InTransfer (len : Nat) : BulkEvent → Prop
  | .desc pos => pos + rxdescSize ≤ len
  | .packet pos n => pos + n ≤ len
  | .entry _ => True

instance (len : Nat) : DecidablePred (InTransfer len)
  | .desc _ => inferInstanceAs (Decidable (_ ≤ _))
  | .packet _ _ => inferInstanceAs (Decidable (_ ≤ _))
  | .entry _ => inferInstanceAs (Decidable True)

/-- The frame that is passed on. -/
def entry? : BulkEvent → Option RecvFrame
  | .entry f => some f
  | _ => none

end BulkEvent

/-- The loop of `recvbuf2recvframe` from turn `k` on, with `pbuf` at `pos` and `transfer_len`
bytes left. It has no result when `fuel` turns do not end it. -/
def recvbufLoop (mpMode : Bool) (env : Nat → TurnEnv) (m : Mem) :
    (fuel k pos : Nat) → (transferLen : Int) → Option (List BulkEvent)
  | 0, _, _, _ => none
  | fuel + 1, k, pos, transferLen =>
    match (env k).frame with
    | none => some []
    | some id =>
      let d := queryRxDescStatus m pos
      let f : RecvFrame := { id := id, attrib := d.attrib, pkt := false }
      if !mpMode && d.err then some [.desc pos]
      -- `pkt_offset > transfer_len` is a comparison of `u32`
      else if d.attrib.pktLen = 0 ∨ transferLen % 2 ^ 32 < d.pktOffset then some [.desc pos]
      else
        match rtwOsAllocRecvframe (env k).skb (env k).cloneOk m (pos + d.dataOffset) f with
        | (_, false) => some [.desc pos]
        | (f, true) =>
          let f := (f.put d.attrib.pktLen).1
          let events := .desc pos :: .packet (pos + d.dataOffset) d.attrib.pktLen ::
            if d.normalRx then [.entry f] else []
          let transferLen := transferLen - d.nextOffset
          if 0 < transferLen then
            (recvbufLoop mpMode env m fuel (k + 1) (pos + d.nextOffset) transferLen).map
              (events ++ ·)
          else some events

/-- The loop over a transfer of `len` bytes. -/
def recvbufWalk (mpMode : Bool) (env : Nat → TurnEnv) (m : Mem) (len fuel : Nat) :
    Option (List BulkEvent) :=
  recvbufLoop mpMode env m fuel 0 0 len

/-! ## One turn on the adapter -/

/-- The packet whose descriptor is at `pos`, with `transferLen` bytes left. -/
def rxPacketAt (m : Mem) (env : TurnEnv) (pos : Nat) (transferLen : Int) : RxPacket :=
  let d := queryRxDescStatus m pos
  { attrib := d.attrib
    complete := !decide (transferLen % 2 ^ 32 < d.pktOffset)
    skb := env.skb
    cloneOk := env.cloneOk
    urb := m
    pdata := pos + d.dataOffset
    normalRx := d.normalRx }

end Rtl8812au
