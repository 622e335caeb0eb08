import Rtl8812au.Recv.Frame

/-!
# From 802.11 to Ethernet

`wlanhdr_to_ethhdr` rewrites the header of a received MSDU in place;
`amsdu_to_msdu` with `rtw_os_alloc_msdu_pkt` cuts an A-MSDU into packets of their
own. Both decide by the same look at the LLC header whether the two bytes after
it are the EtherType or whether the packet gets a length field instead.
-/

namespace Rtl8812au

/-- An Ethernet packet on its way to the network stack. -/
abbrev Pkt := List UInt8

namespace Pkt

/-- What `eth_type_trans` finds behind the two addresses. -/
def etherType (p : Pkt) : Nat := (p.getD 12 0).toNat * 256 + (p.getD 13 0).toNat

end Pkt

def ethHlen : Nat := 14
def snapSize : Nat := 6
def maxSubframeCount : Nat := 64

/-- `rtw_rfc1042_header`. -/
def rfc1042Header : List UInt8 := [0xaa, 0xaa, 0x03, 0x00, 0x00, 0x00]

/-- `rtw_bridge_tunnel_header`. -/
def bridgeTunnelHeader : List UInt8 := [0xaa, 0xaa, 0x03, 0x00, 0x00, 0xf8]

def ethPIpx : Nat := 0x8137
def ethPAarp : Nat := 0x80f3

/-- The LLC/SNAP header at `p` is one that is removed on the way up. -/
def snapRemoved (m : Mem) (p : Nat) : Bool :=
  (m.read p snapSize == rfc1042Header
    && m.be16 (p + snapSize) != ethPIpx && m.be16 (p + snapSize) != ethPAarp)
  || m.read p snapSize == bridgeTunnelHeader

/-- The two bytes of a 16-bit value in network order. -/
def htons (n : Nat) : List UInt8 := [UInt8.ofNat (n / 256), UInt8.ofNat n]

/-- `wlanhdr_to_ethhdr`; `mpState` is `check_fwstate(pmlmepriv, WIFI_MP_STATE)`.
The frame comes back changed also when the result is `_FAIL`. -/
def wlanhdrToEthhdr (mpState : Bool) (f : RecvFrame) : RecvFrame × Bool :=
  let ptr := f.rxData
  let f := if f.attrib.encrypt != .noPrivacy then (f.pullTail f.attrib.icvLen).1 else f
  let hdr := f.attrib.hdrlen + f.attrib.ivLen
  let bsnaphdr := snapRemoved f.buf (ptr + hdr)
  let rmvLen := hdr + if bsnaphdr then snapSize else 0
  let len := (((f.len : Int) - rmvLen) % 2 ^ 16).toNat
  let f := { f with attrib := { f.attrib with ethType := f.buf.be16 (ptr + rmvLen) } }
  let (f, ptr, ok) :=
    if mpState then
      let f := { f with buf := f.buf.write (ptr + rmvLen) [0x87, 0x12] }
      let (f, ok) := f.pull ((rmvLen : Int) - ethHlen + 2 - 24)
      if ok then
        -- the RX status goes in front of an MP test packet
        ({ f with buf := f.buf.copy f.rxData f.buf f.rxHead 24 }, f.rxData + 24, true)
      else (f, f.rxData, false)
    else
      let (f, ok) := f.pull ((rmvLen : Int) - ethHlen + if bsnaphdr then 2 else 0)
      (f, f.rxData, ok)
  if ok then
    let buf := (f.buf.write ptr f.attrib.dst.bytes).write (ptr + 6) f.attrib.src.bytes
    let buf := if bsnaphdr then buf else buf.write (ptr + 12) (htons len)
    ({ f with buf := buf }, true)
  else (f, false)

/-- `rtw_os_alloc_msdu_pkt` for the subframe at `pdata` with `n` bytes of payload,
given that the skb could be had. -/
def rtwOsAllocMsduPkt (a : RxPktAttrib) (m : Mem) (n pdata : Nat) : Pkt :=
  let data := m.read (pdata + ethHlen) n
  if 8 ≤ n ∧ snapRemoved m (pdata + ethHlen) then
    a.dst.bytes ++ a.src.bytes ++ data.drop snapSize
  else
    a.dst.bytes ++ a.src.bytes ++ htons n ++ data

/-- The loop of `amsdu_to_msdu`, with room for `room` more subframes; `alloc k`
says whether the skb of the `k`-th subframe can be had. -/
def parseSubframes (a : RxPktAttrib) (m : Mem) (alloc : Nat → Bool) :
    (room pdata : Nat) → (aLen : Int) → List Pkt
  | 0, _, _ => []
  | room + 1, pdata, aLen =>
    if aLen ≤ ethHlen then []
    else
      let n := m.be16 (pdata + 12)
      if aLen < ethHlen + n then []
      else if !alloc (maxSubframeCount - (room + 1)) then []
      else
        let sub := rtwOsAllocMsduPkt a m n pdata
        let pdata := pdata + ethHlen + n
        let aLen := aLen - ethHlen - n
        if aLen = 0 then [sub]
        else
          let pad := (4 - (n + ethHlen) % 4) % 4
          if aLen < pad then [sub]
          else sub :: parseSubframes a m alloc room (pdata + pad) (aLen - pad)

/-- A `uint` read as an `int`. -/
def toInt32 (n : Nat) : Int := if n < 2 ^ 31 then n else (n : Int) - 2 ^ 32

/-- The packets that `amsdu_to_msdu` cuts out of an A-MSDU. -/
def amsduSubframes (alloc : Nat → Bool) (f : RecvFrame) : List Pkt :=
  let f := (f.pull f.attrib.hdrlen).1
  let f := if 0 < f.attrib.ivLen then (f.pull f.attrib.ivLen).1 else f
  parseSubframes f.attrib f.buf alloc maxSubframeCount f.rxData (toInt32 f.len)

/-! ## What the header rewrite leaves alone -/

/-- What identifies a frame to the reorder buffer. -/
theorem wlanhdrToEthhdr_same (mp : Bool) (f : RecvFrame) :
    (wlanhdrToEthhdr mp f).1.id = f.id
      ∧ (wlanhdrToEthhdr mp f).1.attrib
        = { f.attrib with ethType := (wlanhdrToEthhdr mp f).1.attrib.ethType } := by
  unfold wlanhdrToEthhdr
  dsimp only
  split_ifs <;> simp

@[simp] theorem wlanhdrToEthhdr_id (mp : Bool) (f : RecvFrame) :
    (wlanhdrToEthhdr mp f).1.id = f.id := (wlanhdrToEthhdr_same mp f).1

@[simp] theorem wlanhdrToEthhdr_seqNum (mp : Bool) (f : RecvFrame) :
    (wlanhdrToEthhdr mp f).1.attrib.seqNum = f.attrib.seqNum := by
  rw [(wlanhdrToEthhdr_same mp f).2]

end Rtl8812au
