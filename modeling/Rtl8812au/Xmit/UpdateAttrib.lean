import Rtl8812au.Xmit.Coalesce
import Rtl8812au.Recv.EthHdr

/-!
# From an Ethernet packet to transmit attributes

`update_attrib` of `core/rtw_xmit.c` with `update_attrib_phy_info`, `set_qos` and
`qos_acm`: who sends and receives the frame is decided here, by the role of the adapter,
and `rtw_make_wlanhdr` only copies it.

What `update_attrib` asks of other parts for DHCP and ICMP packets, and the rates,
bandwidths and checksum offload of the descriptor, is left out.
-/

namespace Rtl8812au

/-- An Ethernet frame. -/
structure EthFrame where
  dst : MacAddr
  src : MacAddr
  etherType : Nat
  etherType_lt : etherType < 2 ^ 16
  payload : List UInt8

/-- The frame as the network stack hands it over. -/
def EthFrame.bytes (e : EthFrame) : Pkt :=
  e.dst.bytes ++ (e.src.bytes ++ (htons e.etherType ++ e.payload))

/-- The address at byte `i` of a packet. -/
def Pkt.addrAt (pkt : Pkt) (i : Nat) : MacAddr := .ofMem (fun k => pkt.getD k 0) i

/-- `qos_acm`: the next lower priority that needs no admission. -/
def qosAcm (acmMask priority : Nat) : Nat :=
  match priority with
  | 0 | 3 => if acmMask.testBit 1 then 1 else priority
  | 4 | 5 => if acmMask.testBit 2 then 0 else priority
  | 6 | 7 => if acmMask.testBit 3 then 5 else priority
  | _ => priority

/-- `set_qos`: the priority of an IPv4 packet is in its TOS byte. -/
def setQos (pkt : Pkt) (x : PktAttrib) : PktAttrib :=
  { x with
    priority := if x.etherType = 0x0800 then (pkt.getD 15 0).toNat >>> 5 else 0
    subtype := wifiQosDataType
    hdrlen := 26
    hdr := Or.inr ⟨rfl, rfl⟩ }

section

variable (a : Adapter) (pkt : Pkt) (x : PktAttrib)

/-- The Ethernet header, and the receiver and transmitter that follow from it. -/
def attribAddrs : PktAttrib :=
  let x := { x with
    etherType := pkt.etherType, dst := pkt.addrAt 0, src := pkt.addrAt 6
    pktlen := pkt.length - ethHlen }
  if a.mlme.adhocState || a.mlme.adhocMasterState then { x with ra := x.dst, ta := a.myid }
  else if a.mlme.stationState then { x with ra := a.mlme.bssid, ta := a.myid }
  else if a.mlme.apState then { x with ra := x.dst, ta := a.mlme.bssid }
  else x

/-- `update_attrib_phy_info` and what `update_attrib` sets behind it for the station in
slot `s`; `qosOption` is the `qos_option` of that station. -/
def attribHdr (s : StaSlot) (qosOption : Bool) : PktAttrib :=
  { x with
    mdata := false, eosp := 0, qosEn := qosOption
    psta := some s, ackPolicy := 0, pktHdrlen := ethHlen
    hdrlen := 24, subtype := wifiDataType, hdr := plainHdr, priority := 0 }

/-- The end of `update_attrib`. A station goes by what it agreed on with its access
point, and `acm_mask` is what that asks admission for. -/
def attribQos (acmMask : Nat) : PktAttrib :=
  if a.mlme.apState || a.mlme.adhocState || a.mlme.adhocMasterState then
    if x.qosEn then setQos pkt x else x
  else if a.mlme.qosOption then
    let x := setQos pkt x
    if acmMask ≠ 0 then { x with priority := qosAcm acmMask x.priority } else x
  else x

/-- `update_attrib`. `none` is `_FAIL`. The station comes back with its next packet
number; `qosOf` is the `qos_option` of each station. -/
def updateAttrib (qosOf : StaSlot → Bool) (acmMask : Nat) : Option (Adapter × PktAttrib) :=
  let x := attribAddrs a pkt x
  match if x.ra.isMcast then rtwGetBcmcStainfo a else rtwGetStainfo a x.ra with
  | none => none
  | some s =>
    if !(a.sta s).linked then none
    else
      let r := updateAttribSecInfo a.mlme.mpState a.sec (a.sta s) x
      if !r.ok then none
      else
        some (a.updSta s fun y => { y with dot11txpn := r.dot11txpn },
          attribQos a pkt (attribHdr r.attrib s (qosOf s)) acmMask)

/-- The station that `rtw_get_stainfo` finds, as `rtw_make_wlanhdr` looks at it. -/
def staOf (addr : MacAddr) : Option (Nat × StaInfo) :=
  (rtwGetStainfo a addr).map fun s => (s.val, a.sta s)

end

namespace EthFrame

/-! ## The addresses and the type of a frame -/

variable (e : EthFrame)

theorem etherType_bytes : Pkt.etherType e.bytes = e.etherType := by
  have h := e.etherType_lt
  show (UInt8.ofNat (e.etherType / 256)).toNat * 256 + (UInt8.ofNat e.etherType).toNat = _
  rw [UInt8.toNat_ofNat', UInt8.toNat_ofNat']
  omega

theorem drop_bytes : e.bytes.drop ethHlen = e.payload := rfl

theorem length_bytes : e.bytes.length = ethHlen + e.payload.length := by
  simp only [bytes, List.length_append, MacAddr.length_bytes, htons, List.length_cons,
    List.length_nil, ethHlen]
  omega

end EthFrame

end Rtl8812au
