import Rtl8812au.Lib.Loop
import Rtl8812au.Lib.OnesSum
import Rtl8812au.Wifi

/-!
# What the bridge rewrites in a frame

The functions of `core/rtw_br_ext.c` that look into what an Ethernet frame carries: `scan_tlv`,
`update_nd_link_layer_addr` and the IPv6 branch of `nat25_db_handle` without its database,
`__nat25_find_pppoe_tag`, and `dhcp_flag_bcast`. The host is little-endian.
-/

namespace Rtl8812au.Nat25

/-- A `struct sk_buff` with its data at address 0, the Ethernet header first. -/
structure Skb where
  data : Mem
  len : Nat

/-- A byte, of which `stop` are there. -/
def byteAt (m : Mem) (stop k : Nat) : Outcome UInt8 := if k < stop then .done (m k) else .overrun

/-- A 16-bit value as the host stores it. -/
def hostBytes (n : Nat) : List UInt8 := [UInt8.ofNat n, UInt8.ofNat (n / 256)]

/-- The two bytes of `htons(n)`. -/
def netBytes (n : Nat) : List UInt8 := [UInt8.ofNat (n / 256), UInt8.ofNat n]

/-! ## Neighbour discovery -/

/-- Where `scan_tlv` is: its `data` and its `len`. -/
structure Scan where
  data : Nat
  len : Int

/-- One turn of `scan_tlv`. The byte behind the type is read in every turn, for the comparison or for
the step. -/
def scanTlvTurn (m : Mem) (stop : Nat) (tag len8b : UInt8) (s : Scan) :
    Outcome (Turn Scan (Option Nat)) :=
  if 0 < s.len then do
    let t ← byteAt m stop s.data
    let l ← byteAt m stop (s.data + 1)
    if t = tag ∧ l = len8b ∧ (len8b.toNat * 8 : Int) ≤ s.len then pure (.stop (some (s.data + 2)))
    else pure (.next ⟨s.data + l.toNat * 8, s.len - l.toNat * 8⟩)
  else .done (.stop none)

/-- `scan_tlv`, with the turns it may take. -/
def scanTlv (fuel : Nat) (m : Mem) (stop : Nat) (data len : Nat) (tag len8b : UInt8) :
    Option (Outcome (Option Nat)) :=
  Loop.run (scanTlvTurn m stop tag len8b) fuel ⟨data, len⟩

/-- The messages with link-layer options: what stands before the options, and the option that is
replaced. -/
def ndOptions (icmp6Type : UInt8) : Option (Nat × UInt8) :=
  if icmp6Type = 133 then some (8, 1)           -- `NDISC_ROUTER_SOLICITATION`
  else if icmp6Type = 134 then some (16, 1)     -- `NDISC_ROUTER_ADVERTISEMENT`
  else if icmp6Type = 135 then some (24, 1)     -- `NDISC_NEIGHBOUR_SOLICITATION`
  else if icmp6Type = 136 then some (24, 2)     -- `NDISC_NEIGHBOUR_ADVERTISEMENT`
  else if icmp6Type = 137 then some (40, 2)     -- `NDISC_REDIRECT`
  else none

/-- `update_nd_link_layer_addr` for the message at `data`: what it returns, and the buffer. -/
def updateNdLinkLayerAddr (fuel : Nat) (m : Mem) (stop data len : Nat) (replaceMac : MacAddr) :
    Option (Outcome (Nat × Mem)) :=
  match byteAt m stop data with
  | .overrun => some .overrun
  | .hangs => some .hangs
  | .done icmp6Type =>
    match ndOptions icmp6Type with
    | none => some (.done (0, m))
    | some (fixed, tag) =>
      if fixed ≤ len then
        (scanTlv fuel m stop (data + fixed) (len - fixed) tag 1).map fun found => do
          match ← found with
          | none => pure (0, m)
          | some mac => if mac + 6 ≤ stop then pure (1, m.write mac replaceMac.bytes) else .overrun
      else some (.done (0, m))

/-! ## The IPv6 branch -/

/-- The pseudo-header of an IPv6 checksum. -/
def pseudoHeader (saddr daddr : List UInt8) (len : UInt32) (proto : UInt8) : List UInt8 :=
  saddr ++ (daddr ++ [(len >>> 24).toUInt8, (len >>> 16).toUInt8, (len >>> 8).toUInt8, len.toUInt8,
    0, 0, 0, proto])

/-- `csum_partial`, with nothing summed up before, and `csum_ipv6_magic` of the kernel. Both are known
modulo 65535 only: the one sums up the words of the range it is given, the other is what the words of the
pseudo-header and that sum lack. -/
structure KernelCsum where
  csumPartial : List UInt8 → UInt32
  csumIpv6Magic : List UInt8 → List UInt8 → UInt32 → UInt8 → UInt32 → UInt16
  csumPartial_sum : ∀ bs, (csumPartial bs).toNat % 65535 = wordSum bs % 65535
  csumIpv6Magic_sum : ∀ saddr daddr len proto sum, saddr.length = 16 → daddr.length = 16 →
    (wordSum (pseudoHeader saddr daddr len proto) + sum.toNat
      + (csumIpv6Magic saddr daddr len proto sum).toNat) % 65535 = 0

/-- The address of the source and of the destination. -/
def saddr6 (m : Mem) : List UInt8 := m.read 22 16
def daddr6 (m : Mem) : List UInt8 := m.read 38 16

/-- The two steps on `icmp6_cksum`. `payload_len` is taken as the host reads it. -/
def KernelCsum.setIcmp6Cksum (k : KernelCsum) (m : Mem) : Mem :=
  let m := m.write 56 (hostBytes 0)
  let payloadLen := m.le16 18
  m.write 56 (hostBytes (k.csumIpv6Magic (saddr6 m) (daddr6 m) (UInt32.ofNat payloadLen) 58
    (k.csumPartial (m.read 54 payloadLen))).toNat)

/-- `nat25_db_handle(NAT25_INSERT)` for an IPv6 frame. -/
def nat25InsertIpv6 (k : KernelCsum) (fuel : Nat) (myHwaddr : MacAddr) (skb : Skb) :
    Option (Outcome (Int × Skb)) :=
  -- `skb->len - ETH_HLEN` is unsigned
  if 14 ≤ skb.len ∧ skb.len - 14 ≤ 40 then some (.done (-1, skb))
  else if saddr6 skb.data = List.replicate 16 0 then some (.done (0, skb))
  else if skb.data 20 = 58 ∧ 58 < skb.len then
    (updateNdLinkLayerAddr fuel skb.data skb.len 54 (skb.len - 54) myHwaddr).map fun updated => do
      let (replaced, data) ← updated
      if replaced ≠ 0 then pure (0, { skb with data := k.setIcmp6Cksum data })
      else pure (0, { skb with data })
  else some (.done (0, skb))

/-! ## PPPoE tags -/

/-- Where `length` of the PPPoE header stands, and its tags. -/
abbrev phLength : Nat := 18
abbrev phTag : Nat := 20

/-- `TAG_HDR_LEN`. -/
abbrev tagHdrLen : Nat := 4

/-- One turn of `__nat25_find_pppoe_tag`. -/
def findPppoeTagTurn (m : Mem) (type cur : Nat) : Outcome (Turn Nat (Option Nat)) :=
  if cur - phTag < m.be16 phLength then
    if m.be16 cur = type then .done (.stop (some cur))
    else .done (.next (cur + tagHdrLen + m.be16 (cur + 2)))
  else .done (.stop none)

/-- `__nat25_find_pppoe_tag` returns `r`. -/
def FindsPppoeTag (m : Mem) (type : Nat) (r : Option Nat) : Prop :=
  Loop.Ends (findPppoeTagTurn m type) phTag r

/-! ## DHCP requests -/

/-- `udph`. -/
def udph (m : Mem) : Nat := 14 + ((m 14).toNat % 16) * 4

/-- `dhcph`. -/
def dhcph (m : Mem) : Nat := udph m + 8

/-- A DHCP request, as `dhcp_flag_bcast` knows one. -/
def isDhcpRequest (m : Mem) : Bool :=
  decide (m.be16 12 = 0x0800) && decide (m 23 = 17) && decide (m.be16 (udph m) = 68)
    && decide (m.be16 (udph m + 2) = 67) && decide (m.read (dhcph m + 236) 4 = [0x63, 0x82, 0x53, 0x63])

/-- The broadcast flag, and the checksum with the flags added. -/
def setBroadcast (m : Mem) : Mem :=
  let flags := m.le16 (dhcph m + 10) ||| 0x80
  let sum := foldCarries ((65535 - m.le16 (udph m + 6)) + flags)
  (m.write (dhcph m + 10) (hostBytes flags)).write (udph m + 6) (hostBytes (65535 - sum))

/-- `dhcp_flag_bcast`. -/
def dhcpFlagBcast (dhcpBcstDisable : Bool) (m : Mem) : Mem :=
  if dhcpBcstDisable then m
  else if isDhcpRequest m then
    if m.le16 (dhcph m + 10) &&& 0x80 = 0 then setBroadcast m else m
  else m

end Rtl8812au.Nat25
